import Pr2Ethercat.CommandAge
import Pr2Ethercat.Current

/-!
# Which boards the program drives, and how hard

`wg05.h` initialises `target_slave` to 13 and `current_amplitude` to 10, and the
real-time thread is at work before `main` has read the number of the slave. So
until then, and for a cycle or two after, the board of rank 13 is driven if the
ring has that many; afterwards only the one whose rank was typed is. The input
loop lets no amplitude through that is not positive, so the current of a board
that is driven lies between 0 and an amplitude somebody has given, provided that
it fits into 16 bits.

`GivenBy` is what the program's globals are after a run, in terms of what was
typed in it, and `frames_bounded` the result for every frame of every
interleaving. Every reply, and what the exchange of `setMasterBuffer` left, is
taken to be the image sent, altered through read windows only (`CameBack`).
-/

namespace Pr2Ethercat

open ByteArea Layout Mesa

/-! ## What was typed -/

/-- The number that `main` reads into `target_slave`. -/
def ThreadAction.target? : ThreadAction → Option (BitVec 32)
  | .readTarget input => input
  | _ => none

/-- `target_slave` after the actions `as`. -/
def targetAfter (as : List ThreadAction) : BitVec 32 :=
  (as.findSome? ThreadAction.target?).getD Shared.initial.targetSlave

/-- The amplitude is positive, and that of `wg05.h` or one typed in. -/
def AmplitudeOf (as : List ThreadAction) (amplitude : Rat) : Prop :=
  0 < amplitude ∧
    (amplitude = Shared.initial.currentAmplitude ∨ .readAmplitude (some amplitude) ∈ as)

/-- What a run `as` makes of the globals, and of the local variable of `main`. -/
structure GivenBy (as : List ThreadAction) (s : Threads) : Prop where
  target : s.globals.targetSlave = targetAfter as
  unread : s.main = .readingTarget → as.findSome? ThreadAction.target? = none
  amplitude : AmplitudeOf as s.globals.currentAmplitude
  asked : ∀ x, s.main = .readingAmplitude x →
    x = Shared.initial.currentAmplitude ∨ .readAmplitude (some x) ∈ as

section Given

variable {sin : Rat → Rat} {fresh : Area} {threshold : Int} {as : List ThreadAction}
  {s s' : Threads} {a : ThreadAction}

/-- A turn of the input loop that goes on. -/
theorem readAmplitude_of_pos {amplitude : Rat} {input : Option Rat}
    (hpos : input.getD amplitude > 0) :
    s.readAmplitude amplitude input =
      { s with
        globals := { s.globals with currentAmplitude := input.getD amplitude }
        main := .readingAmplitude (input.getD amplitude) } := by
  unfold Threads.readAmplitude inputTurn
  simp only [if_pos hpos, if_true]

/-- And the last one. -/
theorem readAmplitude_of_not_pos {amplitude : Rat} {input : Option Rat}
    (hpos : ¬ input.getD amplitude > 0) :
    s.readAmplitude amplitude input = { s with main := .clearing } := by
  unfold Threads.readAmplitude inputTurn
  simp only [if_neg hpos, if_neg Bool.false_ne_true]

theorem givenBy_start (d : Driver) : GivenBy [] (Threads.start d) where
  target := rfl
  unread _ := rfl
  amplitude := ⟨show (0 : Rat) < 10 by norm_num, Or.inl rfl⟩
  asked _ h := nomatch h

theorem AmplitudeOf.append {x : Rat} (h : AmplitudeOf as x) (rest : List ThreadAction) :
    AmplitudeOf (as ++ rest) x :=
  ⟨h.1, h.2.imp id (List.mem_append_left rest)⟩

theorem targetAfter_append_of_none (ha : a.target? = none) :
    targetAfter (as ++ [a]) = targetAfter as := by
  unfold targetAfter
  rw [List.findSome?_append, List.findSome?_singleton, ha, Option.or_none]

/-- A step of another thread, or of `main` where it reads nothing. -/
theorem GivenBy.keep (h : GivenBy as s) (ha : a.target? = none)
    (htarget : s'.globals.targetSlave = s.globals.targetSlave)
    (hamplitude : s'.globals.currentAmplitude = s.globals.currentAmplitude)
    (hmain : s'.main = s.main ∨ s'.main ≠ .readingTarget ∧ ∀ x, s'.main ≠ .readingAmplitude x) :
    GivenBy (as ++ [a]) s' := by
  constructor
  case target => rw [htarget, h.target, targetAfter_append_of_none ha]
  case unread =>
    intro hreading
    rcases hmain with hsame | hnot
    · rw [List.findSome?_append, h.unread (hsame.symm.trans hreading), List.findSome?_singleton, ha]
      rfl
    · exact absurd hreading hnot.1
  case amplitude =>
    rw [hamplitude]
    exact h.amplitude.append [a]
  case asked =>
    intro x hreading
    rcases hmain with hsame | hnot
    · exact (h.asked x (hsame.symm.trans hreading)).imp id (List.mem_append_left [a])
    · exact absurd hreading (hnot.2 x)

/-- **Step lemma.** -/
theorem GivenBy.step (h : GivenBy as s) (hstep : ThreadStep sin fresh threshold s a s') :
    GivenBy (as ++ [a]) s' := by
  cases hstep with
  | readTarget input hpc =>
    have hnone := h.unread hpc
    have htarget : targetAfter (as ++ [.readTarget input])
        = input.getD s.globals.targetSlave := by
      rw [h.target]
      unfold targetAfter
      rw [List.findSome?_append, hnone, List.findSome?_singleton, Option.none_or]
      rfl
    constructor
    case target => exact htarget.symm
    case unread => exact fun hreading => nomatch hreading
    case amplitude => exact h.amplitude.append _
    case asked =>
      intro x hreading
      cases hreading
      exact Or.inl rfl
  | @readAmplitude amplitude input hpc =>
    have hread : input.getD amplitude = Shared.initial.currentAmplitude ∨
        .readAmplitude (some (input.getD amplitude)) ∈ as ++ [.readAmplitude input] := by
      cases input with
      | none => exact (h.asked amplitude hpc).imp id (List.mem_append_left _)
      | some x => exact Or.inr (List.mem_append_right as (List.mem_singleton.mpr rfl))
    by_cases hpos : input.getD amplitude > 0
    · rw [readAmplitude_of_pos hpos]
      constructor
      case target => exact h.target.trans (targetAfter_append_of_none rfl).symm
      case unread => exact fun hreading => nomatch hreading
      case amplitude => exact ⟨hpos, hread⟩
      case asked =>
        intro x hreading
        cases hreading
        exact hread
    · rw [readAmplitude_of_not_pos hpos]
      exact h.keep rfl rfl rfl (Or.inr ⟨nofun, nofun⟩)
  | clear hpc => exact h.keep rfl rfl rfl (Or.inr ⟨nofun, nofun⟩)
  | joinRealTime hpc hdone => exact h.keep rfl rfl rfl (Or.inr ⟨nofun, nofun⟩)
  | joinMonitor hpc hdone => exact h.keep rfl rfl rfl (Or.inr ⟨nofun, nofun⟩)
  | close reached hpc => exact h.keep rfl rfl rfl (Or.inr ⟨nofun, nofun⟩)
  | _ => exact h.keep rfl rfl rfl (Or.inl rfl)

/-- The globals at some moment of a run that goes on to be `as`. -/
def GivenWithin (as : List ThreadAction) (g : Shared) : Prop :=
  (g.targetSlave = Shared.initial.targetSlave ∨ g.targetSlave = targetAfter as) ∧
    AmplitudeOf as g.currentAmplitude

/-- What has been read once is not read again. -/
theorem GivenWithin.append {g : Shared} (h : GivenWithin as g) (rest : List ThreadAction) :
    GivenWithin (as ++ rest) g := by
  obtain ⟨htarget, hamplitude⟩ := h
  refine ⟨?_, hamplitude.append rest⟩
  unfold targetAfter at htarget ⊢
  rw [List.findSome?_append]
  cases hread : as.findSome? ThreadAction.target? with
  | none =>
    rw [hread] at htarget
    exact Or.inl (htarget.elim id id)
  | some target =>
    rw [hread] at htarget
    exact htarget

theorem GivenBy.within (h : GivenBy as s) (rest : List ThreadAction) :
    GivenWithin (as ++ rest) s.globals :=
  GivenWithin.append ⟨Or.inr h.target, h.amplitude⟩ rest

variable {ring : List Nat}

/-- **Run lemma.** -/
theorem givenBy_run {s₀ s : Threads} (h₀ : GivenBy [] s₀)
    (run : Run (RingStep sin fresh threshold ring) s₀ as s) : ∀ rest : List ThreadAction,
      GivenBy as s ∧
        Run (Within (fun s => GivenWithin (as ++ rest) s.globals)
          (RingStep sin fresh threshold ring)) s₀ as s := by
  induction run with
  | start => exact fun _ => ⟨h₀, Run.start⟩
  | @next as t u a _ step ih =>
    intro rest
    obtain ⟨hgiven, run⟩ := ih ([a] ++ rest)
    have hgiven' := hgiven.step step.1
    rw [List.append_assoc]
    refine ⟨hgiven', run.next ⟨step, hgiven.within _, ?_⟩⟩
    rw [← List.append_assoc]
    exact hgiven'.within rest

end Given

/-! ## What the boards are told -/

/-- For a positive amplitude that fits, the current does too. -/
theorem programmedCurrent_bounded {sin : Rat → Rat} (hsin : ∀ x, -1 ≤ sin x ∧ sin x ≤ 1)
    {s : Shared} (hpos : 0 < s.currentAmplitude) (hfits : s.currentAmplitude < 32768) :
    0 ≤ (programmedCurrent sin s).toInt ∧
      ((programmedCurrent sin s).toInt : Rat) ≤ s.currentAmplitude := by
  obtain ⟨hlo, hhi⟩ := hsin (2 * piWg05 * frequency * currentTimeInSec s.now)
  have hnonneg := commandedCurrent_nonneg hpos hlo
  have hle := commandedCurrent_mono hpos hhi
  rw [commandedCurrent_one] at hle
  have hfloor : (programmedCurrent sin s).toInt = ⌊commandedCurrent s.currentAmplitude
      (sin (2 * piWg05 * frequency * currentTimeInSec s.now))⌋ :=
    toInt_narrow hnonneg (lt_of_le_of_lt hle hfits)
  rw [hfloor]
  exact ⟨Int.floor_nonneg.mpr hnonneg, (Int.floor_le _).trans hle⟩

/-- If the exchange of `setMasterBuffer` came back too, the commands in both
halves are off to begin with. -/
theorem fresh_start (sin : Rat → Rat) (G : Shared → Prop) {env : StartupEnv} {ring : List Nat}
    (hne : (getSlaveHandles env.bus).2.slaveHandles ≠ [])
    (hring : ∀ sh ∈ ring, sh ∈ env.wg05s ∨ (env.bus.slaves sh).fmmuConfig = none)
    (hback : CameBack (started env) ring (fun _ => 0) (initialImage env.buffers)) :
    RealTimePc.Fresh sin G 2 (started env) .testing := by
  have hhandles : env.configured.numHandles ≠ 0 := by
    rw [Driver.numHandles, env.configured_table, Ne, List.length_eq_zero_iff]
    exact hne
  obtain ⟨back, haltered, hsame⟩ := hback
  have hd : OnRing env (started env) := onRing_started hne
  have hhalf : ∀ half, (∀ j < imageSize (getSlaveHandles env.bus).2,
      (started env).mem (half + j) = initialImage env.buffers j) →
        OrderedUpTo sin G (started env).numHandles (started env) half := by
    intro half himage i hi
    have hslot : slotSize * (i + 1) ≤ imageSize (started env).table := slot_le_imageSize hi
    have hkept := commands_unaltered env.buffers env.mem hd.sameSlaves hring haltered i
    rw [hd.sameTable] at hslot
    refine Or.inl ?_
    calc slice (started env).mem (half + slotSize * i) commandSize
        = slice back (slotSize * i) commandSize := by
          refine slice_eq_iff.mpr fun j hj => ?_
          have hin : slotSize * i + j < imageSize (getSlaveHandles env.bus).2 := by
            simp only [slotSize_eq, commandSize] at hslot hj ⊢
            omega
          have hreceived := slice_eq_iff.mp hsame (slotSize * i + j)
            (by rw [started_eq env hhandles]; exact hin)
          rw [Nat.zero_add] at hreceived
          rw [Nat.add_assoc, himage _ hin, hreceived]
      _ = slice (fun _ => 0) (slotSize * i) commandSize := hkept
      _ = List.replicate commandSize 0 := List.map_const' ..
  constructor
  · intro _
    refine hhalf _ fun j hj => ?_
    rw [started_eq env hhandles]
    exact startMem_second _ _ _ hj
  · intro _
    refine hhalf _ fun j hj => ?_
    rw [started_eq env hhandles]
    exact startMem_first _ _ _ hj

/-- The board of rank `k` is told nothing, or is one of the two that can be
targets; then its current is between 0 and an amplitude given, if that fits. -/
def Bounded (sin : Rat → Rat) (as : List ThreadAction) (k : Nat) (command : List Byte) : Prop :=
  command = List.replicate commandSize 0 ∨
    (k = Shared.initial.targetSlave.toNat ∨ k = (targetAfter as).toNat) ∧
      ∃ g : Shared, AmplitudeOf as g.currentAmplitude ∧
        command = (targetCommand sin g).bytes ∧
        (g.currentAmplitude < 32768 → 0 ≤ (programmedCurrent sin g).toInt ∧
          ((programmedCurrent sin g).toInt : Rat) ≤ g.currentAmplitude)

theorem Ordered.bounded {sin : Rat → Rat} (hsin : ∀ x, -1 ≤ sin x ∧ sin x ≤ 1)
    {as : List ThreadAction} {k : Nat} {command : List Byte}
    (h : Ordered sin (GivenWithin as) k command) : Bounded sin as k command := by
  rcases h with hoff | ⟨target, g, ⟨htarget, _⟩, ⟨_, hamplitude⟩, rfl, hcommand⟩
  · exact Or.inl hoff
  · refine Or.inr ⟨htarget.imp (congrArg _) (congrArg _), g, hamplitude, hcommand, fun hfits => ?_⟩
    exact programmedCurrent_bounded hsin hamplitude.1 hfits

/-- In a run that has come to an attempt, the orders of its frame were given in it. -/
theorem boardsOrdered_given {sin : Rat → Rat} {fresh : Area} {threshold : Int} {env : StartupEnv}
    {ring : List Nat} (hne : (getSlaveHandles env.bus).2.slaveHandles ≠ [])
    (hring : ∀ sh ∈ ring, sh ∈ env.wg05s ∨ (env.bus.slaves sh).fmmuConfig = none)
    (hback : CameBack (started env) ring (fun _ => 0) (initialImage env.buffers))
    {as : List ThreadAction} {s : Threads}
    (run : Run (RingStep sin fresh threshold ring) (Threads.start (started env)) as s)
    {k : Nat} (hpc : s.rt = .exchanging k) : BoardsOrdered sin (GivenWithin as) env s := by
  have hrun := (givenBy_run (givenBy_start _) run []).2
  rw [List.append_nil] at hrun
  obtain ⟨hat, h⟩ := fresh_run hring (atRing_start hne) (fresh_start sin _ hne hring hback) hrun
  exact boardsOrdered_of_fresh hat (by omega) hpc h

/-- **The boards driven.** In every run of the threads from start-up on in which
what is received, by `setMasterBuffer` too, comes back from the slaves, and for
every frame that is about to go out: the only boards that are told anything are
those of rank 13 and of the number `main` has read, and what they are told is a
current between 0 and an amplitude that was given. -/
theorem frames_bounded (sin : Rat → Rat) (hsin : ∀ x, -1 ≤ sin x ∧ sin x ≤ 1) (fresh : Area)
    (threshold : Int) (env : StartupEnv)
    (hne : (getSlaveHandles env.bus).2.slaveHandles ≠ []) (ring : List Nat)
    (hring : ∀ sh ∈ ring, sh ∈ env.wg05s ∨ (env.bus.slaves sh).fmmuConfig = none)
    (hback : CameBack (started env) ring (fun _ => 0) (initialImage env.buffers))
    (as : List ThreadAction) (s : Threads)
    (run : Run (RingStep sin fresh threshold ring) (Threads.start (started env)) as s)
    (k : Nat) (hpc : s.rt = .exchanging k) :
    ∀ (i : Nat) (hi : i < (getSlaveHandles env.bus).2.slaveHandles.length),
      isWG05 env.bus.slaves (getSlaveHandles env.bus).2.slaveHandles[i] = true →
        ∃ command, frameCommand s.driver s.frame (getSlaveHandles env.bus).2.slaveHandles[i]
            = some command ∧
          Bounded sin as (rank (isWG05 env.bus.slaves) (getSlaveHandles env.bus).2.slaveHandles i)
            command := by
  intro i hi hw
  obtain ⟨command, hcommand, hordered⟩ := boardsOrdered_given hne hring hback run hpc i hi hw
  exact ⟨command, hcommand, hordered.bounded hsin⟩

/-- The number is read before the first cycle, and an amplitude in the middle of it. -/
theorem refusingBoard_first_frame :
    ∃ (s : Threads) (command : List Byte), s.rt = .exchanging 0 ∧
      frameCommand s.driver s.frame 1 = some command ∧
      Bounded (fun _ => 1) [.readTarget (some 0), .rtTest, .rtWait, .rtLock, .packTurn,
        .readAmplitude (some 20), .command ⟨0, 0⟩, .packed] 0 command := by
  have run4 : Run (RingStep (fun _ => 1) (fun _ => 0) 1 [1]) (Threads.start (started refusingBoard))
      [.readTarget (some 0), .rtTest, .rtWait, .rtLock] _ :=
    (((Run.single ⟨.readTarget (some 0) rfl, nofun⟩).next ⟨.rtTest rfl, nofun⟩).next
      ⟨.rtWait rfl, nofun⟩).next ⟨.rtLock rfl rfl, nofun⟩
  have run7 := ((run4.next ⟨.packTurn rfl (by decide), nofun⟩).next
    ⟨.readAmplitude (some 20) rfl, nofun⟩).next ⟨.command ⟨0, 0⟩ rfl, nofun⟩
  have run8 := run7.next ⟨.packed rfl (by decide), nofun⟩
  have hbounded := frames_bounded (fun _ => 1) (fun _ => ⟨by norm_num, le_rfl⟩) _ _ refusingBoard
    (by decide) [1] (by decide) ⟨_, fun _ hdiff => absurd rfl hdiff, rfl⟩ _ _ run8 0 rfl
  obtain ⟨command, hcommand, hbound⟩ := hbounded 0 (by decide) (by decide)
  exact ⟨_, command, rfl, hcommand, hbound⟩

end Pr2Ethercat
