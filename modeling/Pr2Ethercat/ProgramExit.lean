import Pr2Ethercat.DrivenBoards
import Pr2Ethercat.MotorsLeftOn
import Pr2Ethercat.Stopping

/-!
# What the program leaves behind

The threads and the slaves, from start-up to the end of `main`. `Program` is the
threads with the command that each slave has copied out of a frame last; every
attempt to exchange the image sends a frame, and some slaves see it.

What a board has been told stays with it when the frames stop. So the boards that
can have their motor on once `main` has returned are those that were driven:
the ones of rank 13 and of the number read (`DrivenBoards`), if start-up left them
operational and they refuse `EC_SAFEOP_STATE` (`MotorsLeftOn`).
`motors_after_exit` is both together, for every interleaving.
-/

namespace Pr2Ethercat

open ByteArea Layout Mesa

/-! ## The threads and the slaves -/

/-- The threads, and the bytes in each slave's command memory. -/
structure Program where
  threads : Threads
  commands : Nat → Option (List Byte)

/-- Start-up is over. The slaves `first` have seen the cleared image of
`setMasterBuffer`. -/
def Program.start (d : Driver) (first : Nat → Bool) : Program where
  threads := Threads.start d
  commands := fun sh => if first sh = true then some (List.replicate commandSize 0) else none

section Step

variable (sin : Rat → Rat) (fresh : Area) (threshold : Int) (ring : List Nat)

inductive ProgramStep : Program → ThreadAction → Program → Prop where
  | silent {p : Program} {a : ThreadAction} {s' : Threads}
      (hstep : RingStep sin fresh threshold ring p.threads a s')
      (hsilent : ∀ reply, a ≠ .attempt reply) : ProgramStep p a { p with threads := s' }
  | attempt {p : Program} {s' : Threads} (reply : Option Area) (reaches : Nat → Bool)
      (hstep : RingStep sin fresh threshold ring p.threads (.attempt reply) s') :
      ProgramStep p (.attempt reply)
        { threads := s'
          commands := framePassed p.threads.driver reaches p.threads.frame p.commands }

end Step

/-- The board is operational, and its command enables the motor. -/
def Program.MotorOn (p : Program) (sh : Nat) : Prop :=
  isOperational p.threads.driver.slaves sh = true ∧ ∃ command, p.commands sh = some command ∧
    Enables command

section Run

variable {sin : Rat → Rat} {fresh : Area} {threshold : Int} {env : StartupEnv} {ring : List Nat}
  {as : List ThreadAction} {p p' : Program} {s s' : Threads} {a : ThreadAction}

theorem ProgramStep.threads (hstep : ProgramStep sin fresh threshold ring p a p') :
    RingStep sin fresh threshold ring p.threads a p'.threads := by
  cases hstep with
  | silent hstep _ => exact hstep
  | attempt _ _ hstep => exact hstep

theorem ProgramStep.of_silent (hstep : ThreadStep sin fresh threshold p.threads a s')
    (hsilent : ∀ reply, a ≠ .attempt reply) :
    ProgramStep sin fresh threshold ring p a { p with threads := s' } :=
  .silent ⟨hstep, fun _ ha => absurd ha (hsilent _)⟩ hsilent

/-! ## What a board has been told -/

/-- What each board has in its command memory was ordered in the run `as`. -/
def Program.Told (sin : Rat → Rat) (env : StartupEnv) (as : List ThreadAction) (p : Program) :
    Prop :=
  ∀ (i : Nat) (hi : i < (getSlaveHandles env.bus).2.slaveHandles.length),
    isWG05 env.bus.slaves (getSlaveHandles env.bus).2.slaveHandles[i] = true →
      ∀ command, p.commands (getSlaveHandles env.bus).2.slaveHandles[i] = some command →
        Ordered sin (GivenWithin as)
          (rank (isWG05 env.bus.slaves) (getSlaveHandles env.bus).2.slaveHandles i) command

theorem told_start (d : Driver) (first : Nat → Bool) :
    (Program.start d first).Told sin env [] := by
  intro i hi _ command hcommand
  change (if _ then some _ else none) = some command at hcommand
  split at hcommand
  · exact Or.inl (Option.some.inj hcommand).symm
  · exact absurd hcommand (by simp)

/-- **Step lemma.** -/
theorem Program.Told.step (hne : (getSlaveHandles env.bus).2.slaveHandles ≠ [])
    (hring : ∀ sh ∈ ring, sh ∈ env.wg05s ∨ (env.bus.slaves sh).fmmuConfig = none)
    (hback : CameBack (started env) ring (fun _ => 0) (initialImage env.buffers))
    (run : Run (RingStep sin fresh threshold ring) (Threads.start (started env)) as p.threads)
    (h : p.Told sin env as) (hstep : ProgramStep sin fresh threshold ring p a p') :
    p'.Told sin env (as ++ [a]) := by
  have hmono : ∀ g, GivenWithin as g → GivenWithin (as ++ [a]) g := fun g hg => hg.append [a]
  cases hstep with
  | silent _ _ => exact fun i hi hw command hcommand => (h i hi hw command hcommand).mono hmono
  | attempt reply reaches hstep =>
    intro i hi hw command hcommand
    obtain ⟨k, hpc⟩ : ∃ k, p.threads.rt = .exchanging k := by
      cases hstep.1 with
      | attempt _ hpc => exact ⟨_, hpc⟩
    -- the board keeps its command, or takes that of the frame
    obtain ⟨told, htold, hordered⟩ := boardsOrdered_given hne hring hback run hpc i hi hw
    change (if _ then Option.or _ _ else _) = some command at hcommand
    split at hcommand
    · rw [htold] at hcommand
      obtain rfl := Option.some.inj hcommand
      exact hordered.mono hmono
    · exact (h i hi hw command hcommand).mono hmono

/-- **Run lemma.** -/
theorem told_run (hne : (getSlaveHandles env.bus).2.slaveHandles ≠ [])
    (hring : ∀ sh ∈ ring, sh ∈ env.wg05s ∨ (env.bus.slaves sh).fmmuConfig = none)
    (hback : CameBack (started env) ring (fun _ => 0) (initialImage env.buffers))
    {first : Nat → Bool}
    (run : Run (ProgramStep sin fresh threshold ring) (Program.start (started env) first) as p) :
    Run (RingStep sin fresh threshold ring) (Threads.start (started env)) as p.threads ∧
      p.Told sin env as := by
  induction run with
  | start => exact ⟨Run.start, told_start _ _⟩
  | next _ step ih =>
    obtain ⟨run, htold⟩ := ih
    exact ⟨run.next step.threads, htold.step hne hring hback run step⟩

/-! ## The end of `main` -/

/-- When `main` has returned nothing happens any more. -/
theorem Reached.no_step (h : Reached sin fresh threshold s) (hmain : s.main = .finished) :
    ¬ ThreadStep sin fresh threshold s a s' := by
  intro hstep
  obtain ⟨t, hshows⟩ := h.shows
  have hstopping : s.main.Stopping := by rw [hmain]; trivial
  have hlt := hstep.left_lt (h.flag.mpr hstopping) hstopping
  have hjoined := hshows.joined
  rw [hmain] at hjoined
  have hleft : s.left = 0 := by
    unfold Threads.left
    rw [hmain, hjoined.realTime trivial, hjoined.monitor trivial]
    rfl
  omega

/-- It returns from `closeOperationalSlaves`. -/
theorem ThreadStep.returns (hstep : ThreadStep sin fresh threshold s a s')
    (hnot : s.main ≠ .finished) (hmain : s'.main = .finished) :
    s.main = .closing ∧ ∃ reached, a = .close reached ∧
      s'.driver = (closeOperationalSlaves reached s.driver).driver := by
  cases hstep with
  | close reached hpc => exact ⟨hpc, reached, rfl, rfl⟩
  | readTarget input hpc => exact absurd hmain (by simp)
  | readAmplitude input hpc =>
    refine absurd hmain ?_
    exact iteInduction (motive := fun pc => pc ≠ MainPc.finished) (by simp) (by simp)
  | clear hpc => exact absurd hmain (by simp)
  | joinRealTime hpc hdone => exact absurd hmain (by simp)
  | joinMonitor hpc hdone => exact absurd hmain (by simp)
  | _ => exact absurd hmain hnot

/-- The slaves have been shut down as the last cycle left them. -/
theorem shutDown_run (hne : (getSlaveHandles env.bus).2.slaveHandles ≠ [])
    (run : Run (RingStep sin fresh threshold ring) (Threads.start (started env)) as s) :
    s.main = .finished → ∃ reached d, .close reached ∈ as ∧ OnRing env d ∧
      s.driver = (closeOperationalSlaves reached d).driver := by
  cases run with
  | start => exact fun hmain => absurd hmain (by simp [Threads.start])
  | @next as t _ a run step =>
    intro hmain
    have hreached : Reached sin fresh threshold t :=
      run.invariant (fun _ _ _ h hstep => h.step hstep.1)
        (reached_start sin fresh threshold (nullTogether_started env))
    have hat : AtRing sin fresh threshold env t :=
      run.invariant (fun _ _ _ h hstep => h.step hstep.1) (atRing_start hne)
    have hnot : t.main ≠ .finished := fun hdone => hreached.no_step hdone step.1
    obtain ⟨hclosing, reached, rfl, hdriver⟩ := step.1.returns hnot hmain
    obtain ⟨u, hshows, hring⟩ := hat
    have hview := hshows.realTime hnot
    rw [hshows.joined.realTime (by rw [hclosing]; trivial)] at hview
    have hsame : t.driver = u.driver := hview
    refine ⟨reached, u.driver, List.mem_append_right _ (List.mem_singleton.mpr rfl), hring, ?_⟩
    rw [hdriver, hsame]

theorem isOperational_shutDown {d : Driver} (hd : OnRing env d) (reached : Nat → Bool) {i : Nat}
    (hi : i < (getSlaveHandles env.bus).2.slaveHandles.length)
    (hw : isWG05 env.bus.slaves (getSlaveHandles env.bus).2.slaveHandles[i] = true) :
    isOperational (closeOperationalSlaves reached d).driver.slaves
        (getSlaveHandles env.bus).2.slaveHandles[i] = true ↔
      env.buffers.Operates (env.bus.slaves (getSlaveHandles env.bus).2.slaveHandles[i])
          (rank (isWG05 env.bus.slaves) (getSlaveHandles env.bus).2.slaveHandles i) ∧
        reached (getSlaveHandles env.bus).2.slaveHandles[i] = false := by
  have hin : (getSlaveHandles env.bus).2.slaveHandles[i] ∈ d.table.slaveHandles := by
    rw [hd.sameTable]
    exact List.getElem_mem hi
  have hclosed := isOperational_close reached hin
  rw [hd.sameSlaves] at hclosed
  exact hclosed.trans (and_congr_left' (isOperational_bringUp hi hw))

/-- A command that is bounded enables the motor unless it is off. -/
theorem Bounded.enables_iff {k : Nat} {command : List Byte} (h : Bounded sin as k command) :
    Enables command ↔ command ≠ List.replicate commandSize 0 := by
  constructor
  · rintro henables rfl
    exact absurd henables (by decide)
  · intro hon
    rcases h with hoff | ⟨_, g, _, rfl, _⟩
    · exact absurd hoff hon
    · show (modeEnable ||| modeCurrent) &&& modeEnable ≠ 0
      decide

end Run

/-- **The motors after the end.** Take any run of the program in which what is
received comes back from the slaves, whatever frames are lost before whichever
slaves, up to the end of `main`. A motor is on then if and only if the requests at
start-up left its board operational, it refused `EC_SAFEOP_STATE` at the end, and
it has a command in its memory that is not off; and this is a command for the
board of rank 13 or of the number `main` has read, with a current between 0 and an
amplitude that was given. -/
theorem motors_after_exit (sin : Rat → Rat) (hsin : ∀ x, -1 ≤ sin x ∧ sin x ≤ 1) (fresh : Area)
    (threshold : Int) (env : StartupEnv)
    (hne : (getSlaveHandles env.bus).2.slaveHandles ≠ []) (ring : List Nat)
    (hring : ∀ sh ∈ ring, sh ∈ env.wg05s ∨ (env.bus.slaves sh).fmmuConfig = none)
    (hback : CameBack (started env) ring (fun _ => 0) (initialImage env.buffers))
    (first : Nat → Bool) (as : List ThreadAction) (p : Program)
    (run : Run (ProgramStep sin fresh threshold ring) (Program.start (started env) first) as p)
    (hexit : p.threads.main = .finished) :
    ∃ reached, .close reached ∈ as ∧
      ∀ (i : Nat) (hi : i < (getSlaveHandles env.bus).2.slaveHandles.length),
        isWG05 env.bus.slaves (getSlaveHandles env.bus).2.slaveHandles[i] = true →
          let sh := (getSlaveHandles env.bus).2.slaveHandles[i]
          let k := rank (isWG05 env.bus.slaves) (getSlaveHandles env.bus).2.slaveHandles i
          p.MotorOn sh ↔ env.buffers.Operates (env.bus.slaves sh) k ∧ reached sh = false ∧
            ∃ command, p.commands sh = some command ∧
              command ≠ List.replicate commandSize 0 ∧ Bounded sin as k command := by
  obtain ⟨hthreads, htold⟩ := told_run hne hring hback run
  obtain ⟨reached, d, hclose, hd, hdriver⟩ := shutDown_run hne hthreads hexit
  refine ⟨reached, hclose, fun i hi hw => ?_⟩
  intro sh k
  have hoperational := isOperational_shutDown hd reached hi hw
  rw [← hdriver] at hoperational
  have htold' := htold i hi hw
  unfold Program.MotorOn
  rw [hoperational, and_assoc]
  refine and_congr_right' (and_congr_right' (exists_congr fun command => ?_))
  refine and_congr_right fun hcommand => ?_
  have hbounded := (htold' command hcommand).bounded hsin
  rw [hbounded.enables_iff]
  exact ⟨fun hon => ⟨hon, hbounded⟩, fun hon => hon.1⟩

/-- The one board comes up. -/
def willingBoard : StartupEnv := { refusingBoard with buffers := willingBuffers }

/-- One cycle, the end of the input, and a board that stays operational. -/
theorem willingBoard_left_on :
    ∃ (as : List ThreadAction) (p : Program) (command : List Byte),
      p.threads.main = .finished ∧ p.MotorOn 1 ∧ p.commands 1 = some command ∧
        Bounded (fun _ => 1) as 0 command := by
  have run4 : Run (ProgramStep (fun _ => 1) (fun _ => 0) 1 [1])
      (Program.start (started willingBoard) fun _ => true)
      [.readTarget (some 0), .rtTest, .rtWait, .rtLock] _ :=
    (((Run.single (.of_silent (.readTarget (some 0) rfl) nofun)).next
      (.of_silent (.rtTest rfl) nofun)).next (.of_silent (.rtWait rfl) nofun)).next
      (.of_silent (.rtLock rfl rfl) nofun)
  have run7 := ((run4.next (.of_silent (.packTurn rfl (by decide)) nofun)).next
    (.of_silent (.command ⟨0, 0⟩ rfl) nofun)).next (.of_silent (.packed rfl (by decide)) nofun)
  -- the frame reaches the board and comes back as it was sent
  have run8 := run7.next (.attempt (some _) (fun _ => true) ⟨.attempt (some _) rfl, fun r hr => by
    cases hr
    exact ⟨_, fun _ hdiff => absurd rfl hdiff, rfl⟩⟩)
  have run12 := (((run8.next (.of_silent (.save rfl) nofun)).next
    (.of_silent (.swapThis rfl) nofun)).next (.of_silent (.swapPrev rfl) nofun)).next
    (.of_silent (.rtUnlock rfl) nofun)
  have run14 := (run12.next (.of_silent (.readAmplitude (some 0) rfl) nofun)).next
    (.of_silent (.clear rfl) nofun)
  have run17 := ((run14.next (.of_silent (.rtTest rfl) nofun)).next
    (.of_silent (.monitorTest rfl) nofun)).next (.of_silent (.joinRealTime rfl rfl) nofun)
  have run19 := (run17.next (.of_silent (.joinMonitor rfl rfl) nofun)).next
    (.of_silent (.close (fun _ => false) rfl) nofun)
  obtain ⟨as, p, run, hexit, hon⟩ : ∃ as p, Run (ProgramStep (fun _ => 1) (fun _ => 0) 1 [1])
      (Program.start (started willingBoard) fun _ => true) as p ∧
        p.threads.main = .finished ∧ p.MotorOn 1 := by
    refine ⟨_, _, run19, rfl, rfl, _, rfl, ?_⟩
    show (_ : Byte) &&& modeEnable ≠ 0
    decide
  obtain ⟨_, _, hmotors⟩ := motors_after_exit (fun _ => 1) (fun _ => ⟨by norm_num, le_rfl⟩) _ _
    willingBoard (by decide) [1] (by decide) ⟨_, fun _ hdiff => absurd rfl hdiff, rfl⟩ _ _ _ run
    hexit
  obtain ⟨_, _, command, hcommand, _, hbounded⟩ := (hmotors 0 (by decide) (by decide)).mp hon
  exact ⟨as, p, command, hexit, hon, hcommand, hbounded⟩

end Pr2Ethercat
