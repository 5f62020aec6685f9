import Pr2Ethercat.Routing
import Pr2Ethercat.Session

/-!
# The image `packCommand` leaves

`slice_packCommand` says what each slot holds after the loop. This file puts
the slots together: the effect of the whole call when the target stays the same
(`packCommand_exact`), which of the commands can be verified by their checksum
(`commands_verifiable_iff`), and how many slaves an image enables when
`target_slave` is written while the loop runs (`image_enables_one_iff`).

Only the branch that enables a slave computes a checksum. The other one leaves
eight zeros, whose checksum is not 0, so an image is verifiable exactly when it
has no such slot.
-/

namespace Pr2Ethercat

open ByteArea

/-! ## A command that stays on target -/

/-- What a call of `packCommand` does while the target is slave `target`. -/
structure PacksExactly (env : PackEnv) (d : Driver) (target : Nat) : Prop where
  memOnly : packCommand env d = { d with mem := (packCommand env d).mem }
  frame : ∀ a, (∀ i < d.numHandles, a < d.thisBuffer + slotSize * i ∨
    d.thisBuffer + slotSize * i + commandSize ≤ a) → (packCommand env d).mem a = d.mem a
  off : ∀ i < d.numHandles, i ≠ target →
    slice (packCommand env d).mem (d.thisBuffer + slotSize * i) commandSize
      = List.replicate commandSize 0
  enabled : target < d.numHandles → ∃ checksum : Byte,
    slice (packCommand env d).mem (d.thisBuffer + slotSize * target) commandSize
      = [modeEnable ||| modeCurrent, 0, 0, 0]
        ++ leBytes 2 (programmedCurrent env.sin (env.shared target)).toNat ++ [0, checksum]
  checksum : target < d.numHandles →
    computeChecksum
      (slice (packCommand env d).mem (d.thisBuffer + slotSize * target) commandSize) commandSize = 0
  statuses : ∀ i < d.numHandles,
    slice (packCommand env d).mem (d.thisBuffer + slotSize * i + commandSize) statusSize
      = slice d.mem (d.thisBuffer + slotSize * i + commandSize) statusSize
  otherHalf : Halves d →
    slice (packCommand env d).mem d.prevBuffer d.masterBufferSize
      = slice d.mem d.prevBuffer d.masterBufferSize
  oblivious : ∀ m : Area, ∀ i < d.numHandles,
    slice (packCommand env { d with mem := m }).mem (d.thisBuffer + slotSize * i) commandSize
      = slice (packCommand env d).mem (d.thisBuffer + slotSize * i) commandSize

theorem bytes_targetCommand (sin : Rat → Rat) (s : Shared) :
    (targetCommand sin s).bytes = [modeEnable ||| modeCurrent, 0, 0, 0]
      ++ leBytes 2 (programmedCurrent sin s).toNat ++ [0, (targetCommand sin s).checksum] := by
  have hpwm : leBytes 2 (0 : BitVec 16).toNat = [0, 0] := by decide
  show [modeEnable ||| modeCurrent, 0] ++ leBytes 2 (0 : BitVec 16).toNat
    ++ leBytes 2 (programmedCurrent sin s).toNat ++ [0, (targetCommand sin s).checksum] = _
  rw [hpwm]
  rfl

/-- The checksum was computed when its own byte was still zero. -/
theorem verifiable_targetCommand (sin : Rat → Rat) (s : Shared) :
    Verifiable (targetCommand sin s).bytes := by
  have hsame : (targetCommand sin s).bytes.take (commandSize - 1)
      = (WG0XCommand.bytes { targetCommand sin s with checksum := 0 }).take (commandSize - 1) := rfl
  unfold Verifiable computeChecksum
  rw [hsame]
  rfl

theorem not_verifiable_off : ¬ Verifiable (List.replicate commandSize 0) := by decide

/-- The branch taken decides. -/
theorem verifiable_slotCommand (env : PackEnv) (i : Nat) :
    Verifiable (slotCommand env i).bytes ↔ i = (env.shared i).targetSlave.toNat := by
  unfold slotCommand
  by_cases h : i = (env.shared i).targetSlave.toNat
  · rw [if_pos h]
    exact ⟨fun _ => h, fun _ => verifiable_targetCommand env.sin (env.shared i)⟩
  · rw [if_neg h]
    exact ⟨fun hv => absurd hv not_verifiable_off, fun hi => absurd hi h⟩

/-- No command window reaches into the other half. -/
theorem packCommand_otherHalf (env : PackEnv) {d : Driver} (h : Halves d) :
    slice (packCommand env d).mem d.prevBuffer d.masterBufferSize
      = slice d.mem d.prevBuffer d.masterBufferSize := by
  refine slice_eq_iff.mpr fun j hj => packCommand_outside env d fun i hi => ?_
  have hfit := h.slots_le
  simp only [slotSize_eq, commandSize] at hfit ⊢
  rcases h.halves with ⟨hthis, hprev⟩ | ⟨hthis, hprev⟩
  · omega
  · omega

/-- **The effect of `packCommand`**, with a target that does not change during
the call. -/
theorem packCommand_exact (env : PackEnv) (d : Driver) (target : BitVec 32)
    (hsteady : ∀ i, (env.shared i).targetSlave = target) :
    PacksExactly env d target.toNat := by
  have htarget : ∀ {i : Nat}, i = target.toNat → i < d.numHandles →
      slice (packCommand env d).mem (d.thisBuffer + slotSize * i) commandSize
        = (targetCommand env.sin (env.shared i)).bytes := by
    intro i hi hlt
    rw [slice_packCommand env d hlt, slotCommand, hsteady i, if_pos hi]
  refine ⟨rfl, fun a h => packCommand_outside env d h, ?_, ?_, ?_, ?_,
    packCommand_otherHalf env, ?_⟩
  · intro i hi hne
    rw [slice_packCommand env d hi, slotCommand, hsteady i, if_neg hne]
    rfl
  · intro hlt
    exact ⟨_, (htarget rfl hlt).trans (bytes_targetCommand ..)⟩
  · intro hlt
    rw [htarget rfl hlt]
    exact (verifiable_iff (WG0XCommand.length_bytes _)).mp (verifiable_targetCommand ..)
  · intro i _
    refine slice_eq_iff.mpr fun j hj => ?_
    have hkeep := packCommand_keeps env d (outsideCommands_status d.numHandles i hj)
    rw [show d.thisBuffer + slotSize * i + commandSize + j
      = d.thisBuffer + (slotSize * i + commandSize + j) by omega]
    exact hkeep
  · intro m i hi
    exact (slice_packCommand env { d with mem := m } hi).trans (slice_packCommand env d hi).symm

/-- Three handles, of which the second is the target. -/
theorem couplerBus_packsExactly :
    (configured couplerBus couplerSlaves fun _ => 0).numHandles = 3 ∧
      PacksExactly (PackEnv.steady (fun _ => 0) ⟨1, 10, ⟨0, 0⟩⟩)
        (Session.start interruptedSetup
          (configured couplerBus couplerSlaves fun _ => 0)).driver 1 :=
  ⟨configured_numHandles _, packCommand_exact _ _ 1 fun _ => rfl⟩

/-! ## Which commands can be verified -/

/-- Every command of the image at `this_buffer_` can be verified. -/
def VerifiableImage (d : Driver) : Prop :=
  ∀ i < d.numHandles, Verifiable (slice d.mem (d.thisBuffer + slotSize * i) commandSize)

/-- The target a cycle begins with. -/
def Cycle.target (c : Cycle) : BitVec 32 := (c.env.shared 0).targetSlave

/-- The target changes between cycles only. -/
def Cycle.Steady (c : Cycle) : Prop := ∀ i, (c.env.shared i).targetSlave = c.target

/-- In each of the cycles, the image packed is verifiable. -/
def VerifiableRun : Driver → List Cycle → Prop
  | _, [] => True
  | d, c :: cs => VerifiableImage (packCommand c.env d) ∧ VerifiableRun (update c d).driver cs

theorem verifiableImage_packCommand {c : Cycle} (hsteady : c.Steady) (d : Driver) :
    VerifiableImage (packCommand c.env d) ↔ ∀ i < d.numHandles, i = c.target.toNat := by
  refine forall_congr' fun i => forall_congr' fun hi => ?_
  show Verifiable (slice (packCommand c.env d).mem (d.thisBuffer + slotSize * i) commandSize) ↔ _
  rw [slice_packCommand c.env d hi, verifiable_slotCommand, hsteady i]

theorem verifiableRun_iff (cs : List Cycle) (hsteady : ∀ c ∈ cs, c.Steady) :
    ∀ d : Driver, VerifiableRun d cs ↔
      ∀ c ∈ cs, ∀ i < d.numHandles, i = c.target.toNat := by
  induction cs with
  | nil =>
    intro d
    exact ⟨fun _ c hc => absurd hc List.not_mem_nil, fun _ => trivial⟩
  | cons c cs ih =>
    intro d
    obtain ⟨hc, hcs⟩ := List.forall_mem_cons.mp hsteady
    have hrest : VerifiableRun (update c d).driver cs ↔
        ∀ c' ∈ cs, ∀ i < d.numHandles, i = c'.target.toNat := ih hcs (update c d).driver
    rw [VerifiableRun, verifiableImage_packCommand hc, hrest, List.forall_mem_cons]

/-- Only a list of at most one slot consists of slot `t` alone. -/
theorem forall_lt_eq_iff {n t : Nat} : (∀ i < n, i = t) ↔ n = 0 ∨ (n = 1 ∧ t = 0) := by
  constructor
  · intro h
    rcases Nat.eq_zero_or_pos n with hzero | hpos
    · exact Or.inl hzero
    · have hfirst := h 0 hpos
      have hlast := h (n - 1) (by omega)
      omega
  · intro h i hi
    omega

/-- **Checksums.** In a run whose target changes between cycles only, every
command packed can be verified if and only if no cycle is run, there is no
slave, or there is one slave and it is the target throughout. -/
theorem commands_verifiable_iff (d : Driver) (cs : List Cycle) (hsteady : ∀ c ∈ cs, c.Steady) :
    VerifiableRun d cs ↔
      cs = [] ∨ d.numHandles = 0 ∨ (d.numHandles = 1 ∧ ∀ c ∈ cs, c.target = 0) := by
  have hzero : ∀ t : BitVec 32, t.toNat = 0 ↔ t = 0 := fun t => by
    rw [← BitVec.toNat_inj]
    rfl
  rw [verifiableRun_iff cs hsteady d]
  simp only [forall_lt_eq_iff, hzero]
  constructor
  · intro h
    rcases cs with _ | ⟨c, cs⟩
    · exact Or.inl rfl
    · rcases h c (List.mem_cons_self ..) with hnone | ⟨hone, _⟩
      · exact Or.inr (Or.inl hnone)
      · refine Or.inr (Or.inr ⟨hone, fun c' hc' => ?_⟩)
        rcases h c' hc' with hnone | ⟨_, htarget⟩
        · omega
        · exact htarget
  · rintro (rfl | hnone | ⟨hone, htarget⟩) c hc
    · exact absurd hc List.not_mem_nil
    · exact Or.inl hnone
    · exact Or.inr ⟨hone, htarget c hc⟩

/-- A cycle without any failure, with target `target`. -/
def quietCycle (target : BitVec 32) : Cycle where
  env := PackEnv.steady (fun _ => 0) ⟨target, 10, ⟨0, 0⟩⟩
  net := { replies := fun _ => some fun _ => 0, oob := .new, oobMutexFree := true, handle := -1 }

theorem oneBoard_commands_verifiable :
    VerifiableRun (Driver.gathered oneBoardBus oneBoardSlaves fun _ => 0) [quietCycle 0] :=
  (commands_verifiable_iff _ [quietCycle 0]
    (List.forall_mem_singleton.mpr fun _ => rfl)).mpr (Or.inr (Or.inr (by decide)))

/-- When the target of one board moves out of range, its off command fails the check. -/
theorem off_command_not_verifiable :
    ¬ VerifiableRun (Driver.gathered oneBoardBus oneBoardSlaves fun _ => 0)
      [quietCycle 0, quietCycle 13] := by
  rintro ⟨_, hoff, _⟩
  have hlater := (verifiableImage_packCommand (c := quietCycle 13) (fun _ => rfl) _).mp hoff
  exact absurd (hlater 0 (by decide)) (by decide)

/-! ## A target that moves during the call -/

/-- The value of `target_slave` that turn `i` reads: `writes i` are the values
that the user thread stores between turn `i - 1` and turn `i`. -/
def targetAt (target : BitVec 32) (writes : Nat → List (BitVec 32)) : Nat → BitVec 32
  | 0 => (writes 0).getLastD target
  | i + 1 => (writes (i + 1)).getLastD (targetAt target writes i)

/-- The loop of `packCommand` from turn `i` on, with these writes in between. -/
def packLoop (env : PackEnv) (writes : Nat → List (BitVec 32)) :
    (turns i thisBuffer : Nat) → BitVec 32 → Area → Area
  | 0, _, _, _, mem => mem
  | turns + 1, i, thisBuffer, targetSlave, mem =>
    let targetSlave := (writes i).getLastD targetSlave
    let turn := PackEnv.steady env.sin { env.shared i with targetSlave := targetSlave }
    packLoop env writes turns (i + 1) (thisBuffer + slotSize) targetSlave
      (packStep turn mem (i, thisBuffer))

/-- The globals as the turns of such a loop see them. -/
def PackEnv.withTargets (env : PackEnv) (target : Nat → BitVec 32) : PackEnv where
  sin := env.sin
  shared := fun i => { env.shared i with targetSlave := target i }

section Interleaved

variable (env : PackEnv) (writes : Nat → List (BitVec 32)) (target : BitVec 32)

/-- The interleaved loop is `packCommand`'s loop over what its turns see. -/
theorem packLoop_eq_foldl (turns : Nat) :
    ∀ (i thisBuffer : Nat) (t : BitVec 32) (mem : Area),
      (writes i).getLastD t = targetAt target writes i →
        packLoop env writes turns i thisBuffer t mem
          = (Layout.walk slotSize turns i thisBuffer).foldl
              (packStep (env.withTargets (targetAt target writes))) mem := by
  induction turns with
  | zero =>
    intro i thisBuffer t mem _
    rfl
  | succ turns ih =>
    intro i thisBuffer t mem h
    rw [packLoop, Layout.walk, List.foldl_cons, h]
    exact ih (i + 1) (thisBuffer + slotSize) (targetAt target writes i) _ rfl

/-- The driver when the call is over. -/
def packInterleaved (d : Driver) : Driver :=
  { d with mem := packLoop env writes d.numHandles 0 d.thisBuffer target d.mem }

theorem packInterleaved_eq (d : Driver) :
    packInterleaved env writes target d
      = packCommand (env.withTargets (targetAt target writes)) d := by
  unfold packInterleaved packCommand packSlots
  rw [packLoop_eq_foldl env writes target _ 0 d.thisBuffer target d.mem rfl]

/-- Slot `i` enables its slave when turn `i` reads the target `i`. -/
theorem enables_packInterleaved (d : Driver) {i : Nat} (hi : i < d.numHandles) :
    Enables (slice (packInterleaved env writes target d).mem (d.thisBuffer + slotSize * i)
      commandSize) ↔ i = (targetAt target writes i).toNat := by
  rw [packInterleaved_eq, slice_packCommand _ d hi]
  exact enables_slotCommand _ i

/-- No writes during the call, no change of target. -/
theorem targetAt_of_quiet (h : ∀ i, writes (i + 1) = []) (i : Nat) :
    targetAt target writes i = targetAt target writes 0 := by
  induction i with
  | zero => rfl
  | succ i ih =>
    show (writes (i + 1)).getLastD (targetAt target writes i) = _
    rw [h i]
    exact ih

end Interleaved

/-- `MODE_ENABLE` is set in at most one command of the image at `this_buffer_`. -/
def EnablesAtMostOne (d : Driver) : Prop :=
  ∀ i < d.numHandles, ∀ j < d.numHandles,
    Enables (slice d.mem (d.thisBuffer + slotSize * i) commandSize) →
    Enables (slice d.mem (d.thisBuffer + slotSize * j) commandSize) → i = j

/-- **At most one slave is enabled** by the image that `packCommand` leaves, if
and only if no two turns find themselves to be the target. -/
theorem image_enables_one_iff (env : PackEnv) (writes : Nat → List (BitVec 32))
    (target : BitVec 32) (d : Driver) :
    EnablesAtMostOne (packInterleaved env writes target d) ↔
      ∀ i < d.numHandles, ∀ j < d.numHandles,
        i = (targetAt target writes i).toNat → j = (targetAt target writes j).toNat → i = j := by
  refine forall_congr' fun i => forall_congr' fun hi => forall_congr' fun j =>
    forall_congr' fun hj => ?_
  exact imp_congr (enables_packInterleaved env writes target d hi)
    (imp_congr (enables_packInterleaved env writes target d hj) Iff.rfl)

/-- A target that does not move during the call meets the condition. -/
theorem enablesAtMostOne_of_quiet (env : PackEnv) {writes : Nat → List (BitVec 32)}
    (h : ∀ i, writes (i + 1) = []) (target : BitVec 32) (d : Driver) :
    EnablesAtMostOne (packInterleaved env writes target d) := by
  intro i hi j hj hen hen'
  have hti := (enables_packInterleaved env writes target d hi).mp hen
  have htj := (enables_packInterleaved env writes target d hj).mp hen'
  rw [targetAt_of_quiet writes target h] at hti htj
  exact hti.trans htj.symm

/-- The target is 0 when the call begins, and 1 is stored before the second turn. -/
def movedTarget (i : Nat) : List (BitVec 32) := if i = 1 then [1] else []

theorem moved_target_enables_two :
    ¬ EnablesAtMostOne (packInterleaved (PackEnv.steady (fun _ => 0) ⟨0, 10, ⟨0, 0⟩⟩) movedTarget 0
      (Driver.gathered couplerBus couplerSlaves fun _ => 0)) := by
  intro h
  have hsame := h 0 (by decide) 1 (by decide)
    ((enables_packInterleaved _ movedTarget 0 _ (by decide)).mpr (by decide))
    ((enables_packInterleaved _ movedTarget 0 _ (by decide)).mpr (by decide))
  exact absurd hsame (by decide)

end Pr2Ethercat
