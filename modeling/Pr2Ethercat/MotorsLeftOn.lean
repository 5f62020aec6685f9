import Pr2Ethercat.Boards
import Pr2Ethercat.Shutdown

/-!
# Which motors the program leaves on

When `main` is done it calls `closeOperationalSlaves` and returns. No image goes
out any more: what makes a board let go of its motor is that it leaves
`EC_OP_STATE`, not a command that disables it. So after any run of cycles and the
shutdown behind it a motor is left on if and only if the requests at start-up left
its board operational, it refuses to leave that state, and it was the target in
the cycle sampled last when it heard a frame last (`motors_left_on`). A target
that was given up since then, or typed since then, makes no difference.
-/

namespace Pr2Ethercat

open ByteArea Layout

/-- The motor is on: the board is operational, and the command in its command
memory enables it. -/
def RingState.MotorOn (s : RingState) (sh : Nat) : Prop :=
  isOperational s.driver.slaves sh = true ∧ ∃ command, s.commands sh = some command ∧
    Enables command

/-- `closeOperationalSlaves()` exchanges no image. -/
def RingState.close (s : RingState) (reached : Nat → Bool) : RingState where
  driver := (closeOperationalSlaves reached s.driver).driver
  commands := s.commands

/-- The operational slaves of the table that refuse remain so. -/
theorem isOperational_close (reached : Nat → Bool) {d : Driver} {sh : Nat}
    (hsh : sh ∈ d.table.slaveHandles) :
    isOperational (closeOperationalSlaves reached d).driver.slaves sh = true ↔
      isOperational d.slaves sh = true ∧ reached sh = false := by
  obtain ⟨_, _, _, hasked, hothers⟩ := closeOperationalSlaves_spec reached d
  cases hop : isOperational d.slaves sh with
  | false =>
    have hsame := hothers sh (Or.inr hop)
    unfold isOperational at hop ⊢
    rw [hsame, hop]
    simp
  | true =>
    have hstate := hop
    unfold isOperational at hstate ⊢
    rw [hasked sh hsh hop]
    cases reached sh with
    | false => simpa [SlaveHandler.request] using hstate
    | true => simp [SlaveHandler.request]

section Ring

variable {bufs : BufferSetup} {table : SlaveTable} {slaves : Nat → SlaveHandler} {mem : Area}
  {s : RingState} {l : Ledger} {g : SampleHold}

/-- A board is operational if its requests have left it so. -/
theorem isOperational_bringUp {i : Nat} (hi : i < table.slaveHandles.length)
    (hw : isWG05 slaves table.slaveHandles[i] = true) :
    isOperational (bringUp bufs (configured table slaves mem)).slaves table.slaveHandles[i] = true ↔
      bufs.Operates (slaves table.slaveHandles[i])
        (rank (isWG05 slaves) table.slaveHandles i) := by
  obtain ⟨hk, hsame⟩ := List.getElem?_eq_some_iff.mp (getElem?_filter_rank hi hw)
  have hslave := bringUp_configured bufs mem hk
  rw [hsame] at hslave
  unfold isOperational
  rw [hslave, beq_iff_eq]
  exact state_requests_iff bufs _ _

/-- Its command enables it if it was the target of the cycle heard of. -/
theorem Commanded.enables_iff (h : Commanded bufs table slaves mem s l g) {i : Nat}
    (hi : i < table.slaveHandles.length) (hw : isWG05 slaves table.slaveHandles[i] = true) :
    (∃ command, s.commands table.slaveHandles[i] = some command ∧ Enables command) ↔
      ∃ env, g.heard table.slaveHandles[i] = some env ∧
        rank (isWG05 slaves) table.slaveHandles i
          = (env.shared (rank (isWG05 slaves) table.slaveHandles i)).targetSlave.toNat := by
  rw [h.heard i hi hw]
  constructor
  · rintro ⟨command, hcommand, henables⟩
    obtain ⟨env, hheard, rfl⟩ := Option.map_eq_some_iff.mp hcommand
    exact ⟨env, hheard, (enables_slotCommand env _).mp henables⟩
  · rintro ⟨env, hheard, htarget⟩
    rw [hheard]
    exact ⟨_, rfl, (enables_slotCommand env _).mpr htarget⟩

end Ring

/-- **The motors left on.** -/
theorem motors_left_on (bufs : BufferSetup) (table : SlaveTable) (slaves : Nat → SlaveHandler)
    (mem : Area) (hne : table.slaveHandles ≠ []) (ring : List Nat)
    (hring : ∀ sh ∈ ring, sh ∈ wg05Slaves table slaves ∨ (slaves sh).fmmuConfig = none)
    (cs : List RingCycle)
    (hrun : RingRun ring
      (RingState.start (setMasterBuffer bufs (configured table slaves mem)).2) cs)
    (reached : Nat → Bool) (i : Nat) (hi : i < table.slaveHandles.length)
    (hw : isWG05 slaves table.slaveHandles[i] = true) :
    let s := (RingState.start (setMasterBuffer bufs (configured table slaves mem)).2).run cs
    let k := rank (isWG05 slaves) table.slaveHandles i
    (s.close reached).MotorOn table.slaveHandles[i] ↔
      bufs.Operates (slaves table.slaveHandles[i]) k ∧ reached table.slaveHandles[i] = false ∧
        ∃ env, (SampleHold.start.run cs).heard table.slaveHandles[i] = some env ∧
          k = (env.shared k).targetSlave.toNat := by
  intro s k
  obtain ⟨l, h⟩ := Commanded.run hring cs (@commanded_start bufs table slaves mem hne) hrun
  have hin : table.slaveHandles[i] ∈ s.driver.table.slaveHandles := by
    rw [h.sameTable]
    exact List.getElem_mem hi
  have hclosed := isOperational_close reached hin
  rw [h.sameSlaves, isOperational_bringUp hi hw] at hclosed
  show _ ∧ (∃ command, s.commands _ = some command ∧ Enables command) ↔ _
  rw [h.enables_iff hi hw]
  exact (and_congr_left' hclosed).trans and_assoc

/-- All slaves come up. -/
def willingBuffers : BufferSetup := { refusingBoard.buffers with reached := fun _ _ => true }

/-- The coupler and the two boards, both operational. -/
def willingRing : RingState :=
  RingState.start (setMasterBuffer willingBuffers
    (configured couplerBus couplerSlaves fun _ => 0)).2

/-- A first cycle for target 0 that comes back, and a second one for target 1. -/
def willingCycles : List RingCycle :=
  [⟨cycleWith 0 (some (sentImage (cycleWith 0 none) willingRing.driver)), fun _ _ => true⟩,
    ⟨cycleWith 1 none, fun _ _ => true⟩]

/-- The board of rank 0 stays on, though the target is 1 at the end. -/
theorem willingRing_left_on :
    ((willingRing.run willingCycles).close fun sh => sh != 2).MotorOn 2 := by
  have hrun : RingRun [2, 3] willingRing willingCycles := by
    have hlost : (cycleWith 1 none).reply = none := Cycle.reply_eq_none_iff.mpr fun _ _ => rfl
    refine ⟨fun r hr => ?_, fun r hr => absurd (hlost.symm.trans hr) (by simp), trivial⟩
    obtain rfl := Option.some.inj hr
    exact ⟨_, fun _ hne => absurd rfl hne, rfl⟩
  exact (motors_left_on willingBuffers couplerBus couplerSlaves (fun _ => 0) (by decide) [2, 3]
    (by decide) willingCycles hrun (fun sh => sh != 2) 1 (by decide) (by decide)).mpr
    ⟨Or.inl rfl, rfl, _, rfl, rfl⟩

end Pr2Ethercat
