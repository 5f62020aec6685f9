import Pr2Ethercat.Reinitialised

/-!
# When the loops leave the buffer

`setMasterBuffer` allocates two images with a slot for each slave located by the
last initialisation. `packCommand` and the comparison of `monitorChanges` walk
over all handles there are, though, and those of earlier initialisations are
still among them. After one initialisation the walks stay inside
(`InBounds`); after several they may not.

`Tally` counts what decides it: the handles gathered so far, the slaves located
last, and the cycles since then, which say in which half a walk begins. From the
first half there is room for two images, from the second for one.
`image_not_overrun` is the result, for every order of the calls.
-/

namespace Pr2Ethercat

open ByteArea

namespace Process

/-- The process with other bytes in its memory. -/
def withMem (p : Process) (mem : Area) : Process :=
  { p with driver := { p.driver with mem := mem } }

/-- Address `a` belongs to the allocation. -/
def InBuffer (p : Process) (a : Nat) : Prop :=
  p.driver.masterBuffer ≤ a ∧ a < p.driver.masterBuffer + p.driver.masterBufferAlloc

instance (p : Process) (a : Nat) : Decidable (p.InBuffer a) := inferInstanceAs (Decidable (_ ∧ _))

/-- Whatever the memory holds, `packCommand` leaves it alone outside the buffer. -/
def PacksInside (p : Process) : Prop :=
  ∀ (env : PackEnv) (mem : Area) (a : Nat), ¬ p.InBuffer a →
    ((p.withMem mem).packCommand env).mem a = mem a

/-- And the comparisons of `monitorChanges` are the same whatever is there. -/
def ComparesInside (p : Process) : Prop :=
  ∀ (m : Monitor) (mem mem' : Area), (∀ a, p.InBuffer a → mem a = mem' a) →
    (p.withMem mem).comparisons m = (p.withMem mem').comparisons m

/-! ## Walks that begin at a slot -/

section Walks

variable {p : Process} {k s : Nat}

theorem inBuffer_slot (halloc : p.driver.masterBufferAlloc = slotSize * s) {i j : Nat}
    (hj : j < slotSize) :
    p.InBuffer (p.driver.masterBuffer + slotSize * k + slotSize * i + j) ↔ k + i < s := by
  unfold InBuffer
  rw [halloc]
  simp only [slotSize_eq] at hj ⊢
  constructor
  · rintro ⟨_, hlt⟩
    omega
  · intro hlt
    refine ⟨by omega, by omega⟩

/-- From slot `k` of a buffer with `s` slots there is room for `s - k` commands. -/
theorem packsInside_iff (halloc : p.driver.masterBufferAlloc = slotSize * s)
    (hthis : p.driver.thisBuffer = p.driver.masterBuffer + slotSize * k) (hk : k ≤ s) :
    p.PacksInside ↔ k + p.numHandles ≤ s := by
  constructor
  · intro hinside
    by_contra hover
    -- the last command is behind the end, and arrives there
    have hlast : p.numHandles - 1 < p.numHandles := by omega
    have hout : ¬ p.InBuffer (p.driver.thisBuffer + slotSize * (p.numHandles - 1) + 0) := by
      rw [hthis, inBuffer_slot halloc (by decide)]
      omega
    let env := PackEnv.steady (fun _ => 0) ⟨0, 0, ⟨0, 0⟩⟩
    have hslot : ∀ mem, slice ((p.withMem mem).packCommand env).mem
        (p.driver.thisBuffer + slotSize * (p.numHandles - 1)) commandSize
          = (slotCommand env (p.numHandles - 1)).bytes := by
      intro mem
      exact (slice_packCommand env (p.withMem mem) _).trans (if_pos hlast)
    have hsame := slice_eq_iff.mp ((hslot fun _ => 0).trans (hslot fun _ => 1).symm) 0 (by decide)
    rw [hinside env _ _ hout, hinside env _ _ hout] at hsame
    exact absurd hsame (by decide)
  · intro hroom env mem a hout
    refine packSlots_outside env (p.withMem mem).driver fun i hi => ?_
    show a < p.driver.thisBuffer + slotSize * i ∨
      p.driver.thisBuffer + slotSize * i + commandSize ≤ a
    by_contra hin
    refine hout ?_
    have hj : a - (p.driver.thisBuffer + slotSize * i) < slotSize := by
      simp only [commandSize, slotSize_eq] at hin ⊢
      omega
    have ha : p.driver.masterBuffer + slotSize * k + slotSize * i
        + (a - (p.driver.thisBuffer + slotSize * i)) = a := by
      rw [← hthis]
      omega
    have hi' : i < p.numHandles := hi
    rw [← ha]
    exact (inBuffer_slot halloc hj).mpr (by omega)

/-- And the same number of statuses to compare. -/
theorem comparesInside_iff (halloc : p.driver.masterBufferAlloc = slotSize * s)
    (hprev : p.driver.prevBuffer = p.driver.masterBuffer + slotSize * k) (hk : k ≤ s) :
    p.ComparesInside ↔ k + p.numHandles ≤ s := by
  constructor
  · intro hinside
    by_contra hover
    have hlast : p.numHandles - 1 < p.numHandles := by omega
    let m : Monitor := ⟨true, fun _ => 0, 0⟩
    let mem : Area := fun a => if p.InBuffer a then 0 else 1
    have hsame := hinside m mem (fun _ => 0) fun a ha => if_pos ha
    -- the count of the last status is all ones in one memory and zero in the other
    have hturn := congrArg (fun cs => cs[p.numHandles - 1]?) hsame
    have hmem := getElem?_compareSlots (p.withMem mem).driver m p.driver.prevBuffer hlast
    have hzero := getElem?_compareSlots (p.withMem fun _ => 0).driver m p.driver.prevBuffer hlast
    have hnow : encoderCountAt mem (p.driver.prevBuffer + slotSize * (p.numHandles - 1)
        + commandSize) = encoderCountAt (fun _ => 0) _ :=
      congrArg Comparison.now (Option.some.inj (hmem.symm.trans (hturn.trans hzero)))
    have hones : encoderCountAt mem (p.driver.prevBuffer + slotSize * (p.numHandles - 1)
        + commandSize) = encoderCountAt (fun _ => 1) 0 := by
      refine encoderCountAt_congr (slice_eq_iff.mpr fun j hj => if_neg ?_)
      rw [hprev, Nat.add_assoc, inBuffer_slot halloc]
      · omega
      · simp only [commandSize, statusSize, slotSize_eq] at hj ⊢
        omega
    have hzeros : ∀ a, encoderCountAt (fun _ => 0) a = encoderCountAt (fun _ => 0) 0 :=
      fun a => encoderCountAt_congr (slice_eq_iff.mpr fun _ _ => rfl)
    rw [hones, hzeros] at hnow
    exact absurd hnow (by decide)
  · intro hroom m mem mem' hsame
    have hstatuses : statusImage mem p.driver.prevBuffer p.numHandles
        = statusImage mem' p.driver.prevBuffer p.numHandles := by
      refine statusImage_eq_iff.mpr fun i hi j hj => hsame _ ?_
      rw [hprev, Nat.add_assoc]
      refine (inBuffer_slot halloc ?_).mpr (by omega)
      simp only [commandSize, statusSize, slotSize_eq] at hj ⊢
      omega
    unfold comparisons
    rw [compareSlots_eq_imageStep, compareSlots_eq_imageStep]
    exact congrArg _ hstatuses

/-- Without handles nothing is touched at all. -/
theorem inside_of_none (h : p.numHandles = 0) : p.PacksInside ∧ p.ComparesInside := by
  refine ⟨fun env mem a _ => ?_, fun m mem mem' _ => ?_⟩
  · unfold packCommand
    rw [show (p.withMem mem).numHandles = 0 from h]
    rfl
  · unfold comparisons
    rw [show (p.withMem mem).numHandles = 0 from h, show (p.withMem mem').numHandles = 0 from h]
    rfl

end Walks

/-! ## Counting the calls -/

/-- The handles gathered by all initialisations, the slaves located by the last
one, and the cycles since then. -/
structure Tally where
  handles : Nat
  located : Nat
  cycles : Nat

def Tally.next (t : Tally) : Call → Tally
  | .initializePr2EthercatSlaves env =>
    { handles := t.handles + (gatheredHandles env.bus).length
      located := env.bus.numSlaves
      cycles := 0 }
  | .update _ => { t with cycles := t.cycles + 1 }
  | .monitorChanges _ => t

def tally (calls : List Call) : Tally := calls.foldl Tally.next ⟨0, 0, 0⟩

/-- The slot in which `this_buffer_` begins after `cycles` cycles. -/
def Tally.firstSlot (t : Tally) (cycles : Nat) : Nat := if cycles % 2 = 0 then 0 else t.located

theorem Tally.firstSlot_le (t : Tally) (cycles : Nat) : t.firstSlot cycles ≤ 2 * t.located := by
  unfold Tally.firstSlot
  split
  · exact Nat.zero_le _
  · omega

/-- The pointers, once there is a buffer. -/
structure Pointers (t : Tally) (d : Driver) : Prop where
  alloc : d.masterBufferAlloc = slotSize * (2 * t.located)
  this : d.thisBuffer = d.masterBuffer + slotSize * t.firstSlot t.cycles
  prev : d.prevBuffer = d.masterBuffer + slotSize * t.firstSlot (t.cycles + 1)

structure Tallied (t : Tally) (p : Process) : Prop where
  handles : p.numHandles = t.handles
  pointers : t.handles ≠ 0 → Pointers t p.driver

theorem tallied_start (slaves : Nat → SlaveHandler) (mem : Area) :
    Tallied ⟨0, 0, 0⟩ (Process.start slaves mem) :=
  ⟨rfl, fun h => absurd rfl h⟩

theorem pointers_fillMasterBuffer (env : BufferSetup) (d : Driver) (handles : Nat) :
    Pointers ⟨handles, d.table.numSlaves, 0⟩ (fillMasterBuffer env d) := by
  rw [fillMasterBuffer_eq]
  exact ⟨Nat.mul_left_comm .., rfl, rfl⟩

variable {t : Tally} {p p' : Process} {fresh : Area}

theorem Tallied.initialized (h : Tallied t p) {env : StartupEnv}
    (hcall : p.initializePr2EthercatSlaves env = some p') :
    Tallied (t.next (.initializePr2EthercatSlaves env)) p' := by
  have hhandles := (Process.initialized hcall).handles
  refine ⟨hhandles.trans (congrArg (· + _) h.handles), fun hne => ?_⟩
  unfold Process.initializePr2EthercatSlaves at hcall
  cases hmaster : initializeECatMaster env.master env.bus.numSlaves with
  | none =>
    rw [hmaster] at hcall
    exact absurd hcall (by simp)
  | some _ =>
    rw [hmaster] at hcall
    have hsome : (p.slaveHandles ++ (getSlaveHandles env.bus).2.slaveHandles).length ≠ 0 := by
      rw [List.length_append, show (getSlaveHandles env.bus).2.slaveHandles
        = gatheredHandles env.bus from handlesLoop_eq env.bus]
      exact fun hzero => hne ((congrArg (· + _) h.handles.symm).trans hzero)
    have hp' := (Option.some.inj hcall).symm
    rw [if_neg hsome] at hp'
    have htable := (configureWG05slaves_frame
      (p.slaveHandles ++ (getSlaveHandles env.bus).2.slaveHandles)
      { p.driver with table := (getSlaveHandles env.bus).2 }).1
    rw [hp']
    have hpointers := pointers_fillMasterBuffer env.buffers (configureWG05slaves
      (findWG05slaves (p.slaveHandles ++ (getSlaveHandles env.bus).2.slaveHandles)
        { p.driver with table := (getSlaveHandles env.bus).2 }))
      (t.handles + (gatheredHandles env.bus).length)
    rw [htable] at hpointers
    exact hpointers

/-- **Step lemma.** -/
theorem Tallied.call (h : Tallied t p) {c : Call} (hcall : p.call fresh c = some p') :
    Tallied (t.next c) p' := by
  cases c with
  | initializePr2EthercatSlaves env => exact h.initialized hcall
  | update c =>
    obtain rfl := eq_of_update hcall
    refine ⟨h.handles, fun hne => ?_⟩
    obtain ⟨halloc, hthis, hprev⟩ := h.pointers hne
    -- the halves change places, and after two cycles they are back
    have htwo : t.firstSlot (t.cycles + 1 + 1) = t.firstSlot t.cycles := by
      unfold Tally.firstSlot
      rw [Nat.add_assoc, Nat.add_mod_right]
    refine ⟨halloc, hprev, ?_⟩
    show p.driver.thisBuffer = p.driver.masterBuffer + slotSize * t.firstSlot (t.cycles + 1 + 1)
    rw [htwo]
    exact hthis
  | monitorChanges threshold =>
    rw [← Option.some.inj hcall]
    exact ⟨h.handles, h.pointers⟩

/-- **Run lemma.** -/
theorem Tallied.run (calls : List Call) :
    ∀ {t : Tally} {p p' : Process}, Tallied t p → Process.run fresh p calls = some p' →
      Tallied (calls.foldl Tally.next t) p' := by
  induction calls with
  | nil =>
    intro t p p' h hrun
    rw [← Option.some.inj hrun]
    exact h
  | cons c calls ih =>
    intro t p p' h hrun
    obtain ⟨q, hcall, hrest⟩ := Option.bind_eq_some_iff.mp hrun
    exact ih (h.call hcall) hrest

/-- The slots there are behind `this_buffer_` after `cycles` cycles. -/
def Tally.room (t : Tally) (cycles : Nat) : Nat :=
  if cycles % 2 = 0 then 2 * t.located else t.located

theorem Tally.fits_iff (t : Tally) (cycles : Nat) :
    t.firstSlot cycles + t.handles ≤ 2 * t.located ↔ t.handles ≤ t.room cycles := by
  unfold Tally.firstSlot Tally.room
  split
  · omega
  · omega

/-- **The walks and the buffer.** In every run, however often it initialises and
whatever rings it finds, the next `packCommand` stays inside the buffer if and
only if there is room for all handles behind `this_buffer_`, and the next
comparison if and only if there is behind `prev_buffer_`. -/
theorem image_not_overrun (slaves : Nat → SlaveHandler) (mem fresh : Area) (calls : List Call)
    {p : Process} (hrun : Process.run fresh (Process.start slaves mem) calls = some p) :
    (p.PacksInside ↔ (tally calls).handles ≤ (tally calls).room (tally calls).cycles) ∧
      (p.ComparesInside ↔
        (tally calls).handles ≤ (tally calls).room ((tally calls).cycles + 1)) := by
  have h : Tallied (tally calls) p := (tallied_start slaves mem).run calls hrun
  generalize tally calls = t at h ⊢
  rw [← t.fits_iff, ← t.fits_iff, ← h.handles]
  by_cases hzero : t.handles = 0
  · have hnone := h.handles.trans hzero
    rw [hnone]
    exact ⟨iff_of_true (inside_of_none hnone).1 (t.firstSlot_le _),
      iff_of_true (inside_of_none hnone).2 (t.firstSlot_le _)⟩
  · obtain ⟨halloc, hthis, hprev⟩ := h.pointers hzero
    exact ⟨packsInside_iff halloc hthis (t.firstSlot_le _),
      comparesInside_iff halloc hprev (t.firstSlot_le _)⟩

/-- After the second initialisation of a ring, `packCommand` uses both images
for its commands, and a comparison reads behind them. -/
theorem refusingBoard_overrun :
    ∃ p, Process.run (fun _ => 0) (Process.start refusingBoard.bus.slaves fun _ => 0)
        [.initializePr2EthercatSlaves refusingBoard, .initializePr2EthercatSlaves refusingBoard]
          = some p ∧ p.PacksInside ∧ ¬ p.ComparesInside := by
  obtain ⟨p, hrun⟩ := refusingBoard_twice
  obtain ⟨hpacks, hcompares⟩ := image_not_overrun refusingBoard.bus.slaves (fun _ => 0)
    (fun _ => 0) _ hrun
  exact ⟨p, hrun, hpacks.mpr (by decide), fun h => absurd (hcompares.mp h) (by decide)⟩

end Process

end Pr2Ethercat
