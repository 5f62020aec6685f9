import Pr2Ethercat.MonitorChanges
import Pr2Ethercat.Startup
import Pr2Ethercat.Update

/-!
# After start-up: any sequence of calls, and what they touch

Once `setMasterBuffer` has succeeded the program calls `update`,
`unpackCommand` and `monitorChanges`, one after the other as far as this file is
concerned (`Session`). `Halves` is what the buffer pointers look like in every
state these calls reach: the two halves of one allocation, in some order, with
sizes that did not wrap.

The three functions walk the slots of one half with a pointer of their own.
`commandSlots` and `statusSlots` are the windows a walk goes through, and the
`_touches` theorems say that a function depends on nothing else and changes
nothing else; the copy of `monitorChanges` depends on the half it takes over.
The buffer has a slot for every slave located, and the loops run
over the handles gathered, of which there are never more; so every window lies
in its half (`session_inBounds`).
-/

namespace Pr2Ethercat

open ByteArea

/-! ## The two halves -/

/-- `this_buffer_` and `prev_buffer_` are the two halves of the allocation, and
the sizes are what the formulas of `setMasterBuffer` say without the wrapping. -/
structure Halves (d : Driver) : Prop where
  size : d.masterBufferSize = imageSize d.table
  alloc : d.masterBufferAlloc = 2 * d.masterBufferSize
  noWrap : d.masterBufferAlloc < 2 ^ 32
  nonempty : 0 < d.masterBufferSize
  halves : (d.thisBuffer = d.masterBuffer ∧ d.prevBuffer = d.masterBuffer + d.masterBufferSize) ∨
    (d.thisBuffer = d.masterBuffer + d.masterBufferSize ∧ d.prevBuffer = d.masterBuffer)

theorem halves_setMasterBuffer (env : BufferSetup) {d : Driver}
    (hset : (setMasterBuffer env d).1 = 0) : Halves (setMasterBuffer env d).2 := by
  have hne : d.numHandles ≠ 0 := (setMasterBuffer_fst env d).mp hset
  have hslots := slots_le_imageSize d.table
  have hpos : d.table.slaveHandles.length ≠ 0 := hne
  rw [slotSize_eq] at hslots
  rw [setMasterBuffer_eq env hne]
  refine ⟨rfl, rfl, imageSize_lt d.table, ?_, Or.inl ⟨rfl, rfl⟩⟩
  show 0 < imageSize d.table
  omega

variable {d : Driver}

theorem Halves.update (h : Halves d) (c : Cycle) : Halves (update c d).driver := by
  rw [update_driver]
  refine ⟨h.size, h.alloc, h.noWrap, h.nonempty, ?_⟩
  rcases h.halves with ⟨hthis, hprev⟩ | ⟨hthis, hprev⟩
  · exact Or.inr ⟨hprev, hthis⟩
  · exact Or.inl ⟨hprev, hthis⟩

theorem Halves.ne (h : Halves d) : d.thisBuffer ≠ d.prevBuffer := by
  have hpos := h.nonempty
  rcases h.halves with ⟨hthis, hprev⟩ | ⟨hthis, hprev⟩
  · omega
  · omega

/-- Both halves belong to the allocation. -/
theorem Halves.prev_ne_null (h : Halves d) (hne : d.masterBuffer ≠ NULL) :
    d.prevBuffer ≠ NULL := by
  unfold NULL at hne ⊢
  rcases h.halves with ⟨_, hprev⟩ | ⟨_, hprev⟩
  · omega
  · omega

theorem masterBuffer_setMasterBuffer (env : BufferSetup)
    (hset : (setMasterBuffer env d).1 = 0) : (setMasterBuffer env d).2.masterBuffer ≠ NULL := by
  rw [setMasterBuffer_eq env ((setMasterBuffer_fst env d).mp hset)]
  exact env.buffer_ne

/-- The slots of the gathered slaves fit into a half. -/
theorem Halves.slots_le (h : Halves d) : slotSize * d.numHandles ≤ d.masterBufferSize := by
  rw [h.size]
  exact slots_le_imageSize d.table

/-! ## What the walks touch -/

/-- The commands that `packCommand` fills in, as windows (address, length). -/
def commandSlots (d : Driver) : List (Nat × Nat) :=
  (Layout.walk slotSize d.numHandles 0 d.thisBuffer).map fun slot => (slot.2, commandSize)

/-- The statuses that `unpackCommand` looks at in `this_buffer_`, and
`monitorChanges` in `prev_buffer_`. -/
def statusSlots (d : Driver) (image : Nat) : List (Nat × Nat) :=
  (Layout.walk slotSize d.numHandles 0 image).map fun slot => (slot.2 + commandSize, statusSize)

theorem mem_commandSlots {w : Nat × Nat} :
    w ∈ commandSlots d ↔ ∃ i < d.numHandles, w = (d.thisBuffer + slotSize * i, commandSize) :=
  Layout.mem_map_walk

theorem mem_statusSlots {image : Nat} {w : Nat × Nat} :
    w ∈ statusSlots d image ↔
      ∃ i < d.numHandles, w = (image + slotSize * i + commandSize, statusSize) :=
  Layout.mem_map_walk

/-- `packCommand` changes no byte outside its windows. -/
theorem packCommand_touches (env : PackEnv) {a : Nat}
    (h : ∀ w ∈ commandSlots d, a < w.1 ∨ w.1 + w.2 ≤ a) : (packCommand env d).mem a = d.mem a :=
  packCommand_outside env d fun i hi => h _ (mem_commandSlots.mpr ⟨i, hi, rfl⟩)

/-- `unpackCommand` sees no byte outside its windows. -/
theorem unpackCommand_touches {m : Area}
    (h : ∀ w ∈ statusSlots d d.thisBuffer, slice m w.1 w.2 = slice d.mem w.1 w.2) :
    unpackCommand { d with mem := m } = unpackCommand d := by
  show (if d.numHandles = 0 then _ else _) = if d.numHandles = 0 then _ else _
  refine if_congr Iff.rfl rfl (congrArg (Prod.mk 0) (List.map_congr_left fun slot hslot => ?_))
  exact congrArg (Prod.mk slot.1) (encoderCountAt_congr (h _ (List.mem_map_of_mem hslot)))

/-- The comparison of `monitorChanges` sees no byte of the image outside its windows. -/
theorem comparisons_touches {m : Area} (monitor : Monitor) {image : Nat}
    (h : ∀ w ∈ statusSlots d image, slice m w.1 w.2 = slice d.mem w.1 w.2) :
    comparisons { d with mem := m } monitor image = comparisons d monitor image := by
  have hstatuses : statusImage m image d.numHandles = statusImage d.mem image d.numHandles := by
    refine List.map_congr_left fun i hi => ?_
    exact h _ (mem_statusSlots.mpr ⟨i, List.mem_range.mp hi, rfl⟩)
  unfold comparisons
  rw [compareSlots_eq_imageStep, compareSlots_eq_imageStep]
  exact congrArg _ hstatuses

/-- Nor does the copy see a byte outside the image it takes over. -/
theorem copySection_touches {m : Area} (monitor : Monitor)
    (h : slice m d.prevBuffer d.masterBufferSize = slice d.mem d.prevBuffer d.masterBufferSize) :
    copySection { d with mem := m } monitor = copySection d monitor := by
  have hcopy : blit monitor.monitorBackup 0 m d.prevBuffer d.masterBufferSize
      = blit monitor.monitorBackup 0 d.mem d.prevBuffer d.masterBufferSize := by
    funext a
    unfold blit
    split
    · exact slice_eq_iff.mp h _ (by omega)
    · rfl
  unfold copySection
  refine if_congr Iff.rfl ?_ rfl
  show Monitor.mk true (blit monitor.monitorBackup 0 m d.prevBuffer d.masterBufferSize) _ = _
  rw [hcopy]

/-- The window lies inside the half that begins at `half`. -/
def InHalf (d : Driver) (half : Nat) (w : Nat × Nat) : Prop :=
  half ≤ w.1 ∧ w.1 + w.2 ≤ half + d.masterBufferSize

theorem Halves.command_inHalf (h : Halves d) {w : Nat × Nat} (hw : w ∈ commandSlots d) :
    InHalf d d.thisBuffer w := by
  have hfit := h.slots_le
  obtain ⟨i, hi, rfl⟩ := mem_commandSlots.mp hw
  unfold InHalf
  simp only [slotSize_eq, commandSize] at hfit ⊢
  omega

theorem Halves.status_inHalf (h : Halves d) {image : Nat} {w : Nat × Nat}
    (hw : w ∈ statusSlots d image) : InHalf d image w := by
  have hfit := h.slots_le
  obtain ⟨i, hi, rfl⟩ := mem_statusSlots.mp hw
  unfold InHalf
  simp only [slotSize_eq, commandSize, statusSize] at hfit ⊢
  omega

/-! ## Sessions -/

/-- The calls made once start-up is over. -/
inductive DriverCall where
  | update (c : Cycle)
  | unpackCommand
  | monitorChanges (threshold : Int)

/-- The driver, and the statics of `monitorChanges` once it has been called. -/
structure Session where
  driver : Driver
  statics : Option Monitor

/-- `setMasterBuffer` has just returned. -/
def Session.start (env : BufferSetup) (d : Driver) : Session := ⟨(setMasterBuffer env d).2, none⟩

section Sessions

variable (fresh : Area)

/-- One whole call; `fresh` is the memory the first `monitorChanges` gets for its backup. -/
def Session.call (s : Session) : DriverCall → Session
  | .update c => { s with driver := (Pr2Ethercat.update c s.driver).driver }
  | .unpackCommand => s
  | .monitorChanges threshold =>
    { s with statics := some (Pr2Ethercat.monitorChanges s.driver s.statics fresh threshold).2 }

def Session.run (s : Session) (calls : List DriverCall) : Session :=
  calls.foldl (Session.call fresh) s

/-- **Step lemma.** -/
theorem Halves.call {s : Session} (h : Halves s.driver) (call : DriverCall) :
    Halves (s.call fresh call).driver := by
  cases call with
  | update c => exact h.update c
  | unpackCommand => exact h
  | monitorChanges _ => exact h

/-- **Run lemma.** -/
theorem Halves.run (calls : List DriverCall) :
    ∀ {s : Session}, Halves s.driver → Halves (s.run fresh calls).driver := by
  induction calls with
  | nil =>
    intro s h
    exact h
  | cons call calls ih =>
    intro s h
    exact ih (h.call fresh call)

/-- No call gathers slaves. -/
theorem Session.table_run (calls : List DriverCall) :
    ∀ s : Session, (s.run fresh calls).driver.table = s.driver.table := by
  induction calls with
  | nil =>
    intro s
    rfl
  | cons call calls ih =>
    intro s
    refine (ih (s.call fresh call)).trans ?_
    cases call with
    | update c => rfl
    | unpackCommand => rfl
    | monitorChanges _ => rfl

end Sessions

/-- The buffer pointers are the two distinct halves of a buffer for `numSlaves`
slaves, and no size has wrapped. The next call touches nothing outside its
slots, and every slot lies in the half that it walks. -/
structure InBounds (numSlaves : Nat) (d : Driver) : Prop where
  size : d.masterBufferSize = slotSize * numSlaves
  alloc : d.masterBufferAlloc = 2 * (slotSize * numSlaves)
  noWrap : 2 * (slotSize * numSlaves) < 2 ^ 32
  distinct : d.thisBuffer ≠ d.prevBuffer
  halves : (d.thisBuffer = d.masterBuffer ∧ d.prevBuffer = d.masterBuffer + d.masterBufferSize) ∨
    (d.thisBuffer = d.masterBuffer + d.masterBufferSize ∧ d.prevBuffer = d.masterBuffer)
  packCommand : ∀ w ∈ commandSlots d, InHalf d d.thisBuffer w
  unpackCommand : ∀ w ∈ statusSlots d d.thisBuffer, InHalf d d.thisBuffer w
  monitorChanges : ∀ w ∈ statusSlots d d.prevBuffer, InHalf d d.prevBuffer w
  /-- The bytes that `packCommand` changes are in its slots. -/
  packs : ∀ (env : PackEnv) (a : Nat), (∀ w ∈ commandSlots d, a < w.1 ∨ w.1 + w.2 ≤ a) →
    (Pr2Ethercat.packCommand env d).mem a = d.mem a
  /-- The bytes that `unpackCommand` sees are in its slots. -/
  unpacks : ∀ m : Area, (∀ w ∈ statusSlots d d.thisBuffer, slice m w.1 w.2 = slice d.mem w.1 w.2) →
    Pr2Ethercat.unpackCommand { d with mem := m } = Pr2Ethercat.unpackCommand d
  /-- So are those that the comparison of `monitorChanges` sees, -/
  compares : ∀ (m : Area) (monitor : Monitor),
    (∀ w ∈ statusSlots d d.prevBuffer, slice m w.1 w.2 = slice d.mem w.1 w.2) →
      comparisons { d with mem := m } monitor d.prevBuffer = comparisons d monitor d.prevBuffer
  /-- and those that its copy sees are in the half. -/
  copies : ∀ (m : Area) (monitor : Monitor),
    slice m d.prevBuffer d.masterBufferSize = slice d.mem d.prevBuffer d.masterBufferSize →
      copySection { d with mem := m } monitor = copySection d monitor

theorem Halves.inBounds (h : Halves d) : InBounds d.table.numSlaves d where
  size := h.size
  alloc := by rw [h.alloc, h.size]; rfl
  noWrap := imageSize_lt d.table
  distinct := h.ne
  halves := h.halves
  packCommand _ hw := h.command_inHalf hw
  unpackCommand _ hw := h.status_inHalf hw
  monitorChanges _ hw := h.status_inHalf hw
  packs env _ ha := packCommand_touches env ha
  unpacks _ hm := unpackCommand_touches hm
  compares _ monitor hm := comparisons_touches monitor hm
  copies _ monitor hm := copySection_touches monitor hm

/-- **Buffer bounds.** Whatever `getSlaveHandles` gathers before it returns, if
`setMasterBuffer` returns 0 then every sequence of `update`, `unpackCommand` and
`monitorChanges` calls keeps the buffers in bounds. -/
theorem session_inBounds (bus : Bus) (env : BufferSetup) (d : Driver)
    (hgathered : d.table = (getSlaveHandles bus).2) (hset : (setMasterBuffer env d).1 = 0)
    (fresh : Area) (calls : List DriverCall) :
    InBounds bus.numSlaves ((Session.start env d).run fresh calls).driver := by
  have htable : ((Session.start env d).run fresh calls).driver.table = (getSlaveHandles bus).2 := by
    rw [Session.table_run, ← hgathered]
    show (setMasterBuffer env d).2.table = d.table
    rw [setMasterBuffer_eq env ((setMasterBuffer_fst env d).mp hset)]
  have hbounds := (Halves.run fresh calls (s := Session.start env d)
    (halves_setMasterBuffer env hset)).inBounds
  rw [htable] at hbounds
  exact hbounds

/-- Four slaves are located, and the second one has no handler. -/
def interruptedBus : Bus where
  numSlaves := 4
  slaveHandler := fun a => if a = 2 then NULL else a.toNat
  slaves := oneBoardSlaves
  numSlaves_le := Nat.le_of_ble_eq_true rfl
  slaveHandler_inj := by
    intro a b hnull heq
    rcases eq_or_ne a 2 with rfl | ha
    · exact absurd (if_pos rfl) hnull
    · rw [if_neg ha] at hnull heq
      rcases eq_or_ne b 2 with rfl | hb
      · exact absurd heq hnull
      · rw [if_neg hb] at heq
        exact BitVec.eq_of_toNat_eq heq

/-- What is started with the one handle gathered on it. -/
def interruptedSetup : BufferSetup where
  reached := fun _ _ => false
  buffer := 0x3000
  replies := fun _ => none
  buffer_ne := Nat.succ_ne_zero 0x2fff

theorem interrupted_inBounds :
    InBounds 4 ((Session.start interruptedSetup
      (Driver.gathered (getSlaveHandles interruptedBus).2 oneBoardSlaves fun _ => 0)).run
        (fun _ => 0) [.monitorChanges 1, .unpackCommand]).driver :=
  session_inBounds interruptedBus interruptedSetup _ rfl
    ((setMasterBuffer_fst _ _).mpr (by decide)) (fun _ => 0) [.monitorChanges 1, .unpackCommand]

end Pr2Ethercat
