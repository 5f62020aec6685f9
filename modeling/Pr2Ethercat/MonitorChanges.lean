import Mathlib.Algebra.Order.Group.Unbundled.Int
import Pr2Ethercat.PackCommand

/-!
# `monitorChanges`

The monitor thread calls `monitorChanges(threshold)` twice a second. A call
compares the encoder counts in `prev_buffer_` with those in `monitor_backup`,
prints the slaves that moved by more than the threshold, and then copies the
image into `monitor_backup` for the next call. The comparison and the copy
each hold `mutex_buffer_access`, but not together, so the two sections are
separate functions here (`compareSection`, `copySection`) and the whole call
without interference is `monitorChanges`.

Both locals that survive from call to call are `static`: the flag that a
backup exists, and the backup itself, allocated at the first call with the
size the buffer had then.
-/

namespace Pr2Ethercat

open ByteArea

/-- The function-local statics, once the first call has initialised them. -/
structure Monitor where
  monitorDeltaInit : Bool
  monitorBackup : Area
  monitorBackupSize : Nat

/-- `static unsigned char *monitor_backup = new unsigned char[Master_Buffer_Size_]`:
the initialisers run at the first call only; `fresh` is what `new` returned. -/
def Monitor.enter (statics : Option Monitor) (d : Driver) (fresh : Area) : Monitor :=
  match statics with
  | some m => m
  | none =>
    { monitorDeltaInit := false
      monitorBackup := fresh
      monitorBackupSize := d.masterBufferSize }

/-- What one turn of the comparison loop looks at. -/
structure Comparison where
  slave : Nat
  now : BitVec 32
  backup : BitVec 32
  deriving DecidableEq, Repr

/-- `abs(status_p->encoder_count_ - status_b->encoder_count_) > threshold`, in
32-bit two's complement. -/
def Comparison.exceeds (c : Comparison) (threshold : Int) : Bool :=
  threshold < (c.now - c.backup).abs.toInt

/-- The comparison loop for `n` handles, with `prev_buffer` and `back_buffer`
moving in step. -/
def compareSlots (n : Nat) (d : Driver) (m : Monitor) (prevBuffer : Nat) : List Comparison :=
  ((Layout.walk slotSize n 0 prevBuffer).zip (Layout.walk slotSize n 0 0)).map fun slots =>
    { slave := slots.1.1
      now := encoderCountAt d.mem (slots.1.2 + commandSize)
      backup := encoderCountAt m.monitorBackup (slots.2.2 + commandSize) }

def comparisons (d : Driver) (m : Monitor) (prevBuffer : Nat) : List Comparison :=
  compareSlots d.numHandles d m prevBuffer

/-- The lines `(slave, encoder count)` printed for the comparisons `cs`. -/
def printed (threshold : Int) (cs : List Comparison) : List (Nat × BitVec 32) :=
  (cs.filter (·.exceeds threshold)).map fun c => (c.slave, c.now)

/-- The first section: the lines it prints. -/
def compareSection (d : Driver) (m : Monitor) (threshold : Int) (prevBuffer : Nat) :
    List (Nat × BitVec 32) := printed threshold (comparisons d m prevBuffer)

/-- The first section runs only once a backup exists. -/
def Monitor.Compares (m : Monitor) (d : Driver) : Prop :=
  m.monitorDeltaInit = true ∧ d.prevBuffer ≠ NULL

instance (m : Monitor) (d : Driver) : Decidable (m.Compares d) :=
  inferInstanceAs (Decidable (_ ∧ _))

/-- The second section, with the check in front of it and the flag behind it. -/
def copySection (d : Driver) (m : Monitor) : Monitor :=
  if d.prevBuffer ≠ NULL then
    -- `prev_buffer_` is read again here, not taken over from the first section
    { m with
      monitorDeltaInit := true
      monitorBackup := blit m.monitorBackup 0 d.mem d.prevBuffer d.masterBufferSize }
  else m

/-- A whole call with nothing in between, for `n` handles: the lines printed and
the statics left behind. -/
def monitorSlots (n : Nat) (d : Driver) (statics : Option Monitor) (fresh : Area)
    (threshold : Int) : List (Nat × BitVec 32) × Monitor :=
  let m := Monitor.enter statics d fresh
  let lines := if m.Compares d then printed threshold (compareSlots n d m d.prevBuffer) else []
  (lines, copySection d m)

/-- `monitorChanges(threshold)`. -/
def monitorChanges (d : Driver) (statics : Option Monitor) (fresh : Area) (threshold : Int) :
    List (Nat × BitVec 32) × Monitor := monitorSlots d.numHandles d statics fresh threshold

/-! ## The comparisons -/

/-- Turn `i` of the loop looks at slot `i` of both images. -/
theorem compareSlots_eq_map (n : Nat) (d : Driver) (m : Monitor) (image : Nat) :
    compareSlots n d m image = (List.range n).map fun i =>
      { slave := i
        now := encoderCountAt d.mem (image + slotSize * i + commandSize)
        backup := encoderCountAt m.monitorBackup (slotSize * i + commandSize) } := by
  unfold compareSlots
  rw [Layout.walk_eq_map, Layout.walk_eq_map, List.zip_map', List.map_map]
  simp only [Function.comp_def, Nat.zero_add]

theorem getElem?_compareSlots {n : Nat} (d : Driver) (m : Monitor) (image : Nat) {i : Nat}
    (hi : i < n) :
    (compareSlots n d m image)[i]? = some
      { slave := i
        now := encoderCountAt d.mem (image + slotSize * i + commandSize)
        backup := encoderCountAt m.monitorBackup (slotSize * i + commandSize) } := by
  rw [compareSlots_eq_map, List.getElem?_map, List.getElem?_range hi, Option.map_some]

theorem getElem?_comparisons {d : Driver} (m : Monitor) (prevBuffer : Nat) {i : Nat}
    (hi : i < d.numHandles) :
    (comparisons d m prevBuffer)[i]? = some
      { slave := i
        now := encoderCountAt d.mem (prevBuffer + slotSize * i + commandSize)
        backup := encoderCountAt m.monitorBackup (slotSize * i + commandSize) } :=
  getElem?_compareSlots d m prevBuffer hi

/-- The step from the statuses `backup` to the statuses `now`, slave by slave. -/
def imageStep (backup now : List (List Byte)) : List Comparison :=
  (now.zip backup).mapIdx fun i statuses =>
    { slave := i, now := statusCount statuses.1, backup := statusCount statuses.2 }

theorem imageStep_statusImage (backup now : Area) (image n : Nat) :
    imageStep (statusImage backup 0 n) (statusImage now image n) = (List.range n).map fun i =>
      { slave := i
        now := encoderCountAt now (image + slotSize * i + commandSize)
        backup := encoderCountAt backup (slotSize * i + commandSize) } := by
  unfold imageStep statusImage
  refine List.ext_getElem (by simp) fun i _ _ => ?_
  simp only [List.getElem_map, List.getElem_range, List.getElem_mapIdx, List.getElem_zip,
    Nat.zero_add, encoderCountAt_eq_statusCount]

/-- The loop compares the statuses of one image with those of the other, and
sees nothing else of them. -/
theorem compareSlots_eq_imageStep (n : Nat) (d : Driver) (m : Monitor) (image : Nat) :
    compareSlots n d m image
      = imageStep (statusImage m.monitorBackup 0 n) (statusImage d.mem image n) := by
  rw [compareSlots_eq_map, imageStep_statusImage]

theorem mem_imageStep {backup now : Area} {image n : Nat} {c : Comparison} :
    c ∈ imageStep (statusImage backup 0 n) (statusImage now image n) ↔ ∃ i < n, c =
      { slave := i
        now := encoderCountAt now (image + slotSize * i + commandSize)
        backup := encoderCountAt backup (slotSize * i + commandSize) } := by
  rw [imageStep_statusImage]
  simp only [List.mem_map, List.mem_range]
  constructor
  · rintro ⟨i, hi, rfl⟩
    exact ⟨i, hi, rfl⟩
  · rintro ⟨i, hi, rfl⟩
    exact ⟨i, hi, rfl⟩

/-! ## The lines -/

/-- A line has been printed for slave `i`. -/
def Reported (lines : List (Nat × BitVec 32)) (i : Nat) : Prop := ∃ count, (i, count) ∈ lines

theorem reported_printed {threshold : Int} {cs : List Comparison} {i : Nat} :
    Reported (printed threshold cs) i ↔ ∃ c ∈ cs, c.slave = i ∧ c.exceeds threshold = true := by
  unfold Reported printed
  simp only [List.mem_map, List.mem_filter]
  constructor
  · rintro ⟨count, c, ⟨hc, hexceeds⟩, hline⟩
    exact ⟨c, hc, (Prod.mk.inj hline).1, hexceeds⟩
  · rintro ⟨c, hc, rfl, hexceeds⟩
    exact ⟨c.now, c, ⟨hc, hexceeds⟩, rfl⟩

/-- Each slave is compared once. -/
theorem reported_imageStep {threshold : Int} {backup now : Area} {image n i : Nat} (hi : i < n) :
    Reported (printed threshold (imageStep (statusImage backup 0 n) (statusImage now image n))) i ↔
      Comparison.exceeds
        ⟨i, encoderCountAt now (image + slotSize * i + commandSize),
          encoderCountAt backup (slotSize * i + commandSize)⟩ threshold = true := by
  rw [reported_printed]
  constructor
  · rintro ⟨c, hc, rfl, hexceeds⟩
    obtain ⟨j, _, rfl⟩ := mem_imageStep.mp hc
    exact hexceeds
  · intro hexceeds
    exact ⟨_, mem_imageStep.mpr ⟨i, hi, rfl⟩, rfl, hexceeds⟩

theorem toInt_abs_count (x : BitVec 32) :
    x.abs.toInt = if x.toInt = -2 ^ 31 then -2 ^ 31 else (x.toInt.natAbs : Int) := by
  have hmin : (BitVec.intMin 32).toInt = -2 ^ 31 := by decide
  rw [BitVec.toInt_abs_eq_natAbs, hmin]
  refine if_congr ?_ rfl rfl
  rw [← BitVec.toInt_inj, hmin]

/-- The comparison in `int`, in terms of the integers: a distance of `2 ^ 31` is
never above the threshold, and one of more than `2 ^ 31` counts as what is
missing from `2 ^ 32`. The threshold may be any `int`. -/
theorem exceeds_iff (slave : Nat) (now backup : BitVec 32) {threshold : Int}
    (hlo : -2 ^ 31 ≤ threshold) (hhi : threshold < 2 ^ 31) :
    Comparison.exceeds ⟨slave, now, backup⟩ threshold = true ↔
      threshold < |now.toInt - backup.toInt| ∧ |now.toInt - backup.toInt| ≠ 2 ^ 31 ∧
        |now.toInt - backup.toInt| + threshold < 2 ^ 32 := by
  have hnow := BitVec.toInt_lt (x := now)
  have hnow' := BitVec.le_toInt (x := now)
  have hbackup := BitVec.toInt_lt (x := backup)
  have hbackup' := BitVec.le_toInt (x := backup)
  have hwrap : (now - backup).toInt = (now.toInt - backup.toInt).bmod (2 ^ 32) := BitVec.toInt_sub
  rw [Int.bmod_def] at hwrap
  unfold Comparison.exceeds
  rw [decide_eq_true_iff, toInt_abs_count, Int.abs_eq_natAbs]
  generalize (now - backup).toInt = delta at hwrap ⊢
  generalize now.toInt = p at *
  generalize backup.toInt = b at *
  split at hwrap
  · split
    · omega
    · omega
  · split
    · omega
    · omega

/-- The lines are right about a slave as long as it has not jumped by `2 ^ 31`,
or so far that the distance left on the other way round the counter is within
the threshold. -/
theorem exceeds_of_jump_iff (slave : Nat) (now backup : BitVec 32) {threshold : Int}
    (hlo : -2 ^ 31 ≤ threshold) (hhi : threshold < 2 ^ 31) :
    (threshold < |now.toInt - backup.toInt| →
        Comparison.exceeds ⟨slave, now, backup⟩ threshold = true) ↔
      |now.toInt - backup.toInt| ≠ 2 ^ 31 ∧
        |now.toInt - backup.toInt| + threshold < 2 ^ 32 := by
  rw [exceeds_iff slave now backup hlo hhi]
  have hdistance := abs_nonneg (now.toInt - backup.toInt)
  generalize |now.toInt - backup.toInt| = distance at hdistance ⊢
  have hnow := BitVec.toInt_lt (x := now)
  constructor
  · intro hjump
    by_cases habove : threshold < distance
    · exact (hjump habove).2
    · omega
  · intro hrange habove
    exact ⟨habove, hrange⟩

end Pr2Ethercat
