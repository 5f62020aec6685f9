import Pr2Ethercat.Freshness
import Pr2Ethercat.Session

/-!
# What whole calls of `monitorChanges` report

When no call overlaps another one, `monitor_backup` holds the image that
`prev_buffer_` designated at the end of the call before (`Monitored`), and a call
reports the slaves whose counts are further apart than the threshold. Further
apart in `int`, that is: the difference of two counts wraps at `2 ^ 32`, and `abs`
returns its argument for the smallest `int`.

`exceeds_exact_iff` is the arithmetic of one slave, and `reports_exact_iff` what
follows for any sequence of calls: the reports are right exactly as long as no
slave jumps by `2 ^ 31`, or so far that the distance left on the other way round
the counter is within the threshold.
-/

namespace Pr2Ethercat

open ByteArea

/-! ## One comparison -/

/-- The comparison in `int` is the one over the integers, with two exceptions:
a distance of `2 ^ 31` is never reported, and one of more than `2 ^ 31` counts
as what is missing from `2 ^ 32`. -/
theorem exceeds_exact_iff (slave : Nat) (now backup : BitVec 32) {threshold : Int}
    (hlo : 0 ≤ threshold) (hhi : threshold < 2 ^ 31) :
    ((Comparison.exceeds ⟨slave, now, backup⟩ threshold = true) ↔
        threshold < |now.toInt - backup.toInt|) ↔
      |now.toInt - backup.toInt| ≠ 2 ^ 31 ∧
        |now.toInt - backup.toInt| + threshold < 2 ^ 32 := by
  have hint : -2 ^ 31 ≤ threshold := by omega
  have hexceeds := exceeds_iff slave now backup hint hhi
  rw [← exceeds_of_jump_iff slave now backup hint hhi]
  -- a line that is printed is never wrong, so only missing ones count
  exact ⟨fun hexact habove => hexact.mpr habove, fun hjump => ⟨fun h => (hexceeds.mp h).1, hjump⟩⟩

/-! ## The reports of a session -/

/-- Slave `i`'s count in the image that `prev_buffer_` designates. -/
def shownCount (d : Driver) (i : Nat) : Int :=
  (encoderCountAt d.mem (d.prevBuffer + slotSize * i + commandSize)).toInt

/-- One call: the counts shown to it, those shown at the end of the call before,
if there was one, and the lines it printed. -/
structure ReportLog where
  threshold : Int
  before : Option (Nat → Int)
  now : Nat → Int
  lines : List (Nat × BitVec 32)

/-- The calls of `monitorChanges` among `calls`; `before` are the counts shown at
the end of the last one before them. -/
def Session.reports (fresh : Area) : Session → Option (Nat → Int) → List DriverCall → List ReportLog
  | _, _, [] => []
  | s, before, .monitorChanges threshold :: calls =>
    let s' := s.call fresh (.monitorChanges threshold)
    { threshold := threshold
      before := before
      now := shownCount s.driver
      lines := (monitorChanges s.driver s.statics fresh threshold).1 }
      :: s'.reports fresh (some (shownCount s'.driver)) calls
  | s, before, call :: calls => (s.call fresh call).reports fresh before calls

/-- A first call reports nothing, and a later one the slaves that have moved by
more than the threshold. -/
def ReportLog.Exact (n : Nat) (log : ReportLog) : Prop :=
  match log.before with
  | none => log.lines = []
  | some before => ∀ i < n, Reported log.lines i ↔ log.threshold < |log.now i - before i|

/-- No slave has jumped so far that the counter's range gets in the way. -/
def ReportLog.InRange (n : Nat) (log : ReportLog) : Prop :=
  match log.before with
  | none => True
  | some before => ∀ i < n,
    |log.now i - before i| ≠ 2 ^ 31 ∧ |log.now i - before i| + log.threshold < 2 ^ 32

def ExactReports (n : Nat) (logs : List ReportLog) : Prop := ∀ log ∈ logs, log.Exact n

/-- Thresholds are `int`s that are not negative. -/
def DriverCall.ThresholdOk : DriverCall → Prop
  | .monitorChanges threshold => 0 ≤ threshold ∧ threshold < 2 ^ 31
  | .update _ => True
  | .unpackCommand => True

/-! ## The baseline -/

/-- The backup holds the counts `before`, once a call is over. -/
def HoldsBaseline (d : Driver) (statics : Option Monitor) : Option (Nat → Int) → Prop
  | none => statics = none
  | some before => ∃ m, statics = some m ∧ m.monitorDeltaInit = true ∧
    ∀ i < d.numHandles,
      (encoderCountAt m.monitorBackup (slotSize * i + commandSize)).toInt = before i

structure Monitored (s : Session) (before : Option (Nat → Int)) : Prop where
  halves : Halves s.driver
  allocated : s.driver.masterBuffer ≠ NULL
  baseline : HoldsBaseline s.driver s.statics before

section Monitored

variable {s : Session} {before : Option (Nat → Int)} {fresh : Area}

theorem Monitored.prev_ne_null (h : Monitored s before) : s.driver.prevBuffer ≠ NULL :=
  h.halves.prev_ne_null h.allocated

theorem monitored_start (env : BufferSetup) {d : Driver} (hset : (setMasterBuffer env d).1 = 0) :
    Monitored (Session.start env d) none :=
  ⟨halves_setMasterBuffer env hset, masterBuffer_setMasterBuffer env hset, rfl⟩

/-- The statuses copied are those shown. -/
theorem encoderCountAt_copySection {d : Driver} (hd : Halves d) (hprev : d.prevBuffer ≠ NULL)
    (m : Monitor) {i : Nat} (hi : i < d.numHandles) :
    encoderCountAt (copySection d m).monitorBackup (slotSize * i + commandSize)
      = encoderCountAt d.mem (d.prevBuffer + slotSize * i + commandSize) := by
  have hfit := hd.slots_le
  unfold copySection
  rw [if_pos hprev]
  refine encoderCountAt_congr (slice_eq_iff.mpr fun j hj => ?_)
  show blit m.monitorBackup 0 d.mem d.prevBuffer d.masterBufferSize _ = _
  rw [← Nat.zero_add (slotSize * i + commandSize + j), blit_inside]
  · rw [← Nat.add_assoc, ← Nat.add_assoc]
  · simp only [slotSize_eq, commandSize, statusSize] at hfit hj ⊢
    omega

theorem Monitored.monitorChanges (h : Monitored s before) (fresh : Area) (threshold : Int) :
    Monitored (s.call fresh (.monitorChanges threshold)) (some (shownCount s.driver)) := by
  have hprev := h.prev_ne_null
  refine ⟨h.halves, h.allocated, _, rfl, ?_, ?_⟩
  · show (copySection s.driver _).monitorDeltaInit = true
    unfold copySection
    rw [if_pos hprev]
  · intro i hi
    exact congrArg BitVec.toInt (encoderCountAt_copySection h.halves hprev _ hi)

/-- **Step lemma**, for the calls that report nothing. -/
theorem Monitored.update (h : Monitored s before) (fresh : Area) (c : Cycle) :
    Monitored (s.call fresh (.update c)) before :=
  ⟨h.halves.update c, h.allocated, h.baseline⟩

/-- One call: its report is exact if and only if its counts are in range. -/
theorem Monitored.exact_iff (h : Monitored s before) {threshold : Int} (hlo : 0 ≤ threshold)
    (hhi : threshold < 2 ^ 31) :
    ReportLog.Exact s.driver.numHandles
        ⟨threshold, before, shownCount s.driver,
          (Pr2Ethercat.monitorChanges s.driver s.statics fresh threshold).1⟩ ↔
      ReportLog.InRange s.driver.numHandles
        ⟨threshold, before, shownCount s.driver,
          (Pr2Ethercat.monitorChanges s.driver s.statics fresh threshold).1⟩ := by
  have hbaseline := h.baseline
  unfold Pr2Ethercat.monitorChanges monitorSlots
  cases before with
  | none =>
    -- the flag is still false
    rw [show s.statics = none from hbaseline]
    have hskip : ¬ (Monitor.enter none s.driver fresh).Compares s.driver :=
      fun hc => absurd hc.1 (by simp [Monitor.enter])
    simp only [if_neg hskip]
    exact ⟨fun _ => trivial, fun _ => rfl⟩
  | some before =>
    obtain ⟨m, hm, hinit, hcounts⟩ := hbaseline
    rw [hm]
    have hcompares : (Monitor.enter (some m) s.driver fresh).Compares s.driver :=
      ⟨hinit, h.prev_ne_null⟩
    simp only [if_pos hcompares]
    refine forall_congr' fun i => forall_congr' fun hi => ?_
    have hslave := exceeds_exact_iff i
      (encoderCountAt s.driver.mem (s.driver.prevBuffer + slotSize * i + commandSize))
      (encoderCountAt m.monitorBackup (slotSize * i + commandSize)) hlo hhi
    rw [hcounts i hi, ← reported_imageStep hi, ← compareSlots_eq_imageStep] at hslave
    exact hslave

/-- **Run lemma.** -/
theorem Monitored.reports (calls : List DriverCall) (hcalls : ∀ c ∈ calls, c.ThresholdOk) :
    ∀ {s : Session} {before : Option (Nat → Int)}, Monitored s before →
      ∀ log ∈ s.reports fresh before calls,
        (log.Exact s.driver.numHandles ↔ log.InRange s.driver.numHandles) := by
  induction calls with
  | nil =>
    intro s before _ log hlog
    exact absurd hlog List.not_mem_nil
  | cons call calls ih =>
    intro s before h log hlog
    obtain ⟨hcall, hrest⟩ := List.forall_mem_cons.mp hcalls
    cases call with
    | update c => exact ih hrest (h.update fresh c) log hlog
    | unpackCommand => exact ih hrest h log hlog
    | monitorChanges threshold =>
      rcases List.mem_cons.mp hlog with rfl | hlater
      · exact h.exact_iff hcall.1 hcall.2
      · exact ih hrest (h.monitorChanges fresh threshold) log hlater

end Monitored

/-- **The reports.** In every sequence of whole calls after a successful
`setMasterBuffer`, the first call of `monitorChanges` reports nothing and each
later one exactly the slaves that moved by more than the threshold, if and only
if no slave has jumped out of range between two of them. -/
theorem reports_exact_iff (env : BufferSetup) (d : Driver) (hset : (setMasterBuffer env d).1 = 0)
    (fresh : Area) (calls : List DriverCall) (hcalls : ∀ c ∈ calls, c.ThresholdOk) :
    ExactReports d.numHandles ((Session.start env d).reports fresh none calls) ↔
      ∀ log ∈ (Session.start env d).reports fresh none calls, log.InRange d.numHandles := by
  have hnum : (Session.start env d).driver.numHandles = d.numHandles := by
    show (setMasterBuffer env d).2.numHandles = d.numHandles
    rw [setMasterBuffer_eq env ((setMasterBuffer_fst env d).mp hset)]
    rfl
  have hlogs : ∀ log ∈ (Session.start env d).reports fresh none calls,
      (log.Exact (Session.start env d).driver.numHandles ↔
        log.InRange (Session.start env d).driver.numHandles) :=
    Monitored.reports calls hcalls (monitored_start env hset)
  rw [hnum] at hlogs
  exact forall₂_congr hlogs

/-- The counts of the board before and after it received ones. -/
theorem oneBoard_reports_exact :
    ExactReports oneBoard.numHandles
      ((Session.start oneBoardSetup oneBoard).reports (fun _ => 0) none
        [.monitorChanges 1, .update (cycleWith 0 (some fun _ => 1)), .monitorChanges 1]) := by
  refine (reports_exact_iff oneBoardSetup oneBoard oneBoard_set (fun _ => 0) _ ?_).mpr ?_
  · simp [DriverCall.ThresholdOk]
  · refine List.forall_mem_cons.mpr ⟨trivial, List.forall_mem_singleton.mpr ?_⟩
    intro i hi
    obtain rfl := Nat.lt_one_iff.mp hi
    decide +kernel

/-- An image in which the first slave's encoder count is the smallest `int`. -/
def halfTurn (a : Nat) : Byte := if a = commandSize + encoderCountOffset + 3 then 0x80 else 0

/-- The board jumps from 0 to `-2 ^ 31`, and is not reported. -/
theorem oneBoard_jump_not_reported :
    ¬ ExactReports oneBoard.numHandles
      ((Session.start oneBoardSetup oneBoard).reports (fun _ => 0) none
        [.monitorChanges 1, .update (cycleWith 0 (some halfTurn)), .monitorChanges 1]) := by
  intro h
  have hstart := monitored_start oneBoardSetup oneBoard_set
  have hlater := (hstart.monitorChanges (fun _ => 0) 1).update (fun _ => 0)
    (cycleWith 0 (some halfTurn))
  have hrange := (hlater.exact_iff (by decide) (by decide)).mp
    (h _ (List.mem_cons_of_mem _ (List.mem_cons_self ..)))
  exact (hrange 0 (by decide)).1 (by decide +kernel)

end Pr2Ethercat
