import Mathlib.Data.List.Chain
import Pr2Ethercat.Freshness
import Pr2Ethercat.Lib.Mesa
import Pr2Ethercat.MonitorChanges

/-!
# The monitor next to the running cycle

`monitorChanges` compares in one section of `mutex_buffer_access` and copies the
baseline of the next call in another, and `update` is a section of its own, so
the two threads are a transition system with three actions (`MonitorAction`).
The monitor thread alternates between its two; any number of cycles may run
before, between and after them.

The system keeps a log of what each call compared, printed and left as the next
baseline. `timeline` reads off a list of actions which cycles had run at either
section of each call, and `Follows` ties the two together: a section sees the
statuses that `prev_buffer_` shows after the cycles so far (`shownAfter`), the
initial ones after an even number and the ones received last after an odd one.

No movement is lost between the calls (`NoMovementLost`) if each call copies the
image it has compared, so that it compares the step from the image of the call
before to its own, and a slave that has moved by more than the threshold, in
that step or in what has been received in the meantime, is reported.
`movements_reported_iff` says for which runs this holds (`CallTimes.Covered`):
both sections must be shown the same statuses, the movement received must be
shown, and the counter must not be in the way. Undisturbed calls after odd
numbers of cycles are fine (`CallTimes.covered_of_odd`), and whatever is received
no others are (`always_sameShown_iff`, `always_visible_iff`).
-/

namespace Pr2Ethercat

open ByteArea Mesa

/-! ## The system -/

/-- What the first section of a call did: the statuses in the half it walked
through, if it compared, the comparisons it made and the lines it printed. -/
structure CompareLog where
  compared : Option (List (List Byte))
  comparisons : List Comparison
  lines : List (Nat × BitVec 32)

/-- What a call did, with the statuses it left in the backup. -/
structure CallLog extends CompareLog where
  baseline : List (List Byte)

/-- The sections: one `update()`, and the two of `monitorChanges`. -/
inductive MonitorAction where
  | cycle (c : Cycle)
  | compare
  | copy

/-- The driver, the statics of `monitorChanges`, the call that is between its
two sections, if there is one, and the calls that are over. -/
structure MonitorSystem where
  driver : Driver
  statics : Option Monitor
  underway : Option CompareLog
  logs : List CallLog

/-- Nobody has called `monitorChanges` yet. -/
def MonitorSystem.start (d : Driver) : MonitorSystem := ⟨d, none, none, []⟩

section Sections

variable (fresh : Area) (threshold : Int)

/-- From the call to the end of the comparison. -/
def MonitorSystem.compare (s : MonitorSystem) : MonitorSystem :=
  let m := Monitor.enter s.statics s.driver fresh
  { s with
    statics := some m
    underway := some <|
      if m.Compares s.driver then
        { compared := some (statusImage s.driver.mem s.driver.prevBuffer s.driver.numHandles)
          comparisons := comparisons s.driver m s.driver.prevBuffer
          lines := compareSection s.driver m threshold s.driver.prevBuffer }
      else ⟨none, [], []⟩ }

/-- From the end of the comparison, which did `c`, to the return. -/
def MonitorSystem.copy (s : MonitorSystem) (m : Monitor) (c : CompareLog) : MonitorSystem :=
  let m' := copySection s.driver m
  { s with
    statics := some m'
    underway := none
    logs := s.logs ++
      [{ c with baseline := statusImage m'.monitorBackup 0 s.driver.numHandles }] }

/-- One section. There is one monitor thread, so its calls do not overlap. -/
inductive MonitorStep : MonitorSystem → MonitorAction → MonitorSystem → Prop where
  | cycle {s : MonitorSystem} (c : Cycle) :
      MonitorStep s (.cycle c) { s with driver := (update c s.driver).driver }
  | compare {s : MonitorSystem} (hfree : s.underway = none) :
      MonitorStep s .compare (s.compare fresh threshold)
  | copy {s : MonitorSystem} {m : Monitor} {c : CompareLog} (hm : s.statics = some m)
      (hc : s.underway = some c) : MonitorStep s .copy (s.copy m c)

/-- With nothing in between, the two sections are `monitorChanges`. -/
theorem monitorChanges_alone (s : MonitorSystem) :
    ∃ m c, (s.compare fresh threshold).statics = some m ∧
      (s.compare fresh threshold).underway = some c ∧
      (c.lines, copySection s.driver m) = monitorChanges s.driver s.statics fresh threshold := by
  refine ⟨_, _, rfl, rfl, ?_⟩
  unfold monitorChanges monitorSlots
  simp only
  split
  · rfl
  · rfl

end Sections

/-! ## Which cycles the sections come after -/

/-- The times of a call after the first, as the cycles made before each of them:
when the call before took up its image, which is at its comparison, or at its
copy if it was the first and compared nothing; when the call before copied; and
the two sections of the call itself. -/
structure CallTimes where
  taken : List Cycle
  backed : List Cycle
  compared : List Cycle
  copied : List Cycle

/-- The cycles made so far; those made before the comparison of the call under
way; of the last call that is over, those made before it took up its image and
before its copy; and the times of the calls that are over, without the first. -/
structure Timeline where
  cycles : List Cycle
  compared : List Cycle
  last : Option (List Cycle × List Cycle)
  later : List CallTimes

def Timeline.note (t : Timeline) : MonitorAction → Timeline
  | .cycle c => { t with cycles := t.cycles ++ [c] }
  | .compare => { t with compared := t.cycles }
  | .copy =>
    match t.last with
    | none => { t with last := some (t.cycles, t.cycles) }
    | some (taken, backed) =>
      { t with
        last := some (t.compared, t.cycles)
        later := t.later ++ [⟨taken, backed, t.compared, t.cycles⟩] }

def timeline (as : List MonitorAction) : Timeline := as.foldl Timeline.note ⟨[], [], none, []⟩

/-- The image whose statuses `prev_buffer_` shows after the cycles `cs`. -/
def shownImage (env : BufferSetup) (cs : List Cycle) : Area :=
  if Even cs.length then initialImage env else latestReceived env cs

/-- The statuses of `n` slots that it shows. -/
def shownAfter (env : BufferSetup) (n : Nat) (cs : List Cycle) : List (List Byte) :=
  statusImage (shownImage env cs) 0 n

/-- How far slave `i`'s counts in the two images are apart. -/
def movement (before after : Area) (i : Nat) : Int :=
  |(encoderCountAt after (slotSize * i + commandSize)).toInt
    - (encoderCountAt before (slotSize * i + commandSize)).toInt|

/-- How far slave `i` has moved since the call before took up its image,
according to what has been received. -/
def CallTimes.received (env : BufferSetup) (call : CallTimes) (i : Nat) : Int :=
  movement (latestReceived env call.taken) (latestReceived env call.compared) i

/-- And according to what the two calls are shown. -/
def CallTimes.shown (env : BufferSetup) (call : CallTimes) (i : Nat) : Int :=
  movement (shownImage env call.backed) (shownImage env call.compared) i

/-! ## Losing no movement -/

/-- The call copies the image it has compared, and reports what has moved. -/
structure CallLog.Complete (env : BufferSetup) (n : Nat) (threshold : Int) (call : CallTimes)
    (log : CallLog) : Prop where
  kept : log.compared = some log.baseline
  /-- A jump between the images compared is reported, -/
  jumps : ∀ c ∈ log.comparisons, threshold < |c.now.toInt - c.backup.toInt| →
    Reported log.lines c.slave
  /-- and one in the images received, if it has lasted until now. -/
  lasting : ∀ i < n, threshold < call.received env i → Reported log.lines i

/-- No movement falls between two calls: every call after the first is complete,
and each step between the images that consecutive calls leave is what one call
compares. -/
structure NoMovementLost (env : BufferSetup) (n : Nat) (threshold : Int) (later : List CallTimes)
    (logs : List CallLog) : Prop where
  steps : logs.IsChain fun previous log =>
    log.comparisons = imageStep previous.baseline log.baseline
  complete : List.Forall₂ (CallLog.Complete env n threshold) later logs.tail

/-- The sections of the call are shown the same statuses. -/
def SameShown (env : BufferSetup) (n : Nat) (compared copied : List Cycle) : Prop :=
  shownAfter env n compared = shownAfter env n copied

/-- A movement received above the threshold is shown as one. -/
def Visible (env : BufferSetup) (n : Nat) (threshold : Int) (call : CallTimes) : Prop :=
  ∀ i < n, threshold < call.received env i → threshold < call.shown env i

/-- What a call needs not to lose a movement. -/
structure CallTimes.Covered (env : BufferSetup) (n : Nat) (threshold : Int) (call : CallTimes) :
    Prop where
  sameShown : SameShown env n call.compared call.copied
  /-- The counter's range is not in the way. -/
  inRange : ∀ i < n, call.shown env i ≠ 2 ^ 31 ∧ call.shown env i + threshold < 2 ^ 32
  visible : Visible env n threshold call

/-! ## What the logs say -/

/-- What the comparison of a call did at the time `compared`, with a backup made
at the time `backed`. -/
structure CompareLog.Saw (env : BufferSetup) (n : Nat) (threshold : Int)
    (backed compared : List Cycle) (c : CompareLog) : Prop where
  image : c.compared = some (shownAfter env n compared)
  comparisons : c.comparisons = imageStep (shownAfter env n backed) (shownAfter env n compared)
  lines : c.lines = printed threshold c.comparisons

/-- And what the whole call did. -/
structure CallLog.Records (env : BufferSetup) (n : Nat) (threshold : Int) (call : CallTimes)
    (log : CallLog) : Prop where
  saw : log.toCompareLog.Saw env n threshold call.backed call.compared
  baseline : log.baseline = shownAfter env n call.copied

section Calls

variable {env : BufferSetup} {n : Nat} {threshold : Int} {call : CallTimes} {log : CallLog}

theorem CallLog.Records.kept_iff (h : log.Records env n threshold call) :
    log.compared = some log.baseline ↔ SameShown env n call.compared call.copied := by
  rw [h.saw.image, h.baseline, Option.some.injEq]
  exact Iff.rfl

/-- The comparison of slave `i`. -/
def CallTimes.comparison (env : BufferSetup) (call : CallTimes) (i : Nat) : Comparison where
  slave := i
  now := encoderCountAt (shownImage env call.compared) (slotSize * i + commandSize)
  backup := encoderCountAt (shownImage env call.backed) (slotSize * i + commandSize)

theorem CallTimes.shown_eq (env : BufferSetup) (call : CallTimes) (i : Nat) :
    call.shown env i
      = |(call.comparison env i).now.toInt - (call.comparison env i).backup.toInt| := rfl

theorem CallLog.Records.mem_comparisons (h : log.Records env n threshold call) {c : Comparison} :
    c ∈ log.comparisons ↔ ∃ i < n, c = call.comparison env i := by
  rw [h.saw.comparisons]
  unfold shownAfter
  rw [mem_imageStep]
  simp only [Nat.zero_add]
  exact Iff.rfl

theorem CallLog.Records.reported_iff (h : log.Records env n threshold call) {i : Nat}
    (hi : i < n) :
    Reported log.lines i ↔ (call.comparison env i).exceeds threshold = true := by
  rw [h.saw.lines, h.saw.comparisons]
  unfold shownAfter
  rw [reported_imageStep hi]
  simp only [Nat.zero_add]
  exact Iff.rfl

theorem CallLog.Records.jumps_iff (h : log.Records env n threshold call)
    (hlo : -2 ^ 31 ≤ threshold) (hhi : threshold < 2 ^ 31) :
    (∀ c ∈ log.comparisons, threshold < |c.now.toInt - c.backup.toInt| →
        Reported log.lines c.slave) ↔
      ∀ i < n, call.shown env i ≠ 2 ^ 31 ∧ call.shown env i + threshold < 2 ^ 32 := by
  have hslave : ∀ i < n, (threshold < call.shown env i → Reported log.lines i) ↔
      call.shown env i ≠ 2 ^ 31 ∧ call.shown env i + threshold < 2 ^ 32 := by
    intro i hi
    rw [h.reported_iff hi, call.shown_eq]
    exact exceeds_of_jump_iff i (call.comparison env i).now (call.comparison env i).backup hlo hhi
  constructor
  · intro hjumps i hi
    have hjump := hjumps (call.comparison env i) (h.mem_comparisons.mpr ⟨i, hi, rfl⟩)
    rw [← call.shown_eq] at hjump
    exact (hslave i hi).mp hjump
  · intro hrange c hc
    obtain ⟨i, hi, rfl⟩ := h.mem_comparisons.mp hc
    rw [← call.shown_eq]
    exact (hslave i hi).mpr (hrange i hi)

/-- Nothing else is reported. -/
theorem CallLog.Records.shown_of_reported (h : log.Records env n threshold call)
    (hlo : -2 ^ 31 ≤ threshold) (hhi : threshold < 2 ^ 31) {i : Nat} (hi : i < n)
    (hreported : Reported log.lines i) : threshold < call.shown env i := by
  have hexceeds := exceeds_iff i (call.comparison env i).now (call.comparison env i).backup hlo hhi
  rw [call.shown_eq]
  exact (hexceeds.mp ((h.reported_iff hi).mp hreported)).1

theorem CallLog.Records.complete_iff (h : log.Records env n threshold call)
    (hlo : -2 ^ 31 ≤ threshold) (hhi : threshold < 2 ^ 31) :
    log.Complete env n threshold call ↔ call.Covered env n threshold := by
  constructor
  · intro hcomplete
    refine ⟨h.kept_iff.mp hcomplete.kept, (h.jumps_iff hlo hhi).mp hcomplete.jumps, ?_⟩
    intro i hi hmoved
    exact h.shown_of_reported hlo hhi hi (hcomplete.lasting i hi hmoved)
  · intro hcovered
    have hjumps := (h.jumps_iff hlo hhi).mpr hcovered.inRange
    refine ⟨h.kept_iff.mpr hcovered.sameShown, hjumps, fun i hi hmoved => ?_⟩
    have hjump := hjumps (call.comparison env i) (h.mem_comparisons.mpr ⟨i, hi, rfl⟩)
    rw [← call.shown_eq] at hjump
    exact hjump (hcovered.visible i hi hmoved)

end Calls

section Runs

variable {env : BufferSetup} {d : Driver} {fresh : Area} {threshold : Int}

theorem statuses_run (hset : (setMasterBuffer env d).1 = 0) (cs : List Cycle) :
    statusImage (runCycles (setMasterBuffer env d).2 cs).mem
        (runCycles (setMasterBuffer env d).2 cs).prevBuffer d.numHandles
      = shownAfter env d.numHandles cs := by
  have hshown := (tracks_run env d hset cs).statusImage_prev
  rw [numHandles_run env d hset cs] at hshown
  rw [hshown]
  unfold shownAfter shownImage Ledger.visible
  rw [cycles_start_run, Ledger.initial_run, Ledger.latest_run]
  rfl

/-- The system after the actions that `t` sums up. -/
structure Follows (env : BufferSetup) (d : Driver) (threshold : Int) (s : MonitorSystem)
    (t : Timeline) : Prop where
  driver : s.driver = runCycles (setMasterBuffer env d).2 t.cycles
  first : t.last = none → s.logs = []
  /-- Once a call is over there is a backup, and the log of the last call says what is in it. -/
  backed : ∀ taken backed, t.last = some (taken, backed) → ∃ m log,
    s.statics = some m ∧ m.monitorDeltaInit = true ∧
      statusImage m.monitorBackup 0 d.numHandles = shownAfter env d.numHandles backed ∧
      s.logs.getLast? = some log ∧ log.baseline = shownAfter env d.numHandles backed
  underway : ∀ taken backed, t.last = some (taken, backed) → ∀ c, s.underway = some c →
    c.Saw env d.numHandles threshold backed t.compared
  later : List.Forall₂ (fun call log => log.Records env d.numHandles threshold call) t.later
    s.logs.tail
  chain : s.logs.IsChain fun previous log => ∃ image,
    log.compared = some image ∧ log.comparisons = imageStep previous.baseline image

theorem follows_start (env : BufferSetup) (d : Driver) (threshold : Int) :
    Follows env d threshold (MonitorSystem.start (setMasterBuffer env d).2) (timeline []) where
  driver := rfl
  first _ := rfl
  backed _ _ hlast := absurd hlast.symm (Option.some_ne_none _)
  underway _ _ hlast := absurd hlast.symm (Option.some_ne_none _)
  later := List.Forall₂.nil
  chain := List.IsChain.nil

variable {s : MonitorSystem} {t : Timeline}

theorem Follows.cycle (h : Follows env d threshold s t) (c : Cycle) :
    Follows env d threshold { s with driver := (update c s.driver).driver }
      (t.note (.cycle c)) := by
  constructor
  case driver =>
    show (update c s.driver).driver = runCycles (setMasterBuffer env d).2 (t.cycles ++ [c])
    unfold runCycles
    rw [h.driver, List.foldl_append]
    rfl
  case first => exact h.first
  case backed => exact h.backed
  case underway => exact h.underway
  case later => exact h.later
  case chain => exact h.chain

/-- What the driver shows to a section. -/
theorem Follows.shown (h : Follows env d threshold s t) (hset : (setMasterBuffer env d).1 = 0) :
    statusImage s.driver.mem s.driver.prevBuffer d.numHandles
      = shownAfter env d.numHandles t.cycles := by
  rw [h.driver]
  exact statuses_run hset t.cycles

theorem Follows.tracks (h : Follows env d threshold s t) (hset : (setMasterBuffer env d).1 = 0) :
    Tracks s.driver ((Ledger.start (initialImage env)).run t.cycles) := by
  rw [h.driver]
  exact tracks_run env d hset t.cycles

theorem Follows.numHandles (h : Follows env d threshold s t)
    (hset : (setMasterBuffer env d).1 = 0) : s.driver.numHandles = d.numHandles := by
  rw [h.driver]
  exact numHandles_run env d hset t.cycles

theorem Follows.compare (h : Follows env d threshold s t) (hset : (setMasterBuffer env d).1 = 0) :
    Follows env d threshold (s.compare fresh threshold) (t.note .compare) := by
  constructor
  case driver => exact h.driver
  case first => exact h.first
  case backed =>
    intro taken backed hlast
    obtain ⟨m, log, hm, hrest⟩ := h.backed taken backed hlast
    refine ⟨m, log, ?_, hrest⟩
    show some (Monitor.enter s.statics s.driver fresh) = some m
    rw [hm]
    rfl
  case underway =>
    intro taken backed hlast c hc
    obtain ⟨m, _, hm, hinit, hbackup, _⟩ := h.backed taken backed hlast
    have hcompares : (Monitor.enter s.statics s.driver fresh).Compares s.driver := by
      rw [hm]
      exact ⟨hinit, (h.tracks hset).prev_ne_null⟩
    have hstep : comparisons s.driver m s.driver.prevBuffer = imageStep
        (shownAfter env d.numHandles backed) (shownAfter env d.numHandles t.cycles) := by
      unfold comparisons
      rw [compareSlots_eq_imageStep, h.numHandles hset, hbackup, h.shown hset]
    rw [← Option.some.inj hc, if_pos hcompares, hm]
    refine ⟨?_, hstep, rfl⟩
    rw [h.numHandles hset, h.shown hset]
    rfl
  case later => exact h.later
  case chain => exact h.chain

/-- The copy takes over the statuses shown at its time. -/
theorem Follows.baseline (h : Follows env d threshold s t) (hset : (setMasterBuffer env d).1 = 0)
    (m : Monitor) :
    statusImage (copySection s.driver m).monitorBackup 0 d.numHandles
      = shownAfter env d.numHandles t.cycles := by
  have htracks := h.tracks hset
  rw [← h.shown hset, ← h.numHandles hset]
  unfold copySection
  rw [if_pos htracks.prev_ne_null]
  refine statusImage_congr fun k hk => blit_inside ?_
  rw [htracks.size]
  exact Nat.lt_of_lt_of_le hk (slots_le_imageSize s.driver.table)

theorem Follows.copy (h : Follows env d threshold s t) (hset : (setMasterBuffer env d).1 = 0)
    {m : Monitor} {c : CompareLog} (hc : s.underway = some c) :
    Follows env d threshold (s.copy m c) (t.note .copy) := by
  have hbaseline := h.baseline hset m
  -- the new log, and the backup it speaks of
  have hlog : ∀ logs : List CallLog, ∃ m' log, (s.copy m c).statics = some m' ∧
      m'.monitorDeltaInit = true ∧
      statusImage m'.monitorBackup 0 d.numHandles = shownAfter env d.numHandles t.cycles ∧
      (logs ++ [CallLog.mk c (statusImage (copySection s.driver m).monitorBackup 0
        s.driver.numHandles)]).getLast? = some log ∧
      log.baseline = shownAfter env d.numHandles t.cycles := by
    intro logs
    refine ⟨copySection s.driver m, _, rfl, ?_, hbaseline, List.getLast?_concat, ?_⟩
    · unfold copySection
      rw [if_pos (h.tracks hset).prev_ne_null]
    · rw [← hbaseline, ← h.numHandles hset]
  cases hlast : t.last with
  | none =>
    -- the first call, which has compared nothing
    have hlogs := h.first hlast
    have hnote : t.note .copy = { t with last := some (t.cycles, t.cycles) } := by
      unfold Timeline.note
      rw [hlast]
    have hlater := h.later
    rw [hnote]
    constructor
    case driver => exact h.driver
    case first => exact fun hnone => absurd hnone (Option.some_ne_none _)
    case backed =>
      intro taken backed heq
      obtain ⟨_, rfl⟩ := Prod.mk.inj (Option.some.inj heq)
      exact hlog s.logs
    case underway => exact fun _ _ _ _ hnone => absurd hnone.symm (Option.some_ne_none _)
    case later =>
      show List.Forall₂ _ t.later (s.logs ++ [_]).tail
      rw [hlogs] at hlater ⊢
      exact hlater
    case chain =>
      show List.IsChain _ (s.logs ++ [_])
      rw [hlogs]
      exact List.IsChain.singleton _
  | some times =>
    obtain ⟨taken, backed⟩ := times
    have hnote : t.note .copy = { t with
        last := some (t.compared, t.cycles)
        later := t.later ++ [⟨taken, backed, t.compared, t.cycles⟩] } := by
      unfold Timeline.note
      rw [hlast]
    obtain ⟨_, previous, _, _, _, hprevious, hbefore⟩ := h.backed taken backed hlast
    have hsaw := h.underway taken backed hlast c hc
    rw [hnote]
    constructor
    case driver => exact h.driver
    case first => exact fun hnone => absurd hnone (Option.some_ne_none _)
    case backed =>
      intro taken backed heq
      obtain ⟨_, rfl⟩ := Prod.mk.inj (Option.some.inj heq)
      exact hlog s.logs
    case underway => exact fun _ _ _ _ hnone => absurd hnone.symm (Option.some_ne_none _)
    case later =>
      show List.Forall₂ _ (t.later ++ [_]) (s.logs ++ [_]).tail
      have hne : s.logs ≠ [] := by
        intro hnil
        rw [hnil] at hprevious
        exact Option.some_ne_none _ hprevious.symm
      rw [List.tail_append_of_ne_nil hne]
      refine List.rel_append h.later (.cons ⟨hsaw, ?_⟩ .nil)
      rw [h.numHandles hset]
      exact hbaseline
    case chain =>
      show List.IsChain _ (s.logs ++ [_])
      refine h.chain.append (List.IsChain.singleton _) fun log hlog log' hlog' => ?_
      obtain rfl := Option.some.inj (hprevious.symm.trans hlog)
      obtain rfl := Option.some.inj hlog'
      refine ⟨_, hsaw.image, ?_⟩
      rw [hbefore]
      exact hsaw.comparisons

/-- **Step lemma.** -/
theorem Follows.step (h : Follows env d threshold s t) (hset : (setMasterBuffer env d).1 = 0)
    {a : MonitorAction} {s' : MonitorSystem} (hstep : MonitorStep fresh threshold s a s') :
    Follows env d threshold s' (t.note a) := by
  cases hstep with
  | cycle c => exact h.cycle c
  | compare _ => exact h.compare hset
  | copy _ hc => exact h.copy hset hc

/-- **Run lemma.** -/
theorem Follows.run (hset : (setMasterBuffer env d).1 = 0) {as : List MonitorAction}
    (run : Run (MonitorStep fresh threshold) (MonitorSystem.start (setMasterBuffer env d).2) as s) :
    Follows env d threshold s (timeline as) := by
  induction run with
  | start => exact follows_start env d threshold
  | next _ hstep ih =>
    unfold timeline
    rw [List.foldl_append]
    exact ih.step hset hstep

/-- If every call copies the image it has compared, the steps compared are those
between the images left. -/
theorem Follows.steps (h : Follows env d threshold s t)
    (hkept : ∀ log ∈ s.logs.tail, log.compared = some log.baseline) :
    s.logs.IsChain fun previous log =>
      log.comparisons = imageStep previous.baseline log.baseline := by
  refine h.chain.imp_of_mem_tail_imp fun previous log _ hlog hstep => ?_
  obtain ⟨image, himage, hcomparisons⟩ := hstep
  rw [hcomparisons, Option.some.inj (himage.symm.trans (hkept log hlog))]

theorem forall₂_iff {α β : Type*} {R S : α → β → Prop} {P : α → Prop} {as : List α} {bs : List β}
    (h : List.Forall₂ R as bs) (hiff : ∀ a b, R a b → (S a b ↔ P a)) :
    List.Forall₂ S as bs ↔ ∀ a ∈ as, P a := by
  induction h with
  | nil => exact iff_of_true List.Forall₂.nil (List.forall_mem_nil P)
  | cons hab _ ih => rw [List.forall₂_cons, List.forall_mem_cons, ih, hiff _ _ hab]

theorem forall_of_forall₂ {α β : Type*} {R : α → β → Prop} {P : β → Prop} {as : List α}
    {bs : List β} (h : List.Forall₂ R as bs) (himp : ∀ a b, R a b → P b) : ∀ b ∈ bs, P b := by
  induction h with
  | nil => exact List.forall_mem_nil P
  | cons hab _ ih => exact List.forall_mem_cons.mpr ⟨himp _ _ hab, ih⟩

theorem Follows.noMovementLost_iff (h : Follows env d threshold s t) (hlo : -2 ^ 31 ≤ threshold)
    (hhi : threshold < 2 ^ 31) :
    NoMovementLost env d.numHandles threshold t.later s.logs ↔
      ∀ call ∈ t.later, call.Covered env d.numHandles threshold := by
  rw [← forall₂_iff h.later fun call log hlog => hlog.complete_iff hlo hhi]
  constructor
  · exact fun hlost => hlost.complete
  · intro hcomplete
    exact ⟨h.steps (forall_of_forall₂ hcomplete fun _ _ hcall => hcall.kept), hcomplete⟩

end Runs

/-! ## Which orders are safe -/

section Orders

variable {env : BufferSetup} {n : Nat} {threshold : Int}

theorem shownImage_even {cs : List Cycle} (h : Even cs.length) :
    shownImage env cs = initialImage env := if_pos h

theorem shownImage_odd {cs : List Cycle} (h : ¬ Even cs.length) :
    shownImage env cs = latestReceived env cs := if_neg h

theorem movement_self (image : Area) (i : Nat) : movement image image i = 0 := by
  unfold movement
  rw [sub_self, abs_zero]

/-- Calls lose no movement if they come after odd numbers of cycles, with no
cycle between the two sections of any of them, as long as no count received
jumps out of range. -/
theorem CallTimes.covered_of_odd {call : CallTimes} (hbefore : call.taken = call.backed)
    (hquiet : call.compared = call.copied) (hbacked : ¬ Even call.backed.length)
    (hcompared : ¬ Even call.compared.length)
    (hrange : ∀ i < n, call.received env i ≠ 2 ^ 31 ∧
      call.received env i + threshold < 2 ^ 32) : call.Covered env n threshold := by
  have hshown : ∀ i, call.shown env i = call.received env i := by
    intro i
    unfold CallTimes.shown CallTimes.received
    rw [shownImage_odd hbacked, shownImage_odd hcompared, hbefore]
  refine ⟨?_, fun i hi => ?_, fun i hi hmoved => ?_⟩
  · unfold SameShown
    rw [hquiet]
  · rw [hshown]
    exact hrange i hi
  · rw [hshown]
    exact hmoved

/-- The first `u` of the cycles `data 0, data 1, …`. -/
def firstCycles (data : Nat → Cycle) (u : Nat) : List Cycle := (List.range u).map data

theorem length_firstCycles (data : Nat → Cycle) (u : Nat) : (firstCycles data u).length = u := by
  simp [firstCycles]

/-- The first `p` cycles receive one image, and the later ones another. -/
def twoImages (first second : Area) (p : Nat) : Nat → Cycle :=
  fun j => cycleWith 0 (some (if j < p then first else second))

theorem latestReceived_twoImages (first second : Area) (p : Nat) {u : Nat} (hu : u ≠ 0) :
    latestReceived env (firstCycles (twoImages first second p) u)
      = if u ≤ p then first else second := by
  cases u with
  | zero => exact absurd rfl hu
  | succ u =>
    unfold latestReceived firstCycles
    rw [List.range_succ, List.map_append, List.foldl_append]
    rfl

/-- A gap of `b` cycles between the sections of a call, after `p` cycles, goes
unnoticed whatever is received exactly when it is empty or both numbers are even. -/
theorem always_sameShown_iff (hn : 0 < n) (p b : Nat) :
    (∀ data, SameShown env n (firstCycles data p) (firstCycles data (p + b)))
      ↔ b = 0 ∨ Even p ∧ Even b := by
  have hbyte : ∀ x : Byte, x ≠ x + 1 ∧ x ≠ x + 2 ∧ x + 1 ≠ x + 2 := by decide
  have heven : ∀ {data u}, Even u → shownImage env (firstCycles data u) = initialImage env := by
    intro data u hu
    exact shownImage_even (by rw [length_firstCycles]; exact hu)
  -- two images that differ from the initial one and from each other in every byte
  let data := twoImages (fun a => initialImage env a + 1) (fun a => initialImage env a + 2) p
  have hodd : ∀ {u}, ¬ Even u → shownImage env (firstCycles data u)
      = if u ≤ p then fun a => initialImage env a + 1 else fun a => initialImage env a + 2 := by
    intro u hu
    have hu0 : u ≠ 0 := fun h0 => hu (by rw [h0]; exact Even.zero)
    rw [shownImage_odd (by rw [length_firstCycles]; exact hu)]
    exact latestReceived_twoImages _ _ p hu0
  constructor
  · intro hall
    have hsame := hall data
    unfold SameShown shownAfter at hsame
    rcases Nat.eq_zero_or_pos b with hb | hb
    · exact Or.inl hb
    · right
      have hlater : ¬ p + b ≤ p := by omega
      by_cases hp : Even p
      · -- the comparison saw the initial image
        refine ⟨hp, ?_⟩
        by_contra hb'
        have hsum : ¬ Even (p + b) := by simp [Nat.even_add, hp, hb']
        rw [heven hp, hodd hsum, if_neg hlater] at hsame
        exact statusImage_ne hn (fun a => (hbyte (initialImage env a)).2.1) hsame
      · -- it saw the image received last
        rw [hodd hp, if_pos (Nat.le_refl p)] at hsame
        by_cases hsum : Even (p + b)
        · rw [heven hsum] at hsame
          exact absurd hsame.symm
            (statusImage_ne hn fun a => (hbyte (initialImage env a)).1)
        · rw [hodd hsum, if_neg hlater] at hsame
          exact absurd hsame (statusImage_ne hn fun a => (hbyte (initialImage env a)).2.2)
  · intro hgap data
    unfold SameShown shownAfter
    rcases hgap with hb | ⟨hp, hb⟩
    · rw [hb, Nat.add_zero]
    · rw [heven hp, heven (hp.add hb)]

/-- An image whose first count is as small as can be, or as large. -/
def extremeImage (low : Bool) (a : Nat) : Byte :=
  if a = commandSize + encoderCountOffset + 3 then (if low then 0x80 else 0x7f)
  else if low then 0 else 0xff

/-- Every count can jump by `2 ^ 31` or more. -/
theorem exists_far (image : Area) : ∃ far, 2 ^ 31 ≤ movement image far 0 := by
  have hlow : (encoderCountAt (extremeImage true) commandSize).toInt = -2 ^ 31 := by decide
  have hhigh : (encoderCountAt (extremeImage false) commandSize).toInt = 2 ^ 31 - 1 := by decide
  have hcount : ∀ far, movement image far 0 = |(encoderCountAt far commandSize).toInt
      - (encoderCountAt image commandSize).toInt| := fun far => rfl
  rcases lt_or_ge (encoderCountAt image commandSize).toInt 0 with hneg | hpos
  · refine ⟨extremeImage false, ?_⟩
    rw [hcount, hhigh, Int.abs_eq_natAbs]
    omega
  · refine ⟨extremeImage true, ?_⟩
    rw [hcount, hlow, Int.abs_eq_natAbs]
    omega

theorem movement_comm (before after : Area) (i : Nat) :
    movement before after i = movement after before i := abs_sub_comm _ _

/-- What is received in the `b` cycles between two undisturbed calls, the first
one after `p` cycles, is shown whatever it is exactly when there are none, or the
second call comes after an odd number of cycles and the first one too, unless it
comes before all cycles. -/
theorem always_visible_iff (hn : 0 < n) (hlo : 0 ≤ threshold) (hhi : threshold < 2 ^ 31)
    (p b : Nat) :
    (∀ data, Visible env n threshold ⟨firstCycles data p, firstCycles data p,
        firstCycles data (p + b), firstCycles data (p + b)⟩)
      ↔ b = 0 ∨ ¬ Even (p + b) ∧ (p = 0 ∨ ¬ Even p) := by
  have heven : ∀ {data u}, Even u → shownImage env (firstCycles data u) = initialImage env := by
    intro data u hu
    exact shownImage_even (by rw [length_firstCycles]; exact hu)
  have hodd : ∀ {data u}, ¬ Even u →
      shownImage env (firstCycles data u) = latestReceived env (firstCycles data u) := by
    intro data u hu
    exact shownImage_odd (by rw [length_firstCycles]; exact hu)
  obtain ⟨far, hfar⟩ := exists_far (initialImage env)
  have hlater : ∀ {first second : Area}, 0 < b →
      latestReceived env (firstCycles (twoImages first second p) (p + b)) = second := by
    intro first second hb
    rw [latestReceived_twoImages _ _ p (by omega), if_neg (by omega)]
  constructor
  · intro hall
    rcases Nat.eq_zero_or_pos b with hb | hb
    · exact Or.inl hb
    · right
      by_cases hsum : Even (p + b)
      · -- the initial image is shown, whatever has been received after it
        have hfirst : latestReceived env (firstCycles (twoImages (initialImage env) far p) p)
            = initialImage env := by
          rcases Nat.eq_zero_or_pos p with rfl | hp
          · rfl
          · rw [latestReceived_twoImages _ _ p (by omega), if_pos (Nat.le_refl p)]
        have hshown : shownImage env (firstCycles (twoImages (initialImage env) far p) p)
            = initialImage env := by
          by_cases hp : Even p
          · exact heven hp
          · rw [hodd hp, hfirst]
        have hmoved := hall (twoImages (initialImage env) far p) 0 hn
        unfold CallTimes.received CallTimes.shown at hmoved
        simp only [hfirst, hlater hb, hshown, heven hsum, movement_self] at hmoved
        omega
      · refine ⟨hsum, ?_⟩
        by_contra hp
        obtain ⟨hp0, hp⟩ := not_or.mp hp
        -- the first call is shown the initial image, and the second one is shown it again
        have hfirst : latestReceived env (firstCycles (twoImages far (initialImage env) p) p)
            = far := by
          rw [latestReceived_twoImages _ _ p hp0, if_pos (Nat.le_refl p)]
        have hmoved := hall (twoImages far (initialImage env) p) 0 hn
        unfold CallTimes.received CallTimes.shown at hmoved
        simp only [hfirst, hlater hb, heven (not_not.mp hp), hodd hsum, movement_self,
          movement_comm far] at hmoved
        omega
  · intro hgap data i hi hmoved
    unfold CallTimes.received at hmoved
    unfold CallTimes.shown
    rcases hgap with hb | ⟨hsum, hp⟩
    · simp only [hb, Nat.add_zero, movement_self] at hmoved
      omega
    · have hfirst : shownImage env (firstCycles data p)
          = latestReceived env (firstCycles data p) := by
        rcases hp with rfl | hp
        · rfl
        · exact hodd hp
      rw [hfirst, hodd hsum]
      exact hmoved

end Orders

/-- **Movements between monitor calls.** In every run of cycles and monitor
sections from a successful `setMasterBuffer` on, whatever is received, no
movement falls between two calls if and only if every call after the first is
shown the same statuses at both of its sections, no count it is shown has jumped
out of range, and what has moved by more than the threshold in the images
received is shown to have done so. -/
theorem movements_reported_iff (env : BufferSetup) (d : Driver)
    (hset : (setMasterBuffer env d).1 = 0) (fresh : Area) (threshold : Int)
    (hlo : -2 ^ 31 ≤ threshold) (hhi : threshold < 2 ^ 31)
    (as : List MonitorAction) (s : MonitorSystem)
    (run : Run (MonitorStep fresh threshold) (MonitorSystem.start (setMasterBuffer env d).2) as s) :
    NoMovementLost env d.numHandles threshold (timeline as).later s.logs ↔
      ∀ call ∈ (timeline as).later, call.Covered env d.numHandles threshold :=
  (Follows.run hset run).noMovementLost_iff hlo hhi

/-- One board, `setMasterBuffer` just over. -/
def oneBoardMonitored : MonitorSystem :=
  MonitorSystem.start (setMasterBuffer oneBoardSetup oneBoard).2

/-- Two undisturbed calls, after one cycle and after three, the last of which has
received ones. -/
def callsAfterOdd : List MonitorAction :=
  [.cycle (cycleWith 0 none), .compare, .copy, .cycle (cycleWith 0 none),
    .cycle (cycleWith 0 (some fun _ => 1)), .compare, .copy]

/-- The second call reports the board. -/
theorem oneBoard_movement_reported :
    ∃ s, Run (MonitorStep (fun _ => 0) 1) oneBoardMonitored callsAfterOdd s ∧
      NoMovementLost oneBoardSetup oneBoard.numHandles 1 (timeline callsAfterOdd).later s.logs ∧
      ∃ log ∈ s.logs, Reported log.lines 0 := by
  have step1 : MonitorStep (fun _ => 0) 1 oneBoardMonitored (.cycle (cycleWith 0 none)) _ :=
    .cycle _
  have run3 := ((Run.single step1).next (.compare rfl)).next (.copy rfl rfl)
  have run5 := (run3.next (.cycle (cycleWith 0 none))).next
    (.cycle (cycleWith 0 (some fun _ => 1)))
  have run7 := (run5.next (.compare rfl)).next (.copy rfl rfl)
  have hkept := (movements_reported_iff oneBoardSetup oneBoard oneBoard_set _ 1 (by decide)
    (by decide) _ _ run7).mpr <| by
      refine List.forall_mem_singleton.mpr (CallTimes.covered_of_odd rfl rfl (by decide)
        (by decide) fun i hi => ?_)
      obtain rfl := Nat.lt_one_iff.mp hi
      decide +kernel
  refine ⟨_, run7, hkept, ?_⟩
  cases hkept.complete with
  | cons hcall _ =>
    refine ⟨_, List.mem_of_mem_tail (List.mem_cons_self ..), ?_⟩
    exact hcall.lasting 0 (by decide) (by decide +kernel)

/-- One cycle between the sections of the second call, and a third call. -/
def cycleBetweenSections : List MonitorAction :=
  [.compare, .copy, .compare, .cycle (cycleWith 0 (some fun _ => 1)), .copy, .compare, .copy]

/-- Zeros are compared, and the ones received become the baseline: the board has
moved for good, and neither call reports it. -/
theorem oneBoard_movement_lost :
    ∃ s, Run (MonitorStep (fun _ => 0) 1) oneBoardMonitored cycleBetweenSections s ∧
      ¬ NoMovementLost oneBoardSetup oneBoard.numHandles 1 (timeline cycleBetweenSections).later
        s.logs ∧
      ∀ log ∈ s.logs.tail, log.lines = [] := by
  have step1 : MonitorStep (fun _ => 0) 1 oneBoardMonitored .compare _ := .compare rfl
  have run2 := (Run.single step1).next (.copy rfl rfl)
  have run4 := (run2.next (.compare rfl)).next (.cycle (cycleWith 0 (some fun _ => 1)))
  have run7 := ((run4.next (.copy rfl rfl)).next (.compare rfl)).next (.copy rfl rfl)
  have hfollows : Follows oneBoardSetup oneBoard 1 _ _ := Follows.run oneBoard_set run7
  refine ⟨_, run7, fun hkept => ?_, ?_⟩
  · have hcovered := (hfollows.noMovementLost_iff (by decide) (by decide)).mp hkept _
      (List.mem_cons_self ..)
    have hsame := hcovered.sameShown
    have hbyte := statusImage_eq_iff.mp hsame 0 (by decide) 0 (by decide)
    have hzero : (0 : Byte) = 1 := hbyte
    exact absurd hzero (by decide)
  · cases hfollows.later with
    | cons hsecond hrest =>
      cases hrest with
      | cons hthird _ =>
        refine List.forall_mem_cons.mpr ⟨?_, List.forall_mem_singleton.mpr ?_⟩
        · rw [hsecond.saw.lines, hsecond.saw.comparisons]
          decide +kernel
        · rw [hthird.saw.lines, hthird.saw.comparisons]
          decide +kernel

end Pr2Ethercat
