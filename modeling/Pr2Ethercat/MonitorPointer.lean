import Pr2Ethercat.Freshness
import Pr2Ethercat.Lib.Mesa
import Pr2Ethercat.Session

/-!
# The pointer of the comparison

`monitorChanges` takes `prev_buffer_` into a local before it has
`mutex_buffer_access`, and walks through that half once it has it. `update` may
run in between, any number of times, and swaps the halves each time.
`PointerSystem` is the monitor thread with the fetch as a step of its own;
`MonitorRuns` looks at the two sections behind it.

A comparison that has been overtaken by `k` cycles walks through the half that
was designated `k` swaps ago. `Designates` follows that pointer, and `gaps`
reads the numbers `k` off the actions of a run: the half compared is the one
that `prev_buffer_` designates exactly after an even number of cycles, and after
an odd number it is the half that `update` packs next
(`comparisons_current_iff`).
-/

namespace Pr2Ethercat

open ByteArea Mesa

/-! ## The system -/

/-- What a comparison walked through and printed, and the two pointers while it
held the mutex. -/
structure ComparisonLog where
  read : Nat
  prevBuffer : Nat
  thisBuffer : Nat
  lines : List (Nat × BitVec 32)

/-- The half compared is the one that `prev_buffer_` designates, and not the one
that `update` will pack and transmit next. -/
def ComparisonLog.Current (log : ComparisonLog) : Prop :=
  log.read = log.prevBuffer ∧ log.read ≠ log.thisBuffer

/-- Where the monitor thread is in its call. `fetched` has the local
`prev_buffer`, if the call is going to compare at all. -/
inductive PointerPc where
  | outside
  | fetched (prevBuffer : Option Nat)
  | compared

/-- The steps: `update()`, the unlocked beginning of `monitorChanges`, and its
two sections. -/
inductive PointerAction where
  | cycle (c : Cycle)
  | fetch
  | compare
  | copy

structure PointerSystem where
  driver : Driver
  statics : Option Monitor
  pc : PointerPc
  logs : List ComparisonLog

/-- Nobody has called `monitorChanges` yet. -/
def PointerSystem.start (d : Driver) : PointerSystem := ⟨d, none, .outside, []⟩

section Steps

variable (fresh : Area) (threshold : Int)

/-- From the call to `prev_buffer = prev_buffer_`. -/
def PointerSystem.fetch (s : PointerSystem) : PointerSystem :=
  let m := Monitor.enter s.statics s.driver fresh
  { s with
    statics := some m
    pc := .fetched (if m.Compares s.driver then some s.driver.prevBuffer else none) }

/-- The first section, with `prevBuffer` in hand. -/
def PointerSystem.compare (s : PointerSystem) (m : Monitor) (prevBuffer : Nat) : PointerSystem :=
  { s with
    pc := .compared
    logs := s.logs ++
      [{ read := prevBuffer
         prevBuffer := s.driver.prevBuffer
         thisBuffer := s.driver.thisBuffer
         lines := compareSection s.driver m threshold prevBuffer }] }

/-- The second section, and the return. -/
def PointerSystem.copy (s : PointerSystem) (m : Monitor) : PointerSystem :=
  { s with
    statics := some (copySection s.driver m)
    pc := .outside }

inductive PointerStep : PointerSystem → PointerAction → PointerSystem → Prop where
  | cycle {s : PointerSystem} (c : Cycle) :
      PointerStep s (.cycle c) { s with driver := (update c s.driver).driver }
  | fetch {s : PointerSystem} (hpc : s.pc = .outside) : PointerStep s .fetch (s.fetch fresh)
  | compare {s : PointerSystem} {m : Monitor} {prevBuffer : Nat} (hm : s.statics = some m)
      (hpc : s.pc = .fetched (some prevBuffer)) :
      PointerStep s .compare (s.compare threshold m prevBuffer)
  /-- The first section is left out. -/
  | skip {s : PointerSystem} (hpc : s.pc = .fetched none) :
      PointerStep s .compare { s with pc := .compared }
  | copy {s : PointerSystem} {m : Monitor} (hm : s.statics = some m) (hpc : s.pc = .compared) :
      PointerStep s .copy (s.copy m)

/-- With nothing in between, the steps of a call that compares are `monitorChanges`. -/
theorem monitorChanges_undivided (s : PointerSystem)
    (hcompares : (Monitor.enter s.statics s.driver fresh).Compares s.driver) :
    (s.fetch fresh).pc = .fetched (some s.driver.prevBuffer) ∧
      (compareSection s.driver (Monitor.enter s.statics s.driver fresh) threshold
          s.driver.prevBuffer,
        copySection s.driver (Monitor.enter s.statics s.driver fresh))
      = monitorChanges s.driver s.statics fresh threshold := by
  refine ⟨?_, ?_⟩
  · show PointerPc.fetched (if _ then some s.driver.prevBuffer else none) = _
    rw [if_pos hcompares]
  · unfold monitorChanges monitorSlots
    simp only [if_pos hcompares]
    rfl

/-- What a comparison prints is about the statuses at the address it logs as
`read`, and nothing else in memory. -/
theorem PointerSystem.compare_read (s : PointerSystem) (m : Monitor) (prevBuffer : Nat) :
    ∃ log, (s.compare threshold m prevBuffer).logs = s.logs ++ [log] ∧
      log.lines = printed threshold (imageStep (statusImage m.monitorBackup 0 s.driver.numHandles)
        (statusImage s.driver.mem log.read s.driver.numHandles)) := by
  refine ⟨_, rfl, ?_⟩
  show printed threshold (compareSlots s.driver.numHandles s.driver m prevBuffer) = _
  rw [compareSlots_eq_imageStep]

end Steps

/-! ## The cycles that overtake a comparison -/

/-- Whether a call is over; the cycles since the pointer in hand was fetched; and
for each comparison made, the cycles that had overtaken it. -/
structure Overtaking where
  initialised : Bool
  since : Option Nat
  gaps : List Nat

def Overtaking.note (o : Overtaking) : PointerAction → Overtaking
  | .cycle _ => { o with since := o.since.map (· + 1) }
  | .fetch => { o with since := if o.initialised = true then some 0 else none }
  | .compare => { o with since := none, gaps := o.gaps ++ o.since.toList }
  | .copy => { o with initialised := true }

def overtaking (as : List PointerAction) : Overtaking := as.foldl Overtaking.note ⟨false, none, []⟩

/-- For each comparison of the run, the number of cycles between its fetch and itself. -/
def gaps (as : List PointerAction) : List Nat := (overtaking as).gaps

/-! ## The pointer -/

/-- `p` is what `prev_buffer_` was `k` cycles ago. -/
def Designates (d : Driver) (k p : Nat) : Prop :=
  p = if Even k then d.prevBuffer else d.thisBuffer

theorem Designates.cycle {d : Driver} {k p : Nat} (h : Designates d k p) (c : Cycle) :
    Designates (update c d).driver (k + 1) p := by
  unfold Designates at h ⊢
  show p = if Even (k + 1) then d.thisBuffer else d.prevBuffer
  rw [h]
  by_cases heven : Even k
  · rw [if_pos heven, if_neg (by rw [Nat.even_add_one]; exact not_not_intro heven)]
  · rw [if_neg heven, if_pos (Nat.even_add_one.mpr heven)]

theorem Designates.current_iff {d : Driver} (hd : Halves d) {k p : Nat} (h : Designates d k p)
    {lines : List (Nat × BitVec 32)} :
    ComparisonLog.Current ⟨p, d.prevBuffer, d.thisBuffer, lines⟩ ↔ Even k := by
  unfold Designates at h
  unfold ComparisonLog.Current
  constructor
  · intro ⟨hread, _⟩
    by_contra hodd
    rw [if_neg hodd] at h
    exact hd.ne (h.symm.trans hread)
  · intro heven
    rw [if_pos heven] at h
    exact ⟨h, fun hthis => hd.ne (hthis.symm.trans h)⟩

/-- What the thread has in hand, when `since` cycles have run. -/
def PointerPc.Holds (d : Driver) (since : Option Nat) : PointerPc → Prop
  | .outside => since = none
  | .fetched none => since = none
  | .fetched (some p) => ∃ k, since = some k ∧ Designates d k p
  | .compared => since = none

theorem PointerPc.Holds.cycle {d : Driver} {since : Option Nat} {pc : PointerPc}
    (h : pc.Holds d since) (c : Cycle) : pc.Holds (update c d).driver (since.map (· + 1)) := by
  rcases pc with _ | ⟨_ | p⟩ | _
  · rw [show since = none from h]
    rfl
  · rw [show since = none from h]
    rfl
  · obtain ⟨k, hsince, hp⟩ := h
    rw [hsince]
    exact ⟨k + 1, rfl, hp.cycle c⟩
  · rw [show since = none from h]
    rfl

/-- The system after the actions that `o` sums up. -/
structure Overtaken (s : PointerSystem) (o : Overtaking) : Prop where
  halves : Halves s.driver
  allocated : s.driver.masterBuffer ≠ NULL
  started : s.statics = none → o.initialised = false
  initialised : ∀ m, s.statics = some m → m.monitorDeltaInit = o.initialised
  pc : s.pc.Holds s.driver o.since
  logs : List.Forall₂ (fun log gap => log.Current ↔ Even gap) s.logs o.gaps

section Overtaken

variable {s : PointerSystem} {o : Overtaking} {fresh : Area} {threshold : Int}

theorem Overtaken.prev_ne_null (h : Overtaken s o) : s.driver.prevBuffer ≠ NULL :=
  h.halves.prev_ne_null h.allocated

theorem overtaken_start (env : BufferSetup) {d : Driver} (hset : (setMasterBuffer env d).1 = 0) :
    Overtaken (PointerSystem.start (setMasterBuffer env d).2) (overtaking []) := by
  exact ⟨halves_setMasterBuffer env hset, masterBuffer_setMasterBuffer env hset, fun _ => rfl,
    fun m hm => absurd hm.symm (Option.some_ne_none m), rfl, List.Forall₂.nil⟩

theorem Overtaken.cycle (h : Overtaken s o) (c : Cycle) :
    Overtaken { s with driver := (update c s.driver).driver } (o.note (.cycle c)) :=
  ⟨h.halves.update c, h.allocated, h.started, h.initialised, h.pc.cycle c, h.logs⟩

/-- A call compares exactly if one is over. -/
theorem Overtaken.compares_iff (h : Overtaken s o) :
    (Monitor.enter s.statics s.driver fresh).Compares s.driver ↔ o.initialised = true := by
  have hprev := h.prev_ne_null
  unfold Monitor.Compares Monitor.enter
  cases hstatics : s.statics with
  | none =>
    rw [h.started hstatics]
    exact ⟨fun hc => absurd hc.1 (by simp), fun hc => absurd hc (by simp)⟩
  | some m =>
    rw [← h.initialised m hstatics]
    exact ⟨fun hc => hc.1, fun hc => ⟨hc, hprev⟩⟩

theorem Overtaken.fetch (h : Overtaken s o) : Overtaken (s.fetch fresh) (o.note .fetch) := by
  refine ⟨h.halves, h.allocated, fun hnone => absurd hnone (Option.some_ne_none _), ?_, ?_, h.logs⟩
  · intro m hm
    rw [← Option.some.inj hm]
    unfold Monitor.enter
    cases hstatics : s.statics with
    | none => exact (h.started hstatics).symm
    | some m' => exact h.initialised m' hstatics
  · show PointerPc.Holds s.driver (if o.initialised = true then some 0 else none)
      (.fetched (if _ then some s.driver.prevBuffer else none))
    by_cases hinit : o.initialised = true
    · rw [if_pos hinit, if_pos (h.compares_iff.mpr hinit)]
      exact ⟨0, rfl, (if_pos Even.zero).symm⟩
    · rw [if_neg hinit, if_neg fun hc => hinit (h.compares_iff.mp hc)]
      rfl

theorem Overtaken.compare (h : Overtaken s o) {m : Monitor} {p : Nat}
    (hpc : s.pc = .fetched (some p)) :
    Overtaken (s.compare threshold m p) (o.note .compare) := by
  have hholds := h.pc
  rw [hpc] at hholds
  obtain ⟨k, hsince, hp⟩ := hholds
  refine ⟨h.halves, h.allocated, h.started, h.initialised, rfl, ?_⟩
  show List.Forall₂ _ (s.logs ++ [_]) (o.gaps ++ o.since.toList)
  rw [hsince]
  exact List.rel_append h.logs (.cons (hp.current_iff h.halves) .nil)

theorem Overtaken.skip (h : Overtaken s o) (hpc : s.pc = .fetched none) :
    Overtaken { s with pc := .compared } (o.note .compare) := by
  have hsince := h.pc
  rw [hpc] at hsince
  refine ⟨h.halves, h.allocated, h.started, h.initialised, rfl, ?_⟩
  show List.Forall₂ _ s.logs (o.gaps ++ o.since.toList)
  rw [show o.since = none from hsince, Option.toList_none, List.append_nil]
  exact h.logs

theorem Overtaken.copy (h : Overtaken s o) {m : Monitor} (hpc : s.pc = .compared) :
    Overtaken (s.copy m) (o.note .copy) := by
  have hsince := h.pc
  rw [hpc] at hsince
  refine ⟨h.halves, h.allocated, fun hnone => absurd hnone (Option.some_ne_none _), ?_, hsince,
    h.logs⟩
  intro m' hm'
  rw [← Option.some.inj hm']
  unfold copySection
  rw [if_pos h.prev_ne_null]
  rfl

/-- **Step lemma.** -/
theorem Overtaken.step (h : Overtaken s o) {a : PointerAction} {s' : PointerSystem}
    (hstep : PointerStep fresh threshold s a s') : Overtaken s' (o.note a) := by
  cases hstep with
  | cycle c => exact h.cycle c
  | fetch _ => exact h.fetch
  | compare _ hpc => exact h.compare hpc
  | skip hpc => exact h.skip hpc
  | copy _ hpc => exact h.copy hpc

/-- **Run lemma.** -/
theorem Overtaken.run {env : BufferSetup} {d : Driver} (hset : (setMasterBuffer env d).1 = 0)
    {as : List PointerAction}
    (run : Run (PointerStep fresh threshold) (PointerSystem.start (setMasterBuffer env d).2) as s) :
    Overtaken s (overtaking as) := by
  induction run with
  | start => exact overtaken_start env hset
  | next _ hstep ih =>
    unfold overtaking
    rw [List.foldl_append]
    exact ih.step hstep

end Overtaken

theorem forall_iff_of_forall₂ {α β : Type*} {P : α → Prop} {Q : β → Prop} {as : List α}
    {bs : List β} (h : List.Forall₂ (fun a b => P a ↔ Q b) as bs) :
    (∀ a ∈ as, P a) ↔ ∀ b ∈ bs, Q b := by
  induction h with
  | nil => exact iff_of_true (List.forall_mem_nil P) (List.forall_mem_nil Q)
  | cons hab _ ih => rw [List.forall_mem_cons, List.forall_mem_cons, hab, ih]

/-- **The image compared.** In every run from a successful `setMasterBuffer` on,
every comparison walks through the half that `prev_buffer_` designates, and
never through the one that is packed next, if and only if an even number of
cycles has overtaken each of them. -/
theorem comparisons_current_iff (env : BufferSetup) (d : Driver)
    (hset : (setMasterBuffer env d).1 = 0) (fresh : Area) (threshold : Int)
    (as : List PointerAction) (s : PointerSystem)
    (run : Run (PointerStep fresh threshold) (PointerSystem.start (setMasterBuffer env d).2) as s) :
    (∀ log ∈ s.logs, log.Current) ↔ ∀ gap ∈ gaps as, Even gap :=
  forall_iff_of_forall₂ (Overtaken.run hset run).logs

/-- One board, `setMasterBuffer` just over. -/
def oneBoardPointed : PointerSystem :=
  PointerSystem.start (setMasterBuffer oneBoardSetup oneBoard).2

/-- The pointer that the second call fetches. -/
theorem oneBoard_second_fetch :
    ∃ s, Run (PointerStep (fun _ => 0) 1) oneBoardPointed [.fetch, .compare, .copy, .fetch] s ∧
      s.statics ≠ none ∧ s.logs = [] ∧ s.pc = .fetched (some s.driver.prevBuffer) := by
  have step1 : PointerStep (fun _ => 0) 1 oneBoardPointed .fetch _ := .fetch rfl
  have run3 := ((Run.single step1).next (.skip rfl)).next (.copy rfl rfl)
  refine ⟨_, run3.next (.fetch rfl), Option.some_ne_none _, rfl, ?_⟩
  exact congrArg PointerPc.fetched
    (if_pos ((Overtaken.run oneBoard_set run3).compares_iff.mpr rfl))

/-- Two cycles overtake the second comparison, and it is not disturbed. -/
theorem oneBoard_two_cycles_in_gap :
    ∃ s, Run (PointerStep (fun _ => 0) 1) oneBoardPointed
        [.fetch, .compare, .copy, .fetch, .cycle (cycleWith 0 none), .cycle (cycleWith 0 none),
          .compare] s ∧ s.logs.length = 1 ∧ ∀ log ∈ s.logs, log.Current := by
  obtain ⟨s, run, hstatics, hlogs, hpc⟩ := oneBoard_second_fetch
  obtain ⟨m, hm⟩ := Option.ne_none_iff_exists'.mp hstatics
  have run6 := (run.next (.cycle (cycleWith 0 none))).next (.cycle (cycleWith 0 none))
  have run7 := run6.next (.compare hm hpc)
  refine ⟨_, run7, ?_, ?_⟩
  · show (s.logs ++ [_]).length = 1
    rw [hlogs]
    rfl
  · exact (comparisons_current_iff oneBoardSetup oneBoard oneBoard_set _ 1 _ _ run7).mpr
      (List.forall_mem_singleton.mpr (by decide))

/-- One cycle does, and the half compared is the one that is packed next. -/
theorem oneBoard_cycle_in_gap :
    ∃ s, Run (PointerStep (fun _ => 0) 1) oneBoardPointed
        [.fetch, .compare, .copy, .fetch, .cycle (cycleWith 0 none), .compare] s ∧
      ∃ log ∈ s.logs, ¬ log.Current ∧ log.read = log.thisBuffer := by
  obtain ⟨s, run, hstatics, _, hpc⟩ := oneBoard_second_fetch
  obtain ⟨m, hm⟩ := Option.ne_none_iff_exists'.mp hstatics
  have run6 := (run.next (.cycle (cycleWith 0 none))).next (.compare hm hpc)
  refine ⟨_, run6, _, List.mem_append_right _ (List.mem_singleton.mpr rfl), ?_, rfl⟩
  -- after the cycle, `this_buffer_` is what `prev_buffer_` was when it was fetched
  exact fun hcurrent => hcurrent.2 rfl

end Pr2Ethercat
