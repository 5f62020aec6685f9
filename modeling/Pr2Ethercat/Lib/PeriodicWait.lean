import Mathlib.Data.List.Chain

/-!
# A loop that waits for a period to pass

Such a loop reads the clock, waits for a deadline, and does its job, turn after
turn. In the loops of this file the deadline a turn waits for is one period after
the reading of the turn *before*: it was computed once that turn's own wait was
over, from a reading taken when it began. Only delays come from outside: the
clock goes on by any amount between two steps, and the job takes any time.

`turns` is what happens, on an integer clock. `OnPace` is a recurrence over the
delays alone, and by `spaced_turns_iff` it says exactly when any two consecutive
jobs start at least a period apart. When the clock only moves during the job and
before the reading, the recurrence has a closed form: of any two successive gaps
between a job's start and the next reading, one must be a whole period
(`onPace_iff_gaps`).
-/

namespace PeriodicWait

/-- How far the clock moves between the steps of a turn: up to the reading, on
to the wait, after the wait up to the start of the job, and during the job. -/
structure Delays where
  toReading : Nat
  toWait : Nat
  toStart : Nat
  job : Nat
  deriving DecidableEq, Repr

/-- What a turn leaves on record. -/
structure Turn where
  reading : Int
  start : Int
  deriving DecidableEq, Repr

/-- The turns from time `clock` on; `previous` is the last reading so far. -/
def turns (period : Nat) : (previous clock : Int) → List Delays → List Turn
  | _, _, [] => []
  | previous, clock, d :: rest =>
    let reading := clock + d.toReading
    let start := max (reading + d.toWait) (previous + period) + d.toStart
    ⟨reading, start⟩ :: turns period reading (start + d.job) rest

/-- Any two consecutive starts are at least a period apart. -/
def Spaced (period : Nat) (starts : List Int) : Prop :=
  starts.IsChain fun s s' : Int => s + period ≤ s'

instance (period : Nat) (starts : List Int) : Decidable (Spaced period starts) :=
  inferInstanceAs (Decidable (starts.IsChain fun s s' : Int => s + period ≤ s'))

/-! ## The recurrence -/

/-- From a turn's reading to the start of its job, when the reading is
`since + d.toReading` after the one before. -/
def lag (period since : Nat) (d : Delays) : Nat :=
  max d.toWait (period - (since + d.toReading)) + d.toStart

/-- A turn with lag `l` and a job of length `job` is followed by turns that keep
the pace: the next job is a period later either because the job and the delays
take that long, or because the deadline, a period after the turn's reading, is
not more than `d.toStart` too early. -/
def OnPaceAfter (period : Nat) : (l job : Nat) → List Delays → Prop
  | _, _, [] => True
  | l, job, d :: rest =>
    (period ≤ job + d.toReading + d.toWait + d.toStart ∨ l ≤ d.toStart) ∧
      OnPaceAfter period (lag period (l + job) d) d.job rest

/-- The delays keep the pace, from a reading just before the loop on. -/
def OnPace (period : Nat) : List Delays → Prop
  | [] => True
  | d :: rest => OnPaceAfter period (lag period 0 d) d.job rest

/-- One turn: the next job starts its lag after the next reading, and a period
after the last start exactly when `OnPaceAfter` says so. -/
theorem next_start (period : Nat) {l job : Nat} {previous start clock : Int} (d : Delays)
    (hstart : start = previous + l) (hclock : clock = start + job) :
    max (clock + d.toReading + d.toWait) (previous + period) + d.toStart
        = clock + d.toReading + lag period (l + job) d ∧
      (start + period ≤ max (clock + d.toReading + d.toWait) (previous + period) + d.toStart ↔
        period ≤ job + d.toReading + d.toWait + d.toStart ∨ l ≤ d.toStart) := by
  unfold lag
  omega

theorem spaced_turns_after_iff {period : Nat} :
    ∀ {ds : List Delays} {previous start clock : Int} {l job : Nat},
      start = previous + l → clock = start + job →
        (Spaced period (start :: (turns period previous clock ds).map Turn.start) ↔
          OnPaceAfter period l job ds)
  | [], _, _, _, _, _ => by
    intro _ _
    exact iff_of_true (List.isChain_singleton _) trivial
  | d :: rest, previous, start, clock, l, job => by
    intro hstart hclock
    obtain ⟨hnext, hpair⟩ := next_start period d hstart hclock
    -- the rest of the run, from this turn's reading on
    have ih : Spaced period (_ :: (turns period (clock + d.toReading) (_ + d.job) rest).map
        Turn.start) ↔ OnPaceAfter period (lag period (l + job) d) d.job rest :=
      spaced_turns_after_iff hnext rfl
    rw [OnPaceAfter, ← hpair, ← ih]
    exact List.isChain_cons_cons

/-- Two consecutive jobs always start at least a period apart exactly when the
delays keep the pace. -/
theorem spaced_turns_iff {period : Nat} {first : Int} {ds : List Delays} :
    Spaced period ((turns period first first ds).map Turn.start) ↔ OnPace period ds := by
  cases ds with
  | nil => exact iff_of_true List.IsChain.nil trivial
  | cons d rest =>
    -- the reading before the loop counts as a turn that took no time
    obtain ⟨hnext, -⟩ := next_start period d (show first = first + (0 : Nat) by omega)
      (show first = first + (0 : Nat) by omega)
    exact spaced_turns_after_iff hnext rfl

/-! ## When only the job and the way to the reading take time -/

/-- From the start of each job, or from the reading before the loop, to the next
reading. -/
def gaps : (job : Nat) → List Delays → List Nat
  | _, [] => []
  | job, d :: rest => (job + d.toReading) :: gaps d.job rest

/-- Of any two successive gaps one is a whole period. -/
def OneOfTwo (period : Nat) (gs : List Nat) : Prop :=
  gs.IsChain fun g g' => period ≤ g ∨ period ≤ g'

instance (period : Nat) (gs : List Nat) : Decidable (OneOfTwo period gs) :=
  inferInstanceAs (Decidable (gs.IsChain fun g g' => period ≤ g ∨ period ≤ g'))

/-- The deadline was met on time exactly when the gap before it was long. -/
theorem onPaceAfter_iff_gaps {period : Nat} :
    ∀ {ds : List Delays} {l job g : Nat}, (∀ d ∈ ds, d.toWait = 0 ∧ d.toStart = 0) →
      (l = 0 ↔ period ≤ g) → (OnPaceAfter period l job ds ↔ OneOfTwo period (g :: gaps job ds))
  | [], _, _, _ => by
    intro _ _
    exact iff_of_true trivial (List.isChain_singleton _)
  | d :: rest, l, job, g => by
    intro hds hl
    obtain ⟨hwait, hstart⟩ := hds d (List.mem_cons_self ..)
    have hrest : ∀ e ∈ rest, e.toWait = 0 ∧ e.toStart = 0 := fun e he =>
      hds e (List.mem_cons_of_mem d he)
    have hpair : (period ≤ job + d.toReading + d.toWait + d.toStart ∨ l ≤ d.toStart) ↔
        (period ≤ g ∨ period ≤ job + d.toReading) := by
      omega
    rw [OnPaceAfter, OneOfTwo, gaps, List.isChain_cons_cons, hpair]
    refine and_congr_right fun hpaced => ?_
    -- a lag left over from the last turn counts only where this gap is short
    have hlag : lag period (l + job) d = 0 ↔ period ≤ job + d.toReading := by
      unfold lag
      omega
    exact onPaceAfter_iff_gaps hrest hlag

theorem onPace_iff_gaps {period : Nat} {ds : List Delays}
    (hds : ∀ d ∈ ds, d.toWait = 0 ∧ d.toStart = 0) :
    OnPace period ds ↔ OneOfTwo period (gaps 0 ds) := by
  cases ds with
  | nil => exact iff_of_true trivial List.IsChain.nil
  | cons d rest =>
    obtain ⟨hwait, hstart⟩ := hds d (List.mem_cons_self ..)
    have hlag : lag period 0 d = 0 ↔ period ≤ 0 + d.toReading := by
      unfold lag
      omega
    exact onPaceAfter_iff_gaps (fun e he => hds e (List.mem_cons_of_mem d he)) hlag

end PeriodicWait
