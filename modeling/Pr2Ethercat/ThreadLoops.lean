import Mathlib.Data.List.Forall2
import Pr2Ethercat.Lib.PeriodicWait
import Pr2Ethercat.PackCommand

/-!
# The two thread loops that drive the driver

`main.cpp` runs `kul::update` from one thread and `kul::monitorChanges` from
another. Both threads pace themselves with `gettimeofday` and
`pthread_cond_timedwait`, on condition variables that nobody signals.

The deadlines are built field by field from a reading, and the microseconds are
never carried into the seconds. A deadline that needs the carry is still the
right number of nanoseconds, but no longer a valid `struct timespec`, and the
wait that gets it fails at once (`deadlineOf_timerInterrupt_iff`).

The real-time loop has a second weakness, which shows where no carry is needed.
The deadline a turn waits for is computed at the end of the turn before, from a
reading taken before that turn's own wait. Put on a clock that counts
microseconds, as `gettimeofday` does, it is the loop of `PeriodicWait`
(`realTimeTurns_eq_turns`), whose turns alternate between waiting and not waiting.
-/

namespace Pr2Ethercat

open PeriodicWait

/-! ## Readings and deadlines -/

/-- `struct timespec`. -/
structure Timespec where
  tvSec : Int
  tvNsec : Int
  deriving DecidableEq, Repr

/-- What `gettimeofday` promises of a reading. -/
def Timeval.Normalised (now : Timeval) : Prop := 0 ≤ now.tvUsec ∧ now.tvUsec < 1000000

/-- What `pthread_cond_timedwait` asks of a deadline. -/
def Timespec.Normalised (abstime : Timespec) : Prop :=
  0 ≤ abstime.tvNsec ∧ abstime.tvNsec < 1000000000

instance (now : Timeval) : Decidable now.Normalised := inferInstanceAs (Decidable (_ ∧ _))

instance (abstime : Timespec) : Decidable abstime.Normalised :=
  inferInstanceAs (Decidable (_ ∧ _))

/-- The instant of a reading, in microseconds. -/
def Timeval.usec (now : Timeval) : Int := now.tvSec * 1000000 + now.tvUsec

/-- The instant of a deadline, in nanoseconds. -/
def Timespec.nsec (abstime : Timespec) : Int := abstime.tvSec * 1000000000 + abstime.tvNsec

/-- `RT_LOOP_WAIT_TIME`. -/
def rtLoopWaitTime : Nat := 900

/-- `MONITOR_LOOP_WAIT_TIME`. -/
def monitorLoopWaitTime : Nat := 500000

/-- `ENCODER_THRESHOLD_MOVEMENT`. -/
def encoderThresholdMovement : Nat := 1

/-- `timer_interrupt`, as each of the three places computes it from `now`. -/
def timerInterrupt (wait : Nat) (now : Timeval) : Timespec where
  tvSec := now.tvSec
  tvNsec := (now.tvUsec + wait) * 1000

/-- Adding `wait` to the reading needs no carry into the seconds. -/
def Timeval.NoCarry (wait : Nat) (now : Timeval) : Prop := now.tvUsec + wait < 1000000

instance (wait : Nat) (now : Timeval) : Decidable (now.NoCarry wait) :=
  inferInstanceAs (Decidable (_ < _))

/-- `abstime` is a valid deadline, `wait` microseconds after the reading. -/
def DeadlineOf (wait : Nat) (now : Timeval) (abstime : Timespec) : Prop :=
  abstime.Normalised ∧ abstime.nsec = (now.usec + wait) * 1000

/-- Carry or not, the deadline denotes the right instant. -/
theorem nsec_timerInterrupt (wait : Nat) (now : Timeval) :
    (timerInterrupt wait now).nsec = (now.usec + wait) * 1000 := by
  show now.tvSec * 1000000000 + (now.tvUsec + wait) * 1000
    = (now.tvSec * 1000000 + now.tvUsec + wait) * 1000
  omega

theorem normalised_timerInterrupt_iff {wait : Nat} {now : Timeval} (h : now.Normalised) :
    (timerInterrupt wait now).Normalised ↔ now.NoCarry wait := by
  obtain ⟨hlo, -⟩ := h
  show 0 ≤ (now.tvUsec + wait) * 1000 ∧ (now.tvUsec + wait) * 1000 < 1000000000
    ↔ now.tvUsec + wait < 1000000
  omega

theorem deadlineOf_timerInterrupt_iff {wait : Nat} {now : Timeval} (h : now.Normalised) :
    DeadlineOf wait now (timerInterrupt wait now) ↔ now.NoCarry wait := by
  rw [DeadlineOf, normalised_timerInterrupt_iff h, and_iff_left (nsec_timerInterrupt wait now)]

/-! ## The loops -/

/-- The calls a thread makes, apart from reading the clock. -/
inductive ThreadCall where
  | timedwait (abstime : Timespec)
  | update
  | monitorChanges (threshold : Nat)
  deriving DecidableEq, Repr

/-- The turns of `realTimeLoop`, one for each reading; `timer` is what the prelude
or the turn before has left in `timer_interrupt`. -/
def realTimeLoopFrom (timer : Timespec) : List Timeval → List ThreadCall
  | [] => []
  | now :: rest =>
    .timedwait timer :: .update :: realTimeLoopFrom (timerInterrupt rtLoopWaitTime now) rest

/-- `realTimeLoop`: its `first` reading is taken before the loop. -/
def realTimeLoop (first : Timeval) (readings : List Timeval) : List ThreadCall :=
  realTimeLoopFrom (timerInterrupt rtLoopWaitTime first) readings

/-- `monitorChanges(void *)`, the thread. -/
def monitorChangesLoop : List Timeval → List ThreadCall
  | [] => []
  | now :: rest =>
    .timedwait (timerInterrupt monitorLoopWaitTime now) ::
      .monitorChanges encoderThresholdMovement :: monitorChangesLoop rest

/-- The deadlines passed to `pthread_cond_timedwait`, in order. -/
def abstimes (calls : List ThreadCall) : List Timespec :=
  calls.filterMap fun
    | .timedwait abstime => some abstime
    | _ => none

/-- The readings that the deadlines of `realTimeLoop` are computed from: each
turn waits for the deadline of the one before. -/
def deadlineReadings (first : Timeval) (readings : List Timeval) : List Timeval :=
  (first :: readings).take readings.length

theorem abstimes_realTimeLoop (first : Timeval) (readings : List Timeval) :
    abstimes (realTimeLoop first readings)
      = (deadlineReadings first readings).map (timerInterrupt rtLoopWaitTime) := by
  induction readings generalizing first with
  | nil => rfl
  | cons now rest ih => exact congrArg (timerInterrupt rtLoopWaitTime first :: ·) (ih now)

theorem abstimes_monitorChangesLoop (readings : List Timeval) :
    abstimes (monitorChangesLoop readings)
      = readings.map (timerInterrupt monitorLoopWaitTime) := by
  induction readings with
  | nil => rfl
  | cons now rest ih => exact congrArg (timerInterrupt monitorLoopWaitTime now :: ·) ih

theorem mem_of_mem_deadlineReadings {first now : Timeval} {readings : List Timeval}
    (h : now ∈ deadlineReadings first readings) : now = first ∨ now ∈ readings :=
  List.mem_cons.mp (List.mem_of_mem_take h)

theorem forall₂_deadlineOf_iff {wait : Nat} {readings : List Timeval}
    (h : ∀ now ∈ readings, now.Normalised) :
    List.Forall₂ (DeadlineOf wait) readings (readings.map (timerInterrupt wait)) ↔
      ∀ now ∈ readings, now.NoCarry wait := by
  rw [List.forall₂_map_right_iff, List.forall₂_same]
  exact forall₂_congr fun now hnow => deadlineOf_timerInterrupt_iff (h now hnow)

/-- Every wait of the two loops gets a valid deadline, the right time after the
reading it was computed from, exactly when none of these readings needs a carry. -/
theorem deadlines_valid_iff {first : Timeval} {readings monitorReadings : List Timeval}
    (hfirst : first.Normalised) (hreadings : ∀ now ∈ readings, now.Normalised)
    (hmonitor : ∀ now ∈ monitorReadings, now.Normalised) :
    (List.Forall₂ (DeadlineOf rtLoopWaitTime) (deadlineReadings first readings)
        (abstimes (realTimeLoop first readings)) ↔
      ∀ now ∈ deadlineReadings first readings, now.NoCarry rtLoopWaitTime) ∧
    (List.Forall₂ (DeadlineOf monitorLoopWaitTime) monitorReadings
        (abstimes (monitorChangesLoop monitorReadings)) ↔
      ∀ now ∈ monitorReadings, now.NoCarry monitorLoopWaitTime) := by
  rw [abstimes_realTimeLoop, abstimes_monitorChangesLoop]
  refine ⟨forall₂_deadlineOf_iff ?_, forall₂_deadlineOf_iff hmonitor⟩
  intro now hnow
  rcases mem_of_mem_deadlineReadings hnow with rfl | hmem
  · exact hfirst
  · exact hreadings now hmem

/-- Readings without a carry, one turn each: the deadlines are valid. -/
theorem deadlines_valid :
    List.Forall₂ (DeadlineOf rtLoopWaitTime) (deadlineReadings ⟨7, 999099⟩ [⟨7, 999099⟩])
        (abstimes (realTimeLoop ⟨7, 999099⟩ [⟨7, 999099⟩])) ∧
      List.Forall₂ (DeadlineOf monitorLoopWaitTime) [⟨7, 499999⟩]
        (abstimes (monitorChangesLoop [⟨7, 499999⟩])) :=
  have h := @deadlines_valid_iff ⟨7, 999099⟩ [⟨7, 999099⟩] [⟨7, 499999⟩] (by decide) (by decide)
    (by decide)
  ⟨h.1.mpr (by decide), h.2.mpr (by decide)⟩

/-- A microsecond later the monitor's deadline has `tv_nsec` at `10^9`, and so has
the deadline of the real-time loop. -/
theorem deadlines_not_valid :
    (⟨7, 500000⟩ : Timeval).Normalised ∧ (⟨7, 999100⟩ : Timeval).Normalised ∧
      abstimes (monitorChangesLoop [⟨7, 500000⟩]) = [⟨7, 1000000000⟩] ∧
      abstimes (realTimeLoop ⟨7, 999100⟩ [⟨7, 999100⟩]) = [⟨7, 1000000000⟩] ∧
      ¬ (⟨7, 1000000000⟩ : Timespec).Normalised ∧
      ¬ List.Forall₂ (DeadlineOf monitorLoopWaitTime) [⟨7, 500000⟩]
        (abstimes (monitorChangesLoop [⟨7, 500000⟩])) := by
  refine ⟨by decide, by decide, by decide, by decide, by decide, ?_⟩
  intro h
  rcases h with _ | ⟨⟨hnormalised, -⟩, -⟩
  exact absurd hnormalised (by decide)

/-! ## The real-time loop on a clock -/

/-- `gettimeofday`, `clock` microseconds after the epoch. -/
def gettimeofday (clock : Int) : Timeval where
  tvSec := clock / 1000000
  tvUsec := clock % 1000000

/-- When `pthread_cond_timedwait` returns, if it is called at `clock` and nothing
wakes it: at once with an invalid deadline (`EINVAL`) or one that has passed,
else when the clock has reached the deadline. -/
def timedwait (abstime : Timespec) (clock : Int) : Int :=
  if abstime.Normalised then max clock ((abstime.nsec + 999) / 1000) else clock

/-- A turn of `realTimeLoop` on record: when it read the clock and when it called
`kul::update`, and the deadline it waited for in between. -/
structure RealTimeTurn extends Turn where
  abstime : Timespec
  deriving DecidableEq, Repr

/-- `realTimeLoopFrom`, with the clock at `clock`. -/
def realTimeTurns (timer : Timespec) (clock : Int) : List Delays → List RealTimeTurn
  | [] => []
  | d :: rest =>
    let reading := clock + d.toReading
    let now := gettimeofday reading
    let start := timedwait timer (reading + d.toWait) + d.toStart
    ⟨⟨reading, start⟩, timer⟩ ::
      realTimeTurns (timerInterrupt rtLoopWaitTime now) (start + d.job) rest

/-- A run of `realTimeLoop` whose prelude reads the clock at `first`. -/
def realTimeRun (first : Int) (delays : List Delays) : List RealTimeTurn :=
  realTimeTurns (timerInterrupt rtLoopWaitTime (gettimeofday first)) first delays

/-- The readings of the turns. -/
def readingsOf (run : List RealTimeTurn) : List Timeval :=
  run.map fun t => gettimeofday t.reading

/-- When the run calls `kul::update`. -/
def updateStarts (run : List RealTimeTurn) : List Int := run.map fun t => t.start

theorem normalised_gettimeofday (clock : Int) : (gettimeofday clock).Normalised := by
  show 0 ≤ clock % 1000000 ∧ clock % 1000000 < 1000000
  omega

theorem usec_gettimeofday (clock : Int) : (gettimeofday clock).usec = clock := by
  show clock / 1000000 * 1000000 + clock % 1000000 = clock
  omega

/-- The timed run makes the calls of the loop, for the readings it takes. -/
theorem abstimes_realTimeRun (first : Int) (delays : List Delays) :
    abstimes (realTimeLoop (gettimeofday first) (readingsOf (realTimeRun first delays)))
      = (realTimeRun first delays).map RealTimeTurn.abstime := by
  have hfrom : ∀ (delays : List Delays) (timer : Timespec) (clock : Int),
      abstimes (realTimeLoopFrom timer (readingsOf (realTimeTurns timer clock delays)))
        = (realTimeTurns timer clock delays).map RealTimeTurn.abstime := by
    intro delays
    induction delays with
    | nil =>
      intro _ _
      rfl
    | cons d rest ih =>
      intro timer clock
      exact congrArg (timer :: ·) (ih _ _)
  exact hfrom delays _ first

/-- A wait for the deadline of a reading that needs no carry. -/
theorem timedwait_timerInterrupt {wait : Nat} {reading : Int}
    (h : (gettimeofday reading).NoCarry wait) (clock : Int) :
    timedwait (timerInterrupt wait (gettimeofday reading)) clock = max clock (reading + wait) := by
  have hvalid := (normalised_timerInterrupt_iff (normalised_gettimeofday reading)).mpr h
  rw [timedwait, if_pos hvalid, nsec_timerInterrupt, usec_gettimeofday]
  omega

/-- As long as no reading needs a carry, the loop is that of `PeriodicWait`. -/
theorem realTimeTurns_eq_turns :
    ∀ {delays : List Delays} {previous clock : Int},
      (gettimeofday previous).NoCarry rtLoopWaitTime →
      (∀ now ∈ readingsOf (realTimeTurns
          (timerInterrupt rtLoopWaitTime (gettimeofday previous)) clock delays),
        now.NoCarry rtLoopWaitTime) →
      (realTimeTurns (timerInterrupt rtLoopWaitTime (gettimeofday previous)) clock delays).map
          RealTimeTurn.toTurn
        = turns rtLoopWaitTime previous clock delays
  | [], _, _ => by
    intro _ _
    rfl
  | d :: rest, previous, clock => by
    intro hprevious hreadings
    have hreading : (gettimeofday (clock + d.toReading)).NoCarry rtLoopWaitTime :=
      hreadings _ (List.mem_cons_self ..)
    have ih := realTimeTurns_eq_turns hreading fun now hnow =>
      hreadings now (List.mem_cons_of_mem _ hnow)
    have hwait := timedwait_timerInterrupt hprevious (clock + d.toReading + d.toWait)
    rw [turns, ← hwait, ← ih]
    rfl

/-- As long as no reading needs a carry, consecutive updates start at least
`RT_LOOP_WAIT_TIME` apart exactly when the delays keep the pace. Where only the
updates and the way to the next reading take time, this means that one of any two
successive gaps, from an update's start to the next reading, is that long. -/
theorem updates_spaced_iff {first : Int} {delays : List Delays}
    (h : ∀ now ∈ gettimeofday first :: readingsOf (realTimeRun first delays),
      now.NoCarry rtLoopWaitTime) :
    (Spaced rtLoopWaitTime (updateStarts (realTimeRun first delays)) ↔
      OnPace rtLoopWaitTime delays) ∧
    ((∀ d ∈ delays, d.toWait = 0 ∧ d.toStart = 0) →
      (Spaced rtLoopWaitTime (updateStarts (realTimeRun first delays)) ↔
        OneOfTwo rtLoopWaitTime (gaps 0 delays))) := by
  obtain ⟨hfirst, hreadings⟩ := List.forall_mem_cons.mp h
  have hstarts : updateStarts (realTimeRun first delays)
      = (turns rtLoopWaitTime first first delays).map Turn.start := by
    rw [← realTimeTurns_eq_turns hfirst hreadings, List.map_map]
    rfl
  rw [hstarts, spaced_turns_iff]
  exact ⟨Iff.rfl, onPace_iff_gaps⟩

/-- Updates of 900 µs keep the pace of themselves. -/
theorem updates_spaced :
    Spaced rtLoopWaitTime
      (updateStarts (realTimeRun 0 [⟨0, 0, 0, 900⟩, ⟨0, 0, 0, 900⟩, ⟨0, 0, 0, 900⟩])) :=
  ((updates_spaced_iff (by decide)).2 (by decide)).mpr (by decide)

/-- With updates of 100 µs every other wait is no wait at all: the second update
starts when the first one is over. -/
theorem updates_not_spaced :
    (∀ now ∈ gettimeofday 0 ::
        readingsOf (realTimeRun 0 [⟨0, 0, 0, 100⟩, ⟨0, 0, 0, 100⟩, ⟨0, 0, 0, 100⟩]),
      now.NoCarry rtLoopWaitTime) ∧
    updateStarts (realTimeRun 0 [⟨0, 0, 0, 100⟩, ⟨0, 0, 0, 100⟩, ⟨0, 0, 0, 100⟩])
      = [900, 1000, 1900] ∧
    ¬ Spaced rtLoopWaitTime
      (updateStarts (realTimeRun 0 [⟨0, 0, 0, 100⟩, ⟨0, 0, 0, 100⟩, ⟨0, 0, 0, 100⟩])) := by
  decide

end Pr2Ethercat
