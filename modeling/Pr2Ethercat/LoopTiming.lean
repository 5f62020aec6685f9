import Mathlib.Algebra.GroupWithZero.Nat
import Pr2Ethercat.ThreadLoops

/-!
# How fast the two loops run

`ThreadLoops` says when two consecutive updates are a period apart. This file
says what holds of every run of the two loops, whatever the delays are and
whether or not a deadline needs a carry.

A turn of the real-time loop waits for a deadline that was computed a turn ago,
so an update is held back from the one before the last: the loop may run at twice
its rate, but no faster as long as its deadlines are valid, and it is never held
up for more than a period a turn (`updates_rate`).

The monitor's deadline is half a second after its reading, so it needs a carry
whenever the reading is in the second half of a second. A turn that waits ends in
that half, or later; the ones after it do not wait until the next second has
begun. So the loop waits once a second at most, and the rest of its turns follow
one another at once (`monitor_waits_once_a_second`).
-/

namespace Pr2Ethercat

open PeriodicWait

/-! ## The real-time loop -/

/-- One turn after another. -/
structure TurnFollows (t t' : RealTimeTurn) : Prop where
  later : t.start ≤ t'.reading
  starts : t'.reading ≤ t'.start
  held : (gettimeofday t.reading).NoCarry rtLoopWaitTime → t.reading + rtLoopWaitTime ≤ t'.start

theorem le_timedwait (abstime : Timespec) (clock : Int) : clock ≤ timedwait abstime clock := by
  unfold timedwait
  split
  · exact Int.le_max_left ..
  · exact Int.le_refl clock

/-- `EINVAL`: a deadline that needs a carry holds nobody up. -/
theorem timedwait_of_carry {wait : Nat} {reading : Int}
    (h : ¬ (gettimeofday reading).NoCarry wait) (clock : Int) :
    timedwait (timerInterrupt wait (gettimeofday reading)) clock = clock :=
  if_neg fun hvalid =>
    h ((normalised_timerInterrupt_iff (normalised_gettimeofday reading)).mp hvalid)

/-- Nobody waits for longer than the deadline says. -/
theorem timedwait_le (wait : Nat) (reading clock : Int) :
    timedwait (timerInterrupt wait (gettimeofday reading)) clock ≤ max clock (reading + wait) := by
  by_cases h : (gettimeofday reading).NoCarry wait
  · exact Int.le_of_eq (timedwait_timerInterrupt h clock)
  · rw [timedwait_of_carry h]
    exact Int.le_max_left ..

theorem isChain_realTimeTurns :
    ∀ (delays : List Delays) (t : RealTimeTurn) (clock : Int), t.start ≤ clock →
      (t :: realTimeTurns (timerInterrupt rtLoopWaitTime (gettimeofday t.reading)) clock
        delays).IsChain TurnFollows
  | [], t, _, _ => List.isChain_singleton t
  | d :: rest, t, clock, hclock => by
    have hwait := le_timedwait (timerInterrupt rtLoopWaitTime (gettimeofday t.reading))
      (clock + d.toReading + d.toWait)
    refine List.isChain_cons_cons.mpr ⟨⟨?_, ?_, ?_⟩, isChain_realTimeTurns rest _ _ ?_⟩
    · show t.start ≤ clock + d.toReading
      omega
    · show clock + d.toReading ≤ timedwait _ (clock + d.toReading + d.toWait) + d.toStart
      omega
    · intro hvalid
      show t.reading + rtLoopWaitTime ≤ timedwait _ (clock + d.toReading + d.toWait) + d.toStart
      rw [timedwait_timerInterrupt hvalid]
      omega
    · show timedwait _ (clock + d.toReading + d.toWait) + d.toStart ≤ _
      omega

theorem isChain_realTimeRun (first : Int) (delays : List Delays) :
    (realTimeRun first delays).IsChain TurnFollows := by
  -- the reading before the loop counts as a turn that took no time
  have h := isChain_realTimeTurns delays ⟨⟨first, first⟩, ⟨0, 0⟩⟩ first (Int.le_refl first)
  cases hrun : realTimeRun first delays with
  | nil => exact List.IsChain.nil
  | cons t rest =>
    unfold realTimeRun at hrun
    rw [hrun] at h
    exact (List.isChain_cons_cons.mp h).2

/-- The deadline that a turn leaves behind is valid. -/
def RealTimeTurn.holds (t : RealTimeTurn) : Bool :=
  decide ((gettimeofday t.reading).NoCarry rtLoopWaitTime)

theorem TurnFollows.start_le {t t' : RealTimeTurn} (h : TurnFollows t t') : t.start ≤ t'.start :=
  Int.le_trans h.later h.starts

/-- Three turns: the deadline left by the one in the middle holds the last one
back from the first. -/
theorem TurnFollows.held_back {t v v' : RealTimeTurn} (h : TurnFollows t v)
    (h' : TurnFollows v v') :
    t.start + rtLoopWaitTime * ([v].countP RealTimeTurn.holds : Int) ≤ v'.start := by
  have hlater := h.later
  rw [List.countP_singleton]
  by_cases hv : v.holds = true
  · have hheld := h'.held (of_decide_eq_true hv)
    rw [if_pos hv]
    omega
  · have hle := h'.start_le
    have hle' := h.starts
    rw [if_neg hv]
    omega

/-- What the deadlines of `v` and of the turns behind it hold the last turn back. -/
theorem held_back_of_isChain (u : RealTimeTurn) :
    ∀ (inner : List RealTimeTurn) (t v : RealTimeTurn),
      (t :: v :: (inner ++ [u])).IsChain TurnFollows →
        rtLoopWaitTime * ((v :: inner).countP RealTimeTurn.holds : Int)
          ≤ 2 * u.start - v.start - t.start
  | [], t, v, h => by
    obtain ⟨htv, h⟩ := List.isChain_cons_cons.mp h
    obtain ⟨hvu, _⟩ := List.isChain_cons_cons.mp h
    have hheld := htv.held_back hvu
    have hle := hvu.start_le
    omega
  | v' :: inner, t, v, h => by
    obtain ⟨htv, h⟩ := List.isChain_cons_cons.mp h
    obtain ⟨hvv', _⟩ := List.isChain_cons_cons.mp h
    have ih := held_back_of_isChain u inner v v' h
    have hheld := htv.held_back hvv'
    rw [show v :: v' :: inner = [v] ++ (v' :: inner) from rfl, List.countP_append,
      Int.natCast_add, Int.mul_add]
    omega

/-- All the time a turn takes besides waiting. -/
def total (d : Delays) : Nat := d.toReading + d.toWait + d.toStart + d.job

/-- No wait is longer than a period, so the turns are no later than that and the
delays. -/
theorem start_le_of_mem_realTimeTurns :
    ∀ (delays : List Delays) (previous clock : Int), previous ≤ clock →
      ∀ t ∈ realTimeTurns (timerInterrupt rtLoopWaitTime (gettimeofday previous)) clock delays,
        t.start ≤ clock + rtLoopWaitTime * (delays.length : Int) + ((delays.map total).sum : Nat)
  | [], _, _, _ => fun t ht => absurd ht List.not_mem_nil
  | d :: rest, previous, clock, hle => by
    intro t ht
    have hwait := timedwait_le rtLoopWaitTime previous (clock + d.toReading + d.toWait)
    have hwait' := le_timedwait (timerInterrupt rtLoopWaitTime (gettimeofday previous))
      (clock + d.toReading + d.toWait)
    have htotal : total d = d.toReading + d.toWait + d.toStart + d.job := rfl
    have hrest : 0 ≤ (rtLoopWaitTime : Int) * (rest.length : Int) :=
      Int.mul_nonneg (Int.natCast_nonneg _) (Int.natCast_nonneg _)
    rw [List.length_cons, List.map_cons, List.sum_cons, Int.natCast_add, Int.mul_add,
      Int.natCast_add]
    rcases List.mem_cons.mp ht with rfl | ht
    · show timedwait _ (clock + d.toReading + d.toWait) + d.toStart ≤ _
      omega
    · have ih := start_le_of_mem_realTimeTurns rest _ _ (by omega) t ht
      omega

/-- **The rate of the updates.** In any run of the real-time loop, with any
delays, there is at least half a period between the first update and the last for
every turn in between whose reading needs no carry, and the last one starts no
later than a period a turn and all the delays after the loop was entered. -/
theorem updates_rate (first : Int) (delays : List Delays) (t u : RealTimeTurn)
    (inner : List RealTimeTurn) (hrun : realTimeRun first delays = t :: (inner ++ [u])) :
    rtLoopWaitTime * (inner.countP RealTimeTurn.holds : Int) ≤ 2 * (u.start - t.start) ∧
      u.start ≤ first + rtLoopWaitTime * (delays.length : Int)
        + ((delays.map total).sum : Nat) := by
  constructor
  · have hchain : (t :: (inner ++ [u])).IsChain TurnFollows := by
      rw [← hrun]
      exact isChain_realTimeRun first delays
    cases inner with
    | nil =>
      obtain ⟨htu, _⟩ := List.isChain_cons_cons.mp hchain
      have hle := htu.start_le
      rw [List.countP_nil]
      omega
    | cons v inner =>
      obtain ⟨htv, _⟩ := List.isChain_cons_cons.mp hchain
      have hheld := held_back_of_isChain u inner t v hchain
      have hle := htv.start_le
      omega
  · refine start_le_of_mem_realTimeTurns delays first first (Int.le_refl first) u ?_
    show u ∈ realTimeRun first delays
    rw [hrun]
    exact List.mem_cons_of_mem _ (List.mem_append_right _ (List.mem_singleton.mpr rfl))

/-- The three updates of `updates_not_spaced`, with one turn in between. -/
theorem short_updates_rate :
    realTimeRun 0 [⟨0, 0, 0, 100⟩, ⟨0, 0, 0, 100⟩, ⟨0, 0, 0, 100⟩]
        = [⟨⟨0, 900⟩, ⟨0, 900000⟩⟩, ⟨⟨1000, 1000⟩, ⟨0, 900000⟩⟩, ⟨⟨1100, 1900⟩, ⟨0, 1900000⟩⟩] ∧
      (900 : Int) ≤ 2 * (1900 - 900) ∧ (1900 : Int) ≤ 0 + 900 * 3 + 300 := by
  have hrun : realTimeRun 0 [⟨0, 0, 0, 100⟩, ⟨0, 0, 0, 100⟩, ⟨0, 0, 0, 100⟩]
      = [⟨⟨0, 900⟩, ⟨0, 900000⟩⟩, ⟨⟨1000, 1000⟩, ⟨0, 900000⟩⟩, ⟨⟨1100, 1900⟩, ⟨0, 1900000⟩⟩] := by
    decide
  have hrate := updates_rate _ _ _ _ [⟨⟨1000, 1000⟩, ⟨0, 900000⟩⟩] hrun
  exact ⟨hrun, hrate.1, hrate.2⟩

/-! ## The monitor's loop -/

/-- The thread `monitorChanges`, with the clock at `clock`. -/
def monitorTurns (clock : Int) : List Delays → List Turn
  | [] => []
  | d :: rest =>
    let reading := clock + d.toReading
    let timer := timerInterrupt monitorLoopWaitTime (gettimeofday reading)
    let start := timedwait timer (reading + d.toWait) + d.toStart
    ⟨reading, start⟩ :: monitorTurns (start + d.job) rest

/-- The turn has a valid deadline. -/
def monitorWaits (t : Turn) : Bool :=
  decide ((gettimeofday t.reading).NoCarry monitorLoopWaitTime)

/-- What a turn of the loop does, waiting or not. -/
def MonitorTurn (d : Delays) (t : Turn) : Prop :=
  t.start = (if monitorWaits t = true then
      max (t.reading + d.toWait) (t.reading + monitorLoopWaitTime)
    else t.reading + d.toWait) + d.toStart

/-- The second of the clock in which the turn has its reading. -/
def secondOf (t : Turn) : Int := (gettimeofday t.reading).tvSec

theorem monitorTurn_wait (reading : Int) (d : Delays) :
    MonitorTurn d ⟨reading, timedwait (timerInterrupt monitorLoopWaitTime (gettimeofday reading))
      (reading + d.toWait) + d.toStart⟩ := by
  unfold MonitorTurn
  refine congrArg (· + (d.toStart : Int)) ?_
  by_cases h : (gettimeofday reading).NoCarry monitorLoopWaitTime
  · exact (timedwait_timerInterrupt h _).trans (if_pos (decide_eq_true h)).symm
  · exact (timedwait_of_carry h _).trans (if_neg fun hw => h (of_decide_eq_true hw)).symm

theorem forall₂_monitorTurn :
    ∀ (delays : List Delays) (clock : Int),
      List.Forall₂ MonitorTurn delays (monitorTurns clock delays)
  | [], _ => List.Forall₂.nil
  | d :: rest, _ => List.Forall₂.cons (monitorTurn_wait _ d) (forall₂_monitorTurn rest _)

/-- Time goes on. -/
theorem le_of_mem_monitorTurns :
    ∀ (delays : List Delays) (clock : Int), ∀ t ∈ monitorTurns clock delays, clock ≤ t.reading
  | [], _ => fun t ht => absurd ht List.not_mem_nil
  | d :: rest, clock => by
    intro t ht
    rcases List.mem_cons.mp ht with rfl | ht
    · show clock ≤ clock + d.toReading
      omega
    · have hrest := le_of_mem_monitorTurns rest _ t ht
      have hwait := le_timedwait
        (timerInterrupt monitorLoopWaitTime (gettimeofday (clock + d.toReading)))
        (clock + d.toReading + d.toWait)
      omega

/-- Half a second after a reading that needs no carry, the next such reading is in
another second. -/
theorem secondOf_lt {t t' : Turn} (ht : monitorWaits t = true) (ht' : monitorWaits t' = true)
    (hlater : t.reading + monitorLoopWaitTime ≤ t'.reading) : secondOf t < secondOf t' := by
  have hfirst : t.reading % 1000000 + 500000 < 1000000 := of_decide_eq_true ht
  have hsecond : t'.reading % 1000000 + 500000 < 1000000 := of_decide_eq_true ht'
  have hlater' : t.reading + 500000 ≤ t'.reading := hlater
  show t.reading / 1000000 < t'.reading / 1000000
  omega

/-- **One wait a second.** In any run of the monitor's loop, with any delays, a
turn whose reading needs no carry waits until half a second after it, every other
turn does not wait at all; and the seconds in which turns wait are one after
another, so there is no more than one such turn in any second. -/
theorem monitor_waits_once_a_second (clock : Int) (delays : List Delays) :
    List.Forall₂ MonitorTurn delays (monitorTurns clock delays) ∧
      (((monitorTurns clock delays).filter monitorWaits).map secondOf).Pairwise (· < ·) := by
  refine ⟨forall₂_monitorTurn delays clock, ?_⟩
  rw [List.pairwise_map]
  induction delays generalizing clock with
  | nil => exact List.Pairwise.nil
  | cons d rest ih =>
    unfold monitorTurns
    rw [List.filter_cons]
    split
    next hwaits =>
      refine List.pairwise_cons.mpr ⟨fun t' ht' => ?_, ih _⟩
      obtain ⟨hmem, hwaits'⟩ := List.mem_filter.mp ht'
      refine secondOf_lt hwaits hwaits' ?_
      have hlater := le_of_mem_monitorTurns rest _ t' hmem
      have hstart := timedwait_timerInterrupt (of_decide_eq_true hwaits)
        (clock + d.toReading + d.toWait)
      show clock + d.toReading + monitorLoopWaitTime ≤ t'.reading
      simp only [hstart] at hlater
      omega
    next => exact ih _

end Pr2Ethercat
