import Pr2Ethercat.Lib.Runs
import Pr2Ethercat.Startup
import Pr2Ethercat.Threads

/-!
# `update` and `monitorChanges`, seen from outside the lock

`PointerSystem` has `update` as one step and a call of `monitorChanges` as three.
The program takes dozens of steps for either, with those of the other threads in
between. This file is the connection: every run of the threads is matched by a
run of `PointerSystem` (`threads_refine`).

The cycle takes effect at the assignment `prev_buffer_ = tmp`, the comparison at
its last turn and the copy at the `memcpy`; the pointer is fetched where it is
assigned to the local, or already at the test in front of it if that fails.
`RealTimePc.View` says what has become of the driver when the real-time thread is
somewhere in `update`, and `MonitorPc.View` what the monitor has done since its
last step that counts. Neither looks at the other thread, so a step of one leaves
the view of the other alone, except for the swap.
-/

namespace Pr2Ethercat

open ByteArea Mesa

/-! ## `packCommand`, turn by turn -/

/-- The driver after the first `i` turns of `packCommand`. -/
def packedTo (env : PackEnv) (i : Nat) (d : Driver) : Driver :=
  { d with mem := (Layout.walk slotSize i 0 d.thisBuffer).foldl (packStep env) d.mem }

section Packing

variable (env : PackEnv) (d : Driver)

theorem packedTo_zero : packedTo env 0 d = d := rfl

theorem packedTo_numHandles : packedTo env d.numHandles d = packCommand env d := rfl

theorem packedTo_succ (i : Nat) :
    packedTo env (i + 1) d =
      { packedTo env i d with
        mem := packStep env (packedTo env i d).mem (i, d.thisBuffer + slotSize * i) } := by
  unfold packedTo
  rw [Layout.walk_eq_map, Layout.walk_eq_map, List.range_succ, List.map_append, List.foldl_append]
  simp only [List.map_cons, List.map_nil, List.foldl_cons, List.foldl_nil, Nat.zero_add]

/-- What later turns find in the shared globals does not matter. -/
theorem packedTo_update (i : Nat) (v : Shared) :
    ∀ k ≤ i, packedTo { env with shared := Function.update env.shared i v } k d = packedTo env k d
  | 0, _ => (packedTo_zero _ d).trans (packedTo_zero env d).symm
  | k + 1, hk => by
    have hother : Function.update env.shared i v k = env.shared k :=
      Function.update_of_ne (by omega) ..
    rw [packedTo_succ, packedTo_succ, packedTo_update i v k (by omega)]
    unfold packStep
    simp only [hother]

end Packing

/-- A turn that finds `v` in the shared globals. -/
theorem packedTo_turn {sin : Rat → Rat} {shared : Nat → Shared} (i : Nat) (v : Shared)
    (d : Driver) :
    packedTo ⟨sin, Function.update shared i v⟩ (i + 1) d =
      { packedTo ⟨sin, shared⟩ i d with
        mem := packStep ⟨sin, fun _ => v⟩ (packedTo ⟨sin, shared⟩ i d).mem
          (i, d.thisBuffer + slotSize * i) } := by
  have hbefore : packedTo ⟨sin, Function.update shared i v⟩ i d = packedTo ⟨sin, shared⟩ i d :=
    packedTo_update ⟨sin, shared⟩ d i v i (Nat.le_refl i)
  rw [packedTo_succ, hbefore]
  unfold packStep
  simp only [Function.update_self]

/-! ## The real-time thread -/

/-- The driver after the exchange of cycle `c`, before the pointers are swapped. -/
def exchanged (c : Cycle) (d : Driver) : Driver := { d with mem := (update c d).driver.mem }

/-- A cycle whose attempts all end with `reply`. -/
def cycleOf (env : PackEnv) (reply : Option Area) : Cycle where
  env := env
  net :=
    { replies := fun _ => reply
      oob := EthercatOobCom.new
      oobMutexFree := true
      handle := -1 }

theorem exchanged_some (env : PackEnv) (r : Area) (d : Driver) :
    exchanged (cycleOf env (some r)) d =
      { packCommand env d with
        mem := blit (packCommand env d).mem d.masterBuffer r 0 d.masterBufferSize } := by
  unfold exchanged
  rw [update_mem, show (cycleOf env (some r)).reply = some r from rfl]
  rfl

theorem exchanged_none (env : PackEnv) (d : Driver) :
    exchanged (cycleOf env none) d = packCommand env d := by
  have hreply : (cycleOf env none).reply = none := Cycle.reply_eq_none_iff.mpr fun _ _ => rfl
  unfold exchanged
  rw [update_mem, hreply]
  rfl

/-- What the cycle under way has made of the driver `a` by now. -/
def RealTimePc.View (sin : Rat → Rat) (a d : Driver) : RealTimePc → Prop
  | .testing | .waiting | .locking | .unlocking | .finished => d = a
  | .packing i slot =>
    i ≤ a.numHandles ∧ slot = a.thisBuffer + slotSize * i ∧
      ∃ shared, d = packedTo ⟨sin, shared⟩ i a
  | .commanding i slot =>
    i < a.numHandles ∧ slot = a.thisBuffer + slotSize * i ∧
      ∃ shared, ∃ target : BitVec 32, i = target.toNat ∧
        d = { packedTo ⟨sin, shared⟩ i a with
              mem := put (packedTo ⟨sin, shared⟩ i a).mem slot (List.replicate commandSize 0) }
  | .exchanging _ => ∃ env, d = packCommand env a
  | .serving | .saving => ∃ c, d = exchanged c a
  | .swappingThis tmp => tmp = a.thisBuffer ∧ ∃ c, d = exchanged c a
  | .swappingPrev tmp =>
    tmp = a.thisBuffer ∧ ∃ c, d = { exchanged c a with thisBuffer := a.prevBuffer }

section View

variable {sin : Rat → Rat} {a d : Driver} {pc : RealTimePc}

/-- Outside the lock there is no cycle under way. -/
theorem RealTimePc.View.eq_of_outside (h : pc.View sin a d) (hout : ¬ pc.Inside) : d = a := by
  cases pc with
  | testing | waiting | locking | finished => exact h
  | packing | commanding | exchanging | serving | saving | swappingThis | swappingPrev
  | unlocking => exact absurd trivial hout

/-- A cycle changes memory, and `this_buffer_` before `prev_buffer_`. -/
theorem RealTimePc.View.same (h : pc.View sin a d) :
    ∃ mem thisBuffer, d = { a with mem := mem, thisBuffer := thisBuffer } := by
  cases pc with
  | testing | waiting | locking | unlocking | finished => exact ⟨a.mem, a.thisBuffer, h⟩
  | packing =>
    obtain ⟨_, _, _, hd⟩ := h
    exact ⟨_, a.thisBuffer, hd⟩
  | commanding =>
    obtain ⟨_, _, _, _, _, hd⟩ := h
    exact ⟨_, a.thisBuffer, hd⟩
  | exchanging | serving | saving =>
    obtain ⟨_, hd⟩ := h
    exact ⟨_, a.thisBuffer, hd⟩
  | swappingThis =>
    obtain ⟨_, _, hd⟩ := h
    exact ⟨_, a.thisBuffer, hd⟩
  | swappingPrev =>
    obtain ⟨_, _, hd⟩ := h
    exact ⟨_, _, hd⟩

/-- What `monitorChanges` reads outside the lock. -/
theorem RealTimePc.View.frame (h : pc.View sin a d) :
    d.prevBuffer = a.prevBuffer ∧ d.masterBufferSize = a.masterBufferSize := by
  obtain ⟨mem, thisBuffer, rfl⟩ := h.same
  exact ⟨rfl, rfl⟩

end View

section RealTime

variable {sin : Rat → Rat} {a : Driver} {s : Threads}

theorem view_lock (h : RealTimePc.View sin a s.driver .locking) :
    RealTimePc.View sin a s.driver (.packing 0 s.driver.thisBuffer) := by
  rw [show s.driver = a from h]
  refine ⟨Nat.zero_le _, by simp, fun _ => s.globals, ?_⟩
  exact (packedTo_zero _ a).symm

theorem view_packTurn {i slot : Nat} (h : RealTimePc.View sin a s.driver (.packing i slot))
    (hi : i < s.driver.numHandles) :
    (s.packTurn i slot).rt.View sin a (s.packTurn i slot).driver := by
  obtain ⟨_, hslot, shared, hd⟩ := h
  have hn : i < a.numHandles := by
    rw [hd] at hi
    exact hi
  unfold Threads.packTurn
  by_cases htarget : i = s.globals.targetSlave.toNat
  · rw [if_pos htarget, hd]
    exact ⟨hn, hslot, shared, s.globals.targetSlave, htarget, rfl⟩
  · rw [if_neg htarget, hd]
    refine ⟨hn, ?_, Function.update shared i s.globals, ?_⟩
    · rw [hslot, Nat.mul_succ, Nat.add_assoc]
    · rw [packedTo_turn, hslot]
      unfold packStep
      rw [if_neg htarget]

theorem view_command {i slot : Nat} (now : Timeval)
    (h : RealTimePc.View sin a s.driver (.commanding i slot)) :
    (s.command sin i slot now).rt.View sin a (s.command sin i slot now).driver := by
  obtain ⟨hn, hslot, shared, target, htarget, hd⟩ := h
  -- the turn saw this target, and now the amplitude and the time
  let v : Shared := { s.globals with targetSlave := target, now := now }
  unfold Threads.command
  rw [hd]
  refine ⟨hn, ?_, Function.update shared i v, ?_⟩
  · rw [hslot, Nat.mul_succ, Nat.add_assoc]
  · rw [packedTo_turn, ← hslot]
    unfold packStep
    rw [if_pos htarget]
    rfl

theorem view_packed {i slot : Nat} (h : RealTimePc.View sin a s.driver (.packing i slot))
    (hi : ¬ i < s.driver.numHandles) : RealTimePc.View sin a s.driver (.exchanging 0) := by
  obtain ⟨hle, _, shared, hd⟩ := h
  have hlast : i = a.numHandles := by
    rw [hd] at hi
    exact Nat.le_antisymm hle (Nat.le_of_not_lt hi)
  exact ⟨⟨sin, shared⟩, by rw [hd, hlast, packedTo_numHandles]⟩

theorem view_attempt {i : Nat} (reply : Option Area)
    (h : RealTimePc.View sin a s.driver (.exchanging i)) :
    (s.attempt i reply).rt.View sin a (s.attempt i reply).driver := by
  obtain ⟨env, hd⟩ := h
  unfold Threads.attempt
  cases reply with
  | some r =>
    refine ⟨cycleOf env (some r), ?_⟩
    rw [exchanged_some, hd]
    rfl
  | none =>
    -- a failed attempt leaves the memory alone
    by_cases hi : i + 1 < maxPdRetries
    · simp only [emlTxandrxPD, Bool.false_eq_true, if_false, if_pos hi]
      exact ⟨env, hd⟩
    · simp only [emlTxandrxPD, Bool.false_eq_true, if_false, if_neg hi]
      exact ⟨cycleOf env none, by rw [exchanged_none]; exact hd⟩

theorem view_save (h : RealTimePc.View sin a s.driver .saving) :
    RealTimePc.View sin a s.driver (.swappingThis s.driver.thisBuffer) := by
  obtain ⟨c, hd⟩ := h
  exact ⟨by rw [hd]; rfl, c, hd⟩

theorem view_swapThis {tmp : Nat} (h : RealTimePc.View sin a s.driver (.swappingThis tmp)) :
    RealTimePc.View sin a { s.driver with thisBuffer := s.driver.prevBuffer }
      (.swappingPrev tmp) := by
  obtain ⟨htmp, c, hd⟩ := h
  exact ⟨htmp, c, by rw [hd]; rfl⟩

/-- The last assignment completes the cycle. -/
theorem view_swapPrev {tmp : Nat} (h : RealTimePc.View sin a s.driver (.swappingPrev tmp)) :
    ∃ c, { s.driver with prevBuffer := tmp } = (update c a).driver := by
  obtain ⟨htmp, c, hd⟩ := h
  refine ⟨c, ?_⟩
  rw [update_driver, hd, htmp]
  rfl

end RealTime

/-! ## The monitor thread -/

/-- The lines that all comparisons together have printed. -/
def linesOf (logs : List ComparisonLog) : List (Nat × BitVec 32) := logs.flatMap (·.lines)

/-- The lines printed by the first `i` turns of the comparison of the half at `image`. -/
def linesTo (d : Driver) (m : Monitor) (threshold : Int) (image i : Nat) :
    List (Nat × BitVec 32) :=
  (((List.range i).map fun k =>
    ({ slave := k
       now := encoderCountAt d.mem (image + slotSize * k + commandSize)
       backup := encoderCountAt m.monitorBackup (slotSize * k + commandSize) } : Comparison)).filter
    (·.exceeds threshold)).map fun c => (c.slave, c.now)

section Lines

variable (d : Driver) (m : Monitor) (threshold : Int) (image : Nat)

theorem linesTo_zero : linesTo d m threshold image 0 = [] := rfl

theorem linesTo_numHandles :
    linesTo d m threshold image d.numHandles = compareSection d m threshold image := by
  unfold compareSection comparisons
  rw [compareSlots_eq_map]
  rfl

theorem linesOf_append (logs : List ComparisonLog) (log : ComparisonLog) :
    linesOf (logs ++ [log]) = linesOf logs ++ log.lines := by
  unfold linesOf
  rw [List.flatMap_append, List.flatMap_singleton]

end Lines

/-- A turn prints one line or none. -/
theorem linesTo_succ (s : Threads) (m : Monitor) (threshold : Int) (image i : Nat) :
    linesTo s.driver m threshold image (i + 1) =
      linesTo s.driver m threshold image i ++
        if (s.comparison m i (image + slotSize * i) (slotSize * i)).exceeds threshold = true then
          [(i, (s.comparison m i (image + slotSize * i) (slotSize * i)).now)]
        else [] := by
  unfold linesTo
  rw [List.range_succ, List.map_append, List.filter_append, List.map_append]
  congr 1
  show List.map _ (List.filter _ [s.comparison m i _ _]) = _
  rw [List.filter_singleton]
  cases (s.comparison m i (image + slotSize * i) (slotSize * i)).exceeds threshold with
  | true => rfl
  | false => rfl

/-- What the monitor thread has done since the last step of `t`. -/
def MonitorPc.View (fresh : Area) (threshold : Int) (statics : Option Monitor)
    (printed : List (Nat × BitVec 32)) (t : PointerSystem) : MonitorPc → Prop
  | .testing | .waiting | .entering | .finished =>
    t.pc = .outside ∧ statics = t.statics ∧ printed = linesOf t.logs
  | .deciding =>
    t.pc = .outside ∧ statics = some (Monitor.enter t.statics t.driver fresh) ∧
      printed = linesOf t.logs
  | .fetching =>
    t.pc = .outside ∧ statics = some (Monitor.enter t.statics t.driver fresh) ∧
      printed = linesOf t.logs ∧ (Monitor.enter t.statics t.driver fresh).Compares t.driver
  | .lockingCompare p =>
    t.pc = .fetched (some p) ∧ printed = linesOf t.logs ∧
      ∃ m, statics = some m ∧ t.statics = some m
  | .comparing i p b =>
    ∃ image m, t.pc = .fetched (some image) ∧ statics = some m ∧ t.statics = some m ∧
      i ≤ t.driver.numHandles ∧ p = image + slotSize * i ∧ b = slotSize * i ∧
      printed = linesOf t.logs ++ linesTo t.driver m threshold image i
  | .unlockingCompare | .rechecking =>
    t.pc = .compared ∧ printed = linesOf t.logs ∧ ∃ m, statics = some m ∧ t.statics = some m
  | .lockingCopy | .copying =>
    t.pc = .compared ∧ printed = linesOf t.logs ∧ t.driver.prevBuffer ≠ NULL ∧
      ∃ m, statics = some m ∧ t.statics = some m
  | .unlockingCopy | .marking =>
    t.pc = .outside ∧ printed = linesOf t.logs ∧
      ∃ m, statics = some m ∧ t.statics = some { m with monitorDeltaInit := true }

/-- Outside the lock, nothing has been printed that is not in the logs. -/
theorem MonitorPc.View.printed {fresh : Area} {threshold : Int} {statics : Option Monitor}
    {printed : List (Nat × BitVec 32)} {t : PointerSystem} {pc : MonitorPc}
    (h : pc.View fresh threshold statics printed t) (hout : ¬ pc.Inside) :
    printed = linesOf t.logs := by
  cases pc with
  | testing | waiting | entering | finished => exact h.2.2
  | deciding => exact h.2.2
  | fetching => exact h.2.2.1
  | lockingCompare | rechecking | lockingCopy | marking => exact h.2.1
  | comparing | unlockingCompare | copying | unlockingCopy => exact absurd trivial hout

/-- Either both buffer pointers are `NULL` or neither is. -/
def NullTogether (d : Driver) : Prop := d.thisBuffer = NULL ↔ d.prevBuffer = NULL

theorem NullTogether.cycle {d : Driver} (h : NullTogether d) (c : Cycle) :
    NullTogether (update c d).driver := h.symm

theorem NullTogether.prev_cycle {d : Driver} (h : NullTogether d) (hprev : d.prevBuffer ≠ NULL)
    (c : Cycle) : (update c d).driver.prevBuffer ≠ NULL := fun hthis => hprev (h.mp hthis)

/-- `new unsigned char[Master_Buffer_Size_]` is all that depends on the driver. -/
theorem enter_congr (statics : Option Monitor) {d d' : Driver} (fresh : Area)
    (hsize : d.masterBufferSize = d'.masterBufferSize) :
    Monitor.enter statics d fresh = Monitor.enter statics d' fresh := by
  cases statics with
  | some m => rfl
  | none =>
    unfold Monitor.enter
    rw [hsize]

/-- A cycle goes unnoticed by a monitor thread that is not behind the lock. -/
theorem MonitorPc.View.cycle {fresh : Area} {threshold : Int} {statics : Option Monitor}
    {printed : List (Nat × BitVec 32)} {t : PointerSystem} {pc : MonitorPc}
    (h : pc.View fresh threshold statics printed t) (hout : ¬ pc.Inside)
    (hnull : NullTogether t.driver) (c : Cycle) :
    pc.View fresh threshold statics printed { t with driver := (update c t.driver).driver } := by
  have henter : Monitor.enter t.statics (update c t.driver).driver fresh
      = Monitor.enter t.statics t.driver fresh := enter_congr t.statics fresh rfl
  cases pc with
  | testing | waiting | entering | finished => exact h
  | lockingCompare | rechecking | marking => exact h
  | deciding =>
    obtain ⟨hpc, hstatics, hprinted⟩ := h
    exact ⟨hpc, hstatics.trans (congrArg some henter.symm), hprinted⟩
  | fetching =>
    obtain ⟨hpc, hstatics, hprinted, hinit, hprev⟩ := h
    refine ⟨hpc, hstatics.trans (congrArg some henter.symm), hprinted, ?_,
      hnull.prev_cycle hprev c⟩
    show (Monitor.enter t.statics (update c t.driver).driver fresh).monitorDeltaInit = _
    rw [henter]
    exact hinit
  | lockingCopy =>
    obtain ⟨hpc, hprinted, hprev, hm⟩ := h
    exact ⟨hpc, hprinted, hnull.prev_cycle hprev c, hm⟩
  | comparing | unlockingCompare | copying | unlockingCopy => exact absurd trivial hout

/-! ## The matching -/

/-- What an observer of `PointerSystem` sees of a step. -/
inductive PointerKind where
  | cycle
  | fetch
  | compare
  | copy
  deriving DecidableEq, Repr

def PointerAction.kind : PointerAction → PointerKind
  | .cycle _ => .cycle
  | .fetch => .fetch
  | .compare => .compare
  | .copy => .copy

/-- And what it is shown of a step of a thread. -/
def ThreadAction.observed : ThreadAction → List PointerKind
  | .swapPrev => [.cycle]
  | .fetch => [.fetch]
  | .skipCompare => [.fetch, .compare]
  | .compared => [.compare]
  | .copy => [.copy]
  | .skipCopy => [.copy]
  | _ => []

/-- The program and the system that it is in the eyes of such an observer. -/
structure Shows (sin : Rat → Rat) (fresh : Area) (threshold : Int) (s : Threads)
    (t : PointerSystem) : Prop where
  realTime : s.main ≠ .finished → s.rt.View sin t.driver s.driver
  closed : s.main = .finished →
    ∃ reached, s.driver = (closeOperationalSlaves reached t.driver).driver
  monitor : s.monitor.View fresh threshold s.statics s.printed t
  locked : Locked s.rt s.monitor s.mutex
  joined : Joined s.main s.rt s.monitor
  null : NullTogether t.driver

theorem shows_start (sin : Rat → Rat) (fresh : Area) (threshold : Int) {d : Driver}
    (hnull : NullTogether d) :
    Shows sin fresh threshold (Threads.start d) (PointerSystem.start d) where
  realTime _ := rfl
  closed hmain := nomatch hmain
  monitor := ⟨rfl, rfl, rfl⟩
  locked := ⟨iff_of_false (fun h => h) (by simp [Threads.start]),
    iff_of_false (fun h => h) (by simp [Threads.start])⟩
  joined := ⟨fun h => h.elim, fun h => h.elim⟩
  null := hnull

/-- What a step of the real-time thread leaves alone. -/
structure SameMonitor (s s' : Threads) : Prop where
  monitor : s'.monitor = s.monitor
  statics : s'.statics = s.statics
  printed : s'.printed = s.printed
  main : s'.main = s.main

/-- What a step of the monitor thread leaves alone. -/
structure SameRealTime (s s' : Threads) : Prop where
  rt : s'.rt = s.rt
  driver : s'.driver = s.driver
  main : s'.main = s.main

section Matching

variable {sin : Rat → Rat} {fresh : Area} {threshold : Int} {s s' : Threads} {t t' : PointerSystem}

/-- What the place of a thread says. -/
theorem Shows.view_realTime (h : Shows sin fresh threshold s t) {pc : RealTimePc}
    (hpc : s.rt = pc) (hne : pc ≠ .finished) : pc.View sin t.driver s.driver := by
  subst hpc
  exact h.realTime (h.joined.main_of_realTime hne)

theorem Shows.view_monitor (h : Shows sin fresh threshold s t) {pc : MonitorPc}
    (hpc : s.monitor = pc) : pc.View fresh threshold s.statics s.printed t := by
  subst hpc
  exact h.monitor

/-- What the monitor thread reads outside the lock. -/
theorem Shows.frame (h : Shows sin fresh threshold s t) (hmonitor : s.monitor ≠ .finished) :
    s.driver.prevBuffer = t.driver.prevBuffer ∧
      s.driver.masterBufferSize = t.driver.masterBufferSize :=
  (h.realTime (h.joined.main_of_monitor hmonitor)).frame

/-- And behind it. -/
theorem Shows.driver_eq (h : Shows sin fresh threshold s t) (hin : s.monitor.Inside) :
    s.driver = t.driver := by
  have hmain := h.joined.main_of_monitor fun hdone => by rw [hdone] at hin; exact hin
  exact (h.realTime hmain).eq_of_outside fun hrt => h.locked.excludes hrt hin

/-- An inner step of the real-time thread. -/
theorem Shows.realTime_step (h : Shows sin fresh threshold s t) (hsame : SameMonitor s s')
    (hrt : s.rt ≠ .finished) (hview : s'.rt.View sin t.driver s'.driver)
    (hlocked : Locked s'.rt s.monitor s'.mutex) : Shows sin fresh threshold s' t := by
  obtain ⟨hmonitor, hstatics, hprinted, hmain⟩ := hsame
  constructor
  case realTime => exact fun _ => hview
  case closed =>
    rw [hmain]
    exact fun hdone => absurd hdone (h.joined.main_of_realTime hrt)
  case monitor =>
    rw [hmonitor, hstatics, hprinted]
    exact h.monitor
  case locked =>
    rw [hmonitor]
    exact hlocked
  case joined =>
    rw [hmonitor, hmain]
    exact h.joined.realTime_runs hrt s'.rt
  case null => exact h.null

/-- A step of the monitor thread, whether the observer sees it or not. -/
theorem Shows.monitor_step (h : Shows sin fresh threshold s t) (hsame : SameRealTime s s')
    (hmonitor : s.monitor ≠ .finished) (hdriver : t'.driver = t.driver)
    (hview : s'.monitor.View fresh threshold s'.statics s'.printed t')
    (hlocked : Locked s.rt s'.monitor s'.mutex) : Shows sin fresh threshold s' t' := by
  obtain ⟨hrt, hd, hmain⟩ := hsame
  constructor
  case realTime =>
    rw [hrt, hd, hmain, hdriver]
    exact h.realTime
  case closed =>
    rw [hd, hmain, hdriver]
    exact h.closed
  case monitor => exact hview
  case locked =>
    rw [hrt]
    exact hlocked
  case joined =>
    rw [hrt, hmain]
    exact h.joined.monitor_runs hmonitor s'.monitor
  case null =>
    rw [hdriver]
    exact h.null

/-- The same, for a thread that stays on its side of the lock. -/
theorem Shows.realTime_inner (h : Shows sin fresh threshold s t) {pc : RealTimePc}
    (hpc : s.rt = pc) (hne : pc ≠ .finished) (hsame : SameMonitor s s')
    (hmutex : s'.mutex = s.mutex) (hin : s'.rt.Inside ↔ pc.Inside)
    (hview : pc.View sin t.driver s.driver → s'.rt.View sin t.driver s'.driver) :
    Shows sin fresh threshold s' t := by
  subst hpc
  refine h.realTime_step hsame hne (hview (h.view_realTime rfl hne)) ?_
  rw [hmutex]
  exact h.locked.realTime_keeps hin

theorem Shows.monitor_inner (h : Shows sin fresh threshold s t) {pc : MonitorPc}
    (hpc : s.monitor = pc) (hne : pc ≠ .finished) (hsame : SameRealTime s s')
    (hmutex : s'.mutex = s.mutex) (hin : s'.monitor.Inside ↔ pc.Inside)
    (hdriver : t'.driver = t.driver)
    (hview : pc.View fresh threshold s.statics s.printed t →
      s'.monitor.View fresh threshold s'.statics s'.printed t') :
    Shows sin fresh threshold s' t' := by
  subst hpc
  refine h.monitor_step hsame hne hdriver (hview h.monitor) ?_
  rw [hmutex]
  exact h.locked.monitor_keeps hin

section Steps

variable {sin : Rat → Rat} {fresh : Area} {threshold : Int} {s : Threads} {t : PointerSystem}

/-- The matching of one step. -/
abbrev Matched (sin : Rat → Rat) (fresh : Area) (threshold : Int) (a : ThreadAction)
    (s' : Threads) (t : PointerSystem) : Prop :=
  ∃ bs t', Run (PointerStep fresh threshold) t bs t' ∧ Shows sin fresh threshold s' t' ∧
    bs.map PointerAction.kind = a.observed

theorem Shows.swapPrev (h : Shows sin fresh threshold s t) {tmp : Nat}
    (hpc : s.rt = .swappingPrev tmp) :
    Matched sin fresh threshold .swapPrev
      { s with
        driver := { s.driver with prevBuffer := tmp }
        rt := .unlocking } t := by
  have hin : s.rt.Inside := by rw [hpc]; trivial
  obtain ⟨c, hd⟩ := view_swapPrev (h.view_realTime hpc (by simp))
  refine matched_single (PointerStep.cycle c) ?_ rfl
  have hmain := h.joined.main_of_realTime (by rw [hpc]; simp)
  refine ⟨fun _ => hd, fun hdone => absurd hdone hmain,
    h.monitor.cycle (h.locked.excludes hin) h.null c, ?_, ?_, h.null.cycle c⟩
  · exact h.locked.realTime_keeps (by rw [hpc]; exact Iff.rfl)
  · exact h.joined.realTime_runs (by rw [hpc]; simp) _

theorem Shows.enter (h : Shows sin fresh threshold s t) (hpc : s.monitor = .entering) :
    Shows sin fresh threshold
      { s with
        statics := some (Monitor.enter s.statics s.driver fresh)
        monitor := .deciding } t := by
  have hne : s.monitor ≠ .finished := by rw [hpc]; simp
  obtain ⟨ht, hstatics, hprinted⟩ := h.view_monitor hpc
  refine h.monitor_step ⟨rfl, rfl, rfl⟩ hne rfl ⟨ht, ?_, hprinted⟩ ?_
  · show some (Monitor.enter s.statics s.driver fresh) = _
    rw [hstatics, enter_congr t.statics fresh (h.frame hne).2]
  · exact h.locked.monitor_keeps (by rw [hpc]; exact Iff.rfl)

/-- The test in front of the comparison comes out as it would at the last step seen. -/
theorem Shows.compares_iff (h : Shows sin fresh threshold s t) (hne : s.monitor ≠ .finished)
    (m : Monitor) : m.Compares s.driver ↔ m.Compares t.driver := by
  unfold Monitor.Compares
  rw [(h.frame hne).1]

theorem Shows.decideCompare (h : Shows sin fresh threshold s t) (hpc : s.monitor = .deciding)
    {m : Monitor} (hm : s.statics = some m) (hcompares : m.Compares s.driver) :
    Shows sin fresh threshold { s with monitor := .fetching } t := by
  have hne : s.monitor ≠ .finished := by rw [hpc]; simp
  obtain ⟨ht, hstatics, hprinted⟩ := h.view_monitor hpc
  have henter : m = Monitor.enter t.statics t.driver fresh :=
    Option.some.inj (hm.symm.trans hstatics)
  refine h.monitor_step ⟨rfl, rfl, rfl⟩ hne rfl ⟨ht, hstatics, hprinted, ?_⟩ ?_
  · rw [← henter]
    exact (h.compares_iff hne m).mp hcompares
  · exact h.locked.monitor_keeps (by rw [hpc]; exact Iff.rfl)

/-- A call that does not compare fetches nothing, and leaves the first section out. -/
theorem Shows.skipCompare (h : Shows sin fresh threshold s t) (hpc : s.monitor = .deciding)
    {m : Monitor} (hm : s.statics = some m) (hcompares : ¬ m.Compares s.driver) :
    Matched sin fresh threshold .skipCompare { s with monitor := .rechecking } t := by
  have hne : s.monitor ≠ .finished := by rw [hpc]; simp
  obtain ⟨ht, hstatics, hprinted⟩ := h.view_monitor hpc
  have henter : m = Monitor.enter t.statics t.driver fresh :=
    Option.some.inj (hm.symm.trans hstatics)
  have hfetched : (t.fetch fresh).pc = .fetched none := by
    refine congrArg PointerPc.fetched (if_neg ?_)
    rw [← henter]
    exact fun hc => hcompares ((h.compares_iff hne m).mpr hc)
  have run : Run (PointerStep fresh threshold) t [.fetch, .compare] _ :=
    (Run.single (PointerStep.fetch ht)).next (PointerStep.skip hfetched)
  refine ⟨_, _, run, ?_, rfl⟩
  refine h.monitor_step ⟨rfl, rfl, rfl⟩ hne rfl ⟨rfl, hprinted, m, hm, congrArg some henter.symm⟩ ?_
  exact h.locked.monitor_keeps (by rw [hpc]; exact Iff.rfl)

theorem Shows.fetch (h : Shows sin fresh threshold s t) (hpc : s.monitor = .fetching) :
    Matched sin fresh threshold .fetch
      { s with monitor := .lockingCompare s.driver.prevBuffer } t := by
  have hne : s.monitor ≠ .finished := by rw [hpc]; simp
  obtain ⟨ht, hstatics, hprinted, hcompares⟩ := h.view_monitor hpc
  refine matched_single (PointerStep.fetch ht) ?_ rfl
  refine h.monitor_step ⟨rfl, rfl, rfl⟩ hne rfl ⟨?_, hprinted, _, hstatics, rfl⟩ ?_
  · show PointerPc.fetched (if _ then some t.driver.prevBuffer else none) = _
    rw [if_pos hcompares, (h.frame hne).1]
  · exact h.locked.monitor_keeps (by rw [hpc]; exact Iff.rfl)

theorem Shows.lockCompare (h : Shows sin fresh threshold s t) {p : Nat}
    (hpc : s.monitor = .lockingCompare p) (hfree : s.mutex = none) :
    Shows sin fresh threshold
      { s with
        mutex := some .monitor
        monitor := .comparing 0 p 0 } t := by
  obtain ⟨ht, hprinted, m, hm, htm⟩ := h.view_monitor hpc
  have hlocked := h.locked
  rw [hfree] at hlocked
  refine h.monitor_step ⟨rfl, rfl, rfl⟩ (by rw [hpc]; simp) rfl ?_ (hlocked.monitor_locks trivial)
  refine ⟨p, m, ht, hm, htm, Nat.zero_le _, by simp, by simp, ?_⟩
  rw [linesTo_zero, List.append_nil]
  exact hprinted

theorem Shows.compareTurn (h : Shows sin fresh threshold s t) {m : Monitor} {i p b : Nat}
    (hpc : s.monitor = .comparing i p b) (hm : s.statics = some m)
    (hi : i < s.driver.numHandles) :
    Shows sin fresh threshold (s.compareTurn threshold m i p b) t := by
  have hd := h.driver_eq (by rw [hpc]; trivial)
  obtain ⟨image, m', ht, hm', htm, _, rfl, rfl, hprinted⟩ := h.view_monitor hpc
  obtain rfl := Option.some.inj (hm.symm.trans hm')
  refine h.monitor_step ⟨rfl, rfl, rfl⟩ (by rw [hpc]; simp) rfl ?_
    (h.locked.monitor_keeps (by rw [hpc]; exact Iff.rfl))
  refine ⟨image, m, ht, hm, htm, by rw [← hd]; exact hi, ?_, ?_, ?_⟩
  · rw [Nat.mul_succ, Nat.add_assoc]
  · rw [Nat.mul_succ]
  · rw [← hd] at hprinted ⊢
    rw [linesTo_succ, ← List.append_assoc, ← hprinted]
    show (if _ then s.printed ++ [_] else s.printed) = s.printed ++ if _ then [_] else []
    split
    · rfl
    · exact (List.append_nil _).symm

theorem Shows.compared (h : Shows sin fresh threshold s t) {i p b : Nat}
    (hpc : s.monitor = .comparing i p b) (hi : ¬ i < s.driver.numHandles) :
    Matched sin fresh threshold .compared { s with monitor := .unlockingCompare } t := by
  have hd := h.driver_eq (by rw [hpc]; trivial)
  obtain ⟨image, m, ht, hm, htm, hle, _, _, hprinted⟩ := h.view_monitor hpc
  have hlast : i = t.driver.numHandles := by
    rw [hd] at hi
    exact Nat.le_antisymm hle (Nat.le_of_not_lt hi)
  refine matched_single (PointerStep.compare htm ht) ?_ rfl
  refine h.monitor_step ⟨rfl, rfl, rfl⟩ (by rw [hpc]; simp) rfl ⟨rfl, ?_, m, hm, htm⟩
    (h.locked.monitor_keeps (by rw [hpc]; exact Iff.rfl))
  rw [hlast, linesTo_numHandles] at hprinted
  show s.printed = linesOf (t.logs ++ [_])
  rw [linesOf_append]
  exact hprinted

theorem Shows.copy (h : Shows sin fresh threshold s t) {m : Monitor} (hpc : s.monitor = .copying)
    (hm : s.statics = some m) : Matched sin fresh threshold .copy (s.copy m) t := by
  have hd := h.driver_eq (by rw [hpc]; trivial)
  obtain ⟨ht, hprinted, hprev, m', hm', htm⟩ := h.view_monitor hpc
  obtain rfl := Option.some.inj (hm.symm.trans hm')
  refine matched_single (PointerStep.copy htm ht) ?_ rfl
  refine h.monitor_step ⟨rfl, rfl, rfl⟩ (by rw [hpc]; simp) rfl ⟨rfl, hprinted, _, rfl, ?_⟩
    (h.locked.monitor_keeps (by rw [hpc]; exact Iff.rfl))
  show some (copySection t.driver m) = _
  unfold copySection
  rw [if_pos hprev, hd]

/-- Without an image there is nothing to copy, now as when it was tested. -/
theorem Shows.skipCopy (h : Shows sin fresh threshold s t) (hpc : s.monitor = .rechecking)
    (hprev : s.driver.prevBuffer = NULL) :
    Matched sin fresh threshold .skipCopy { s with monitor := .testing } t := by
  have hne : s.monitor ≠ .finished := by rw [hpc]; simp
  obtain ⟨ht, hprinted, m, hm, htm⟩ := h.view_monitor hpc
  refine matched_single (PointerStep.copy htm ht) ?_ rfl
  refine h.monitor_step ⟨rfl, rfl, rfl⟩ hne rfl ⟨rfl, ?_, hprinted⟩
    (h.locked.monitor_keeps (by rw [hpc]; exact Iff.rfl))
  show s.statics = some (copySection t.driver m)
  unfold copySection
  rw [if_neg (not_not_intro ((h.frame hne).1 ▸ hprev)), hm]

end Steps

/-- A step of `main` before its last one. -/
theorem Shows.main_step {sin : Rat → Rat} {fresh : Area} {threshold : Int} {s : Threads}
    {t : PointerSystem} (h : Shows sin fresh threshold s t) (globals : Shared) (run : Bool)
    {main : MainPc} (hmain : s.main ≠ .finished) (hnot : main ≠ .finished)
    (hjoined : Joined main s.rt s.monitor) :
    Shows sin fresh threshold
      { s with
        globals := globals
        runThreads := run
        main := main } t :=
  ⟨fun _ => h.realTime hmain, fun hdone => absurd hdone hnot, h.monitor, h.locked, hjoined, h.null⟩

/-- **Step lemma.** -/
theorem threads_matched (sin : Rat → Rat) (fresh : Area) (threshold : Int) :
    Refines (ThreadStep sin fresh threshold) (PointerStep fresh threshold)
      (Shows sin fresh threshold) ThreadAction.observed PointerAction.kind := by
  intro s a s' t h hstep
  cases hstep with
  | rtTest hpc =>
    refine matched_inner (h.realTime_inner hpc (by simp) ⟨rfl, rfl, rfl, rfl⟩ rfl ?_ ?_) rfl
    · exact iteInduction (motive := fun pc => RealTimePc.Inside pc ↔ _)
        (fun _ => Iff.rfl) fun _ => Iff.rfl
    · intro hview
      exact iteInduction (motive := RealTimePc.View sin t.driver s.driver)
        (fun _ => hview) fun _ => hview
  | rtWait hpc =>
    exact matched_inner (h.realTime_inner hpc (by simp) ⟨rfl, rfl, rfl, rfl⟩ rfl Iff.rfl
      fun hview => hview) rfl
  | rtLock hpc hfree =>
    have hview := h.view_realTime hpc (by simp)
    have hlocked := h.locked
    rw [hfree] at hlocked
    exact matched_inner (h.realTime_step ⟨rfl, rfl, rfl, rfl⟩ (by rw [hpc]; simp)
      (view_lock hview) (hlocked.realTime_locks trivial)) rfl
  | packTurn hpc hi =>
    refine matched_inner (h.realTime_inner hpc (by simp) ⟨rfl, rfl, rfl, rfl⟩ rfl ?_ fun hview =>
      view_packTurn hview hi) rfl
    exact iteInduction (motive := fun pc => RealTimePc.Inside pc ↔ _)
      (fun _ => Iff.rfl) fun _ => Iff.rfl
  | command now hpc =>
    exact matched_inner (h.realTime_inner hpc (by simp) ⟨rfl, rfl, rfl, rfl⟩ rfl Iff.rfl
      (view_command now)) rfl
  | packed hpc hi =>
    exact matched_inner (h.realTime_inner hpc (by simp) ⟨rfl, rfl, rfl, rfl⟩ rfl Iff.rfl
      fun hview => view_packed hview hi) rfl
  | attempt reply hpc =>
    refine matched_inner (h.realTime_inner hpc (by simp) ⟨rfl, rfl, rfl, rfl⟩ rfl ?_
      (view_attempt reply)) rfl
    exact iteInduction (motive := fun pc => RealTimePc.Inside pc ↔ _) (fun _ => Iff.rfl) fun _ =>
      iteInduction (motive := fun pc => RealTimePc.Inside pc ↔ _)
        (fun _ => Iff.rfl) fun _ => Iff.rfl
  | serve handle hpc hr =>
    exact matched_inner (h.realTime_inner hpc (by simp) ⟨rfl, rfl, rfl, rfl⟩ rfl Iff.rfl
      fun hview => hview) rfl
  | save hpc =>
    exact matched_inner (h.realTime_inner hpc (by simp) ⟨rfl, rfl, rfl, rfl⟩ rfl Iff.rfl
      view_save) rfl
  | swapThis hpc =>
    exact matched_inner (h.realTime_inner hpc (by simp) ⟨rfl, rfl, rfl, rfl⟩ rfl Iff.rfl
      view_swapThis) rfl
  | swapPrev hpc => exact h.swapPrev hpc
  | rtUnlock hpc =>
    have hview := h.view_realTime hpc (by simp)
    exact matched_inner (h.realTime_step ⟨rfl, rfl, rfl, rfl⟩ (by rw [hpc]; simp) hview
      (h.locked.realTime_unlocks (by rw [hpc]; trivial) (fun hin => hin))) rfl
  | monitorTest hpc =>
    refine matched_inner (h.monitor_inner hpc (by simp) ⟨rfl, rfl, rfl⟩ rfl ?_ rfl ?_) rfl
    · exact iteInduction (motive := fun pc => MonitorPc.Inside pc ↔ _)
        (fun _ => Iff.rfl) fun _ => Iff.rfl
    · intro hview
      exact iteInduction (motive := MonitorPc.View fresh threshold s.statics s.printed t)
        (fun _ => hview) fun _ => hview
  | monitorWait hpc =>
    exact matched_inner (h.monitor_inner hpc (by simp) ⟨rfl, rfl, rfl⟩ rfl Iff.rfl rfl
      fun hview => hview) rfl
  | enter hpc => exact matched_inner (h.enter hpc) rfl
  | decideCompare hpc hm hcompares => exact matched_inner (h.decideCompare hpc hm hcompares) rfl
  | skipCompare hpc hm hcompares => exact h.skipCompare hpc hm hcompares
  | fetch hpc => exact h.fetch hpc
  | lockCompare hpc hfree => exact matched_inner (h.lockCompare hpc hfree) rfl
  | compareTurn hpc hm hi => exact matched_inner (h.compareTurn hpc hm hi) rfl
  | compared hpc hi => exact h.compared hpc hi
  | unlockCompare hpc =>
    have hview := h.view_monitor hpc
    exact matched_inner (h.monitor_step ⟨rfl, rfl, rfl⟩ (by rw [hpc]; simp) rfl hview
      (h.locked.monitor_unlocks (by rw [hpc]; trivial) (fun hin => hin))) rfl
  | decideCopy hpc hprev =>
    rw [(h.frame (by rw [hpc]; simp)).1] at hprev
    exact matched_inner (h.monitor_inner hpc (by simp) ⟨rfl, rfl, rfl⟩ rfl Iff.rfl rfl
      fun ⟨ht, hprinted, hm⟩ => ⟨ht, hprinted, hprev, hm⟩) rfl
  | skipCopy hpc hprev => exact h.skipCopy hpc hprev
  | lockCopy hpc hfree =>
    have hview := h.view_monitor hpc
    have hlocked := h.locked
    rw [hfree] at hlocked
    exact matched_inner (h.monitor_step ⟨rfl, rfl, rfl⟩ (by rw [hpc]; simp) rfl hview
      (hlocked.monitor_locks trivial)) rfl
  | copy hpc hm => exact h.copy hpc hm
  | unlockCopy hpc =>
    have hview := h.view_monitor hpc
    exact matched_inner (h.monitor_step ⟨rfl, rfl, rfl⟩ (by rw [hpc]; simp) rfl hview
      (h.locked.monitor_unlocks (by rw [hpc]; trivial) (fun hin => hin))) rfl
  | mark hpc hm =>
    refine matched_inner (h.monitor_inner hpc (by simp) ⟨rfl, rfl, rfl⟩ rfl Iff.rfl rfl ?_) rfl
    intro ⟨ht, hprinted, m', hm', htm⟩
    obtain rfl := Option.some.inj (hm.symm.trans hm')
    exact ⟨ht, htm.symm, hprinted⟩
  | readTarget input hpc =>
    exact matched_inner (h.main_step _ _ (by rw [hpc]; simp) (by simp)
      ⟨fun hjoined => hjoined.elim, fun hjoined => hjoined.elim⟩) rfl
  | readAmplitude input hpc =>
    refine matched_inner (h.main_step _ _ (by rw [hpc]; simp) ?_ ?_) rfl
    · exact iteInduction (motive := fun pc => pc ≠ MainPc.finished) (by simp) (by simp)
    · exact iteInduction (motive := fun pc => Joined pc s.rt s.monitor)
        (fun _ => ⟨fun hjoined => hjoined.elim, fun hjoined => hjoined.elim⟩)
        fun _ => ⟨fun hjoined => hjoined.elim, fun hjoined => hjoined.elim⟩
  | clear hpc =>
    exact matched_inner (h.main_step _ _ (by rw [hpc]; simp) (by simp)
      ⟨fun hjoined => hjoined.elim, fun hjoined => hjoined.elim⟩) rfl
  | joinRealTime hpc hdone =>
    exact matched_inner (h.main_step _ _ (by rw [hpc]; simp) (by simp)
      ⟨fun _ => hdone, fun hjoined => hjoined.elim⟩) rfl
  | joinMonitor hpc hdone =>
    have hjoined := h.joined
    rw [hpc] at hjoined
    exact matched_inner (h.main_step _ _ (by rw [hpc]; simp) (by simp)
      ⟨fun _ => hjoined.realTime trivial, fun _ => hdone⟩) rfl
  | close reached hpc =>
    have hjoined := h.joined
    have hview := h.realTime (by rw [hpc]; simp)
    rw [hpc] at hjoined
    have hrt := hjoined.realTime trivial
    rw [hrt] at hview
    refine matched_inner ?_ rfl
    refine ⟨fun hmain => absurd rfl hmain, fun _ => ⟨reached, ?_⟩, h.monitor, h.locked,
      ⟨fun _ => hrt, fun _ => hjoined.monitor trivial⟩, h.null⟩
    rw [show s.driver = t.driver from hview]

end Matching

/-! ## From start-up on -/

/-- Whatever start-up came to, it sets both pointers or neither. -/
theorem nullTogether_started (env : StartupEnv) : NullTogether (started env) := by
  by_cases hne : env.configured.numHandles = 0
  · have hsame : started env = env.configured := by
      show (setMasterBuffer env.buffers env.configured).2 = _
      unfold setMasterBuffer
      rw [if_pos hne]
    rw [hsame, env.configured_spec.eq]
    exact Iff.rfl
  · rw [started_eq env hne]
    have hbuffer := env.buffers.buffer_ne
    refine iff_of_false hbuffer ?_
    show env.buffers.buffer + _ ≠ NULL
    unfold NULL at hbuffer ⊢
    omega

/-- **Atomicity.** In every run of the three threads from start-up on, the steps
that count are those of a run of `PointerSystem`, in the same order: as long as
`main` has not shut the slaves down, the real-time thread, when it is not behind
the lock, has left exactly the driver of that run, and the pointer that can be
read without the lock is the one of that run at any time; the driver that is shut
down is the one at its end; and the monitor thread has printed exactly the lines
of its comparisons. -/
theorem threads_refine (sin : Rat → Rat) (fresh : Area) (threshold : Int) (env : StartupEnv)
    (as : List ThreadAction) (s : Threads)
    (run : Run (ThreadStep sin fresh threshold) (Threads.start (started env)) as s) :
    ∃ bs t, Run (PointerStep fresh threshold) (PointerSystem.start (started env)) bs t ∧
      bs.map PointerAction.kind = as.flatMap ThreadAction.observed ∧
      (s.main ≠ .finished → ¬ s.rt.Inside → s.driver = t.driver) ∧
      (s.main ≠ .finished → s.driver.prevBuffer = t.driver.prevBuffer) ∧
      (s.main = .finished →
        ∃ reached, s.driver = (closeOperationalSlaves reached t.driver).driver) ∧
      (¬ s.monitor.Inside → s.printed = linesOf t.logs) := by
  obtain ⟨bs, t, hbs, h, hkinds⟩ := (threads_matched sin fresh threshold).run
    (shows_start sin fresh threshold (nullTogether_started env)) run
  refine ⟨bs, t, hbs, hkinds, ?_, ?_, h.closed, ?_⟩
  · intro hmain hout
    exact (h.realTime hmain).eq_of_outside hout
  · intro hmain
    exact (h.realTime hmain).frame.1
  · exact h.monitor.printed

/-- A call of `monitorChanges` begins in the middle of a cycle. -/
theorem refusingBoard_call_in_cycle :
    ∃ s bs t, Run (ThreadStep (fun _ => 0) (fun _ => 0) 1) (Threads.start (started refusingBoard))
        [.rtTest, .rtWait, .rtLock, .packTurn, .monitorTest, .monitorWait, .enter, .skipCompare,
          .packed, .attempt (some fun _ => 0), .save, .swapThis, .swapPrev, .rtUnlock] s ∧
      Run (PointerStep (fun _ => 0) 1) (PointerSystem.start (started refusingBoard)) bs t ∧
      bs.map PointerAction.kind = [.fetch, .compare, .cycle] ∧ s.driver = t.driver := by
  have run3 : Run (ThreadStep (fun _ => 0) (fun _ => 0) 1)
      (Threads.start (started refusingBoard)) [.rtTest, .rtWait, .rtLock] _ :=
    ((Run.single (.rtTest rfl)).next (.rtWait rfl)).next (.rtLock rfl rfl)
  have run6 := ((run3.next (.packTurn rfl (by decide))).next (.monitorTest rfl)).next
    (.monitorWait rfl)
  have run8 := (run6.next (.enter rfl)).next (.skipCompare rfl rfl fun h => nomatch h.1)
  have run10 := (run8.next (.packed rfl (by decide))).next (.attempt (some fun _ => 0) rfl)
  have run13 := ((run10.next (.save rfl)).next (.swapThis rfl)).next (.swapPrev rfl)
  have run14 := run13.next (.rtUnlock rfl)
  obtain ⟨bs, t, hbs, hkinds, hdriver, _⟩ := threads_refine _ _ _ refusingBoard _ _ run14
  exact ⟨_, bs, t, run14, hbs, hkinds, hdriver (fun h => nomatch h) (fun h => h)⟩

end Pr2Ethercat
