import Pr2Ethercat.Current
import Pr2Ethercat.MonitorPointer
import Pr2Ethercat.Shutdown
import Pr2Ethercat.ThreadLoops

/-!
# The three threads of the program

The real-time thread runs `kul::update` in a loop, the monitor thread runs
`kul::monitorChanges`, and `main` reads the target and the amplitudes, stops the
two, joins them and shuts the slaves down. `Threads` is the program once both
threads have been created, and `ThreadStep` is any one of them taking one step: a
test, an assignment to a global, a turn of a loop, an attempt to exchange the
process data, a lock or an unlock. In between, the others may do anything
`mutex_buffer_access` lets them.

Only the buffers are behind that mutex. `target_slave` and `current_amplitude`
are written by `main` while `packCommand` reads them, `__RUN_THREADS__` is tested
by both loops, and `monitorChanges` reads `prev_buffer_` three times before it has
the lock.
-/

namespace Pr2Ethercat

open ByteArea Mesa

/-! ## Program counters -/

/-- The threads that lock `mutex_buffer_access`. -/
inductive Locker where
  | realTime
  | monitor
  deriving DecidableEq, Repr

/-- What the real-time thread does next. The places from `packing` to `unlocking`
are in `update`, behind the lock. -/
inductive RealTimePc where
  | testing
  | waiting
  | locking
  /-- Before turn `i` of `packCommand`, with `this_buffer` at `slot`. -/
  | packing (i slot : Nat)
  /-- In that turn, after the test `i == target_slave` has succeeded. -/
  | commanding (i slot : Nat)
  /-- Before attempt `i` of `txandrx_PD`. -/
  | exchanging (i : Nat)
  | serving
  | saving
  | swappingThis (tmp : Nat)
  | swappingPrev (tmp : Nat)
  | unlocking
  | finished

/-- What the monitor thread does next; from `entering` to `marking` it is in
`kul::monitorChanges`. -/
inductive MonitorPc where
  | testing
  | waiting
  | entering
  | deciding
  | fetching
  | lockingCompare (prevBuffer : Nat)
  /-- Before turn `i` of the comparison, with the two pointers. -/
  | comparing (i prevBuffer backBuffer : Nat)
  | unlockingCompare
  | rechecking
  | lockingCopy
  | copying
  | unlockingCopy
  | marking
  | finished

/-- What `main` does next; `amplitude` is its local variable. -/
inductive MainPc where
  | readingTarget
  | readingAmplitude (amplitude : Rat)
  | clearing
  | joiningRealTime
  | joiningMonitor
  | closing
  | finished

/-- The thread is between `pthread_mutex_lock` and `pthread_mutex_unlock`. -/
def RealTimePc.Inside : RealTimePc → Prop
  | packing _ _ | commanding _ _ | exchanging _ | serving | saving => True
  | swappingThis _ | swappingPrev _ | unlocking => True
  | testing | waiting | locking | finished => False

def MonitorPc.Inside : MonitorPc → Prop
  | comparing _ _ _ | unlockingCompare | copying | unlockingCopy => True
  | testing | waiting | entering | deciding | fetching | lockingCompare _ => False
  | rechecking | lockingCopy | marking | finished => False

/-! ## The state -/

/-- The globals, the monitor's statics, where each thread is, and the lines the
monitor has printed. -/
structure Threads where
  driver : Driver
  globals : Shared
  oob : EthercatOobCom
  mutex : Option Locker
  statics : Option Monitor
  runThreads : Bool
  rt : RealTimePc
  monitor : MonitorPc
  main : MainPc
  printed : List (Nat × BitVec 32)

/-- The initialisers of `wg05.h`. -/
def Shared.initial : Shared where
  targetSlave := 13
  currentAmplitude := 10
  now := ⟨0, 0⟩

/-- `main` after the two calls of `pthread_create`, with what the initialisation
left in `d`. -/
def Threads.start (d : Driver) : Threads where
  driver := d
  globals := Shared.initial
  oob := EthercatOobCom.new
  mutex := none
  statics := none
  runThreads := true
  rt := .testing
  monitor := .testing
  main := .readingTarget
  printed := []

/-! ## The steps -/

/-- One step, with what it learns from outside the program. -/
inductive ThreadAction where
  | rtTest
  | rtWait
  | rtLock
  | packTurn
  | command (now : Timeval)
  | packed
  | attempt (reply : Option Area)
  | serve (handle : Int)
  | save
  | swapThis
  | swapPrev
  | rtUnlock
  | monitorTest
  | monitorWait
  | enter
  | decideCompare
  | skipCompare
  | fetch
  | lockCompare
  | compareTurn
  | compared
  | unlockCompare
  | decideCopy
  | skipCopy
  | lockCopy
  | copy
  | unlockCopy
  | mark
  | readTarget (input : Option (BitVec 32))
  | readAmplitude (input : Option Rat)
  | clear
  | joinRealTime
  | joinMonitor
  | close (reached : Nat → Bool)

namespace Threads

variable (s : Threads)

/-- The turn of `packCommand` at `slot`, up to and including its test. -/
def packTurn (i slot : Nat) : Threads :=
  { s with
    driver := { s.driver with mem := put s.driver.mem slot (List.replicate commandSize 0) }
    rt := if i = s.globals.targetSlave.toNat then .commanding i slot
          else .packing (i + 1) (slot + slotSize) }

/-- The rest of the turn on the target, at the time `now`. -/
def command (sin : Rat → Rat) (i slot : Nat) (now : Timeval) : Threads :=
  let globals := { s.globals with now := now }
  { s with
    globals := globals
    driver := { s.driver with mem := put s.driver.mem slot (targetCommand sin globals).bytes }
    rt := .packing (i + 1) (slot + slotSize) }

/-- Attempt `i` of `txandrx_PD`. -/
def attempt (i : Nat) (reply : Option Area) : Threads :=
  let exchange :=
    emlTxandrxPD s.driver.mem s.driver.masterBufferSize s.driver.masterBuffer reply
  { s with
    driver := { s.driver with mem := exchange.2 }
    rt := if exchange.1 = true then .saving
          else if i + 1 < maxPdRetries then .exchanging (i + 1)
          else .serving }

/-- What turn `i` of the comparison looks at. -/
def comparison (m : Monitor) (i prevBuffer backBuffer : Nat) : Comparison where
  slave := i
  now := encoderCountAt s.driver.mem (prevBuffer + commandSize)
  backup := encoderCountAt m.monitorBackup (backBuffer + commandSize)

/-- That turn. -/
def compareTurn (threshold : Int) (m : Monitor) (i prevBuffer backBuffer : Nat) : Threads :=
  let c := s.comparison m i prevBuffer backBuffer
  { s with
    printed := if c.exceeds threshold = true then s.printed ++ [(i, c.now)] else s.printed
    monitor := .comparing (i + 1) (prevBuffer + slotSize) (backBuffer + slotSize) }

/-- `memcpy(monitor_backup, prev_buffer_, Master_Buffer_Size_)`. -/
def copy (m : Monitor) : Threads :=
  { s with
    statics := some
      { m with
        monitorBackup :=
          blit m.monitorBackup 0 s.driver.mem s.driver.prevBuffer s.driver.masterBufferSize }
    monitor := .unlockingCopy }

/-- A turn of the input loop; a `scanf` that reads no number leaves `amplitude` alone. -/
def readAmplitude (amplitude : Rat) (input : Option Rat) : Threads :=
  let amplitude := input.getD amplitude
  let turn := inputTurn amplitude s.globals
  { s with
    globals := turn.1
    main := if turn.2 = true then .readingAmplitude amplitude else .clearing }

end Threads

section Step

variable (sin : Rat → Rat) (fresh : Area) (threshold : Int)

inductive ThreadStep : Threads → ThreadAction → Threads → Prop where
  -- `realTimeLoop`
  | rtTest {s : Threads} (hpc : s.rt = .testing) :
      ThreadStep s .rtTest
        { s with rt := if s.runThreads = true then .waiting else .finished }
  | rtWait {s : Threads} (hpc : s.rt = .waiting) :
      ThreadStep s .rtWait { s with rt := .locking }
  -- `update`
  | rtLock {s : Threads} (hpc : s.rt = .locking) (hfree : s.mutex = none) :
      ThreadStep s .rtLock
        { s with
          mutex := some .realTime
          rt := .packing 0 s.driver.thisBuffer }
  | packTurn {s : Threads} {i slot : Nat} (hpc : s.rt = .packing i slot)
      (hi : i < s.driver.numHandles) :
      ThreadStep s .packTurn (s.packTurn i slot)
  | command {s : Threads} {i slot : Nat} (now : Timeval) (hpc : s.rt = .commanding i slot) :
      ThreadStep s (.command now) (s.command sin i slot now)
  | packed {s : Threads} {i slot : Nat} (hpc : s.rt = .packing i slot)
      (hi : ¬ i < s.driver.numHandles) :
      ThreadStep s .packed { s with rt := .exchanging 0 }
  | attempt {s : Threads} {i : Nat} (reply : Option Area) (hpc : s.rt = .exchanging i) :
      ThreadStep s (.attempt reply) (s.attempt i reply)
  /-- `oob_com_->tx()`; nobody else uses the mailbox, so its mutex is free. -/
  | serve {s : Threads} {r : TxResult} (handle : Int) (hpc : s.rt = .serving)
      (hr : s.oob.tx true handle = some r) :
      ThreadStep s (.serve handle)
        { s with
          oob := r.com
          rt := .saving }
  | save {s : Threads} (hpc : s.rt = .saving) :
      ThreadStep s .save { s with rt := .swappingThis s.driver.thisBuffer }
  | swapThis {s : Threads} {tmp : Nat} (hpc : s.rt = .swappingThis tmp) :
      ThreadStep s .swapThis
        { s with
          driver := { s.driver with thisBuffer := s.driver.prevBuffer }
          rt := .swappingPrev tmp }
  | swapPrev {s : Threads} {tmp : Nat} (hpc : s.rt = .swappingPrev tmp) :
      ThreadStep s .swapPrev
        { s with
          driver := { s.driver with prevBuffer := tmp }
          rt := .unlocking }
  | rtUnlock {s : Threads} (hpc : s.rt = .unlocking) :
      ThreadStep s .rtUnlock
        { s with
          mutex := none
          rt := .testing }
  -- the monitor thread's loop
  | monitorTest {s : Threads} (hpc : s.monitor = .testing) :
      ThreadStep s .monitorTest
        { s with monitor := if s.runThreads = true then .waiting else .finished }
  | monitorWait {s : Threads} (hpc : s.monitor = .waiting) :
      ThreadStep s .monitorWait { s with monitor := .entering }
  -- `kul::monitorChanges`
  | enter {s : Threads} (hpc : s.monitor = .entering) :
      ThreadStep s .enter
        { s with
          statics := some (Monitor.enter s.statics s.driver fresh)
          monitor := .deciding }
  | decideCompare {s : Threads} {m : Monitor} (hpc : s.monitor = .deciding)
      (hm : s.statics = some m) (hcompares : m.Compares s.driver) :
      ThreadStep s .decideCompare { s with monitor := .fetching }
  | skipCompare {s : Threads} {m : Monitor} (hpc : s.monitor = .deciding)
      (hm : s.statics = some m) (hcompares : ¬ m.Compares s.driver) :
      ThreadStep s .skipCompare { s with monitor := .rechecking }
  | fetch {s : Threads} (hpc : s.monitor = .fetching) :
      ThreadStep s .fetch { s with monitor := .lockingCompare s.driver.prevBuffer }
  | lockCompare {s : Threads} {prevBuffer : Nat} (hpc : s.monitor = .lockingCompare prevBuffer)
      (hfree : s.mutex = none) :
      ThreadStep s .lockCompare
        { s with
          mutex := some .monitor
          monitor := .comparing 0 prevBuffer 0 }
  | compareTurn {s : Threads} {m : Monitor} {i prevBuffer backBuffer : Nat}
      (hpc : s.monitor = .comparing i prevBuffer backBuffer) (hm : s.statics = some m)
      (hi : i < s.driver.numHandles) :
      ThreadStep s .compareTurn (s.compareTurn threshold m i prevBuffer backBuffer)
  | compared {s : Threads} {i prevBuffer backBuffer : Nat}
      (hpc : s.monitor = .comparing i prevBuffer backBuffer)
      (hi : ¬ i < s.driver.numHandles) :
      ThreadStep s .compared { s with monitor := .unlockingCompare }
  | unlockCompare {s : Threads} (hpc : s.monitor = .unlockingCompare) :
      ThreadStep s .unlockCompare
        { s with
          mutex := none
          monitor := .rechecking }
  | decideCopy {s : Threads} (hpc : s.monitor = .rechecking)
      (hprev : s.driver.prevBuffer ≠ NULL) :
      ThreadStep s .decideCopy { s with monitor := .lockingCopy }
  | skipCopy {s : Threads} (hpc : s.monitor = .rechecking) (hprev : s.driver.prevBuffer = NULL) :
      ThreadStep s .skipCopy { s with monitor := .testing }
  | lockCopy {s : Threads} (hpc : s.monitor = .lockingCopy) (hfree : s.mutex = none) :
      ThreadStep s .lockCopy
        { s with
          mutex := some .monitor
          monitor := .copying }
  | copy {s : Threads} {m : Monitor} (hpc : s.monitor = .copying) (hm : s.statics = some m) :
      ThreadStep s .copy (s.copy m)
  | unlockCopy {s : Threads} (hpc : s.monitor = .unlockingCopy) :
      ThreadStep s .unlockCopy
        { s with
          mutex := none
          monitor := .marking }
  | mark {s : Threads} {m : Monitor} (hpc : s.monitor = .marking) (hm : s.statics = some m) :
      ThreadStep s .mark
        { s with
          statics := some { m with monitorDeltaInit := true }
          monitor := .testing }
  -- `main`
  | readTarget {s : Threads} (input : Option (BitVec 32)) (hpc : s.main = .readingTarget) :
      ThreadStep s (.readTarget input)
        { s with
          globals := { s.globals with targetSlave := input.getD s.globals.targetSlave }
          main := .readingAmplitude 10 }
  | readAmplitude {s : Threads} {amplitude : Rat} (input : Option Rat)
      (hpc : s.main = .readingAmplitude amplitude) :
      ThreadStep s (.readAmplitude input) (s.readAmplitude amplitude input)
  | clear {s : Threads} (hpc : s.main = .clearing) :
      ThreadStep s .clear
        { s with
          runThreads := false
          main := .joiningRealTime }
  | joinRealTime {s : Threads} (hpc : s.main = .joiningRealTime) (hdone : s.rt = .finished) :
      ThreadStep s .joinRealTime { s with main := .joiningMonitor }
  | joinMonitor {s : Threads} (hpc : s.main = .joiningMonitor) (hdone : s.monitor = .finished) :
      ThreadStep s .joinMonitor { s with main := .closing }
  | close {s : Threads} (reached : Nat → Bool) (hpc : s.main = .closing) :
      ThreadStep s (.close reached)
        { s with
          driver := (closeOperationalSlaves reached s.driver).driver
          main := .finished }

end Step

/-! ## The lock and the joins -/

/-- `mutex_buffer_access` is held by the thread that is behind it. -/
structure Locked (rt : RealTimePc) (monitor : MonitorPc) (mutex : Option Locker) : Prop where
  realTime : rt.Inside ↔ mutex = some .realTime
  monitor : monitor.Inside ↔ mutex = some .monitor

section Locked

variable {rt rt' : RealTimePc} {monitor monitor' : MonitorPc} {mutex : Option Locker}

/-- At most one thread is behind the lock. -/
theorem Locked.excludes (h : Locked rt monitor mutex) (hrt : rt.Inside) : ¬ monitor.Inside := by
  intro hmonitor
  have hboth := (h.realTime.mp hrt).symm.trans (h.monitor.mp hmonitor)
  exact absurd hboth (by simp)

theorem Locked.realTime_keeps (h : Locked rt monitor mutex) (hsame : rt'.Inside ↔ rt.Inside) :
    Locked rt' monitor mutex := ⟨hsame.trans h.realTime, h.monitor⟩

theorem Locked.monitor_keeps (h : Locked rt monitor mutex)
    (hsame : monitor'.Inside ↔ monitor.Inside) : Locked rt monitor' mutex :=
  ⟨h.realTime, hsame.trans h.monitor⟩

theorem Locked.realTime_locks (h : Locked rt monitor none) (hin : rt'.Inside) :
    Locked rt' monitor (some .realTime) := by
  refine ⟨iff_of_true hin rfl, iff_of_false ?_ (by simp)⟩
  intro hmonitor
  exact absurd (h.monitor.mp hmonitor) (by simp)

theorem Locked.monitor_locks (h : Locked rt monitor none) (hin : monitor'.Inside) :
    Locked rt monitor' (some .monitor) := by
  refine ⟨iff_of_false ?_ (by simp), iff_of_true hin rfl⟩
  intro hrt
  exact absurd (h.realTime.mp hrt) (by simp)

theorem Locked.realTime_unlocks (h : Locked rt monitor mutex) (hin : rt.Inside)
    (hout : ¬ rt'.Inside) : Locked rt' monitor none :=
  ⟨iff_of_false hout (by simp), iff_of_false (h.excludes hin) (by simp)⟩

theorem Locked.monitor_unlocks (h : Locked rt monitor mutex) (hin : monitor.Inside)
    (hout : ¬ monitor'.Inside) : Locked rt monitor' none :=
  ⟨iff_of_false (fun hrt => h.excludes hrt hin) (by simp), iff_of_false hout (by simp)⟩

end Locked

/-- `pthread_join(rt_thread, ..)` has returned. -/
def MainPc.JoinedRealTime : MainPc → Prop
  | joiningMonitor | closing | finished => True
  | readingTarget | readingAmplitude _ | clearing | joiningRealTime => False

/-- `pthread_join(monitor_thread, ..)` has returned. -/
def MainPc.JoinedMonitor : MainPc → Prop
  | closing | finished => True
  | readingTarget | readingAmplitude _ | clearing | joiningRealTime | joiningMonitor => False

/-- A joined thread has ended. -/
structure Joined (main : MainPc) (rt : RealTimePc) (monitor : MonitorPc) : Prop where
  realTime : main.JoinedRealTime → rt = .finished
  monitor : main.JoinedMonitor → monitor = .finished

section Joined

variable {main : MainPc} {rt : RealTimePc} {monitor : MonitorPc}

/-- A thread that takes a step has not been joined. -/
theorem Joined.realTime_runs (h : Joined main rt monitor) (hrt : rt ≠ .finished)
    (rt' : RealTimePc) : Joined main rt' monitor :=
  ⟨fun hjoined => absurd (h.realTime hjoined) hrt, h.monitor⟩

theorem Joined.monitor_runs (h : Joined main rt monitor) (hmonitor : monitor ≠ .finished)
    (monitor' : MonitorPc) : Joined main rt monitor' :=
  ⟨h.realTime, fun hjoined => absurd (h.monitor hjoined) hmonitor⟩

/-- And `main` has not returned yet. -/
theorem Joined.main_of_realTime (h : Joined main rt monitor) (hrt : rt ≠ .finished) :
    main ≠ .finished := by
  intro hmain
  rw [hmain] at h
  exact hrt (h.realTime trivial)

theorem Joined.main_of_monitor (h : Joined main rt monitor) (hmonitor : monitor ≠ .finished) :
    main ≠ .finished := by
  intro hmain
  rw [hmain] at h
  exact hmonitor (h.monitor trivial)

end Joined

end Pr2Ethercat
