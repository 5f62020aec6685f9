import Pr2Ethercat.Atomicity

/-!
# Stopping the program

`main` stops the two threads by clearing `__RUN_THREADS__`, joins them and takes
the slaves out of `EC_OP_STATE`. Both loops test the flag once per turn, outside
the mutex, and both jobs lock the mutex in between, so this works only if no
thread waits for a lock that is never given back, and if what a thread still has
to do when the flag is cleared is bounded. It is: `Threads.left` counts the steps,
and falls with each of them (`stops`).
-/

namespace Pr2Ethercat

open ByteArea Mesa

/-! ## What is left to do -/

/-- `main` has cleared `__RUN_THREADS__`. -/
def MainPc.Stopping : MainPc → Prop
  | joiningRealTime | joiningMonitor | closing | finished => True
  | readingTarget | readingAmplitude _ | clearing => False

def MainPc.left : MainPc → Nat
  | readingTarget | readingAmplitude _ | clearing => 4
  | joiningRealTime => 3
  | joiningMonitor => 2
  | closing => 1
  | finished => 0

/-- The steps to the end of the thread over `n` slaves, once the flag is cleared. -/
def RealTimePc.left (n : Nat) : RealTimePc → Nat
  | waiting => 30 + 2 * n
  | locking => 29 + 2 * n
  -- two steps for each turn of `packCommand`, one for each attempt
  | packing i _ => 28 + 2 * (n - i)
  | commanding i _ => 29 + 2 * (n - (i + 1))
  | exchanging i => 7 + (maxPdRetries - i)
  | serving => 6
  | saving => 5
  | swappingThis _ => 4
  | swappingPrev _ => 3
  | unlocking => 2
  | testing => 1
  | finished => 0

def MonitorPc.left (n : Nat) : MonitorPc → Nat
  | waiting => 13 + n
  | entering => 12 + n
  | deciding => 11 + n
  | fetching => 10 + n
  | lockingCompare _ => 9 + n
  | comparing i _ _ => 8 + (n - i)
  | unlockingCompare => 7
  | rechecking => 6
  | lockingCopy => 5
  | copying => 4
  | unlockingCopy => 3
  | marking => 2
  | testing => 1
  | finished => 0

def Threads.left (s : Threads) : Nat :=
  s.main.left + s.rt.left s.driver.numHandles + s.monitor.left s.driver.numHandles

theorem RealTimePc.left_le (n : Nat) (pc : RealTimePc) : pc.left n ≤ 30 + 2 * n := by
  cases pc with
  | exchanging i =>
    simp only [left, maxPdRetries]
    omega
  | _ =>
    simp only [left]
    omega

theorem MonitorPc.left_le (n : Nat) (pc : MonitorPc) : pc.left n ≤ 13 + n := by
  cases pc with
  | _ =>
    simp only [left]
    omega

/-! ## The states that are reached -/

section Stopping

variable {sin : Rat → Rat} {fresh : Area} {threshold : Int}

/-- What holds in every state of a run. -/
structure Reached (sin : Rat → Rat) (fresh : Area) (threshold : Int) (s : Threads) : Prop where
  shows : ∃ t, Shows sin fresh threshold s t
  mailbox : s.oob = EthercatOobCom.new
  flag : s.runThreads = false ↔ s.main.Stopping

theorem reached_start (sin : Rat → Rat) (fresh : Area) (threshold : Int) {d : Driver}
    (hnull : NullTogether d) : Reached sin fresh threshold (Threads.start d) where
  shows := ⟨_, shows_start sin fresh threshold hnull⟩
  mailbox := rfl
  flag := iff_of_false (by simp [Threads.start]) fun h => h

variable {s s' : Threads} {a : ThreadAction}

/-- **Step lemma.** -/
theorem Reached.step (h : Reached sin fresh threshold s)
    (hstep : ThreadStep sin fresh threshold s a s') : Reached sin fresh threshold s' := by
  obtain ⟨⟨t, hshows⟩, hmailbox, hflag⟩ := h
  obtain ⟨_, t', _, hshows', _⟩ := threads_matched sin fresh threshold s a s' t hshows hstep
  refine ⟨⟨t', hshows'⟩, ?_, ?_⟩
  · cases hstep with
    | serve handle hpc hr =>
      -- nobody queues a frame
      rw [hmailbox, tx_not_ready (by simp [EthercatOobCom.new])] at hr
      exact (congrArg TxResult.com (Option.some.inj hr)).symm
    | _ => exact hmailbox
  · cases hstep with
    | readTarget input hpc =>
      rw [hpc] at hflag
      exact hflag
    | readAmplitude input hpc =>
      rw [hpc] at hflag
      exact iteInduction (motive := fun pc => s.runThreads = false ↔ MainPc.Stopping pc)
        (fun _ => hflag) fun _ => hflag
    | clear hpc => exact iff_of_true rfl trivial
    | joinRealTime hpc hdone =>
      rw [hpc] at hflag
      exact hflag
    | joinMonitor hpc hdone =>
      rw [hpc] at hflag
      exact hflag
    | close reached hpc =>
      rw [hpc] at hflag
      exact hflag
    | _ => exact hflag

/-- The flag is never set again. -/
theorem ThreadStep.flag_false (hstep : ThreadStep sin fresh threshold s a s')
    (hflag : s.runThreads = false) : s'.runThreads = false := by
  cases hstep with
  | clear => rfl
  | _ => exact hflag

/-- No step changes the slave table. -/
theorem ThreadStep.numHandles_eq (hstep : ThreadStep sin fresh threshold s a s') :
    s'.driver.numHandles = s.driver.numHandles := by
  cases hstep with
  | close reached hpc =>
    show (closeOperationalSlaves reached s.driver).driver.numHandles = _
    rw [(closeOperationalSlaves_spec reached s.driver).frame]
    rfl
  | _ => rfl

/-! ## Every step counts -/

/-- Once the flag is cleared, a step of a thread brings it closer to its end. -/
theorem ThreadStep.left_lt (hstep : ThreadStep sin fresh threshold s a s')
    (hflag : s.runThreads = false) (hmain : s.main.Stopping) : s'.left < s.left := by
  have hn := hstep.numHandles_eq
  unfold Threads.left
  rw [hn]
  cases hstep with
  | rtTest hpc =>
    simp only [hpc, hflag, Bool.false_eq_true, if_false, RealTimePc.left]
    omega
  | packTurn hpc hi =>
    simp only [hpc, Threads.packTurn]
    split
    · simp only [RealTimePc.left]
      omega
    · simp only [RealTimePc.left]
      omega
  | attempt reply hpc =>
    simp only [hpc, Threads.attempt]
    split
    · simp only [RealTimePc.left]
      omega
    · split
      · simp only [RealTimePc.left]
        omega
      · simp only [RealTimePc.left]
        omega
  | monitorTest hpc =>
    simp only [hpc, hflag, Bool.false_eq_true, if_false, MonitorPc.left]
    omega
  | readTarget input hpc =>
    rw [hpc] at hmain
    exact hmain.elim
  | readAmplitude input hpc =>
    rw [hpc] at hmain
    exact hmain.elim
  | clear hpc =>
    rw [hpc] at hmain
    exact hmain.elim
  | rtWait hpc | rtLock hpc | packed hpc | serve _ hpc | save hpc | swapThis hpc | swapPrev hpc
  | rtUnlock hpc =>
    simp only [hpc, RealTimePc.left, maxPdRetries]
    omega
  | command now hpc =>
    simp only [hpc, Threads.command, RealTimePc.left]
    omega
  | compareTurn hpc hm hi =>
    simp only [hpc, Threads.compareTurn, MonitorPc.left]
    omega
  | copy hpc =>
    simp only [hpc, Threads.copy, MonitorPc.left]
    omega
  | monitorWait hpc | enter hpc | decideCompare hpc | skipCompare hpc | fetch hpc
  | lockCompare hpc | compared hpc | unlockCompare hpc | decideCopy hpc | skipCopy hpc
  | lockCopy hpc | unlockCopy hpc | mark hpc =>
    simp only [hpc, MonitorPc.left]
    omega
  | joinRealTime hpc | joinMonitor hpc | close _ hpc =>
    simp only [hpc, MainPc.left]
    omega

/-- Whether the loops' turns under way still show an observer a step of this kind. -/
def RealTimePc.owes (kind : PointerKind) : RealTimePc → Nat
  | .testing | .unlocking | .finished => 0
  | _ => if kind = .cycle then 1 else 0

def MonitorPc.owes (kind : PointerKind) : MonitorPc → Nat
  | .testing | .finished | .marking | .unlockingCopy => 0
  | .copying | .lockingCopy | .rechecking | .unlockingCompare => if kind = .copy then 1 else 0
  | .comparing _ _ _ | .lockingCompare _ => if kind = .copy ∨ kind = .compare then 1 else 0
  | _ => if kind = .cycle then 0 else 1

def Threads.owes (kind : PointerKind) (s : Threads) : Nat := s.rt.owes kind + s.monitor.owes kind

/-- Each thread owes steps of other kinds. -/
theorem Threads.owes_le_one (kind : PointerKind) (s : Threads) : s.owes kind ≤ 1 := by
  have hrt : s.rt.owes kind ≤ if kind = .cycle then 1 else 0 := by
    cases s.rt with
    | testing | unlocking | finished => exact Nat.zero_le _
    | _ => exact Nat.le_refl _
  have hmonitor : s.monitor.owes kind ≤ if kind = .cycle then 0 else 1 := by
    cases s.monitor with
    | testing | finished | marking | unlockingCopy => exact Nat.zero_le _
    | copying | lockingCopy | rechecking | unlockingCompare | comparing | lockingCompare =>
      cases kind with
      | _ => simp [MonitorPc.owes]
    | _ => exact Nat.le_refl _
  unfold Threads.owes
  split at hrt
  · rw [if_pos ‹_›] at hmonitor
    omega
  · rw [if_neg ‹_›] at hmonitor
    omega

/-- Once the flag is cleared, no turn begins any more, so what is shown was owed. -/
theorem ThreadStep.owes_le (hstep : ThreadStep sin fresh threshold s a s')
    (hflag : s.runThreads = false) (kind : PointerKind) :
    a.observed.count kind + s'.owes kind ≤ s.owes kind := by
  unfold Threads.owes
  cases hstep with
  | rtTest hpc =>
    simp only [hpc, hflag, Bool.false_eq_true, if_false]
    exact Nat.le_of_eq (Nat.zero_add _)
  | monitorTest hpc =>
    simp only [hpc, hflag, Bool.false_eq_true, if_false]
    exact Nat.le_of_eq (Nat.zero_add _)
  | packTurn hpc hi =>
    simp only [hpc, Threads.packTurn, ThreadAction.observed, List.count_nil]
    split
    · exact Nat.le_of_eq (Nat.zero_add _)
    · exact Nat.le_of_eq (Nat.zero_add _)
  | attempt reply hpc =>
    simp only [hpc, Threads.attempt, ThreadAction.observed, List.count_nil]
    split
    · exact Nat.le_of_eq (Nat.zero_add _)
    · split
      · exact Nat.le_of_eq (Nat.zero_add _)
      · exact Nat.le_of_eq (Nat.zero_add _)
  | swapPrev hpc =>
    simp only [hpc, RealTimePc.owes]
    cases kind with
    | _ => simp [ThreadAction.observed]
  | rtWait hpc | rtLock hpc | packed hpc | serve _ hpc | save hpc | swapThis hpc
  | rtUnlock hpc | command _ hpc =>
    simp only [hpc, ThreadAction.observed, List.count_nil]
    exact Nat.le_of_eq (Nat.zero_add _)
  | monitorWait hpc | enter hpc | decideCompare hpc | skipCompare hpc | fetch hpc
  | lockCompare hpc | compared hpc | unlockCompare hpc | decideCopy hpc | skipCopy hpc
  | lockCopy hpc | unlockCopy hpc | mark hpc =>
    simp only [hpc, MonitorPc.owes]
    cases kind with
    | _ => simp [ThreadAction.observed, Nat.add_comm]
  | compareTurn hpc hm hi =>
    simp only [hpc, ThreadAction.observed, List.count_nil]
    exact Nat.le_of_eq (Nat.zero_add _)
  | copy hpc hm =>
    simp only [hpc, Threads.copy, MonitorPc.owes]
    cases kind with
    | _ => simp [ThreadAction.observed, Nat.add_comm]
  | readTarget | readAmplitude | clear | joinRealTime | joinMonitor | close =>
    exact Nat.le_of_eq (Nat.zero_add _)

/-! ## Nobody waits for ever -/

/-- A call of `monitorChanges` runs with its statics initialised. -/
theorem MonitorPc.View.entered {statics : Option Monitor} {printed : List (Nat × BitVec 32)}
    {t : PointerSystem} {pc : MonitorPc} (h : pc.View fresh threshold statics printed t) :
    pc = .testing ∨ pc = .waiting ∨ pc = .entering ∨ pc = .finished ∨ ∃ m, statics = some m := by
  cases pc with
  | testing | waiting | entering | finished => simp
  | deciding => exact Or.inr (Or.inr (Or.inr (Or.inr ⟨_, h.2.1⟩)))
  | fetching => exact Or.inr (Or.inr (Or.inr (Or.inr ⟨_, h.2.1⟩)))
  | lockingCompare | unlockingCompare | rechecking =>
    obtain ⟨_, _, m, hm, _⟩ := h
    exact Or.inr (Or.inr (Or.inr (Or.inr ⟨m, hm⟩)))
  | comparing =>
    obtain ⟨_, m, _, hm, _⟩ := h
    exact Or.inr (Or.inr (Or.inr (Or.inr ⟨m, hm⟩)))
  | lockingCopy | copying =>
    obtain ⟨_, _, _, m, hm, _⟩ := h
    exact Or.inr (Or.inr (Or.inr (Or.inr ⟨m, hm⟩)))
  | unlockingCopy | marking =>
    obtain ⟨_, _, m, hm, _⟩ := h
    exact Or.inr (Or.inr (Or.inr (Or.inr ⟨m, hm⟩)))

/-- The real-time thread can go on, unless it has to wait for the mutex. -/
theorem Reached.realTime_goesOn (h : Reached sin fresh threshold s) (hrt : s.rt ≠ .finished)
    (hfree : ¬ s.rt.Inside → s.mutex = none) :
    ∃ a s', ThreadStep sin fresh threshold s a s' := by
  cases hpc : s.rt with
  | testing => exact ⟨_, _, .rtTest hpc⟩
  | waiting => exact ⟨_, _, .rtWait hpc⟩
  | locking => exact ⟨_, _, .rtLock hpc (hfree (by rw [hpc]; exact fun h => h))⟩
  | packing i slot =>
    by_cases hi : i < s.driver.numHandles
    · exact ⟨_, _, .packTurn hpc hi⟩
    · exact ⟨_, _, .packed hpc hi⟩
  | commanding i slot => exact ⟨_, _, .command ⟨0, 0⟩ hpc⟩
  | exchanging i => exact ⟨_, _, .attempt none hpc⟩
  | serving =>
    have hr : s.oob.tx true (-1) = some ⟨s.oob, [], false⟩ :=
      tx_not_ready (by rw [h.mailbox]; simp [EthercatOobCom.new]) true (-1)
    exact ⟨_, _, .serve (-1) hpc hr⟩
  | saving => exact ⟨_, _, .save hpc⟩
  | swappingThis tmp => exact ⟨_, _, .swapThis hpc⟩
  | swappingPrev tmp => exact ⟨_, _, .swapPrev hpc⟩
  | unlocking => exact ⟨_, _, .rtUnlock hpc⟩
  | finished => exact absurd hpc hrt

theorem Reached.monitor_goesOn (h : Reached sin fresh threshold s)
    (hmonitor : s.monitor ≠ .finished) (hfree : ¬ s.monitor.Inside → s.mutex = none) :
    ∃ a s', ThreadStep sin fresh threshold s a s' := by
  obtain ⟨t, hshows⟩ := h.shows
  have hentered := hshows.monitor.entered
  cases hpc : s.monitor with
  | testing => exact ⟨_, _, .monitorTest hpc⟩
  | waiting => exact ⟨_, _, .monitorWait hpc⟩
  | entering => exact ⟨_, _, .enter hpc⟩
  | deciding =>
    obtain ⟨m, hm⟩ : ∃ m, s.statics = some m := by simpa [hpc] using hentered
    by_cases hcompares : m.Compares s.driver
    · exact ⟨_, _, .decideCompare hpc hm hcompares⟩
    · exact ⟨_, _, .skipCompare hpc hm hcompares⟩
  | fetching => exact ⟨_, _, .fetch hpc⟩
  | lockingCompare p => exact ⟨_, _, .lockCompare hpc (hfree (by rw [hpc]; exact fun h => h))⟩
  | comparing i p b =>
    obtain ⟨m, hm⟩ : ∃ m, s.statics = some m := by simpa [hpc] using hentered
    by_cases hi : i < s.driver.numHandles
    · exact ⟨_, _, .compareTurn hpc hm hi⟩
    · exact ⟨_, _, .compared hpc hi⟩
  | unlockingCompare => exact ⟨_, _, .unlockCompare hpc⟩
  | rechecking =>
    by_cases hprev : s.driver.prevBuffer = NULL
    · exact ⟨_, _, .skipCopy hpc hprev⟩
    · exact ⟨_, _, .decideCopy hpc hprev⟩
  | lockingCopy => exact ⟨_, _, .lockCopy hpc (hfree (by rw [hpc]; exact fun h => h))⟩
  | copying =>
    obtain ⟨m, hm⟩ : ∃ m, s.statics = some m := by simpa [hpc] using hentered
    exact ⟨_, _, .copy hpc hm⟩
  | unlockingCopy => exact ⟨_, _, .unlockCopy hpc⟩
  | marking =>
    obtain ⟨m, hm⟩ : ∃ m, s.statics = some m := by simpa [hpc] using hentered
    exact ⟨_, _, .mark hpc hm⟩
  | finished => exact absurd hpc hmonitor

/-- The joins return once the threads have ended. -/
theorem main_goesOn (hmain : s.main.Stopping) (hnot : s.main ≠ .finished) (hrt : s.rt = .finished)
    (hmonitor : s.monitor = .finished) : ∃ a s', ThreadStep sin fresh threshold s a s' := by
  cases hpc : s.main with
  | readingTarget | readingAmplitude | clearing =>
    rw [hpc] at hmain
    exact hmain.elim
  | joiningRealTime => exact ⟨_, _, .joinRealTime hpc hrt⟩
  | joiningMonitor => exact ⟨_, _, .joinMonitor hpc hmonitor⟩
  | closing => exact ⟨_, _, .close (fun _ => true) hpc⟩
  | finished => exact absurd hpc hnot

/-- There is no deadlock: whoever holds the mutex can go on, and if nobody does,
whoever has not ended can. -/
theorem Reached.goesOn (h : Reached sin fresh threshold s) (hflag : s.runThreads = false)
    (hnot : s.main ≠ .finished) : ∃ a s', ThreadStep sin fresh threshold s a s' := by
  obtain ⟨t, hshows⟩ := h.shows
  have hlocked := hshows.locked
  cases hmutex : s.mutex with
  | none =>
    by_cases hrt : s.rt = .finished
    · by_cases hmonitor : s.monitor = .finished
      · exact main_goesOn (h.flag.mp hflag) hnot hrt hmonitor
      · exact h.monitor_goesOn hmonitor fun _ => hmutex
    · exact h.realTime_goesOn hrt fun _ => hmutex
  | some holder =>
    cases holder with
    | realTime =>
      have hin := hlocked.realTime.mpr hmutex
      exact h.realTime_goesOn (fun hdone => by rw [hdone] at hin; exact hin)
        fun hout => absurd hin hout
    | monitor =>
      have hin := hlocked.monitor.mpr hmutex
      exact h.monitor_goesOn (fun hdone => by rw [hdone] at hin; exact hin)
        fun hout => absurd hin hout

theorem windsDown (sin : Rat → Rat) (fresh : Area) (threshold : Int) :
    WindsDown (ThreadStep sin fresh threshold)
      (fun s => Reached sin fresh threshold s ∧ s.runThreads = false)
      (fun s => s.main = .finished) Threads.left where
  keeps _ _ _ h hstep := ⟨h.1.step hstep, hstep.flag_false h.2⟩
  falls _ _ _ h hstep := hstep.left_lt h.2 (h.1.flag.mp h.2)
  goesOn _ h hnot := h.1.goesOn h.2 hnot

end Stopping

/-- **Stopping.** Once `main` has cleared `__RUN_THREADS__`, the program takes at
most 46 + 3 n more steps over n handles, whatever the order, in which at most one
cycle, one comparison and one copy take effect; and it only comes to a halt
when both threads have ended, the mutex is free and `main` has shut the slaves
down. -/
theorem stops (sin : Rat → Rat) (fresh : Area) (threshold : Int) (env : StartupEnv)
    (as bs : List ThreadAction) (s t : Threads)
    (run : Run (ThreadStep sin fresh threshold) (Threads.start (started env)) as s)
    (hflag : s.runThreads = false) (run' : Run (ThreadStep sin fresh threshold) s bs t) :
    bs.length ≤ 46 + 3 * s.driver.numHandles ∧
      (∀ kind, (bs.flatMap ThreadAction.observed).count kind ≤ 1) ∧
      ((∀ a u, ¬ ThreadStep sin fresh threshold t a u) →
        t.main = .finished ∧ t.rt = .finished ∧ t.monitor = .finished ∧ t.mutex = none) := by
  have hs : Reached sin fresh threshold s := run.invariant (fun _ _ _ h hstep => h.step hstep)
    (reached_start sin fresh threshold (nullTogether_started env))
  have hdown := windsDown sin fresh threshold
  refine ⟨?_, ?_, ?_⟩
  · have hlength := hdown.length_le ⟨hs, hflag⟩ run'
    have hmain : s.main.left ≤ 3 := by
      have hstopping := hs.flag.mp hflag
      cases hpc : s.main with
      | readingTarget | readingAmplitude | clearing =>
        rw [hpc] at hstopping
        exact hstopping.elim
      | _ => simp [MainPc.left]
    have hrt := s.rt.left_le s.driver.numHandles
    have hmonitor := s.monitor.left_le s.driver.numHandles
    unfold Threads.left at hlength
    omega
  · intro kind
    have hsum := Run.sum_le hdown.keeps (fun _ _ _ h hstep => hstep.owes_le h.2 kind)
      ⟨hs, hflag⟩ run'
    have hone := s.owes_le_one kind
    rw [List.count_flatMap]
    show (bs.map fun a => a.observed.count kind).sum ≤ 1
    omega
  · intro hstuck
    have hmain : t.main = .finished := hdown.done ⟨hs, hflag⟩ run' hstuck
    obtain ⟨u, hshows⟩ := (run'.invariant hdown.keeps ⟨hs, hflag⟩).1.shows
    have hjoined := hshows.joined
    rw [hmain] at hjoined
    have hrt := hjoined.realTime trivial
    have hmonitor := hjoined.monitor trivial
    refine ⟨hmain, hrt, hmonitor, ?_⟩
    -- a thread that has ended holds nothing
    have hlocked := hshows.locked
    rw [hrt, hmonitor] at hlocked
    cases hmutex : t.mutex with
    | none => rfl
    | some holder =>
      cases holder with
      | realTime => exact (hlocked.realTime.mpr hmutex).elim
      | monitor => exact (hlocked.monitor.mpr hmutex).elim

/-- One board, stopped in the middle of a cycle, while the monitor waits for the
mutex to copy its first image. -/
def refusingBoardStopped : Threads :=
  { (Threads.start (started refusingBoard)).packTurn 0 (started refusingBoard).thisBuffer with
    globals := { Shared.initial with targetSlave := 0 }
    mutex := some .realTime
    statics := some (Monitor.enter none (started refusingBoard) fun _ => 0)
    runThreads := false
    monitor := .lockingCopy
    main := .joiningRealTime }

theorem refusingBoard_stops :
    Run (ThreadStep (fun _ => 0) (fun _ => 0) 1) (Threads.start (started refusingBoard))
        [.rtTest, .rtWait, .rtLock, .packTurn, .monitorTest, .monitorWait, .enter, .skipCompare,
          .decideCopy, .readTarget (some 0), .readAmplitude (some 0), .clear]
        refusingBoardStopped ∧
      ∃ t, Run (ThreadStep (fun _ => 0) (fun _ => 0) 1) refusingBoardStopped
          [.packed, .attempt (some fun _ => 0), .save, .swapThis, .swapPrev, .rtUnlock, .rtTest,
            .lockCopy, .copy, .unlockCopy, .mark, .monitorTest, .joinRealTime, .joinMonitor,
            .close fun _ => true] t ∧
        t.main = .finished ∧ 15 ≤ 46 + 3 * refusingBoardStopped.driver.numHandles := by
  have run3 : Run (ThreadStep (fun _ => 0) (fun _ => 0) 1)
      (Threads.start (started refusingBoard)) [.rtTest, .rtWait, .rtLock] _ :=
    ((Run.single (.rtTest rfl)).next (.rtWait rfl)).next (.rtLock rfl rfl)
  have run6 := ((run3.next (.packTurn rfl (by decide))).next (.monitorTest rfl)).next
    (.monitorWait rfl)
  have run9 := ((run6.next (.enter rfl)).next (.skipCompare rfl rfl fun h => nomatch h.1)).next
    (.decideCopy rfl (by decide))
  have run12 : Run (ThreadStep (fun _ => 0) (fun _ => 0) 1) _ _ refusingBoardStopped :=
    ((run9.next (.readTarget (some 0) rfl)).next (.readAmplitude (some 0) rfl)).next (.clear rfl)
  have stop1 : Run (ThreadStep (fun _ => 0) (fun _ => 0) 1) refusingBoardStopped [.packed] _ :=
    Run.single (.packed rfl (by decide))
  have stop3 := (stop1.next (.attempt (some fun _ => 0) rfl)).next (.save rfl)
  have stop7 := (((stop3.next (.swapThis rfl)).next (.swapPrev rfl)).next (.rtUnlock rfl)).next
    (.rtTest rfl)
  have stop11 := (((stop7.next (.lockCopy rfl rfl)).next (.copy rfl rfl)).next
    (.unlockCopy rfl)).next (.mark rfl rfl)
  have stop14 := ((stop11.next (.monitorTest rfl)).next (.joinRealTime rfl rfl)).next
    (.joinMonitor rfl rfl)
  have stop15 := stop14.next (.close (fun _ => true) rfl)
  exact ⟨run12, _, stop15, rfl, (stops _ _ _ refusingBoard _ _ _ _ run12 rfl stop15).1⟩

end Pr2Ethercat
