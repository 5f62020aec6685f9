import Pr2Ethercat.DrivenBoards
import Pr2Ethercat.Lib.Scanner
import Pr2Ethercat.Stopping

/-!
# What it takes to stop the program

The only way to stop the program is through the input loop of `main`, which
`scanf`s an amplitude after the other until one is not positive. The result of
`scanf` is not looked at. Where it reads no number the amplitude stays what it
was, and that is positive, so the loop goes on.

Here the threads run beside a terminal. Text is typed at any time, or the input
ends; `scanf` waits until it sees the end of a number, and takes no more off the
text than it has made use of. Without anything further typed the program can be
brought to clear `__RUN_THREADS__` exactly when a number that is not positive is
reached (`clears_iff`). But `scanf` leaves a character that no number begins with
where it is, and will find it there again: from then on the flag stays set
whatever is typed and however the threads run, and so it does at the end of the
input (`stuck_never_clears`).

What `%lf` reads is a rational number here. The `nan` and `inf` that it accepts
too are not represented, so nothing is said of texts in which it reads one.
-/

namespace Pr2Ethercat

open ByteArea Mesa

/-- The threads, and the terminal in front of `main`. -/
structure Console where
  threads : Threads
  /-- What has been typed and has not been read. -/
  unread : List Char
  /-- The end of the input has been reached. -/
  closed : Bool

/-- `main` after the two calls of `pthread_create`, before anything is typed. -/
def Console.start (d : Driver) : Console where
  threads := Threads.start d
  unread := []
  closed := false

inductive ConsoleAction where
  | type (text : List Char)
  | close
  | thread (a : ThreadAction)

/-- The steps that call `scanf`. -/
def ThreadAction.scans : ThreadAction → Bool
  | .readTarget _ | .readAmplitude _ => true
  | _ => false

section Step

variable (sin : Rat → Rat) (fresh : Area) (threshold : Int)
  (scanD : Scanner Char (BitVec 32)) (scanLf : Scanner Char Rat)

inductive ConsoleStep : Console → ConsoleAction → Console → Prop where
  | type {c : Console} (text : List Char) (hopen : c.closed = false) :
      ConsoleStep c (.type text) { c with unread := c.unread ++ text }
  | close {c : Console} : ConsoleStep c .close { c with closed := true }
  /-- `scanf("%d", &kul::target_slave)` -/
  | readTarget {c : Console} {s' : Threads} (hsees : scanD.Sees c.closed c.unread)
      (hstep : ThreadStep sin fresh threshold c.threads (.readTarget (scanD.scan c.unread).1) s') :
      ConsoleStep c (.thread (.readTarget (scanD.scan c.unread).1))
        { c with
          threads := s'
          unread := (scanD.scan c.unread).2 }
  /-- `scanf("%lf", &amplitude)`, and the rest of the turn. -/
  | readAmplitude {c : Console} {s' : Threads} (hsees : scanLf.Sees c.closed c.unread)
      (hstep : ThreadStep sin fresh threshold c.threads
        (.readAmplitude (scanLf.scan c.unread).1) s') :
      ConsoleStep c (.thread (.readAmplitude (scanLf.scan c.unread).1))
        { c with
          threads := s'
          unread := (scanLf.scan c.unread).2 }
  | thread {c : Console} {s' : Threads} {a : ThreadAction} (hother : a.scans = false)
      (hstep : ThreadStep sin fresh threshold c.threads a s') :
      ConsoleStep c (.thread a) { c with threads := s' }

/-- Nobody types. -/
def SilentStep (c : Console) (a : ThreadAction) (c' : Console) : Prop :=
  ConsoleStep sin fresh threshold scanD scanLf c (.thread a) c'

end Step

/-! ## What holds in every state -/

/-- The threads run while the flag is set, and in the input loop the local variable
of `main` is positive and has been passed on. -/
structure Awake (s : Threads) : Prop where
  realTime : s.runThreads = true → s.rt ≠ .finished
  monitor : s.runThreads = true → s.monitor ≠ .finished
  initial : s.main = .readingTarget → s.globals.currentAmplitude = Shared.initial.currentAmplitude
  amplitude : ∀ x, s.main = .readingAmplitude x → 0 < x ∧ s.globals.currentAmplitude = x

theorem awake_start (d : Driver) : Awake (Threads.start d) where
  realTime _ := by simp [Threads.start]
  monitor _ := by simp [Threads.start]
  initial _ := rfl
  amplitude _ hx := absurd hx (by simp [Threads.start])

section Threads

variable {sin : Rat → Rat} {fresh : Area} {threshold : Int} {s s' : Threads} {a : ThreadAction}

/-- **Step lemma.** -/
theorem Awake.step (h : Awake s) (hstep : ThreadStep sin fresh threshold s a s') : Awake s' := by
  cases hstep with
  | rtTest hpc =>
    refine ⟨fun hflag => ?_, h.monitor, h.initial, h.amplitude⟩
    rw [show s.runThreads = true from hflag]
    simp
  | monitorTest hpc =>
    refine ⟨h.realTime, fun hflag => ?_, h.initial, h.amplitude⟩
    rw [show s.runThreads = true from hflag]
    simp
  | packTurn hpc hi =>
    refine ⟨fun _ => ?_, h.monitor, h.initial, h.amplitude⟩
    exact iteInduction (motive := (· ≠ RealTimePc.finished)) (fun _ => by simp) fun _ => by simp
  | attempt reply hpc =>
    refine ⟨fun _ => ?_, h.monitor, h.initial, h.amplitude⟩
    refine iteInduction (motive := (· ≠ RealTimePc.finished)) (fun _ => by simp) fun _ => ?_
    exact iteInduction (motive := (· ≠ RealTimePc.finished)) (fun _ => by simp) fun _ => by simp
  | rtWait | rtLock | command | packed | serve | save | swapThis | swapPrev | rtUnlock =>
    refine ⟨fun _ => ?_, h.monitor, h.initial, h.amplitude⟩
    simp [Threads.command]
  | monitorWait | enter | decideCompare | skipCompare | fetch | lockCompare | compareTurn
  | compared | unlockCompare | decideCopy | skipCopy | lockCopy | copy | unlockCopy | mark =>
    refine ⟨h.realTime, fun _ => ?_, h.initial, h.amplitude⟩
    simp [Threads.compareTurn, Threads.copy]
  | readTarget input hpc =>
    refine ⟨h.realTime, h.monitor, fun hmain => absurd hmain (by simp), fun x hx => ?_⟩
    cases hx
    exact ⟨by norm_num, h.initial hpc⟩
  | @readAmplitude amplitude input hpc =>
    by_cases hpos : input.getD amplitude > 0
    · rw [readAmplitude_of_pos hpos]
      refine ⟨h.realTime, h.monitor, fun hmain => absurd hmain (by simp), fun x hx => ?_⟩
      cases hx
      exact ⟨hpos, rfl⟩
    · rw [readAmplitude_of_not_pos hpos]
      exact ⟨h.realTime, h.monitor, fun hmain => absurd hmain (by simp),
        fun x hx => absurd hx (by simp)⟩
  | clear hpc =>
    exact ⟨fun hflag => absurd hflag Bool.false_ne_true,
      fun hflag => absurd hflag Bool.false_ne_true, fun hmain => absurd hmain (by simp),
      fun x hx => absurd hx (by simp)⟩
  | joinRealTime | joinMonitor | close =>
    exact ⟨h.realTime, h.monitor, fun hmain => absurd hmain (by simp),
      fun x hx => absurd hx (by simp)⟩

/-- A step beside the input loop. -/
theorem ThreadStep.main_eq (hstep : ThreadStep sin fresh threshold s a s')
    (hother : a.scans = false) {x : Rat} (hmain : s.main = .readingAmplitude x) :
    s'.main = .readingAmplitude x ∧ s'.globals.targetSlave = s.globals.targetSlave := by
  cases hstep with
  | readTarget | readAmplitude => exact absurd hother (by simp [ThreadAction.scans])
  | clear hpc | joinRealTime hpc | joinMonitor hpc | close _ hpc =>
    rw [hmain] at hpc
    exact absurd hpc (by simp)
  | _ => exact ⟨hmain, rfl⟩

end Threads

section Console

variable {sin : Rat → Rat} {fresh : Area} {threshold : Int} {scanD : Scanner Char (BitVec 32)}
  {scanLf : Scanner Char Rat} {env : StartupEnv} {c c' : Console} {x : Rat}

/-- What the terminal adds changes nothing for the threads. -/
theorem ConsoleStep.threads {a : ConsoleAction}
    (hstep : ConsoleStep sin fresh threshold scanD scanLf c a c') :
    c'.threads = c.threads ∨ ∃ b, ThreadStep sin fresh threshold c.threads b c'.threads := by
  cases hstep with
  | type | close => exact Or.inl rfl
  | readTarget _ hstep | readAmplitude _ hstep | thread _ hstep => exact Or.inr ⟨_, hstep⟩

/-- The threads of every run. -/
def Running (sin : Rat → Rat) (fresh : Area) (threshold : Int) (c : Console) : Prop :=
  Reached sin fresh threshold c.threads ∧ Awake c.threads

theorem running_start : Running sin fresh threshold (Console.start (started env)) :=
  ⟨reached_start sin fresh threshold (nullTogether_started env), awake_start _⟩

theorem Running.step (h : Running sin fresh threshold c) {a : ConsoleAction}
    (hstep : ConsoleStep sin fresh threshold scanD scanLf c a c') :
    Running sin fresh threshold c' := by
  rcases hstep.threads with hsame | ⟨b, hthreads⟩
  · unfold Running
    rw [hsame]
    exact h
  · exact ⟨h.1.step hthreads, h.2.step hthreads⟩

/-- In the input loop the flag is set. -/
theorem Running.flag (h : Running sin fresh threshold c)
    (hmain : c.threads.main = .readingAmplitude x) : c.threads.runThreads = true := by
  by_contra hclear
  have hstopping := h.1.flag.mp (Bool.eq_false_of_not_eq_true hclear)
  rw [hmain] at hstopping
  exact hstopping

/-! ## The input loop -/

/-- `main` is in its input loop, and `scanf` finds nothing it can use. -/
structure StuckAt (scanLf : Scanner Char Rat) (c₀ : Console) (x : Rat) (c : Console) : Prop where
  main : c.threads.main = .readingAmplitude x
  target : c.threads.globals.targetSlave = c₀.threads.globals.targetSlave
  stuck : scanLf.Stuck c.unread
  sees : c.unread ≠ [] ∨ c.closed = true

/-- **Step lemma.** -/
theorem StuckAt.step {c₀ : Console} (h : StuckAt scanLf c₀ x c)
    (hrun : Running sin fresh threshold c) {a : ConsoleAction}
    (hstep : ConsoleStep sin fresh threshold scanD scanLf c a c') : StuckAt scanLf c₀ x c' := by
  obtain ⟨hmain, htarget, hstuck, hsees⟩ := h
  cases hstep with
  | type text hopen =>
    have hne : c.unread ≠ [] := by
      rcases hsees with hne | hclosed
      · exact hne
      · rw [hopen] at hclosed
        exact absurd hclosed Bool.false_ne_true
    exact ⟨hmain, htarget, hstuck.append hne text, Or.inl (List.append_ne_nil_of_left_ne_nil hne _)⟩
  | close => exact ⟨hmain, htarget, hstuck, Or.inr rfl⟩
  | readTarget _ hstep =>
    cases hstep with
    | readTarget _ hpc =>
      rw [hmain] at hpc
      exact absurd hpc (by simp)
  | readAmplitude _ hstep =>
    rw [hstuck] at hstep ⊢
    cases hstep with
    | readAmplitude _ hpc =>
      obtain rfl := MainPc.readingAmplitude.inj (hmain.symm.trans hpc)
      have hpos : (none : Option Rat).getD x > 0 := (hrun.2.amplitude x hmain).1
      rw [readAmplitude_of_pos hpos]
      exact ⟨rfl, htarget, hstuck, hsees⟩
  | thread hother hstep =>
    obtain ⟨hmain', htarget'⟩ := hstep.main_eq hother hmain
    exact ⟨hmain', htarget'.trans htarget, hstuck, hsees⟩

/-- `main` is in its input loop, and no number that is not positive is reached. -/
def Unreached (scanLf : Scanner Char Rat) (c : Console) : Prop :=
  (∃ x, c.threads.main = .readingAmplitude x) ∧
    ¬ scanLf.Reaches (· ≤ 0) c.closed c.unread

/-- **Step lemma.** -/
theorem Unreached.step (h : Unreached scanLf c) (hrun : Running sin fresh threshold c)
    {a : ThreadAction} (hstep : SilentStep sin fresh threshold scanD scanLf c a c') :
    Unreached scanLf c' := by
  obtain ⟨⟨x, hmain⟩, hnot⟩ := h
  cases hstep with
  | readTarget _ hstep =>
    cases hstep with
    | readTarget _ hpc =>
      rw [hmain] at hpc
      exact absurd hpc (by simp)
  | readAmplitude hsees hstep =>
    have hgo : ∀ q, (scanLf.scan c.unread).1 = some q → ¬ q ≤ 0 :=
      fun q hread hstop => hnot (.here hsees hread hstop)
    have hrest := fun h => hnot ((Scanner.reaches_iff hsees hgo).mpr h)
    cases hstep with
    | @readAmplitude amplitude _ hpc =>
      have hpos : (scanLf.scan c.unread).1.getD amplitude > 0 := by
        cases hread : (scanLf.scan c.unread).1 with
        | none => exact (hrun.2.amplitude _ hpc).1
        | some q => exact not_le.mp (hgo q hread)
      rw [readAmplitude_of_pos hpos]
      exact ⟨⟨_, rfl⟩, hrest⟩
  | thread hother hstep => exact ⟨⟨x, (hstep.main_eq hother hmain).1⟩, hnot⟩

/-- `main` alone gets to the number that is reached, and clears the flag. -/
theorem exists_clear {closed : Bool} {text : List Char}
    (h : scanLf.Reaches (· ≤ 0) closed text) :
    ∀ (c : Console) (x : Rat), c.unread = text → c.closed = closed →
      c.threads.main = .readingAmplitude x → 0 < x →
        ∃ as c', Run (SilentStep sin fresh threshold scanD scanLf) c as c' ∧
          c'.threads.runThreads = false := by
  induction h with
  | here sees hread hstop =>
    rintro c x rfl rfl hmain _
    have hnot : ¬ (scanLf.scan c.unread).1.getD x > 0 := by
      rw [hread]
      exact not_lt.mpr hstop
    have hstep : ThreadStep sin fresh threshold c.threads _ _ :=
      .readAmplitude (scanLf.scan c.unread).1 hmain
    rw [readAmplitude_of_not_pos hnot] at hstep
    exact ⟨_, _, (Run.single (.readAmplitude sees hstep)).next (.thread rfl (.clear rfl)), rfl⟩
  | later sees hgo rest ih =>
    rintro c x rfl rfl hmain hx
    have hpos : (scanLf.scan c.unread).1.getD x > 0 := by
      cases hread : (scanLf.scan c.unread).1 with
      | none => exact hx
      | some q => exact not_le.mp (hgo q hread)
    have hstep : ThreadStep sin fresh threshold c.threads _ _ :=
      .readAmplitude (scanLf.scan c.unread).1 hmain
    rw [readAmplitude_of_pos hpos] at hstep
    obtain ⟨as, c', run, hclear⟩ := ih
      { c with
        threads :=
          { c.threads with
            globals :=
              { c.threads.globals with currentAmplitude := (scanLf.scan c.unread).1.getD x }
            main := .readingAmplitude ((scanLf.scan c.unread).1.getD x) }
        unread := (scanLf.scan c.unread).2 } _ rfl rfl rfl hpos
    exact ⟨_, c', (Run.single (.readAmplitude sees hstep)).append run, hclear⟩

end Console

/-- **What stops the program.** In every run from start-up on and at any moment of
the input loop: without anything further typed the threads can be run on to a
state in which `__RUN_THREADS__` is cleared if and only if `scanf` reaches a
number that is not positive. -/
theorem clears_iff (sin : Rat → Rat) (fresh : Area) (threshold : Int) (env : StartupEnv)
    (scanD : Scanner Char (BitVec 32)) (scanLf : Scanner Char Rat) (as : List ConsoleAction)
    (c : Console) (x : Rat)
    (run : Run (ConsoleStep sin fresh threshold scanD scanLf) (Console.start (started env)) as c)
    (hmain : c.threads.main = .readingAmplitude x) :
    (∃ as' c', Run (SilentStep sin fresh threshold scanD scanLf) c as' c' ∧
        c'.threads.runThreads = false) ↔
      scanLf.Reaches (· ≤ 0) c.closed c.unread := by
  have hrun : Running sin fresh threshold c :=
    run.invariant (fun _ _ _ h hstep => h.step hstep) running_start
  constructor
  · rintro ⟨as', c', run', hclear⟩
    by_contra hnot
    have hkeeps : ∀ (s : Console) (a : ThreadAction) (t : Console),
        Running sin fresh threshold s ∧ Unreached scanLf s →
        SilentStep sin fresh threshold scanD scanLf s a t →
        Running sin fresh threshold t ∧ Unreached scanLf t :=
      fun s a t h hstep => ⟨h.1.step hstep, h.2.step h.1 hstep⟩
    obtain ⟨hrun', ⟨y, hmain'⟩, _⟩ := run'.invariant hkeeps ⟨hrun, ⟨⟨x, hmain⟩, hnot⟩⟩
    rw [hrun'.flag hmain'] at hclear
    exact absurd hclear (by simp)
  · intro hreaches
    exact exists_clear hreaches c x rfl rfl hmain (hrun.2.amplitude x hmain).1

/-- The number that decimal digits stand for. -/
def decimal (digits : List Char) : Nat := digits.foldl (fun n c => 10 * n + (c.toNat - 48)) 0

/-- `%d` and `%lf`, on numbers written in decimal digits only. -/
def wholeD : Scanner Char (BitVec 32) := .digits fun ds => BitVec.ofNat 32 (decimal ds)

def wholeLf : Scanner Char Rat := .digits fun ds => (decimal ds : Rat)

/-- The board has been chosen, and this is still to be read. -/
def boardChosen (unread : List Char) : Console where
  threads :=
    { Threads.start (started refusingBoard) with
      globals := { Shared.initial with targetSlave := 0 }
      main := .readingAmplitude 10 }
  unread := unread
  closed := false

/-- Board 0 is chosen, and 0 typed as the amplitude. -/
theorem refusingBoard_clears :
    ∃ as c, Run (SilentStep (fun _ => 0) (fun _ => 0) 1 wholeD wholeLf)
      (boardChosen [' ', '0', ' ']) as c ∧ c.threads.runThreads = false := by
  have run : Run (ConsoleStep (fun _ => 0) (fun _ => 0) 1 wholeD wholeLf)
      (Console.start (started refusingBoard))
      [.type ['0', ' ', '0', ' '], .thread (.readTarget (some 0))]
      (boardChosen [' ', '0', ' ']) :=
    (Run.single (.type _ rfl)).next
      (.readTarget (Or.inl (by decide)) (.readTarget (some 0) rfl))
  have hread : (wholeLf.scan [' ', '0', ' ']).1 = some 0 := rfl
  exact (clears_iff _ _ _ refusingBoard wholeD wholeLf _ _ 10 run rfl).mpr
    (.here (Or.inl (by decide)) hread le_rfl)

/-- **What no longer does.** If `scanf` is stuck in the input loop, at a character
it leaves alone or at the end of the input, then whatever is typed from then on
and however the threads run, the flag stays set, neither thread ends, and the
same board is driven with the same amplitude. -/
theorem stuck_never_clears (sin : Rat → Rat) (fresh : Area) (threshold : Int) (env : StartupEnv)
    (scanD : Scanner Char (BitVec 32)) (scanLf : Scanner Char Rat) (as as' : List ConsoleAction)
    (c c' : Console) (x : Rat)
    (run : Run (ConsoleStep sin fresh threshold scanD scanLf) (Console.start (started env)) as c)
    (hmain : c.threads.main = .readingAmplitude x) (hstuck : scanLf.Stuck c.unread)
    (hsees : c.unread ≠ [] ∨ c.closed = true)
    (run' : Run (ConsoleStep sin fresh threshold scanD scanLf) c as' c') :
    c'.threads.runThreads = true ∧ c'.threads.rt ≠ .finished ∧ c'.threads.monitor ≠ .finished ∧
      c'.threads.main = .readingAmplitude x ∧
      c'.threads.globals.targetSlave = c.threads.globals.targetSlave ∧
      c'.threads.globals.currentAmplitude = c.threads.globals.currentAmplitude := by
  have hrun : Running sin fresh threshold c :=
    run.invariant (fun _ _ _ h hstep => h.step hstep) running_start
  have hkeeps : ∀ (s : Console) (a : ConsoleAction) (t : Console),
      Running sin fresh threshold s ∧ StuckAt scanLf c x s →
      ConsoleStep sin fresh threshold scanD scanLf s a t →
      Running sin fresh threshold t ∧ StuckAt scanLf c x t :=
    fun s a t h hstep => ⟨h.1.step hstep, h.2.step h.1 hstep⟩
  obtain ⟨hrun', hmain', htarget, _, _⟩ :=
    run'.invariant hkeeps ⟨hrun, hmain, rfl, hstuck, hsees⟩
  have hflag := hrun'.flag hmain'
  refine ⟨hflag, hrun'.2.realTime hflag, hrun'.2.monitor hflag, hmain', htarget, ?_⟩
  rw [(hrun'.2.amplitude x hmain').2, (hrun.2.amplitude x hmain).2]

/-- Board 0 is chosen, and a letter typed; a 0 that comes later is not read. -/
theorem refusingBoard_never_clears :
    ∃ c, Run (ConsoleStep (fun _ => 0) (fun _ => 0) 1 wholeD wholeLf) (boardChosen ['q'])
        [.type [' ', '0', ' '], .thread (.readAmplitude none)] c ∧
      c.threads.runThreads = true ∧ c.threads.main = .readingAmplitude 10 := by
  have run : Run (ConsoleStep (fun _ => 0) (fun _ => 0) 1 wholeD wholeLf)
      (Console.start (started refusingBoard))
      [.type ['0', 'q'], .thread (.readTarget (some 0))] (boardChosen ['q']) :=
    (Run.single (.type _ rfl)).next
      (.readTarget (Or.inl (by decide)) (.readTarget (some 0) rfl))
  have run' : Run (ConsoleStep (fun _ => 0) (fun _ => 0) 1 wholeD wholeLf) (boardChosen ['q'])
      [.type [' ', '0', ' '], .thread (.readAmplitude none)] _ :=
    (Run.single (.type _ rfl)).next
      (.readAmplitude (Or.inl (by decide)) (.readAmplitude none rfl))
  have hstuck := stuck_never_clears _ _ _ refusingBoard wholeD wholeLf _ _ _ _ 10 run rfl rfl
    (Or.inl (by decide)) run'
  exact ⟨_, run', hstuck.1, hstuck.2.2.2.1⟩

end Pr2Ethercat
