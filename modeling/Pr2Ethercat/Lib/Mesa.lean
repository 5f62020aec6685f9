import Mathlib.Data.List.Basic

/-!
# Threads around a mutex with condition variables

The mutex-protected sections of a program run one at a time, so a concurrent
program whose shared state is only touched under one mutex is a labelled
transition system: an action is one section, from getting the mutex to giving
it back by `unlock` or `pthread_cond_wait`.

Between two sections a thread is at one of four places (`Pc`). The condition
variables are the ones POSIX gives: a signal wakes *at least* one thread that
is blocked on the variable, if there is one (`Signals`), and a thread may wake
up without a signal, which is an action of the system that uses this file. A
woken thread has to get the mutex again before it runs, so any number of other
sections may run in between.

`Run` is a finite run of a labelled transition system with the list of its
actions, `Run.invariant` the rule that a property of the first state that
every step preserves holds of the last. Where a run has to cope with whatever the
environment answers, `Answered` says that each of its actions gets an answer of
its own.
-/

namespace Mesa

/-! ## Runs -/

section Runs

variable {σ α : Type*} {Step : σ → α → σ → Prop}

/-- `Run Step s as t`: the actions `as`, one after the other, lead from `s` to `t`. -/
inductive Run (Step : σ → α → σ → Prop) (s : σ) : List α → σ → Prop where
  | start : Run Step s [] s
  | next {as : List α} {t u : σ} {a : α} (run : Run Step s as t) (step : Step t a u) :
      Run Step s (as ++ [a]) u

theorem Run.invariant {Inv : σ → Prop} (hstep : ∀ s a t, Inv s → Step s a t → Inv t)
    {s t : σ} {as : List α} (hs : Inv s) (run : Run Step s as t) : Inv t := by
  induction run with
  | start => exact hs
  | next _ step ih => exact hstep _ _ _ ih step

theorem Run.single {s t : σ} {a : α} (step : Step s a t) : Run Step s [a] t :=
  Run.next Run.start step

theorem Run.append {s t u : σ} {as bs : List α} (hst : Run Step s as t) (htu : Run Step t bs u) :
    Run Step s (as ++ bs) u := by
  induction htu with
  | start =>
    rw [List.append_nil]
    exact hst
  | next _ step ih =>
    rw [← List.append_assoc]
    exact Run.next ih step

end Runs

/-! ## Answers from the environment -/

section Answers

variable {α β : Type*} {ok : β → α → Prop} {answers : Nat → β} {as bs : List α}

/-- The environment answers `answers 0, answers 1, …` to the actions, one after the
other, and each action is `ok` with its answer. -/
def Answered (ok : β → α → Prop) (answers : Nat → β) (as : List α) : Prop :=
  ∀ (k : Nat) (hk : k < as.length), ok (answers k) as[k]

theorem Answered.nil : Answered ok answers [] := fun _ hk => absurd hk (Nat.not_lt_zero _)

theorem Answered.single {a : α} (h : ok (answers 0) a) : Answered ok answers [a] := by
  intro k hk
  obtain rfl : k = 0 := Nat.lt_one_iff.mp hk
  exact h

/-- The actions behind get the answers behind. -/
theorem Answered.append (has : Answered ok answers as)
    (hbs : Answered ok (fun k => answers (as.length + k)) bs) :
    Answered ok answers (as ++ bs) := by
  intro k hk
  rw [List.getElem_append]
  split
  next hlt => exact has k hlt
  next hge =>
    rw [List.length_append] at hk
    have hsum : as.length + (k - as.length) = k := by omega
    have hb : ok (answers (as.length + (k - as.length))) _ := hbs (k - as.length) (by omega)
    rw [hsum] at hb
    exact hb

/-- The same actions in a system around this one. -/
theorem Answered.map {γ : Type*} {ok' : β → γ → Prop} {f : α → γ} (h : Answered ok answers as)
    (hok : ∀ answer a, ok answer a → ok' answer (f a)) : Answered ok' answers (as.map f) := by
  intro k hk
  rw [List.getElem_map]
  exact hok _ _ (h k (by simpa using hk))

theorem Answered.mem (h : Answered ok answers as) {a : α} (ha : a ∈ as) :
    ∃ answer, ok answer a := by
  obtain ⟨k, hk, rfl⟩ := List.getElem_of_mem ha
  exact ⟨answers k, h k hk⟩

end Answers

/-! ## Threads -/

/-- Where a thread is while it does not hold the mutex. `κ` are the condition
variables, `ℓ` is what the thread remembers until its call is over. -/
inductive Pc (κ ℓ : Type*) where
  /-- Not in a call. -/
  | outside
  /-- Called, and waiting for the mutex. -/
  | entering (l : ℓ)
  /-- In `pthread_cond_wait` on `c`. -/
  | blocked (c : κ) (l : ℓ)
  /-- Woken up from `c`, and waiting for the mutex. -/
  | woken (c : κ) (l : ℓ)
  deriving DecidableEq, Repr

variable {ι κ ℓ : Type*}

/-- What the thread remembers of its call. -/
def Pc.local? : Pc κ ℓ → Option ℓ
  | outside => none
  | entering l => some l
  | blocked _ l => some l
  | woken _ l => some l

/-- The thread is in its wait on `c`: it has not run since. -/
def Pc.WaitsOn (c : κ) : Pc κ ℓ → Prop
  | outside => False
  | entering _ => False
  | blocked d _ => d = c
  | woken d _ => d = c

@[simp] theorem Pc.local?_outside : (outside : Pc κ ℓ).local? = none := rfl
@[simp] theorem Pc.local?_entering (l : ℓ) : (entering l : Pc κ ℓ).local? = some l := rfl
@[simp] theorem Pc.local?_blocked (c : κ) (l : ℓ) : (blocked c l).local? = some l := rfl
@[simp] theorem Pc.local?_woken (c : κ) (l : ℓ) : (woken c l).local? = some l := rfl
@[simp] theorem Pc.not_waitsOn_outside (c : κ) : ¬ (outside : Pc κ ℓ).WaitsOn c := fun h => h
@[simp] theorem Pc.not_waitsOn_entering (c : κ) (l : ℓ) : ¬ (entering l : Pc κ ℓ).WaitsOn c :=
  fun h => h
@[simp] theorem Pc.waitsOn_blocked (c d : κ) (l : ℓ) : (blocked d l).WaitsOn c ↔ d = c := Iff.rfl
@[simp] theorem Pc.waitsOn_woken (c d : κ) (l : ℓ) : (woken d l).WaitsOn c ↔ d = c := Iff.rfl

/-- A waiting thread is blocked or has been woken. -/
theorem Pc.WaitsOn.cases {c : κ} {p : Pc κ ℓ} (h : p.WaitsOn c) :
    ∃ l, p = .blocked c l ∨ p = .woken c l := by
  cases p with
  | outside => exact absurd h (not_waitsOn_outside c)
  | entering l => exact absurd h (not_waitsOn_entering c l)
  | blocked d l =>
    obtain rfl := (waitsOn_blocked c d l).mp h
    exact ⟨l, Or.inl rfl⟩
  | woken d l =>
    obtain rfl := (waitsOn_woken c d l).mp h
    exact ⟨l, Or.inr rfl⟩

/-! ## Signals -/

/-- `pthread_cond_signal(&c)` may change where the threads are from `p` to `p'`. -/
structure Signals (c : κ) (p p' : ι → Pc κ ℓ) : Prop where
  moves : ∀ t, p' t = p t ∨ ∃ l, p t = .blocked c l ∧ p' t = .woken c l
  wakes : (∃ t l, p t = .blocked c l) → ∃ t l, p t = .blocked c l ∧ p' t = .woken c l

/-- The place of a thread after everything blocked on `c` was woken. -/
def Pc.wake [DecidableEq κ] (c : κ) : Pc κ ℓ → Pc κ ℓ
  | blocked d l => if d = c then woken d l else blocked d l
  | p => p

@[simp] theorem Pc.wake_entering [DecidableEq κ] (c : κ) (l : ℓ) :
    (entering l : Pc κ ℓ).wake c = .entering l := rfl

@[simp] theorem Pc.wake_woken [DecidableEq κ] (c d : κ) (l : ℓ) :
    (woken d l).wake c = .woken d l := rfl

@[simp] theorem Pc.wake_blocked [DecidableEq κ] (c : κ) (l : ℓ) :
    (blocked c l).wake c = .woken c l := if_pos rfl

theorem Pc.wake_of_not_waitsOn [DecidableEq κ] {c : κ} {p : Pc κ ℓ} (h : ¬ p.WaitsOn c) :
    p.wake c = p := by
  cases p with
  | outside => rfl
  | entering l => rfl
  | blocked d l => exact if_neg h
  | woken d l => rfl

/-- Waking every blocked thread is one of the things a signal may do. -/
theorem Signals.wake_all [DecidableEq κ] (c : κ) (p : ι → Pc κ ℓ) :
    Signals c p fun t => (p t).wake c := by
  constructor
  · intro t
    cases hp : p t with
    | outside => exact Or.inl rfl
    | entering l => exact Or.inl rfl
    | woken d l => exact Or.inl rfl
    | blocked d l =>
      by_cases hd : d = c
      · subst hd
        exact Or.inr ⟨l, rfl, Pc.wake_blocked d l⟩
      · exact Or.inl (Pc.wake_of_not_waitsOn hd)
  · intro ⟨t, l, h⟩
    refine ⟨t, l, h, ?_⟩
    show (p t).wake c = _
    rw [h, Pc.wake_blocked]

section Facts

variable {c : κ} {p p' : ι → Pc κ ℓ}

theorem Signals.local?_eq (h : Signals c p p') (t : ι) : (p' t).local? = (p t).local? := by
  rcases h.moves t with same | ⟨l, hp, hp'⟩
  · rw [same]
  · rw [hp, hp', Pc.local?_blocked, Pc.local?_woken]

theorem Signals.waitsOn_iff (h : Signals c p p') (d : κ) (t : ι) :
    (p' t).WaitsOn d ↔ (p t).WaitsOn d := by
  rcases h.moves t with same | ⟨l, hp, hp'⟩
  · rw [same]
  · rw [hp, hp', Pc.waitsOn_blocked, Pc.waitsOn_woken]

/-- A signal blocks nobody. -/
theorem Signals.blocked {d : κ} {l : ℓ} {t : ι} (h : Signals c p p')
    (hb : p' t = .blocked d l) : p t = .blocked d l := by
  rcases h.moves t with same | ⟨l', _, hp'⟩
  · rw [← same]
    exact hb
  · rw [hp'] at hb
    exact absurd hb (by simp)

/-- If a thread is still blocked after the signal, another one was woken. -/
theorem Signals.some_woken (h : Signals c p p') (hb : ∃ t l, p' t = .blocked c l) :
    ∃ t l, p' t = .woken c l := by
  obtain ⟨t, l, ht⟩ := hb
  obtain ⟨u, k, _, hu⟩ := h.wakes ⟨t, l, h.blocked ht⟩
  exact ⟨u, k, hu⟩

/-- A signal reaches the only thread that waits. -/
theorem Signals.none_blocked {t : ι} (h : Signals c p p')
    (only : ∀ u, (p u).WaitsOn c → u = t) (u : ι) (l : ℓ) : p' u ≠ .blocked c l := by
  intro hu
  have hpu := h.blocked hu
  -- somebody was woken, and it can only have been `t`
  obtain ⟨v, k, hpv, hv⟩ := h.wakes ⟨u, l, hpu⟩
  have hut : u = t := only u (by rw [hpu]; exact rfl)
  have hvt : v = t := only v (by rw [hpv]; exact rfl)
  rw [hut, ← hvt, hv] at hu
  exact absurd hu (by simp)

end Facts

end Mesa
