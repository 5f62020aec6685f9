import Mathlib.Data.List.Basic

/-!
# Retrying until the first success

`for (i = 0; i < tries && !success; ++i) success = attempt();` tries an
operation at most `tries` times and stops at the first success. Which attempt
succeeds is decided outside the program, so the outcomes are a stream
`Nat → Option α`: `none` for a failed attempt, `some a` for one that succeeded
and brought back `a`.

`firstSome` is the result of such a loop and `attemptsMade` the number of
times its body ran. `firstSome_eq_none_iff` is the fact callers need most: the
loop fails exactly when every one of its attempts does.
-/

namespace Retry

variable {α : Type*}

/-- What the first successful attempt among attempts `i, i + 1, …` brings
back, with `tries` attempts left. -/
def firstSome (outcome : Nat → Option α) : (tries i : Nat) → Option α
  | 0, _ => none
  | tries + 1, i =>
    match outcome i with
    | some a => some a
    | none => firstSome outcome tries (i + 1)

/-- How often the body of the loop runs. -/
def attemptsMade (outcome : Nat → Option α) : (tries i : Nat) → Nat
  | 0, _ => 0
  | tries + 1, i =>
    match outcome i with
    | some _ => 1
    | none => attemptsMade outcome tries (i + 1) + 1

theorem firstSome_eq_none_iff {outcome : Nat → Option α} :
    ∀ {tries i : Nat},
      firstSome outcome tries i = none ↔ ∀ j, j < tries → outcome (i + j) = none
  | 0, _ => by simp [firstSome]
  | tries + 1, i => by
    have ih : firstSome outcome tries (i + 1) = none ↔
        ∀ j, j < tries → outcome (i + 1 + j) = none := firstSome_eq_none_iff
    unfold firstSome
    cases hi : outcome i with
    | some a =>
      -- both sides are false: attempt `i` is among those that would have to fail
      refine ⟨fun h => absurd h (by simp), fun h => ?_⟩
      have h0 := h 0 (Nat.succ_pos tries)
      rw [Nat.add_zero, hi] at h0
      exact h0
    | none =>
      -- the attempts left start at `i + 1`, so their offsets shift by one
      refine ih.trans ⟨fun h j hj => ?_, fun h j hj => ?_⟩
      · cases j with
        | zero => exact hi
        | succ j =>
          rw [show i + (j + 1) = i + 1 + j by omega]
          exact h j (Nat.lt_of_succ_lt_succ hj)
      · rw [show i + 1 + j = i + (j + 1) by omega]
        exact h (j + 1) (Nat.succ_lt_succ hj)

/-- The same for a whole loop. -/
theorem firstSome_zero_eq_none_iff {outcome : Nat → Option α} {tries : Nat} :
    firstSome outcome tries 0 = none ↔ ∀ j, j < tries → outcome j = none := by
  have h : firstSome outcome tries 0 = none ↔ ∀ j, j < tries → outcome (0 + j) = none :=
    firstSome_eq_none_iff
  simpa only [Nat.zero_add] using h

/-- A value brought back comes from one of the attempts. -/
theorem exists_of_firstSome_eq_some {outcome : Nat → Option α} {a : α} :
    ∀ {tries i : Nat}, firstSome outcome tries i = some a →
      ∃ j, j < tries ∧ outcome (i + j) = some a
  | 0, _, h => absurd h (by simp [firstSome])
  | tries + 1, i, h => by
    unfold firstSome at h
    cases hi : outcome i with
    | some b =>
      rw [hi] at h
      exact ⟨0, Nat.succ_pos tries, by rw [Nat.add_zero, hi]; exact h⟩
    | none =>
      rw [hi] at h
      obtain ⟨j, hj, hout⟩ := exists_of_firstSome_eq_some h
      exact ⟨j + 1, Nat.succ_lt_succ hj, by rw [← hout]; congr 1; omega⟩

/-- With a try to spend, the body runs at least once. -/
theorem attemptsMade_pos (outcome : Nat → Option α) {tries : Nat} (h : 0 < tries) (i : Nat) :
    0 < attemptsMade outcome tries i := by
  cases tries with
  | zero => exact absurd h (Nat.lt_irrefl 0)
  | succ tries =>
    unfold attemptsMade
    split
    · exact Nat.one_pos
    · exact Nat.succ_pos _

end Retry
