import Mathlib.Algebra.GroupWithZero.Nat
import Pr2Ethercat.Lib.Mesa

/-!
# Rules about whole runs

Rules for labelled transition systems, on top of `Mesa.Run`.

A fine system *refines* a coarse one along a relation `R` if every fine step is
matched by a run of the coarse system that shows what an observer of the step is
told: nothing for an inner step, one thing or several for the others
(`Refines`). Then every run of the fine system is matched, with the same
observations in the same order (`Refines.run`).

A stretch of a run may stay `Within` some states, and an invariant of it may
depend on how often something has happened (`Run.invariant_countP`).

A system *winds down* if a number falls with every step and some step is
possible until the system is done (`WindsDown`). Its runs are no longer than
that number, and one that cannot go on is done. `Run.sum_le` is the count behind
it: what the steps of a run cost is paid from what is left.
-/

namespace Mesa

variable {σ τ α β ω : Type*}

/-! ## Refinement -/

/-- Every step of `Fine` is matched, along `R`, by a run of `Coarse` whose actions
are of the kinds that `observe` says of the step. -/
def Refines (Fine : σ → α → σ → Prop) (Coarse : τ → β → τ → Prop) (R : σ → τ → Prop)
    (observe : α → List ω) (kind : β → ω) : Prop :=
  ∀ s a s' t, R s t → Fine s a s' →
    ∃ bs t', Run Coarse t bs t' ∧ R s' t' ∧ bs.map kind = observe a

section Refinement

variable {Fine : σ → α → σ → Prop} {Coarse : τ → β → τ → Prop} {R : σ → τ → Prop}
  {observe : α → List ω} {kind : β → ω}

/-- **Run lemma.** -/
theorem Refines.run (h : Refines Fine Coarse R observe kind) {s s' : σ} {as : List α} {t : τ}
    (hst : R s t) (run : Run Fine s as s') :
    ∃ bs t', Run Coarse t bs t' ∧ R s' t' ∧ bs.map kind = as.flatMap observe := by
  induction run with
  | start => exact ⟨[], t, Run.start, hst, rfl⟩
  | next _ step ih =>
    obtain ⟨bs, u, hbs, hu, hkinds⟩ := ih
    obtain ⟨bs', u', hbs', hu', hkinds'⟩ := h _ _ _ _ hu step
    refine ⟨bs ++ bs', u', hbs.append hbs', hu', ?_⟩
    rw [List.map_append, List.flatMap_append, List.flatMap_singleton, hkinds, hkinds']

/-- A step that the coarse system does not see. -/
theorem matched_inner {s' : σ} {a : α} {t : τ} (hst : R s' t) (hnone : observe a = []) :
    ∃ bs t', Run Coarse t bs t' ∧ R s' t' ∧ bs.map kind = observe a :=
  ⟨[], t, Run.start, hst, hnone.symm⟩

/-- A step that is one step of the coarse system. -/
theorem matched_single {s' : σ} {a : α} {b : β} {t t' : τ} (step : Coarse t b t')
    (hst : R s' t') (hone : observe a = [kind b]) :
    ∃ bs t', Run Coarse t bs t' ∧ R s' t' ∧ bs.map kind = observe a :=
  ⟨[b], t', Run.single step, hst, hone.symm⟩

end Refinement

/-! ## Stretches of a run -/

section Stretch

variable {Step : σ → α → σ → Prop}

/-- The steps between states that satisfy `P`. -/
def Within (P : σ → Prop) (Step : σ → α → σ → Prop) (s : σ) (a : α) (t : σ) : Prop :=
  Step s a t ∧ P s ∧ P t

/-- An invariant may depend on how many actions of one kind there have been. -/
theorem Run.invariant_countP {p : α → Bool} {Inv : Nat → σ → Prop}
    (hstep : ∀ n s a t, Inv n s → Step s a t → Inv (if p a = true then n + 1 else n) t)
    {s t : σ} {as : List α} {n : Nat} (hs : Inv n s) (run : Run Step s as t) :
    Inv (n + as.countP p) t := by
  induction run with
  | start => exact hs
  | next _ step ih =>
    have hnext := hstep _ _ _ _ ih step
    rw [List.countP_append, List.countP_singleton]
    split at hnext
    next hp =>
      rw [if_pos hp]
      exact hnext
    next hp =>
      rw [if_neg hp]
      exact hnext

end Stretch

/-! ## Winding down -/

/-- If every step pays for itself out of `left`, so does a run. -/
theorem Run.sum_le {Step : σ → α → σ → Prop} {Inv : σ → Prop} {cost : α → Nat} {left : σ → Nat}
    (keeps : ∀ s a t, Inv s → Step s a t → Inv t)
    (pays : ∀ s a t, Inv s → Step s a t → cost a + left t ≤ left s) {s t : σ} {as : List α}
    (hs : Inv s) (run : Run Step s as t) : (as.map cost).sum + left t ≤ left s := by
  induction run with
  | start => exact Nat.le_of_eq (Nat.zero_add _)
  | next run step ih =>
    have hpays := pays _ _ _ (run.invariant keeps hs) step
    rw [List.map_append, List.sum_append, List.map_singleton, List.sum_singleton]
    omega

/-- In the states of `Inv`, which no step leaves, a step lowers `left`, and one is
possible unless the state is `Done`. -/
structure WindsDown (Step : σ → α → σ → Prop) (Inv Done : σ → Prop) (left : σ → Nat) : Prop where
  keeps : ∀ s a t, Inv s → Step s a t → Inv t
  falls : ∀ s a t, Inv s → Step s a t → left t < left s
  goesOn : ∀ s, Inv s → ¬ Done s → ∃ a t, Step s a t

section WindsDown

variable {Step : σ → α → σ → Prop} {Inv Done : σ → Prop} {left : σ → Nat}

theorem WindsDown.length_le (h : WindsDown Step Inv Done left) {s t : σ} {as : List α}
    (hs : Inv s) (run : Run Step s as t) : as.length + left t ≤ left s := by
  have hpays : ∀ s a t, Inv s → Step s a t → 1 + left t ≤ left s := by
    intro s a t hs step
    have hlt := h.falls s a t hs step
    omega
  simpa using Run.sum_le h.keeps hpays hs run

/-- A run that no step prolongs has reached a `Done` state. -/
theorem WindsDown.done (h : WindsDown Step Inv Done left) {s t : σ} {as : List α} (hs : Inv s)
    (run : Run Step s as t) (hstuck : ∀ a u, ¬ Step t a u) : Done t := by
  by_contra hdone
  obtain ⟨a, u, step⟩ := h.goesOn t (run.invariant h.keeps hs) hdone
  exact hstuck a u step

end WindsDown

end Mesa
