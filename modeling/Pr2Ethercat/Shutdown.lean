import Pr2Ethercat.MasterBuffer

/-!
# `closeOperationalSlaves`

The last call of `main` takes the slaves out of `EC_OP_STATE`: every slave that
is in it is asked for `EC_SAFEOP_STATE`, and `error` goes down by one for each
negative code of `changeState`. `changeState` answers with a negative code when
the request is *granted* (it tests `!to_state(..)`), so the number returned
counts the slaves that came down and not the ones that stayed operational.

`closeLoop_spec` is the whole effect. Which slaves are asked, and that nothing
else is touched, is as one expects; the code returned is right exactly when as
many requests are granted as are refused (`closeOperationalSlaves_reports_iff`).
-/

namespace Pr2Ethercat

/-- `sh->get_state() == EC_OP_STATE`. -/
def isOperational (slaves : Nat → SlaveHandler) (sh : Nat) : Bool :=
  (slaves sh).state == .ecOpState

/-- What a run of `closeOperationalSlaves` returns and leaves behind, and the
calls of `to_state` it made, in order. -/
structure CloseResult where
  error : Int
  driver : Driver
  requests : List (Nat × EcState)

/-- The loop, over the handles it has still to visit. `reached sh` is what
`to_state` returns for slave `sh`. -/
def closeLoop (reached : Nat → Bool) : List Nat → Int → Driver → CloseResult
  | [], error, d => ⟨error, d, []⟩
  | sh :: rest, error, d =>
    if isOperational d.slaves sh = true then
      let change := changeState sh .ecSafeopState (reached sh) d
      let r := closeLoop reached rest (if change.1 < 0 then error - 1 else error) change.2
      { r with requests := (sh, .ecSafeopState) :: r.requests }
    else closeLoop reached rest error d

/-- `closeOperationalSlaves()`. -/
def closeOperationalSlaves (reached : Nat → Bool) (d : Driver) : CloseResult :=
  closeLoop reached d.table.slaveHandles 0 d

/-- What the loop over `l` does. -/
structure ClosedBy (reached : Nat → Bool) (l : List Nat) (error : Int) (d : Driver)
    (r : CloseResult) : Prop where
  error : r.error = error - l.countP fun sh => isOperational d.slaves sh && reached sh
  requests : r.requests = (l.filter (isOperational d.slaves)).map (·, .ecSafeopState)
  frame : r.driver = { d with slaves := r.driver.slaves }
  asked : ∀ sh ∈ l, isOperational d.slaves sh = true →
    r.driver.slaves sh = (d.slaves sh).request .ecSafeopState (reached sh)
  others : ∀ sh, sh ∉ l ∨ isOperational d.slaves sh = false → r.driver.slaves sh = d.slaves sh

theorem changeState_fst (sh : Nat) (next : EcState) (reached : Bool) (d : Driver) :
    (changeState sh next reached d).1 = if reached = true then -1 else 0 := by
  unfold changeState
  cases reached with
  | false => rfl
  | true => rfl

/-- One turn of the loop on an operational slave. -/
theorem closeLoop_cons_of_pos (reached : Nat → Bool) {sh : Nat} (rest : List Nat) (error : Int)
    {d : Driver} (hop : isOperational d.slaves sh = true) :
    closeLoop reached (sh :: rest) error d =
      let r := closeLoop reached rest (if reached sh = true then error - 1 else error)
        { d with
          slaves := Function.update d.slaves sh
            ((d.slaves sh).request .ecSafeopState (reached sh)) }
      { r with requests := (sh, .ecSafeopState) :: r.requests } := by
  rw [closeLoop, if_pos hop]
  simp only [changeState_fst, changeState_snd]
  cases reached sh with
  | false => rfl
  | true => rfl

/-- And on any other. -/
theorem closeLoop_cons_of_neg (reached : Nat → Bool) {sh : Nat} (rest : List Nat) (error : Int)
    {d : Driver} (hop : ¬ isOperational d.slaves sh = true) :
    closeLoop reached (sh :: rest) error d = closeLoop reached rest error d := by
  rw [closeLoop, if_neg hop]

/-- The turn on an operational slave, with the rest of the loop. -/
theorem ClosedBy.cons_of_pos {reached : Nat → Bool} {sh : Nat} {l : List Nat} {error : Int}
    {d : Driver} {slaves' : Nat → SlaveHandler} {r : CloseResult} (hnotin : sh ∉ l)
    (hop : isOperational d.slaves sh = true)
    (hslaves : Function.update d.slaves sh
      ((d.slaves sh).request .ecSafeopState (reached sh)) = slaves')
    (h : ClosedBy reached l (if reached sh = true then error - 1 else error)
      { d with slaves := slaves' } r) :
    ClosedBy reached (sh :: l) error d
      { r with requests := (sh, .ecSafeopState) :: r.requests } := by
  obtain ⟨herror, hrequests, hframe, hasked, hothers⟩ := h
  -- the rest of the loop sees every slave but the one just asked as it was
  have hsame : ∀ s, s ≠ sh → slaves' s = d.slaves s := by
    intro s hs
    rw [← hslaves, Function.update_of_ne hs]
  have hop' : ∀ s ∈ l, isOperational slaves' s = isOperational d.slaves s := by
    intro s hs
    unfold isOperational
    rw [hsame s fun h => hnotin (h ▸ hs)]
  have hcount : (l.countP fun s => isOperational slaves' s && reached s)
      = l.countP fun s => isOperational d.slaves s && reached s :=
    List.countP_congr fun s hs => by rw [hop' s hs]
  refine ⟨?_, ?_, hframe, ?_, ?_⟩
  · show r.error = _
    rw [herror, hcount, List.countP_cons, hop, Bool.true_and]
    split
    · omega
    · omega
  · show (sh, EcState.ecSafeopState) :: r.requests = _
    rw [hrequests, List.filter_cons_of_pos hop, List.map_cons, List.filter_congr hop']
  · intro s hs hops
    show r.driver.slaves s = _
    rcases List.mem_cons.mp hs with rfl | hmem
    · rw [hothers s (Or.inl hnotin), ← hslaves]
      exact Function.update_self ..
    · rw [hasked s hmem ((hop' s hmem).trans hops)]
      exact congrArg (·.request .ecSafeopState (reached s)) (hsame s fun h => hnotin (h ▸ hmem))
  · intro s hs
    have hne : s ≠ sh := by
      rintro rfl
      rcases hs with hs | hs
      · exact hs (List.mem_cons_self ..)
      · exact absurd (hop.symm.trans hs) (by simp)
    show r.driver.slaves s = _
    rw [← hsame s hne]
    apply hothers s
    rcases hs with hs | hs
    · exact Or.inl fun hmem => hs (List.mem_cons_of_mem _ hmem)
    · by_cases hmem : s ∈ l
      · exact Or.inr ((hop' s hmem).trans hs)
      · exact Or.inl hmem

/-- The turn on any other slave. -/
theorem ClosedBy.cons_of_neg {reached : Nat → Bool} {sh : Nat} {l : List Nat} {error : Int}
    {d : Driver} {r : CloseResult} (hop : ¬ isOperational d.slaves sh = true)
    (h : ClosedBy reached l error d r) : ClosedBy reached (sh :: l) error d r := by
  obtain ⟨herror, hrequests, hframe, hasked, hothers⟩ := h
  refine ⟨?_, ?_, hframe, ?_, ?_⟩
  · rw [herror, List.countP_cons_of_neg (by simp [hop])]
  · rw [hrequests, List.filter_cons_of_neg hop]
  · intro s hs hops
    rcases List.mem_cons.mp hs with rfl | hmem
    · exact absurd hops hop
    · exact hasked s hmem hops
  · intro s hs
    apply hothers s
    rcases hs with hs | hs
    · exact Or.inl fun hmem => hs (List.mem_cons_of_mem _ hmem)
    · exact Or.inr hs

theorem closeLoop_spec (reached : Nat → Bool) (l : List Nat) (hnd : l.Nodup) :
    ∀ (error : Int) (d : Driver), ClosedBy reached l error d (closeLoop reached l error d) := by
  induction l with
  | nil =>
    intro error d
    exact ⟨by simp [closeLoop], rfl, rfl, fun sh hsh => absurd hsh (by simp), fun _ _ => rfl⟩
  | cons sh l ih =>
    intro error d
    obtain ⟨hnotin, hnd'⟩ := List.nodup_cons.mp hnd
    by_cases hop : isOperational d.slaves sh = true
    · rw [closeLoop_cons_of_pos reached l error hop]
      exact (ih hnd' _ _).cons_of_pos hnotin hop rfl
    · rw [closeLoop_cons_of_neg reached l error hop]
      exact (ih hnd' error d).cons_of_neg hop

/-! ## What it reports -/

/-- The code and the calls of a shutdown tell what happened to the slaves:
exactly the operational ones are asked to go to `EC_SAFEOP_STATE`, no other
slave changes, and the code is minus the number of slaves left operational. -/
structure ReportsShutdown (d : Driver) (r : CloseResult) : Prop where
  requests : r.requests
    = (d.table.slaveHandles.filter (isOperational d.slaves)).map (·, .ecSafeopState)
  untouched : ∀ sh, sh ∉ d.table.slaveHandles ∨ isOperational d.slaves sh = false →
    r.driver.slaves sh = d.slaves sh
  error : r.error = -(d.table.slaveHandles.countP (isOperational r.driver.slaves) : Int)
  zero : r.error = 0 ↔ ∀ sh ∈ d.table.slaveHandles, isOperational r.driver.slaves sh = false

section Shutdown

variable (reached : Nat → Bool) (d : Driver)

/-- The number of operational slaves that come down when asked. -/
def grantedShutdowns : Nat :=
  d.table.slaveHandles.countP fun sh => isOperational d.slaves sh && reached sh

/-- The number of operational slaves that refuse to. -/
def refusedShutdowns : Nat :=
  d.table.slaveHandles.countP fun sh => isOperational d.slaves sh && !reached sh

theorem closeOperationalSlaves_spec :
    ClosedBy reached d.table.slaveHandles 0 d (closeOperationalSlaves reached d) :=
  closeLoop_spec reached d.table.slaveHandles d.table.nodup 0 d

/-- The code returned counts the slaves that came down. -/
theorem closeOperationalSlaves_error :
    (closeOperationalSlaves reached d).error = -(grantedShutdowns reached d : Int) := by
  rw [(closeOperationalSlaves_spec reached d).error, Int.zero_sub]
  rfl

/-- The slaves left operational are those that refused. -/
theorem countP_left_operational :
    d.table.slaveHandles.countP (isOperational (closeOperationalSlaves reached d).driver.slaves)
      = refusedShutdowns reached d := by
  apply List.countP_congr
  intro sh hsh
  obtain ⟨_, _, _, hasked, hothers⟩ := closeOperationalSlaves_spec reached d
  cases hop : isOperational d.slaves sh with
  | false =>
    unfold isOperational at hop ⊢
    rw [hothers sh (Or.inr hop), hop]
    simp
  | true =>
    have hstate := hop
    unfold isOperational at hstate ⊢
    rw [hasked sh hsh hop]
    cases reached sh with
    | false => simpa [SlaveHandler.request] using hstate
    | true => simp [SlaveHandler.request]

end Shutdown

/-- **Shutdown.** `closeOperationalSlaves` reports the slaves' states if and only
if as many operational slaves come down when asked as refuse to. -/
theorem closeOperationalSlaves_reports_iff (reached : Nat → Bool) (d : Driver) :
    ReportsShutdown d (closeOperationalSlaves reached d)
      ↔ grantedShutdowns reached d = refusedShutdowns reached d := by
  have hspec := closeOperationalSlaves_spec reached d
  have herror := closeOperationalSlaves_error reached d
  have hleft := countP_left_operational reached d
  constructor
  · intro h
    have hsame := h.error
    rw [herror, hleft] at hsame
    omega
  · intro heq
    refine ⟨hspec.requests, hspec.others, ?_, ?_⟩
    · rw [herror, hleft, heq]
    · rw [herror, heq, ← hleft, Int.neg_eq_zero, Int.natCast_eq_zero, List.countP_eq_zero]
      simp only [Bool.not_eq_true]

/-- One board in `EC_OP_STATE`. -/
def operationalBoard : Driver :=
  Driver.gathered oneBoardBus (fun sh => { oneBoardSlaves sh with state := .ecOpState }) fun _ => 0

/-- It comes down when asked, and the code returned is -1. -/
theorem closeOperationalSlaves_reports_failure :
    ¬ ReportsShutdown operationalBoard
      (closeOperationalSlaves (fun _ => true) operationalBoard) := by
  intro h
  have hcode := h.error
  rw [closeOperationalSlaves_error, countP_left_operational] at hcode
  exact absurd hcode (by decide)

end Pr2Ethercat
