import Mathlib.Data.List.Flatten
import Pr2Ethercat.OobExchange

/-!
# `EthercatOobCom::txandrx`

A client does not call `txandrx_once` itself but `txandrx`, which calls it up to
ten times until one call succeeds. `RetrySystem` puts these loops around the
mailbox of `OobSystem`; between two attempts of a client, and inside each of them,
any number of sections of other clients and of `tx()` may run.

What a client gets is nevertheless what it would get if it had the interface to
itself: its attempts fall into consecutive groups, one for each call of
`txandrx` that has returned, and each attempt makes the calls that
`EthercatDirectCom::txandrx_once`, which talks to the interface directly, makes
when it gets the same answers (`txandrx_groups`). And as long as `tx()` is called
every call of `txandrx` can be completed (`txandrx_completes`).
-/

namespace Pr2Ethercat

open Mesa

/-! ## The plain path -/

/-- `EthercatDirectCom::txandrx_once(frame)`: the calls it makes, and its result. -/
def directTxandrxOnce (frame : Nat) (answer : OobAnswer) : List NetCall × Bool :=
  if answer.handle < 0 then ([.tx frame answer.handle], false)
  else ([.tx frame answer.handle, .rx frame answer.handle answer.ok], answer.ok)

/-! ## The system -/

/-- `MAX_TRIES`. -/
def maxTries : Nat := 10

/-- Where a client is in `txandrx`. -/
inductive RetryPc where
  | outside
  /-- At the test of the loop, after `tries` attempts. -/
  | between (frame tries : Nat)
  /-- In `txandrx_once`. -/
  | trying (frame tries : Nat)
  deriving DecidableEq, Repr

/-- The frame of the attempt under way. -/
def RetryPc.frame? : RetryPc → Option Nat
  | outside => none
  | between _ _ => none
  | trying frame _ => some frame

/-- The mailbox with its clients, where these are in `txandrx`, and the calls of
`txandrx` that have returned. -/
structure RetrySystem (ι : Type*) where
  oob : OobSystem ι
  clients : ι → RetryPc
  results : List (OobReturn ι)

def RetrySystem.initial (ι : Type*) : RetrySystem ι where
  oob := OobSystem.initial ι
  clients := fun _ => .outside
  results := []

inductive RetryAction (ι : Type*) where
  /-- `t` calls `txandrx(frame)`. -/
  | call (t : ι) (frame : Nat)
  /-- `t` starts an attempt. -/
  | attempt (t : ι)
  /-- `t` has no try left. -/
  | giveUp (t : ι)
  /-- A section of the mailbox runs. -/
  | oob (a : OobAction ι)

variable {ι : Type*}

/-- `if (this->txandrx_once(frame)) return true;` -/
def RetrySystem.returns [DecidableEq ι] (s : RetrySystem ι) (oob : OobSystem ι) (t : ι)
    (frame tries : Nat) (success : Bool) : RetrySystem ι where
  oob := oob
  clients := Function.update s.clients t
    (if success = true then .outside else .between frame (tries + 1))
  results := if success = true then s.results ++ [⟨t, frame, true⟩] else s.results

inductive RetryStep [DecidableEq ι] : RetrySystem ι → RetryAction ι → RetrySystem ι → Prop where
  | call {s : RetrySystem ι} {t : ι} {frame : Nat} (outside : s.clients t = .outside)
      (nonNull : frame ≠ NULL) :
      RetryStep s (.call t frame)
        { s with clients := Function.update s.clients t (.between frame 0) }
  | attempt {s : RetrySystem ι} {t : ι} {frame tries : Nat} {oob : OobSystem ι}
      (hpc : s.clients t = .between frame tries) (hleft : tries < maxTries)
      (step : OobStep s.oob (.call t frame) oob) :
      RetryStep s (.attempt t)
        { s with
          oob := oob
          clients := Function.update s.clients t (.trying frame tries) }
  | giveUp {s : RetrySystem ι} {t : ι} {frame tries : Nat}
      (hpc : s.clients t = .between frame tries) (hleft : ¬ tries < maxTries) :
      RetryStep s (.giveUp t)
        { s with
          clients := Function.update s.clients t .outside
          results := s.results ++ [⟨t, frame, false⟩] }
  /-- A section that ends no attempt. -/
  | inner {s : RetrySystem ι} {a : OobAction ι} {oob : OobSystem ι}
      (hcall : ∀ t frame, a ≠ .call t frame) (step : OobStep s.oob a oob)
      (hsame : oob.returned = s.oob.returned) :
      RetryStep s (.oob a) { s with oob := oob }
  | returns {s : RetrySystem ι} {t : ι} {ok success : Bool} {frame tries : Nat} {oob : OobSystem ι}
      (hpc : s.clients t = .trying frame tries) (step : OobStep s.oob (.client t ok) oob)
      (hreturned : oob.returned = s.oob.returned ++ [⟨t, frame, success⟩]) :
      RetryStep s (.oob (.client t ok)) (s.returns oob t frame tries success)

def RetrySystem.Reachable [DecidableEq ι] (s : RetrySystem ι) : Prop :=
  ∃ as, Run RetryStep (RetrySystem.initial ι) as s

/-! ## Attempts and the plain path -/

/-- A returned attempt and its block: what the plain path makes of the same answers. -/
theorem OobReturn.Owns.direct {r : OobReturn ι} {b : OobBlock} (h : r.Owns b) :
    b.calls = (directTxandrxOnce r.frame ⟨b.handle, b.received⟩).1 ∧
      r.success = (directTxandrxOnce r.frame ⟨b.handle, b.received⟩).2 := by
  obtain ⟨hframe, hsuccess⟩ := h
  unfold OobBlock.calls directTxandrxOnce
  by_cases hneg : b.handle < 0
  · have hnot : ¬ 0 ≤ b.handle := Int.not_le.mpr hneg
    rw [if_pos hneg, if_neg hnot, hframe]
    refine ⟨rfl, ?_⟩
    show r.success = false
    rw [Bool.eq_false_iff]
    exact fun hr => hnot (hsuccess.mp hr).1
  · have hle : 0 ≤ b.handle := Int.not_lt.mp hneg
    rw [if_neg hneg, if_pos hle, hframe]
    refine ⟨rfl, ?_⟩
    show r.success = b.received
    rw [Bool.eq_iff_iff, hsuccess]
    exact ⟨fun hr => hr.2, fun hr => ⟨hle, hr⟩⟩

/-- The calls on the interface are those of the plain path, attempt by attempt. -/
theorem OobSystem.Paired.direct {s : OobSystem ι} (h : s.Paired) :
    ∃ answers : List OobAnswer,
      s.net = (List.zipWith (fun r answer => (directTxandrxOnce r.frame answer).1)
        s.returned answers).flatten ++ s.com.openBlock ∧
      List.Forall₂ (fun r answer => r.success = (directTxandrxOnce r.frame answer).2)
        s.returned answers := by
  obtain ⟨blocks, hnet, howns⟩ := h
  have hblocks : ∀ {returned : List (OobReturn ι)} {blocks : List OobBlock},
      List.Forall₂ OobReturn.Owns returned blocks → ∃ answers : List OobAnswer,
        blocks.flatMap OobBlock.calls
          = (List.zipWith (fun r answer => (directTxandrxOnce r.frame answer).1)
              returned answers).flatten ∧
        List.Forall₂ (fun r answer => r.success = (directTxandrxOnce r.frame answer).2)
          returned answers := by
    intro returned blocks howns
    induction howns with
    | nil => exact ⟨[], rfl, .nil⟩
    | @cons r b _ _ hown _ ih =>
      obtain ⟨answers, hcalls, hresults⟩ := ih
      obtain ⟨hcall, hresult⟩ := hown.direct
      refine ⟨⟨b.handle, b.received⟩ :: answers, ?_, .cons hresult hresults⟩
      rw [List.flatMap_cons, List.zipWith_cons_cons, List.flatten_cons, hcall, hcalls]
  obtain ⟨answers, hcalls, hresults⟩ := hblocks howns
  exact ⟨answers, by rw [hnet, hcalls], hresults⟩

/-! ## What a section does to the clients -/

section Sections

variable [DecidableEq ι] {s s' : OobSystem ι} {a : OobAction ι}

/-- A section that ends no attempt leaves every client its frame. -/
theorem OobStep.local?_eq (step : OobStep s a s') (hcall : ∀ t frame, a ≠ .call t frame)
    (hsame : s'.returned = s.returned) (u : ι) : (s'.clients u).local? = (s.clients u).local? := by
  have hmove : ∀ {t : ι} {q : Pc OobCond Nat}, q.local? = (s.clients t).local? →
      (Function.update s.clients t q u).local? = (s.clients u).local? := by
    intro t q hq
    by_cases hut : u = t
    · rw [hut, Function.update_self, hq]
    · rw [Function.update_of_ne hut]
  cases step with
  | @call t frame => exact absurd rfl (hcall t frame)
  | take at_loop =>
    apply hmove
    rcases at_loop with hp | hp
    · rw [hp, Pc.local?_blocked, Pc.local?_entering]
    · rw [hp, Pc.local?_blocked, Pc.local?_woken]
  | waitAgain woken =>
    apply hmove
    rw [woken, Pc.local?_blocked, Pc.local?_woken]
  | finish => exact absurd hsame (by simp)
  | clientAssert => rfl
  | spurious blocked =>
    apply hmove
    rw [blocked, Pc.local?_blocked, Pc.local?_woken]
  | tx _ signal =>
    split at signal
    · exact signal.local?_eq u
    · rw [signal]
  | txAssert => rfl

/-- The section that ends an attempt lets its client go. -/
theorem OobStep.local?_of_returned {t : ι} {frame : Nat} {success : Bool} (step : OobStep s a s')
    (hreturned : s'.returned = s.returned ++ [⟨t, frame, success⟩]) :
    (s.clients t).local? = some frame ∧ (s'.clients t).local? = none ∧
      ∀ u, u ≠ t → (s'.clients u).local? = (s.clients u).local? := by
  cases step with
  | @finish t' frame' _ _ _ _ _ woken _ signal =>
    have hlast := List.singleton_inj.mp (List.append_cancel_left hreturned)
    obtain ⟨rfl, rfl, rfl⟩ := OobReturn.mk.inj hlast
    refine ⟨by rw [woken, Pc.local?_woken], ?_, fun u hu => ?_⟩
    · rw [signal.local?_eq, Function.update_self, Pc.local?_outside]
    · rw [signal.local?_eq, Function.update_of_ne hu]
  | call | take | waitAgain | clientAssert | spurious | tx | txAssert =>
    exact absurd hreturned (by simp)

/-- A section ends one attempt, or none. -/
theorem OobStep.returned_cases (step : OobStep s a s') :
    s'.returned = s.returned ∨
      ∃ t ok frame success, a = .client t ok ∧ (s.clients t).local? = some frame ∧
        s'.returned = s.returned ++ [⟨t, frame, success⟩] := by
  cases step with
  | finish woken =>
    exact Or.inr ⟨_, _, _, _, rfl, by rw [woken, Pc.local?_woken], rfl⟩
  | call | take | waitAgain | clientAssert | spurious | tx | txAssert => exact Or.inl rfl

end Sections

/-! ## Groups of attempts -/

/-- The calls of the list that are `t`'s. -/
def returnsOf [DecidableEq ι] (t : ι) (l : List (OobReturn ι)) : List (OobReturn ι) :=
  l.filter (·.client = t)

/-- `group` is what a call of `txandrx` with the result `r` consists of: attempts
that fail, and one that succeeds or no try left. -/
def OobReturn.MadeOf (r : OobReturn ι) (group : List (OobReturn ι)) : Prop :=
  if r.success = true then
    ∃ k < maxTries, group = List.replicate k { r with success := false } ++ [r]
  else group = List.replicate maxTries r

/-- The attempts that the call under way has made, all of them failed. -/
def RetryPc.current (t : ι) : RetryPc → List (OobReturn ι)
  | outside => []
  | between frame tries => List.replicate tries ⟨t, frame, false⟩
  | trying frame tries => List.replicate tries ⟨t, frame, false⟩

def RetryPc.Within : RetryPc → Prop
  | outside => True
  | between frame tries => frame ≠ NULL ∧ tries ≤ maxTries
  | trying frame tries => frame ≠ NULL ∧ tries < maxTries

/-- The attempts of `t` are those of its results, one after the other, and those of
the call under way. -/
structure Grouped (t : ι) (pc : RetryPc) (attempts results : List (OobReturn ι)) : Prop where
  within : pc.Within
  groups : ∃ groups, List.Forall₂ OobReturn.MadeOf results groups ∧
    attempts = groups.flatten ++ pc.current t

section Grouped

variable {t : ι} {frame tries : Nat} {attempts results : List (OobReturn ι)}

theorem grouped_start (t : ι) : Grouped t .outside [] [] := ⟨trivial, [], .nil, rfl⟩

theorem Grouped.call (h : Grouped t .outside attempts results) (hframe : frame ≠ NULL) :
    Grouped t (.between frame 0) attempts results := ⟨⟨hframe, Nat.zero_le _⟩, h.groups⟩

theorem Grouped.attempt (h : Grouped t (.between frame tries) attempts results)
    (hleft : tries < maxTries) : Grouped t (.trying frame tries) attempts results :=
  ⟨⟨h.within.1, hleft⟩, h.groups⟩

theorem Grouped.giveUp (h : Grouped t (.between frame tries) attempts results)
    (hleft : ¬ tries < maxTries) :
    Grouped t .outside attempts (results ++ [⟨t, frame, false⟩]) := by
  obtain ⟨hwithin, groups, hmade, hattempts⟩ := h
  have hall : tries = maxTries := Nat.le_antisymm hwithin.2 (Nat.le_of_not_lt hleft)
  refine ⟨trivial, groups ++ [List.replicate maxTries ⟨t, frame, false⟩], ?_, ?_⟩
  · refine List.rel_append hmade (.cons ?_ .nil)
    show if false = true then _ else _
    rw [if_neg (by simp)]
  · rw [hattempts, hall, List.flatten_append, List.flatten_singleton]
    exact (List.append_nil _).symm

theorem Grouped.succeed (h : Grouped t (.trying frame tries) attempts results) :
    Grouped t .outside (attempts ++ [⟨t, frame, true⟩]) (results ++ [⟨t, frame, true⟩]) := by
  obtain ⟨hwithin, groups, hmade, hattempts⟩ := h
  refine ⟨trivial, groups ++ [List.replicate tries ⟨t, frame, false⟩ ++ [⟨t, frame, true⟩]], ?_, ?_⟩
  · refine List.rel_append hmade (.cons ?_ .nil)
    show if true = true then _ else _
    rw [if_pos rfl]
    exact ⟨tries, hwithin.2, rfl⟩
  · rw [hattempts, List.flatten_append, List.flatten_singleton, List.append_assoc]
    exact (List.append_nil _).symm

theorem Grouped.fail (h : Grouped t (.trying frame tries) attempts results) :
    Grouped t (.between frame (tries + 1)) (attempts ++ [⟨t, frame, false⟩]) results := by
  obtain ⟨hwithin, groups, hmade, hattempts⟩ := h
  refine ⟨hwithin, groups, hmade, ?_⟩
  show _ = groups.flatten ++ List.replicate (tries + 1) _
  rw [hattempts, List.replicate_succ', List.append_assoc]
  rfl

end Grouped

/-- An attempt of the call under way has failed. -/
theorem RetryPc.current_failed (t : ι) {pc : RetryPc} (hpc : pc.Within) :
    (pc.current t).length ≤ maxTries ∧ ∀ r ∈ pc.current t, r.success = false := by
  cases pc with
  | outside => exact ⟨Nat.zero_le _, by simp [current]⟩
  | between frame tries =>
    refine ⟨by rw [current, List.length_replicate]; exact hpc.2, fun r hr => ?_⟩
    rw [List.eq_of_mem_replicate hr]
  | trying frame tries =>
    refine ⟨by rw [current, List.length_replicate]; exact Nat.le_of_lt hpc.2, fun r hr => ?_⟩
    rw [List.eq_of_mem_replicate hr]

/-! ## The invariant -/

variable [DecidableEq ι]

theorem returnsOf_append_self (t : ι) (l : List (OobReturn ι)) (frame : Nat) (success : Bool) :
    returnsOf t (l ++ [⟨t, frame, success⟩]) = returnsOf t l ++ [⟨t, frame, success⟩] := by
  unfold returnsOf
  rw [List.filter_append, List.filter_cons_of_pos (by simp), List.filter_nil]

theorem returnsOf_append_of_ne {t u : ι} (hu : u ≠ t) (l : List (OobReturn ι)) (frame : Nat)
    (success : Bool) : returnsOf u (l ++ [⟨t, frame, success⟩]) = returnsOf u l := by
  unfold returnsOf
  rw [List.filter_append, List.filter_cons_of_neg (by simpa using fun htu => hu htu.symm),
    List.filter_nil, List.append_nil]

structure RetrySystem.Inv (s : RetrySystem ι) : Prop where
  oob : s.oob.Inv
  /-- A client is in `txandrx_once` exactly when its loop is in an attempt. -/
  agree : ∀ t, (s.oob.clients t).local? = (s.clients t).frame?
  grouped : ∀ t, Grouped t (s.clients t) (returnsOf t s.oob.returned) (returnsOf t s.results)

theorem RetrySystem.inv_initial : (RetrySystem.initial ι).Inv where
  oob := OobSystem.inv_initial
  agree _ := rfl
  grouped := grouped_start

section Steps

variable {s : RetrySystem ι}

/-- A step that concerns the client `t` only. -/
theorem RetrySystem.Inv.of_client (h : s.Inv) {t : ι} {pc : RetryPc} {oob : OobSystem ι}
    {results : List (OobReturn ι)} (hoob : oob.Inv) (hagree : (oob.clients t).local? = pc.frame?)
    (hgrouped : Grouped t pc (returnsOf t oob.returned) (returnsOf t results))
    (hothers : ∀ u, u ≠ t → (oob.clients u).local? = (s.oob.clients u).local? ∧
      returnsOf u oob.returned = returnsOf u s.oob.returned ∧
      returnsOf u results = returnsOf u s.results) :
    RetrySystem.Inv ⟨oob, Function.update s.clients t pc, results⟩ := by
  refine ⟨hoob, fun u => ?_, fun u => ?_⟩
  · show _ = (Function.update s.clients t pc u).frame?
    by_cases hut : u = t
    · rw [hut, Function.update_self, hagree]
    · rw [Function.update_of_ne hut, (hothers u hut).1, h.agree u]
  · show Grouped u (Function.update s.clients t pc u) (returnsOf u oob.returned) _
    by_cases hut : u = t
    · rw [hut, Function.update_self]
      exact hgrouped
    · rw [Function.update_of_ne hut, (hothers u hut).2.1, (hothers u hut).2.2]
      exact h.grouped u

theorem RetrySystem.Inv.attempt (h : s.Inv) {t : ι} {frame tries : Nat} {oob : OobSystem ι}
    (hpc : s.clients t = .between frame tries) (hleft : tries < maxTries)
    (step : OobStep s.oob (.call t frame) oob) :
    RetrySystem.Inv
      { s with
        oob := oob
        clients := Function.update s.clients t (.trying frame tries) } := by
  have hoob := h.oob.step step
  have hgrouped := h.grouped t
  rw [hpc] at hgrouped
  cases step with
  | call outside nonNull =>
    refine h.of_client hoob ?_ (hgrouped.attempt hleft) fun u hu => ⟨?_, rfl, rfl⟩
    · show (Function.update s.oob.clients t _ t).local? = _
      rw [Function.update_self]
      rfl
    · show (Function.update s.oob.clients t _ u).local? = _
      rw [Function.update_of_ne hu]

theorem RetrySystem.Inv.returns (h : s.Inv) {t : ι} {a : OobAction ι} {success : Bool}
    {frame tries : Nat} {oob : OobSystem ι} (hpc : s.clients t = .trying frame tries)
    (step : OobStep s.oob a oob)
    (hreturned : oob.returned = s.oob.returned ++ [⟨t, frame, success⟩]) :
    (s.returns oob t frame tries success).Inv := by
  have hgrouped := h.grouped t
  rw [hpc] at hgrouped
  obtain ⟨_, hgone, hothers⟩ := step.local?_of_returned hreturned
  have hlast : returnsOf t oob.returned = returnsOf t s.oob.returned ++ [⟨t, frame, success⟩] := by
    rw [hreturned, returnsOf_append_self]
  have hrest : ∀ u, u ≠ t → returnsOf u oob.returned = returnsOf u s.oob.returned := by
    intro u hu
    rw [hreturned, returnsOf_append_of_ne hu]
  cases success with
  | true =>
    refine h.of_client (h.oob.step step) hgone ?_ fun u hu =>
      ⟨hothers u hu, hrest u hu, returnsOf_append_of_ne hu ..⟩
    rw [hlast]
    show Grouped t .outside _ (returnsOf t (s.results ++ [_]))
    rw [returnsOf_append_self]
    exact hgrouped.succeed
  | false =>
    refine h.of_client (h.oob.step step) hgone ?_ fun u hu => ⟨hothers u hu, hrest u hu, rfl⟩
    rw [hlast]
    exact hgrouped.fail

/-- **Step lemma.** -/
theorem RetrySystem.Inv.step (h : s.Inv) {a : RetryAction ι} {s' : RetrySystem ι}
    (hstep : RetryStep s a s') : s'.Inv := by
  cases hstep with
  | @call t frame outside nonNull =>
    have hagree := h.agree t
    have hgrouped := h.grouped t
    rw [outside] at hagree hgrouped
    exact h.of_client h.oob hagree (hgrouped.call nonNull) fun _ _ => ⟨rfl, rfl, rfl⟩
  | attempt hpc hleft step => exact h.attempt hpc hleft step
  | @giveUp t frame tries hpc hleft =>
    have hagree := h.agree t
    have hgrouped := h.grouped t
    rw [hpc] at hagree hgrouped
    refine h.of_client h.oob hagree ?_ fun u hu => ⟨rfl, rfl, returnsOf_append_of_ne hu ..⟩
    rw [returnsOf_append_self]
    exact hgrouped.giveUp hleft
  | inner hcall step hsame =>
    refine ⟨h.oob.step step, fun u => ?_, fun u => ?_⟩
    · rw [← h.agree u]
      exact step.local?_eq hcall hsame u
    · show Grouped u (s.clients u) (returnsOf u _) _
      rw [hsame]
      exact h.grouped u
  | returns hpc step hreturned => exact h.returns hpc step hreturned

/-- **Run lemma.** -/
theorem RetrySystem.Reachable.inv (hr : s.Reachable) : s.Inv := by
  obtain ⟨as, run⟩ := hr
  exact run.invariant (fun _ _ _ h step => h.step step) inv_initial

end Steps

/-! ## Every call returns -/

/-- What may be counted on: sections of the mailbox that serve its clients, and
clients that go on with their loops. -/
def RetryAction.Serves (answer : OobAnswer) : RetryAction ι → Prop
  | .call _ _ => False
  | .attempt _ => True
  | .giveUp _ => True
  | .oob a => a.Serves answer

/-- The steps of the loop that are left. -/
def RetryPc.left : RetryPc → Nat
  | outside => 0
  | between _ tries => 2 * (maxTries - tries) + 1
  | trying _ tries => 2 * (maxTries - tries)

section Progress

variable {s : RetrySystem ι}

/-- Every section of the mailbox that calls nothing is a step of the system, and an
attempt of `t` that ends in it brings the loop of `t` forward. -/
theorem RetrySystem.Inv.lift (h : s.Inv) (t : ι) {a : OobAction ι} {oob : OobSystem ι}
    (hcall : ∀ u frame, a ≠ .call u frame) (step : OobStep s.oob a oob) :
    ∃ s', RetryStep s (.oob a) s' ∧ s'.oob = oob ∧
      (s'.clients t).left + (returnsOf t oob.returned).length
        ≤ (s.clients t).left + (returnsOf t s.oob.returned).length := by
  rcases step.returned_cases with hsame | ⟨u, ok, frame, success, rfl, hlocal, hreturned⟩
  · refine ⟨_, RetryStep.inner hcall step hsame, rfl, ?_⟩
    rw [hsame]
  · -- the loop of `u` is in the attempt that ends
    have hframe := h.agree u
    rw [hlocal] at hframe
    obtain ⟨f, tries, hpc⟩ : ∃ f tries, s.clients u = .trying f tries := by
      cases hu : s.clients u with
      | outside | between =>
        rw [hu] at hframe
        exact absurd hframe (by simp [RetryPc.frame?])
      | trying f tries => exact ⟨f, tries, rfl⟩
    rw [hpc] at hframe
    obtain rfl := Option.some.inj hframe
    refine ⟨_, RetryStep.returns hpc step hreturned, rfl, ?_⟩
    rw [hreturned]
    show (Function.update s.clients u _ t).left + _ ≤ _
    by_cases htu : t = u
    · have hwithin := (h.grouped u).within
      rw [hpc] at hwithin
      have hlt : tries < maxTries := hwithin.2
      rw [htu, Function.update_self, returnsOf_append_self, List.length_append,
        List.length_singleton, hpc]
      split
      · simp only [RetryPc.left]
        omega
      · simp only [RetryPc.left]
        omega
    · rw [Function.update_of_ne htu, returnsOf_append_of_ne htu]

/-- And so is a run of them. -/
theorem RetrySystem.Inv.lift_run (h : s.Inv) (t : ι) {as : List (OobAction ι)} {oob : OobSystem ι}
    (run : Run OobStep s.oob as oob) (hcall : ∀ u frame, .call u frame ∉ as) :
    ∃ s', Run RetryStep s (as.map .oob) s' ∧ s'.oob = oob ∧
      (s'.clients t).left + (returnsOf t oob.returned).length
        ≤ (s.clients t).left + (returnsOf t s.oob.returned).length := by
  induction run with
  | start => exact ⟨s, Run.start, rfl, Nat.le_refl _⟩
  | @next as _ _ a run step ih =>
    obtain ⟨s₁, hrun, rfl, hleft⟩ := ih fun u frame ha => hcall u frame (List.mem_append_left _ ha)
    have hinv : s₁.Inv := hrun.invariant (fun _ _ _ h step => h.step step) h
    have hlast : ∀ u frame, a ≠ .call u frame := by
      rintro u frame rfl
      exact hcall u frame (List.mem_append_right _ (List.mem_singleton_self _))
    obtain ⟨s₂, hstep, hoob, hleft₂⟩ := hinv.lift t hlast step
    refine ⟨s₂, ?_, hoob, Nat.le_trans hleft₂ hleft⟩
    rw [List.map_append]
    exact hrun.next hstep

/-- The attempt of a client in `txandrx_once` can be ended. -/
theorem RetrySystem.Inv.ends_attempt (h : s.Inv) {t : ι} {frame tries : Nat}
    (hpc : s.clients t = .trying frame tries) (answers : Nat → OobAnswer) :
    ∃ bs s', Run RetryStep s bs s' ∧ Answered RetryAction.Serves answers bs ∧
      (s'.clients t).left < (s.clients t).left := by
  have hin : s.oob.clients t ≠ .outside := by
    intro hout
    have hagree := h.agree t
    rw [hpc, hout] at hagree
    exact absurd hagree (by simp [RetryPc.frame?])
  obtain ⟨as, oob, done, r, run, hserves, hreturned, rfl⟩ := h.oob.completes hin answers
  have hcall : ∀ u frame, .call u frame ∉ as := by
    intro u frame hmem
    obtain ⟨_, hnot⟩ := hserves.mem hmem
    exact hnot
  obtain ⟨s', hrun, _, hleft⟩ := h.lift_run r.client run hcall
  refine ⟨_, s', hrun, hserves.map fun _ _ ha => ha, ?_⟩
  have hlonger : (returnsOf r.client s.oob.returned).length + 1
      ≤ (returnsOf r.client oob.returned).length := by
    rw [hreturned]
    show _ ≤
      (returnsOf r.client (s.oob.returned ++ done ++ [⟨r.client, r.frame, r.success⟩])).length
    rw [returnsOf_append_self, List.length_append, List.length_singleton]
    unfold returnsOf
    rw [List.filter_append, List.length_append]
    omega
  omega

/-- A client with a try left can start an attempt. -/
theorem RetrySystem.Inv.starts_attempt (h : s.Inv) {t : ι} {frame tries : Nat}
    (hpc : s.clients t = .between frame tries) (hleft : tries < maxTries) :
    ∃ s', RetryStep s (.attempt t) s' ∧ (s'.clients t).left < (s.clients t).left := by
  have hagree := h.agree t
  have hwithin := (h.grouped t).within
  rw [hpc] at hagree hwithin
  have hout : s.oob.clients t = .outside := by
    cases hp : s.oob.clients t with
    | outside => rfl
    | entering | blocked | woken =>
      rw [hp] at hagree
      exact absurd hagree (by simp [RetryPc.frame?])
  refine ⟨_, RetryStep.attempt hpc hleft (OobStep.call hout hwithin.1), ?_⟩
  show (Function.update s.clients t _ t).left < _
  rw [Function.update_self, hpc]
  exact Nat.lt_succ_self _

/-- By induction on the steps that are left of the loop. -/
theorem RetrySystem.Inv.completes (t : ι) :
    ∀ (n : Nat) {s : RetrySystem ι} (answers : Nat → OobAnswer), s.Inv → (s.clients t).left ≤ n →
      ∃ bs s', Run RetryStep s bs s' ∧ Answered RetryAction.Serves answers bs ∧
        s'.clients t = .outside
  | n, s, answers, h, hn => by
    -- the loop goes on after some steps that bring it forward
    have hgoesOn : ∀ {bs : List (RetryAction ι)} {s₁ : RetrySystem ι}, Run RetryStep s bs s₁ →
        Answered RetryAction.Serves answers bs → (s₁.clients t).left < (s.clients t).left →
        ∃ bs s', Run RetryStep s bs s' ∧ Answered RetryAction.Serves answers bs ∧
          s'.clients t = .outside := by
      intro bs s₁ hrun hbs hless
      have hinv : s₁.Inv := hrun.invariant (fun _ _ _ h step => h.step step) h
      cases n with
      | zero => omega
      | succ n =>
        obtain ⟨cs, s₂, hrun₂, hcs, hout⟩ :=
          completes t n (fun k => answers (bs.length + k)) hinv (by omega)
        exact ⟨bs ++ cs, s₂, hrun.append hrun₂, hbs.append hcs, hout⟩
    cases hpc : s.clients t with
    | outside => exact ⟨[], s, Run.start, .nil, hpc⟩
    | between frame tries =>
      by_cases hleft : tries < maxTries
      · obtain ⟨s₁, hstep, hless⟩ := h.starts_attempt hpc hleft
        exact hgoesOn (Run.single hstep) (.single trivial) hless
      · exact ⟨_, _, Run.single (RetryStep.giveUp hpc hleft), .single trivial,
          Function.update_self ..⟩
    | trying frame tries =>
      obtain ⟨bs, s₁, hrun, hbs, hless⟩ := h.ends_attempt hpc answers
      exact hgoesOn hrun hbs hless

/-- The calls of `txandrx` that `t` has made. -/
def RetrySystem.callsOf (t : ι) (s : RetrySystem ι) : Nat :=
  (returnsOf t s.results).length + if s.clients t = .outside then 0 else 1

/-- A serving action begins no call, so one that is over has returned. -/
theorem RetryStep.callsOf_eq {a : RetryAction ι} {s' : RetrySystem ι} {answer : OobAnswer}
    (hstep : RetryStep s a s') (ha : a.Serves answer) (u : ι) : s'.callsOf u = s.callsOf u := by
  unfold RetrySystem.callsOf
  cases hstep with
  | call => exact ha.elim
  | @attempt t frame tries oob hpc hleft step =>
    show _ + (if Function.update s.clients t _ u = .outside then 0 else 1) = _
    by_cases hut : u = t
    · rw [hut, Function.update_self, hpc]
      rfl
    · rw [Function.update_of_ne hut]
  | @giveUp t frame tries hpc hleft =>
    show (returnsOf u (s.results ++ [_])).length
      + (if Function.update s.clients t _ u = .outside then 0 else 1) = _
    by_cases hut : u = t
    · rw [hut, Function.update_self, hpc, returnsOf_append_self, List.length_append]
      rfl
    · rw [Function.update_of_ne hut, returnsOf_append_of_ne hut]
  | inner => rfl
  | @returns t ok success frame tries oob hpc step hreturned =>
    show (returnsOf u (if success = true then _ else _)).length
      + (if Function.update s.clients t _ u = .outside then 0 else 1) = _
    by_cases hut : u = t
    · rw [hut, Function.update_self, hpc]
      cases success with
      | true =>
        rw [if_pos rfl, returnsOf_append_self, List.length_append]
        rfl
      | false => rfl
    · rw [Function.update_of_ne hut]
      cases success with
      | true => rw [if_pos rfl, returnsOf_append_of_ne hut]
      | false => rfl

theorem callsOf_run {as : List (RetryAction ι)} {s' : RetrySystem ι}
    (run : Run RetryStep s as s') (hserves : ∀ a ∈ as, ∃ answer, a.Serves answer) (t : ι) :
    s'.callsOf t = s.callsOf t := by
  induction run with
  | start => rfl
  | @next _ _ _ a _ step ih =>
    obtain ⟨_, ha⟩ := hserves a (List.mem_append_right _ (List.mem_singleton_self a))
    rw [step.callsOf_eq ha t]
    exact ih fun b hb => hserves b (List.mem_append_left _ hb)

/-- A call that is under way can be completed, and returns one result. -/
theorem RetrySystem.Inv.completes_call (h : s.Inv) {t : ι} (hin : s.clients t ≠ .outside)
    (answers : Nat → OobAnswer) :
    ∃ bs s', Run RetryStep s bs s' ∧ Answered RetryAction.Serves answers bs ∧
      s'.clients t = .outside ∧
      (returnsOf t s'.results).length = (returnsOf t s.results).length + 1 := by
  obtain ⟨bs, s', run, hserves, hout⟩ := RetrySystem.Inv.completes t _ answers h (Nat.le_refl _)
  refine ⟨bs, s', run, hserves, hout, ?_⟩
  have hcalls := callsOf_run run (fun _ ha => hserves.mem ha) t
  unfold RetrySystem.callsOf at hcalls
  rw [if_pos hout, if_neg hin] at hcalls
  exact hcalls

end Progress

/-! ## Results -/

variable {s : RetrySystem ι}

/-- **Retries.** In every interleaving of any number of clients, the interface
sees, attempt by attempt, the calls that the plain path would make with the same
answers, and nothing else but the beginning of one attempt; and the attempts of
each client fall into one group for each of its calls of `txandrx` that has
returned, in order: up to nine failures and a success if it returned `true`, ten
failures if it returned `false`, and at most ten failures in a call under way. -/
theorem txandrx_groups (h : s.Reachable) :
    (∃ answers : List OobAnswer,
      s.oob.net = (List.zipWith (fun r answer => (directTxandrxOnce r.frame answer).1)
        s.oob.returned answers).flatten ++ s.oob.com.openBlock ∧
      List.Forall₂ (fun r answer => r.success = (directTxandrxOnce r.frame answer).2)
        s.oob.returned answers) ∧
    ∀ t, ∃ groups current : List _,
      List.Forall₂ OobReturn.MadeOf (returnsOf t s.results) groups ∧
      returnsOf t s.oob.returned = groups.flatten ++ current ∧
      current.length ≤ maxTries ∧ ∀ r ∈ current, r.success = false := by
  refine ⟨h.inv.oob.paired.direct, fun t => ?_⟩
  obtain ⟨hwithin, groups, hmade, hattempts⟩ := h.inv.grouped t
  exact ⟨groups, (s.clients t).current t, hmade, hattempts, RetryPc.current_failed t hwithin⟩

/-- **Every call of `txandrx` returns.** From every state that is reached, sections
of the mailbox, `tx()` calls that get the mutex and clients going on with their
loops are enough to complete the call of a client, whatever the interface
answers from one of them to the next. -/
theorem txandrx_completes (h : s.Reachable) (t : ι) (hin : s.clients t ≠ .outside)
    (answers : Nat → OobAnswer) :
    ∃ bs s', Run RetryStep s bs s' ∧ Answered RetryAction.Serves answers bs ∧
      s'.clients t = .outside ∧
      (returnsOf t s'.results).length = (returnsOf t s.results).length + 1 :=
  h.inv.completes_call hin answers

/-- A single client has called `txandrx` for frame `7`, and its first attempt has
failed: the interface had no handle for it. -/
def frameRetried : RetrySystem Unit where
  oob :=
    { com := { state := .idle, frame := 7, handle := -1 }
      clients := fun _ => .outside
      net := [.tx 7 (-1)]
      returned := [⟨(), 7, false⟩]
      failed := false }
  clients := fun _ => .between 7 1
  results := []

theorem run_frameRetried :
    Run RetryStep (RetrySystem.initial Unit)
      [.call () 7, .attempt (), .oob (.client () true), .oob (.tx true (-1)),
        .oob (.client () true)] frameRetried := by
  have step2 : OobStep (OobSystem.initial Unit) (.call () 7)
      { OobSystem.initial Unit with clients := fun _ => .entering 7 } :=
    OobStep.call (t := ()) rfl (by decide)
  have step3 : OobStep { OobSystem.initial Unit with clients := fun _ => .entering 7 }
      (.client () true) frameQueued := OobStep.take (t := ()) (Or.inl rfl)
  let refused : OobSystem Unit :=
    { com := { state := .waitingToRecv, frame := 7, handle := -1 }
      clients := fun _ => .woken .busy 7
      net := [.tx 7 (-1)]
      returned := []
      failed := false }
  have step4 : OobStep frameQueued (.tx true (-1)) refused :=
    OobStep.tx (s := frameQueued) (r := ⟨refused.com, [.tx 7 (-1)], true⟩) rfl
      ⟨fun _ => Or.inr ⟨7, rfl, rfl⟩, fun _ => ⟨(), 7, rfl, rfl⟩⟩
  have step5 : OobStep refused (.client () true) frameRetried.oob :=
    OobStep.finish (t := ()) rfl rfl ⟨fun _ => Or.inl rfl, fun ⟨_, _, h⟩ => nomatch h⟩
  have run1 : Run RetryStep (RetrySystem.initial Unit) [.call () 7] _ :=
    Run.single (RetryStep.call (t := ()) rfl (by decide))
  have run2 := run1.next (RetryStep.attempt (t := ()) rfl (by decide) step2)
  have run3 := run2.next (RetryStep.inner (by simp) step3 rfl)
  have run4 := run3.next (RetryStep.inner (by simp) step4 rfl)
  have last : RetryStep ⟨refused, fun _ => .trying 7 0, []⟩ (.oob (.client () true))
      (RetrySystem.returns ⟨refused, fun _ => .trying 7 0, []⟩ frameRetried.oob () 7 0 false) :=
    RetryStep.returns rfl step5 rfl
  exact run4.next last

theorem frameRetried_groups :
    ∃ groups current : List _,
      List.Forall₂ OobReturn.MadeOf (returnsOf () frameRetried.results) groups ∧
      returnsOf () frameRetried.oob.returned = groups.flatten ++ current ∧
      current.length ≤ maxTries ∧ ∀ r ∈ current, r.success = false :=
  (txandrx_groups ⟨_, run_frameRetried⟩).2 ()

/-- Now with a handle and now without, and never with a reply. -/
theorem frameRetried_completes :
    ∃ bs s', Run RetryStep frameRetried bs s' ∧
      Answered RetryAction.Serves (fun k => ⟨if k % 2 = 0 then 3 else -1, false⟩) bs ∧
      s'.clients () = .outside ∧
      (returnsOf () s'.results).length = (returnsOf () frameRetried.results).length + 1 :=
  txandrx_completes ⟨_, run_frameRetried⟩ () (by decide) _

end Pr2Ethercat
