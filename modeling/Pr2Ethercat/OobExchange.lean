import Pr2Ethercat.OobSystem

/-!
# Exchanges through the mailbox: paired, and never stuck

Two results about every interleaving of `OobSystem`. `oob_exchanges_paired`:
no assertion fails, the network interface sees one `tx` and at most one `rx`
after the other, and every returned call owns one such block.
`oob_no_lost_wakeup`: no wake-up is lost, so as long as `tx()` is called every
unfinished call can be completed, whatever the interface answers and without a
spurious wake-up or a new call to help.

For the second one `Serves` singles out the actions that may be counted on:
clients running when they can, and `tx()` getting the mutex. The interface may
answer each of them differently (`Answered`).
-/

namespace Pr2Ethercat

open Mesa

variable {ι : Type*} {s : OobSystem ι}

/-- What the network interface answers: the handle that `tx` returns, and what
`rx` returns. -/
structure OobAnswer where
  handle : Int
  ok : Bool

/-- A client section or a `tx()` that gets the mutex, with this answer of the
network interface. -/
def OobAction.Serves (answer : OobAnswer) : OobAction ι → Prop
  | .call _ _ => False
  | .client _ ok => ok = answer.ok
  | .spurious _ => False
  | .tx mutexFree handle => mutexFree = true ∧ handle = answer.handle

/-- In the waiting phase the owner has been woken and has yet to run. -/
theorem OobSystem.Inv.owner_woken (h : s.Inv) (hs : s.com.state = .waitingToRecv) :
    ∃ t, s.clients t = .woken .busy s.com.frame ∧ ∀ u, (s.clients u).WaitsOn .busy → u = t := by
  obtain ⟨t, ht, hf, only⟩ := h.owner (by simp [hs])
  obtain ⟨f, hb | hw⟩ := ht.cases
  · exact absurd hb (h.sent hs t f)
  · rw [hw, Pc.local?_woken, Option.some.injEq] at hf
    exact ⟨t, by rw [hw, hf], only⟩

/-- With the slot free, an unfinished call has somebody who can take it. -/
theorem OobSystem.Inv.exists_taker (h : s.Inv) (hs : s.com.state = .idle) {t : ι}
    (ht : s.clients t ≠ .outside) :
    ∃ u f, s.clients u = .entering f ∨ s.clients u = .woken .share f := by
  cases hp : s.clients t with
  | outside => exact absurd hp ht
  | entering f => exact ⟨t, f, Or.inl hp⟩
  | blocked c f =>
    cases c with
    | busy => exact absurd (by rw [hp]; exact rfl) (h.idle hs t)
    | share =>
      obtain ⟨u, g, hu⟩ := h.shared hs ⟨t, f, hp⟩
      exact ⟨u, g, Or.inr hu⟩
  | woken c f =>
    cases c with
    | busy => exact absurd (by rw [hp]; exact rfl) (h.idle hs t)
    | share => exact ⟨t, f, Or.inr hp⟩

variable [DecidableEq ι]

/-- The step in which `tx()` sends the frame and everybody on `busy_cond_` wakes up. -/
theorem OobSystem.Inv.send_step (h : s.Inv) (hs : s.com.state = .readyToSend) (handle : Int) :
    OobStep s (.tx true handle)
      { s with
        com := { s.com with handle := handle, state := .waitingToRecv }
        clients := fun t => (s.clients t).wake .busy
        net := s.net ++ [.tx s.com.frame handle] } := by
  have hnull : s.com.frame ≠ NULL := h.frame_ne_null (by simp [hs])
  refine OobStep.tx (tx_ready hs hnull handle) ?_
  rw [if_pos rfl]
  exact Signals.wake_all OobCond.busy s.clients

/-! ## Completing a call -/

/-- `s` has a run of serving actions that ends with the return of `t`'s call, when
the network interface answers `answers 0, answers 1, …` to them. -/
def OobSystem.Completes (s : OobSystem ι) (t : ι) (answers : Nat → OobAnswer) : Prop :=
  ∃ as s' done r, Run OobStep s as s' ∧ Answered OobAction.Serves answers as ∧
    s'.returned = s.returned ++ done ++ [r] ∧ r.client = t

theorem OobSystem.Completes.after {s' : OobSystem ι} {t : ι} {as : List (OobAction ι)}
    {answers : Nat → OobAnswer} {done : List (OobReturn ι)}
    (h : s'.Completes t fun k => answers (as.length + k))
    (run : Run OobStep s as s') (hserves : Answered OobAction.Serves answers as)
    (hdone : s'.returned = s.returned ++ done) : s.Completes t answers := by
  obtain ⟨bs, s'', done', r, run', hserves', hreturned, hr⟩ := h
  refine ⟨as ++ bs, s'', done ++ done', r, run.append run', hserves.append hserves', ?_, hr⟩
  rw [hreturned, hdone, List.append_assoc s.returned]

/-- The owner of the slot can return, and everybody blocked on the slot is woken. -/
structure OobSystem.Frees (s : OobSystem ι) (o : ι) (answers : Nat → OobAnswer)
    (s' : OobSystem ι) : Prop where
  run : ∃ as, Run OobStep s as s' ∧ Answered OobAction.Serves answers as
  idle : s'.com.state = .idle
  returned : ∃ r, s'.returned = s.returned ++ [r] ∧ r.client = o
  others : ∀ u, u ≠ o → s'.clients u = (s.clients u).wake .share

theorem OobSystem.Inv.frees_waiting (h : s.Inv) (hs : s.com.state = .waitingToRecv) {o : ι}
    (ho : (s.clients o).WaitsOn .busy) (answers : Nat → OobAnswer) :
    ∃ s', s.Frees o answers s' := by
  obtain ⟨t, ht, only⟩ := h.owner_woken hs
  obtain rfl := only o ho
  have step := OobStep.finish ht (receive_waiting hs (answers 0).ok)
    (Signals.wake_all OobCond.share _)
  refine ⟨_, ⟨_, Run.single step, .single rfl⟩, rfl, ⟨_, rfl, rfl⟩, fun u hu => ?_⟩
  show (Function.update s.clients o .outside u).wake OobCond.share = _
  rw [Function.update_of_ne hu]

theorem OobSystem.Inv.frees_ready (h : s.Inv) (hs : s.com.state = .readyToSend) {o : ι}
    (ho : (s.clients o).WaitsOn .busy) (answers : Nat → OobAnswer) :
    ∃ s', s.Frees o answers s' := by
  have step := h.send_step hs (answers 0).handle
  have hwake : ∀ u, ((s.clients u).wake .busy).WaitsOn .busy ↔ (s.clients u).WaitsOn .busy :=
    (Signals.wake_all OobCond.busy s.clients).waitsOn_iff .busy
  obtain ⟨s', ⟨as, run, hserves⟩, hidle, hreturned, hothers⟩ :=
    (h.step step).frees_waiting rfl ((hwake o).mpr ho) fun k => answers (1 + k)
  have hsend : Answered OobAction.Serves answers [OobAction.tx (ι := ι) true (answers 0).handle] :=
    .single ⟨rfl, rfl⟩
  refine ⟨s', ⟨_, (Run.single step).append run, hsend.append hserves⟩, hidle, hreturned, ?_⟩
  -- only the owner was on `busy_cond_`, so sending moved nobody else
  intro u hu
  obtain ⟨_, _, _, only⟩ := h.owner (by simp [hs])
  have hnot : ¬ (s.clients u).WaitsOn .busy := fun hw => hu ((only u hw).trans (only o ho).symm)
  rw [hothers u hu]
  show ((s.clients u).wake .busy).wake .share = _
  rw [Pc.wake_of_not_waitsOn hnot]

theorem OobSystem.Inv.frees (h : s.Inv) {o : ι} (ho : (s.clients o).WaitsOn .busy)
    (answers : Nat → OobAnswer) : ∃ s', s.Frees o answers s' := by
  cases hs : s.com.state with
  | idle => exact absurd ho (h.idle hs o)
  | readyToSend => exact h.frees_ready hs ho answers
  | waitingToRecv => exact h.frees_waiting hs ho answers

theorem OobSystem.Frees.inv {s' : OobSystem ι} {o : ι} {answers : Nat → OobAnswer}
    (hf : s.Frees o answers s') (h : s.Inv) : s'.Inv := by
  obtain ⟨as, run, _⟩ := hf.run
  exact run.invariant (fun _ _ _ h step => h.step step) h

/-- The owner of the slot. -/
theorem OobSystem.Inv.completes_owner (h : s.Inv) {t : ι} (ht : (s.clients t).WaitsOn .busy)
    (answers : Nat → OobAnswer) : s.Completes t answers := by
  obtain ⟨s', ⟨as, run, hserves⟩, _, ⟨r, hreturned, hr⟩, _⟩ := h.frees ht answers
  exact ⟨as, s', [], r, run, hserves, by rw [hreturned, List.append_nil], hr⟩

/-- A client that finds the slot free. -/
theorem OobSystem.Inv.completes_taker (h : s.Inv) (hs : s.com.state = .idle) {t : ι} {f : Nat}
    (ht : s.clients t = .entering f ∨ s.clients t = .woken .share f)
    (answers : Nat → OobAnswer) : s.Completes t answers := by
  have step : OobStep s (.client t (answers 0).ok) _ := OobStep.take ht
  have hbusy : (s.com.takeSlot f).2 = .busy := by rw [takeSlot_idle hs]
  refine ((h.step step).completes_owner ?_ _).after (Run.single step) (.single rfl)
    (List.append_nil _).symm
  show (Function.update s.clients t _ t).WaitsOn .busy
  rw [Function.update_self, hbusy]
  exact rfl

/-- A client that is not on the slot itself, when somebody owns it. -/
theorem OobSystem.Inv.completes_behind (h : s.Inv) {o t : ι} (ho : (s.clients o).WaitsOn .busy)
    (ht : ¬ (s.clients t).WaitsOn .busy) (hin : s.clients t ≠ .outside)
    (answers : Nat → OobAnswer) : s.Completes t answers := by
  have hne : t ≠ o := fun heq => ht (heq ▸ ho)
  obtain ⟨s', hf⟩ := h.frees ho answers
  obtain ⟨as, run, hserves⟩ := hf.run
  obtain ⟨r, hreturned, _⟩ := hf.returned
  have hmoved := hf.others t hne
  refine OobSystem.Completes.after ?_ run hserves hreturned
  cases hp : s.clients t with
  | outside => exact absurd hp hin
  | entering f =>
    rw [hp, Pc.wake_entering] at hmoved
    exact (hf.inv h).completes_taker hf.idle (Or.inl hmoved) _
  | blocked c f =>
    cases c with
    | busy => exact absurd (by rw [hp]; exact rfl) ht
    | share =>
      rw [hp, Pc.wake_blocked] at hmoved
      exact (hf.inv h).completes_taker hf.idle (Or.inr hmoved) _
  | woken c f =>
    cases c with
    | busy => exact absurd (by rw [hp]; exact rfl) ht
    | share =>
      rw [hp, Pc.wake_woken] at hmoved
      exact (hf.inv h).completes_taker hf.idle (Or.inr hmoved) _

/-- Every unfinished call can be completed. -/
theorem OobSystem.Inv.completes (h : s.Inv) {t : ι} (ht : s.clients t ≠ .outside)
    (answers : Nat → OobAnswer) : s.Completes t answers := by
  by_cases hs : s.com.state = .idle
  · obtain ⟨u, f, hu⟩ := h.exists_taker hs ht
    by_cases hut : u = t
    · rw [hut] at hu
      exact h.completes_taker hs hu answers
    · -- the one that was woken goes first, and then owns the slot
      have step : OobStep s (.client u (answers 0).ok) _ := OobStep.take hu
      have hbusy : (s.com.takeSlot f).2 = .busy := by rw [takeSlot_idle hs]
      have hsame : Function.update s.clients u (.blocked (s.com.takeSlot f).2 f) t = s.clients t :=
        Function.update_of_ne (fun htu => hut htu.symm) ..
      have howner :
          (Function.update s.clients u (.blocked (s.com.takeSlot f).2 f) u).WaitsOn .busy := by
        rw [Function.update_self, hbusy]
        exact rfl
      refine ((h.step step).completes_behind howner ?_ ?_ _).after (Run.single step) (.single rfl)
        (List.append_nil _).symm
      · show ¬ (Function.update s.clients u _ t).WaitsOn .busy
        rw [hsame]
        exact h.idle hs t
      · show Function.update s.clients u _ t ≠ .outside
        rw [hsame]
        exact ht
  · obtain ⟨o, ho, _, _⟩ := h.owner hs
    by_cases hw : (s.clients t).WaitsOn .busy
    · exact h.completes_owner hw answers
    · exact h.completes_behind ho hw ht answers

/-! ## A frame that waits to be sent -/

/-- The frame is sent by the next `tx()` that gets the mutex. -/
theorem OobSystem.Inv.exists_send (h : s.Inv) (hs : s.com.state = .readyToSend) (handle : Int) :
    ∃ s', OobStep s (.tx true handle) s' ∧ s'.com.state = .waitingToRecv :=
  ⟨_, h.send_step hs handle, rfl⟩

/-- Nothing else changes the mailbox before that. -/
theorem OobSystem.Inv.ready_step (h : s.Inv) (hs : s.com.state = .readyToSend) {a : OobAction ι}
    {s' : OobSystem ι} (step : OobStep s a s') :
    s'.com = s.com ∧ (∀ handle, a ≠ .tx true handle) ∨
      ∃ handle, a = .tx true handle ∧
        s'.com = { s.com with handle := handle, state := .waitingToRecv } := by
  have hnull : s.com.frame ≠ NULL := h.frame_ne_null (by simp [hs])
  cases step with
  | call => exact Or.inl ⟨rfl, by simp⟩
  | take =>
    refine Or.inl ⟨?_, by simp⟩
    rw [takeSlot_taken (by simp [hs])]
  | waitAgain => exact Or.inl ⟨rfl, by simp⟩
  | finish _ res =>
    rw [receive_not_waiting (by simp [hs])] at res
    exact absurd res (by simp)
  | clientAssert => exact Or.inl ⟨rfl, by simp⟩
  | spurious => exact Or.inl ⟨rfl, by simp⟩
  | @tx mutexFree handle r clients res signal =>
    cases mutexFree with
    | false =>
      obtain rfl := Option.some.inj res
      exact Or.inl ⟨rfl, by simp⟩
    | true =>
      rw [tx_ready hs hnull] at res
      obtain rfl := Option.some.inj res
      exact Or.inr ⟨handle, rfl, rfl⟩
  | @txAssert mutexFree handle res =>
    cases mutexFree with
    | false => exact absurd res (by simp [EthercatOobCom.tx])
    | true =>
      rw [tx_ready hs hnull] at res
      exact absurd res (by simp)

/-! ## Results -/

/-- **Pairing.** In every interleaving no assertion fails, and the calls on the
network interface are one block for each returned call, in the order of their
returns, each with the frame of its call and the outcome the call reported; at
most one more block has begun. -/
theorem oob_exchanges_paired (h : s.Reachable) : s.failed = false ∧ s.Paired :=
  ⟨h.inv.running, h.inv.paired⟩

/-- **No lost wake-up.** In every state an interleaving can reach, with the
mutex free: a free slot that somebody is blocked on has somebody on the way to
it; a sent frame has its owner awake; a frame to be sent stays until a `tx()`
gets the mutex, and that one sends it. So no unfinished call is stuck: clients
that run and `tx()` calls are enough to complete it, whatever the interface
answers from call to call. -/
theorem oob_no_lost_wakeup (h : s.Reachable) :
    (s.com.state = .idle → (∃ t f, s.clients t = .blocked .share f) →
      ∃ t f, s.clients t = .woken .share f) ∧
    (s.com.state = .waitingToRecv →
      ∃ t, s.clients t = .woken .busy s.com.frame ∧ ∀ u, (s.clients u).WaitsOn .busy → u = t) ∧
    (s.com.state = .readyToSend →
      (∀ handle, ∃ s', OobStep s (.tx true handle) s' ∧ s'.com.state = .waitingToRecv) ∧
      ∀ a s', OobStep s a s' → s'.com = s.com ∧ (∀ handle, a ≠ .tx true handle) ∨
        ∃ handle, a = .tx true handle ∧
          s'.com = { s.com with handle := handle, state := .waitingToRecv }) ∧
    (∀ t, s.clients t ≠ .outside → ∀ answers, s.Completes t answers) :=
  ⟨h.inv.shared, h.inv.owner_woken,
    fun hs => ⟨h.inv.exists_send hs, fun _ _ step => h.inv.ready_step hs step⟩,
    fun _ ht answers => h.inv.completes ht answers⟩

/-! ## Two clients, and one -/

/-- Client `true` gets a reply to frame `7`; the other one, which has waited for the
slot, has frame `9` sent next, and there is no handle for it. -/
theorem twoClients_paired :
    ∃ s, Run OobStep (OobSystem.initial Bool)
        [.call true 7, .client true true, .call false 9, .client false true, .tx true 3,
          .client true true, .client false true, .tx true (-1)] s ∧
      s.net = [.tx 7 3, .rx 7 3 true, .tx 9 (-1)] ∧ s.returned = [⟨true, 7, true⟩] ∧
      s.failed = false ∧ s.Paired := by
  have run1 : Run OobStep (OobSystem.initial Bool) [.call true 7] _ :=
    Run.single (OobStep.call rfl (by decide))
  have run2 := run1.next (show OobStep _ (.client true true) _ from OobStep.take (Or.inl rfl))
  have run3 := run2.next (show OobStep _ (.call false 9) _ from OobStep.call rfl (by decide))
  -- the slot is taken
  have run4 := run3.next (show OobStep _ (.client false true) _ from OobStep.take (Or.inl rfl))
  have run5 := run4.next (show OobStep _ (.tx true 3) _ from
    OobStep.tx rfl (Signals.wake_all OobCond.busy _))
  have run6 := run5.next (show OobStep _ (.client true true) _ from
    OobStep.finish rfl rfl (Signals.wake_all OobCond.share _))
  have run7 := run6.next (show OobStep _ (.client false true) _ from OobStep.take (Or.inr rfl))
  have run8 := run7.next (show OobStep _ (.tx true (-1)) _ from
    OobStep.tx rfl (Signals.wake_all OobCond.busy _))
  exact ⟨_, run8, rfl, rfl, oob_exchanges_paired ⟨_, run8⟩⟩

/-- A single client (`ι = Unit`) has handed over frame `7` and is blocked on `busy_cond_`. -/
def frameQueued : OobSystem Unit where
  com := { state := .readyToSend, frame := 7, handle := -1 }
  clients := fun _ => .blocked .busy 7
  net := []
  returned := []
  failed := false

theorem run_frameQueued :
    Run OobStep (OobSystem.initial Unit) [.call () 7, .client () true] frameQueued := by
  have step1 : OobStep (OobSystem.initial Unit) (.call () 7)
      { OobSystem.initial Unit with clients := fun _ => .entering 7 } :=
    OobStep.call (t := ()) rfl (by decide)
  have step2 : OobStep { OobSystem.initial Unit with clients := fun _ => .entering 7 }
      (.client () true) frameQueued := OobStep.take (t := ()) (Or.inl rfl)
  exact (Run.single step1).next step2

/-- The interface has a handle for the frame, and receives nothing. -/
theorem frameQueued_completes : frameQueued.Completes () fun k => ⟨k, false⟩ :=
  (oob_no_lost_wakeup ⟨_, run_frameQueued⟩).2.2.2 () (by decide) fun k => ⟨k, false⟩

end Pr2Ethercat
