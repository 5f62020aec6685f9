import Mathlib.Algebra.GroupWithZero.Nat
import Pr2Ethercat.Freshness
import Pr2Ethercat.OobRetry

/-!
# Who serves the mailbox

The clients of the mailbox depend on `tx()` being called, and the driver calls it
in one place: in `txandrx_PD`, after every attempt to exchange the process data
has failed. `ServedSystem` is the driver's cycles and the clients around one
mailbox, with no other caller of `tx()`.

So the frames on the interface are counted against the cycles that failed
(`sends_le_failedIn`). On a bus that works no out-of-band call ever returns, and
on one that does not every call does (`service_needs_failures`); what the clients
do makes no difference to the process data (`driver_run`).
-/

namespace Pr2Ethercat

open Mesa Retry

/-! ## The system -/

structure ServedSystem (ι : Type*) where
  driver : Driver
  clients : RetrySystem ι

inductive ServedAction (ι : Type*) where
  | cycle (c : Cycle)
  | client (a : RetryAction ι)

variable {ι : Type*}

/-- `d` is what start-up left; nobody has used the mailbox. -/
def ServedSystem.start (ι : Type*) (d : Driver) : ServedSystem ι := ⟨d, RetrySystem.initial ι⟩

/-- `tx()` is not the clients' to call. -/
def RetryAction.IsTx : RetryAction ι → Prop
  | .oob (.tx _ _) => True
  | _ => False

inductive ServedStep [DecidableEq ι] : ServedSystem ι → ServedAction ι → ServedSystem ι → Prop where
  /-- A cycle that exchanges the process data. -/
  | exchanges {s : ServedSystem ι} {c : Cycle} (hoob : c.net.oob = s.clients.oob.com)
      (hsuccess : (update c s.driver).exchange.success = true) :
      ServedStep s (.cycle c) { s with driver := (update c s.driver).driver }
  /-- A cycle that does not, and calls `tx()`. -/
  | serves {s : ServedSystem ι} {c : Cycle} {oob : OobSystem ι}
      (hoob : c.net.oob = s.clients.oob.com)
      (hfailed : (update c s.driver).exchange.success = false)
      (step : OobStep s.clients.oob (.tx c.net.oobMutexFree c.net.handle) oob) :
      ServedStep s (.cycle c)
        { s with
          driver := (update c s.driver).driver
          clients := { s.clients with oob := oob } }
  | client {s : ServedSystem ι} {a : RetryAction ι} {clients : RetrySystem ι} (htx : ¬ a.IsTx)
      (step : RetryStep s.clients a clients) :
      ServedStep s (.client a) { s with clients := clients }

/-- The cycles of a run. -/
def cyclesOf (as : List (ServedAction ι)) : List Cycle :=
  as.filterMap fun
    | .cycle c => some c
    | .client _ => none

/-- How many of them got no reply. -/
def failedIn (as : List (ServedAction ι)) : Nat := (cyclesOf as).countP (·.reply.isNone)

theorem update_success (c : Cycle) (d : Driver) :
    (update c d).exchange.success = c.reply.isSome :=
  txandrxPD_success _ (packCommand c.env d).masterBufferSize (packCommand c.env d).thisBuffer ..

theorem cyclesOf_append_cycle (as : List (ServedAction ι)) (c : Cycle) :
    cyclesOf (as ++ [.cycle c]) = cyclesOf as ++ [c] := List.filterMap_append ..

theorem cyclesOf_append_client (as : List (ServedAction ι)) (a : RetryAction ι) :
    cyclesOf (as ++ [.client a]) = cyclesOf as := by
  unfold cyclesOf
  rw [List.filterMap_append]
  exact List.append_nil _

/-! ## Sending -/

/-- How many frames have been sent. -/
def sends (net : List NetCall) : Nat :=
  net.countP fun
    | .tx _ _ => true
    | .rx _ _ _ => false

/-- A block begins with its one `tx`. -/
theorem sends_calls (b : OobBlock) : sends b.calls = 1 := by
  unfold OobBlock.calls
  split
  · rfl
  · rfl

/-- Every attempt that has returned sent its frame. -/
theorem OobSystem.Paired.returned_le {s : OobSystem ι} (h : s.Paired) :
    s.returned.length ≤ sends s.net := by
  obtain ⟨blocks, hnet, howns⟩ := h
  have hblocks : sends (blocks.flatMap OobBlock.calls) = blocks.length := by
    clear hnet howns
    induction blocks with
    | nil => rfl
    | cons b blocks ih =>
      have hfirst := sends_calls b
      unfold sends at hfirst ih ⊢
      rw [List.flatMap_cons, List.countP_append, hfirst, ih, List.length_cons, Nat.add_comm]
  rw [howns.length_eq, ← hblocks, hnet]
  unfold sends
  rw [List.countP_append]
  exact Nat.le_add_right ..

/-- The attempts a call of `txandrx` makes at least. -/
def OobReturn.leastTries (r : OobReturn ι) : Nat := if r.success = true then 1 else maxTries

theorem OobReturn.MadeOf.leastTries_le {r : OobReturn ι} {group : List (OobReturn ι)}
    (h : r.MadeOf group) : r.leastTries ≤ group.length := by
  unfold MadeOf at h
  unfold leastTries
  split at h
  · obtain ⟨k, _, rfl⟩ := h
    rw [if_pos ‹_›, List.length_append, List.length_singleton]
    exact Nat.le_add_left ..
  · rw [if_neg ‹_›, h, List.length_replicate]

theorem sum_leastTries_le {results : List (OobReturn ι)} {groups : List (List (OobReturn ι))}
    (h : List.Forall₂ OobReturn.MadeOf results groups) :
    (results.map OobReturn.leastTries).sum ≤ groups.flatten.length := by
  induction h with
  | nil => exact Nat.le_refl _
  | cons hmade _ ih =>
    rw [List.map_cons, List.sum_cons, List.flatten_cons, List.length_append]
    exact Nat.add_le_add hmade.leastTries_le ih

/-- Receiving sends nothing. -/
theorem sends_receive {com com' : EthercatOobCom} {frame : Nat} {ok success : Bool}
    {calls : List NetCall} (res : com.receive frame ok = some (.returns com' calls success)) :
    sends calls = 0 := by
  by_cases hs : com.state = .waitingToRecv
  · by_cases hframe : com.frame = frame
    · subst hframe
      rw [receive_waiting hs, Option.some.injEq, BusyResult.returns.injEq] at res
      obtain ⟨_, rfl, _⟩ := res
      split
      · rfl
      · rfl
    · -- the assertion has failed
      unfold EthercatOobCom.receive at res
      rw [if_neg (not_not_intro hs)] at res
      simp only [ne_eq, hframe, not_false_eq_true, if_true] at res
      exact absurd res (by simp)
  · rw [receive_not_waiting hs] at res
    exact absurd res (by simp)

/-- `tx()` sends one frame at most. -/
theorem sends_tx {com : EthercatOobCom} {mutexFree : Bool} {handle : Int} {r : TxResult}
    (res : com.tx mutexFree handle = some r) : sends r.calls ≤ 1 := by
  by_cases hs : com.state = .readyToSend
  · unfold EthercatOobCom.tx at res
    rw [if_pos hs] at res
    split at res
    · obtain rfl := Option.some.inj res
      exact Nat.zero_le _
    · split at res
      · exact absurd res (by simp)
      · obtain rfl := Option.some.inj res
        exact Nat.le_refl _
  · rw [tx_not_ready hs] at res
    obtain rfl := Option.some.inj res
    exact Nat.zero_le _

section Sends

variable [DecidableEq ι]

/-- Only `tx()` sends, and one frame at most. -/
theorem OobStep.sends_le {s s' : OobSystem ι} {a : OobAction ι} (step : OobStep s a s') :
    sends s'.net ≤ sends s.net + 1 ∧
      ((∀ mutexFree handle, a ≠ .tx mutexFree handle) → sends s'.net = sends s.net) := by
  have hnone : ∀ {calls : List NetCall}, sends calls = 0 →
      sends (s.net ++ calls) = sends s.net := by
    intro calls hcalls
    unfold sends at hcalls ⊢
    rw [List.countP_append, hcalls, Nat.add_zero]
  cases step with
  | call | take | waitAgain | clientAssert | spurious | txAssert =>
    exact ⟨Nat.le_succ _, fun _ => rfl⟩
  | @finish t frame ok success com calls clients woken res signal =>
    have hcalls : sends calls = 0 := sends_receive res
    refine ⟨?_, fun _ => hnone hcalls⟩
    show sends (s.net ++ calls) ≤ _
    rw [hnone hcalls]
    exact Nat.le_succ _
  | @tx mutexFree handle r clients res signal =>
    refine ⟨?_, fun hnot => absurd rfl (hnot mutexFree handle)⟩
    have hcalls := sends_tx res
    show sends (s.net ++ r.calls) ≤ _
    unfold sends at hcalls ⊢
    rw [List.countP_append]
    omega

/-- The clients send nothing. -/
theorem RetryStep.sends_eq {s s' : RetrySystem ι} {a : RetryAction ι} (step : RetryStep s a s')
    (htx : ¬ a.IsTx) : sends s'.oob.net = sends s.oob.net := by
  cases step with
  | call => rfl
  | attempt hpc hleft step => exact step.sends_le.2 (by simp)
  | giveUp => rfl
  | inner hcall step hsame =>
    refine step.sends_le.2 ?_
    rintro mutexFree handle rfl
    exact htx trivial
  | returns hpc step hreturned => exact step.sends_le.2 (by simp)

end Sends

/-! ## Runs -/

section Runs

variable [DecidableEq ι] {s s' : ServedSystem ι} {d : Driver}

/-- **Step lemma.** -/
theorem ServedStep.inv {a : ServedAction ι} (hstep : ServedStep s a s') (h : s.clients.Inv) :
    s'.clients.Inv := by
  cases hstep with
  | exchanges => exact h
  | @serves c oob hoob hfailed step =>
    -- `tx()` ends no attempt
    have hsame : oob.returned = s.clients.oob.returned := by
      rcases step.returned_cases with hsame | ⟨_, _, _, _, hclient, _⟩
      · exact hsame
      · exact absurd hclient (by simp)
    exact h.step (RetryStep.inner (by simp) step hsame)
  | client htx step => exact h.step step

/-- **Run lemma.** -/
theorem served_inv {as : List (ServedAction ι)}
    (run : Run ServedStep (ServedSystem.start ι d) as s) : s.clients.Inv := by
  induction run with
  | start => exact RetrySystem.inv_initial
  | next _ hstep ih => exact hstep.inv ih

/-- The clients make no difference to the process data. -/
theorem driver_run {as : List (ServedAction ι)}
    (run : Run ServedStep (ServedSystem.start ι d) as s) :
    s.driver = runCycles d (cyclesOf as) := by
  have hcycle : ∀ (d : Driver) (cs : List Cycle) (c : Cycle),
      runCycles d (cs ++ [c]) = (update c (runCycles d cs)).driver := by
    intro d cs c
    unfold runCycles
    rw [List.foldl_append]
    rfl
  induction run with
  | start => rfl
  | next _ hstep ih =>
    cases hstep with
    | exchanges =>
      rw [cyclesOf_append_cycle, hcycle, ← ih]
    | serves =>
      rw [cyclesOf_append_cycle, hcycle, ← ih]
    | client =>
      rw [cyclesOf_append_client]
      exact ih

/-- A frame is sent in a cycle that failed. -/
theorem sends_le_failedIn {as : List (ServedAction ι)}
    (run : Run ServedStep (ServedSystem.start ι d) as s) :
    sends s.clients.oob.net ≤ failedIn as := by
  induction run with
  | start => exact Nat.le_refl _
  | next _ hstep ih =>
    cases hstep with
    | exchanges =>
      unfold failedIn at ih ⊢
      rw [cyclesOf_append_cycle, List.countP_append]
      exact Nat.le_trans ih (Nat.le_add_right ..)
    | serves hoob hfailed step =>
      have hsent := step.sends_le.1
      rw [update_success, Bool.eq_false_iff, ne_eq, Option.isSome_iff_ne_none, not_not] at hfailed
      unfold failedIn at ih ⊢
      rw [cyclesOf_append_cycle, List.countP_append, List.countP_singleton, hfailed]
      exact Nat.le_trans hsent (Nat.add_le_add_right ih 1)
    | client htx step =>
      unfold failedIn at ih ⊢
      rw [cyclesOf_append_client]
      show sends _ ≤ _
      rw [step.sends_eq htx]
      exact ih

/-- The calls of one client that have returned, against all attempts. -/
theorem RetrySystem.Inv.sum_leastTries_le {s : RetrySystem ι} (h : s.Inv) (t : ι) :
    ((returnsOf t s.results).map OobReturn.leastTries).sum ≤ s.oob.returned.length := by
  obtain ⟨_, groups, hmade, hattempts⟩ := h.grouped t
  calc ((returnsOf t s.results).map OobReturn.leastTries).sum
      ≤ groups.flatten.length := Pr2Ethercat.sum_leastTries_le hmade
    _ ≤ (returnsOf t s.oob.returned).length := by
        rw [hattempts, List.length_append]
        exact Nat.le_add_right ..
    _ ≤ s.oob.returned.length := List.length_filter_le ..

/-! ## When the bus is down -/

/-- A cycle without a reply, which finds the mailbox `com` and calls `tx()`. -/
def failingCycle (env : PackEnv) (com : EthercatOobCom) (handle : Int) : Cycle where
  env := env
  net := { replies := fun _ => none, oob := com, oobMutexFree := true, handle := handle }

theorem reply_failingCycle (env : PackEnv) (com : EthercatOobCom) (handle : Int) :
    (failingCycle env com handle).reply = none := Cycle.reply_eq_none_iff.mpr fun _ _ => rfl

/-- Nothing but clients going on and cycles that fail. -/
def ServedAction.OnlyFails : ServedAction ι → Prop
  | .cycle c => c.reply = none
  | .client (.call _ _) => False
  | .client _ => True

/-- A step that serves the clients is one of these. -/
theorem ServedStep.of_serves {a : RetryAction ι} {clients : RetrySystem ι} (env : PackEnv)
    {answer : OobAnswer} (step : RetryStep s.clients a clients) (ha : a.Serves answer) :
    ∃ b s', ServedStep s b s' ∧ b.OnlyFails ∧ s'.clients = clients := by
  cases step with
  | call => exact ha.elim
  | attempt hpc hleft step =>
    refine ⟨_, _, .client ?_ (.attempt hpc hleft step), trivial, rfl⟩
    exact fun h => h
  | giveUp hpc hleft =>
    refine ⟨_, _, .client ?_ (.giveUp hpc hleft), trivial, rfl⟩
    exact fun h => h
  | returns hpc step hreturned =>
    refine ⟨_, _, .client ?_ (.returns hpc step hreturned), trivial, rfl⟩
    exact fun h => h
  | @inner a oob hcall step hsame =>
    cases a with
    | call t frame => exact absurd rfl (hcall t frame)
    | client t ok =>
      refine ⟨_, _, .client ?_ (.inner hcall step hsame), trivial, rfl⟩
      exact fun h => h
    | spurious t => exact ha.elim
    | tx mutexFree handle' =>
      obtain ⟨rfl, _⟩ := ha
      let c := failingCycle env s.clients.oob.com handle'
      have hreply : c.reply = none := reply_failingCycle ..
      have hfailed : (update c s.driver).exchange.success = false := by
        rw [update_success, hreply]
        rfl
      exact ⟨.cycle c, _, .serves rfl hfailed step, hreply, rfl⟩

/-- And so is a run. -/
theorem served_of_serves {as : List (RetryAction ι)} {clients : RetrySystem ι} (env : PackEnv)
    (run : Run RetryStep s.clients as clients) (hserves : ∀ a ∈ as, ∃ answer, a.Serves answer) :
    ∃ bs s', Run ServedStep s bs s' ∧ (∀ b ∈ bs, b.OnlyFails) ∧ s'.clients = clients := by
  induction run with
  | start => exact ⟨[], s, Run.start, by simp, rfl⟩
  | @next _ _ _ a _ step ih =>
    obtain ⟨bs, s₁, hrun, hbs, rfl⟩ := ih fun b hb => hserves b (List.mem_append_left _ hb)
    obtain ⟨_, ha⟩ := hserves a (List.mem_append_right _ (List.mem_singleton_self a))
    obtain ⟨b, s₂, hstep, hb, hclients⟩ := ServedStep.of_serves env step ha
    refine ⟨bs ++ [b], s₂, hrun.next hstep, ?_, hclients⟩
    intro b' hb'
    rcases List.mem_append.mp hb' with hb' | hb'
    · exact hbs b' hb'
    · rw [List.mem_singleton.mp hb']
      exact hb

end Runs

/-- **Service.** In every run of cycles and clients, the process data are what the
cycles alone make of them; a frame is sent, and an attempt returns, only for a
cycle that failed, so that a call of `txandrx` that returned `false` has taken ten
of them; but if the cycles go on failing, every call that has begun can be
completed. -/
theorem service_needs_failures {ι : Type*} [DecidableEq ι] (d : Driver)
    (as : List (ServedAction ι)) (s : ServedSystem ι)
    (run : Run ServedStep (ServedSystem.start ι d) as s) :
    s.driver = runCycles d (cyclesOf as) ∧
      sends s.clients.oob.net ≤ failedIn as ∧
      s.clients.oob.returned.length ≤ failedIn as ∧
      (∀ t, ((returnsOf t s.clients.results).map OobReturn.leastTries).sum ≤ failedIn as) ∧
      ∀ t, s.clients.clients t ≠ .outside →
        ∃ bs s', Run ServedStep s bs s' ∧ (∀ b ∈ bs, b.OnlyFails) ∧
          s'.clients.clients t = .outside ∧
          (returnsOf t s'.clients.results).length
            = (returnsOf t s.clients.results).length + 1 := by
  have hinv := served_inv run
  have hsends := sends_le_failedIn run
  have hreturned := Nat.le_trans hinv.oob.paired.returned_le hsends
  refine ⟨driver_run run, hsends, hreturned, ?_, ?_⟩
  · intro t
    exact Nat.le_trans (hinv.sum_leastTries_le t) hreturned
  · intro t hin
    obtain ⟨bs, clients, hrun, hserves, hout, hlength⟩ :=
      hinv.completes_call hin fun _ => ⟨-1, false⟩
    obtain ⟨cs, s', hrun', hfails, rfl⟩ :=
      served_of_serves ⟨fun _ => 0, fun _ => ⟨0, 0, ⟨0, 0⟩⟩⟩ hrun fun _ ha => hserves.mem ha
    exact ⟨cs, s', hrun', hfails, hout, hlength⟩

/-- One board that answers, and a client whose frame therefore stays where it is. -/
theorem oneBoard_unserved :
    ∃ s, Run ServedStep (ServedSystem.start Unit (setMasterBuffer oneBoardSetup oneBoard).2)
        [.client (.call () 7), .cycle (cycleWith 0 (some fun _ => 1))] s ∧
      s.clients.clients () = .between 7 0 ∧ sends s.clients.oob.net ≤ 0 := by
  have run1 : Run ServedStep (ServedSystem.start Unit (setMasterBuffer oneBoardSetup oneBoard).2)
      [.client (.call () 7)] _ := Run.single (.client (fun h => h) (.call rfl (by decide)))
  have hsuccess : ∀ d, (update (cycleWith 0 (some fun _ => 1)) d).exchange.success = true :=
    fun d => update_success _ d
  have run2 := run1.next (.exchanges (c := cycleWith 0 (some fun _ => 1)) rfl (hsuccess _))
  exact ⟨_, run2, rfl, (service_needs_failures _ _ _ run2).2.1⟩

end Pr2Ethercat
