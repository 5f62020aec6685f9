import Mathlib.Data.List.Forall2
import Mathlib.Logic.Function.Basic
import Pr2Ethercat.Lib.Mesa
import Pr2Ethercat.OobCom

/-!
# Client threads and the real-time loop around one mailbox

Any number of client threads (`ι`) call `txandrx_once`, again and again, while
something calls `tx()`. `OobStep` lets one mutex-protected section of one of
them run: which one, what the network interface answers and who a signal wakes
is up to the environment, so a run of `OobStep` from `OobSystem.initial` is an
arbitrary interleaving.

`OobSystem.Inv` is what every section preserves. Its heart is the owner: while
the slot is taken exactly one client waits on `busy_cond_`, its frame is
`frame_`, and from the moment the frame is sent that client has been woken.
Calls made on the interface and calls completed are only ever appended to, so
the pairing of the two lists is part of the invariant as well.
-/

namespace Pr2Ethercat

open Mesa

/-! ## The system -/

/-- A call of `txandrx_once` that has returned. -/
structure OobReturn (ι : Type*) where
  client : ι
  frame : Nat
  success : Bool

/-- The state of the mailbox, where the clients are, the calls made on the
network interface so far, the calls of `txandrx_once` that have returned so
far, and whether an `assert` has failed. -/
structure OobSystem (ι : Type*) where
  com : EthercatOobCom
  clients : ι → Pc OobCond Nat
  net : List NetCall
  returned : List (OobReturn ι)
  failed : Bool

def OobSystem.initial (ι : Type*) : OobSystem ι where
  com := .new
  clients := fun _ => .outside
  net := []
  returned := []
  failed := false

inductive OobAction (ι : Type*) where
  /-- `t` calls `txandrx_once(frame)`. -/
  | call (t : ι) (frame : Nat)
  /-- `t` gets the mutex and runs its section; `ni_->rx` would answer `ok`. -/
  | client (t : ι) (ok : Bool)
  /-- `t` wakes up without a signal. -/
  | spurious (t : ι)
  /-- `tx()` is called; `trylock` succeeds or not, `ni_->tx` would return `handle`. -/
  | tx (mutexFree : Bool) (handle : Int)

variable {ι : Type*}

inductive OobStep [DecidableEq ι] : OobSystem ι → OobAction ι → OobSystem ι → Prop where
  | call {s : OobSystem ι} {t : ι} {frame : Nat} (outside : s.clients t = .outside)
      (nonNull : frame ≠ NULL) :
      OobStep s (.call t frame)
        { s with clients := Function.update s.clients t (.entering frame) }
  | take {s : OobSystem ι} {t : ι} {frame : Nat} {ok : Bool}
      (at_loop : s.clients t = .entering frame ∨ s.clients t = .woken .share frame) :
      OobStep s (.client t ok)
        { s with
          com := (s.com.takeSlot frame).1
          clients := Function.update s.clients t (.blocked (s.com.takeSlot frame).2 frame) }
  | waitAgain {s : OobSystem ι} {t : ι} {frame : Nat} {ok : Bool}
      (woken : s.clients t = .woken .busy frame) (res : s.com.receive frame ok = some .waitAgain) :
      OobStep s (.client t ok)
        { s with clients := Function.update s.clients t (.blocked .busy frame) }
  | finish {s : OobSystem ι} {t : ι} {frame : Nat} {ok success : Bool} {com : EthercatOobCom}
      {calls : List NetCall} {clients : ι → Pc OobCond Nat}
      (woken : s.clients t = .woken .busy frame)
      (res : s.com.receive frame ok = some (.returns com calls success))
      (signal : Signals .share (Function.update s.clients t .outside) clients) :
      OobStep s (.client t ok)
        { s with
          com := com
          clients := clients
          net := s.net ++ calls
          returned := s.returned ++ [⟨t, frame, success⟩] }
  | clientAssert {s : OobSystem ι} {t : ι} {frame : Nat} {ok : Bool}
      (woken : s.clients t = .woken .busy frame) (res : s.com.receive frame ok = none) :
      OobStep s (.client t ok) { s with failed := true }
  | spurious {s : OobSystem ι} {t : ι} {c : OobCond} {frame : Nat}
      (blocked : s.clients t = .blocked c frame) :
      OobStep s (.spurious t)
        { s with clients := Function.update s.clients t (.woken c frame) }
  | tx {s : OobSystem ι} {mutexFree : Bool} {handle : Int} {r : TxResult}
      {clients : ι → Pc OobCond Nat}
      (res : s.com.tx mutexFree handle = some r)
      (signal : if r.signals then Signals .busy s.clients clients else clients = s.clients) :
      OobStep s (.tx mutexFree handle)
        { s with com := r.com, clients := clients, net := s.net ++ r.calls }
  | txAssert {s : OobSystem ι} {mutexFree : Bool} {handle : Int}
      (res : s.com.tx mutexFree handle = none) :
      OobStep s (.tx mutexFree handle) { s with failed := true }

/-- `s` can be reached from the state right after construction. -/
def OobSystem.Reachable [DecidableEq ι] (s : OobSystem ι) : Prop :=
  ∃ as, Run OobStep (OobSystem.initial ι) as s

/-! ## Blocks on the network interface -/

/-- One exchange: `ni_->tx` of `frame` returned `handle`; `received` is the
answer of `ni_->rx` if it was asked. -/
structure OobBlock where
  frame : Nat
  handle : Int
  received : Bool

/-- The calls of a finished exchange: `rx` follows exactly when `tx` gave a handle. -/
def OobBlock.calls (b : OobBlock) : List NetCall :=
  NetCall.tx b.frame b.handle ::
    if 0 ≤ b.handle then [NetCall.rx b.frame b.handle b.received] else []

/-- The block of a returned call: its own frame, and a result that says whether
the frame went out and its answer came in. -/
def OobReturn.Owns (r : OobReturn ι) (b : OobBlock) : Prop :=
  b.frame = r.frame ∧ (r.success = true ↔ 0 ≤ b.handle ∧ b.received = true)

/-- The beginning of the block that is still in progress. -/
def EthercatOobCom.openBlock (com : EthercatOobCom) : List NetCall :=
  if com.state = .waitingToRecv then [.tx com.frame com.handle] else []

theorem openBlock_waiting {com : EthercatOobCom} (hs : com.state = .waitingToRecv) :
    com.openBlock = [.tx com.frame com.handle] := if_pos hs

theorem openBlock_not_waiting {com : EthercatOobCom} (hs : com.state ≠ .waitingToRecv) :
    com.openBlock = [] := if_neg hs

/-- The calls on the interface are the blocks of the returned calls, in the
order of their returns, and the block in progress. -/
def OobSystem.Paired (s : OobSystem ι) : Prop :=
  ∃ blocks : List OobBlock, s.net = blocks.flatMap OobBlock.calls ++ s.com.openBlock ∧
    List.Forall₂ OobReturn.Owns s.returned blocks

/-! ## The invariant -/

structure OobSystem.Inv (s : OobSystem ι) : Prop where
  running : s.failed = false
  frames : ∀ t f, (s.clients t).local? = some f → f ≠ NULL
  /-- Nobody waits for a free slot to be served. -/
  idle : s.com.state = .idle → ∀ t, ¬ (s.clients t).WaitsOn .busy
  /-- A taken slot has one owner, and holds its frame. -/
  owner : s.com.state ≠ .idle → ∃ t, (s.clients t).WaitsOn .busy ∧
    (s.clients t).local? = some s.com.frame ∧ ∀ u, (s.clients u).WaitsOn .busy → u = t
  /-- Once its frame is sent the owner is not blocked any more. -/
  sent : s.com.state = .waitingToRecv → ∀ t f, s.clients t ≠ .blocked .busy f
  /-- If the slot is free and somebody is blocked on it, somebody else is on the way. -/
  shared : s.com.state = .idle → (∃ t f, s.clients t = .blocked .share f) →
    ∃ t f, s.clients t = .woken .share f
  paired : s.Paired

theorem OobSystem.inv_initial : (OobSystem.initial ι).Inv where
  running := rfl
  frames := fun _ _ h => absurd h (by simp [OobSystem.initial])
  idle := fun _ _ => Pc.not_waitsOn_outside _
  owner := fun h => absurd rfl h
  sent := fun h => absurd h (by simp [OobSystem.initial, EthercatOobCom.new])
  shared := fun _ ⟨_, _, h⟩ => absurd h (by simp [OobSystem.initial])
  paired := ⟨[], rfl, List.Forall₂.nil⟩

variable {s : OobSystem ι}

/-- While the slot is taken, a client on `busy_cond_` is its owner. -/
theorem OobSystem.Inv.frame_of_waitsOn (h : s.Inv) {t : ι} {f : Nat}
    (hw : (s.clients t).WaitsOn .busy) (hf : (s.clients t).local? = some f) : s.com.frame = f := by
  have hne : s.com.state ≠ .idle := fun hs => h.idle hs t hw
  obtain ⟨o, _, ho, only⟩ := h.owner hne
  obtain rfl := only t hw
  rw [ho] at hf
  exact Option.some.inj hf

/-- A client that wakes up from `busy_cond_` finds its own frame. -/
theorem OobSystem.Inv.frame_of_woken (h : s.Inv) {t : ι} {f : Nat}
    (woken : s.clients t = .woken .busy f) : s.com.frame = f :=
  h.frame_of_waitsOn (by rw [woken]; exact rfl) (by rw [woken]; exact rfl)

/-- A frame in a taken slot is not `NULL`. -/
theorem OobSystem.Inv.frame_ne_null (h : s.Inv) (hs : s.com.state ≠ .idle) :
    s.com.frame ≠ NULL := by
  obtain ⟨o, _, ho, _⟩ := h.owner hs
  exact h.frames o _ ho

/-! ## Each section preserves it -/

/-- Moving clients about keeps the invariant if they stay on `busy_cond_` with
their frames, nobody blocks there after the frame was sent, and no wake-up for
a free slot is lost. -/
theorem OobSystem.Inv.of_clients (h : s.Inv) {clients : ι → Pc OobCond Nat}
    (hframes : ∀ t f, (clients t).local? = some f → f ≠ NULL)
    (hbusy : ∀ t, (clients t).WaitsOn .busy ↔ (s.clients t).WaitsOn .busy)
    (hkeep : ∀ t, (s.clients t).WaitsOn .busy → (clients t).local? = (s.clients t).local?)
    (hsent : s.com.state = .waitingToRecv → ∀ t f, clients t ≠ .blocked .busy f)
    (hshared : s.com.state = .idle → (∃ t f, clients t = .blocked .share f) →
      ∃ t f, clients t = .woken .share f) :
    OobSystem.Inv { s with clients := clients } where
  running := h.running
  frames := hframes
  idle := fun hs t hw => h.idle hs t ((hbusy t).mp hw)
  owner := fun hs => by
    obtain ⟨o, ho, hf, only⟩ := h.owner hs
    refine ⟨o, (hbusy o).mpr ho, ?_, fun u hu => only u ((hbusy u).mp hu)⟩
    rw [hkeep o ho]
    exact hf
  sent := hsent
  shared := hshared
  paired := h.paired

/-- Sending the frame opens its block, and wakes the owner. -/
theorem OobSystem.Inv.send (h : s.Inv) (hs : s.com.state = .readyToSend) {handle : Int}
    {clients : ι → Pc OobCond Nat} (signal : Signals .busy s.clients clients) :
    OobSystem.Inv
      { s with
        com := { s.com with handle := handle, state := .waitingToRecv }
        clients := clients
        net := s.net ++ [.tx s.com.frame handle] } where
  running := h.running
  frames := fun t f hf => by
    dsimp only at hf
    rw [signal.local?_eq] at hf
    exact h.frames t f hf
  idle := fun hs' => absurd hs' (by simp)
  owner := fun _ => by
    obtain ⟨o, ho, hf, only⟩ := h.owner (by simp [hs])
    refine ⟨o, (signal.waitsOn_iff _ o).mpr ho, ?_,
      fun u hu => only u ((signal.waitsOn_iff _ u).mp hu)⟩
    rw [signal.local?_eq]
    exact hf
  sent := fun _ => by
    obtain ⟨o, _, _, only⟩ := h.owner (by simp [hs])
    exact signal.none_blocked only
  shared := fun hs' => absurd hs' (by simp)
  paired := by
    obtain ⟨blocks, hnet, howns⟩ := h.paired
    refine ⟨blocks, ?_, howns⟩
    rw [openBlock_not_waiting (by simp [hs]), List.append_nil] at hnet
    rw [openBlock_waiting rfl, hnet]

variable [DecidableEq ι]

/-- Moving one client, from `p` to `q`. -/
theorem OobSystem.Inv.move (h : s.Inv) {t : ι} {q : Pc OobCond Nat}
    (hframe : ∀ f, q.local? = some f → f ≠ NULL)
    (hbusy : q.WaitsOn .busy ↔ (s.clients t).WaitsOn .busy)
    (hkeep : (s.clients t).WaitsOn .busy → q.local? = (s.clients t).local?)
    (hsent : s.com.state = .waitingToRecv → ∀ f, q ≠ .blocked .busy f)
    (hblocked : s.com.state = .idle → ∀ f, q ≠ .blocked .share f)
    (hwoken : s.com.state = .idle → ∀ f, s.clients t ≠ .woken .share f) :
    OobSystem.Inv { s with clients := Function.update s.clients t q } := by
  refine h.of_clients ?_ ?_ ?_ ?_ ?_
  · rw [Function.forall_update_iff s.clients (p := fun _ c => ∀ f, c.local? = some f → f ≠ NULL)]
    exact ⟨hframe, fun u _ => h.frames u⟩
  · rw [Function.forall_update_iff s.clients
      (p := fun u c => c.WaitsOn .busy ↔ (s.clients u).WaitsOn .busy)]
    exact ⟨hbusy, fun _ _ => Iff.rfl⟩
  · rw [Function.forall_update_iff s.clients
      (p := fun u c => (s.clients u).WaitsOn .busy → c.local? = (s.clients u).local?)]
    exact ⟨hkeep, fun _ _ _ => rfl⟩
  · intro hs
    rw [Function.forall_update_iff s.clients (p := fun _ c => ∀ f, c ≠ .blocked .busy f)]
    exact ⟨hsent hs, fun u _ => h.sent hs u⟩
  · intro hs ⟨u, f, hu⟩
    have hut : u ≠ t := by
      intro hut
      subst hut
      rw [Function.update_self] at hu
      exact hblocked hs f hu
    rw [Function.update_of_ne hut] at hu
    obtain ⟨v, g, hv⟩ := h.shared hs ⟨u, f, hu⟩
    have hvt : v ≠ t := by
      intro hvt
      subst hvt
      exact hwoken hs g hv
    exact ⟨v, g, by rw [Function.update_of_ne hvt]; exact hv⟩

/-- Taking the free slot makes the client its owner. -/
theorem OobSystem.Inv.take_idle (h : s.Inv) (hs : s.com.state = .idle) {t : ι} {frame : Nat}
    (hf : frame ≠ NULL) :
    OobSystem.Inv
      { s with
        com := { s.com with frame := frame, state := .readyToSend }
        clients := Function.update s.clients t (.blocked .busy frame) } where
  running := h.running
  frames := by
    rw [Function.forall_update_iff s.clients (p := fun _ c => ∀ f, c.local? = some f → f ≠ NULL)]
    refine ⟨fun f hlocal => ?_, fun u _ => h.frames u⟩
    rw [Pc.local?_blocked, Option.some.injEq] at hlocal
    rw [← hlocal]
    exact hf
  idle := fun hs' => absurd hs' (by simp)
  owner := fun _ => by
    refine ⟨t, by simp, by simp, fun u hu => ?_⟩
    by_contra hut
    dsimp only at hu
    rw [Function.update_of_ne hut] at hu
    exact h.idle hs u hu
  sent := fun hs' => absurd hs' (by simp)
  shared := fun hs' => absurd hs' (by simp)
  paired := by
    obtain ⟨blocks, hnet, howns⟩ := h.paired
    refine ⟨blocks, ?_, howns⟩
    rw [openBlock_not_waiting (by simp [hs])] at hnet
    rw [openBlock_not_waiting (by simp)]
    exact hnet

/-- Returning closes the block, frees the slot and wakes somebody blocked on it. -/
theorem OobSystem.Inv.finish (h : s.Inv) (hs : s.com.state = .waitingToRecv) {t : ι} {ok : Bool}
    (woken : s.clients t = .woken .busy s.com.frame) {clients : ι → Pc OobCond Nat}
    (signal : Signals .share (Function.update s.clients t .outside) clients) :
    OobSystem.Inv
      { s with
        com := { s.com with handle := -1, state := .idle }
        clients := clients
        net := s.net ++
          if 0 ≤ s.com.handle then [NetCall.rx s.com.frame s.com.handle ok] else []
        returned := s.returned ++ [⟨t, s.com.frame, decide (0 ≤ s.com.handle) && ok⟩] } where
  running := h.running
  frames := fun u f hf => by
    dsimp only at hf
    rw [signal.local?_eq] at hf
    by_cases hut : u = t
    · subst hut
      rw [Function.update_self] at hf
      exact absurd hf (by simp)
    · rw [Function.update_of_ne hut] at hf
      exact h.frames u f hf
  idle := fun _ u hu => by
    dsimp only at hu
    rw [signal.waitsOn_iff] at hu
    -- the only client on `busy_cond_` was `t`, which has left
    obtain ⟨o, _, _, only⟩ := h.owner (by simp [hs])
    have hto : t = o := only t (by rw [woken]; exact rfl)
    by_cases hut : u = t
    · subst hut
      rw [Function.update_self] at hu
      exact hu
    · rw [Function.update_of_ne hut] at hu
      exact hut ((only u hu).trans hto.symm)
  owner := fun hs' => absurd rfl hs'
  sent := fun hs' => absurd hs' (by simp)
  shared := fun _ hb => signal.some_woken hb
  paired := by
    obtain ⟨blocks, hnet, howns⟩ := h.paired
    refine ⟨blocks ++ [⟨s.com.frame, s.com.handle, ok⟩], ?_, ?_⟩
    · rw [openBlock_waiting hs] at hnet
      rw [openBlock_not_waiting (by simp), List.append_nil, List.flatMap_append,
        List.flatMap_singleton, hnet, List.append_assoc]
      rfl
    · refine List.rel_append howns (List.Forall₂.cons ⟨rfl, ?_⟩ List.Forall₂.nil)
      show (decide (0 ≤ s.com.handle) && ok) = true ↔ _
      rw [Bool.and_eq_true, decide_eq_true_iff]

/-- **Step lemma.** Every section of every thread preserves the invariant. -/
theorem OobSystem.Inv.step {a : OobAction ι} {s' : OobSystem ι} (h : s.Inv)
    (step : OobStep s a s') : s'.Inv := by
  cases step with
  | call outside nonNull =>
    refine h.move ?_ ?_ ?_ ?_ ?_ ?_
    · intro f hf
      rw [Pc.local?_entering, Option.some.injEq] at hf
      rw [← hf]
      exact nonNull
    all_goals simp [outside]
  | @take t frame ok at_loop =>
    have hlocal : (s.clients t).local? = some frame := by
      rcases at_loop with hp | hp
      · rw [hp, Pc.local?_entering]
      · rw [hp, Pc.local?_woken]
    have hfree : ¬ (s.clients t).WaitsOn .busy := by
      rcases at_loop with hp | hp
      · simp [hp]
      · simp [hp]
    have hnull : frame ≠ NULL := h.frames t frame hlocal
    by_cases hs : s.com.state = .idle
    · rw [takeSlot_idle hs]
      exact h.take_idle hs hnull
    · -- the slot is taken: back to `share_cond_`
      rw [takeSlot_taken hs]
      refine h.move ?_ ?_ ?_ ?_ ?_ ?_
      · intro f hf
        rw [Pc.local?_blocked, Option.some.injEq] at hf
        rw [← hf]
        exact hnull
      · simp [hfree]
      · intro hw
        exact absurd hw hfree
      · simp
      · exact fun hs' => absurd hs' hs
      · exact fun hs' => absurd hs' hs
  | @waitAgain t frame ok woken res =>
    -- the owner woke up before its frame was sent
    have hs : s.com.state ≠ .waitingToRecv := by
      intro hs
      rw [← h.frame_of_woken woken, receive_waiting hs] at res
      exact absurd res (by simp)
    have hbusy : s.com.state ≠ .idle := fun hidle => h.idle hidle t (by rw [woken]; exact rfl)
    refine h.move ?_ ?_ ?_ ?_ ?_ ?_
    · intro f hf
      exact h.frames t f (by rw [woken]; exact hf)
    · simp [woken]
    · simp [woken]
    · exact fun hs' => absurd hs' hs
    · exact fun hs' => absurd hs' hbusy
    · exact fun hs' => absurd hs' hbusy
  | @finish t frame ok success com calls clients woken res signal =>
    -- only a section that found the frame sent ends the call
    obtain rfl := h.frame_of_woken woken
    by_cases hs : s.com.state = .waitingToRecv
    · rw [receive_waiting hs, Option.some.injEq, BusyResult.returns.injEq] at res
      obtain ⟨rfl, rfl, rfl⟩ := res
      exact h.finish hs woken signal
    · rw [receive_not_waiting hs] at res
      exact absurd res (by simp)
  | @clientAssert t frame ok woken res =>
    -- `frame_` is the owner's frame, so the assertion cannot fail
    obtain rfl := h.frame_of_woken woken
    by_cases hs : s.com.state = .waitingToRecv
    · rw [receive_waiting hs] at res
      exact absurd res (by simp)
    · rw [receive_not_waiting hs] at res
      exact absurd res (by simp)
  | @spurious t c frame blocked =>
    refine h.move ?_ ?_ ?_ ?_ ?_ ?_
    · intro f hf
      exact h.frames t f (by rw [blocked]; exact hf)
    all_goals simp [blocked]
  | @tx mutexFree handle r clients res signal =>
    by_cases hs : mutexFree = true ∧ s.com.state = .readyToSend
    · obtain ⟨hfree, hready⟩ := hs
      subst hfree
      have hnull : s.com.frame ≠ NULL := h.frame_ne_null (by simp [hready])
      rw [tx_ready hready hnull, Option.some.injEq] at res
      subst res
      exact h.send hready signal
    · -- nothing to send, or the mutex is taken
      have hskip : s.com.tx mutexFree handle = some ⟨s.com, [], false⟩ := by
        cases mutexFree with
        | false => rfl
        | true => exact tx_not_ready (fun hready => hs ⟨rfl, hready⟩) true handle
      rw [hskip, Option.some.injEq] at res
      subst res
      have hclients : clients = s.clients := signal
      subst hclients
      rw [List.append_nil]
      exact h
  | @txAssert mutexFree handle res =>
    -- a frame that is ready to be sent is some client's, and not `NULL`
    cases mutexFree with
    | false => exact absurd res (by simp [EthercatOobCom.tx])
    | true =>
      by_cases hs : s.com.state = .readyToSend
      · rw [tx_ready hs (h.frame_ne_null (by simp [hs]))] at res
        exact absurd res (by simp)
      · rw [tx_not_ready hs] at res
        exact absurd res (by simp)

/-- **Run lemma.** -/
theorem OobSystem.Reachable.inv (hr : s.Reachable) : s.Inv := by
  obtain ⟨as, run⟩ := hr
  exact run.invariant (fun _ _ _ h step => h.step step) inv_initial

end Pr2Ethercat
