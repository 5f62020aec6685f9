import Pr2Ethercat.Eml

/-!
# `EthercatOobCom`: the one-slot mailbox for out-of-band frames

Client threads that want to exchange a frame outside the process-data cycle
put it into this mailbox and wait; the real-time loop calls `tx()` and sends
it. Three fields carry the hand-over: `state_`, the frame, and the handle that
`ni_->tx` returned.

Every function below is one section of the source that runs under `mutex_`,
from taking the lock (or waking up with it) to giving it back, by `unlock` or
by blocking in `pthread_cond_wait`. `none` is a failed `assert`. What the network
interface answers is an argument, what it is asked for is in the list of
`NetCall`s.
-/

namespace Pr2Ethercat

/-- `state_`. -/
inductive OobState where
  | idle
  | readyToSend
  | waitingToRecv
  deriving DecidableEq, Repr

/-- The fields the protocol uses (`line_` only serves error messages). -/
structure EthercatOobCom where
  state : OobState
  frame : Nat
  handle : Int
  deriving DecidableEq, Repr

/-- The constructor's initial values. -/
def EthercatOobCom.new : EthercatOobCom where
  state := .idle
  frame := NULL
  handle := -1

/-- A call on `ni_` and its answer. -/
inductive NetCall where
  | tx (frame : Nat) (handle : Int)
  | rx (frame : Nat) (handle : Int) (ok : Bool)
  deriving DecidableEq, Repr

/-- The two condition variables. -/
inductive OobCond where
  | share
  | busy
  deriving DecidableEq, Repr

/-! ## `tx()` -/

structure TxResult where
  com : EthercatOobCom
  calls : List NetCall
  /-- `pthread_cond_signal(&busy_cond_)` was called. -/
  signals : Bool
  deriving DecidableEq, Repr

/-- `EthercatOobCom::tx()`, where `trylock` succeeds if `mutexFree` and
`ni_->tx` returns `handle` if it is called. -/
def EthercatOobCom.tx (com : EthercatOobCom) (mutexFree : Bool) (handle : Int) : Option TxResult :=
  -- `if (!trylock(..)) return;`
  if mutexFree = false then some ⟨com, [], false⟩
  else if com.state = .readyToSend then
    if com.frame = NULL then none
    else some
      { com := { com with handle := handle, state := .waitingToRecv }
        calls := [.tx com.frame handle]
        signals := true }
  else some ⟨com, [], false⟩

/-! ## `txandrx_once(frame)` -/

/-- From having the lock to the next `pthread_cond_wait`: wait on `share_cond_`
while the mailbox is taken, else take it and wait on `busy_cond_`. -/
def EthercatOobCom.takeSlot (com : EthercatOobCom) (frame : Nat) : EthercatOobCom × OobCond :=
  if com.state ≠ .idle then (com, .share)
  else ({ com with frame := frame, state := .readyToSend }, .busy)

/-- How the section after a wake-up from `busy_cond_` ends. -/
inductive BusyResult where
  | waitAgain
  | returns (com : EthercatOobCom) (calls : List NetCall) (success : Bool)
  deriving DecidableEq, Repr

/-- From waking up on `busy_cond_` to the next wait or to the end of the call,
where `ni_->rx` answers `ok` if it is called. The end of the call signals
`share_cond_`. -/
def EthercatOobCom.receive (com : EthercatOobCom) (frame : Nat) (ok : Bool) : Option BusyResult :=
  if com.state ≠ .waitingToRecv then some .waitAgain
  else
    -- without a handle `rx` is not called, and the call reports a dropped packet
    let calls := if 0 ≤ com.handle then [NetCall.rx com.frame com.handle ok] else []
    let success := decide (0 ≤ com.handle) && ok
    if com.frame ≠ frame then none
    else some (.returns { com with handle := -1, state := .idle } calls success)

/-! ## What each section can do -/

theorem tx_ready {com : EthercatOobCom} (hs : com.state = .readyToSend) (hf : com.frame ≠ NULL)
    (handle : Int) :
    com.tx true handle = some
      { com := { com with handle := handle, state := .waitingToRecv }
        calls := [.tx com.frame handle]
        signals := true } := by
  unfold EthercatOobCom.tx
  rw [if_neg (by simp), if_pos hs, if_neg hf]

theorem tx_not_ready {com : EthercatOobCom} (hs : com.state ≠ .readyToSend) (mutexFree : Bool)
    (handle : Int) : com.tx mutexFree handle = some ⟨com, [], false⟩ := by
  unfold EthercatOobCom.tx
  rw [if_neg hs]
  split
  · rfl
  · rfl

theorem takeSlot_idle {com : EthercatOobCom} (hs : com.state = .idle) (frame : Nat) :
    com.takeSlot frame = ({ com with frame := frame, state := .readyToSend }, .busy) := by
  unfold EthercatOobCom.takeSlot
  rw [if_neg (by simp [hs])]

theorem takeSlot_taken {com : EthercatOobCom} (hs : com.state ≠ .idle) (frame : Nat) :
    com.takeSlot frame = (com, .share) := by
  unfold EthercatOobCom.takeSlot
  rw [if_pos hs]

theorem receive_waiting {com : EthercatOobCom} (hs : com.state = .waitingToRecv) (ok : Bool) :
    com.receive com.frame ok = some (.returns { com with handle := -1, state := .idle }
      (if 0 ≤ com.handle then [NetCall.rx com.frame com.handle ok] else [])
      (decide (0 ≤ com.handle) && ok)) := by
  unfold EthercatOobCom.receive
  rw [if_neg (by simp [hs])]
  exact if_neg (by simp)

theorem receive_not_waiting {com : EthercatOobCom} (hs : com.state ≠ .waitingToRecv) (frame : Nat)
    (ok : Bool) : com.receive frame ok = some .waitAgain := by
  unfold EthercatOobCom.receive
  exact if_pos hs

end Pr2Ethercat
