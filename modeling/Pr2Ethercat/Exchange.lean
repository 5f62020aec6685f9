import Pr2Ethercat.Driver
import Pr2Ethercat.Lib.Retry
import Pr2Ethercat.OobCom

/-!
# `kul::txandrx_PD`: the retry loop and the out-of-band frame

The driver's `txandrx_PD` calls `em->txandrx_PD` up to `tries` times, until one
call succeeds. Its first two parameters are the size and the address of the
buffer to exchange, but the body hands over the globals `Master_Buffer_Size_`
and `Master_Buffer_` and never looks at them.

After the loop, and only if every attempt failed, it calls `oob_com_->tx()`,
the one place of the driver that sends the frames queued in the mailbox. So a
queued frame is sent by this call exactly when no attempt succeeds
(`txandrxPD_serves_iff`).
-/

namespace Pr2Ethercat

open ByteArea Retry

/-- What one call of the driver's `txandrx_PD` finds on the network and in the
mailbox: the outcome of each attempt (`some` of the received bytes, or a
failure), the mailbox, whether its mutex is free, and what `ni_->tx` would
return. -/
structure Network where
  replies : Nat → Option Area
  oob : EthercatOobCom
  oobMutexFree : Bool
  handle : Int

/-- One call of `em->txandrx_PD(datalen, data)`; `bytes` is what it sent. -/
structure Attempt where
  datalen : Nat
  data : Nat
  bytes : List Byte
  deriving DecidableEq, Repr

structure PdOutcome where
  success : Bool
  mem : Area
  attempts : List Attempt
  /-- The mailbox afterwards; `none` if the `assert` in `tx()` failed. -/
  oob : Option TxResult

/-- The loop, with `tries` attempts left before attempt `i`. -/
def pdLoop (size buffer : Nat) (replies : Nat → Option Area) :
    (tries i : Nat) → Area → Bool × Area × List Attempt
  | 0, _, mem => (false, mem, [])
  | tries + 1, i, mem =>
    let attempt := { datalen := size, data := buffer, bytes := slice mem buffer size }
    match emlTxandrxPD mem size buffer (replies i) with
    | (true, mem') => (true, mem', [attempt])
    | (false, mem') =>
      let rest := pdLoop size buffer replies tries (i + 1) mem'
      (rest.1, rest.2.1, attempt :: rest.2.2)

/-- `kul::txandrx_PD(buffer_size, buffer, tries)`. -/
def txandrxPD (d : Driver) (_bufferSize _buffer tries : Nat) (net : Network) : PdOutcome :=
  let run := pdLoop d.masterBufferSize d.masterBuffer net.replies tries 0 d.mem
  { success := run.1
    mem := run.2.1
    attempts := run.2.2
    -- `oob_com_->tx()` stands inside `if(!success)`
    oob := if run.1 = true then some ⟨net.oob, [], false⟩
           else net.oob.tx net.oobMutexFree net.handle }

/-! ## What the loop does -/

/-- The loop leaves the buffer alone until an attempt succeeds, so every
attempt sends the same bytes and the last one's reply is what remains. -/
theorem pdLoop_eq (size buffer : Nat) (replies : Nat → Option Area) (mem : Area) :
    ∀ tries i : Nat, pdLoop size buffer replies tries i mem =
      ((firstSome replies tries i).isSome,
        (match firstSome replies tries i with
          | some r => blit mem buffer r 0 size
          | none => mem),
        List.replicate (attemptsMade replies tries i) ⟨size, buffer, slice mem buffer size⟩)
  | 0, _ => rfl
  | tries + 1, i => by
    unfold pdLoop firstSome attemptsMade
    cases hi : replies i with
    | some r => rfl
    | none =>
      -- a failed attempt leaves the buffer as it was, so the next one sends the same bytes
      have ih := pdLoop_eq size buffer replies mem tries (i + 1)
      simp only [emlTxandrxPD, ih, List.replicate_succ]

section Call

variable (d : Driver) (bufferSize buffer tries : Nat) (net : Network)

theorem txandrxPD_success :
    (txandrxPD d bufferSize buffer tries net).success
      = (firstSome net.replies tries 0).isSome := by
  simp only [txandrxPD, pdLoop_eq]

theorem txandrxPD_attempts :
    (txandrxPD d bufferSize buffer tries net).attempts
      = List.replicate (attemptsMade net.replies tries 0)
          ⟨d.masterBufferSize, d.masterBuffer, slice d.mem d.masterBuffer d.masterBufferSize⟩ := by
  simp only [txandrxPD, pdLoop_eq]

variable {d bufferSize buffer tries net}

theorem txandrxPD_mem_of_some {r : Area} (h : firstSome net.replies tries 0 = some r) :
    (txandrxPD d bufferSize buffer tries net).mem
      = blit d.mem d.masterBuffer r 0 d.masterBufferSize := by
  simp only [txandrxPD, pdLoop_eq, h]

theorem txandrxPD_mem_of_none (h : firstSome net.replies tries 0 = none) :
    (txandrxPD d bufferSize buffer tries net).mem = d.mem := by
  simp only [txandrxPD, pdLoop_eq, h]

/-- A successful exchange does not look at the mailbox. -/
theorem txandrxPD_oob_of_some {r : Area} (h : firstSome net.replies tries 0 = some r) :
    (txandrxPD d bufferSize buffer tries net).oob = some ⟨net.oob, [], false⟩ := by
  simp only [txandrxPD, pdLoop_eq, h, Option.isSome_some, if_true]

theorem txandrxPD_oob_of_none (h : firstSome net.replies tries 0 = none) :
    (txandrxPD d bufferSize buffer tries net).oob = net.oob.tx net.oobMutexFree net.handle := by
  simp only [txandrxPD, pdLoop_eq, h, Option.isSome_none, if_neg Bool.false_ne_true]

end Call

/-! ## Serving the mailbox -/

/-- The call hands the queued frame to `ni_->tx` and leaves the mailbox waiting
for the answer to it. -/
def PdOutcome.ServesOob (out : PdOutcome) (net : Network) : Prop :=
  ∃ r, out.oob = some r ∧ r.calls = [.tx net.oob.frame net.handle] ∧
    r.com.state = .waitingToRecv ∧ r.com.handle = net.handle

/-- **A queued frame and the process data.** With a frame queued and the mutex
free, a call of `txandrx_PD` sends the frame if and only if none of its
attempts to exchange the process data succeeds. -/
theorem txandrxPD_serves_iff (d : Driver) (bufferSize buffer tries : Nat) (net : Network)
    (hqueued : net.oob.state = .readyToSend) (hframe : net.oob.frame ≠ NULL)
    (hfree : net.oobMutexFree = true) :
    (txandrxPD d bufferSize buffer tries net).ServesOob net
      ↔ ∀ i < tries, net.replies i = none := by
  unfold PdOutcome.ServesOob
  constructor
  · intro ⟨r, hr, hcalls, _, _⟩
    refine firstSome_zero_eq_none_iff.mp ?_
    cases hres : firstSome net.replies tries 0 with
    | none => rfl
    | some reply =>
      -- a reply ends the loop with success, and then nothing is sent
      rw [txandrxPD_oob_of_some hres] at hr
      obtain rfl := Option.some.inj hr
      exact absurd hcalls (by simp)
  · intro hfail
    rw [txandrxPD_oob_of_none (firstSome_zero_eq_none_iff.mpr hfail), hfree,
      tx_ready hqueued hframe]
    exact ⟨_, rfl, rfl, rfl, rfl⟩

/-- A ring with one motor board. -/
def oneBoardBus : SlaveTable where
  numSlaves := 1
  slaveHandles := [1]
  length_le := by decide
  numSlaves_le := by decide
  nodup := by decide
  nonNull := by decide

/-- Its board, still in `EC_INIT_STATE`. -/
def oneBoardSlaves : Nat → SlaveHandler := fun _ =>
  { productCode := wg05ProductCode, state := .ecInitState, fmmuConfig := none, pdConfig := none }

/-- Frame `7` is queued, and the exchange answers `reply` at every attempt. -/
def queuedFrame (reply : Option Area) : Network where
  replies := fun _ => reply
  oob := { state := .readyToSend, frame := 7, handle := -1 }
  oobMutexFree := true
  handle := 3

/-- When every attempt fails the frame goes out. -/
theorem serves_when_all_fail :
    (txandrxPD (Driver.gathered oneBoardBus oneBoardSlaves fun _ => 0) 52 0x1000 20
      (queuedFrame none)).ServesOob (queuedFrame none) :=
  (txandrxPD_serves_iff _ 52 0x1000 20 (queuedFrame none) rfl (by decide) rfl).mpr fun _ _ => rfl

/-- On a healthy bus it stays in the mailbox. -/
theorem not_served_on_success :
    ¬ (txandrxPD (Driver.gathered oneBoardBus oneBoardSlaves fun _ => 0) 52 0x1000 20
      (queuedFrame (some fun _ => 0))).ServesOob (queuedFrame (some fun _ => 0)) := by
  intro ⟨r, hr, hcalls, _, _⟩
  rw [txandrxPD_oob_of_some (r := fun _ => 0) rfl] at hr
  obtain rfl := Option.some.inj hr
  exact absurd hcalls (by simp)

end Pr2Ethercat
