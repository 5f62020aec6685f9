import Pr2Ethercat.Lib.ByteArea

/-!
# The EtherCAT Master Library, as far as the driver relies on it

The driver talks to the slaves through EML, whose headers are under
`eml/include` and whose code is a binary. This file holds the data of those
headers that the driver fills in (`EcFmmu`, `EcSyncMan`, `SlaveHandler`) and
the two pieces of documented behaviour everything later rests on:

* `emlTxandrxPD`: `EtherCAT_Master::txandrx_PD` reads `datalen` bytes at `data`
  and, only if the operation succeeds, puts the received bytes there. Which
  attempts succeed and what comes back is the network's choice, so a reply is
  an argument.
* `EcFmmu.receive` / `EcFmmu.stores`: what an FMMU does with a passing frame.
  Byte `k` of the process-data image travels at logical address
  `0x10000 + k`; a slave copies a write-enabled window out of the frame and
  its memory into a read-enabled one.

Pointers are numbers, `0` being `NULL`, for slave handlers and for memory
alike.
-/

namespace Pr2Ethercat

open ByteArea

def NULL : Nat := 0

/-! ## Slave handlers and their configuration -/

/-- `EC_State`. -/
inductive EcState where
  | ecInitState
  | ecPreopState
  | ecBootstrapState
  | ecSafeopState
  | ecOpState
  deriving DecidableEq, Repr

/-- `EC_FMMU`, in the order of its constructor. -/
structure EcFmmu where
  logicalStartAddress : BitVec 32
  length : BitVec 16
  logicalStartBit : Byte
  logicalEndBit : Byte
  physicalStartAddress : BitVec 16
  physicalStartBit : Byte
  readEnable : Bool
  writeEnable : Bool
  channelEnable : Bool
  deriving DecidableEq, Repr

/-- `ECBufferType`. -/
inductive EcBufferType where
  | ecBuffered
  | ecQueued
  deriving DecidableEq, Repr

/-- `ECDirection`. -/
inductive EcDirection where
  | ecReadFromMaster
  | ecWrittenFromMaster
  deriving DecidableEq, Repr

/-- `EC_SyncMan`: the fields the driver sets, with the defaults of its
constructor. -/
structure EcSyncMan where
  physicalStartAddress : BitVec 16
  length : BitVec 16
  bufferType : EcBufferType := .ecBuffered
  direction : EcDirection := .ecReadFromMaster
  alEventEnable : Bool := false
  channelEnable : Bool := false
  deriving DecidableEq, Repr

/-- `EtherCAT_SlaveHandler`: the product code is fixed, the state belongs to
the slave's state machine, and the two configurations are pointers that are
`NULL` until somebody sets them. -/
structure SlaveHandler where
  productCode : BitVec 32
  state : EcState
  fmmuConfig : Option (List EcFmmu)
  pdConfig : Option (List EcSyncMan)
  deriving DecidableEq, Repr

def SlaveHandler.setFmmuConfig (s : SlaveHandler) (config : List EcFmmu) : SlaveHandler :=
  { s with fmmuConfig := some config }

def SlaveHandler.setPdConfig (s : SlaveHandler) (config : List EcSyncMan) : SlaveHandler :=
  { s with pdConfig := some config }

/-! ## Process data -/

/-- `EtherCAT_Master::txandrx_PD(datalen, data)` under the network's answer:
a failed exchange (`none`) leaves the data array as it was, a successful one
overwrites its first `datalen` bytes with the reply. -/
def emlTxandrxPD (mem : Area) (datalen : Nat) (data : Nat) (reply : Option Area) : Bool × Area :=
  match reply with
  | none => (false, mem)
  | some r => (true, blit mem data r 0 datalen)

/-- The logical address at which byte 0 of the process-data image travels. -/
def imageLogicalBase : Nat := 0x10000

/-- The FMMU's logical window lies inside an image of `size` bytes. -/
def EcFmmu.Inside (f : EcFmmu) (size : Nat) : Prop :=
  imageLogicalBase ≤ f.logicalStartAddress.toNat ∧
  f.logicalStartAddress.toNat + f.length.toNat ≤ imageLogicalBase + size

instance (f : EcFmmu) (size : Nat) : Decidable (f.Inside size) :=
  inferInstanceAs (Decidable (_ ∧ _))

/-- Offset of the FMMU's window in the process-data image. -/
def EcFmmu.offset (f : EcFmmu) : Nat := f.logicalStartAddress.toNat - imageLogicalBase

/-- What the slave behind a write-enabled FMMU copies out of a frame that
carries the `size` bytes at `image`. -/
def EcFmmu.receive (f : EcFmmu) (mem : Area) (image : Nat) (size : Nat) : Option (List Byte) :=
  if f.channelEnable = true ∧ f.writeEnable = true ∧ f.Inside size then
    some (slice mem (image + f.offset) f.length.toNat)
  else none

/-- The stores into the image that the slave behind a read-enabled FMMU makes
when its physical memory there holds `bytes`. -/
def EcFmmu.stores (f : EcFmmu) (size : Nat) (bytes : List Byte) : List (Nat × List Byte) :=
  if f.channelEnable = true ∧ f.readEnable = true ∧ f.Inside size then
    [(f.offset, bytes.take f.length.toNat)]
  else []

end Pr2Ethercat
