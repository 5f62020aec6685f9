import Pr2Ethercat.Lib.Codec
import Pr2Ethercat.PackCommand

/-!
# The images in network order

"Contrary to all logic", as `ethercat_defs.h` has it, EtherCAT is little-endian.
The header converts with a pair of overloaded functions: `host2nw` stores a
value at a pointer and returns the pointer behind it, `nw2host` loads it again.
Together they are a `Codec` for each of the six integer types (`ecCodec`), and
so is any sequence of calls of the one, answered by the same sequence of calls
of the other (`record_roundTrip`).

The driver never calls them. It casts a pointer into the image to one of two
packed structures and lets the compiler place the fields. The bytes are the same
(`WG0XCommand.bytes_codec`, `WG0XStatus.bytes_codec`), so a whole image can be
taken apart with `nw2host`: in each slot, the command `packCommand` put there and
the status the slave had left there, of which `unpackCommand` prints the count
(`image_networkOrder`).
-/

namespace Pr2Ethercat

open ByteArea

/-! ## `ethercat_defs.h` -/

/-- `EC_SINT`, `EC_USINT`, `EC_INT`, `EC_UINT`, `EC_DINT`, `EC_UDINT`. -/
inductive EcType where
  | sint
  | usint
  | int
  | uint
  | dint
  | udint
  deriving DecidableEq, Repr

/-- `sizeof`. -/
def EcType.sizeof : EcType → Nat
  | sint | usint => 1
  | int | uint => 2
  | dint | udint => 4

/-- The bits of a value; the casts between the signed type and the unsigned one
keep them. -/
abbrev EcType.Value (t : EcType) : Type := BitVec (8 * t.sizeof)

/-- `cpu_to_le16`, on a little-endian host. -/
def cpuToLe16 (data : BitVec 16) : BitVec 16 := data

def cpuToLe32 (data : BitVec 32) : BitVec 32 := data

def le16ToCpu (data : BitVec 16) : BitVec 16 := data

def le32ToCpu (data : BitVec 32) : BitVec 32 := data

/-- The overloads of `host2nw` for one value: the memory, and `a_buffer` behind it. -/
def host2nw : ∀ t : EcType, Area → Nat → t.Value → Area × Nat
  | .sint, mem, buffer, value => (put mem buffer [value], buffer + 1)
  | .usint, mem, buffer, value => (put mem buffer [value], buffer + 1)
  | .int, mem, buffer, value =>
    let tmp := cpuToLe16 value
    (put mem buffer (leBytes 2 tmp.toNat), buffer + 2)
  | .uint, mem, buffer, value =>
    let tmp := cpuToLe16 value
    (put mem buffer (leBytes 2 tmp.toNat), buffer + 2)
  | .dint, mem, buffer, value =>
    let tmp := cpuToLe32 value
    (put mem buffer (leBytes 4 tmp.toNat), buffer + 4)
  | .udint, mem, buffer, value =>
    let tmp := cpuToLe32 value
    (put mem buffer (leBytes 4 tmp.toNat), buffer + 4)

/-- The overload that copies `a_datalen` bytes. -/
def host2nwData (mem : Area) (buffer : Nat) (data : List Byte) : Area × Nat :=
  (put mem buffer data, buffer + data.length)

/-- The overloads of `nw2host`: the value, and `a_data` behind it. -/
def nw2host : ∀ t : EcType, Area → Nat → t.Value × Nat
  | .sint, mem, data => (mem data, data + 1)
  | .usint, mem, data => (mem data, data + 1)
  | .int, mem, data =>
    let tmp := BitVec.ofNat 16 (leNat (slice mem data 2))
    (le16ToCpu tmp, data + 2)
  | .uint, mem, data =>
    let tmp := BitVec.ofNat 16 (leNat (slice mem data 2))
    (le16ToCpu tmp, data + 2)
  | .dint, mem, data =>
    let tmp := BitVec.ofNat 32 (leNat (slice mem data 4))
    (le32ToCpu tmp, data + 4)
  | .udint, mem, data =>
    let tmp := BitVec.ofNat 32 (leNat (slice mem data 4))
    (le32ToCpu tmp, data + 4)

theorem host2nw_eq (t : EcType) (mem : Area) (buffer : Nat) (value : t.Value) :
    host2nw t mem buffer value
      = (put mem buffer (leBytes t.sizeof value.toNat), buffer + t.sizeof) := by
  have hbyte : ∀ x : Byte, leBytes 1 x.toNat = [x] := by
    intro x
    show [BitVec.ofNat 8 x.toNat] = [x]
    rw [BitVec.ofNat_toNat, BitVec.setWidth_eq]
  cases t with
  | sint | usint =>
    exact congrArg (fun bs => (put mem buffer bs, buffer + 1)) (hbyte value).symm
  | int | uint | dint | udint => rfl

theorem nw2host_eq (t : EcType) (mem : Area) (data : Nat) :
    nw2host t mem data
      = (BitVec.ofNat (8 * t.sizeof) (leNat (slice mem data t.sizeof)), data + t.sizeof) := by
  cases t with
  | sint | usint =>
    refine Prod.ext (BitVec.eq_of_toNat_eq ?_) rfl
    show (mem data).toNat = (BitVec.ofNat 8 ((mem (data + 0)).toNat + 256 * 0)).toNat
    rw [BitVec.toNat_ofNat]
    exact (Nat.mod_eq_of_lt (mem data).isLt).symm
  | int | uint | dint | udint => rfl

/-- The overloads for one type belong together. -/
def ecCodec (t : EcType) : Codec t.Value where
  size := t.sizeof
  store := host2nw t
  load := nw2host t
  store_next mem p x := by
    rw [host2nw_eq]
  load_next mem p := by
    rw [nw2host_eq]
  store_outside mem p x a ha := by
    rw [host2nw_eq]
    exact put_outside (by rw [length_leBytes]; exact ha)
  load_congr mem p mem' p' h := by
    rw [nw2host_eq, nw2host_eq, h]
  load_store mem p x := by
    have hslice := slice_put mem p (leBytes t.sizeof x.toNat)
    rw [length_leBytes] at hslice
    rw [nw2host_eq, host2nw_eq, hslice]
    exact ofNat_leNat_leBytes t.sizeof rfl x
  store_load mem p mem' p' := by
    have hslice := slice_put mem' p' (slice mem p t.sizeof)
    rw [length_slice] at hslice
    rw [nw2host_eq, host2nw_eq, leBytes_ofNat_leNat rfl]
    exact hslice

theorem bytes_ecCodec (t : EcType) (x : t.Value) :
    (ecCodec t).bytes x = leBytes t.sizeof x.toNat := by
  have hslice := slice_put (fun _ => 0) 0 (leBytes t.sizeof x.toNat)
  rw [length_leBytes] at hslice
  show slice (host2nw t _ 0 x).1 0 t.sizeof = _
  rw [host2nw_eq]
  exact hslice

/-! ## Sequences of calls -/

/-- `a_buffer = host2nw(a_buffer, ..)` for each value. -/
def host2nwAll : ∀ ts : List EcType, Area → Nat → Codec.Record EcType.Value ts → Area × Nat
  | [], mem, buffer, _ => (mem, buffer)
  | t :: ts, mem, buffer, values =>
    host2nwAll ts (host2nw t mem buffer values.1).1 (host2nw t mem buffer values.1).2 values.2

/-- `a_data = nw2host(a_data, ..)` for each value. -/
def nw2hostAll : ∀ ts : List EcType, Area → Nat → Codec.Record EcType.Value ts × Nat
  | [], _, data => (⟨⟩, data)
  | t :: ts, mem, data =>
    (((nw2host t mem data).1, (nw2hostAll ts mem (nw2host t mem data).2).1),
      (nw2hostAll ts mem (nw2host t mem data).2).2)

/-- The bytes of one value of each type. -/
def sizeofAll : List EcType → Nat
  | [] => 0
  | t :: ts => t.sizeof + sizeofAll ts

theorem sizeofAll_eq : ∀ ts : List EcType, sizeofAll ts = (Codec.record ecCodec ts).size
  | [] => rfl
  | t :: ts => congrArg (t.sizeof + ·) (sizeofAll_eq ts)

theorem host2nwAll_eq : ∀ (ts : List EcType) (mem : Area) (buffer : Nat)
    (values : Codec.Record EcType.Value ts),
    host2nwAll ts mem buffer values = (Codec.record ecCodec ts).store mem buffer values
  | [], _, _, _ => rfl
  | _ :: ts, _, _, values => host2nwAll_eq ts _ _ values.2

theorem nw2hostAll_eq : ∀ (ts : List EcType) (mem : Area) (data : Nat),
    nw2hostAll ts mem data = (Codec.record ecCodec ts).load mem data
  | [], _, _ => rfl
  | _ :: ts, mem, _ => by
    rw [nw2hostAll, nw2hostAll_eq ts mem]
    rfl

/-- **Round trip.** Values of any types stored one behind the other are loaded
again by the same sequence of calls, nothing else is written, and both pointers
end up behind them. And whatever bytes are loaded so and stored elsewhere are
stored as they were. -/
theorem record_roundTrip (ts : List EcType) (mem mem' : Area) (p p' : Nat)
    (values : Codec.Record EcType.Value ts) :
    (host2nwAll ts mem p values).2 = p + sizeofAll ts ∧
      nw2hostAll ts (host2nwAll ts mem p values).1 p = (values, p + sizeofAll ts) ∧
      (∀ a, a < p ∨ p + sizeofAll ts ≤ a → (host2nwAll ts mem p values).1 a = mem a) ∧
      slice (host2nwAll ts mem' p' (nw2hostAll ts mem p).1).1 p' (sizeofAll ts)
        = slice mem p (sizeofAll ts) := by
  simp only [host2nwAll_eq, nw2hostAll_eq, sizeofAll_eq]
  refine ⟨Codec.store_next .., Prod.ext (Codec.load_store ..) (Codec.load_next ..), ?_, ?_⟩
  · exact Codec.store_outside _ mem p values
  · exact Codec.store_load ..

/-! ## The records of `wg05.h` -/

/-- The types of the fields of a command. -/
def WG0XCommand.types : List EcType := [.usint, .usint, .int, .int, .usint, .usint]

/-- A command, from its fields. -/
def WG0XCommand.fields : Codec.Record EcType.Value WG0XCommand.types ≃ WG0XCommand where
  toFun := fun (mode, digitalOut, programmedPwm, programmedCurrent, pad, checksum, _) =>
    { mode, digitalOut, programmedPwm, programmedCurrent, pad, checksum }
  invFun c :=
    (c.mode, c.digitalOut, c.programmedPwm, c.programmedCurrent, c.pad, c.checksum, ⟨⟩)
  left_inv _ := rfl
  right_inv _ := rfl

/-- The types of the fields of a status. -/
def WG0XStatus.types : List EcType :=
  [.usint, .usint, .int, .int, .int, .udint, .dint, .dint, .uint, .usint, .usint, .dint, .dint,
    .uint, .uint, .uint, .int, .uint, .usint, .usint]

/-- A status, from its fields. -/
def WG0XStatus.fields : Codec.Record EcType.Value WG0XStatus.types ≃ WG0XStatus where
  toFun := fun (mode, digitalOut, programmedPwmValue, programmedCurrent, measuredCurrent,
      timestamp, encoderCount, encoderIndexPos, numEncoderErrors, encoderStatus,
      calibrationReading, lastCalibrationRisingEdge, lastCalibrationFallingEdge,
      boardTemperature, bridgeTemperature, supplyVoltage, motorVoltage, packetCount, pad,
      checksum, _) =>
    { mode, digitalOut, programmedPwmValue, programmedCurrent, measuredCurrent, timestamp,
      encoderCount, encoderIndexPos, numEncoderErrors, encoderStatus, calibrationReading,
      lastCalibrationRisingEdge, lastCalibrationFallingEdge, boardTemperature,
      bridgeTemperature, supplyVoltage, motorVoltage, packetCount, pad, checksum }
  invFun s :=
    (s.mode, s.digitalOut, s.programmedPwmValue, s.programmedCurrent, s.measuredCurrent,
      s.timestamp, s.encoderCount, s.encoderIndexPos, s.numEncoderErrors, s.encoderStatus,
      s.calibrationReading, s.lastCalibrationRisingEdge, s.lastCalibrationFallingEdge,
      s.boardTemperature, s.bridgeTemperature, s.supplyVoltage, s.motorVoltage, s.packetCount,
      s.pad, s.checksum, ⟨⟩)
  left_inv _ := rfl
  right_inv _ := rfl

/-- A command in network order. -/
def commandCodec : Codec WG0XCommand :=
  (Codec.record ecCodec WG0XCommand.types).iso WG0XCommand.fields

/-- A status in network order. -/
def statusCodec : Codec WG0XStatus :=
  (Codec.record ecCodec WG0XStatus.types).iso WG0XStatus.fields

theorem bytes_fields (ts : List EcType) (values : Codec.Record EcType.Value ts) :
    (Codec.record ecCodec ts).bytes values
      = Codec.recordBytes (fun t x => leBytes t.sizeof (BitVec.toNat x)) ts values := by
  rw [Codec.bytes_record]
  congr 1
  funext t x
  exact bytes_ecCodec t x

/-- A packed command is in network order. -/
theorem WG0XCommand.bytes_codec (c : WG0XCommand) : commandCodec.bytes c = c.bytes := by
  refine (bytes_fields WG0XCommand.types (WG0XCommand.fields.symm c)).trans ?_
  show leBytes 1 c.mode.toNat ++ (leBytes 1 c.digitalOut.toNat
    ++ (leBytes 2 c.programmedPwm.toNat ++ (leBytes 2 c.programmedCurrent.toNat
    ++ (leBytes 1 c.pad.toNat ++ (leBytes 1 c.checksum.toNat ++ []))))) = _
  simp [leBytes, WG0XCommand.bytes]

/-- A packed status is in network order. -/
theorem WG0XStatus.bytes_codec (s : WG0XStatus) : statusCodec.bytes s = s.bytes := by
  refine (bytes_fields WG0XStatus.types (WG0XStatus.fields.symm s)).trans ?_
  show leBytes 1 s.mode.toNat ++ (leBytes 1 s.digitalOut.toNat
    ++ (leBytes 2 s.programmedPwmValue.toNat ++ (leBytes 2 s.programmedCurrent.toNat
    ++ (leBytes 2 s.measuredCurrent.toNat ++ (leBytes 4 s.timestamp.toNat
    ++ (leBytes 4 s.encoderCount.toNat ++ (leBytes 4 s.encoderIndexPos.toNat
    ++ (leBytes 2 s.numEncoderErrors.toNat ++ (leBytes 1 s.encoderStatus.toNat
    ++ (leBytes 1 s.calibrationReading.toNat ++ (leBytes 4 s.lastCalibrationRisingEdge.toNat
    ++ (leBytes 4 s.lastCalibrationFallingEdge.toNat ++ (leBytes 2 s.boardTemperature.toNat
    ++ (leBytes 2 s.bridgeTemperature.toNat ++ (leBytes 2 s.supplyVoltage.toNat
    ++ (leBytes 2 s.motorVoltage.toNat ++ (leBytes 2 s.packetCount.toNat
    ++ (leBytes 1 s.pad.toNat ++ (leBytes 1 s.checksum.toNat ++ []))))))))))))))))))) = _
  simp [leBytes, WG0XStatus.bytes]

/-- So its fields can be sent one by one or all at once. -/
theorem WG0XCommand.store_codec (mem : Area) (buffer : Nat) (c : WG0XCommand) :
    commandCodec.store mem buffer c = host2nwData mem buffer c.bytes := by
  rw [Codec.store_eq_put, WG0XCommand.bytes_codec, host2nwData, WG0XCommand.length_bytes]
  rfl

theorem WG0XStatus.store_codec (mem : Area) (buffer : Nat) (s : WG0XStatus) :
    statusCodec.store mem buffer s = host2nwData mem buffer s.bytes := by
  rw [Codec.store_eq_put, WG0XStatus.bytes_codec, host2nwData, WG0XStatus.length_bytes]
  rfl

/-- One slot: the command, and the status behind it. -/
def slotCodec : Codec (WG0XCommand × WG0XStatus) := commandCodec.seq statusCodec

/-- The slots of an image. -/
def imageCodec (n : Nat) : Codec (Fin n → WG0XCommand × WG0XStatus) := slotCodec.array n

/-! ## The images of the driver -/

/-- A cast to `WG0XStatus *` sees what the sequence of calls of `nw2host` loads. -/
theorem encoderCountAt_eq (mem : Area) (status : Nat) :
    encoderCountAt mem status = (statusCodec.load mem status).1.encoderCount := by
  apply encoderCountAt_bytes
  rw [← WG0XStatus.bytes_codec]
  exact statusCodec.load_eq_iff.mp rfl

/-- One line for each slot of `this_buffer_`. -/
theorem unpackCommand_eq (d : Driver) :
    (unpackCommand d).2 = List.ofFn fun i : Fin d.numHandles =>
      ((i : Nat), encoderCountAt d.mem (d.thisBuffer + slotSize * i + commandSize)) := by
  have hlines : (unpackCommand d).2 = (List.range d.numHandles).map fun i =>
      (i, encoderCountAt d.mem (d.thisBuffer + slotSize * i + commandSize)) := by
    unfold unpackCommand
    by_cases hnone : d.numHandles = 0
    · rw [if_pos hnone, hnone]
      rfl
    · rw [if_neg hnone, Layout.walk_eq_map, List.map_map]
      simp only [Function.comp_def, Nat.zero_add]
  rw [hlines]
  apply List.ext_getElem
  · rw [List.length_map, List.length_range, List.length_ofFn]
  · intro i _ _
    rw [List.getElem_map, List.getElem_range, List.getElem_ofFn]

theorem size_imageCodec (n : Nat) : (imageCodec n).size = slotSize * n :=
  slotCodec.size_array n

theorem load_imageCodec (mem : Area) (p n : Nat) (i : Fin n) :
    ((imageCodec n).load mem p).1 i
      = ((commandCodec.load mem (p + slotSize * i)).1,
        (statusCodec.load mem (p + slotSize * i + commandSize)).1) := by
  have hslot := slotCodec.load_array mem n p i
  refine hslot.trans (Prod.ext rfl ?_)
  show (statusCodec.load mem (commandCodec.load mem (p + slotSize * i)).2).1 = _
  rw [commandCodec.load_next]
  rfl

/-- **The image in network order.** After `packCommand` the whole image can be
taken apart with `nw2host`. In slot `i` there are the command packed for it and
the status that was there before, `unpackCommand` prints the counts of those
statuses in order, and `host2nw` puts the image together again. -/
theorem image_networkOrder (env : PackEnv) (d : Driver) :
    ∃ image : Fin d.numHandles → WG0XCommand × WG0XStatus,
      (imageCodec d.numHandles).load (packCommand env d).mem d.thisBuffer
        = (image, d.thisBuffer + slotSize * d.numHandles) ∧
      (∀ i, (image i).1 = slotCommand env i) ∧
      (∀ i, (image i).2
        = (statusCodec.load d.mem (d.thisBuffer + slotSize * i + commandSize)).1) ∧
      (unpackCommand (packCommand env d)).2
        = List.ofFn (fun i => ((i : Nat), (image i).2.encoderCount)) ∧
      ∀ mem p, slice ((imageCodec d.numHandles).store mem p image).1 p (slotSize * d.numHandles)
        = slice (packCommand env d).mem d.thisBuffer (slotSize * d.numHandles) := by
  have hload := load_imageCodec (packCommand env d).mem d.thisBuffer d.numHandles
  refine ⟨((imageCodec d.numHandles).load (packCommand env d).mem d.thisBuffer).1,
    Prod.ext rfl ?_, ?_, ?_, ?_, ?_⟩
  · rw [Codec.load_next, size_imageCodec]
  · intro i
    rw [hload i]
    apply commandCodec.load_eq_iff.mpr
    rw [WG0XCommand.bytes_codec]
    exact slice_packCommand env d i.isLt
  · intro i
    rw [hload i]
    refine statusCodec.load_congr _ _ _ _ (slice_eq_iff.mpr fun j hj => ?_)
    rw [Nat.add_assoc, Nat.add_assoc]
    refine packCommand_keeps env d ?_
    rw [← Nat.add_assoc]
    exact outsideCommands_status d.numHandles i hj
  · rw [unpackCommand_eq]
    refine congrArg List.ofFn (funext fun i => ?_)
    rw [hload i, ← encoderCountAt_eq]
    rfl
  · intro mem p
    rw [← size_imageCodec]
    exact Codec.store_load ..

end Pr2Ethercat
