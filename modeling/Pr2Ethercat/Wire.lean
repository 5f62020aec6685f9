import Pr2Ethercat.Eml

/-!
# The WG0X wire records and their checksum

`wg05.h` declares two packed structures: the 8-byte command the master sends
to every motor board and the 44-byte status it gets back. A packed structure
is its fields' bytes in order, multi-byte fields little-endian, which is how
`bytes` spells them here; `length_bytes` is the driver's own static assertion
that the compiler packed them.

The driver reads one field of the status, `encoder_count_`, by casting a
pointer into the image. `encoderCountAt` is that read, and
`encoderCountAt_bytes` says that it returns the count the slave wrote whenever
the pointer is at the start of that slave's status.
-/

namespace Pr2Ethercat

open ByteArea

/-! ## Checksum -/

/-- `rotateRight8`. -/
def rotateRight8 (x : BitVec 32) : BitVec 32 :=
  let x := x &&& 0xff
  let x := (x >>> 1) ||| (x <<< 7)
  x &&& 0xff

/-- One turn of the loop in `computeChecksum`. -/
def checksumStep (checksum : BitVec 32) (d : Byte) : BitVec 32 :=
  (rotateRight8 checksum ^^^ d.setWidth 32) &&& 0xff

/-- `computeChecksum(data, length)`. -/
def computeChecksum (data : List Byte) (length : Nat) : BitVec 32 :=
  (data.take length).foldl checksumStep 0x42

/-! ## The command -/

def modeEnable : Byte := 1 <<< 0

def modeCurrent : Byte := 1 <<< 1

/-- `WG0XCommand`. -/
structure WG0XCommand where
  mode : Byte := 0
  digitalOut : Byte := 0
  programmedPwm : BitVec 16 := 0
  programmedCurrent : BitVec 16 := 0
  pad : Byte := 0
  checksum : Byte := 0
  deriving DecidableEq, Repr

/-- The packed bytes of a command. -/
def WG0XCommand.bytes (c : WG0XCommand) : List Byte :=
  [c.mode, c.digitalOut] ++ leBytes 2 c.programmedPwm.toNat
    ++ leBytes 2 c.programmedCurrent.toNat ++ [c.pad, c.checksum]

/-- `sizeof(WG0XCommand)`. -/
def commandSize : Nat := 8

@[simp] theorem WG0XCommand.length_bytes (c : WG0XCommand) : c.bytes.length = commandSize := by
  simp [WG0XCommand.bytes, commandSize]

/-- The command a slave finds in its command memory enables its motor. -/
def Enables (command : List Byte) : Prop := command.headD 0 &&& modeEnable ≠ 0

instance (command : List Byte) : Decidable (Enables command) :=
  inferInstanceAs (Decidable (_ ≠ _))

/-! ## Verifying a command -/

/-- The last byte is the checksum of the bytes before it, once more rotated. -/
def Verifiable (command : List Byte) : Prop :=
  command.getD (commandSize - 1) 0
    = (rotateRight8 (computeChecksum command (commandSize - 1))).setWidth 8

instance (command : List Byte) : Decidable (Verifiable command) :=
  inferInstanceAs (Decidable (_ = _))

theorem and_ff (x : BitVec 32) : x &&& 0xff = (x.setWidth 8).setWidth 32 := by
  apply BitVec.eq_of_toNat_eq
  rw [BitVec.toNat_and, BitVec.toNat_setWidth, BitVec.toNat_setWidth]
  show x.toNat &&& (2 ^ 8 - 1) = _
  rw [Nat.and_two_pow_sub_one_eq_mod]
  omega

/-- A byte comes back unharmed from an `unsigned`. -/
theorem setWidth_setWidth_byte (x : Byte) : (x.setWidth 32).setWidth 8 = x := by
  rw [BitVec.setWidth_setWidth_of_le _ (by omega), BitVec.setWidth_eq]

theorem setWidth_inj {x y : Byte} : x.setWidth 32 = y.setWidth 32 ↔ x = y := by
  constructor
  · intro h
    rw [← setWidth_setWidth_byte x, h, setWidth_setWidth_byte]
  · intro h
    rw [h]

/-- A step gives 0 for one byte only. -/
theorem checksumStep_eq_zero_iff (checksum : BitVec 32) (d : Byte) :
    checksumStep checksum d = 0 ↔ d = (rotateRight8 checksum).setWidth 8 := by
  have hlow : ∀ x : Byte, x.setWidth 32 = 0 ↔ x = 0 := fun x => setWidth_inj (y := 0)
  unfold checksumStep
  rw [and_ff, hlow, BitVec.setWidth_xor, setWidth_setWidth_byte]
  constructor
  · intro h
    exact (BitVec.xor_eq_zero_iff.mp h).symm
  · intro h
    exact BitVec.xor_eq_zero_iff.mpr h.symm

/-- A command can be verified without looking for its checksum: over all of its
bytes the checksum is 0. -/
theorem verifiable_iff {command : List Byte} (h : command.length = commandSize) :
    Verifiable command ↔ computeChecksum command commandSize = 0 := by
  have hlt : commandSize - 1 < command.length := by
    rw [h]
    decide
  have hlast : computeChecksum command commandSize
      = checksumStep (computeChecksum command (commandSize - 1)) command[commandSize - 1] := by
    show (command.take (commandSize - 1 + 1)).foldl checksumStep 0x42 = _
    rw [List.take_succ_eq_append_getElem hlt, List.foldl_append]
    rfl
  rw [hlast, checksumStep_eq_zero_iff, Verifiable, List.getD_eq_getElem?_getD,
    List.getElem?_eq_getElem hlt, Option.getD_some]

/-! ## The status -/

/-- `WG0XStatus`. -/
structure WG0XStatus where
  mode : Byte
  digitalOut : Byte
  programmedPwmValue : BitVec 16
  programmedCurrent : BitVec 16
  measuredCurrent : BitVec 16
  timestamp : BitVec 32
  encoderCount : BitVec 32
  encoderIndexPos : BitVec 32
  numEncoderErrors : BitVec 16
  encoderStatus : Byte
  calibrationReading : Byte
  lastCalibrationRisingEdge : BitVec 32
  lastCalibrationFallingEdge : BitVec 32
  boardTemperature : BitVec 16
  bridgeTemperature : BitVec 16
  supplyVoltage : BitVec 16
  motorVoltage : BitVec 16
  packetCount : BitVec 16
  pad : Byte
  checksum : Byte
  deriving DecidableEq, Repr

/-- The packed bytes of a status. -/
def WG0XStatus.bytes (s : WG0XStatus) : List Byte :=
  [s.mode, s.digitalOut] ++ leBytes 2 s.programmedPwmValue.toNat
    ++ leBytes 2 s.programmedCurrent.toNat ++ leBytes 2 s.measuredCurrent.toNat
    ++ leBytes 4 s.timestamp.toNat ++ leBytes 4 s.encoderCount.toNat
    ++ leBytes 4 s.encoderIndexPos.toNat ++ leBytes 2 s.numEncoderErrors.toNat
    ++ [s.encoderStatus, s.calibrationReading]
    ++ leBytes 4 s.lastCalibrationRisingEdge.toNat
    ++ leBytes 4 s.lastCalibrationFallingEdge.toNat
    ++ leBytes 2 s.boardTemperature.toNat ++ leBytes 2 s.bridgeTemperature.toNat
    ++ leBytes 2 s.supplyVoltage.toNat ++ leBytes 2 s.motorVoltage.toNat
    ++ leBytes 2 s.packetCount.toNat ++ [s.pad, s.checksum]

/-- `sizeof(WG0XStatus)`, and `WG0XStatus::SIZE`. -/
def statusSize : Nat := 44

/-- The driver's static assertion `sizeof(WG0XStatus) == WG0XStatus::SIZE`. -/
@[simp] theorem WG0XStatus.length_bytes (s : WG0XStatus) : s.bytes.length = statusSize := by
  simp [WG0XStatus.bytes, statusSize]

/-- Bytes of the status before `encoder_count_`. -/
def encoderCountOffset : Nat := 12

/-- `((WG0XStatus *)status)->encoder_count_`. -/
def encoderCountAt (mem : Area) (status : Nat) : BitVec 32 :=
  BitVec.ofNat 32 (leNat (slice mem (status + encoderCountOffset) 4))

/-- The same of the status made up of the bytes `status`. -/
def statusCount (status : List Byte) : BitVec 32 :=
  BitVec.ofNat 32 (leNat ((status.drop encoderCountOffset).take 4))

/-- The read lies inside the status record. -/
theorem encoderCountAt_eq_statusCount (mem : Area) (status : Nat) :
    encoderCountAt mem status = statusCount (slice mem status statusSize) := by
  unfold encoderCountAt statusCount
  rw [slice_add mem status (show encoderCountOffset + 4 ≤ statusSize by decide)]

theorem encoderCountAt_congr {m m' : Area} {p p' : Nat}
    (h : slice m p statusSize = slice m' p' statusSize) :
    encoderCountAt m p = encoderCountAt m' p' := by
  rw [encoderCountAt_eq_statusCount, encoderCountAt_eq_statusCount, h]

/-- At the start of a status, the read returns the count that was written. -/
theorem encoderCountAt_bytes {mem : Area} {p : Nat} {s : WG0XStatus}
    (h : slice mem p statusSize = s.bytes) : encoderCountAt mem p = s.encoderCount := by
  have hfield : (s.bytes.drop encoderCountOffset).take 4 = leBytes 4 s.encoderCount.toNat := by
    simp only [WG0XStatus.bytes, leBytes, encoderCountOffset, List.cons_append, List.nil_append,
      List.drop_succ_cons, List.drop_zero, List.take_succ_cons, List.take_zero]
  rw [encoderCountAt_eq_statusCount, h]
  unfold statusCount
  rw [hfield]
  exact ofNat_leNat_leBytes 4 rfl s.encoderCount

/-! ## The slots of an image -/

/-- Distance from one slave's slot to the next: `command_size + status_size`. -/
def slotSize : Nat := commandSize + statusSize

@[simp] theorem slotSize_eq : slotSize = 52 := rfl

/-- The status records of the first `n` slots of the image at `image`. -/
def statusImage (mem : Area) (image : Nat) (n : Nat) : List (List Byte) :=
  (List.range n).map fun i => slice mem (image + slotSize * i + commandSize) statusSize

theorem statusImage_eq_iff {m m' : Area} {p p' : Nat} {n : Nat} :
    statusImage m p n = statusImage m' p' n ↔
      ∀ i < n, ∀ j < statusSize, m (p + slotSize * i + commandSize + j)
        = m' (p' + slotSize * i + commandSize + j) := by
  unfold statusImage
  rw [List.map_inj_left]
  simp only [List.mem_range, slice_eq_iff]

/-- Images that differ in every byte show different statuses. -/
theorem statusImage_ne {m m' : Area} {p n : Nat} (hn : 0 < n) (h : ∀ a, m a ≠ m' a) :
    statusImage m p n ≠ statusImage m' p n := by
  intro hsame
  exact h _ (statusImage_eq_iff.mp hsame 0 hn 0 (by decide))

/-- Images that agree byte by byte show the same statuses. -/
theorem statusImage_congr {m m' : Area} {p p' n : Nat}
    (h : ∀ k < slotSize * n, m (p + k) = m' (p' + k)) :
    statusImage m p n = statusImage m' p' n := by
  refine statusImage_eq_iff.mpr fun i hi j hj => ?_
  have hlt : slotSize * i + commandSize + j < slotSize * n := by
    have hle : slotSize * (i + 1) ≤ slotSize * n := Nat.mul_le_mul_left _ hi
    simp only [slotSize_eq, commandSize, statusSize] at hle hj ⊢
    omega
  rw [show p + slotSize * i + commandSize + j = p + (slotSize * i + commandSize + j) by omega,
    show p' + slotSize * i + commandSize + j = p' + (slotSize * i + commandSize + j) by omega]
  exact h _ hlt

end Pr2Ethercat
