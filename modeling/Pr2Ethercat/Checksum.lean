import Pr2Ethercat.Lib.RotatingXor
import Pr2Ethercat.Wire

/-!
# What the checksum notices

`computeChecksum` keeps its checksum in an `unsigned` and masks it to a byte
three times a turn. Seen through the masks, `rotateRight8` is the rotation of a
byte by one place and the loop is the rotating xor checksum of `RotatingXor`,
started at `0x42` (`computeChecksum_eq_checksum`).

So its power does not depend on what the message says. A change confined to one
byte is always noticed; a change of two bytes is missed exactly when the later
difference is the earlier one rotated by their distance.
-/

namespace Pr2Ethercat

open ByteArea RotatingXor

/-- `rotateRight8` of a byte is a rotation, with period 8. -/
theorem rotateRight8_setWidth : ∀ x : Byte,
    rotateRight8 (x.setWidth 32) = (x.rotateRight 1).setWidth 32 := by
  decide

/-- Between two turns the checksum is a byte, and a turn is the library's step. -/
theorem checksumStep_setWidth (checksum d : Byte) :
    checksumStep (checksum.setWidth 32) d = (step checksum d).setWidth 32 := by
  unfold checksumStep
  rw [rotateRight8_setWidth, ← BitVec.setWidth_xor, and_ff, setWidth_setWidth_byte]
  rfl

theorem foldl_checksumStep (checksum : Byte) (data : List Byte) :
    data.foldl checksumStep (checksum.setWidth 32) = (data.foldl step checksum).setWidth 32 := by
  induction data generalizing checksum with
  | nil => rfl
  | cons d rest ih =>
    rw [List.foldl_cons, List.foldl_cons, checksumStep_setWidth]
    exact ih (step checksum d)

/-- `computeChecksum` is a rotating xor checksum. -/
theorem computeChecksum_eq_checksum (data : List Byte) (length : Nat) :
    computeChecksum data length = (checksum (0x42 : Byte) (data.take length)).setWidth 32 :=
  foldl_checksumStep 0x42 (data.take length)

/-- Two messages of the same length have the same `computeChecksum` exactly
when the library's checksum does not tell them apart. -/
theorem computeChecksum_eq_iff_checksum {n : Nat} {x y : List Byte} (hx : x.length = n)
    (hy : y.length = n) :
    computeChecksum x n = computeChecksum y n
      ↔ checksum (0x42 : Byte) x = checksum (0x42 : Byte) y := by
  rw [computeChecksum_eq_checksum, computeChecksum_eq_checksum, setWidth_inj,
    List.take_of_length_le (by omega), List.take_of_length_le (by omega)]

/-- Which changes of a message the checksum misses: in general, of one byte, and
of two. -/
theorem computeChecksum_eq_iff {n : Nat} {x y : List Byte} (hx : x.length = n)
    (hy : y.length = n) :
    (computeChecksum x n = computeChecksum y n ↔
      (xorOver n fun i => (x.getD i 0 ^^^ y.getD i 0).rotateRight (n - 1 - i)) = 0) ∧
    (∀ p, p < n → x.getD p 0 ≠ y.getD p 0 →
      (∀ k, k < n → k ≠ p → x.getD k 0 = y.getD k 0) →
        computeChecksum x n ≠ computeChecksum y n) ∧
    ∀ i j, i < j → j < n → (∀ k, k < n → k ≠ i → k ≠ j → x.getD k 0 = y.getD k 0) →
      (computeChecksum x n = computeChecksum y n ↔
        x.getD j 0 ^^^ y.getD j 0 = (x.getD i 0 ^^^ y.getD i 0).rotateRight (j - i)) := by
  rw [Ne, computeChecksum_eq_iff_checksum hx hy]
  refine ⟨checksum_eq_checksum_iff hx hy, ?_, ?_⟩
  · intro p hp hne hrest
    exact checksum_ne_of_single hx hy hp hne hrest
  · intro i j hij hj hrest
    exact checksum_eq_iff_of_pair hx hy hij hj hrest

/-- A flipped lowest bit is noticed, unless the highest bit of the next byte is
flipped with it. -/
theorem computeChecksum_two_bytes :
    computeChecksum [0x12, 0x34] 2 ≠ computeChecksum [0x13, 0x34] 2 ∧
      computeChecksum [0x12, 0x34] 2 = computeChecksum [0x13, 0xb4] 2 :=
  ⟨(computeChecksum_eq_iff (n := 2) (x := [0x12, 0x34]) (y := [0x13, 0x34]) rfl rfl).2.1
      0 (by decide) (by decide) (by decide),
    ((computeChecksum_eq_iff (n := 2) (x := [0x12, 0x34]) (y := [0x13, 0xb4]) rfl rfl).2.2
      0 1 (by decide) (by decide) (by decide)).mpr (by decide)⟩

end Pr2Ethercat
