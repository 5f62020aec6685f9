import Mathlib.Data.List.GetD
import Mathlib.Data.List.Induction
import Mathlib.Logic.Function.Basic

/-!
# Rotating xor checksums

A checksum of one machine word, kept by a loop that rotates it by one place and
xors the next word of the message in. Rotation is linear over xor, so the
checksum of a message is the xor of its words, each rotated by the number of
words that follow it, and of the seed rotated by the number of all of them
(`checksum_eq`). Which changes of a message go unnoticed is then a matter of the
differences alone (`checksum_eq_checksum_iff`), and neither the seed nor the
message appears in the answer.

The word width is a parameter throughout.
-/

namespace RotatingXor

variable {w : Nat}

/-! ## Rotation -/

theorem rotateRight_xor (x y : BitVec w) (k : Nat) :
    (x ^^^ y).rotateRight k = x.rotateRight k ^^^ y.rotateRight k := by
  apply BitVec.eq_of_getElem_eq
  intro i hi
  rw [BitVec.getElem_xor]
  simp only [BitVec.getElem_rotateRight, BitVec.getElem_xor]
  split <;> rfl

theorem zero_rotateRight (k : Nat) : (0#w).rotateRight k = 0#w := by
  have hself : 0#w ^^^ 0#w = 0#w := BitVec.xor_self
  rw [← hself, rotateRight_xor, BitVec.xor_self, BitVec.xor_self]

/-- Which bit of `x` ends up at place `i`. -/
theorem getElem_rotateRight_mod (x : BitVec w) (k : Nat) {i : Nat} (hi : i < w) :
    (x.rotateRight k)[i] = x.getLsbD ((i + k) % w) := by
  have hk : k % w < w := Nat.mod_lt k (by omega)
  rw [BitVec.getElem_rotateRight, Nat.add_mod, Nat.mod_eq_of_lt hi]
  split
  · rename_i hlow
    rw [Nat.mod_eq_of_lt (by omega : i + k % w < w), Nat.add_comm i,
      BitVec.getLsbD_eq_getElem]
  · rename_i hhigh
    have hwrap : (i + k % w) % w = i - (w - k % w) := by
      rw [Nat.mod_eq_sub_mod (by omega), Nat.mod_eq_of_lt (by omega)]
      omega
    simp only [hwrap]
    rw [BitVec.getLsbD_eq_getElem]

theorem rotateRight_rotateRight (x : BitVec w) (j k : Nat) :
    (x.rotateRight j).rotateRight k = x.rotateRight (j + k) := by
  apply BitVec.eq_of_getElem_eq
  intro i hi
  have hw : (i + k) % w < w := Nat.mod_lt _ (by omega)
  rw [getElem_rotateRight_mod _ _ hi, getElem_rotateRight_mod _ _ hi,
    BitVec.getLsbD_eq_getElem hw, getElem_rotateRight_mod _ _ hw, Nat.mod_add_mod]
  congr 2
  omega

theorem rotateRight_zero (x : BitVec w) : x.rotateRight 0 = x := by
  apply BitVec.eq_of_getElem_eq
  intro i hi
  rw [getElem_rotateRight_mod _ _ hi, Nat.add_zero, Nat.mod_eq_of_lt hi, BitVec.getLsbD_eq_getElem]

theorem rotateRight_mul_width (x : BitVec w) (k : Nat) : x.rotateRight (k * w) = x := by
  rw [← BitVec.rotateRight_mod_eq_rotateRight, Nat.mul_mod_left, rotateRight_zero]

/-- A rotation loses nothing. -/
theorem rotateRight_inj {x y : BitVec w} {k : Nat} :
    x.rotateRight k = y.rotateRight k ↔ x = y := by
  constructor
  · intro h
    -- turning `w - 1` times as far again completes `k` full turns
    have hback : ∀ z : BitVec w, (z.rotateRight k).rotateRight (k * (w - 1)) = z := by
      intro z
      rcases w with _ | v
      · exact Subsingleton.elim _ _
      · have hturns : k + k * (v + 1 - 1) = k * (v + 1) := by
          rw [Nat.add_sub_cancel, Nat.mul_succ, Nat.add_comm]
        rw [rotateRight_rotateRight, hturns, rotateRight_mul_width]
    rw [← hback x, h, hback]
  · intro h
    rw [h]

/-! ## The xor of a family of words -/

/-- `f 0 ^^^ f 1 ^^^ … ^^^ f (n - 1)`. -/
def xorOver : (n : Nat) → (f : Nat → BitVec w) → BitVec w
  | 0, _ => 0#w
  | n + 1, f => xorOver n f ^^^ f n

theorem xorOver_congr {f g : Nat → BitVec w} :
    ∀ {n : Nat}, (∀ i, i < n → f i = g i) → xorOver n f = xorOver n g
  | 0, _ => rfl
  | n + 1, h => by
    have ih : xorOver n f = xorOver n g := xorOver_congr fun i hi => h i (by omega)
    rw [xorOver, xorOver, ih, h n (by omega)]

theorem xorOver_zero (n : Nat) : xorOver n (fun _ => 0#w) = 0#w := by
  induction n with
  | zero => rfl
  | succ n ih => rw [xorOver, ih, BitVec.xor_self]

theorem xorOver_xor (n : Nat) (f g : Nat → BitVec w) :
    xorOver n (fun i => f i ^^^ g i) = xorOver n f ^^^ xorOver n g := by
  induction n with
  | zero => exact BitVec.xor_self.symm
  | succ n ih =>
    simp only [xorOver]
    rw [ih]
    ac_rfl

theorem rotateRight_xorOver (n : Nat) (f : Nat → BitVec w) (k : Nat) :
    (xorOver n f).rotateRight k = xorOver n fun i => (f i).rotateRight k := by
  induction n with
  | zero => exact zero_rotateRight k
  | succ n ih => rw [xorOver, xorOver, rotateRight_xor, ih]

/-- One word of the family taken out. -/
theorem xorOver_eq_xor_update (f : Nat → BitVec w) {p : Nat} :
    ∀ {n : Nat}, p < n → xorOver n f = f p ^^^ xorOver n (Function.update f p 0#w)
  | n + 1, hp => by
    rw [xorOver, xorOver]
    rcases Nat.lt_or_eq_of_le (Nat.le_of_lt_succ hp) with hlt | rfl
    · have ih := xorOver_eq_xor_update f hlt
      rw [ih, Function.update_of_ne (by omega), BitVec.xor_assoc]
    · have hsame : xorOver p (Function.update f p 0#w) = xorOver p f :=
        xorOver_congr fun i hi => Function.update_of_ne (by omega) _ _
      rw [hsame, Function.update_self, BitVec.xor_zero, BitVec.xor_comm]

theorem xorOver_eq_of_single {f : Nat → BitVec w} {n p : Nat} (hp : p < n)
    (hrest : ∀ i, i < n → i ≠ p → f i = 0#w) : xorOver n f = f p := by
  have hzero : xorOver n (Function.update f p 0#w) = xorOver n fun _ => 0#w := by
    apply xorOver_congr
    intro i hi
    rw [Function.update_apply]
    split
    · rfl
    · rename_i hne
      exact hrest i hi hne
  rw [xorOver_eq_xor_update f hp, hzero, xorOver_zero, BitVec.xor_zero]

theorem xorOver_eq_of_pair {f : Nat → BitVec w} {n p q : Nat} (hpq : p < q) (hq : q < n)
    (hrest : ∀ i, i < n → i ≠ p → i ≠ q → f i = 0#w) : xorOver n f = f p ^^^ f q := by
  have hsingle : xorOver n (Function.update f p 0#w) = Function.update f p 0#w q := by
    apply xorOver_eq_of_single hq
    intro i hi hne
    rw [Function.update_apply]
    split
    · rfl
    · rename_i hnep
      exact hrest i hi hnep hne
  rw [xorOver_eq_xor_update f (Nat.lt_trans hpq hq), hsingle, Function.update_of_ne (by omega)]

/-! ## The checksum -/

/-- One turn of the loop. -/
def step (sum word : BitVec w) : BitVec w := sum.rotateRight 1 ^^^ word

/-- The loop over all words. -/
def checksum (seed : BitVec w) (words : List (BitVec w)) : BitVec w := words.foldl step seed

/-- The checksum in closed form: of `n` words, the one at place `i` is followed
by `n - 1 - i` others. -/
theorem checksum_eq (seed : BitVec w) (words : List (BitVec w)) :
    checksum seed words = seed.rotateRight words.length
      ^^^ xorOver words.length fun i =>
        (words.getD i 0#w).rotateRight (words.length - 1 - i) := by
  induction words using List.reverseRecOn with
  | nil => exact (BitVec.xor_zero.trans (rotateRight_zero seed)).symm
  | append_singleton words last ih =>
    -- one more word: everything so far goes round by one place
    have hearlier : (xorOver words.length fun i =>
          ((words ++ [last]).getD i 0#w).rotateRight (words.length + 1 - 1 - i))
        = (xorOver words.length fun i =>
          (words.getD i 0#w).rotateRight (words.length - 1 - i)).rotateRight 1 := by
      rw [rotateRight_xorOver]
      apply xorOver_congr
      intro i hi
      rw [rotateRight_rotateRight, List.getD_append _ _ _ _ hi,
        show words.length - 1 - i + 1 = words.length + 1 - 1 - i by omega]
    have hlast : ((words ++ [last]).getD words.length 0#w).rotateRight
        (words.length + 1 - 1 - words.length) = last := by
      rw [List.getD_append_right _ _ _ _ (Nat.le_refl _), Nat.add_sub_cancel, Nat.sub_self,
        rotateRight_zero]
      rfl
    calc checksum seed (words ++ [last])
        = (checksum seed words).rotateRight 1 ^^^ last := by
          rw [checksum, List.foldl_append]
          rfl
      _ = _ := by
          rw [ih, rotateRight_xor, rotateRight_rotateRight, BitVec.xor_assoc, ← hearlier,
            List.length_append, List.length_singleton, xorOver, hlast]

/-- A change of the message goes unnoticed exactly when the differences, each
rotated by the number of words after it, cancel. -/
theorem checksum_eq_checksum_iff {seed : BitVec w} {n : Nat} {xs ys : List (BitVec w)}
    (hx : xs.length = n) (hy : ys.length = n) :
    checksum seed xs = checksum seed ys ↔
      (xorOver n fun i => (xs.getD i 0#w ^^^ ys.getD i 0#w).rotateRight (n - 1 - i)) = 0#w := by
  have hsplit : (xorOver n fun i => (xs.getD i 0#w ^^^ ys.getD i 0#w).rotateRight (n - 1 - i))
      = (xorOver n fun i => (xs.getD i 0#w).rotateRight (n - 1 - i))
        ^^^ xorOver n fun i => (ys.getD i 0#w).rotateRight (n - 1 - i) := by
    rw [← xorOver_xor]
    exact xorOver_congr fun i _ => rotateRight_xor _ _ _
  rw [checksum_eq, checksum_eq, hx, hy, BitVec.xor_right_inj, hsplit, BitVec.xor_eq_zero_iff]

/-- A change confined to one word is always noticed. -/
theorem checksum_ne_of_single {seed : BitVec w} {n p : Nat} {xs ys : List (BitVec w)}
    (hx : xs.length = n) (hy : ys.length = n) (hp : p < n)
    (hne : xs.getD p 0#w ≠ ys.getD p 0#w)
    (hrest : ∀ i, i < n → i ≠ p → xs.getD i 0#w = ys.getD i 0#w) :
    checksum seed xs ≠ checksum seed ys := by
  have hzero : ∀ i, i < n → i ≠ p →
      (xs.getD i 0#w ^^^ ys.getD i 0#w).rotateRight (n - 1 - i) = 0#w := by
    intro i hi hip
    rw [hrest i hi hip, BitVec.xor_self, zero_rotateRight]
  rw [Ne, checksum_eq_checksum_iff hx hy, xorOver_eq_of_single hp hzero]
  intro hcancel
  have hdiff := rotateRight_inj.mp (hcancel.trans (zero_rotateRight (n - 1 - p)).symm)
  exact hne (BitVec.xor_eq_zero_iff.mp hdiff)

/-- A change confined to two words goes unnoticed exactly when the later
difference is the earlier one, rotated by their distance. -/
theorem checksum_eq_iff_of_pair {seed : BitVec w} {n p q : Nat} {xs ys : List (BitVec w)}
    (hx : xs.length = n) (hy : ys.length = n) (hpq : p < q) (hq : q < n)
    (hrest : ∀ i, i < n → i ≠ p → i ≠ q → xs.getD i 0#w = ys.getD i 0#w) :
    checksum seed xs = checksum seed ys ↔
      xs.getD q 0#w ^^^ ys.getD q 0#w = (xs.getD p 0#w ^^^ ys.getD p 0#w).rotateRight (q - p) := by
  have hzero : ∀ i, i < n → i ≠ p → i ≠ q →
      (xs.getD i 0#w ^^^ ys.getD i 0#w).rotateRight (n - 1 - i) = 0#w := by
    intro i hi hip hiq
    rw [hrest i hi hip hiq, BitVec.xor_self, zero_rotateRight]
  have hfar : n - 1 - p = q - p + (n - 1 - q) := by omega
  rw [checksum_eq_checksum_iff hx hy, xorOver_eq_of_pair hpq hq hzero, BitVec.xor_eq_zero_iff,
    hfar, ← rotateRight_rotateRight, rotateRight_inj]
  exact eq_comm

end RotatingXor
