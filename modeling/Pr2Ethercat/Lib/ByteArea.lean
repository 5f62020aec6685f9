import Mathlib.Algebra.Group.Int.Even
import Mathlib.Algebra.Group.Nat.Even
import Mathlib.Data.List.Basic
import Mathlib.Data.List.Pairwise

/-!
# Byte areas: what `memcpy`, `memset` and packed records do to memory

A byte area is a total map from addresses to bytes. Nothing here bounds an
address: which addresses belong to an allocation is the business of the
program that uses the area, and a development that cares states it beside
its own size fields.

Three operations are enough for C code that moves records about: `blit`
(`memcpy` from one area into another), `put` (store the bytes of one record)
and `slice` (load them back). Each has one lemma for the addresses it covers
and one for the addresses it leaves alone, and `omega` does the rest.
`putAll` stores a list of records one after another; when no two of their
windows overlap, every record can be read back whatever the order was
(`slice_putAll`).

The last section is the little-endian reading of a byte string, with the one
round trip a packed C structure needs (`leNat_leBytes`).
-/

namespace ByteArea

abbrev Byte := BitVec 8

/-- Memory as a map from addresses to bytes. -/
abbrev Area := Nat → Byte

/-! ## Copying -/

/-- `memcpy(dst + doff, src + soff, len)`, seen as the new content of `dst`. -/
def blit (dst : Area) (doff : Nat) (src : Area) (soff len : Nat) : Area :=
  fun a => if doff ≤ a ∧ a < doff + len then src (soff + (a - doff)) else dst a

theorem blit_inside {dst src : Area} {doff soff len j : Nat} (h : j < len) :
    blit dst doff src soff len (doff + j) = src (soff + j) := by
  unfold blit
  rw [if_pos ⟨Nat.le_add_right _ _, by omega⟩, Nat.add_sub_cancel_left]

theorem blit_outside {dst src : Area} {doff soff len a : Nat}
    (h : a < doff ∨ doff + len ≤ a) : blit dst doff src soff len a = dst a := by
  unfold blit
  exact if_neg (by omega)

/-! ## Storing and loading one record -/

/-- Store the bytes `bs` from address `off` on. -/
def put (m : Area) (off : Nat) (bs : List Byte) : Area :=
  blit m off (fun j => bs.getD j 0) 0 bs.length

/-- Load `len` bytes from address `off` on. -/
def slice (m : Area) (off len : Nat) : List Byte :=
  (List.range len).map fun j => m (off + j)

@[simp] theorem length_slice (m : Area) (off len : Nat) : (slice m off len).length = len := by
  simp [slice]

theorem getElem_slice {m : Area} {off len j : Nat} (h : j < (slice m off len).length) :
    (slice m off len)[j] = m (off + j) := by
  simp [slice]

theorem put_inside {m : Area} {off j : Nat} {bs : List Byte} (h : j < bs.length) :
    put m off bs (off + j) = bs[j] := by
  unfold put
  rw [blit_inside h, Nat.zero_add, List.getD_eq_getElem?_getD, List.getElem?_eq_getElem h,
    Option.getD_some]

theorem put_outside {m : Area} {off a : Nat} {bs : List Byte}
    (h : a < off ∨ off + bs.length ≤ a) : put m off bs a = m a :=
  blit_outside h

/-- Two slices agree exactly when the areas agree byte by byte. -/
theorem slice_eq_iff {m m' : Area} {off off' len : Nat} :
    slice m off len = slice m' off' len ↔ ∀ j < len, m (off + j) = m' (off' + j) := by
  unfold slice
  rw [List.map_inj_left]
  simp only [List.mem_range]

/-- Loading a field is loading the record and cutting the field out. -/
theorem slice_add (m : Area) (off : Nat) {k n len : Nat} (h : k + n ≤ len) :
    slice m (off + k) n = ((slice m off len).drop k).take n := by
  apply List.ext_getElem
  · simp only [length_slice, List.length_take, List.length_drop]
    omega
  · intro j h₁ h₂
    rw [getElem_slice, List.getElem_take, List.getElem_drop, getElem_slice, Nat.add_assoc]

/-- What was stored is what is loaded. -/
theorem slice_put (m : Area) (off : Nat) (bs : List Byte) :
    slice (put m off bs) off bs.length = bs := by
  apply List.ext_getElem (length_slice ..)
  intro j h₁ h₂
  rw [getElem_slice, put_inside h₂]

/-- Storing over a record of the same length forgets the first store. -/
theorem put_put {m : Area} {off : Nat} {bs bs' : List Byte} (h : bs.length = bs'.length) :
    put (put m off bs) off bs' = put m off bs' := by
  funext a
  -- `a` lies before, inside or behind the record
  rcases Nat.lt_or_ge a off with ha | ha
  · rw [put_outside (Or.inl ha), put_outside (Or.inl ha), put_outside (Or.inl ha)]
  · rcases Nat.lt_or_ge a (off + bs'.length) with hb | hb
    · obtain ⟨j, rfl⟩ := Nat.exists_eq_add_of_le ha
      have hj : j < bs'.length := by omega
      rw [put_inside hj, put_inside hj]
    · rw [put_outside (Or.inr hb), put_outside (Or.inr (by omega)), put_outside (Or.inr hb)]

/-- Storing depends on the old area only where it does not store. -/
theorem put_congr {m m' : Area} {off a : Nat} {bs : List Byte} (h : m a = m' a) :
    put m off bs a = put m' off bs a := by
  unfold put blit
  rw [h]

/-- Addresses may be counted from any origin. -/
theorem put_add (m : Area) (off o : Nat) (bs : List Byte) (a : Nat) :
    put m (off + o) bs (off + a) = put (fun k => m (off + k)) o bs a := by
  unfold put blit
  have hsame : (off + o ≤ off + a ∧ off + a < off + o + bs.length)
      ↔ (o ≤ a ∧ a < o + bs.length) := by omega
  rw [if_congr hsame rfl rfl, Nat.add_sub_add_left]

/-! ## Storing many records -/

/-- The stores `(address, bytes)` of `ws`, first to last. -/
def putAll (ws : List (Nat × List Byte)) (m : Area) : Area :=
  ws.foldl (fun m w => put m w.1 w.2) m

/-- The windows of two stores do not overlap. -/
def Apart (w w' : Nat × List Byte) : Prop :=
  w.1 + w.2.length ≤ w'.1 ∨ w'.1 + w'.2.length ≤ w.1

@[simp] theorem putAll_nil (m : Area) : putAll [] m = m := rfl

@[simp] theorem putAll_cons (w : Nat × List Byte) (ws : List (Nat × List Byte)) (m : Area) :
    putAll (w :: ws) m = putAll ws (put m w.1 w.2) := rfl

/-- A byte that lies in no window is left alone. -/
theorem putAll_outside {a : Nat} :
    ∀ {ws : List (Nat × List Byte)} {m : Area},
      (∀ w ∈ ws, a < w.1 ∨ w.1 + w.2.length ≤ a) → putAll ws m a = m a
  | [], _, _ => rfl
  | w :: ws, m, h => by
    rw [putAll_cons, putAll_outside fun w' hw' => h w' (List.mem_cons_of_mem _ hw')]
    exact put_outside (h w (List.mem_cons_self ..))

/-- With pairwise disjoint windows, every record stored is there at the end. -/
theorem slice_putAll {w : Nat × List Byte} :
    ∀ {ws : List (Nat × List Byte)} {m : Area}, ws.Pairwise Apart → w ∈ ws →
      slice (putAll ws m) w.1 w.2.length = w.2
  | [], _, _, hw => absurd hw (by simp)
  | w' :: ws, m, hp, hw => by
    obtain ⟨hhead, htail⟩ := List.pairwise_cons.mp hp
    rw [putAll_cons]
    rcases List.mem_cons.mp hw with rfl | hmem
    · -- the later stores stay out of the head's window
      have hkeep : slice (putAll ws (put m w.1 w.2)) w.1 w.2.length
          = slice (put m w.1 w.2) w.1 w.2.length := by
        refine slice_eq_iff.mpr fun j hj => putAll_outside fun v hv => ?_
        have := hhead v hv
        unfold Apart at this
        omega
      rw [hkeep, slice_put]
    · exact slice_putAll htail hmem

/-- The stores decide the bytes they cover, and the rest is carried over. -/
theorem putAll_congr {a : Nat} :
    ∀ (ws : List (Nat × List Byte)) {m m' : Area},
      ((∀ w ∈ ws, a < w.1 ∨ w.1 + w.2.length ≤ a) → m a = m' a) → putAll ws m a = putAll ws m' a
  | [], _, _, h => h fun _ hw => absurd hw (by simp)
  | w :: ws, m, m', h => by
    rw [putAll_cons, putAll_cons]
    refine putAll_congr ws fun hrest => ?_
    by_cases hin : w.1 ≤ a ∧ a < w.1 + w.2.length
    · obtain ⟨j, rfl⟩ := Nat.exists_eq_add_of_le hin.1
      have hj : j < w.2.length := by omega
      rw [put_inside hj, put_inside hj]
    · refine put_congr (h fun v hv => ?_)
      rcases List.mem_cons.mp hv with rfl | hmem
      · omega
      · exact hrest v hmem

/-- The same stores further up are the same stores into the area seen from there. -/
theorem putAll_add (off : Nat) {a : Nat} :
    ∀ (ws : List (Nat × List Byte)) (m : Area),
      putAll (ws.map fun w => (off + w.1, w.2)) m (off + a) = putAll ws (fun k => m (off + k)) a
  | [], _ => rfl
  | w :: ws, m => by
    have hput : (fun k => put m (off + w.1) w.2 (off + k))
        = put (fun k => m (off + k)) w.1 w.2 := by
      funext k
      exact put_add ..
    rw [List.map_cons, putAll_cons, putAll_cons, putAll_add off ws, hput]

/-! ## Little-endian integers -/

/-- The `n` low bytes of `v`, least significant first. -/
def leBytes : Nat → Nat → List Byte
  | 0, _ => []
  | n + 1, v => BitVec.ofNat 8 v :: leBytes n (v / 256)

/-- The number a byte string stands for, least significant byte first. -/
def leNat (bs : List Byte) : Nat :=
  bs.foldr (fun b acc => b.toNat + 256 * acc) 0

@[simp] theorem length_leBytes (n v : Nat) : (leBytes n v).length = n := by
  induction n generalizing v with
  | zero => rfl
  | succ n ih => simp only [leBytes, List.length_cons, ih]

/-- Reading back `n` bytes of `v` gives `v` modulo `256 ^ n`. -/
theorem leNat_leBytes (n v : Nat) : leNat (leBytes n v) = v % 256 ^ n := by
  induction n generalizing v with
  | zero => simp [leBytes, leNat, Nat.mod_one]
  | succ n ih =>
    -- the first byte is the remainder, the others are the quotient's
    have hstep : leNat (leBytes (n + 1) v) = v % 256 + 256 * leNat (leBytes n (v / 256)) := by
      simp [leBytes, leNat, BitVec.toNat_ofNat]
    rw [hstep, ih, Nat.pow_succ', Nat.mod_mul]

/-- A bit vector of `n` bytes survives being stored and loaded. -/
theorem ofNat_leNat_leBytes {w : Nat} (n : Nat) (hw : w = 8 * n) (x : BitVec w) :
    BitVec.ofNat w (leNat (leBytes n x.toNat)) = x := by
  rw [leNat_leBytes, show (256 : Nat) ^ n = 2 ^ w by rw [hw, Nat.pow_mul], Nat.mod_eq_of_lt x.isLt,
    BitVec.ofNat_toNat, BitVec.setWidth_eq]

end ByteArea
