import Mathlib.Data.Fin.Tuple.Basic
import Mathlib.Logic.Equiv.Basic
import Pr2Ethercat.Lib.ByteArea

/-!
# Formats of fixed size

A serialiser written in C takes a pointer and a value, stores the value there
and returns the pointer behind it; the parser takes a pointer, loads the value
and returns the same pointer. A `Codec` is such a pair for one type, with its
laws: both move the pointer by `size`, the first writes nothing outside those
bytes and the second reads nothing else, and they are inverse to each other, on
values (`load_store`) and on bytes (`store_load`).

Formats are put one behind the other by passing the pointer on. `seq`, `record`
and `array` build the format of a pair, of a record and of an array from those
of their parts, and the laws with them.
-/

universe u v

namespace ByteArea

/-- Bytes that are the same in two places, in two parts. -/
theorem slice_add_eq_iff {m m' : Area} {p p' k n : Nat} :
    slice m p (k + n) = slice m' p' (k + n) ↔
      slice m p k = slice m' p' k ∧ slice m (p + k) n = slice m' (p' + k) n := by
  simp only [slice_eq_iff]
  constructor
  · intro h
    refine ⟨fun j hj => h j (by omega), fun j hj => ?_⟩
    rw [Nat.add_assoc, Nat.add_assoc]
    exact h (k + j) (by omega)
  · rintro ⟨hfirst, hsecond⟩ j hj
    rcases Nat.lt_or_ge j k with hlt | hge
    · exact hfirst j hlt
    · have hbyte := hsecond (j - k) (by omega)
      rw [Nat.add_assoc, Nat.add_assoc, Nat.add_sub_cancel' hge] at hbyte
      exact hbyte

/-- One store behind another. -/
theorem put_put_add (m : Area) (p : Nat) (bs bs' : List Byte) :
    put (put m p bs) (p + bs.length) bs' = put m p (bs ++ bs') := by
  funext a
  by_cases hout : a < p ∨ p + (bs ++ bs').length ≤ a
  · have hparts := hout
    rw [List.length_append] at hparts
    rw [put_outside hout, put_outside (by omega), put_outside (by omega)]
  · rw [List.length_append] at hout
    obtain ⟨j, rfl⟩ := Nat.exists_eq_add_of_le (show p ≤ a by omega)
    have hin : j < (bs ++ bs').length := by
      rw [List.length_append]
      omega
    rw [put_inside hin]
    rcases Nat.lt_or_ge j bs.length with hlt | hge
    · rw [put_outside (by omega), put_inside hlt, List.getElem_append_left hlt]
    · obtain ⟨k, rfl⟩ := Nat.exists_eq_add_of_le hge
      have hk : k < bs'.length := by omega
      rw [← Nat.add_assoc, put_inside hk, List.getElem_append_right hge]
      congr 1
      omega

/-- `leBytes` is the inverse of `leNat`. -/
theorem leBytes_leNat : ∀ bs : List Byte, leBytes bs.length (leNat bs) = bs
  | [] => rfl
  | b :: bs => by
    have hvalue : leNat (b :: bs) = b.toNat + 256 * leNat bs := rfl
    have hb := b.isLt
    have hrest : leNat (b :: bs) / 256 = leNat bs := by omega
    have hfirst : BitVec.ofNat 8 (leNat (b :: bs)) = b := by
      apply BitVec.eq_of_toNat_eq
      rw [BitVec.toNat_ofNat]
      omega
    rw [List.length_cons, leBytes, hfirst, hrest, leBytes_leNat bs]

/-- What `n` bytes say, least significant first. -/
theorem leBytes_ofNat_leNat {w n : Nat} (hw : w = 8 * n) (m : Area) (p : Nat) :
    leBytes n (BitVec.ofNat w (leNat (slice m p n))).toNat = slice m p n := by
  have hbound : leNat (slice m p n) % 2 ^ w = leNat (slice m p n) := by
    have hsame := leNat_leBytes n (leNat (slice m p n))
    have hback := leBytes_leNat (slice m p n)
    rw [length_slice] at hback
    rw [hback, show (256 : Nat) ^ n = 2 ^ w by rw [hw, Nat.pow_mul]] at hsame
    exact hsame.symm
  have hback := leBytes_leNat (slice m p n)
  rw [length_slice] at hback
  rw [BitVec.toNat_ofNat, hbound, hback]

end ByteArea

open ByteArea

/-- A serialiser and a parser of the same fixed size. -/
structure Codec (α : Type u) where
  size : Nat
  store : Area → Nat → α → Area × Nat
  load : Area → Nat → α × Nat
  store_next : ∀ m p x, (store m p x).2 = p + size
  load_next : ∀ m p, (load m p).2 = p + size
  store_outside : ∀ m p x a, a < p ∨ p + size ≤ a → (store m p x).1 a = m a
  load_congr : ∀ m p m' p', slice m p size = slice m' p' size → (load m p).1 = (load m' p').1
  load_store : ∀ m p x, (load (store m p x).1 p).1 = x
  store_load : ∀ m p m' p', slice (store m' p' (load m p).1).1 p' size = slice m p size

namespace Codec

variable {α : Type u} {β : Type v}

/-- Bytes that say the same are the same. -/
theorem slice_eq_of_load_eq (c : Codec α) {m m' : Area} {p p' : Nat}
    (h : (c.load m p).1 = (c.load m' p').1) : slice m p c.size = slice m' p' c.size := by
  rw [← c.store_load m p m p, h, c.store_load m' p' m p]

/-- What a value looks like does not depend on where it is put. -/
theorem slice_store (c : Codec α) (m : Area) (p : Nat) (m' : Area) (p' : Nat) (x : α) :
    slice (c.store m p x).1 p c.size = slice (c.store m' p' x).1 p' c.size := by
  apply c.slice_eq_of_load_eq
  rw [c.load_store, c.load_store]

/-- The bytes of a value. -/
def bytes (c : Codec α) (x : α) : List Byte := slice (c.store (fun _ => 0) 0 x).1 0 c.size

@[simp] theorem length_bytes (c : Codec α) (x : α) : (c.bytes x).length = c.size :=
  length_slice ..

/-- They are all that is stored. -/
theorem store_eq_put (c : Codec α) (m : Area) (p : Nat) (x : α) :
    c.store m p x = (put m p (c.bytes x), p + c.size) := by
  refine Prod.ext ?_ (c.store_next m p x)
  funext a
  show _ = put m p (c.bytes x) a
  by_cases ha : a < p ∨ p + c.size ≤ a
  · rw [c.store_outside _ _ _ _ ha, put_outside (by rw [c.length_bytes]; exact ha)]
  · have hin : a - p < (c.bytes x).length := by
      rw [c.length_bytes]
      omega
    have hbyte := slice_eq_iff.mp (c.slice_store m p (fun _ => 0) 0 x) (a - p) (by omega)
    have hstored : (c.bytes x)[a - p] = (c.store (fun _ => 0) 0 x).1 (0 + (a - p)) :=
      getElem_slice hin
    rw [show a = p + (a - p) by omega, put_inside hin, hstored, ← hbyte]

/-- They are all that is loaded. -/
theorem load_eq_iff (c : Codec α) {m : Area} {p : Nat} {x : α} :
    (c.load m p).1 = x ↔ slice m p c.size = c.bytes x := by
  constructor
  · rintro rfl
    exact (c.store_load m p _ 0).symm
  · intro h
    rw [← c.load_store (fun _ => 0) 0 x]
    exact c.load_congr _ _ _ _ h

/-- Nothing. -/
def unit : Codec PUnit.{u + 1} where
  size := 0
  store m p _ := (m, p)
  load _ p := (⟨⟩, p)
  store_next _ _ _ := rfl
  load_next _ _ := rfl
  store_outside _ _ _ _ _ := rfl
  load_congr _ _ _ _ _ := rfl
  load_store _ _ _ := rfl
  store_load _ _ _ _ := rfl

/-- One value behind another. -/
def seq (c : Codec α) (d : Codec β) : Codec (α × β) where
  size := c.size + d.size
  store m p x := d.store (c.store m p x.1).1 (c.store m p x.1).2 x.2
  load m p := (((c.load m p).1, (d.load m (c.load m p).2).1), (d.load m (c.load m p).2).2)
  store_next m p x := by
    rw [d.store_next, c.store_next, Nat.add_assoc]
  load_next m p := by
    show (d.load m (c.load m p).2).2 = _
    rw [d.load_next, c.load_next, Nat.add_assoc]
  store_outside m p x a ha := by
    rw [d.store_outside _ _ _ _ (by rw [c.store_next]; omega),
      c.store_outside _ _ _ _ (by omega)]
  load_congr m p m' p' h := by
    obtain ⟨hfirst, hsecond⟩ := slice_add_eq_iff.mp h
    show ((c.load m p).1, (d.load m (c.load m p).2).1) = _
    rw [c.load_congr _ _ _ _ hfirst, c.load_next, d.load_congr _ _ _ _ hsecond, ← c.load_next]
  load_store m p x := by
    -- the second store does not touch what the first has stored
    have hkept : slice (d.store (c.store m p x.1).1 (c.store m p x.1).2 x.2).1 p c.size
        = slice (c.store m p x.1).1 p c.size := by
      refine slice_eq_iff.mpr fun j hj => d.store_outside _ _ _ _ ?_
      rw [c.store_next]
      omega
    have hfirst := c.load_congr _ _ _ _ hkept
    have hsecond := d.load_store (c.store m p x.1).1 (c.store m p x.1).2 x.2
    rw [c.load_store] at hfirst
    refine Prod.ext hfirst ?_
    show (d.load _ (c.load _ p).2).1 = x.2
    rw [c.load_next, ← c.store_next m p x.1]
    exact hsecond
  store_load m p m' p' := by
    refine slice_add_eq_iff.mpr ⟨?_, ?_⟩
    · rw [← c.store_load m p m' p']
      refine slice_eq_iff.mpr fun j hj => d.store_outside _ _ _ _ ?_
      rw [c.store_next]
      omega
    · have hsecond := d.store_load m (p + c.size) (c.store m' p' (c.load m p).1).1 (p' + c.size)
      show slice (d.store _ (c.store m' p' (c.load m p).1).2 (d.load m (c.load m p).2).1).1 _ _ = _
      rw [c.store_next, c.load_next]
      exact hsecond

theorem bytes_seq (c : Codec α) (d : Codec β) (x : α) (y : β) :
    (c.seq d).bytes (x, y) = c.bytes x ++ d.bytes y := by
  have hlen : (c.seq d).size = (c.bytes x ++ d.bytes y).length := by
    rw [List.length_append, c.length_bytes, d.length_bytes]
    rfl
  have hstore : ((c.seq d).store (fun _ => 0) 0 (x, y)).1
      = put (fun _ => 0) 0 (c.bytes x ++ d.bytes y) := by
    show (d.store (c.store _ 0 x).1 (c.store _ 0 x).2 y).1 = _
    rw [c.store_eq_put, d.store_eq_put, ← put_put_add, c.length_bytes]
  unfold bytes
  rw [hstore, hlen]
  exact slice_put ..

/-- The same bytes for other values. -/
def iso (c : Codec α) (e : α ≃ β) : Codec β where
  size := c.size
  store m p x := c.store m p (e.symm x)
  load m p := (e (c.load m p).1, (c.load m p).2)
  store_next m p x := c.store_next m p (e.symm x)
  load_next m p := c.load_next m p
  store_outside m p x a ha := c.store_outside m p (e.symm x) a ha
  load_congr m p m' p' h := congrArg e (c.load_congr m p m' p' h)
  load_store m p x := by
    rw [c.load_store, e.apply_symm_apply]
  store_load m p m' p' := by
    rw [e.symm_apply_apply, c.store_load]

/-! ## Records -/

/-- The fields of a record, one of each kind in the list. -/
@[reducible] def Record {ι : Type*} (V : ι → Type u) : List ι → Type u
  | [] => PUnit
  | t :: ts => V t × Record V ts

/-- The fields of a record one behind the other. -/
def record {ι : Type*} {V : ι → Type u} (c : ∀ t, Codec (V t)) : ∀ ts, Codec (Record V ts)
  | [] => unit
  | t :: ts => (c t).seq (record c ts)

section Record

variable {ι : Type*} {V : ι → Type u}

/-- The bytes of the fields, in order. -/
def recordBytes (bytes : ∀ t, V t → List Byte) : ∀ ts, Record V ts → List Byte
  | [], _ => []
  | t :: ts, x => bytes t x.1 ++ recordBytes bytes ts x.2

theorem bytes_record (c : ∀ t, Codec (V t)) :
    ∀ (ts : List ι) (x : Record V ts),
      (record c ts).bytes x = recordBytes (fun t => (c t).bytes) ts x
  | [], _ => rfl
  | t :: ts, x => by
    rw [recordBytes, ← bytes_record c ts x.2]
    exact bytes_seq (c t) (record c ts) x.1 x.2

end Record

/-! ## Arrays -/

/-- Elements one behind the other. -/
def array (c : Codec α) : ∀ n, Codec (Fin n → α)
  | 0 => (unit : Codec PUnit.{u + 1}).iso
      ⟨fun _ => Fin.elim0, fun _ => ⟨⟩, fun _ => rfl, fun x => by
        funext i
        exact i.elim0⟩
  | n + 1 => (c.seq (c.array n)).iso (Fin.consEquiv fun _ => α)

theorem size_array (c : Codec α) : ∀ n, (c.array n).size = c.size * n
  | 0 => rfl
  | n + 1 => by
    show c.size + (c.array n).size = _
    rw [size_array c n, Nat.mul_succ, Nat.add_comm]

/-- Element `i` is loaded from its place. -/
theorem load_array (c : Codec α) (m : Area) :
    ∀ (n p : Nat) (i : Fin n), ((c.array n).load m p).1 i = (c.load m (p + c.size * i)).1
  | n + 1, p, i => by
    induction i using Fin.cases with
    | zero => rfl
    | succ i =>
      show ((c.array n).load m (c.load m p).2).1 i = _
      rw [load_array c m n, c.load_next, Fin.val_succ, Nat.mul_succ]
      congr 2
      omega

end Codec
