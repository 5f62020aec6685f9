import Mathlib.Data.List.Basic
import Mathlib.Data.List.Nodup

/-!
# Laying out the records of a list: every element, or only some of them

A program that keeps one fixed-size record for each element of a list has two
ways to number the slots. It can step over the whole list (`walk`: slot `i`
belongs to element `i`), or hand slots only to the elements a predicate
selects (`rank`: the slot of a selected element is the number of selected
elements before it). The two numberings agree on an element exactly when
nothing before it was skipped (`rank_eq_self_iff`), and that is all there is to
know when one part of a program uses the first and another part the second.

`rank` is tied to `List.filter` by `getElem?_filter_rank`: the element of rank
`k` is element `k` of the filtered list.

Where windows of different lengths are handed out one after the other, `Tiles`
says that they fill a range without gap or overlap.
-/

namespace Layout

/-! ## The strided walk of a `for` loop with a moving pointer -/

/-- The pairs (index, pointer) seen by `n` turns of a loop that starts at
index `i` and pointer `ptr` and moves the pointer by `stride` each turn. -/
def walk (stride : Nat) : (n i ptr : Nat) → List (Nat × Nat)
  | 0, _, _ => []
  | n + 1, i, ptr => (i, ptr) :: walk stride n (i + 1) (ptr + stride)

/-- Turn `k` of the loop sees index `i + k` and pointer `ptr + stride * k`. -/
theorem walk_eq_map (stride : Nat) :
    ∀ (n i ptr : Nat),
      walk stride n i ptr = (List.range n).map fun k => (i + k, ptr + stride * k)
  | 0, _, _ => rfl
  | n + 1, i, ptr => by
    rw [walk, walk_eq_map stride n, List.range_succ_eq_map, List.map_cons, List.map_map]
    refine congrArg₂ List.cons (by simp) (List.map_congr_left fun k _ => ?_)
    simp only [Function.comp_apply, Nat.succ_eq_add_one, Prod.mk.injEq, Nat.mul_add, Nat.mul_one]
    omega

/-- What the turns of the loop compute. -/
theorem mem_map_walk {β : Type*} {stride n i ptr : Nat} {f : Nat × Nat → β} {b : β} :
    b ∈ (walk stride n i ptr).map f ↔ ∃ k < n, b = f (i + k, ptr + stride * k) := by
  rw [walk_eq_map, List.map_map]
  simp only [List.mem_map, List.mem_range, Function.comp_apply]
  constructor
  · rintro ⟨k, hk, rfl⟩
    exact ⟨k, hk, rfl⟩
  · rintro ⟨k, hk, rfl⟩
    exact ⟨k, hk, rfl⟩

/-! ## Rank among the selected elements -/

variable {α : Type*} {p : α → Bool}

/-- How many of the first `i` elements of `l` are selected by `p`. -/
def rank (p : α → Bool) (l : List α) (i : Nat) : Nat := (l.take i).countP p

@[simp] theorem rank_zero (l : List α) : rank p l 0 = 0 := rfl

theorem rank_succ {l : List α} {i : Nat} (h : i < l.length) :
    rank p l (i + 1) = rank p l i + if p l[i] then 1 else 0 := by
  unfold rank
  rw [List.take_succ_eq_append_getElem h, List.countP_append, List.countP_singleton]

theorem rank_cons (a : α) (l : List α) (i : Nat) :
    rank p (a :: l) (i + 1) = rank p l i + if p a then 1 else 0 := by
  simp only [rank, List.take_succ_cons, List.countP_cons]

/-- A rank never exceeds the index: skipping only ever loses slots. -/
theorem rank_le (l : List α) (i : Nat) : rank p l i ≤ i := by
  unfold rank
  refine Nat.le_trans List.countP_le_length ?_
  rw [List.length_take]
  exact Nat.min_le_left ..

theorem rank_length (l : List α) : rank p l l.length = l.countP p := by
  unfold rank
  rw [List.take_length]

theorem rank_mono (l : List α) {i j : Nat} (h : i ≤ j) : rank p l i ≤ rank p l j := by
  unfold rank
  exact List.Sublist.countP_le (List.take_sublist_take_left h)

/-- A selected element strictly raises the rank of everything behind it. -/
theorem rank_lt_of_lt {l : List α} {i j : Nat} (hi : i < l.length) (hp : p l[i] = true)
    (hij : i < j) : rank p l i < rank p l j := by
  have hstep : rank p l (i + 1) = rank p l i + 1 := by rw [rank_succ hi, if_pos hp]
  have hmono : rank p l (i + 1) ≤ rank p l j := rank_mono l hij
  omega

theorem rank_lt_countP {l : List α} {i : Nat} (hi : i < l.length) (hp : p l[i] = true) :
    rank p l i < l.countP p := by
  rw [← rank_length]
  exact rank_lt_of_lt hi hp hi

/-- Selected elements have different ranks. -/
theorem rank_inj {l : List α} {i j : Nat} (hi : i < l.length) (hj : j < l.length)
    (hpi : p l[i] = true) (hpj : p l[j] = true) (h : rank p l i = rank p l j) : i = j := by
  rcases Nat.lt_trichotomy i j with hlt | heq | hgt
  · have := rank_lt_of_lt hi hpi hlt
    omega
  · exact heq
  · have := rank_lt_of_lt hj hpj hgt
    omega

/-- The rank of a selected element is its position in the filtered list. -/
theorem getElem?_filter_rank :
    ∀ {l : List α} {i : Nat} (hi : i < l.length), p l[i] = true →
      (l.filter p)[rank p l i]? = some l[i]
  | [], _, hi, _ => absurd hi (by simp)
  | a :: l, 0, _, hp => by
    have ha : p a = true := hp
    rw [List.filter_cons_of_pos ha]
    rfl
  | a :: l, i + 1, hi, hp => by
    have ih := getElem?_filter_rank (l := l) (i := i) (Nat.lt_of_succ_lt_succ hi) hp
    rw [rank_cons]
    cases ha : p a with
    | true =>
      rw [List.filter_cons_of_pos ha, if_pos rfl, List.getElem?_cons_succ]
      exact ih
    | false =>
      rw [List.filter_cons_of_neg (by simp [ha]), if_neg (by simp), Nat.add_zero]
      exact ih

/-- **Where the two numberings agree**: the rank of an index is the index
itself exactly when everything before it is selected. -/
theorem rank_eq_self_iff {l : List α} :
    ∀ {i : Nat}, i ≤ l.length →
      (rank p l i = i ↔ ∀ (j : Nat) (hj : j < l.length), j < i → p l[j] = true)
  | 0, _ => by simp
  | i + 1, hi => by
    have hil : i < l.length := hi
    have ih := rank_eq_self_iff (i := i) (Nat.le_of_lt hil)
    have hle : rank p l i ≤ i := rank_le l i
    rw [rank_succ hil]
    constructor
    · intro h j hj hji
      cases hp : p l[i] with
      | false =>
        rw [hp, if_neg (by simp)] at h
        omega
      | true =>
        rw [hp, if_pos rfl] at h
        rcases Nat.lt_or_eq_of_le (Nat.le_of_lt_succ hji) with hlt | rfl
        · exact ih.mp (by omega) j hj hlt
        · exact hp
    · intro h
      rw [if_pos (h i hil (Nat.lt_succ_self i)),
        ih.mpr fun j hj hji => h j hj (Nat.lt_succ_of_lt hji)]

/-- Every number below the count is the rank of a selected element. -/
theorem exists_rank_eq :
    ∀ {l : List α} {k : Nat}, k < l.countP p →
      ∃ (i : Nat) (hi : i < l.length), p l[i] = true ∧ rank p l i = k
  | [], _, hk => absurd hk (by simp)
  | a :: l, k, hk => by
    cases ha : p a with
    | false =>
      rw [List.countP_cons_of_neg (by simp [ha])] at hk
      obtain ⟨i, hi, hp, hr⟩ := exists_rank_eq hk
      refine ⟨i + 1, Nat.succ_lt_succ hi, hp, ?_⟩
      rw [rank_cons, ha, if_neg (by simp), hr, Nat.add_zero]
    | true =>
      cases k with
      | zero => exact ⟨0, Nat.succ_pos _, ha, rfl⟩
      | succ k =>
        rw [List.countP_cons_of_pos ha] at hk
        obtain ⟨i, hi, hp, hr⟩ := exists_rank_eq (Nat.lt_of_succ_lt_succ hk)
        refine ⟨i + 1, Nat.succ_lt_succ hi, hp, ?_⟩
        rw [rank_cons, ha, if_pos rfl, hr]

/-! ## Windows without gaps -/

/-- The windows `(start, length)` follow one another from `lo` to `hi`. -/
def Tiles : (lo : Nat) → List (Nat × Nat) → (hi : Nat) → Prop
  | lo, [], hi => lo = hi
  | lo, w :: ws, hi => w.1 = lo ∧ Tiles (lo + w.2) ws hi

@[simp] theorem tiles_nil {lo hi : Nat} : Tiles lo [] hi ↔ lo = hi := Iff.rfl

theorem Tiles.append {ws ws' : List (Nat × Nat)} {mid hi : Nat} (h' : Tiles mid ws' hi) :
    ∀ {lo : Nat}, Tiles lo ws mid → Tiles lo (ws ++ ws') hi := by
  induction ws with
  | nil =>
    intro lo h
    rw [tiles_nil.mp h]
    exact h'
  | cons w ws ih =>
    intro lo h
    exact ⟨h.1, ih h.2⟩

theorem Tiles.le {ws : List (Nat × Nat)} {hi : Nat} : ∀ {lo : Nat}, Tiles lo ws hi → lo ≤ hi := by
  induction ws with
  | nil =>
    intro lo h
    exact Nat.le_of_eq h
  | cons w ws ih =>
    intro lo h
    have hrest := ih h.2
    omega

/-- Every window lies in the range. -/
theorem Tiles.inside {ws : List (Nat × Nat)} {hi : Nat} {w : Nat × Nat} (hw : w ∈ ws) :
    ∀ {lo : Nat}, Tiles lo ws hi → lo ≤ w.1 ∧ w.1 + w.2 ≤ hi := by
  induction ws with
  | nil => exact absurd hw List.not_mem_nil
  | cons v ws ih =>
    intro lo h
    rcases h with ⟨hv, hrest⟩
    rcases List.mem_cons.mp hw with rfl | hmem
    · have hle := hrest.le
      omega
    · have hin := ih hmem hrest
      omega

/-- No two windows overlap: each ends before the next ones begin. -/
theorem Tiles.pairwise {ws : List (Nat × Nat)} {hi : Nat} :
    ∀ {lo : Nat}, Tiles lo ws hi → ws.Pairwise fun w w' => w.1 + w.2 ≤ w'.1 := by
  induction ws with
  | nil =>
    intro lo _
    exact List.Pairwise.nil
  | cons v ws ih =>
    intro lo h
    rcases h with ⟨hv, hrest⟩
    refine List.pairwise_cons.mpr ⟨fun w hw => ?_, ih hrest⟩
    have hin := hrest.inside hw
    omega

/-- Where every element gets a block of one size, and tiles it, the list tiles
the whole range. -/
theorem tiles_flatMap {stride : Nat} {block : α → List (Nat × Nat)} {l : List α} :
    ∀ {lo : Nat}, (∀ (k : Nat) (hk : k < l.length),
        Tiles (lo + stride * k) (block l[k]) (lo + stride * k + stride)) →
      Tiles lo (l.flatMap block) (lo + stride * l.length) := by
  induction l with
  | nil =>
    intro lo _
    exact rfl
  | cons a l ih =>
    intro lo h
    have hhead : Tiles lo (block a) (lo + stride) := h 0 (Nat.succ_pos _)
    have htail : Tiles (lo + stride) (l.flatMap block) (lo + stride + stride * l.length) := by
      refine ih fun k hk => ?_
      have hk' := h (k + 1) (Nat.succ_lt_succ hk)
      rw [List.getElem_cons_succ, Nat.mul_succ, Nat.add_comm (stride * k), ← Nat.add_assoc] at hk'
      exact hk'
    rw [List.flatMap_cons, List.length_cons, Nat.mul_succ, Nat.add_comm (stride * l.length),
      ← Nat.add_assoc]
    exact Tiles.append htail hhead

end Layout
