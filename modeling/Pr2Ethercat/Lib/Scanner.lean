import Mathlib.Data.List.Basic

/-!
# Reading items from a growing text

A scanner takes an item off the front of a text, as `scanf` does with one
conversion. It looks at no more of the text than it needs to see the end of the
item, so if something is left behind the item, text that comes later does not
change it (`append`). If it can make nothing of the text, it may leave the text
where it is, and then it is `Stuck` there for good.

A loop that reads items until one satisfies `stop` ends on a text if the text
`Reaches` such an item before the scanner has to wait for more.
-/

/-- What is read, if anything, and the text left behind it. -/
structure Scanner (α β : Type*) where
  scan : List α → Option β × List α
  append : ∀ text more, (scan text).2 ≠ [] →
    scan (text ++ more) = ((scan text).1, (scan text).2 ++ more)

namespace Scanner

variable {α β : Type*} (c : Scanner α β)

/-- The scanner need not wait: the item has an end, or there is no more text. -/
def Sees (closed : Bool) (text : List α) : Prop := (c.scan text).2 ≠ [] ∨ closed = true

/-- Nothing is read, and nothing is taken off. -/
def Stuck (text : List α) : Prop := c.scan text = (none, text)

variable {c}

/-- Later text does not help. -/
theorem Stuck.append {text : List α} (h : c.Stuck text) (hne : text ≠ []) (more : List α) :
    c.Stuck (text ++ more) := by
  have hleft : (c.scan text).2 ≠ [] := by
    rw [h]
    exact hne
  show c.scan (text ++ more) = _
  rw [c.append text more hleft, h]

variable (c)

/-- An item that satisfies `stop` is read, without waiting for more text. -/
inductive Reaches (stop : β → Prop) (closed : Bool) : List α → Prop where
  | here {text : List α} {x : β} (sees : c.Sees closed text) (hread : (c.scan text).1 = some x)
      (hstop : stop x) : Reaches stop closed text
  | later {text : List α} (sees : c.Sees closed text)
      (hgo : ∀ x, (c.scan text).1 = some x → ¬ stop x)
      (rest : Reaches stop closed (c.scan text).2) : Reaches stop closed text

variable {c} {stop : β → Prop} {closed : Bool} {text : List α}

/-- The first item decides, or the text behind it. -/
theorem reaches_iff (sees : c.Sees closed text)
    (hgo : ∀ x, (c.scan text).1 = some x → ¬ stop x) :
    c.Reaches stop closed text ↔ c.Reaches stop closed (c.scan text).2 := by
  constructor
  · intro h
    cases h with
    | here _ hread hstop => exact absurd hstop (hgo _ hread)
    | later _ _ rest => exact rest
  · exact Reaches.later sees hgo

/-! ## Whole numbers -/

section Digits

variable {p : α → Bool} {xs : List α}

/-- Once something is left, text behind it does not matter. -/
theorem dropWhile_append_of_left (h : xs.dropWhile p ≠ []) (ys : List α) :
    (xs ++ ys).dropWhile p = xs.dropWhile p ++ ys := by
  rw [List.dropWhile_append, if_neg]
  rw [List.isEmpty_iff]
  exact h

theorem takeWhile_append_of_left (h : xs.dropWhile p ≠ []) (ys : List α) :
    (xs ++ ys).takeWhile p = xs.takeWhile p := by
  rw [List.takeWhile_append, if_neg]
  intro hall
  have hsplit := congrArg List.length (List.takeWhile_append_dropWhile (l := xs) (p := p))
  rw [List.length_append, hall] at hsplit
  exact h (List.length_eq_zero_iff.mp (by omega))

/-- Blanks are skipped, and digits are read to the first character that is none. -/
def digits (value : List Char → β) : Scanner Char β where
  scan text :=
    let item := text.dropWhile Char.isWhitespace
    let number := item.takeWhile Char.isDigit
    (if number = [] then none else some (value number), item.dropWhile Char.isDigit)
  append text more h := by
    have hitem : text.dropWhile Char.isWhitespace ≠ [] := by
      intro hnil
      apply h
      show (text.dropWhile Char.isWhitespace).dropWhile Char.isDigit = []
      rw [hnil]
      rfl
    simp only [dropWhile_append_of_left hitem, takeWhile_append_of_left h,
      dropWhile_append_of_left h]

end Digits

end Scanner
