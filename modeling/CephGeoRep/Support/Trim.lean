import Mathlib.Data.List.DropRight

/-!
# Trimming

A list without the blanks at its two ends, whatever counts as blank. `trim_append`
says how trimming goes together with cutting at a separator that is not blank.
-/

namespace CephGeoRep.Support

universe u
variable {α : Type u} {blank : α → Bool} {text front back : List α} {char : α}

/-- Without the blanks at either end. -/
def trim (blank : α → Bool) (text : List α) : List α :=
  (text.rdropWhile blank).dropWhile blank

@[simp]
theorem trim_nil : trim blank [] = [] := rfl

theorem mem_of_mem_trim (member : char ∈ trim blank text) : char ∈ text :=
  (List.rdropWhile_prefix blank text).subset ((List.dropWhile_suffix blank).subset member)

/-- Blanks behind a text that is not blank do not reach its front. -/
theorem rdropWhile_cons (text : List α) :
    (char :: text).rdropWhile blank =
      if (text.rdropWhile blank).isEmpty then if blank char then [] else [char]
      else char :: text.rdropWhile blank := by
  simp only [List.rdropWhile, List.reverse_cons, List.dropWhile_append, List.isEmpty_reverse]
  split
  · by_cases yes : blank char = true <;> simp [yes]
  · simp

theorem dropWhile_rdropWhile (text : List α) :
    (text.rdropWhile blank).dropWhile blank = (text.dropWhile blank).rdropWhile blank := by
  induction text with
  | nil => rfl
  | cons char text ih =>
      rw [rdropWhile_cons]
      by_cases yes : blank char = true
      · rw [List.dropWhile_cons_of_pos yes, ← ih]
        split
        · next none =>
          simp [List.isEmpty_iff.mp none]
        · simp [yes]
      · rw [List.dropWhile_cons_of_neg yes, rdropWhile_cons]
        split <;> simp [yes]

@[simp]
theorem trim_rdropWhile : trim blank (text.rdropWhile blank) = trim blank text := by
  simp only [trim, List.rdropWhile_idempotent]

@[simp]
theorem trim_dropWhile : trim blank (text.dropWhile blank) = trim blank text := by
  simp only [trim, dropWhile_rdropWhile, List.dropWhile_idempotent]

@[simp]
theorem trim_trim : trim blank (trim blank text) = trim blank text := by
  calc trim blank (trim blank text)
      = trim blank (text.rdropWhile blank) := trim_dropWhile
    _ = trim blank text := trim_rdropWhile

/-- Nothing is left of a text of blanks only. -/
theorem trim_eq_nil_iff : trim blank text = [] ↔ ∀ char ∈ text, blank char = true := by
  rw [trim, dropWhile_rdropWhile, List.rdropWhile_eq_nil_iff]
  constructor
  · intro rest char member
    rw [← List.takeWhile_append_dropWhile (p := blank) (l := text), List.mem_append] at member
    cases member with
    | inl before => exact List.mem_takeWhile_imp before
    | inr behind => exact rest char behind
  · intro all char member
    exact all char ((List.dropWhile_suffix blank).subset member)

/-- A trimmed text does not start with a blank. -/
theorem not_blank_of_trim_eq_cons {rest : List α} (equal : trim blank text = char :: rest) :
    blank char = false := by
  have first := List.head?_dropWhile_not blank (text.rdropWhile blank)
  rw [← trim, equal] at first
  simpa using first

/-- A separator that is not blank keeps what stands on its two sides apart. -/
theorem trim_append (solid : blank char = false) :
    trim blank (front ++ char :: back) =
      front.dropWhile blank ++ char :: back.rdropWhile blank := by
  have behind : (front ++ char :: back).rdropWhile blank =
      front ++ char :: back.rdropWhile blank := by
    induction front with
    | nil =>
        rw [List.nil_append, rdropWhile_cons]
        split
        · next none => simp [solid, List.isEmpty_iff.mp none]
        · rfl
    | cons first front ih =>
        rw [List.cons_append, rdropWhile_cons, ih]
        simp
  rw [trim, behind, List.dropWhile_append]
  split
  · next none =>
    rw [List.isEmpty_iff.mp none]
    simp [solid]
  · rfl

/-- Blanks at the two ends of a text make no difference. -/
theorem trim_padded (before : ∀ char ∈ front, blank char = true)
    (behind : ∀ char ∈ back, blank char = true) :
    trim blank (front ++ (text ++ back)) = trim blank text := by
  have unpadded : (front ++ (text ++ back)).rdropWhile blank =
      (front ++ text).rdropWhile blank := by
    rw [← List.append_assoc, List.rdropWhile, List.reverse_append,
      List.dropWhile_append_of_pos (by simpa using behind), ← List.rdropWhile]
  rw [trim, unpadded, dropWhile_rdropWhile, List.dropWhile_append_of_pos before, trim,
    dropWhile_rdropWhile]

/-- A trimmed text has no blanks behind. -/
theorem rdropWhile_of_trim (trimmed : trim blank text = text) : text.rdropWhile blank = text := by
  apply (List.rdropWhile_prefix blank text).eq_of_length_le
  calc text.length = (trim blank text).length := by rw [trimmed]
    _ ≤ (text.rdropWhile blank).length := (List.dropWhile_suffix blank).length_le

/-- A trimmed text has no blanks in front. -/
theorem dropWhile_of_trim (trimmed : trim blank text = text) : text.dropWhile blank = text := by
  have alone := trimmed
  rwa [trim, rdropWhile_of_trim trimmed] at alone

/-- A text that neither starts nor ends with a blank is trimmed. -/
theorem trim_of_ends (head : ∀ char ∈ text.head?, blank char = false)
    (last : ∀ char ∈ text.getLast?, blank char = false) : trim blank text = text := by
  have back : text.rdropWhile blank = text := by
    rw [List.rdropWhile_eq_self_iff]
    intro nonempty
    simp [last _ (List.getLast?_eq_some_getLast nonempty)]
  cases text with
  | nil => rfl
  | cons first rest => rw [trim, back, List.dropWhile_cons_of_neg (by simp [head first rfl])]

end CephGeoRep.Support
