import Mathlib.Data.List.Basic

/-!
# Words and separators

Words with nonempty gaps between them, and the pieces of their text when it is cut at
every separator. The pieces that are not empty are the words, and all pieces are words
just if every gap is a single separator.
-/

namespace CephGeoRep.Support

universe u
variable {α : Type u} {separator : α → Bool}

/-- A nonempty text without separators. -/
def IsWord (separator : α → Bool) (text : List α) : Prop :=
  text ≠ [] ∧ ∀ char ∈ text, separator char = false

/-- A nonempty text of separators. -/
def IsGap (separator : α → Bool) (text : List α) : Prop :=
  text ≠ [] ∧ ∀ char ∈ text, separator char = true

instance [DecidableEq α] (text : List α) : Decidable (IsWord separator text) :=
  have : Decidable (∀ char ∈ text, separator char = false) := List.decidableBAll _ _
  inferInstanceAs (Decidable (text ≠ [] ∧ ∀ char ∈ text, separator char = false))

instance [DecidableEq α] (text : List α) : Decidable (IsGap separator text) :=
  have : Decidable (∀ char ∈ text, separator char = true) := List.decidableBAll _ _
  inferInstanceAs (Decidable (text ≠ [] ∧ ∀ char ∈ text, separator char = true))

abbrev Word (separator : α → Bool) := { text : List α // IsWord separator text }

abbrev Gap (separator : α → Bool) := { text : List α // IsGap separator text }

/-- Words in a row. -/
inductive Row (separator : α → Bool) where
  | empty
  | words (first : Word separator) (rest : List (Gap separator × Word separator))

namespace Row

/-- What is written. -/
def text : Row separator → List α
  | .empty => []
  | .words first rest => first.1 ++ rest.flatMap fun next => next.1.1 ++ next.2.1

/-- What is meant. -/
def names : Row separator → List (List α)
  | .empty => []
  | .words first rest => first.1 :: rest.map fun next => next.2.1

/-- Every gap is one separator. -/
def Single : Row separator → Prop
  | .empty => True
  | .words _ rest => ∀ next ∈ rest, next.1.1.length = 1

instance : (row : Row separator) → Decidable row.Single
  | .empty => inferInstanceAs (Decidable True)
  | .words _ rest =>
    have : Decidable (∀ next ∈ rest, next.1.1.length = 1) := List.decidableBAll _ _
    inferInstanceAs (Decidable (∀ next ∈ rest, next.1.1.length = 1))

end Row

/-- Every character of the text stands in a name or is a separator. -/
theorem Row.mem_text {row : Row separator} {char : α} (member : char ∈ row.text) :
    (∃ name ∈ row.names, char ∈ name) ∨ separator char = true := by
  cases row with
  | empty => cases member
  | words first rest =>
      rcases List.mem_append.mp member with here | later
      · exact .inl ⟨first.1, List.mem_cons_self, here⟩
      · obtain ⟨next, listed, inside⟩ := List.mem_flatMap.mp later
        rcases List.mem_append.mp inside with gap | word
        · exact .inr (next.1.2.2 char gap)
        · exact .inl ⟨next.2.1, List.mem_cons_of_mem _ (List.mem_map_of_mem listed), word⟩

/-- The text starts and ends with a name. -/
theorem Row.head_text {row : Row separator} {char : α} (head : row.text.head? = some char) :
    separator char = false := by
  cases row with
  | empty => cases head
  | words first rest =>
      rw [Row.text, List.head?_append_of_ne_nil _ first.2.1] at head
      exact first.2.2 char (List.mem_of_head? head)

theorem Row.last_text {row : Row separator} {char : α} (last : row.text.getLast? = some char) :
    separator char = false := by
  cases row with
  | empty => cases last
  | words first rest =>
      rcases rest.eq_nil_or_concat with rfl | ⟨rest, next, rfl⟩
      · rw [Row.text, List.flatMap_nil, List.append_nil] at last
        exact first.2.2 char (List.mem_of_getLast? last)
      · rw [Row.text, List.concat_eq_append, List.flatMap_append, List.flatMap_singleton,
          ← List.append_assoc, ← List.append_assoc,
          List.getLast?_append_of_ne_nil _ next.2.2.1] at last
        exact next.2.2.2 char (List.mem_of_getLast? last)

/-- The pieces of a text that are not empty. -/
def solidPieces (separator : α → Bool) (text : List α) : List (List α) :=
  (text.splitOnP separator).filter fun piece => !piece.isEmpty

@[simp]
theorem solidPieces_nil : solidPieces separator [] = [] := by
  simp [solidPieces]

theorem solidPieces_of_word (word : Word separator) :
    solidPieces separator word.1 = [word.1] := by
  rw [solidPieces, List.splitOnP_eq_singleton word.2.2]
  simp [word.2.1]

/-- What stands on the two sides of a separator is cut on its own. -/
theorem solidPieces_append_cons {char : α} (sep : separator char = true) (front back : List α) :
    solidPieces separator (front ++ char :: back) =
      solidPieces separator front ++ solidPieces separator back := by
  rw [solidPieces, List.splitOnP_append_cons front back sep, List.filter_append]
  rfl

/-- So is what stands on the two sides of a gap. -/
theorem solidPieces_append_gap (gap : Gap separator) (front back : List α) :
    solidPieces separator (front ++ (gap.1 ++ back)) =
      solidPieces separator front ++ solidPieces separator back := by
  obtain ⟨text, nonempty, all⟩ := gap
  induction text generalizing front with
  | nil => exact absurd rfl nonempty
  | cons char text ih =>
      rw [List.cons_append, solidPieces_append_cons (all char List.mem_cons_self)]
      by_cases last : text = []
      · rw [last, List.nil_append]
      · have later := ih [] last fun other member => all other (List.mem_cons_of_mem _ member)
        rw [solidPieces_nil, List.nil_append, List.nil_append] at later
        rw [later]

/-- The words are what is left. -/
theorem solidPieces_text (row : Row separator) : solidPieces separator row.text = row.names := by
  cases row with
  | empty => exact solidPieces_nil
  | words first rest =>
      induction rest generalizing first with
      | nil => simp [Row.text, Row.names, solidPieces_of_word]
      | cons next rest ih =>
          have later := ih next.2
          rw [Row.text, Row.names] at later ⊢
          rw [List.flatMap_cons, List.append_assoc, solidPieces_append_gap, later,
            solidPieces_of_word]
          rfl

/-- Every character of a joined text stands in one of the texts or is the separator. -/
theorem mem_intercalate {char joint : α} {texts : List (List α)}
    (member : char ∈ List.intercalate [joint] texts) :
    char = joint ∨ ∃ text ∈ texts, char ∈ text := by
  induction texts with
  | nil => cases member
  | cons text texts ih =>
      cases texts with
      | nil =>
          rw [List.intercalate_singleton] at member
          exact .inr ⟨text, List.mem_cons_self, member⟩
      | cons next texts =>
          rw [List.intercalate_cons_cons, List.append_assoc, List.mem_append, List.mem_append,
            List.mem_singleton] at member
          obtain here | same | later := member
          · exact .inr ⟨text, List.mem_cons_self, here⟩
          · exact .inl same
          · exact (ih later).imp_right fun ⟨text', listed, inside⟩ =>
              ⟨text', List.mem_cons_of_mem _ listed, inside⟩

/-- Rows that are joined by separators. -/
theorem solidPieces_intercalate {char : α} (sep : separator char = true)
    (texts : List (List α)) :
    solidPieces separator (List.intercalate [char] texts) =
      texts.flatMap (solidPieces separator) := by
  induction texts with
  | nil => simp
  | cons text texts ih =>
      cases texts with
      | nil => simp
      | cons next texts =>
          rw [List.intercalate_cons_cons, List.append_assoc, List.singleton_append,
            solidPieces_append_cons sep, ih]
          rfl

/-! ## All pieces -/

/-- In a gap of several separators there are empty pieces. -/
theorem splitOnP_append_gap {front : List α} (solid : ∀ char ∈ front, separator char = false)
    (gap : Gap separator) (back : List α) :
    (front ++ (gap.1 ++ back)).splitOnP separator =
      front :: (List.replicate (gap.1.length - 1) [] ++ back.splitOnP separator) := by
  obtain ⟨text, nonempty, all⟩ := gap
  induction text generalizing front with
  | nil => exact absurd rfl nonempty
  | cons char text ih =>
      rw [List.cons_append,
        List.splitOnP_append_cons_of_forall_mem solid _ (all char List.mem_cons_self)]
      by_cases last : text = []
      · simp [last]
      · have later := @ih [] (fun _ member => nomatch member) last
          fun other member => all other (List.mem_cons_of_mem _ member)
        obtain ⟨length, equal⟩ := Nat.exists_eq_add_one.mpr (List.length_pos_iff.mpr last)
        rw [List.nil_append, equal, Nat.add_sub_cancel] at later
        rw [later, List.length_cons, equal, Nat.add_sub_cancel, List.replicate_succ,
          List.cons_append]

/-- The pieces are the words if no gap is longer than it must be. -/
theorem splitOnP_text_iff (first : Word separator) (rest : List (Gap separator × Word separator)) :
    (Row.words first rest).text.splitOnP separator = (Row.words first rest).names ↔
      (Row.words first rest).Single := by
  induction rest generalizing first with
  | nil => simp [Row.text, Row.names, Row.Single, List.splitOnP_eq_singleton first.2.2]
  | cons next rest ih =>
      have later := ih next.2
      simp only [Row.text, Row.names, Row.Single, List.flatMap_cons, List.append_assoc,
        List.map_cons, List.forall_mem_cons, splitOnP_append_gap first.2.2,
        List.cons.injEq, true_and] at later ⊢
      by_cases single : next.1.1.length = 1
      · rw [single, ← later]
        simp
      · apply iff_of_false _ fun both => single both.1
        intro same
        have several : 0 < next.1.1.length - 1 := by
          have nonempty := List.length_pos_iff.mpr next.1.2.1
          omega
        obtain ⟨more, equal⟩ := Nat.exists_eq_add_one.mpr several
        rw [equal, List.replicate_succ, List.cons_append] at same
        exact next.2.2.1 (List.cons.inj same).1.symm

end CephGeoRep.Support
