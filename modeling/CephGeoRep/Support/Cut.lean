import Mathlib.Data.List.Infix

/-!
# Cutting at a pattern

A text is cut at the first place where a pattern occurs. A pattern that has been put in is
found again just if none of its occurrences starts in front of it.
-/

namespace CephGeoRep.Support

universe u
variable {α : Type u} [DecidableEq α] {pattern text front back : List α}

/-- What is in front of the first occurrence of a pattern, and what is behind it. -/
def cutAt (pattern : List α) : List α → Option (List α × List α)
  | [] => if pattern = [] then some ([], []) else none
  | char :: rest =>
    if pattern <+: char :: rest then some ([], (char :: rest).drop pattern.length)
    else (cutAt pattern rest).map fun parts => (char :: parts.1, parts.2)

/-- There is a cut if the pattern occurs. -/
theorem cutAt_eq_none_iff : cutAt pattern text = none ↔ ¬ pattern <:+: text := by
  induction text with
  | nil => simp [cutAt]
  | cons char rest ih =>
      rw [cutAt, List.infix_cons_iff, not_or]
      split
      · next found => simp [found]
      · next absent => simp [absent, ih]

/-- A pattern that was put in is where the text is cut, unless it occurs before: then it
starts in front, and is complete in front of the last character that was put in. -/
theorem cutAt_append_iff (nonempty : pattern ≠ []) (front back : List α) :
    (cutAt pattern (front ++ (pattern ++ back))).map Prod.snd = some back ↔
      ¬ pattern <:+: front ++ pattern.dropLast := by
  have shorter : pattern.dropLast.length + 1 = pattern.length := by
    rw [List.length_dropLast]
    exact Nat.sub_add_cancel (List.length_pos_iff.mpr nonempty)
  have whole (front : List α) :
      front ++ pattern.dropLast <+: front ++ (pattern ++ back) := by
    rw [List.prefix_append_right_inj]
    exact (List.dropLast_prefix pattern).trans (List.prefix_append _ _)
  induction front with
  | nil =>
      apply iff_of_true
      · obtain ⟨char, rest, rfl⟩ := List.exists_cons_of_ne_nil nonempty
        rw [List.nil_append, List.cons_append, cutAt, ← List.cons_append,
          if_pos (List.prefix_append _ _), List.drop_left]
        rfl
      · intro inside
        have length := inside.length_le
        rw [List.nil_append] at length
        omega
  | cons char front ih =>
      rw [List.cons_append, cutAt, ← List.cons_append]
      split
      · next found =>
        apply iff_of_false
        · intro same
          have length := congrArg List.length (Option.some.inj same)
          simp only [List.length_drop, List.length_append, List.length_cons] at length
          omega
        · rw [not_not]
          apply List.IsPrefix.isInfix
          apply List.prefix_of_prefix_length_le found (whole (char :: front))
          rw [List.length_append, List.length_cons]
          omega
      · next absent =>
        rw [Option.map_map, List.cons_append, List.infix_cons_iff, not_or]
        have before : ¬ pattern <+: char :: (front ++ pattern.dropLast) := by
          intro found
          exact absent (found.trans (whole (char :: front)))
        rw [and_iff_right before]
        exact ih

end CephGeoRep.Support
