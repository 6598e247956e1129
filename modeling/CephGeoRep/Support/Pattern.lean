import Mathlib.Computability.Language

/-!
# Patterns as languages

The pieces of a regular expression, each as the set of texts that match it. An expression
that is not anchored at the end matches whatever starts with a match.
-/

namespace CephGeoRep.Support

open Computability

universe u
variable {α : Type u} {pattern : Language α} {text front : List α}

/-- Characters that stand for themselves. -/
def literal (text : List α) : Language α := {text}

/-- `.`, for the newline as for every other character. -/
def anyChar : Language α := {text | text.length = 1}

/-- `pattern?` -/
def maybe (pattern : Language α) : Language α := 1 + pattern

/-- `^pattern` -/
def initially (pattern : Language α) : Language α := pattern * ⊤

@[simp]
theorem mem_literal : text ∈ literal front ↔ text = front := Iff.rfl

theorem mem_literal_mul :
    text ∈ literal front * pattern ↔ ∃ rest ∈ pattern, front ++ rest = text := by
  rw [Language.mem_mul]
  constructor
  · rintro ⟨_, rfl, rest, member, whole⟩
    exact ⟨rest, member, whole⟩
  · rintro ⟨rest, member, whole⟩
    exact ⟨front, rfl, rest, member, whole⟩

theorem mem_mul_literal :
    text ∈ pattern * literal front ↔ ∃ rest ∈ pattern, rest ++ front = text := by
  rw [Language.mem_mul]
  constructor
  · rintro ⟨rest, member, _, rfl, whole⟩
    exact ⟨rest, member, whole⟩
  · rintro ⟨rest, member, whole⟩
    exact ⟨rest, member, front, rfl, whole⟩

theorem mem_mul_maybe_literal : text ∈ pattern * maybe (literal front) ↔
    text ∈ pattern ∨ ∃ rest ∈ pattern, rest ++ front = text := by
  rw [maybe, mul_add, mul_one, Language.mem_add, mem_mul_literal]

/-- `^literal` is a prefix. -/
theorem mem_initially_literal : text ∈ initially (literal front) ↔ front <+: text := by
  rw [initially, mem_literal_mul]
  constructor
  · rintro ⟨rest, _, rfl⟩
    exact List.prefix_append _ _
  · rintro ⟨rest, rfl⟩
    exact ⟨rest, trivial, rfl⟩

/-- `.*` matches every text. -/
theorem kstar_anyChar : (anyChar∗ : Language α) = ⊤ := by
  ext text
  refine iff_of_true ?_ trivial
  rw [Language.mem_kstar]
  refine ⟨text.map fun char => [char], ?_, ?_⟩
  · induction text with
    | nil => rfl
    | cons char text ih =>
        rw [List.map_cons, List.flatten_cons, ← ih]
        rfl
  · intro piece member
    obtain ⟨char, _, rfl⟩ := List.mem_map.mp member
    rfl

end CephGeoRep.Support
