import Mathlib.Data.List.Nodup
import Mathlib.Data.List.Perm.Subperm
import Mathlib.Data.Nat.Find

/-!
# The first free name

Names are numbered, and the first number is taken whose name is free. As long as different
numbers have different names, one of the next numbers is free, one more than there are
names that are taken.
-/

namespace CephGeoRep.Support

universe u
variable {α : Type u} [DecidableEq α] {taken : List α} {name : Nat → α}
  {tries start found : Nat}

/-- The first number from `start` on whose name is free; none within so many tries is no
result. -/
def firstFree (taken : List α) (name : Nat → α) : (tries start : Nat) → Option Nat
  | 0, _ => none
  | tries + 1, start =>
    if name start ∈ taken then firstFree taken name tries (start + 1) else some start

/-- What the search finds, and what it has passed. -/
theorem firstFree_eq_some_iff : firstFree taken name tries start = some found ↔
    start ≤ found ∧ found < start + tries ∧ name found ∉ taken ∧
      ∀ number, start ≤ number → number < found → name number ∈ taken := by
  induction tries generalizing start with
  | zero =>
      rw [firstFree]
      constructor
      · intro none
        cases none
      · rintro ⟨low, high, _⟩
        omega
  | succ tries ih =>
      rw [firstFree]
      split
      · next here =>
        rw [ih]
        constructor
        · rintro ⟨low, high, free, passed⟩
          refine ⟨by omega, by omega, free, fun number above below => ?_⟩
          rcases Nat.eq_or_lt_of_le above with rfl | later
          · exact here
          · exact passed number later below
        · rintro ⟨low, high, free, passed⟩
          have later : start ≠ found := fun same => free (same ▸ here)
          exact ⟨by omega, by omega, free, fun number above below =>
            passed number (by omega) below⟩
      · next free =>
        rw [Option.some.injEq]
        constructor
        · rintro rfl
          exact ⟨Nat.le_refl _, by omega, free, fun number above below => by omega⟩
        · rintro ⟨low, _, _, passed⟩
          by_contra differs
          exact free (passed start (Nat.le_refl _) (by omega))

/-- As many tries as there are names, and one more, are enough. -/
theorem exists_firstFree (injective : Function.Injective name) (taken : List α) (start : Nat) :
    ∃ found, firstFree taken name (taken.length + 1) start = some found := by
  have free : ∃ number, start ≤ number ∧ number < start + (taken.length + 1) ∧
      name number ∉ taken := by
    by_contra none
    push Not at none
    have names : ((List.range' start (taken.length + 1)).map name).Nodup :=
      List.Nodup.map injective List.nodup_range'
    have inside : (List.range' start (taken.length + 1)).map name ⊆ taken := by
      intro each member
      obtain ⟨number, listed, rfl⟩ := List.mem_map.mp member
      have bounds := List.mem_range'_1.mp listed
      exact none number bounds.1 bounds.2
    have fewer := (names.subperm inside).length_le
    rw [List.length_map, List.length_range'] at fewer
    omega
  obtain ⟨low, high, found⟩ := Nat.find_spec free
  refine ⟨Nat.find free, firstFree_eq_some_iff.mpr ⟨low, high, found, fun number above below => ?_⟩⟩
  by_contra absent
  exact Nat.find_min free below ⟨above, by omega, absent⟩

end CephGeoRep.Support
