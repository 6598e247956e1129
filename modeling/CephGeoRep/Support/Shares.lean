import Mathlib.Algebra.BigOperators.Group.List.Basic

/-!
# Shares of a total

What the members of a list hold together, as a sum in a commutative monoid. When one
member changes, only its share does, so a conserved total needs one equation for
each kind of change.
-/

namespace CephGeoRep.Support

universe u v
variable {Member : Type u} {Total : Type v} [AddCommMonoid Total]

/-- What all members hold. -/
def shares (share : Member → Total) (members : List Member) : Total :=
  (members.map share).sum

variable {share : Member → Total} {members : List Member} {index : Nat} {member : Member}

@[simp]
theorem shares_nil : shares share [] = 0 := rfl

@[simp]
theorem shares_cons : shares share (member :: members) = share member + shares share members := by
  simp [shares]

@[simp]
theorem shares_append (others : List Member) :
    shares share (members ++ others) = shares share members + shares share others := by
  simp [shares]

/-- The share of one member, and what the others hold whatever becomes of it. -/
theorem shares_set (share : Member → Total) (found : members[index]? = some member) :
    ∃ others : Total, shares share members = share member + others ∧
      ∀ next, shares share (members.set index next) = share next + others := by
  induction members generalizing index with
  | nil => cases found
  | cons first rest ih =>
      cases index with
      | zero =>
          obtain rfl : first = member := by simpa using found
          exact ⟨shares share rest, shares_cons, fun next => shares_cons⟩
      | succ index =>
          obtain ⟨others, before, after⟩ := ih (by simpa using found)
          refine ⟨share first + others, ?_, fun next => ?_⟩
          · rw [shares_cons, before, add_left_comm]
          · rw [List.set_cons_succ, shares_cons, after, add_left_comm]

/-- A change that no share depends on. -/
theorem shares_map {change : Member → Member}
    (same : ∀ member, share (change member) = share member) :
    shares share (members.map change) = shares share members := by
  simp [shares, Function.comp_def, same]

/-- Without any share there is nothing. -/
theorem shares_eq_zero (none : ∀ member ∈ members, share member = 0) :
    shares share members = 0 := by
  induction members with
  | nil => rfl
  | cons first rest ih =>
      rw [shares_cons, none first List.mem_cons_self,
        ih fun member listed => none member (List.mem_cons_of_mem _ listed), add_zero]

/-- Shares of one or nothing count members. -/
theorem shares_eq_countP {counted : Member → Bool} {share : Member → ℤ}
    (one : ∀ member ∈ members, share member = if counted member then 1 else 0) :
    shares share members = members.countP counted := by
  induction members with
  | nil => rfl
  | cons first rest ih =>
      rw [shares_cons, one first List.mem_cons_self, List.countP_cons,
        ih fun member listed => one member (List.mem_cons_of_mem _ listed), add_comm]
      cases counted first <;> simp

end CephGeoRep.Support
