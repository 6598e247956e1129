import Mathlib

/-!
# Timestamps

`operator>` of the source compares seconds first and nanoseconds second. It is
the strict part of the lexicographic order, which every statement about
watermarks uses.
-/

namespace CephGeoRep

/-- `struct timespec`; both fields are signed machine words. -/
structure Timespec where
  tvSec : Int
  tvNsec : Int
deriving DecidableEq

namespace Timespec

/-- `timespec{0}`. -/
def zero : Timespec := ⟨0, 0⟩

/-- `operator>(const timespec &lhs, const timespec &rhs)`. -/
def gt (lhs rhs : Timespec) : Bool :=
  decide (lhs.tvSec > rhs.tvSec) ||
    (decide (lhs.tvSec = rhs.tvSec) && decide (lhs.tvNsec > rhs.tvNsec))

/-- A timestamp as a point of the lexicographic plane. -/
def lexKey (time : Timespec) : Int ×ₗ Int := toLex (time.tvSec, time.tvNsec)

theorem lexKey_injective : Function.Injective lexKey := by
  rintro ⟨leftSec, leftNsec⟩ ⟨rightSec, rightNsec⟩ equal
  simpa [lexKey] using equal

instance : LinearOrder Timespec := LinearOrder.lift' lexKey lexKey_injective

/-- Two timestamps are ordered by their seconds, and by their nanoseconds within
one second. -/
theorem lt_iff {left right : Timespec} :
    left < right ↔
      left.tvSec < right.tvSec ∨ left.tvSec = right.tvSec ∧ left.tvNsec < right.tvNsec :=
  Prod.Lex.toLex_lt_toLex

/-- The comparison of the source is the strict order. -/
@[simp]
theorem gt_iff {lhs rhs : Timespec} : lhs.gt rhs = true ↔ rhs < lhs := by
  simp only [gt, Bool.or_eq_true, Bool.and_eq_true, decide_eq_true_eq, lt_iff, gt_iff_lt]
  constructor
  · rintro (later | ⟨same, later⟩)
    · exact .inl later
    · exact .inr ⟨same.symm, later⟩
  · rintro (later | ⟨same, later⟩)
    · exact .inl later
    · exact .inr ⟨same.symm, later⟩

@[simp]
theorem gt_eq_false_iff {lhs rhs : Timespec} : lhs.gt rhs = false ↔ lhs ≤ rhs := by
  rw [← Bool.not_eq_true, gt_iff, not_lt]

end Timespec

end CephGeoRep
