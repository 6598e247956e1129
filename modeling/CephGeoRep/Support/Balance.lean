import CephGeoRep.Support.Stride
import Mathlib.Algebra.Order.BigOperators.Group.Finset

/-!
# Balanced strides

Workers that share an interval by residue classes get the same number of positions, up
to one. If the weights of the positions grow along the interval, the visits of one
worker are interleaved with those of another, and what each of them carries differs by
no more than one position of the heaviest weight.
-/

namespace CephGeoRep.Support

/-- How many positions below `total` a worker visits that starts at `start`. -/
def visits (total step start : Nat) : Nat := (total - start + (step - 1)) / step

variable {total step start index first second : Nat}

theorem lt_visits (pos : 0 < step) :
    index < visits total step start ↔ start + index * step < total := by
  rw [visits, ← Nat.succ_le_iff, Nat.le_div_iff_mul_le pos, Nat.succ_mul]
  omega

/-- The one who starts later visits no more. -/
theorem visits_anti (pos : 0 < step) (order : first ≤ second) :
    visits total step second ≤ visits total step first := by
  by_contra more
  have inside := (lt_visits pos).mp (not_le.mp more)
  have outside : total ≤ first + visits total step first * step :=
    not_lt.mp fun below => absurd ((lt_visits pos).mpr below) (lt_irrefl _)
  omega

/-- Starting within the first stripe makes a difference of one visit at most. -/
theorem visits_le_succ (pos : 0 < step) (below : second < step) :
    visits total step first ≤ visits total step second + 1 := by
  by_contra more
  have inside := (lt_visits pos).mp (not_le.mp more)
  have outside : total ≤ second + visits total step second * step :=
    not_lt.mp fun below => absurd ((lt_visits pos).mpr below) (lt_irrefl _)
  rw [Nat.succ_mul] at inside
  omega

/-- The positions a worker visits are those of its residue class. -/
theorem mem_stride_visits (pos : 0 < step) (below : start < step) {position : Nat} :
    position ∈ stride start step (visits total step start) ↔
      position < total ∧ position % step = start := by
  rw [mem_stride]
  constructor
  · rintro ⟨index, visited, rfl⟩
    refine ⟨(lt_visits pos).mp visited, ?_⟩
    rw [Nat.add_mul_mod_self_right, Nat.mod_eq_of_lt below]
  · rintro ⟨inside, residue⟩
    have split : start + position / step * step = position := by
      rw [← residue, Nat.mul_comm]
      exact Nat.mod_add_div position step
    refine ⟨position / step, (lt_visits pos).mpr ?_, split.symm⟩
    rwa [split]

@[simp]
theorem length_stride (start step count : Nat) : (stride start step count).length = count := by
  induction count generalizing start with
  | zero => rfl
  | succ count ih => rw [stride_succ, List.length_cons, ih]

section Weights

variable {Weight : Type} [AddCommMonoid Weight]

/-- What a worker carries on its first `count` visits. -/
theorem sum_stride (weight : Nat → Weight) (start step count : Nat) :
    ((stride start step count).map weight).sum =
      ∑ index ∈ Finset.range count, weight (start + index * step) := by
  induction count generalizing start with
  | zero => rfl
  | succ count ih =>
      rw [stride_succ, List.map_cons, List.sum_cons, ih, Finset.sum_range_succ', add_comm]
      congr 1
      · apply Finset.sum_congr rfl
        intro index _
        rw [Nat.succ_mul, Nat.add_assoc, Nat.add_comm step]
      · rw [Nat.zero_mul, Nat.add_zero]

variable [PartialOrder Weight] [IsOrderedAddMonoid Weight] [CanonicallyOrderedAdd Weight]
  {weight : Nat → Weight} {heaviest : Weight}

/-- The visits of the worker that starts later are behind those of the other one. -/
theorem sum_le_of_le (pos : 0 < step) (below : second < step) (order : first ≤ second)
    (grows : ∀ left right, left ≤ right → right < total → weight left ≤ weight right)
    (bounded : ∀ position < total, weight position ≤ heaviest) :
    ∑ index ∈ Finset.range (visits total step first), weight (first + index * step) ≤
      ∑ index ∈ Finset.range (visits total step second), weight (second + index * step) +
        heaviest := by
  have behind : ∑ index ∈ Finset.range (visits total step second), weight (first + index * step) ≤
      ∑ index ∈ Finset.range (visits total step second), weight (second + index * step) := by
    apply Finset.sum_le_sum
    intro index visited
    have inside := (lt_visits pos).mp (Finset.mem_range.mp visited)
    exact grows _ _ (Nat.add_le_add_right order _) inside
  have few : visits total step first ≤ visits total step second + 1 := visits_le_succ pos below
  rcases Nat.lt_or_ge (visits total step second) (visits total step first) with more | same
  · have last : visits total step first = visits total step second + 1 := by omega
    have inside := (lt_visits pos).mp more
    rw [last, Finset.sum_range_succ]
    exact add_le_add behind (bounded _ inside)
  · rw [Nat.le_antisymm same (visits_anti pos order)]
    exact behind.trans le_self_add

/-- The visits of the worker that starts earlier are behind those of the other one by a
whole stripe. -/
theorem sum_le_of_lt (pos : 0 < step) (below : first < step) (order : second < first)
    (grows : ∀ left right, left ≤ right → right < total → weight left ≤ weight right)
    (bounded : ∀ position < total, weight position ≤ heaviest) :
    ∑ index ∈ Finset.range (visits total step first), weight (first + index * step) ≤
      ∑ index ∈ Finset.range (visits total step second), weight (second + index * step) +
        heaviest := by
  have many : visits total step first ≤ visits total step second := visits_anti pos order.le
  cases count : visits total step first with
  | zero => simp
  | succ count' =>
      rw [count] at many
      have shifted : ∑ index ∈ Finset.range count', weight (first + index * step) ≤
          ∑ index ∈ Finset.range count', weight (second + (index + 1) * step) := by
        apply Finset.sum_le_sum
        intro index visited
        have early : index + 1 < visits total step second := by
          have := Finset.mem_range.mp visited
          omega
        refine grows _ _ ?_ ((lt_visits pos).mp early)
        rw [Nat.succ_mul]
        omega
      have fewer : ∑ index ∈ Finset.range count', weight (second + (index + 1) * step) ≤
          ∑ index ∈ Finset.range (visits total step second), weight (second + index * step) := by
        refine le_trans ?_ (Finset.sum_le_sum_of_subset (Finset.range_mono many))
        rw [Finset.sum_range_succ']
        exact le_self_add
      have last : first + count' * step < total := (lt_visits pos).mp (by omega)
      rw [Finset.sum_range_succ]
      exact add_le_add (shifted.trans fewer) (bounded _ last)

/-- What one worker carries exceeds what another one does by at most one position. -/
theorem sum_stride_le (inFirst : first < step) (inSecond : second < step)
    (grows : ∀ left right, left ≤ right → right < total → weight left ≤ weight right)
    (bounded : ∀ position < total, weight position ≤ heaviest) :
    ((stride first step (visits total step first)).map weight).sum ≤
      ((stride second step (visits total step second)).map weight).sum + heaviest := by
  have pos := Nat.zero_lt_of_lt inFirst
  rw [sum_stride, sum_stride]
  rcases Nat.lt_or_ge second first with order | order
  · exact sum_le_of_lt pos inFirst order grows bounded
  · exact sum_le_of_le pos inSecond order grows bounded

end Weights

end CephGeoRep.Support
