import Mathlib.Data.List.Range

/-!
# Strides

`stride start step count` lists the positions `start`, `start + step`, … that an
iterator advanced `count` times visits. Strides with one step from different
residues partition an interval.
-/

namespace CephGeoRep.Support

/-- The positions an iterator visits. -/
def stride (start step : Nat) : Nat → List Nat
  | 0 => []
  | count + 1 => start :: stride (start + step) step count

variable {start step count position : Nat}

@[simp] theorem stride_zero : stride start step 0 = [] := rfl

theorem stride_succ :
    stride start step (count + 1) = start :: stride (start + step) step count := rfl

/-- The positions of a stride, by index. -/
theorem mem_stride :
    position ∈ stride start step count ↔ ∃ index < count, position = start + index * step := by
  induction count generalizing start with
  | zero => simp
  | succ count ih =>
      rw [stride_succ, List.mem_cons, ih]
      constructor
      · rintro (rfl | ⟨index, below, rfl⟩)
        · exact ⟨0, by omega, by simp⟩
        · exact ⟨index + 1, by omega, by rw [Nat.succ_mul]; omega⟩
      · rintro ⟨index, below, rfl⟩
        cases index with
        | zero => exact .inl (by simp)
        | succ index => exact .inr ⟨index, by omega, by rw [Nat.succ_mul]; omega⟩

/-- A stride stays in the residue class of its start. -/
theorem mod_of_mem_stride (visited : position ∈ stride start step count) :
    position % step = start % step := by
  obtain ⟨index, _, rfl⟩ := mem_stride.mp visited
  simp

/-- A stride starts at its start. -/
theorem le_of_mem_stride (visited : position ∈ stride start step count) : start ≤ position := by
  obtain ⟨index, _, rfl⟩ := mem_stride.mp visited
  omega

/-- A stride ends before the position its iterator is left at. -/
theorem lt_of_mem_stride (pos : 0 < step) (visited : position ∈ stride start step count) :
    position < start + count * step := by
  obtain ⟨index, below, rfl⟩ := mem_stride.mp visited
  have := Nat.mul_lt_mul_of_pos_right below pos
  omega

/-- A stride visits every position of its residue class between its ends. -/
theorem mem_stride_of_mod (lower : start ≤ position) (upper : position < start + count * step)
    (residue : position % step = start % step) : position ∈ stride start step count := by
  obtain ⟨distance, rfl⟩ := Nat.exists_eq_add_of_le lower
  have divides : step ∣ distance := by
    have zero : (start + distance - start) % step = 0 :=
      Nat.sub_mod_eq_zero_of_mod_eq residue
    rw [Nat.add_sub_cancel_left] at zero
    exact Nat.dvd_of_mod_eq_zero zero
  obtain ⟨index, rfl⟩ := divides
  refine mem_stride.mpr ⟨index, ?_, by rw [Nat.mul_comm]⟩
  have short : index * step < count * step := by
    rw [Nat.mul_comm index]
    omega
  exact Nat.lt_of_mul_lt_mul_right short

/-- No position is visited twice. -/
theorem stride_nodup (pos : 0 < step) : (stride start step count).Nodup := by
  induction count generalizing start with
  | zero => simp
  | succ count ih =>
      rw [stride_succ, List.nodup_cons]
      refine ⟨fun visited => ?_, ih⟩
      have := le_of_mem_stride visited
      omega

end CephGeoRep.Support
