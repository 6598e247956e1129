import CephGeoRep.Support.Stream

/-!
# Strings in memory

A text that ends at a sentinel, at an address of a flat memory. An array holds a
shorter text and is filled up with sentinels, so that what is read inside the array is a
piece of the text; behind the array anything may be read.
-/

namespace CephGeoRep.Support

universe u
variable {α : Type u} {nul stop : α} {text : List α} {size address : Nat}

/-- An array that holds a text, in front of what is behind it. -/
def arrayOf (nul : α) (size : Nat) (text behind : List α) : List α :=
  text ++ (List.replicate (size - text.length) nul ++ behind)

/-- A text that is shorter than the array has a sentinel behind it. -/
theorem arrayOf_eq (short : text.length < size) (behind : List α) :
    ∃ rest, arrayOf nul size text behind = text ++ nul :: rest := by
  obtain ⟨free, equal⟩ := Nat.exists_eq_add_one.mpr (Nat.sub_pos_of_lt short)
  refine ⟨List.replicate free nul ++ behind, ?_⟩
  rw [arrayOf, equal, List.replicate_succ, List.cons_append]

variable [DecidableEq α]

/-- What is read at an address, up to the sentinel. -/
def stringAt (nul : α) (memory : List α) (address : Nat) : List α :=
  (memory.drop address).takeWhile (· ≠ nul)

/-- The address at which a loop stops that looks for a character or the end. -/
def scan (stop nul : α) : List α → Nat
  | [] => 0
  | cell :: rest => if cell ≠ stop ∧ cell ≠ nul then scan stop nul rest + 1 else 0

/-- The loop stops in front of the character, or at the end of the text. -/
theorem scan_append (ended : nul ∉ text) (rest : List α) :
    scan stop nul (text ++ nul :: rest) = (text.takeWhile (· ≠ stop)).length := by
  induction text with
  | nil => simp [scan]
  | cons cell text ih =>
      obtain ⟨differs, later⟩ := List.ne_and_not_mem_of_not_mem_cons ended
      by_cases found : cell = stop
      · simp [scan, found]
      · simp [scan, found, differs.symm, ih later]

/-- A sentinel that is written there cuts the text. -/
theorem stringAt_set_scan (stop : α) (ended : nul ∉ text) (rest : List α) :
    stringAt nul ((text ++ nul :: rest).set (scan stop nul (text ++ nul :: rest)) nul) 0 =
      text.takeWhile (· ≠ stop) := by
  rw [stringAt, List.drop_zero]
  induction text with
  | nil => simp [scan]
  | cons cell text ih =>
      obtain ⟨differs, later⟩ := List.ne_and_not_mem_of_not_mem_cons ended
      by_cases found : cell = stop
      · simp [scan, found]
      · simpa [scan, found, differs.symm] using ih later

/-- Behind the cell that is written the memory is as before. -/
theorem stringAt_set {written : Nat} (before : written < address) (memory : List α)
    (value : α) : stringAt nul (memory.set written value) address =
      stringAt nul memory address := by
  rw [stringAt, List.drop_set_of_lt before, stringAt]

/-- Inside the array the rest of the text is read. -/
theorem stringAt_arrayOf (ended : nul ∉ text) (short : text.length < size)
    (inside : address < size) (behind : List α) :
    stringAt nul (arrayOf nul size text behind) address = text.drop address := by
  have absent : nul ∉ text.drop address := fun member => ended (List.mem_of_mem_drop member)
  have room : 0 < size - text.length - (address - text.length) := by omega
  obtain ⟨free, equal⟩ := Nat.exists_eq_add_one.mpr room
  rw [stringAt, arrayOf, List.drop_append, List.drop_append, List.drop_replicate, equal,
    List.replicate_succ, List.cons_append, takeWhile_ne_append absent]

/-- Behind the array nothing of the text is read. -/
theorem stringAt_behind (short : text.length ≤ size) (outside : size ≤ address)
    (behind : List α) : stringAt nul (arrayOf nul size text behind) address =
      stringAt nul behind (address - size) := by
  have whole : (text ++ List.replicate (size - text.length) nul).length = size := by
    rw [List.length_append, List.length_replicate]
    omega
  rw [stringAt, arrayOf, ← List.append_assoc, List.drop_append, whole,
    List.drop_eq_nil_of_le (whole.trans_le outside), List.nil_append, stringAt]

end CephGeoRep.Support
