import CephGeoRep.Support.CString

/-!
# Loops over pointers

A pointer into an array is what the array holds from there on. A read at or behind its end
has no result, and neither has a write: a result that does not depend on what is behind a
text is one that reads no more than the text.
-/

namespace CephGeoRep.Support

universe u
variable {α : Type u} {nul : α} {text front written : List α}

/-! ## Tests that stop early -/

/-- `&&` of two tests that read. -/
def both (first second : Option Bool) : Option Bool :=
  first.bind fun holds => if holds then second else some false

/-- `||` of two tests that read. -/
def either (first second : Option Bool) : Option Bool :=
  first.bind fun holds => if holds then some true else second

@[simp]
theorem both_some (holds : Bool) (second : Option Bool) :
    both (some holds) second = if holds then second else some false := rfl

@[simp]
theorem either_some (holds : Bool) (second : Option Bool) :
    either (some holds) second = if holds then some true else second := rfl

/-! ## Copying -/

/-- An allocated array that is written from its start on: what has been written, and how
many cells are left. -/
structure Buffer (α : Type u) where
  written : List α
  room : Nat
deriving DecidableEq

namespace Buffer

/-- `new char[size]`. -/
def alloc (size : Nat) : Buffer α := ⟨[], size⟩

/-- `*(dst_ptr++) = cell`. -/
def put (buffer : Buffer α) (cell : α) : Option (Buffer α) :=
  match buffer.room with
  | 0 => none
  | room + 1 => some ⟨buffer.written ++ [cell], room⟩

@[simp]
theorem put_succ (written : List α) (room : Nat) (cell : α) :
    put ⟨written, room + 1⟩ cell = some ⟨written ++ [cell], room⟩ := rfl

end Buffer

/-- A loop that copies a number of cells: where it leaves the source, and the buffer. -/
def copyCells : Nat → List α → Buffer α → Option (List α × Buffer α)
  | 0, source, buffer => some (source, buffer)
  | _ + 1, [], _ => none
  | count + 1, cell :: source, buffer => (buffer.put cell).bind (copyCells count source)

/-- The loop copies what is in front of the place where it stops. -/
theorem copyCells_append (front source written : List α) (room : Nat) :
    copyCells front.length (front ++ source) ⟨written, front.length + room⟩ =
      some (source, ⟨written ++ front, room⟩) := by
  induction front generalizing written with
  | nil => simp [copyCells]
  | cons cell front ih =>
      have more : (cell :: front).length + room = front.length + room + 1 := by
        rw [List.length_cons]
        omega
      rw [List.length_cons, List.cons_append, copyCells, ← List.length_cons (a := cell), more,
        Buffer.put_succ, Option.bind_some, ih, List.append_assoc, List.singleton_append]

variable [DecidableEq α]

/-- `strlen`. -/
def strlen (nul : α) : List α → Option Nat
  | [] => none
  | cell :: source => if cell = nul then some 0 else (strlen nul source).map (· + 1)

theorem strlen_append (ended : nul ∉ text) (behind : List α) :
    strlen nul (text ++ nul :: behind) = some text.length := by
  induction text with
  | nil => simp [strlen]
  | cons cell text ih =>
      obtain ⟨differs, later⟩ := List.ne_and_not_mem_of_not_mem_cons ended
      simp [strlen, differs.symm, ih later]

/-- A loop that copies up to the sentinel. -/
def copyString (nul : α) : List α → Buffer α → Option (Buffer α)
  | [], _ => none
  | cell :: source, buffer =>
    if cell = nul then some buffer else (buffer.put cell).bind (copyString nul source)

theorem copyString_append (ended : nul ∉ text) (behind written : List α) (room : Nat) :
    copyString nul (text ++ nul :: behind) ⟨written, text.length + room⟩ =
      some ⟨written ++ text, room⟩ := by
  induction text generalizing written with
  | nil => simp [copyString]
  | cons cell text ih =>
      obtain ⟨differs, later⟩ := List.ne_and_not_mem_of_not_mem_cons ended
      have more : (cell :: text).length + room = text.length + room + 1 := by
        rw [List.length_cons]
        omega
      rw [List.cons_append, copyString, if_neg differs.symm, more, Buffer.put_succ,
        Option.bind_some, ih later, List.append_assoc, List.singleton_append]

end CephGeoRep.Support
