import Mathlib.Data.List.TakeWhile

/-!
# Input streams

A text that is read in pieces, with the two bits of a C++ stream that say how the
last read ended. `getline` leaves its target alone when the stream is not good,
which is why the text read before is an argument.
-/

namespace CephGeoRep.Support

universe u
variable {α : Type u} {delim : α}

/-! ## Texts as terminated pieces -/

/-- A text without the delimiter. -/
abbrev Piece (delim : α) := { text : List α // delim ∉ text }

/-- Every piece with the delimiter behind it. -/
def terminated (pieces : List (Piece delim)) : List α :=
  pieces.flatMap fun piece => piece.1 ++ [delim]

@[simp]
theorem terminated_nil : terminated ([] : List (Piece delim)) = [] := rfl

@[simp]
theorem terminated_cons (piece : Piece delim) (pieces : List (Piece delim)) :
    terminated (piece :: pieces) = piece.1 ++ delim :: terminated pieces := by
  simp [terminated]

@[simp]
theorem terminated_append (front back : List (Piece delim)) :
    terminated (front ++ back) = terminated front ++ terminated back :=
  List.flatMap_append

variable [DecidableEq α]

/-- The terminated pieces of a text, and what is behind the last delimiter. -/
def pieces (delim : α) : List α → List (Piece delim) × Piece delim
  | [] => ([], ⟨[], List.not_mem_nil⟩)
  | char :: rest =>
    if same : delim = char then
      (⟨[], List.not_mem_nil⟩ :: (pieces delim rest).1, (pieces delim rest).2)
    else
      match pieces delim rest with
      | ([], last) => ([], ⟨char :: last.1, by simp [same, last.2]⟩)
      | (first :: more, last) => (⟨char :: first.1, by simp [same, first.2]⟩ :: more, last)

/-- Cutting a text loses nothing. -/
theorem terminated_pieces (text : List α) :
    terminated (pieces delim text).1 ++ (pieces delim text).2.1 = text := by
  induction text with
  | nil => rfl
  | cons char rest ih =>
      rw [pieces]
      split
      · next same =>
        subst same
        simpa using ih
      · split
        · next none =>
          rw [none] at ih
          simpa using ih
        · next some =>
          rw [some] at ih
          simpa using ih

theorem pieces_append_cons (piece : Piece delim) (rest : List α) :
    pieces delim (piece.1 ++ delim :: rest) =
      (piece :: (pieces delim rest).1, (pieces delim rest).2) := by
  obtain ⟨text, absent⟩ := piece
  induction text with
  | nil => simp [pieces]
  | cons char text ih =>
      obtain ⟨differs, absent'⟩ := List.ne_and_not_mem_of_not_mem_cons absent
      simp only [List.cons_append, pieces, differs, ↓reduceDIte, ih absent']

theorem pieces_of_piece (piece : Piece delim) : pieces delim piece.1 = ([], piece) := by
  obtain ⟨text, absent⟩ := piece
  induction text with
  | nil => rfl
  | cons char text ih =>
      obtain ⟨differs, absent'⟩ := List.ne_and_not_mem_of_not_mem_cons absent
      simp only [pieces, differs, ↓reduceDIte, ih absent']

/-- A text is cut where it was put together. -/
theorem pieces_terminated_append (front : List (Piece delim)) (rest : List α) :
    pieces delim (terminated front ++ rest) =
      (front ++ (pieces delim rest).1, (pieces delim rest).2) := by
  induction front with
  | nil => rfl
  | cons piece front ih =>
      rw [terminated_cons, List.append_assoc, List.cons_append, pieces_append_cons, ih]
      rfl

/-! ## Streams -/

/-- Reading up to a delimiter. -/
theorem takeWhile_ne_append {front : List α} (absent : delim ∉ front)
    (rest : List α) : (front ++ delim :: rest).takeWhile (· ≠ delim) = front := by
  rw [List.takeWhile_append_of_pos fun other member => by
    have differs : other ≠ delim := fun same => absent (same ▸ member)
    simpa using differs]
  simp

theorem takeWhile_ne_of_not_mem {front : List α} (absent : delim ∉ front) :
    front.takeWhile (· ≠ delim) = front := by
  rw [List.takeWhile_eq_self_iff]
  intro other member
  have differs : other ≠ delim := fun same => absent (same ▸ member)
  simpa using differs

theorem dropWhile_ne_append {front : List α} (absent : delim ∉ front)
    (rest : List α) : (front ++ delim :: rest).dropWhile (· ≠ delim) = delim :: rest := by
  rw [List.dropWhile_append_of_pos fun other member => by
    have differs : other ≠ delim := fun same => absent (same ▸ member)
    simpa using differs]
  simp

theorem dropWhile_ne_of_not_mem {front : List α} (absent : delim ∉ front) :
    front.dropWhile (· ≠ delim) = [] := by
  rw [List.dropWhile_eq_nil_iff]
  intro other member
  have differs : other ≠ delim := fun same => absent (same ▸ member)
  simpa using differs

/-- What is left to read, with `eofbit` and `failbit`. -/
structure IStream (α : Type u) where
  rest : List α
  eof : Bool := false
  fail : Bool := false
deriving DecidableEq

namespace IStream

/-- `std::getline`, with the text that its target held before. -/
def getline (stream : IStream α) (kept : List α) (delim : α) : IStream α × List α :=
  if stream.eof || stream.fail then ({ stream with fail := true }, kept)
  else
    match stream.rest.dropWhile (· ≠ delim) with
    | [] => ({ rest := [], eof := true, fail := stream.rest.isEmpty }, stream.rest)
    | _ :: rest => ({ rest }, stream.rest.takeWhile (· ≠ delim))

variable {front rest kept : List α}

/-- The delimiter is taken out of the stream and not kept. -/
theorem getline_append (absent : delim ∉ front) :
    getline { rest := front ++ delim :: rest } kept delim = ({ rest }, front) := by
  simp only [getline, dropWhile_ne_append absent, takeWhile_ne_append absent, Bool.or_self,
    Bool.false_eq_true, ↓reduceIte]

/-- Without a delimiter everything is read, and the stream ends. -/
theorem getline_of_not_mem (absent : delim ∉ front) :
    getline { rest := front } kept delim =
      ({ rest := [], eof := true, fail := front.isEmpty }, front) := by
  simp only [getline, dropWhile_ne_of_not_mem absent, Bool.or_self, Bool.false_eq_true,
    ↓reduceIte]

/-- Behind the end of the stream nothing is read. -/
theorem getline_of_eof {fail : Bool} :
    getline { rest, eof := true, fail } kept delim = ({ rest, eof := true, fail := true }, kept) :=
  rfl

/-- How many reads a stream can still serve, at most. -/
def budget (stream : IStream α) : Nat :=
  if stream.fail then 0 else if stream.eof then 1 else stream.rest.length + 2

/-- Every read of a stream that has not failed uses up some of it. -/
theorem budget_getline_lt {stream : IStream α} (sound : stream.fail = false) (kept : List α)
    (delim : α) : (stream.getline kept delim).1.budget < stream.budget := by
  by_cases ended : stream.eof = true
  · simp [getline, budget, sound, ended]
  · simp only [getline, budget, sound, ended, Bool.or_self, Bool.false_eq_true, ↓reduceIte]
    split
    · next all =>
      dsimp only
      split <;> simp
    · next taken =>
      have shorter := List.length_dropWhile_le (· ≠ delim) stream.rest
      rw [taken, List.length_cons] at shorter
      simp only [Bool.false_eq_true, ↓reduceIte]
      omega

end IStream

end CephGeoRep.Support
