import CephGeoRep.Data.File

/-!
# Numbers in texts

The conversions of the C and C++ libraries that the source applies to attribute
values and to the timestamp file, in base ten.
-/

namespace CephGeoRep

/-- `isspace` in the C locale. -/
def isSpace (char : Char) : Bool := char ∈ [' ', '\t', '\n', '\x0b', '\x0c', '\r']

/-- The longest numeral at the head of a text: whether it has a minus sign, and its
digits. -/
def numeral (text : CString) : Bool × CString :=
  match text.dropWhile isSpace with
  | '-' :: rest => (true, rest.takeWhile Char.isDigit)
  | '+' :: rest => (false, rest.takeWhile Char.isDigit)
  | rest => (false, rest.takeWhile Char.isDigit)

/-- What `std::stoul` and `std::stol` throw. -/
inductive NumeralError where
  | invalidArgument
  | outOfRange
deriving DecidableEq

/-- `std::stoul`. A minus sign negates in `unsigned long`. -/
def stoul (text : CString) : Except NumeralError Nat :=
  let (negative, digits) := numeral text
  let value := Nat.ofDigitChars 10 digits 0
  if digits.isEmpty then .error .invalidArgument
  else if 2 ^ 64 ≤ value then .error .outOfRange
  else .ok (if negative then (2 ^ 64 - value) % 2 ^ 64 else value)

/-- The value of a numeral. -/
def numeralValue (found : Bool × CString) : Int :=
  let value : Int := Nat.ofDigitChars 10 found.2 0
  if found.1 then -value else value

/-- `std::stol`. -/
def stol (text : CString) : Except NumeralError Int :=
  let value := numeralValue (numeral text)
  if (numeral text).2.isEmpty then .error .invalidArgument
  else if value < -2 ^ 63 ∨ 2 ^ 63 ≤ value then .error .outOfRange
  else .ok value

/-- `strtoul` converts the same numerals, but answers 0 and `ULONG_MAX` instead. -/
def strtoul (text : CString) : Nat :=
  match stoul text with
  | .ok value => value
  | .error .invalidArgument => 0
  | .error .outOfRange => 2 ^ 64 - 1

/-- `strtol`; it answers `LONG_MIN` or `LONG_MAX` when out of range. -/
def strtol (text : CString) : Int :=
  match stol text with
  | .ok value => value
  | .error .invalidArgument => 0
  | .error .outOfRange => if (numeral text).1 then -2 ^ 63 else 2 ^ 63 - 1

/-- The cast from `unsigned long` to `time_t`. -/
def timeT (value : Nat) : Int := Int.bmod value (2 ^ 64)

/-- `std::to_string` and `operator<<` of a signed number. -/
def showInt (value : Int) : CString :=
  if value < 0 then '-' :: Nat.toDigits 10 value.natAbs else Nat.toDigits 10 value.natAbs

/-- A number of 64 bits. -/
def IsInt64 (value : Int) : Prop := -2 ^ 63 ≤ value ∧ value < 2 ^ 63

instance (value : Int) : Decidable (IsInt64 value) :=
  inferInstanceAs (Decidable (-2 ^ 63 ≤ value ∧ value < 2 ^ 63))

theorem isInt64_timeT (value : Nat) : IsInt64 (timeT value) := by
  unfold IsInt64 timeT
  rw [Int.bmod_def]
  split <;> omega

theorem isInt64_of_stol {text : CString} {value : Int} (read : stol text = .ok value) :
    IsInt64 value := by
  simp only [stol] at read
  split at read
  · simp at read
  · split at read
    · simp at read
    · next inside =>
      rw [not_or, not_lt, not_le] at inside
      obtain rfl := Except.ok.inj read
      exact inside

section RoundTrip

variable {value : Int}

theorem isDigit_not_isSpace {char : Char} (digit : char.isDigit = true) :
    isSpace char = false := by
  simp only [Char.isDigit, Bool.and_eq_true, decide_eq_true_eq] at digit
  by_contra blank
  simp only [isSpace, Bool.not_eq_false, decide_eq_true_eq, List.mem_cons, List.not_mem_nil,
    or_false] at blank
  rcases blank with rfl | rfl | rfl | rfl | rfl | rfl <;> exact absurd digit (by decide)

/-- A text that starts with a digit has no blanks and no sign. -/
theorem numeral_of_digit {char : Char} (digit : char.isDigit = true) (text : CString) :
    numeral (char :: text) = (false, (char :: text).takeWhile Char.isDigit) := by
  have kept : (char :: text).dropWhile isSpace = char :: text := by
    simp [isDigit_not_isSpace digit]
  rw [numeral]
  rw [kept]
  split
  · next equal =>
    cases equal
    exact absurd digit (by decide)
  · next equal =>
    cases equal
    exact absurd digit (by decide)
  · rfl

/-- A text of digits is its own numeral. -/
theorem numeral_of_digits {digits : CString} (all : ∀ char ∈ digits, char.isDigit = true) :
    numeral digits = (false, digits) := by
  cases digits with
  | nil => rfl
  | cons char rest =>
      rw [numeral_of_digit (all char List.mem_cons_self)]
      exact congrArg (Prod.mk false) (List.takeWhile_eq_self_iff.mpr all)

theorem isDigit_toDigits (number : Nat) :
    ∀ char ∈ Nat.toDigits 10 number, char.isDigit = true := fun _ member =>
  Nat.isDigit_of_mem_toDigits (by decide) (by decide) member

theorem showInt_ne_nil (value : Int) : showInt value ≠ [] := by
  rw [showInt]
  split
  · simp
  · exact Nat.toDigits_ne_nil

/-- A separator that is in no number. -/
theorem not_mem_showInt (value : Int) {char : Char} (noDigit : char.isDigit = false)
    (noSign : char ≠ '-') : char ∉ showInt value := by
  have digits : char ∉ Nat.toDigits 10 value.natAbs := by
    intro member
    have digit := isDigit_toDigits _ _ member
    rw [noDigit] at digit
    cases digit
  rw [showInt]
  split
  · simp [noSign, digits]
  · exact digits

/-- The numeral of a number that is written out, in front of anything but a digit. -/
theorem numeral_showInt_append (value : Int) {unit : CString}
    (noDigit : ∀ char ∈ unit.head?, char.isDigit = false) :
    numeral (showInt value ++ unit) = (decide (value < 0), Nat.toDigits 10 value.natAbs) := by
  have all := isDigit_toDigits value.natAbs
  have behind : unit.takeWhile Char.isDigit = [] := by
    cases unit with
    | nil => rfl
    | cons char rest => exact List.takeWhile_cons_of_neg (by simp [noDigit char rfl])
  have digits : (Nat.toDigits 10 value.natAbs ++ unit).takeWhile Char.isDigit =
      Nat.toDigits 10 value.natAbs := by
    rw [List.takeWhile_append_of_pos all, behind, List.append_nil]
  by_cases negative : value < 0
  · simp [numeral, showInt, negative, isSpace, digits]
  · obtain ⟨char, rest, shown⟩ : ∃ char rest, Nat.toDigits 10 value.natAbs = char :: rest :=
      List.exists_cons_of_ne_nil Nat.toDigits_ne_nil
    rw [shown] at all digits
    simp only [showInt, negative, ↓reduceIte, shown, decide_false]
    rw [List.cons_append, numeral_of_digit (all char List.mem_cons_self), ← List.cons_append,
      digits]

/-- The numeral of a number that is written out. -/
theorem numeral_showInt (value : Int) :
    numeral (showInt value) = (decide (value < 0), Nat.toDigits 10 value.natAbs) := by
  have alone := @numeral_showInt_append value [] (by simp)
  rwa [List.append_nil] at alone

/-- Its value. -/
theorem numeralValue_showInt (value : Int) :
    numeralValue (decide (value < 0), Nat.toDigits 10 value.natAbs) = value := by
  simp only [numeralValue, Nat.ofDigitChars_ten_toDigits, decide_eq_true_eq]
  split <;> omega

theorem showInt_injective {value number : Int} (same : showInt value = showInt number) :
    value = number := by
  have parsed := congrArg (fun text => numeralValue (numeral text)) same
  simpa only [numeral_showInt, numeralValue_showInt] using parsed

/-- `stol` reads back what was written. -/
theorem stol_showInt (small : IsInt64 value) : stol (showInt value) = .ok value := by
  rw [stol]
  rw [numeral_showInt value]
  have same := numeralValue_showInt value
  obtain ⟨least, most⟩ := small
  have inside : ¬ (value < -2 ^ 63 ∨ 2 ^ 63 ≤ value) := by omega
  simp only [same, inside, ↓reduceIte, List.isEmpty_iff, Nat.toDigits_ne_nil]

/-- `stoul` and the cast read back what was written, also below zero. -/
theorem stoul_showInt (small : IsInt64 value) :
    ∃ number, stoul (showInt value) = .ok number ∧ timeT number = value := by
  unfold stoul
  rw [numeral_showInt value]
  obtain ⟨least, most⟩ := small
  have fits : ¬ 2 ^ 64 ≤ value.natAbs := by omega
  simp only [Nat.ofDigitChars_ten_toDigits, fits, ↓reduceIte, List.isEmpty_iff,
    Nat.toDigits_ne_nil]
  refine ⟨_, rfl, ?_⟩
  unfold timeT
  by_cases negative : value < 0
  · simp only [negative, decide_true, ↓reduceIte]
    have wrapped : (2 ^ 64 - value.natAbs) % 2 ^ 64 = 2 ^ 64 - value.natAbs :=
      Nat.mod_eq_of_lt (by omega)
    rw [wrapped, Int.bmod_def]
    split <;> omega
  · simp only [negative, decide_false, Bool.false_eq_true, ↓reduceIte]
    rw [Int.bmod_def]
    split <;> omega

end RoundTrip

/-! ## Torn numerals -/

section Torn

variable {digits front back : CString} {number : Nat}

theorem stoul_of_digits (all : ∀ char ∈ digits, char.isDigit = true) (nonempty : digits ≠ [])
    (small : Nat.ofDigitChars 10 digits 0 < 2 ^ 63) :
    stoul digits = .ok (Nat.ofDigitChars 10 digits 0) := by
  have inside : ¬ 2 ^ 64 ≤ Nat.ofDigitChars 10 digits 0 := by omega
  rw [stoul]
  rw [numeral_of_digits all]
  simp only [List.isEmpty_iff, nonempty, inside, ↓reduceIte, Bool.false_eq_true]

theorem stol_of_digits (all : ∀ char ∈ digits, char.isDigit = true) (nonempty : digits ≠ [])
    (small : Nat.ofDigitChars 10 digits 0 < 2 ^ 63) :
    stol digits = .ok (Nat.ofDigitChars 10 digits 0 : Nat) := by
  have inside : ¬ ((Nat.ofDigitChars 10 digits 0 : Int) < -2 ^ 63 ∨
      2 ^ 63 ≤ (Nat.ofDigitChars 10 digits 0 : Int)) := by omega
  rw [stol]
  rw [numeral_of_digits all]
  simp only [numeralValue, List.isEmpty_iff, nonempty, inside, ↓reduceIte, Bool.false_eq_true]

/-- Digits behind others move these up. -/
theorem ofDigitChars_torn (front back : CString) :
    Nat.ofDigitChars 10 (front ++ back) 0 =
      10 ^ back.length * Nat.ofDigitChars 10 front 0 + Nat.ofDigitChars 10 back 0 := by
  rw [Nat.ofDigitChars_append, Nat.ofDigitChars_eq_ofDigitChars_zero]

/-- The first digits of a number denote at most that number. -/
theorem ofDigitChars_torn_le (whole : front ++ back = Nat.toDigits 10 number) :
    Nat.ofDigitChars 10 front 0 ≤ number := by
  have value := ofDigitChars_torn front back
  rw [whole, Nat.ofDigitChars_ten_toDigits] at value
  have least : 1 ≤ 10 ^ back.length := Nat.one_le_pow _ _ (by decide)
  calc Nat.ofDigitChars 10 front 0
      ≤ 10 ^ back.length * Nat.ofDigitChars 10 front 0 := Nat.le_mul_of_pos_left _ least
    _ ≤ number := by omega

/-- Some, but not all digits of a number denote less. -/
theorem ofDigitChars_torn_lt (whole : front ++ back = Nat.toDigits 10 number)
    (begun : front ≠ []) (unfinished : back ≠ []) : Nat.ofDigitChars 10 front 0 < number := by
  refine lt_of_le_of_ne (ofDigitChars_torn_le whole) fun same => ?_
  have value := ofDigitChars_torn front back
  rw [whole, Nat.ofDigitChars_ten_toDigits, same] at value
  have tenfold : 10 ≤ 10 ^ back.length :=
    Nat.le_self_pow (List.length_pos_iff.mpr unfinished).ne' 10
  have zero : number = 0 := by nlinarith
  -- The number 0 has one digit, which cannot be torn.
  have length := congrArg List.length whole
  rw [zero, Nat.toDigits_zero, List.length_append, List.length_singleton] at length
  have first := List.length_pos_iff.mpr begun
  have second := List.length_pos_iff.mpr unfinished
  omega

end Torn

/-! ## Which texts convert -/

/-- The text starts with a numeral of an `unsigned long`. -/
def IsUnsignedLong (text : CString) : Prop :=
  (numeral text).2 ≠ [] ∧ Nat.ofDigitChars 10 (numeral text).2 0 < 2 ^ 64

/-- The text starts with a numeral of a `long`. -/
def IsLong (text : CString) : Prop :=
  (numeral text).2 ≠ [] ∧ IsInt64 (numeralValue (numeral text))

/-- The text starts with a numeral that has no digit but zeros. -/
def IsZero (text : CString) : Prop :=
  (numeral text).2 ≠ [] ∧ ∀ digit ∈ (numeral text).2, digit = '0'

instance (text : CString) : Decidable (IsUnsignedLong text) :=
  inferInstanceAs (Decidable ((numeral text).2 ≠ [] ∧
    Nat.ofDigitChars 10 (numeral text).2 0 < 2 ^ 64))

instance (text : CString) : Decidable (IsLong text) :=
  inferInstanceAs (Decidable ((numeral text).2 ≠ [] ∧ IsInt64 (numeralValue (numeral text))))

instance (text : CString) : Decidable (IsZero text) :=
  have : Decidable (∀ digit ∈ (numeral text).2, digit = '0') := List.decidableBAll _ _
  inferInstanceAs (Decidable ((numeral text).2 ≠ [] ∧
    ∀ digit ∈ (numeral text).2, digit = '0'))

section Convert

variable {text : CString}

/-- `stoul` throws on every other text. -/
theorem stoul_iff : (∃ value, stoul text = .ok value) ↔ IsUnsignedLong text := by
  simp only [stoul, IsUnsignedLong, List.isEmpty_iff]
  by_cases none : (numeral text).2 = []
  · rw [if_pos none]
    exact iff_of_false (fun ⟨_, read⟩ => nomatch read) fun both => both.1 none
  · rw [if_neg none]
    by_cases large : 2 ^ 64 ≤ Nat.ofDigitChars 10 (numeral text).2 0
    · rw [if_pos large]
      exact iff_of_false (fun ⟨_, read⟩ => nomatch read) fun both => both.2.not_ge large
    · rw [if_neg large]
      exact iff_of_true ⟨_, rfl⟩ ⟨none, not_le.mp large⟩

/-- Of the two exceptions of `stoul`, this one is for numerals that are too large. -/
theorem stoul_eq_outOfRange_iff : stoul text = .error .outOfRange ↔
    (numeral text).2 ≠ [] ∧ 2 ^ 64 ≤ Nat.ofDigitChars 10 (numeral text).2 0 := by
  simp only [stoul, List.isEmpty_iff]
  by_cases none : (numeral text).2 = []
  · rw [if_pos none]
    exact iff_of_false (fun read => nomatch read) fun both => both.1 none
  · rw [if_neg none]
    by_cases large : 2 ^ 64 ≤ Nat.ofDigitChars 10 (numeral text).2 0
    · rw [if_pos large]
      exact iff_of_true rfl ⟨none, large⟩
    · rw [if_neg large]
      exact iff_of_false (fun read => nomatch read) fun both => large both.2

/-- `stol` throws on every other text. -/
theorem stol_eq_ok_iff {value : Int} :
    stol text = .ok value ↔ IsLong text ∧ numeralValue (numeral text) = value := by
  simp only [stol, IsLong, IsInt64, List.isEmpty_iff]
  by_cases none : (numeral text).2 = []
  · rw [if_pos none]
    exact iff_of_false (fun read => nomatch read) fun both => both.1.1 none
  · rw [if_neg none]
    by_cases outside : numeralValue (numeral text) < -2 ^ 63 ∨
        2 ^ 63 ≤ numeralValue (numeral text)
    · rw [if_pos outside]
      refine iff_of_false (fun read => nomatch read) fun both => ?_
      obtain ⟨least, most⟩ := both.1.2
      omega
    · rw [if_neg outside, Except.ok.injEq]
      rw [not_or, not_lt, not_le] at outside
      exact ⟨fun same => ⟨⟨none, outside⟩, same⟩, And.right⟩

theorem stol_iff : (∃ value, stol text = .ok value) ↔ IsLong text := by
  simp only [stol_eq_ok_iff, exists_and_left, exists_eq', and_true]

theorem stol_eq_outOfRange_iff : stol text = .error .outOfRange ↔
    (numeral text).2 ≠ [] ∧ ¬ IsInt64 (numeralValue (numeral text)) := by
  simp only [stol, IsInt64, List.isEmpty_iff]
  by_cases none : (numeral text).2 = []
  · rw [if_pos none]
    exact iff_of_false (fun read => nomatch read) fun both => both.1 none
  · rw [if_neg none]
    by_cases outside : numeralValue (numeral text) < -2 ^ 63 ∨
        2 ^ 63 ≤ numeralValue (numeral text)
    · rw [if_pos outside]
      exact iff_of_true rfl ⟨none, by omega⟩
    · rw [if_neg outside]
      exact iff_of_false (fun read => nomatch read) fun both => outside (by omega)

/-- The conversions of C agree with those of C++ that do not throw. -/
theorem strtoul_of_stoul {value : Nat} (read : stoul text = .ok value) :
    strtoul text = value := by
  rw [strtoul, read]

theorem strtol_of_stol {value : Int} (read : stol text = .ok value) : strtol text = value := by
  rw [strtol, read]

theorem isDigit_of_mem_numeral {char : Char} (member : char ∈ (numeral text).2) :
    char.isDigit = true := by
  rw [numeral] at member
  split at member
  · exact List.mem_takeWhile_imp member
  · exact List.mem_takeWhile_imp member
  · exact List.mem_takeWhile_imp member

/-- Only zeros denote zero. -/
theorem ofDigitChars_eq_zero_iff {digits : CString}
    (all : ∀ char ∈ digits, char.isDigit = true) :
    Nat.ofDigitChars 10 digits 0 = 0 ↔ ∀ digit ∈ digits, digit = '0' := by
  induction digits with
  | nil => simp
  | cons char rest ih =>
      have later := ih fun digit member => all digit (List.mem_cons_of_mem _ member)
      have digit := all char List.mem_cons_self
      have first : char.toNat - '0'.toNat = 0 ↔ char = '0' := by
        constructor
        · intro least
          refine Char.toNat_inj.mp ?_
          simp only [Char.isDigit, Bool.and_eq_true, decide_eq_true_eq] at digit
          have above : '0'.toNat ≤ char.toNat := digit.1
          omega
        · rintro rfl
          rfl
      have single : Nat.ofDigitChars 10 [char] 0 = char.toNat - '0'.toNat := by
        simp [Nat.ofDigitChars_cons]
      have value := ofDigitChars_torn [char] rest
      rw [List.singleton_append, single] at value
      have power : 10 ^ rest.length ≠ 0 := (Nat.pow_pos (by decide)).ne'
      rw [value, Nat.add_eq_zero_iff, Nat.mul_eq_zero, or_iff_right power, first, later,
        List.forall_mem_cons]

theorem numeralValue_eq_zero_iff :
    numeralValue (numeral text) = 0 ↔ ∀ digit ∈ (numeral text).2, digit = '0' := by
  rw [← ofDigitChars_eq_zero_iff fun char => isDigit_of_mem_numeral]
  simp only [numeralValue]
  split <;> omega

/-- Such a text is read as zero, and no other. -/
theorem stol_eq_zero_iff : stol text = .ok 0 ↔ IsZero text := by
  rw [stol_eq_ok_iff, numeralValue_eq_zero_iff, IsLong, IsZero]
  constructor
  · rintro ⟨⟨some, _⟩, zeros⟩
    exact ⟨some, zeros⟩
  · rintro ⟨some, zeros⟩
    refine ⟨⟨some, ?_⟩, zeros⟩
    rw [numeralValue_eq_zero_iff.mpr zeros]
    simp [IsInt64]

/-- A text that converts is not empty. -/
theorem IsLong.ne_nil (long : IsLong text) : text ≠ [] := by
  rintro rfl
  exact long.1 rfl

end Convert

end CephGeoRep
