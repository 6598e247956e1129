import CephGeoRep.Crawler.LastRctime

/-!
# Torn writes of the timestamp file

`write_last_rctime` truncates the file and writes the timestamp into it. When the
machine stops in between, the file holds a prefix of the text. The constructor of the
next run takes the watermark from whatever is there: a prefix of the seconds alone is
read twice, once for each field.
-/

namespace CephGeoRep

section Torn

variable {time : Timespec} {text front rest : CString}

theorem showInt_nonneg {value : Int} (nonneg : 0 ≤ value) :
    showInt value = Nat.toDigits 10 value.toNat := by
  have same : value.natAbs = value.toNat := by omega
  rw [showInt, if_neg (not_lt.mpr nonneg), same]

theorem isDigit_of_torn {number : Nat} (whole : front ++ rest = Nat.toDigits 10 number) :
    ∀ char ∈ front, char.isDigit = true := by
  intro char member
  have listed : char ∈ Nat.toDigits 10 number := by
    rw [← whole]
    exact List.mem_append_left _ member
  exact isDigit_toDigits number char listed

/-- The seconds alone are read as the nanoseconds, too. -/
theorem readLastRctime_digits (digits : ∀ char ∈ text, char.isDigit = true)
    (nonempty : text ≠ []) (small : Nat.ofDigitChars 10 text 0 < 2 ^ 63) :
    readLastRctime (some text) =
      .ok (⟨Nat.ofDigitChars 10 text 0, Nat.ofDigitChars 10 text 0⟩, text) := by
  have noPoint : '.' ∉ text := fun member => absurd (digits _ member) (by decide)
  have seconds : text.takeWhile (· ≠ '.') = text :=
    List.takeWhile_eq_self_iff.mpr fun char member => by
      simpa using ne_of_mem_of_not_mem member noPoint
  have cast : timeT (Nat.ofDigitChars 10 text 0) = Nat.ofDigitChars 10 text 0 := by
    unfold timeT
    rw [Int.bmod_def]
    split <;> omega
  rw [readLastRctime]
  simp only [Option.getD_some, seconds, noPoint, ↓reduceIte, stoul_of_digits digits nonempty small,
    stol_of_digits digits nonempty small, cast]

/-- Behind the point there is as much of the nanoseconds as has been written. -/
theorem readLastRctime_behindPoint (machine : time.IsMachine)
    (digits : ∀ char ∈ front, char.isDigit = true) (nonempty : front ≠ [])
    (small : Nat.ofDigitChars 10 front 0 < 2 ^ 63) :
    readLastRctime (some (showInt time.tvSec ++ '.' :: front)) =
      .ok (⟨time.tvSec, Nat.ofDigitChars 10 front 0⟩, showInt time.tvSec ++ '.' :: front) := by
  have first : (showInt time.tvSec ++ '.' :: front).takeWhile (· ≠ '.') = showInt time.tvSec :=
    Support.takeWhile_ne_append (not_mem_showInt _ (by decide) (by decide)) _
  have behind : (showInt time.tvSec ++ '.' :: front).drop ((showInt time.tvSec).length + 1) =
      front := by
    simp
  have second : front.takeWhile (· ≠ '\n') = front :=
    List.takeWhile_eq_self_iff.mpr fun char member => by
      have differs : char ≠ '\n' := fun same => absurd (same ▸ digits _ member) (by decide)
      simpa using differs
  have point : '.' ∈ showInt time.tvSec ++ '.' :: front := by simp
  obtain ⟨number, read, cast⟩ := stoul_showInt machine.1
  rw [readLastRctime]
  simp only [Option.getD_some, first, point, ↓reduceIte, behind, second, read, cast,
    stol_of_digits digits nonempty small]

/-- Without a number on one side of the point the file counts as corrupt. -/
theorem readLastRctime_empty : readLastRctime (some []) = .ok (.zero, initLastRctime) := by
  decide

theorem readLastRctime_point (machine : time.IsMachine) :
    readLastRctime (some (showInt time.tvSec ++ ['.'])) = .ok (.zero, initLastRctime) := by
  have first : (showInt time.tvSec ++ ['.']).takeWhile (· ≠ '.') = showInt time.tvSec :=
    Support.takeWhile_ne_append (not_mem_showInt _ (by decide) (by decide)) _
  have behind : (showInt time.tvSec ++ ['.']).drop ((showInt time.tvSec).length + 1) = [] := by
    simp
  have point : '.' ∈ showInt time.tvSec ++ ['.'] := by simp
  have none : stol [] = .error .invalidArgument := by decide
  obtain ⟨number, read, cast⟩ := stoul_showInt machine.1
  rw [readLastRctime]
  simp only [Option.getD_some, first, point, ↓reduceIte, behind, List.takeWhile_nil, read, none]

/-- Where the text can be torn. -/
theorem torn_cases (torn : text <+: writeLastRctime time) :
    (∃ rest, text ++ rest = showInt time.tvSec) ∨
    text = showInt time.tvSec ++ ['.'] ∨
    (∃ front rest, front ≠ [] ∧ text = showInt time.tvSec ++ '.' :: front ∧
      front ++ rest = showInt time.tvNsec) ∨
    text = writeLastRctime time := by
  obtain ⟨rest, whole⟩ := torn
  rw [writeLastRctime] at whole
  rcases List.append_eq_append_iff.mp whole with ⟨more, seconds, _⟩ | ⟨more, rfl, behind⟩
  · exact .inl ⟨more, seconds.symm⟩
  · cases more with
    | nil => exact .inl ⟨[], by simp⟩
    | cons char front =>
        rw [List.cons_append, List.cons.injEq] at behind
        obtain ⟨rfl, behind⟩ := behind
        right
        by_cases none : front = []
        · exact .inl (by rw [none])
        · right
          rcases List.append_eq_append_iff.mp behind with ⟨line, rfl, newline⟩ | ⟨line, more, _⟩
          · cases line with
            | nil => exact .inl ⟨showInt time.tvNsec, [], by simpa using none, by simp, by simp⟩
            | cons char line =>
                have last : char = '\n' ∧ line = [] := by
                  cases line <;> simp_all
                exact .inr (by rw [writeLastRctime, last.1, last.2])
          · exact .inl ⟨front, line, none, rfl, more.symm⟩

/-- What is recovered from a prefix of the seconds. -/
theorem gt_of_tornSeconds (seconds : 0 ≤ time.tvSec ∧ time.tvSec < 2 ^ 63)
    (nanoseconds : 0 ≤ time.tvNsec) (whole : text ++ rest = showInt time.tvSec) :
    ∃ rctime content, readLastRctime (some text) = .ok (rctime, content) ∧
      (rctime.gt time = false ↔ ¬ (text = showInt time.tvSec ∧ time.tvNsec < time.tvSec)) := by
  have digits : text ++ rest = Nat.toDigits 10 time.tvSec.toNat := by
    rw [whole, showInt_nonneg seconds.1]
  by_cases begun : text = []
  · have unequal : text ≠ showInt time.tvSec := fun same => showInt_ne_nil _ (same.symm.trans begun)
    refine ⟨_, _, begun ▸ readLastRctime_empty, ?_⟩
    simp only [Timespec.gt_eq_false_iff, unequal, false_and, not_false_eq_true, iff_true]
    rw [← not_lt, Timespec.lt_iff]
    simp only [Timespec.zero]
    omega
  · have below := ofDigitChars_torn_le digits
    refine ⟨_, _, readLastRctime_digits (isDigit_of_torn digits) begun (by omega), ?_⟩
    rw [Timespec.gt_eq_false_iff, ← not_lt, Timespec.lt_iff]
    by_cases finished : rest = []
    · have full : text = showInt time.tvSec := by
        rw [← whole, finished, List.append_nil]
      have value : (Nat.ofDigitChars 10 text 0 : Int) = time.tvSec := by
        rw [full, showInt_nonneg seconds.1, Nat.ofDigitChars_ten_toDigits]
        omega
      rw [value]
      simp only [full, true_and, lt_irrefl, false_or]
    · have less := ofDigitChars_torn_lt digits begun finished
      have unequal : text ≠ showInt time.tvSec := by
        intro same
        rw [same] at whole
        exact finished (List.append_right_eq_self.mp whole)
      simp only [unequal, false_and, not_false_eq_true, iff_true]
      omega

/-- What is recovered from a prefix that goes beyond the point. -/
theorem gt_of_tornNanoseconds (machine : time.IsMachine)
    (nanoseconds : 0 ≤ time.tvNsec) (nonempty : front ≠ [])
    (whole : front ++ rest = showInt time.tvNsec) :
    ∃ rctime content,
      readLastRctime (some (showInt time.tvSec ++ '.' :: front)) = .ok (rctime, content) ∧
        rctime.gt time = false := by
  have digits : front ++ rest = Nat.toDigits 10 time.tvNsec.toNat := by
    rw [whole, showInt_nonneg nanoseconds]
  have below := ofDigitChars_torn_le digits
  have small : Nat.ofDigitChars 10 front 0 < 2 ^ 63 := by
    have fits := machine.2.2
    omega
  refine ⟨_, _, readLastRctime_behindPoint machine (isDigit_of_torn digits) nonempty small, ?_⟩
  rw [Timespec.gt_eq_false_iff, ← not_lt, Timespec.lt_iff]
  simp only [lt_irrefl, true_and, false_or]
  omega

/-- From a prefix of what `write_last_rctime` writes the constructor never recovers a
newer timestamp, unless the text ends right before the point and the seconds exceed the
nanoseconds. -/
theorem gt_of_torn (seconds : 0 ≤ time.tvSec ∧ time.tvSec < 2 ^ 63)
    (nanoseconds : 0 ≤ time.tvNsec ∧ time.tvNsec < 10 ^ 9)
    (torn : text <+: writeLastRctime time) :
    ∃ rctime content, readLastRctime (some text) = .ok (rctime, content) ∧
      (rctime.gt time = false ↔ ¬ (text = showInt time.tvSec ∧ time.tvNsec < time.tvSec)) := by
  have machine : time.IsMachine := by
    unfold Timespec.IsMachine IsInt64
    omega
  have pointed : ∀ more, showInt time.tvSec ++ '.' :: more ≠ showInt time.tvSec := by
    intro more same
    simp at same
  have old : Timespec.zero.gt time = false := by
    rw [Timespec.gt_eq_false_iff, ← not_lt, Timespec.lt_iff]
    simp only [Timespec.zero]
    omega
  rcases torn_cases torn with ⟨rest, whole⟩ | rfl | ⟨front, rest, nonempty, rfl, whole⟩ | rfl
  · exact gt_of_tornSeconds seconds nanoseconds.1 whole
  · refine ⟨_, _, readLastRctime_point machine, ?_⟩
    simp only [old, pointed, false_and, not_false_eq_true]
  · obtain ⟨rctime, content, read, kept⟩ :=
      gt_of_tornNanoseconds machine nanoseconds.1 nonempty whole
    refine ⟨rctime, content, read, ?_⟩
    simp only [kept, pointed, false_and, not_false_eq_true]
  · refine ⟨_, _, readLastRctime_writeLastRctime machine, ?_⟩
    have kept : time.gt time = false := Timespec.gt_eq_false_iff.mpr (le_refl time)
    have unequal : writeLastRctime time ≠ showInt time.tvSec := pointed _
    simp only [kept, unequal, false_and, not_false_eq_true]

/-- Half of the text of a timestamp of the year 2023. -/
theorem gt_of_torn_inside : ∃ rctime content,
    readLastRctime (some "17000".toList) = .ok (rctime, content) ∧
      rctime.gt ⟨1700000000, 5⟩ = false := by
  obtain ⟨rctime, content, read, kept⟩ :=
    @gt_of_torn ⟨1700000000, 5⟩ "17000".toList (by decide) (by decide)
      (by decide)
  exact ⟨rctime, content, read, kept.mpr (by decide)⟩

/-- Torn before the point, the seconds become the nanoseconds. -/
theorem newer_of_tornPoint :
    "1700000000".toList <+: writeLastRctime ⟨1700000000, 5⟩ ∧
    readLastRctime (some "1700000000".toList) =
      .ok (⟨1700000000, 1700000000⟩, "1700000000".toList) ∧
    Timespec.gt ⟨1700000000, 1700000000⟩ ⟨1700000000, 5⟩ = true := by
  decide +kernel

end Torn

end CephGeoRep
