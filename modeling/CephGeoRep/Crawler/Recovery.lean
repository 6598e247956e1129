import CephGeoRep.Crawler.Poll

/-!
# Recovery of the watermark

The constructor of `LastRctime` on any content of its file, read by read. It meets a
point or the end, and two conversions that throw for two reasons each; the handler is
for one of these.
-/

namespace CephGeoRep

open Support

namespace LastRctime

/-- The `try` block of the constructor: two reads into one `str`. -/
def convert (content : CString) : Except NumeralError Timespec :=
  let first := IStream.getline { rest := content } [] '.'
  match stoul first.2 with
  | .error thrown => .error thrown
  | .ok tvSec =>
    let second := first.1.getline first.2 '\n'
    match stol second.2 with
    | .error thrown => .error thrown
    | .ok tvNsec => .ok ⟨timeT tvSec, tvNsec⟩

/-- The constructor: the watermark, and the content it leaves. -/
def construct (disk : Option CString) : Except NumeralError (Timespec × CString) :=
  let content := disk.getD initLastRctime
  match convert content with
  | .ok lastRctime => .ok (lastRctime, content)
  | .error .invalidArgument => .ok (.zero, initLastRctime)
  | .error .outOfRange => .error .outOfRange

/-- The text in front of the first point. -/
def secondsText (content : CString) : CString := content.takeWhile (· ≠ '.')

/-- The rest of that line. Without a point the second read leaves `str` as it was. -/
def nanosecondsText (content : CString) : CString :=
  if '.' ∈ content then (content.dropWhile (· ≠ '.')).tail.takeWhile (· ≠ '\n') else content

/-- Both texts start with a number of their type. -/
def Converts (content : CString) : Prop :=
  IsUnsignedLong (secondsText content) ∧ IsLong (nanosecondsText content)

/-- No number that the constructor gets to see is too large for its type. -/
def InRange (content : CString) : Prop :=
  ((numeral (secondsText content)).2 ≠ [] → IsUnsignedLong (secondsText content)) ∧
    (IsUnsignedLong (secondsText content) → (numeral (nanosecondsText content)).2 ≠ [] →
      IsLong (nanosecondsText content))

/-- What the handler is for: the constructor finishes, and starts again from zero where
there are not two numbers. -/
structure Recovers (content : CString) : Prop where
  finishes : ∃ result, construct (some content) = .ok result
  reinitialises : ¬ Converts content → construct (some content) = .ok (.zero, initLastRctime)

instance (content : CString) : Decidable (InRange content) :=
  inferInstanceAs (Decidable (((numeral (secondsText content)).2 ≠ [] →
    IsUnsignedLong (secondsText content)) ∧ (IsUnsignedLong (secondsText content) →
      (numeral (nanosecondsText content)).2 ≠ [] → IsLong (nanosecondsText content))))

section Texts

variable {content front line rest : CString}

/-- Where the first read stops. -/
theorem secondsText_append (noPoint : '.' ∉ front) :
    secondsText (front ++ '.' :: rest) = front := takeWhile_ne_append noPoint rest

/-- Where the second one stops. -/
theorem nanosecondsText_append (noPoint : '.' ∉ front) (single : '\n' ∉ line) :
    nanosecondsText (front ++ '.' :: (line ++ '\n' :: rest)) = line := by
  have point : '.' ∈ front ++ '.' :: (line ++ '\n' :: rest) := by simp
  rw [nanosecondsText, if_pos point, dropWhile_ne_append noPoint, List.tail_cons,
    takeWhile_ne_append single]

/-- The second read, with what the first one leaves. -/
theorem getline_getline (content : CString) :
    ((IStream.getline { rest := content } [] '.').1.getline (secondsText content) '\n').2 =
      nanosecondsText content := by
  by_cases point : '.' ∈ content
  · obtain ⟨front, back, rfl, noPoint⟩ := List.eq_append_cons_of_mem point
    rw [IStream.getline_append noPoint, nanosecondsText, if_pos point,
      dropWhile_ne_append noPoint, List.tail_cons]
    by_cases newline : '\n' ∈ back
    · obtain ⟨line, rest, rfl, single⟩ := List.eq_append_cons_of_mem newline
      rw [IStream.getline_append single, takeWhile_ne_append single]
    · rw [IStream.getline_of_not_mem newline, takeWhile_ne_of_not_mem newline]
  · rw [IStream.getline_of_not_mem point, IStream.getline_of_eof, nanosecondsText, if_neg point,
      secondsText, takeWhile_ne_of_not_mem point]

/-- The reads come down to the two texts. -/
theorem convert_eq (content : CString) : convert content =
    (stoul (secondsText content)).bind fun tvSec =>
      (stol (nanosecondsText content)).map fun tvNsec => ⟨timeT tvSec, tvNsec⟩ := by
  have first : (IStream.getline { rest := content } [] '.').2 = secondsText content := by
    by_cases point : '.' ∈ content
    · obtain ⟨front, back, rfl, noPoint⟩ := List.eq_append_cons_of_mem point
      rw [IStream.getline_append noPoint, secondsText_append noPoint]
    · rw [IStream.getline_of_not_mem point, secondsText, takeWhile_ne_of_not_mem point]
  simp only [convert, first, getline_getline]
  cases stoul (secondsText content) with
  | error thrown => rfl
  | ok tvSec => cases stol (nanosecondsText content) <;> rfl

/-- Both conversions succeed, or the block throws. -/
theorem convert_eq_ok_iff {lastRctime : Timespec} : convert content = .ok lastRctime ↔
    ∃ tvSec, stoul (secondsText content) = .ok tvSec ∧ timeT tvSec = lastRctime.tvSec ∧
      stol (nanosecondsText content) = .ok lastRctime.tvNsec := by
  rw [convert_eq]
  cases stoul (secondsText content) with
  | error thrown => exact iff_of_false (fun read => nomatch read) fun ⟨_, read, _⟩ => nomatch read
  | ok tvSec =>
      cases stol (nanosecondsText content) with
      | error thrown =>
          exact iff_of_false (fun read => nomatch read) fun ⟨_, _, _, read⟩ => nomatch read
      | ok tvNsec =>
          obtain ⟨seconds, nanoseconds⟩ := lastRctime
          simp [Except.bind, Except.map]

/-- Number by number, the other reason to throw. -/
theorem convert_eq_outOfRange_iff : convert content = .error .outOfRange ↔
    stoul (secondsText content) = .error .outOfRange ∨
      IsUnsignedLong (secondsText content) ∧
        stol (nanosecondsText content) = .error .outOfRange := by
  rw [convert_eq, ← stoul_iff]
  cases stoul (secondsText content) with
  | error thrown => simp [Except.bind]
  | ok tvSec => cases stol (nanosecondsText content) <;> simp [Except.bind, Except.map]

/-- The stream and the text give one constructor. -/
theorem construct_eq (disk : Option CString) : construct disk = readLastRctime disk := by
  have seconds (content : CString) :
      content.takeWhile (· ≠ '.') = secondsText content := rfl
  have nanoseconds (content : CString) : (if '.' ∈ content then
      (content.drop ((secondsText content).length + 1)).takeWhile (· ≠ '\n')
      else secondsText content) = nanosecondsText content := by
    rw [nanosecondsText]
    split
    · next point =>
      obtain ⟨front, back, rfl, noPoint⟩ := List.eq_append_cons_of_mem point
      rw [secondsText_append noPoint, dropWhile_ne_append noPoint]
      simp
    · next noPoint => exact takeWhile_ne_of_not_mem noPoint
  simp only [construct, readLastRctime, seconds, nanoseconds, convert_eq]
  cases stoul (secondsText (disk.getD initLastRctime)) with
  | error thrown => cases thrown <;> rfl
  | ok tvSec =>
      cases stol (nanosecondsText (disk.getD initLastRctime)) with
      | error thrown => cases thrown <;> rfl
      | ok tvNsec => rfl

end Texts

/-! ## Written and read back -/

/-- What `write_last_rctime` writes converts to what was written, so the handler does
not run and the file stays. -/
theorem construct_of_written {time : Timespec} (machine : time.IsMachine) :
    convert (writeLastRctime time) = .ok time ∧
      construct (some (writeLastRctime time)) = .ok (time, writeLastRctime time) := by
  have noPoint : '.' ∉ showInt time.tvSec := not_mem_showInt _ (by decide) (by decide)
  have single : '\n' ∉ showInt time.tvNsec := not_mem_showInt _ (by decide) (by decide)
  have first : secondsText (writeLastRctime time) = showInt time.tvSec :=
    secondsText_append noPoint
  have second : nanosecondsText (writeLastRctime time) = showInt time.tvNsec :=
    nanosecondsText_append noPoint single
  have converted : convert (writeLastRctime time) = .ok time := by
    obtain ⟨number, read, cast⟩ := stoul_showInt machine.1
    rw [convert_eq_ok_iff, first, second]
    exact ⟨number, read, cast, stol_showInt machine.2⟩
  refine ⟨converted, ?_⟩
  rw [construct, Option.getD_some, converted]

/-- The least seconds there are, before a negative fraction. -/
theorem construct_of_written_least :
    convert (writeLastRctime ⟨-2 ^ 63, -1⟩) = .ok ⟨-2 ^ 63, -1⟩ ∧
      construct (some (writeLastRctime ⟨-2 ^ 63, -1⟩)) =
        .ok (⟨-2 ^ 63, -1⟩, writeLastRctime ⟨-2 ^ 63, -1⟩) :=
  construct_of_written (by decide)

/-! ## Corrupt contents -/

section Corrupt

variable {content : CString}

theorem converts_iff : Converts content ↔ ∃ lastRctime, convert content = .ok lastRctime := by
  simp only [convert_eq_ok_iff, Converts, ← stoul_iff, ← stol_iff]
  constructor
  · rintro ⟨⟨tvSec, seconds⟩, tvNsec, nanoseconds⟩
    obtain ⟨cast, same⟩ : ∃ cast, timeT tvSec = cast := exists_eq'
    exact ⟨⟨cast, tvNsec⟩, tvSec, seconds, same, nanoseconds⟩
  · rintro ⟨lastRctime, tvSec, seconds, _, nanoseconds⟩
    exact ⟨⟨tvSec, seconds⟩, lastRctime.tvNsec, nanoseconds⟩

theorem inRange_iff : InRange content ↔ convert content ≠ .error .outOfRange := by
  rw [ne_eq, convert_eq_outOfRange_iff, stoul_eq_outOfRange_iff, stol_eq_outOfRange_iff, not_or]
  simp only [InRange, IsUnsignedLong, IsLong, not_and, not_le, not_not]
  grind

/-- The handler does its work for numbers that are missing, but not for numbers that
are too large: the exception for these ends the process. -/
theorem recovers_iff_inRange (content : CString) : Recovers content ↔ InRange content := by
  rw [inRange_iff]
  constructor
  · rintro ⟨⟨result, finished⟩, _⟩ thrown
    rw [construct, Option.getD_some, thrown] at finished
    cases finished
  · intro caught
    have handled : ∀ thrown, convert content = .error thrown →
        construct (some content) = .ok (.zero, initLastRctime) := by
      intro thrown converted
      rw [construct, Option.getD_some, converted]
      cases thrown with
      | invalidArgument => rfl
      | outOfRange => exact absurd converted caught
    cases converted : convert content with
    | error thrown => exact ⟨⟨_, handled thrown converted⟩, fun _ => handled thrown converted⟩
    | ok lastRctime =>
        have finished : construct (some content) = .ok (lastRctime, content) := by
          rw [construct, Option.getD_some, converted]
        exact ⟨⟨_, finished⟩, fun corrupt => absurd (converts_iff.mpr ⟨_, converted⟩) corrupt⟩

/-- Twenty digits are too many for 64 bits. -/
theorem not_recovers_twentyDigits : ¬ Recovers "99999999999999999999.0\n".toList := by
  rintro ⟨⟨result, finished⟩, _⟩
  have thrown : construct (some "99999999999999999999.0\n".toList) = .error .outOfRange := by
    decide +kernel
  rw [thrown] at finished
  cases finished

/-- The daemon starts with every content but these, and with these it never starts. -/
theorem begin_eq_none_iff {daemon : Daemon} {tokenize : CString → CString → List CString}
    {pid : Nat} {config : Config} {flags : Flags} {argMax : Int} {envpSize : Nat} :
    daemon.begin tokenize pid config flags argMax envpSize = none ↔
      ¬ InRange (daemon.disk.getD initLastRctime) := by
  rw [inRange_iff, not_not, Daemon.begin, ← construct_eq, construct]
  cases convert (daemon.disk.getD initLastRctime) with
  | error thrown => cases thrown <;> simp
  | ok lastRctime => simp

end Corrupt

end LastRctime

end CephGeoRep
