import CephGeoRep.Crawler.LastRctime
import CephGeoRep.Support.CString

/-!
# The rctime of a directory

The two overloads of `get_rctime` on the attribute `ceph.dir.rctime`. The search cuts
the array with the value in place and never fails; the poll copies the value and
throws. The comment in both says `<seconds> + '.09' + <nanoseconds>`, and nothing
checks that.
-/

namespace CephGeoRep

open Support

/-- `XATTR_SIZE`. -/
def xattrSize : Nat := 1024

/-- A value that leaves room for a NUL in the array. -/
structure XattrValue where
  text : CString
  ended : '\x00' ∉ text
  short : text.length < xattrSize

/-- `get_rctime(const File &)`, on the array `value` and what is behind it in memory. The
three characters are also stepped over when the loop stopped at the NUL. -/
def getRctimeInMemory (file : File) (rctime : Option XattrValue) (behind : List Char) :
    Timespec :=
  if file.isDirectory then
    match rctime with
    | none => .zero
    | some value =>
      let memory := arrayOf '\x00' xattrSize value.text behind
      let ptr := scan '.' '\x00' memory
      let cut := memory.set ptr '\x00'
      ⟨timeT (strtoul (stringAt '\x00' cut 0)), strtol (stringAt '\x00' cut (ptr + 3))⟩
  else file.rctime

namespace XattrValue

/-- The characters before the point, or all of them. -/
def seconds (value : XattrValue) : CString := value.text.takeWhile (· ≠ '.')

/-- Where the poll looks for the nanoseconds. -/
def start (value : XattrValue) : Nat :=
  if '.' ∈ value.text then value.seconds.length + 3 else 2

/-- Both overloads read this timestamp of a directory, whatever is behind the array; in
particular, nothing is thrown. -/
def ReadsAs (value : XattrValue) (rctime : Timespec) : Prop :=
  ∀ (stat : Stat) (path : CString) (snapRootLen : Nat) (behind : List Char),
    stat.isDir = true →
    getRctime ⟨stat, some value.text⟩ = .ok rctime ∧
    getRctimeInMemory (File.init path snapRootLen stat) (some value) behind = rctime

/-- The seconds are a number, and behind the three characters from the point is another.
Without a point the poll takes the nanoseconds from the third character on, and the
search from behind the value, which must still be in the array. -/
def Coherent (value : XattrValue) : Prop :=
  IsUnsignedLong value.seconds ∧
  if '.' ∈ value.text then IsLong (value.text.drop (value.seconds.length + 3))
  else IsZero (value.text.drop 2) ∧ value.text.length + 3 < xattrSize

instance (value : XattrValue) : Decidable value.Coherent :=
  inferInstanceAs (Decidable (IsUnsignedLong value.seconds ∧
    if '.' ∈ value.text then IsLong (value.text.drop (value.seconds.length + 3))
    else IsZero (value.text.drop 2) ∧ value.text.length + 3 < xattrSize))

end XattrValue

/-! ## The two overloads -/

section Overloads

variable {file : File} {value : XattrValue} {behind : List Char}

/-- The cut in place leaves the seconds, and the nanoseconds as they were. -/
theorem getRctimeInMemory_directory (directory : file.isDirectory = true)
    (behind : List Char) : getRctimeInMemory file (some value) behind =
      ⟨timeT (strtoul value.seconds), strtol (stringAt '\x00'
        (arrayOf '\x00' xattrSize value.text behind) (value.seconds.length + 3))⟩ := by
  obtain ⟨rest, equal⟩ : ∃ rest, arrayOf '\x00' xattrSize value.text behind =
      value.text ++ '\x00' :: rest := arrayOf_eq value.short behind
  have stopped : scan '.' '\x00' (value.text ++ '\x00' :: rest) = value.seconds.length :=
    scan_append value.ended rest
  have cut := stringAt_set_scan '.' value.ended rest
  rw [stopped] at cut
  rw [getRctimeInMemory, if_pos directory, equal]
  simp only [stopped, cut]
  rw [stringAt_set (by omega)]
  rfl

/-- The value inside the array is read as a text of its own. -/
theorem getRctimeInMemory_of_inside (directory : file.isDirectory = true)
    (inside : value.seconds.length + 3 < xattrSize) (behind : List Char) :
    getRctimeInMemory file (some value) behind =
      ⟨timeT (strtoul value.seconds),
        strtol (value.text.drop (value.seconds.length + 3))⟩ := by
  rw [getRctimeInMemory_directory directory]
  rw [stringAt_arrayOf value.ended value.short inside]

/-- Behind the array the nanoseconds are whatever is there. -/
theorem getRctimeInMemory_of_outside (directory : file.isDirectory = true)
    (outside : xattrSize ≤ value.seconds.length + 3) (behind : List Char) :
    getRctimeInMemory file (some value) behind =
      ⟨timeT (strtoul value.seconds),
        strtol (stringAt '\x00' behind (value.seconds.length + 3 - xattrSize))⟩ := by
  rw [getRctimeInMemory_directory directory]
  rw [stringAt_behind value.short.le outside]

/-- The text model of the search is that of the memory, as long as nothing is read behind
the array. -/
theorem getRctimeInMemory_eq {rctime : Option XattrValue}
    (inside : ∀ value ∈ rctime, value.seconds.length + 3 < xattrSize) (behind : List Char) :
    getRctimeInMemory file rctime behind =
      getRctimeOfFile file (rctime.map XattrValue.text) := by
  by_cases directory : file.isDirectory = true
  · cases rctime with
    | none => simp [getRctimeInMemory, getRctimeOfFile]
    | some value =>
        rw [getRctimeInMemory_of_inside directory (inside value rfl)]
        simp only [getRctimeOfFile, directory, ↓reduceIte, Option.map_some]
        rfl
  · simp only [getRctimeInMemory, getRctimeOfFile, directory, Bool.false_eq_true, ↓reduceIte]

theorem getRctime_directory {stat : Stat} (directory : stat.isDir = true) :
    getRctime ⟨stat, some value.text⟩ =
      match stoul value.seconds with
      | .error thrown => .error thrown
      | .ok tvSec =>
        if value.text.length < value.start then .error .outOfRange
        else (stol (value.text.drop value.start)).map fun tvNsec => ⟨timeT tvSec, tvNsec⟩ := by
  rw [getRctime, if_pos directory]
  rfl

/-- What the poll returns, when it throws nothing. -/
theorem getRctime_eq_ok_iff {stat : Stat} {rctime : Timespec} (directory : stat.isDir = true) :
    getRctime ⟨stat, some value.text⟩ = .ok rctime ↔
      ∃ tvSec tvNsec, stoul value.seconds = .ok tvSec ∧
        stol (value.text.drop value.start) = .ok tvNsec ∧ ⟨timeT tvSec, tvNsec⟩ = rctime := by
  rw [getRctime_directory directory]
  cases stoul value.seconds with
  | error thrown => simp
  | ok tvSec =>
      cases read : stol (value.text.drop value.start) with
      | error thrown =>
          dsimp only
          split <;> simp [Except.map]
      | ok tvNsec =>
          have long := (stol_eq_ok_iff.mp read).1.ne_nil
          have reached : ¬ value.text.length < value.start := fun short =>
            long (List.drop_eq_nil_of_le short.le)
          simp [reached, Except.map]

end Overloads

/-! ## Where they agree -/

namespace XattrValue

variable {value : XattrValue}

/-- The seconds are a part of the text. -/
theorem length_seconds_le (value : XattrValue) : value.seconds.length ≤ value.text.length :=
  (List.takeWhile_sublist _).length_le

theorem seconds_of_pointless (pointless : '.' ∉ value.text) : value.seconds = value.text :=
  takeWhile_ne_of_not_mem pointless

/-- A value that goes on there is still in the array. -/
theorem inside_of_rest (rest : value.text.drop (value.seconds.length + 3) ≠ []) :
    value.seconds.length + 3 < xattrSize := by
  have reached := List.drop_eq_nil_iff.not.mp rest
  have short := value.short
  omega

/-- What is needed for the search to read inside the array. -/
theorem Coherent.inside (coherent : value.Coherent) : value.seconds.length + 3 < xattrSize := by
  obtain ⟨_, rest⟩ := coherent
  by_cases point : '.' ∈ value.text
  · rw [if_pos point] at rest
    exact inside_of_rest rest.ne_nil
  · rw [if_neg point] at rest
    have whole := value.length_seconds_le
    omega

/-- Both find a number, and the same. -/
theorem Coherent.nanoseconds (coherent : value.Coherent) :
    ∃ tvNsec, stol (value.text.drop value.start) = .ok tvNsec ∧
      strtol (value.text.drop (value.seconds.length + 3)) = tvNsec := by
  obtain ⟨_, rest⟩ := coherent
  by_cases point : '.' ∈ value.text
  · rw [if_pos point] at rest
    obtain ⟨tvNsec, read⟩ := stol_iff.mpr rest
    refine ⟨tvNsec, ?_, strtol_of_stol read⟩
    rw [start, if_pos point]
    exact read
  · rw [if_neg point] at rest
    refine ⟨0, ?_, ?_⟩
    · rw [start, if_neg point]
      exact stol_eq_zero_iff.mpr rest.1
    · rw [seconds_of_pointless point, List.drop_eq_nil_of_le (by omega)]
      rfl

/-- The search reads the seconds as the poll does, and has to read the same
nanoseconds. -/
theorem readsAs_of_numbers {tvSec : Nat} {tvNsec : Int}
    (inside : value.seconds.length + 3 < xattrSize) (first : stoul value.seconds = .ok tvSec)
    (second : stol (value.text.drop value.start) = .ok tvNsec)
    (third : strtol (value.text.drop (value.seconds.length + 3)) = tvNsec) :
    value.ReadsAs ⟨timeT tvSec, tvNsec⟩ := by
  intro stat path snapRootLen behind directory
  have isDirectory : (File.init path snapRootLen stat).isDirectory = true := by
    rw [File.init_isDirectory, directory]
  constructor
  · exact (getRctime_eq_ok_iff directory).mpr ⟨tvSec, tvNsec, first, second, rfl⟩
  · rw [getRctimeInMemory_of_inside isDirectory inside, third, strtoul_of_stoul first]

theorem Coherent.readsAs (coherent : value.Coherent) : ∃ rctime, value.ReadsAs rctime := by
  obtain ⟨tvSec, first⟩ := stoul_iff.mpr coherent.1
  obtain ⟨tvNsec, second, third⟩ := coherent.nanoseconds
  exact ⟨_, readsAs_of_numbers coherent.inside first second third⟩

/-- A directory, on which both overloads can be tried. -/
def someDirectory : Stat := { isDir := true, size := 0, mtime := .zero }

/-- What is behind the array shows, unless the search stays inside. -/
theorem ReadsAs.inside {rctime : Timespec} (reads : value.ReadsAs rctime) :
    value.seconds.length + 3 < xattrSize := by
  by_contra outside
  have isDirectory : (File.init [] 0 someDirectory).isDirectory = true := rfl
  have shown : ∀ behind, rctime.tvNsec =
      strtol (stringAt '\x00' behind (value.seconds.length + 3 - xattrSize)) := by
    intro behind
    obtain ⟨_, search⟩ := reads someDirectory [] 0 behind rfl
    rw [getRctimeInMemory_of_outside isDirectory (not_lt.mp outside)] at search
    rw [← search]
  -- Nothing is there, or the digit 1.
  have nothing := shown []
  have digit := shown (List.replicate (value.seconds.length + 3 - xattrSize) ' ' ++ ['1'])
  rw [nothing, stringAt, stringAt, List.drop_nil, List.drop_left' List.length_replicate] at digit
  exact absurd digit (by decide)

theorem ReadsAs.coherent {rctime : Timespec} (reads : value.ReadsAs rctime) :
    value.Coherent := by
  have inside := reads.inside
  obtain ⟨poll, search⟩ := reads someDirectory [] 0 [] rfl
  obtain ⟨tvSec, tvNsec, first, second, same⟩ := (getRctime_eq_ok_iff rfl).mp poll
  refine ⟨stoul_iff.mp ⟨tvSec, first⟩, ?_⟩
  by_cases point : '.' ∈ value.text
  · rw [if_pos point]
    rw [start, if_pos point] at second
    exact stol_iff.mp ⟨_, second⟩
  · rw [if_neg point]
    rw [start, if_neg point] at second
    rw [getRctimeInMemory_of_inside rfl inside, seconds_of_pointless point,
      List.drop_eq_nil_of_le (by omega)] at search
    have zero : tvNsec = 0 := by
      rw [← same] at search
      exact (congrArg Timespec.tvNsec search).symm
    rw [zero] at second
    rw [seconds_of_pointless point] at inside
    exact ⟨stol_eq_zero_iff.mp second, inside⟩

/-- The two overloads return the same timestamp, and throw nothing, exactly on these
values. -/
theorem readsAs_iff (value : XattrValue) :
    (∃ rctime, value.ReadsAs rctime) ↔ value.Coherent :=
  ⟨fun ⟨_, reads⟩ => reads.coherent, Coherent.readsAs⟩

-- Without a point, only zeros are read alike.
example : Coherent ⟨"500".toList, by decide, by decide⟩ := by decide +kernel

example : ¬ Coherent ⟨"501".toList, by decide, by decide⟩ := by decide +kernel

/-- A fraction of one digit. -/
def shortFraction : XattrValue where
  text := "5.0".toList
  ended := by decide
  short := by decide

/-- There the search reads five seconds, and the poll throws. -/
theorem thrown_of_shortFraction :
    getRctime ⟨someDirectory, some shortFraction.text⟩ = .error .outOfRange ∧
    (∀ behind, getRctimeInMemory (File.init [] 0 someDirectory) (some shortFraction) behind =
      ⟨5, 0⟩) ∧
    ¬ ∀ value : XattrValue, ∃ rctime, value.ReadsAs rctime := by
  have thrown : getRctime ⟨someDirectory, some shortFraction.text⟩ = .error .outOfRange := by
    decide +kernel
  refine ⟨thrown, ?_, ?_⟩
  · intro behind
    have inside : shortFraction.seconds.length + 3 < xattrSize := by decide
    rw [getRctimeInMemory_of_inside rfl inside]
    decide +kernel
  · intro always
    obtain ⟨rctime, reads⟩ := always shortFraction
    obtain ⟨poll, _⟩ := reads someDirectory [] 0 [] rfl
    rw [thrown] at poll
    cases poll

/-- A directory is read in one way only. -/
theorem ReadsAs.unique {left right : Timespec} (reads : value.ReadsAs left)
    (again : value.ReadsAs right) : left = right := by
  obtain ⟨_, first⟩ := reads someDirectory [] 0 [] rfl
  obtain ⟨_, second⟩ := again someDirectory [] 0 [] rfl
  exact first.symm.trans second

end XattrValue

/-! ## The documented form -/

/-- Numbers are short. -/
theorem length_showInt_le {number digits : Nat} (some : 0 < digits)
    (small : number < 10 ^ digits) : (showInt number).length ≤ digits := by
  have least : ¬ (number : Int) < 0 := by omega
  rw [showInt, if_neg least, Int.natAbs_natCast]
  exact (Nat.length_toDigits_le_iff (by decide) some).mpr small

/-- A time as ceph counts it. -/
@[ext]
structure DirTime where
  sec : Nat
  nsec : Nat
  secLt : sec < 2 ^ 63
  nsecLt : nsec < 10 ^ 9

namespace DirTime

def timespec (time : DirTime) : Timespec := ⟨time.sec, time.nsec⟩

/-- `<seconds> + '.09' + <nanoseconds>`. -/
def text (time : DirTime) : CString := showInt time.sec ++ ".09".toList ++ showInt time.nsec

/-- The text fits into the array. -/
def value (time : DirTime) : XattrValue where
  text := time.text
  ended := by
    have first : '\x00' ∉ showInt time.sec := not_mem_showInt _ (by decide) (by decide)
    have second : '\x00' ∉ showInt time.nsec := not_mem_showInt _ (by decide) (by decide)
    simp [text, first, second]
  short := by
    have first : (showInt time.sec).length ≤ 19 :=
      length_showInt_le (by decide) (time.secLt.trans (by decide))
    have second : (showInt time.nsec).length ≤ 9 :=
      length_showInt_le (by decide) time.nsecLt
    have whole : time.text.length =
        (showInt time.sec).length + 3 + (showInt time.nsec).length := by
      simp only [text, List.length_append]
      rfl
    rw [whole, xattrSize]
    omega

theorem text_value (time : DirTime) :
    time.value.text = showInt time.sec ++ '.' :: '0' :: '9' :: showInt time.nsec := by
  simp [value, text]

theorem seconds_value (time : DirTime) : time.value.seconds = showInt time.sec := by
  rw [XattrValue.seconds, text_value]
  exact takeWhile_ne_append (not_mem_showInt _ (by decide) (by decide)) _

/-- Three characters are stepped over. -/
theorem drop_value (time : DirTime) :
    time.value.text.drop (time.value.seconds.length + 3) = showInt time.nsec := by
  rw [seconds_value, text_value]
  simp [List.drop_append]

/-- Both overloads invert the form. -/
theorem readsAs_timespec (time : DirTime) : time.value.ReadsAs time.timespec := by
  have secLt := time.secLt
  have nsecLt := time.nsecLt
  have seconds : IsInt64 time.sec := ⟨by omega, by omega⟩
  have nanoseconds : IsInt64 time.nsec := ⟨by omega, by omega⟩
  obtain ⟨number, first, cast⟩ := stoul_showInt seconds
  have second := stol_showInt nanoseconds
  have point : '.' ∈ time.value.text := by simp [text_value]
  have start : time.value.start = time.value.seconds.length + 3 := if_pos point
  have rest : time.value.text.drop (time.value.seconds.length + 3) ≠ [] := by
    rw [drop_value]
    exact showInt_ne_nil _
  rw [timespec, ← cast]
  refine XattrValue.readsAs_of_numbers (XattrValue.inside_of_rest rest) ?_ ?_ ?_
  · rw [seconds_value, first]
  · rw [start, drop_value, second]
  · rw [drop_value, strtol_of_stol second]

theorem timespec_gt_iff {left right : DirTime} : left.timespec.gt right.timespec = true ↔
    right.sec < left.sec ∨ right.sec = left.sec ∧ right.nsec < left.nsec := by
  simp [Timespec.lt_iff, timespec]

/-- The documented form is read exactly. So two of these texts are read as the same
timestamp only when they are the same, and as ordered as the times they denote. -/
theorem decoded_of_text (time other : DirTime) :
    time.value.ReadsAs time.timespec ∧
    ∀ left right, time.value.ReadsAs left → other.value.ReadsAs right →
      (left = right → time = other) ∧
      (left.gt right = true ↔
        other.sec < time.sec ∨ other.sec = time.sec ∧ other.nsec < time.nsec) := by
  refine ⟨time.readsAs_timespec, fun left right reads reads' => ?_⟩
  obtain rfl := reads.unique time.readsAs_timespec
  obtain rfl := reads'.unique other.readsAs_timespec
  refine ⟨fun same => ?_, timespec_gt_iff⟩
  have seconds := congrArg Timespec.tvSec same
  have nanoseconds := congrArg Timespec.tvNsec same
  ext
  · exact Int.natCast_inj.mp seconds
  · exact Int.natCast_inj.mp nanoseconds

/-- The nanoseconds are not padded. -/
example : (DirTime.mk 1617723712 40 (by decide) (by decide)).text = "1617723712.0940".toList := by
  decide +kernel

end DirTime

end CephGeoRep
