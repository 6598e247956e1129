import CephGeoRep.Data.Numeral
import CephGeoRep.Support.Stream

/-!
# The watermark

`class LastRctime`: how timestamps of entries are read, and how the watermark is
compared, kept on disk and read back. The two overloads of `get_rctime` parse the
attribute `ceph.dir.rctime` with different library calls.
-/

namespace CephGeoRep

/-- What `lstat` and `lgetxattr(..., "ceph.dir.rctime", ...)` return for an entry;
`none` is a failed read of the attribute. -/
structure Attributes where
  stat : Stat
  rctime : Option CString
deriving DecidableEq

/-- `get_rctime(const File &)`. The buffer is filled with zeros, so reading past the
end of the value yields an empty text. -/
def getRctimeOfFile (file : File) (rctime : Option CString) : Timespec :=
  if file.isDirectory then
    match rctime with
    | none => .zero
    | some value =>
      let seconds := value.takeWhile (· ≠ '.')
      ⟨timeT (strtoul seconds), strtol (value.drop (seconds.length + 3))⟩
  else file.rctime

/-- `get_rctime(const fs::path &)`. Without a point, `find` returns `npos`, and
`npos + 3` is 2; `substr` throws when it starts behind the end. -/
def getRctime (entry : Attributes) : Except NumeralError Timespec :=
  if entry.stat.isDir then
    match entry.rctime with
    | none => .ok .zero
    | some value =>
      let seconds := value.takeWhile (· ≠ '.')
      let start := if '.' ∈ value then seconds.length + 3 else 2
      match stoul seconds with
      | .error thrown => .error thrown
      | .ok tvSec =>
        if value.length < start then .error .outOfRange
        else (stol (value.drop start)).map fun tvNsec => ⟨timeT tvSec, tvNsec⟩
  else .ok entry.stat.mtime

/-- `LastRctime::is_newer`. -/
def isNewer (lastRctime : Timespec) (file : File) (rctime : Option CString) : Bool :=
  (getRctimeOfFile file rctime).gt lastRctime

/-- The loop of `LastRctime::check_for_change`, with `change` and `new_rctime`. -/
def checkForChange (lastRctime : Timespec) :
    List Attributes → Bool × Timespec → Except NumeralError (Bool × Timespec)
  | [], result => .ok result
  | entry :: rest, (change, newRctime) =>
    match getRctime entry with
    | .error thrown => .error thrown
    | .ok tempRctime =>
      if tempRctime.gt lastRctime then
        checkForChange lastRctime rest
          (true, if tempRctime.gt newRctime then tempRctime else newRctime)
      else checkForChange lastRctime rest (change, newRctime)

/-- The text of `init_last_rctime`. -/
def initLastRctime : CString := "0.0\n".toList

/-- The text of `LastRctime::write_last_rctime`. -/
def writeLastRctime (lastRctime : Timespec) : CString :=
  showInt lastRctime.tvSec ++ '.' :: (showInt lastRctime.tvNsec ++ ['\n'])

/-- The constructor, given the content of the file: the watermark and the content it
leaves. When the text has no point the second `getline` fails at once and leaves
`str` as it was. Only `std::invalid_argument` is caught. -/
def readLastRctime (disk : Option CString) : Except NumeralError (Timespec × CString) :=
  let content := disk.getD initLastRctime
  let seconds := content.takeWhile (· ≠ '.')
  let nanoseconds :=
    if '.' ∈ content then (content.drop (seconds.length + 1)).takeWhile (· ≠ '\n')
    else seconds
  match stoul seconds, stol nanoseconds with
  | .ok tvSec, .ok tvNsec => .ok (⟨timeT tvSec, tvNsec⟩, content)
  | .error .outOfRange, _ => .error .outOfRange
  | .ok _, .error .outOfRange => .error .outOfRange
  | _, _ => .ok (.zero, initLastRctime)

/-- Both fields are numbers of 64 bits. -/
def Timespec.IsMachine (time : Timespec) : Prop := IsInt64 time.tvSec ∧ IsInt64 time.tvNsec

instance (time : Timespec) : Decidable time.IsMachine :=
  inferInstanceAs (Decidable (IsInt64 time.tvSec ∧ IsInt64 time.tvNsec))

/-- The constructor reads back what `write_last_rctime` wrote. -/
theorem readLastRctime_writeLastRctime {time : Timespec} (machine : time.IsMachine) :
    readLastRctime (some (writeLastRctime time)) = .ok (time, writeLastRctime time) := by
  obtain ⟨seconds, nanoseconds⟩ := machine
  have first : (writeLastRctime time).takeWhile (· ≠ '.') = showInt time.tvSec :=
    Support.takeWhile_ne_append (not_mem_showInt _ (by decide) (by decide)) _
  have behind : (writeLastRctime time).drop ((showInt time.tvSec).length + 1) =
      showInt time.tvNsec ++ ['\n'] := by
    simp [writeLastRctime]
  have second : (showInt time.tvNsec ++ ['\n']).takeWhile (· ≠ '\n') = showInt time.tvNsec :=
    Support.takeWhile_ne_append (not_mem_showInt _ (by decide) (by decide)) []
  have point : '.' ∈ writeLastRctime time := by simp [writeLastRctime]
  obtain ⟨number, read, cast⟩ := stoul_showInt seconds
  have read' := stol_showInt nanoseconds
  rw [readLastRctime]
  simp only [Option.getD_some, first, point, ↓reduceIte, behind, second, read, read', cast]

theorem isMachine_zero : Timespec.zero.IsMachine := by
  simp [Timespec.IsMachine, IsInt64, Timespec.zero]

/-- Seconds from `stoul`, cast to `time_t`, and nanoseconds from `stol`. -/
theorem isMachine_of_texts (tvSec : Nat) {text : CString} {tvNsec : Int}
    (read : stol text = .ok tvNsec) : Timespec.IsMachine ⟨timeT tvSec, tvNsec⟩ := by
  have seconds := isInt64_timeT tvSec
  have nanoseconds := isInt64_of_stol read
  generalize timeT tvSec = value at seconds
  exact ⟨seconds, nanoseconds⟩

/-- The initial text is that of the zero timestamp. -/
theorem readLastRctime_init :
    readLastRctime (some initLastRctime) = .ok (.zero, initLastRctime) := by
  have same : initLastRctime = writeLastRctime .zero := by decide
  rw [same]
  exact readLastRctime_writeLastRctime isMachine_zero

/-- What the constructor reads is a machine timestamp, and it would read the same from
the content it leaves. -/
theorem readLastRctime_again {disk : Option CString} {rctime : Timespec} {content : CString}
    (read : readLastRctime disk = .ok (rctime, content)) :
    rctime.IsMachine ∧ readLastRctime (some content) = .ok (rctime, content) := by
  have again : readLastRctime (some (disk.getD initLastRctime)) = readLastRctime disk := by
    simp only [readLastRctime, Option.getD_some]
  have known := read
  rw [readLastRctime] at read
  split at read
  · next tvSec tvNsec seconds nanoseconds =>
    obtain ⟨sameRctime, sameContent⟩ := Prod.mk.inj (Except.ok.inj read)
    constructor
    · rw [← sameRctime]
      exact isMachine_of_texts tvSec nanoseconds
    · rw [← sameContent] at known ⊢
      exact again.trans known
  · exact nomatch read
  · exact nomatch read
  · obtain ⟨sameRctime, sameContent⟩ := Prod.mk.inj (Except.ok.inj read)
    rw [← sameRctime, ← sameContent]
    exact ⟨isMachine_zero, readLastRctime_init⟩

/-- The timestamp a file holds for the next run. -/
def timestamp (disk : Option CString) : Except NumeralError Timespec :=
  (readLastRctime disk).map Prod.fst

theorem timestamp_of_read {disk : Option CString} {read : Timespec × CString}
    (found : readLastRctime disk = .ok read) : timestamp disk = .ok read.1 := by
  rw [timestamp, found]
  rfl

theorem timestamp_writeLastRctime {time : Timespec} (machine : time.IsMachine) :
    timestamp (some (writeLastRctime time)) = .ok time :=
  timestamp_of_read (readLastRctime_writeLastRctime machine)

/-- What `get_rctime` returns is a machine timestamp. -/
theorem isMachine_of_getRctime {entry : Attributes} {rctime : Timespec}
    (machine : entry.stat.mtime.IsMachine) (read : getRctime entry = .ok rctime) :
    rctime.IsMachine := by
  rw [getRctime] at read
  by_cases directory : entry.stat.isDir = true
  · rw [if_pos directory] at read
    cases value : entry.rctime with
    | none =>
        rw [value] at read
        rw [← Except.ok.inj read]
        exact isMachine_zero
    | some value' =>
        rw [value] at read
        simp only at read
        generalize (if '.' ∈ value' then _ else _) = start at read
        split at read
        · exact nomatch read
        · next tvSec _ =>
          split at read
          · exact nomatch read
          · cases nanoseconds : stol (value'.drop start) with
            | error thrown =>
                rw [nanoseconds] at read
                exact nomatch read
            | ok tvNsec =>
                rw [nanoseconds] at read
                rw [← Except.ok.inj read]
                exact isMachine_of_texts tvSec nanoseconds
  · rw [if_neg directory] at read
    rw [← Except.ok.inj read]
    exact machine

/-- What `check_for_change` returns: `new_rctime` never falls; the change flag is set
by the entries that are newer than the watermark, and `new_rctime` is at least as new
as these. -/
theorem checkForChange_spec {lastRctime newRctime : Timespec} {entries : List Attributes}
    {change : Bool} {result : Bool × Timespec}
    (returned : checkForChange lastRctime entries (change, newRctime) = .ok result) :
    newRctime ≤ result.2 ∧
    (result.1 = true ↔ change = true ∨
      ∃ entry ∈ entries, ∃ rctime, getRctime entry = .ok rctime ∧ lastRctime < rctime) ∧
    (∀ entry ∈ entries, ∀ rctime, getRctime entry = .ok rctime → lastRctime < rctime →
      rctime ≤ result.2) ∧
    (result.2 = newRctime ∨ ∃ entry ∈ entries, getRctime entry = .ok result.2) := by
  induction entries generalizing change newRctime with
  | nil =>
      cases returned
      simp
  | cons entry rest ih =>
      rw [checkForChange] at returned
      cases read : getRctime entry with
      | error thrown => rw [read] at returned; cases returned
      | ok rctime =>
          rw [read] at returned
          simp only [Timespec.gt_iff] at returned
          simp only [List.mem_cons, exists_eq_or_imp, forall_eq_or_imp, read, Except.ok.injEq,
            exists_eq_left', forall_eq']
          by_cases newer : lastRctime < rctime
          · rw [if_pos newer] at returned
            obtain ⟨least, changed, above, source⟩ := ih returned
            have both : newRctime ≤ result.2 ∧ rctime ≤ result.2 := by
              by_cases highest : newRctime < rctime
              · rw [if_pos highest] at least
                exact ⟨highest.le.trans least, least⟩
              · rw [if_neg highest] at least
                exact ⟨least, (not_lt.mp highest).trans least⟩
            refine ⟨both.1, ?_, ⟨fun _ => both.2, above⟩, ?_⟩
            · simp [changed, newer]
            · rcases source with same | later
              · by_cases highest : newRctime < rctime
                · rw [if_pos highest] at same
                  exact .inr (.inl same.symm)
                · rw [if_neg highest] at same
                  exact .inl same
              · exact .inr (.inr later)
          · rw [if_neg newer] at returned
            obtain ⟨least, changed, above, source⟩ := ih returned
            refine ⟨least, ?_, ⟨fun newer' => absurd newer' newer, above⟩, ?_⟩
            · simp [changed, newer]
            · exact source.imp_right .inr

/-- A change comes with a later `new_rctime`. -/
theorem lt_of_checkForChange {lastRctime newRctime final : Timespec} {entries : List Attributes}
    (returned : checkForChange lastRctime entries (false, newRctime) = .ok (true, final)) :
    lastRctime < final := by
  obtain ⟨_, changed, above, _⟩ := checkForChange_spec returned
  rcases changed.mp rfl with impossible | ⟨entry, member, rctime, read, newer⟩
  · cases impossible
  · exact newer.trans_le (above entry member rctime read newer)

theorem isMachine_of_checkForChange {lastRctime newRctime : Timespec} {entries : List Attributes}
    {change : Bool} {result : Bool × Timespec} (machine : newRctime.IsMachine)
    (times : ∀ entry ∈ entries, entry.stat.mtime.IsMachine)
    (returned : checkForChange lastRctime entries (change, newRctime) = .ok result) :
    result.2.IsMachine := by
  rcases (checkForChange_spec returned).2.2.2 with same | ⟨entry, member, read⟩
  · rw [same]
    exact machine
  · exact isMachine_of_getRctime (times entry member) read

/-- When every entry can be read, `check_for_change` returns. -/
theorem checkForChange_returns {lastRctime : Timespec} {entries : List Attributes}
    (readable : ∀ entry ∈ entries, ∃ rctime, getRctime entry = .ok rctime)
    (result : Bool × Timespec) : ∃ final, checkForChange lastRctime entries result = .ok final := by
  induction entries generalizing result with
  | nil => exact ⟨result, rfl⟩
  | cons entry rest ih =>
      obtain ⟨rctime, read⟩ := readable entry List.mem_cons_self
      have later := ih fun entry member => readable entry (List.mem_cons_of_mem _ member)
      rw [checkForChange, read]
      simp only
      split
      · exact later _
      · exact later _

/-- When one of them is newer, it returns true. -/
theorem checkForChange_of_newer {lastRctime rctime : Timespec} {entries : List Attributes}
    {entry : Attributes} (readable : ∀ entry ∈ entries, ∃ rctime, getRctime entry = .ok rctime)
    (member : entry ∈ entries) (read : getRctime entry = .ok rctime) (newer : lastRctime < rctime)
    (newRctime : Timespec) :
    ∃ final, checkForChange lastRctime entries (false, newRctime) = .ok (true, final) := by
  obtain ⟨⟨change, final⟩, returned⟩ := checkForChange_returns readable (false, newRctime)
  have changed : change = true :=
    (checkForChange_spec returned).2.1.mpr (.inr ⟨entry, member, rctime, read, newer⟩)
  exact ⟨final, changed ▸ returned⟩

end CephGeoRep
