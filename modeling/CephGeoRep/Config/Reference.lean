import CephGeoRep.Config.Lines

/-!
# The format that the configuration file is meant to have

A text in which every line, up to its comment, is blank or an assignment denotes a
list of entries, and each field is a function of the values assigned to its key.
On such texts the read loop computes these fields.
-/

namespace CephGeoRep

open Support

/-- The assignment in a line, if it has a known key and a value. -/
def entryOf (line : CString) : Option (ConfigKey × CString) :=
  if '=' ∈ uncommented line ∧ lineValue line ≠ [] then
    (ConfigKey.ofText (lineKey line)).map fun known => (known, lineValue line)
  else none

/-- The values of a key, in the order of their lines. -/
def valuesOf (entries : List (ConfigKey × CString)) (known : ConfigKey) : List CString :=
  (entries.filter fun entry => entry.1 = known).map Prod.snd

/-- The value in the last line that assigns a key. -/
def lastValue (entries : List (ConfigKey × CString)) (known : ConfigKey) : Option CString :=
  (valuesOf entries known).getLast?

/-- The integer that a text starts with, behind white space. -/
def leadingInteger (value : CString) : Option Int :=
  if (numeral value).2 = [] then none else some (numeralValue (numeral value))

/-- A numeric field: the leading integer of the last value, or -1. -/
def referenceNumber (entries : List (ConfigKey × CString)) (known : ConfigKey) : Int :=
  ((lastValue entries known).bind leadingInteger).getD (-1)

/-- A flag is set by every value that is not white space only. -/
def referenceFlag (entries : List (ConfigKey × CString)) (known : ConfigKey) : Bool :=
  (valuesOf entries known).foldl (fun flag value => booleanField value flag) false

/-- The fields that a list of entries denotes. -/
def referenceConfig (entries : List (ConfigKey × CString)) : Config where
  logLevel := referenceNumber entries .logLevel
  nproc := referenceNumber entries .processes
  threads := referenceNumber entries .threads
  ignoreHidden := referenceFlag entries .ignoreHidden
  ignoreWinLock := referenceFlag entries .ignoreWindowsLock
  ignoreVimSwap := referenceFlag entries .ignoreVimSwap
  syncPeriodS := referenceNumber entries .syncPeriod
  propDelayMs := referenceNumber entries .propagationDelay
  lastRctimePath := ((lastValue entries .metadataDirectory).map (· ++ lastRctimeName)).getD []
  execBin := (lastValue entries .exec).getD []
  execFlags := (lastValue entries .flags).getD []
  basePath := (lastValue entries .sourceDirectory).getD []
  remoteUser := (lastValue entries .remoteUser).getD []
  remoteHost := (lastValue entries .remoteHost).getD []
  remoteDirectory := (lastValue entries .remoteDirectory).getD []
  destinations := List.intercalate [','] (valuesOf entries .destination)

/-- The keys of the numeric fields. -/
def ConfigKey.isNumeric : ConfigKey → Bool
  | .syncPeriod | .propagationDelay | .logLevel | .processes | .threads => true
  | _ => false

/-- Every integer given to a numeric key is an `int`. -/
def NumbersFit (entries : List (ConfigKey × CString)) : Prop :=
  ∀ entry ∈ entries, entry.1.isNumeric = true →
    ∀ number ∈ leadingInteger entry.2, IsInt32 number

/-- A line that is blank up to its comment, or an assignment. -/
def WellFormed (line : CString) : Prop :=
  (uncommented line).all isBlank = true ∨ '=' ∈ uncommented line

instance (entries : List (ConfigKey × CString)) : Decidable (NumbersFit entries) :=
  inferInstanceAs (Decidable (∀ entry ∈ entries, entry.1.isNumeric = true →
    ∀ number ∈ leadingInteger entry.2, IsInt32 number))

instance (line : CString) : Decidable (WellFormed line) :=
  inferInstanceAs (Decidable ((uncommented line).all isBlank = true ∨ '=' ∈ uncommented line))

/-! ## Entries and fields -/

section Entries

variable {entries : List (ConfigKey × CString)} {known : ConfigKey} {value : CString}

theorem valuesOf_concat_self :
    valuesOf (entries ++ [(known, value)]) known = valuesOf entries known ++ [value] := by
  simp [valuesOf]

/-- A number that fits is what `stoi` returns; without one the field becomes -1. -/
theorem numericField_eq
    (fits : ∀ number ∈ leadingInteger value, IsInt32 number) :
    numericField value = .ok ((leadingInteger value).getD (-1)) := by
  by_cases none : (numeral value).2 = []
  · simp [numericField, stoi, stol, leadingInteger, none]
  · have found : leadingInteger value = some (numeralValue (numeral value)) := if_neg none
    have small := fits _ found
    obtain ⟨least, most⟩ := small
    have inside : ¬ (numeralValue (numeral value) < -2 ^ 63 ∨
        2 ^ 63 ≤ numeralValue (numeral value)) := by omega
    simp only [numericField, stoi, stol, List.isEmpty_iff, none, inside, ↓reduceIte, found,
      Option.getD_some, if_pos (show IsInt32 _ from ⟨least, most⟩)]

/-- Joining one more name. -/
theorem intercalate_concat {sep : CString} {names : List CString} (nonempty : names ≠ []) :
    List.intercalate sep (names ++ [value]) = List.intercalate sep names ++ sep ++ value := by
  induction names with
  | nil => exact absurd rfl nonempty
  | cons name names ih =>
      by_cases alone : names = []
      · subst alone
        simp [List.intercalate_cons_cons]
      · rw [List.cons_append, List.intercalate_cons_of_ne_nil (by simp), ih alone,
          List.intercalate_cons_of_ne_nil alone]
        simp only [List.append_assoc]

/-- Nonempty names join to a nonempty text. -/
theorem intercalate_eq_nil_iff {names : List CString} (solid : [] ∉ names) :
    List.intercalate [','] names = [] ↔ names = [] := by
  cases names with
  | nil => simp
  | cons name names =>
      have first : name ≠ [] := fun none => solid (none ▸ List.mem_cons_self)
      by_cases alone : names = []
      · simp [alone, first]
      · simp [List.intercalate_cons_of_ne_nil alone]

/-- The destinations with one more. -/
theorem destinations_concat (value : CString) (solid : [] ∉ valuesOf entries .destination) :
    (referenceConfig (entries ++ [(.destination, value)])).destinations =
      if (referenceConfig entries).destinations.isEmpty then value
      else (referenceConfig entries).destinations ++ ',' :: value := by
  simp only [referenceConfig, valuesOf_concat_self, List.isEmpty_iff, intercalate_eq_nil_iff solid]
  split
  · next none => simp [none]
  · next some =>
    rw [intercalate_concat some]
    simp

/-- An assignment moves the fields to those of one more entry. -/
theorem assign_referenceConfig (solid : [] ∉ valuesOf entries .destination)
    (fits : known.isNumeric = true → ∀ number ∈ leadingInteger value, IsInt32 number) :
    ((referenceConfig entries).assign value known).map Prod.fst =
      .ok (referenceConfig (entries ++ [(known, value)])) := by
  cases known with
  | destination =>
      have joined := destinations_concat value solid
      simp only [Config.assign, Except.map, ← joined]
      simp [referenceConfig, referenceNumber, referenceFlag, lastValue, valuesOf]
  | syncPeriod | propagationDelay | logLevel | processes | threads =>
      simp only [Config.assign, numericField_eq (fits rfl), Except.map]
      simp [referenceConfig, referenceNumber, referenceFlag, lastValue, valuesOf]
  | _ =>
      simp [Config.assign, Except.map, referenceConfig, referenceNumber, referenceFlag, lastValue,
        valuesOf]

end Entries

/-! ## Lines and entries -/

/-- No entry has an empty value. -/
theorem value_ne_nil_of_entryOf {line : CString} {entry : ConfigKey × CString}
    (found : entryOf line = some entry) : entry.2 ≠ [] := by
  rw [entryOf] at found
  split at found
  · next assigned =>
    obtain ⟨known, -, rfl⟩ := Option.map_eq_some_iff.mp found
    exact assigned.2
  · cases found

/-- A line without an entry leaves the fields alone. -/
theorem read_of_entryOf_none (pending : Pending) {line : CString} (formed : WellFormed line)
    (none : entryOf line = none) : (pending.read line).map Pending.config = .ok pending.config := by
  have ignored : pending.valueOf line = [] ∨ ConfigKey.ofText (lineKey line) = Option.none := by
    rw [entryOf] at none
    split at none
    · exact .inr (Option.map_eq_none_iff.mp none)
    · next unassigned =>
      by_cases equals : '=' ∈ uncommented line
      · left
        rw [Pending.valueOf, if_pos equals]
        by_contra value
        exact unassigned ⟨equals, value⟩
      · right
        have blank : trim isBlank (uncommented line) = [] :=
          trim_eq_nil_iff.mpr (List.all_eq_true.mp (formed.resolve_right equals))
        rw [lineKey, takeWhile_ne_of_not_mem equals, blank]
        rfl
  rw [Pending.read_of_unknown ignored]
  rfl

/-- A line with an entry assigns it. -/
theorem read_of_entryOf_some (pending : Pending) {line : CString} {known : ConfigKey}
    {value : CString} (some : entryOf line = some (known, value)) :
    (pending.read line).map Pending.config =
      (pending.config.assign value known).map Prod.fst := by
  rw [entryOf] at some
  split at some
  · next assigned =>
    obtain ⟨known', found, same⟩ := Option.map_eq_some_iff.mp some
    cases same
    have value : pending.valueOf line = lineValue line := if_pos assigned.1
    rw [Pending.read_of_known found (by rw [value]; exact assigned.2), value]
    cases pending.config.assign (lineValue line) known <;> rfl
  · cases some

/-- The lines of a text move the fields to those of all entries. -/
theorem readAll_reference {lines : List CString} (entries : List (ConfigKey × CString))
    (pending : Pending) (start : pending.config = referenceConfig entries)
    (solid : ∀ entry ∈ entries, entry.2 ≠ [])
    (formed : ∀ line ∈ lines, WellFormed line)
    (fits : NumbersFit (lines.filterMap entryOf)) :
    (pending.readAll lines).map Pending.config =
      .ok (referenceConfig (entries ++ lines.filterMap entryOf)) := by
  induction lines generalizing entries pending with
  | nil =>
      rw [List.filterMap_nil, List.append_nil, ← start]
      rfl
  | cons line lines ih =>
      have formed' : ∀ line ∈ lines, WellFormed line :=
        fun line member => formed line (List.mem_cons_of_mem _ member)
      rw [Pending.readAll]
      cases found : entryOf line with
      | none =>
          rw [List.filterMap_cons_none found] at fits ⊢
          have effect := read_of_entryOf_none pending (formed line List.mem_cons_self) found
          cases next : pending.read line with
          | error thrown =>
              rw [next] at effect
              cases effect
          | ok next' =>
              rw [next] at effect
              exact ih _ _ ((Except.ok.inj effect).trans start) solid formed' fits
      | some entry =>
          rw [List.filterMap_cons_some found] at fits ⊢
          obtain ⟨known, value⟩ := entry
          have named : [] ∉ valuesOf entries .destination := by
            intro member
            obtain ⟨entry, member', empty⟩ := List.mem_map.mp member
            exact solid entry (List.mem_of_mem_filter member') empty
          have effect := read_of_entryOf_some pending found
          rw [start, assign_referenceConfig named (fits _ List.mem_cons_self)] at effect
          have solid' : ∀ entry ∈ entries ++ [(known, value)], entry.2 ≠ [] := by
            intro entry member
            rw [List.mem_append, List.mem_singleton] at member
            obtain before | rfl := member
            · exact solid entry before
            · exact value_ne_nil_of_entryOf found
          have fits' : NumbersFit (lines.filterMap entryOf) :=
            fun entry member => fits entry (List.mem_cons_of_mem _ member)
          rw [List.append_cons]
          cases next : pending.read line with
          | error thrown =>
              rw [next] at effect
              cases effect
          | ok next' =>
              rw [next] at effect
              exact ih _ _ (Except.ok.inj effect) solid' formed' fits'

/-- On a text of well-formed lines the read loop computes the fields of its entries. -/
theorem readConfig_reference (lines : List (Piece '\n'))
    (formed : ∀ line ∈ lines, WellFormed line.1)
    (fits : NumbersFit (lines.filterMap fun line => entryOf line.1)) :
    readConfig (terminated lines) =
      .ok (referenceConfig (lines.filterMap fun line => entryOf line.1)) := by
  have entries : lines.unattach.filterMap entryOf =
      lines.filterMap fun line => entryOf line.1 := by
    rw [List.unattach, List.filterMap_map]
    rfl
  have formed' : ∀ line ∈ lines.unattach, WellFormed line := by
    intro line member
    obtain ⟨line', member', rfl⟩ := List.mem_map.mp member
    exact formed line' member'
  rw [← entries] at fits
  have read := readAll_reference [] {} rfl (by simp) formed' fits
  rw [List.nil_append, entries, ← readLoop_of_terminated] at read
  rw [← read, readConfig]
  cases readLoop { rest := terminated lines } {} <;> rfl

/-- A comment, a repeated key and a value that is not a number. -/
theorem readConfig_reference_sample :
    readConfig (terminated (pieces '\n'
      "Destination = a:/x \t# first\n\n  Destination=b:/y=1\nThreads = many\n".toList).1) =
      .ok { destinations := "a:/x,b:/y=1".toList, threads := -1 } :=
  (readConfig_reference _ (by decide +kernel) (by decide +kernel)).trans (by decide +kernel)

end CephGeoRep
