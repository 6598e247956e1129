import CephGeoRep.Config.Reference

/-!
# What a configuration assigns

Every line assigns at most one value to one key, whether or not it is the value on that
line. So any text denotes a list of entries, and if no exception ends the read loop,
then the fields are those of the entries.
-/

namespace CephGeoRep

open Support

/-- The value a line assigns: without `=` the pending one. -/
def assignedValue (pending line : CString) : CString :=
  if '=' ∈ uncommented line then lineValue line else pending

/-- The assignment of a line. -/
def assignmentOf (pending line : CString) : Option (ConfigKey × CString) :=
  if assignedValue pending line = [] then none
  else (ConfigKey.ofText (lineKey line)).map fun known => (known, assignedValue pending line)

/-- What is pending behind the line; one of the assignments changes it. -/
def pendingValue (pending line : CString) : CString :=
  if (assignmentOf pending line).map Prod.fst = some .metadataDirectory then
    assignedValue pending line ++ lastRctimeName
  else assignedValue pending line

/-- The assignments of a list of lines, in order. -/
def assignments : CString → List CString → List (ConfigKey × CString)
  | _, [] => []
  | pending, line :: rest =>
    (assignmentOf pending line).toList ++ assignments (pendingValue pending line) rest

/-- The entries of a text. -/
def entriesOf (text : CString) : List (ConfigKey × CString) := assignments [] (linesRead text)

/-- The assignments, one after the other. -/
def Config.assignAll (config : Config) :
    List (ConfigKey × CString) → Except NumeralError Config
  | [] => .ok config
  | (known, value) :: rest =>
    (config.assign value known).bind fun assigned => assigned.1.assignAll rest

section Run

variable {pending line value : CString} {known : ConfigKey} {config : Config}
  {entries : List (ConfigKey × CString)}

theorem Config.assignAll_append (config : Config) (front back : List (ConfigKey × CString)) :
    config.assignAll (front ++ back) =
      (config.assignAll front).bind fun next => next.assignAll back := by
  induction front generalizing config with
  | nil => rfl
  | cons entry front ih =>
      rw [List.cons_append, assignAll, assignAll]
      cases config.assign entry.2 entry.1 with
      | error thrown => rfl
      | ok assigned => exact ih assigned.1

/-- A line does what its assignment does, and leaves the value that is pending then. -/
theorem Pending.read_eq (pending : Pending) (line : CString) :
    pending.read line =
      (pending.config.assignAll (assignmentOf pending.value line).toList).map fun config =>
        ⟨pendingValue pending.value line, config⟩ := by
  have value : pending.valueOf line = assignedValue pending.value line := rfl
  by_cases empty : assignedValue pending.value line = []
  · have ignored : assignmentOf pending.value line = none := if_pos empty
    rw [read_of_unknown (.inl empty), value, pendingValue, ignored]
    rfl
  cases found : ConfigKey.ofText (lineKey line) with
  | none =>
      have ignored : assignmentOf pending.value line = none := by
        rw [assignmentOf, if_neg empty, found, Option.map_none]
      rw [read_of_unknown (.inr found), value, pendingValue, ignored]
      rfl
  | some known =>
      have assigned : assignmentOf pending.value line =
          some (known, assignedValue pending.value line) := by
        rw [assignmentOf, if_neg empty, found, Option.map_some]
      rw [read_of_known found (value ▸ empty), value, pendingValue, assigned]
      cases result : pending.config.assign (assignedValue pending.value line) known with
      | error thrown => simp [Config.assignAll, result, Except.map, Except.bind]
      | ok next =>
          have left := Config.value_of_assign result
          simp [Config.assignAll, result, Except.map, Except.bind, left]

/-- So do all lines of a text. -/
theorem Pending.readAll_eq (pending : Pending) (lines : List CString) :
    (pending.readAll lines).map Pending.config =
      pending.config.assignAll (assignments pending.value lines) := by
  induction lines generalizing pending with
  | nil => rfl
  | cons line lines ih =>
      rw [readAll, assignments, Config.assignAll_append, read_eq]
      cases pending.config.assignAll (assignmentOf pending.value line).toList with
      | error thrown => rfl
      | ok next => exact ih _

/-- The read loop carries out the assignments of the text. -/
theorem readConfig_eq (text : CString) :
    readConfig text = Config.assignAll {} (entriesOf text) := by
  have loop : (readLoop { rest := text } {}).map ReadVars.pending =
      Pending.readAll {} (linesRead text) := readLoop_spec text {} clean_nil
  have all : (Pending.readAll {} (linesRead text)).map Pending.config =
      Config.assignAll {} (entriesOf text) := Pending.readAll_eq {} (linesRead text)
  rw [readConfig, ← all, ← loop]
  cases readLoop { rest := text } {} <;> rfl

/-- No empty value is assigned. -/
theorem value_ne_nil_of_assignmentOf {entry : ConfigKey × CString}
    (found : assignmentOf pending line = some entry) : entry.2 ≠ [] := by
  rw [assignmentOf] at found
  split at found
  · cases found
  · next nonempty =>
    obtain ⟨_, _, rfl⟩ := Option.map_eq_some_iff.mp found
    exact nonempty

theorem value_ne_nil_of_assignments {lines : List CString} {entry : ConfigKey × CString}
    (member : entry ∈ assignments pending lines) : entry.2 ≠ [] := by
  induction lines generalizing pending with
  | nil => cases member
  | cons line lines ih =>
      rcases List.mem_append.mp member with here | later
      · exact value_ne_nil_of_assignmentOf (Option.mem_toList.mp here)
      · exact ih later

theorem nil_not_mem_valuesOf (nonempty : ∀ entry ∈ entries, entry.2 ≠ []) (known : ConfigKey) :
    [] ∉ valuesOf entries known := by
  intro member
  obtain ⟨entry, listed, empty⟩ := List.mem_map.mp member
  exact nonempty entry (List.mem_of_mem_filter listed) empty

/-- An integer that is too large is not caught. -/
theorem numericField_of_large {number : Int} (leading : leadingInteger value = some number)
    (large : ¬ IsInt32 number) : numericField value = .error .outOfRange := by
  by_cases none : (numeral value).2 = []
  · rw [leadingInteger, if_pos none] at leading
    cases leading
  rw [leadingInteger, if_neg none] at leading
  obtain rfl := Option.some.inj leading
  have thrown : stoi value = .error .outOfRange := by
    by_cases wide : IsInt64 (numeralValue (numeral value))
    · rw [stoi, stol_eq_ok_iff.mpr ⟨⟨none, wide⟩, rfl⟩]
      exact if_neg large
    · rw [stoi, stol_eq_outOfRange_iff.mpr ⟨none, wide⟩]
  rw [numericField, thrown]

/-- The value of a numeric key is stored, unless it is too large. -/
theorem fits_of_assign {next : Config × CString} (numeric : known.isNumeric = true)
    (assigned : config.assign value known = .ok next) :
    ∀ number ∈ leadingInteger value, IsInt32 number := by
  intro number leading
  by_contra large
  have thrown := numericField_of_large (Option.mem_def.mp leading) large
  cases known with
  | syncPeriod | propagationDelay | logLevel | processes | threads =>
      obtain ⟨_, read, _⟩ := numericField_of_map assigned
      rw [thrown] at read
      cases read
  | _ => cases numeric

/-- A run of assignments that does not throw has met no such value. -/
theorem numbersFit_of_assignAll {result : Config}
    (finished : config.assignAll entries = .ok result) : NumbersFit entries := by
  induction entries generalizing config with
  | nil => exact fun _ member => nomatch member
  | cons entry entries ih =>
      obtain ⟨known, value⟩ := entry
      rw [Config.assignAll] at finished
      cases assigned : config.assign value known with
      | error thrown =>
          rw [assigned] at finished
          cases finished
      | ok next =>
          rw [assigned] at finished
          intro entry member numeric
          rcases List.mem_cons.mp member with rfl | later
          · exact fits_of_assign numeric assigned
          · exact ih finished entry later numeric

/-- Otherwise the fields are those of the entries. -/
theorem assignAll_referenceConfig {before : List (ConfigKey × CString)}
    (nonempty : ∀ entry ∈ before ++ entries, entry.2 ≠ []) (fits : NumbersFit entries) :
    (referenceConfig before).assignAll entries = .ok (referenceConfig (before ++ entries)) := by
  induction entries generalizing before with
  | nil => rw [List.append_nil, Config.assignAll]
  | cons entry entries ih =>
      obtain ⟨known, value⟩ := entry
      have solid := nil_not_mem_valuesOf
        (fun entry member => nonempty entry (List.mem_append_left _ member)) .destination
      have effect := assign_referenceConfig solid (fits _ List.mem_cons_self)
      rw [List.append_cons] at nonempty ⊢
      rw [Config.assignAll]
      cases assigned : (referenceConfig before).assign value known with
      | error thrown =>
          rw [assigned] at effect
          cases effect
      | ok next =>
          rw [assigned] at effect
          rw [← ih nonempty fun entry member => fits entry (List.mem_cons_of_mem _ member),
            ← Except.ok.inj effect]
          rfl

theorem numbersFit_append {before : List (ConfigKey × CString)}
    (fits : NumbersFit (before ++ entries)) : NumbersFit before :=
  fun entry member => fits entry (List.mem_append_left _ member)

/-- When the read loop gets to the end of the file. -/
theorem readConfig_ok_iff (text : CString) :
    (∃ config, readConfig text = .ok config) ↔ NumbersFit (entriesOf text) := by
  rw [readConfig_eq]
  constructor
  · rintro ⟨config, finished⟩
    exact numbersFit_of_assignAll finished
  · intro fits
    exact ⟨_, @assignAll_referenceConfig _ []
      (fun entry member => value_ne_nil_of_assignments member) fits⟩

/-- What it has read then, whatever the lines look like. -/
theorem readConfig_entriesOf {text : CString} (finished : readConfig text = .ok config) :
    config = referenceConfig (entriesOf text) := by
  have fits := (readConfig_ok_iff text).mp ⟨config, finished⟩
  have all := @assignAll_referenceConfig _ []
    (fun entry member => value_ne_nil_of_assignments member) fits
  rw [readConfig_eq] at finished
  exact Except.ok.inj (finished.symm.trans all)

theorem Config.ofText_entriesOf {text : CString} {overrides : ConfigOverrides}
    (read : Config.ofText text overrides = .ok config) :
    config = (referenceConfig (entriesOf text)).overrideFields overrides := by
  rw [ofText] at read
  cases finished : readConfig text with
  | error thrown =>
      rw [finished] at read
      cases read
  | ok config' =>
      rw [finished] at read
      rw [← readConfig_entriesOf finished]
      exact (Except.ok.inj read).symm

end Run

end CephGeoRep
