import CephGeoRep.Config.Verify

/-!
# The dump of a configuration

With the log level 2 `Config::dump` prints the fields under the names that the parser
knows. `Reads` says what the parser makes of a line whatever is pending, and the lines of
a dump are described by it, so the text can be read back: every field returns, except
that `last_rctime.dat` is appended to the metadata path once more.
-/

namespace CephGeoRep

open Support

/-! ## Lines that read the same whatever is pending -/

/-- A trimmed text on one line. -/
def Neat (text : CString) : Prop := Clean text ∧ '\n' ∉ text

/-- What the parser makes of a line. -/
structure Reads (line : CString) (entry : Option (ConfigKey × CString)) : Prop where
  single : '\n' ∉ line
  assigns : ∀ pending, assignmentOf pending line = entry

/-- The entry of a field; a field that is empty has none. -/
def fieldEntry (field : ConfigKey × CString) : Option (ConfigKey × CString) :=
  if field.2 = [] then none else some field

variable {line chars value : CString} {known : ConfigKey} {lines : List CString}

/-- A heading, or an empty line. -/
theorem reads_heading (single : '\n' ∉ line) (unknown : ConfigKey.ofText (lineKey line) = none) :
    Reads line none := by
  refine ⟨single, fun pending => ?_⟩
  rw [assignmentOf, unknown]
  split <;> rfl

theorem reads_written {key : CString} (written : Written line key value) (single : '\n' ∉ line)
    (cleanKey : Clean key) (noEquals : '=' ∉ key) (found : ConfigKey.ofText key = some known)
    (cleanValue : Clean value) : Reads line (fieldEntry (known, value)) := by
  refine ⟨single, fun pending => ?_⟩
  obtain ⟨equals, isKey, isValue⟩ := written.read cleanKey noEquals cleanValue
  rw [assignmentOf, assignedValue, if_pos equals, isKey, isValue, found, fieldEntry]
  split <;> rfl

/-- The names of the keys. -/
def ConfigKey.name : ConfigKey → CString
  | .sourceDirectory => "Source Directory".toList
  | .remoteUser => "Remote User".toList
  | .remoteHost => "Remote Host".toList
  | .remoteDirectory => "Remote Directory".toList
  | .destination => "Destination".toList
  | .metadataDirectory => "Metadata Directory".toList
  | .syncPeriod => "Sync Period".toList
  | .ignoreHidden => "Ignore Hidden".toList
  | .ignoreWindowsLock => "Ignore Windows Lock".toList
  | .ignoreVimSwap => "Ignore Vim Swap".toList
  | .propagationDelay => "Propagation Delay".toList
  | .logLevel => "Log Level".toList
  | .exec => "Exec".toList
  | .flags => "Flags".toList
  | .processes => "Processes".toList
  | .threads => "Threads".toList

theorem ofText_name (known : ConfigKey) : ConfigKey.ofText known.name = some known := by
  cases known <;> decide

theorem neat_name (known : ConfigKey) : Neat known.name ∧ '=' ∉ known.name := by
  cases known <;> exact ⟨⟨⟨by decide, by decide⟩, by decide⟩, by decide⟩

/-- A value behind a label: a name, a blank, `=` and blanks. -/
theorem reads_labelled {label : CString} (known : ConfigKey) (pad : CString)
    (shape : label = known.name ++ ' ' :: '=' :: pad) (blanks : pad.all isBlank = true)
    (neat : Neat value) : Reads (label ++ value) (fieldEntry (known, value)) := by
  obtain ⟨name, noEquals⟩ := neat_name known
  have pads := List.all_eq_true.mp blanks
  have noNewline : '\n' ∉ pad := not_mem_of_blank pads (by decide)
  apply reads_written _ _ name.1 noEquals (ofText_name known) neat.1
  · refine ⟨[], [' '], pad, [], [], by simp [shape], ?_, .inl rfl⟩
    simpa [isBlank] using pads
  · simp [shape, name.2, neat.2, noNewline]

/-- The assignments of such lines do not depend on each other. -/
theorem assignments_of_reads {entries : List (Option (ConfigKey × CString))}
    (reads : List.Forall₂ Reads lines entries) (pending : CString) :
    assignments pending lines = entries.reduceOption := by
  induction reads generalizing pending with
  | nil => rfl
  | @cons line entry lines entries here _ ih =>
      rw [assignments, here.assigns pending, ih]
      cases entry <;> rfl

/-- The values of a key, without the empty ones. -/
theorem valuesOf_filterMap (fields : List (ConfigKey × CString)) (known : ConfigKey) :
    valuesOf (fields.filterMap fieldEntry) known =
      (valuesOf fields known).filter fun value => value ≠ [] := by
  induction fields with
  | nil => rfl
  | cons field fields ih =>
      obtain ⟨key, value⟩ := field
      by_cases empty : value = []
      · rw [List.filterMap_cons_none (by rw [fieldEntry, if_pos empty]), ih]
        by_cases same : key = known <;> simp [valuesOf, same, empty]
      · rw [List.filterMap_cons_some (by rw [fieldEntry, if_neg empty])]
        rw [valuesOf] at ih ⊢
        by_cases same : key = known <;> simp [valuesOf, same, empty, ih]

theorem linesRead_textOf {entries : List (Option (ConfigKey × CString))}
    (reads : List.Forall₂ Reads lines entries) : linesRead (textOf lines) = lines ++ [[], []] := by
  induction reads with
  | nil => rfl
  | @cons line entry lines entries first _ ih =>
      have here : linesRead (line ++ '\n' :: textOf lines) = line :: linesRead (textOf lines) :=
        linesRead_append_cons ⟨line, first.single⟩ _
      rw [textOf, List.flatMap_cons, List.append_assoc, List.singleton_append, ← textOf, here, ih,
        List.cons_append]

/-- The entries of a text whose lines are described. -/
theorem entriesOf_textOf {entries : List (Option (ConfigKey × CString))}
    (reads : List.Forall₂ Reads lines entries) :
    entriesOf (textOf lines) = entries.reduceOption := by
  have blank : Reads [] none := reads_heading (by decide) (by decide)
  have all : List.Forall₂ Reads (lines ++ [[], []]) (entries ++ [none, none]) :=
    List.rel_append reads (.cons blank (.cons blank .nil))
  rw [entriesOf, linesRead_textOf reads, assignments_of_reads all, List.reduceOption_append]
  exact List.append_nil _

/-! ## The fields of entries -/

/-- A number is read in front of its unit. -/
theorem leadingInteger_showInt (number : Int) {unit : CString}
    (noDigit : ∀ char ∈ unit.head?, char.isDigit = false) :
    leadingInteger (showInt number ++ unit) = some number := by
  rw [leadingInteger, numeral_showInt_append number noDigit, if_neg Nat.toDigits_ne_nil,
    numeralValue_showInt]

theorem booleanField_showBool (flag before : Bool) :
    booleanField (showBool flag) before = flag := by
  cases flag <;> cases before <;> decide

section Fields

variable {fields : List (ConfigKey × CString)}

theorem lastValue_fields (given : valuesOf fields known = [value]) :
    lastValue (fields.filterMap fieldEntry) known = if value = [] then none else some value := by
  rw [lastValue, valuesOf_filterMap, given]
  by_cases empty : value = [] <;> simp [empty]

theorem text_fields (given : valuesOf fields known = [value]) :
    (lastValue (fields.filterMap fieldEntry) known).getD [] = value := by
  rw [lastValue_fields given]
  by_cases empty : value = [] <;> simp [empty]

/-- A key that no field has. -/
theorem text_absent (absent : valuesOf fields known = []) :
    (lastValue (fields.filterMap fieldEntry) known).getD [] = [] := by
  rw [lastValue, valuesOf_filterMap, absent]
  rfl

theorem number_fields (number : Int) (unit : CString)
    (noDigit : ∀ char ∈ unit.head?, char.isDigit = false)
    (given : valuesOf fields known = [showInt number ++ unit]) :
    referenceNumber (fields.filterMap fieldEntry) known = number := by
  have shown : showInt number ++ unit ≠ [] :=
    List.append_ne_nil_of_left_ne_nil (showInt_ne_nil number) _
  rw [referenceNumber, lastValue_fields given, if_neg shown, Option.bind_some,
    leadingInteger_showInt number noDigit, Option.getD_some]

theorem int_fields (number : Int) (given : valuesOf fields known = [showInt number]) :
    referenceNumber (fields.filterMap fieldEntry) known = number :=
  number_fields number [] (by simp) (by rw [given, List.append_nil])

theorem flag_fields (flag : Bool) (given : valuesOf fields known = [showBool flag]) :
    referenceFlag (fields.filterMap fieldEntry) known = flag := by
  have shown : showBool flag ≠ [] := by cases flag <;> simp [showBool]
  rw [referenceFlag, valuesOf_filterMap, given, List.filter_cons_of_pos (by simpa using shown)]
  exact booleanField_showBool flag false

theorem destinations_fields (given : valuesOf fields .destination = [value]) :
    List.intercalate [','] (valuesOf (fields.filterMap fieldEntry) .destination) = value := by
  rw [valuesOf_filterMap, given]
  by_cases empty : value = [] <;> simp [empty]

/-- Numbers of the fields that fit. -/
theorem numbersFit_fields (fits : ∀ field ∈ fields, field.1.isNumeric = true →
    ∀ number ∈ leadingInteger field.2, IsInt32 number) :
    NumbersFit (fields.filterMap fieldEntry) := by
  intro entry member
  obtain ⟨field, listed, same⟩ := List.mem_filterMap.mp member
  rw [fieldEntry] at same
  split at same
  · cases same
  · exact Option.some.inj same ▸ fits field listed

/-- A text with these entries denotes them. -/
theorem readConfig_of_fields {text : CString}
    (entries : entriesOf text = fields.filterMap fieldEntry)
    (fits : ∀ field ∈ fields, field.1.isNumeric = true →
      ∀ number ∈ leadingInteger field.2, IsInt32 number) :
    readConfig text = .ok (referenceConfig (fields.filterMap fieldEntry)) := by
  obtain ⟨config, finished⟩ :=
    (readConfig_ok_iff text).mpr (entries ▸ numbersFit_fields fits)
  rw [finished, readConfig_entriesOf finished, entries]

end Fields

/-! ## The dump is read back -/

/-- The texts and numbers of a configuration that its dump can show on one line each. -/
structure Config.Dumpable (config : Config) : Prop where
  texts : ∀ text ∈ [config.basePath, config.remoteUser, config.remoteHost,
    config.remoteDirectory, config.destinations, config.execBin, config.execFlags,
    config.lastRctimePath], Neat text
  numbers : ∀ number ∈ [config.logLevel, config.nproc, config.threads, config.syncPeriodS,
    config.propDelayMs], IsInt32 number

/-- The fields in the order of the dump. -/
def Config.dumpFields (config : Config) : List (ConfigKey × CString) := [
  (.sourceDirectory, config.basePath),
  (.ignoreHidden, showBool config.ignoreHidden),
  (.ignoreWindowsLock, showBool config.ignoreWinLock),
  (.ignoreVimSwap, showBool config.ignoreVimSwap),
  (.remoteUser, config.remoteUser),
  (.remoteHost, config.remoteHost),
  (.remoteDirectory, config.remoteDirectory),
  (.destination, config.destinations),
  (.exec, config.execBin),
  (.flags, config.execFlags),
  (.metadataDirectory, config.lastRctimePath),
  (.syncPeriod, showInt config.syncPeriodS ++ " (seconds)".toList),
  (.propagationDelay, showInt config.propDelayMs ++ " (milliseconds)".toList),
  (.processes, showInt config.nproc),
  (.threads, showInt config.threads),
  (.logLevel, showInt config.logLevel)]

theorem neat_showBool (flag : Bool) : Neat (showBool flag) := by
  cases flag
  · exact ⟨⟨by decide, by decide⟩, by decide⟩
  · exact ⟨⟨by decide, by decide⟩, by decide⟩

/-- A number with its unit. -/
theorem neat_showInt (number : Int) {unit : CString} (plain : '#' ∉ unit ∧ '\n' ∉ unit)
    (last : ∀ char ∈ unit.getLast?, isBlank char = false) : Neat (showInt number ++ unit) := by
  have absent : ∀ char : Char, char.isDigit = false → char ≠ '-' → char ∉ showInt number :=
    fun _ noDigit noSign => not_mem_showInt number noDigit noSign
  have solid : ∀ char ∈ showInt number, isBlank char = false := by
    intro char member
    by_contra blank
    simp only [isBlank, Bool.or_eq_false_iff, decide_eq_false_iff_not, not_and_or, not_not]
      at blank
    rcases blank with rfl | rfl
    · exact absent ' ' (by decide) (by decide) member
    · exact absent '\t' (by decide) (by decide) member
  refine ⟨⟨?_, ?_⟩, ?_⟩
  · rw [List.mem_append, not_or]
    exact ⟨absent '#' (by decide) (by decide), plain.1⟩
  · apply trim_of_ends
    · intro char first
      rw [List.head?_append_of_ne_nil _ (showInt_ne_nil number)] at first
      exact solid char (List.mem_of_head? first)
    · intro char ends
      rw [List.getLast?_append] at ends
      rcases Option.or_eq_some_iff.mp ends with behind | ⟨_, digits⟩
      · exact last char behind
      · exact solid char (List.mem_of_getLast? digits)
  · rw [List.mem_append, not_or]
    exact ⟨absent '\n' (by decide) (by decide), plain.2⟩

theorem neat_seconds (number : Int) : Neat (showInt number ++ " (seconds)".toList) :=
  neat_showInt number (by decide) (by simp [isBlank])

theorem neat_milliseconds (number : Int) :
    Neat (showInt number ++ " (milliseconds)".toList) :=
  neat_showInt number (by decide) (by simp [isBlank])

variable {config : Config}

/-- What the parser makes of the lines of a dump. -/
theorem reads_dumpLines (dumpable : config.Dumpable) :
    ∃ entries, List.Forall₂ Reads config.dumpLines entries ∧
      entries.reduceOption = config.dumpFields.filterMap fieldEntry := by
  have texts := dumpable.texts
  simp only [List.forall_mem_cons, List.not_mem_nil, false_implies, implies_true, and_true]
    at texts
  obtain ⟨basePath, remoteUser, remoteHost, remoteDirectory, destinations, execBin, execFlags,
    lastRctimePath⟩ := texts
  have number : ∀ number, Neat (showInt number) := fun number => by
    have alone := @neat_showInt number [] (by simp) (by simp)
    rwa [List.append_nil] at alone
  have heading : ∀ line, '\n' ∉ line → ConfigKey.ofText (lineKey line) = none →
      Reads line none := fun _ => reads_heading
  refine ⟨_, .cons (heading _ (by decide) (by decide)) <|
    .cons (heading _ (by decide) (by decide)) <|
    .cons (heading _ (by decide) (by decide)) <|
    .cons (reads_labelled .sourceDirectory [] (by decide) rfl basePath) <|
    .cons (reads_labelled .ignoreHidden [' '] (by decide) rfl (neat_showBool _)) <|
    .cons (reads_labelled .ignoreWindowsLock [' '] (by decide) rfl (neat_showBool _)) <|
    .cons (reads_labelled .ignoreVimSwap [' '] (by decide) rfl (neat_showBool _)) <|
    .cons (heading _ (by decide) (by decide)) <| .cons (heading _ (by decide) (by decide)) <|
    .cons (reads_labelled .remoteUser [' '] (by decide) rfl remoteUser) <|
    .cons (reads_labelled .remoteHost [' '] (by decide) rfl remoteHost) <|
    .cons (reads_labelled .remoteDirectory [' '] (by decide) rfl remoteDirectory) <|
    .cons (reads_labelled .destination [' '] (by decide) rfl destinations) <|
    .cons (heading _ (by decide) (by decide)) <| .cons (heading _ (by decide) (by decide)) <|
    .cons (reads_labelled .exec [' '] (by decide) rfl execBin) <|
    .cons (reads_labelled .flags [' '] (by decide) rfl execFlags) <|
    .cons (reads_labelled .metadataDirectory [' '] (by decide) rfl lastRctimePath) <|
    .cons (reads_labelled .syncPeriod [' '] (by decide) rfl (neat_seconds _)) <|
    .cons (reads_labelled .propagationDelay [' '] (by decide) rfl (neat_milliseconds _)) <|
    .cons (reads_labelled .processes [' '] (by decide) rfl (number _)) <|
    .cons (reads_labelled .threads [' '] (by decide) rfl (number _)) <|
    .cons (reads_labelled .logLevel [' '] (by decide) rfl (number _)) .nil, ?_⟩
  rfl

/-- The entries of a dump are its fields, without the empty ones. -/
theorem entriesOf_dump (dumpable : config.Dumpable) :
    entriesOf config.dump = config.dumpFields.filterMap fieldEntry := by
  obtain ⟨entries, reads, fields⟩ := reads_dumpLines dumpable
  rw [Config.dump, entriesOf_textOf reads, fields]

/-- What is read back: all fields, with the metadata path extended once more. -/
def Config.reread (config : Config) : Config :=
  { config with
    lastRctimePath :=
      if config.lastRctimePath = [] then [] else config.lastRctimePath ++ lastRctimeName }

/-- The fields of a dump denote the configuration. -/
theorem referenceConfig_dump (config : Config) :
    referenceConfig (config.dumpFields.filterMap fieldEntry) = config.reread := by
  have path : ((lastValue (config.dumpFields.filterMap fieldEntry) .metadataDirectory).map
      (· ++ lastRctimeName)).getD [] = config.reread.lastRctimePath := by
    rw [@lastValue_fields config.lastRctimePath _ config.dumpFields rfl]
    by_cases empty : config.lastRctimePath = [] <;> simp [empty, Config.reread]
  have fields : ∀ known value, valuesOf config.dumpFields known = [value] →
      (lastValue (config.dumpFields.filterMap fieldEntry) known).getD [] = value :=
    fun _ _ => text_fields
  rw [referenceConfig, path, int_fields config.logLevel rfl, int_fields config.nproc rfl,
    int_fields config.threads rfl, flag_fields config.ignoreHidden rfl,
    flag_fields config.ignoreWinLock rfl, flag_fields config.ignoreVimSwap rfl,
    number_fields config.syncPeriodS " (seconds)".toList (by simp) rfl,
    number_fields config.propDelayMs " (milliseconds)".toList (by simp) rfl,
    fields .exec _ rfl, fields .flags _ rfl, fields .sourceDirectory _ rfl,
    fields .remoteUser _ rfl, fields .remoteHost _ rfl, fields .remoteDirectory _ rfl,
    destinations_fields rfl]
  rfl

/-- The numbers of a dump fit, with their units and without. -/
theorem numbersFit_dump (dumpable : config.Dumpable) : ∀ field ∈ config.dumpFields,
    field.1.isNumeric = true → ∀ number ∈ leadingInteger field.2, IsInt32 number := by
  have numbers := dumpable.numbers
  simp only [List.forall_mem_cons, List.not_mem_nil, false_implies, implies_true, and_true]
    at numbers
  obtain ⟨logLevel, nproc, threads, syncPeriodS, propDelayMs⟩ := numbers
  have shown : ∀ number unit, (∀ char ∈ unit.head?, char.isDigit = false) → IsInt32 number →
      ∀ read ∈ leadingInteger (showInt number ++ unit), IsInt32 read := by
    intro number unit noDigit fits read leading
    rw [leadingInteger_showInt number noDigit, Option.mem_def, Option.some.injEq] at leading
    exact leading ▸ fits
  have alone : ∀ number, IsInt32 number → ∀ read ∈ leadingInteger (showInt number),
      IsInt32 read := by
    intro number fits
    have read := shown number [] (by simp) fits
    rwa [List.append_nil] at read
  simp only [Config.dumpFields, List.forall_mem_cons, ConfigKey.isNumeric, Bool.false_eq_true,
    false_implies, true_and, forall_const, List.not_mem_nil, implies_true, and_true]
  exact ⟨shown _ _ (by simp) syncPeriodS, shown _ _ (by simp) propDelayMs, alone _ nproc,
    alone _ threads, alone _ logLevel⟩

/-- A dump is read back as the configuration, with the metadata path extended. -/
theorem ofText_dump (dumpable : config.Dumpable) :
    Config.ofText config.dump {} = .ok config.reread := by
  rw [Config.ofText, readConfig_of_fields (entriesOf_dump dumpable) (numbersFit_dump dumpable),
    referenceConfig_dump]
  rfl

/-! ## What the constructor reads can be dumped -/

theorem neat_lineValue (single : '\n' ∉ line) : Neat (lineValue line) := by
  have inside : ∀ char ∈ ((uncommented line).dropWhile (· ≠ '=')).tail, char ∈ uncommented line :=
    fun char member => (List.dropWhile_suffix _).subset (List.mem_of_mem_tail member)
  constructor
  · exact clean_trim fun member => not_mem_uncommented line (inside _ member)
  · exact fun member => single (mem_of_mem_uncommented (inside _ (mem_of_mem_trim member)))

theorem Neat.append_lastRctimeName (neat : Neat value) (nonempty : value ≠ []) :
    Neat (value ++ lastRctimeName) := by
  refine ⟨neat.1.append_lastRctimeName nonempty, ?_⟩
  rw [List.mem_append, not_or]
  exact ⟨neat.2, by decide⟩

theorem value_of_assignmentOf {pending : CString} {entry : ConfigKey × CString}
    (found : assignmentOf pending line = some entry) : entry.2 = assignedValue pending line := by
  rw [assignmentOf] at found
  split at found
  · cases found
  · obtain ⟨_, _, rfl⟩ := Option.map_eq_some_iff.mp found
    rfl

/-- All values that are assigned are neat. -/
theorem neat_of_assignments {pending : CString} (neat : Neat pending)
    (single : ∀ line ∈ lines, '\n' ∉ line) :
    ∀ entry ∈ assignments pending lines, Neat entry.2 := by
  induction lines generalizing pending with
  | nil => exact fun _ member => absurd member List.not_mem_nil
  | cons line lines ih =>
      have assigned : Neat (assignedValue pending line) := by
        rw [assignedValue]
        split
        · exact neat_lineValue (single line List.mem_cons_self)
        · exact neat
      have later : Neat (pendingValue pending line) := by
        rw [pendingValue]
        split
        · next metadata =>
          obtain ⟨entry, found, _⟩ := Option.map_eq_some_iff.mp metadata
          apply assigned.append_lastRctimeName
          rw [← value_of_assignmentOf found]
          exact value_ne_nil_of_assignmentOf found
        · exact assigned
      intro entry member
      rcases List.mem_append.mp member with here | behind
      · rw [value_of_assignmentOf (Option.mem_toList.mp here)]
        exact assigned
      · exact ih later (fun line member => single line (List.mem_cons_of_mem _ member)) entry behind

theorem neat_of_entriesOf (text : CString) : ∀ entry ∈ entriesOf text, Neat entry.2 := by
  apply neat_of_assignments ⟨clean_nil, List.not_mem_nil⟩
  intro line member
  rw [linesRead, List.mem_append] at member
  rcases member with complete | last
  · obtain ⟨piece, _, rfl⟩ := List.mem_map.mp complete
    exact piece.2
  · have same : line = (pieces '\n' text).2.1 := by simpa using last
    rw [same]
    exact (pieces '\n' text).2.2

/-- Neat texts, joined with a comma. -/
theorem neat_join {front back : CString} (before : Neat front) (behind : Neat back) :
    Neat (front ++ ',' :: back) := by
  have leading : front.dropWhile isBlank = front := dropWhile_of_trim before.1.trimmed
  have trailing : back.rdropWhile isBlank = back := rdropWhile_of_trim behind.1.trimmed
  refine ⟨⟨?_, ?_⟩, ?_⟩
  · simp [before.1.plain, behind.1.plain]
  · rw [trim_append (by decide), leading, trailing]
  · simp [before.2, behind.2]

theorem neat_intercalate {names : List CString} (neat : ∀ name ∈ names, Neat name) :
    Neat (List.intercalate [','] names) := by
  induction names with
  | nil => exact ⟨clean_nil, List.not_mem_nil⟩
  | cons name names ih =>
      have first := neat name List.mem_cons_self
      by_cases alone : names = []
      · simpa [alone] using first
      · rw [List.intercalate_cons_of_ne_nil alone, List.append_assoc, List.singleton_append]
        exact neat_join first (ih fun name member => neat name (List.mem_cons_of_mem _ member))

/-- The values of the command line, of type `int`. -/
def ConfigOverrides.Ints (overrides : ConfigOverrides) : Prop :=
  (∀ number ∈ overrides.logLevelOverride, IsInt32 number) ∧
    (∀ number ∈ overrides.nprocOverride, IsInt32 number) ∧
    ∀ number ∈ overrides.threadsOverride, IsInt32 number

theorem isInt32_getD {override : Option Int} {number : Int}
    (ints : ∀ number ∈ override, IsInt32 number) (fits : IsInt32 number) :
    IsInt32 (override.getD number) := by
  cases override with
  | none => exact fits
  | some value => exact ints value rfl

/-- What the constructor has read can be dumped. -/
theorem dumpable_of_ofText {text : CString} {overrides : ConfigOverrides}
    (read : Config.ofText text overrides = .ok config) (ints : overrides.Ints) :
    config.Dumpable := by
  have fits : NumbersFit (entriesOf text) := by
    rw [Config.ofText] at read
    cases finished : readConfig text with
    | error thrown =>
        rw [finished] at read
        cases read
    | ok read => exact (readConfig_ok_iff text).mp ⟨read, finished⟩
  have neat := neat_of_entriesOf text
  have field : ∀ known, Neat ((lastValue (entriesOf text) known).getD []) := by
    intro known
    cases last : lastValue (entriesOf text) known with
    | none => exact ⟨clean_nil, List.not_mem_nil⟩
    | some value => exact neat _ (mem_of_lastValue last)
  have path : Neat (referenceConfig (entriesOf text)).lastRctimePath := by
    show Neat (((lastValue (entriesOf text) .metadataDirectory).map (· ++ lastRctimeName)).getD [])
    cases last : lastValue (entriesOf text) .metadataDirectory with
    | none => exact ⟨clean_nil, List.not_mem_nil⟩
    | some value =>
        have member := mem_of_lastValue last
        exact (neat _ member).append_lastRctimeName (value_ne_nil_of_assignments member)
  have destinations : Neat (referenceConfig (entriesOf text)).destinations := by
    apply neat_intercalate
    intro name member
    obtain ⟨entry, listed, rfl⟩ := List.mem_map.mp member
    exact neat entry (List.mem_of_mem_filter listed)
  have number : ∀ known, known.isNumeric = true →
      IsInt32 (referenceNumber (entriesOf text) known) := by
    intro known numeric
    rw [referenceNumber]
    cases last : lastValue (entriesOf text) known with
    | none => exact ⟨by decide, by decide⟩
    | some value =>
        exact isInt32_getD (fits _ (mem_of_lastValue last) numeric) ⟨by decide, by decide⟩
  rw [Config.ofText_entriesOf read]
  constructor
  · simp only [List.forall_mem_cons, List.not_mem_nil, false_implies, implies_true, and_true]
    exact ⟨field .sourceDirectory, field .remoteUser, field .remoteHost, field .remoteDirectory,
      destinations, field .exec, field .flags, path⟩
  · simp only [List.forall_mem_cons, List.not_mem_nil, false_implies, implies_true, and_true]
    exact ⟨isInt32_getD ints.1 (number .logLevel rfl),
      isInt32_getD ints.2.1 (number .processes rfl),
      isInt32_getD ints.2.2 (number .threads rfl), number .syncPeriod rfl,
      number .propagationDelay rfl⟩

theorem reread_eq_iff : config.reread = config ↔ config.lastRctimePath = [] := by
  constructor
  · intro same
    by_contra set
    have path : config.reread.lastRctimePath = config.lastRctimePath := by rw [same]
    simp only [Config.reread, if_neg set] at path
    exact append_lastRctimeName_ne config.lastRctimePath path
  · intro none
    simp only [Config.reread, if_pos none]
    rw [← none]

/-- Whatever file and command line the constructor has read, its dump is a configuration
file again, which denotes the same fields, except that `last_rctime.dat` is appended to
the metadata path once more. -/
theorem reread_of_ofText {text : CString} {overrides : ConfigOverrides}
    (read : Config.ofText text overrides = .ok config) (ints : overrides.Ints) :
    Config.ofText config.dump {} = .ok config.reread ∧
      (config.reread = config ↔ config.lastRctimePath = []) :=
  ⟨ofText_dump (dumpable_of_ofText read ints), reread_eq_iff⟩

/-- What two destinations, a comment, a period and `-n 2` denote. -/
def sampleConfig : Config where
  nproc := 2
  syncPeriodS := 10
  lastRctimePath := "/var/lib/last_rctime.dat".toList
  destinations := "a:/x,b:/y=1".toList

theorem reread_of_sample : Config.ofText sampleConfig.dump {} = .ok { sampleConfig with
    lastRctimePath := "/var/lib/last_rctime.datlast_rctime.dat".toList } := by
  have read : Config.ofText ("Destination = a:/x \t# first\n\n  Destination=b:/y=1\n" ++
      "Metadata Directory = /var/lib/\nSync Period = 10 # seconds\nThreads = many\n").toList
      { nprocOverride := some 2 } = .ok sampleConfig := by
    decide +kernel
  have ints : ConfigOverrides.Ints { nprocOverride := some 2 } := by
    refine ⟨by simp, fun number given => ?_, by simp⟩
    rw [← Option.some.inj given]
    decide
  exact (reread_of_ofText read ints).1

end CephGeoRep
