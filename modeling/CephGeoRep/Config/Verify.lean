import CephGeoRep.Config.Assignments

/-!
# Reported mistakes

`Config::verify` collects the mistakes of a configuration, and ends the program if there
is one. A numeric field that is -1 is a mistake, which is how a value that is no number is
meant to be reported. A number that does not fit never gets that far.
-/

namespace CephGeoRep

/-! ## Config::verify -/

/-- A test of `verify`: when it speaks up, whether that is an error or a warning, and the
text. -/
structure Finding where
  wrong : Bool
  isError : Bool
  text : CString

/-- A line of the log; a message is printed where the log level is high enough. -/
inductive LogLine where
  | error (text : CString)
  | warning (text : CString)
  | message (text : CString)
deriving DecidableEq

def Finding.logLine (finding : Finding) : LogLine :=
  if finding.isError then .error finding.text else .warning finding.text

/-- The warning about a field of the old format. -/
def deprecated (field : String) : CString :=
  (field ++ " field is deprecated. Instead use `Destination = user@host:directory`.").toList

/-- The tests of `verify`, in order; `present` is the answer of `fs::exists(base_path_)`. -/
def Config.findings (config : Config) (present : Bool) : List Finding := [
  ⟨config.basePath.isEmpty, true,
    "Config does not contain a search directory (Source Directory).".toList⟩,
  ⟨!present, true, "Source Directory does not exist.".toList⟩,
  ⟨!config.remoteUser.isEmpty, false, deprecated "Remote User"⟩,
  ⟨!config.remoteHost.isEmpty, false, deprecated "Remote Host"⟩,
  ⟨!config.remoteDirectory.isEmpty, false, deprecated "Remote Directory"⟩,
  ⟨(!config.remoteUser.isEmpty || !config.remoteHost.isEmpty || !config.remoteDirectory.isEmpty) &&
      !config.destinations.isEmpty, true,
    ("(Destination) list conflicts with (Remote User, Remote Host, Remote Directory) " ++
      "in config").toList⟩,
  ⟨config.lastRctimePath.isEmpty, true,
    "config does not contain a metadata path (Metadata Directory)".toList⟩,
  ⟨config.syncPeriodS < 0, true,
    "sync frequency must be positive integer (Sync Period)".toList⟩,
  ⟨config.propDelayMs < 0, true,
    "rctime prop delay must be positive integer (Propagation Delay)".toList⟩,
  ⟨config.logLevel < 0, true, "log level must be positive integer (Log Level)".toList⟩,
  ⟨config.execBin.isEmpty, true, "config must contain a program to execute! (Exec)".toList⟩,
  ⟨config.execFlags.isEmpty, false, "no execution flags present in config (Flags)".toList⟩,
  ⟨config.nproc < 0, true, "number of processses must be positive integer (Processes)".toList⟩,
  ⟨config.threads < 0, true, "number of threads must be positive integer (Processes)".toList⟩]

/-- What `verify` logs, and whether it ends the program. -/
structure Verdict where
  logged : List LogLine
  exits : Bool
deriving DecidableEq

/-- `Config::verify`. -/
def Config.verify (config : Config) (present : Bool) (configPath : CString) : Verdict :=
  let found := (config.findings present).filter Finding.wrong
  let errors := found.any Finding.isError
  { logged := found.map Finding.logLine ++
      if errors then [.error ("Please fix these mistakes in ".toList ++ configPath)] else []
    exits := errors }

/-! ## Config::dump -/

/-- `std::boolalpha`. -/
def showBool : Bool → CString
  | true => "true".toList
  | false => "false".toList

/-- The lines of `Config::dump`. -/
def Config.dumpLines (config : Config) : List CString := [
  "configuration:".toList,
  [],
  "source settings:".toList,
  "Source Directory =".toList ++ config.basePath,
  "Ignore Hidden = ".toList ++ showBool config.ignoreHidden,
  "Ignore Windows Lock = ".toList ++ showBool config.ignoreWinLock,
  "Ignore Vim Swap = ".toList ++ showBool config.ignoreVimSwap,
  [],
  "remote settings:".toList,
  "Remote User = ".toList ++ config.remoteUser,
  "Remote Host = ".toList ++ config.remoteHost,
  "Remote Directory = ".toList ++ config.remoteDirectory,
  "Destination = ".toList ++ config.destinations,
  [],
  "daemon settings:".toList,
  "Exec = ".toList ++ config.execBin,
  "Flags = ".toList ++ config.execFlags,
  "Metadata Directory = ".toList ++ config.lastRctimePath,
  "Sync Period = ".toList ++ (showInt config.syncPeriodS ++ " (seconds)".toList),
  "Propagation Delay = ".toList ++ (showInt config.propDelayMs ++ " (milliseconds)".toList),
  "Processes = ".toList ++ showInt config.nproc,
  "Threads = ".toList ++ showInt config.threads,
  "Log Level = ".toList ++ showInt config.logLevel]

/-- A text with these lines. -/
def textOf (lines : List CString) : CString := lines.flatMap (· ++ ['\n'])

/-- `Config::dump`. -/
def Config.dump (config : Config) : CString := textOf config.dumpLines

/-! ## The constructor -/

/-- How the constructor of `Config` ends. -/
inductive Config.Outcome where
  | threw (exception : NumeralError)
  | exited (logged : List LogLine)
  | finished (config : Config) (logged : List LogLine)
deriving DecidableEq

/-- `message` with the level 2, once `Logging::log` has the level of the configuration. -/
def debugMessage (logLevel : Int) (text : CString) : List LogLine :=
  if 2 ≤ logLevel then [.message text] else []

/-- The constructor on the text of the file: the read loop, `override_fields`, `verify` and
`dump`. -/
def Config.construct (fsExists : CString → Bool) (configPath text : CString)
    (overrides : ConfigOverrides) : Config.Outcome :=
  match Config.ofText text overrides with
  | .error exception => .threw exception
  | .ok config =>
    let verdict := config.verify (fsExists config.basePath) configPath
    if verdict.exits then .exited verdict.logged
    else .finished config (verdict.logged ++ debugMessage config.logLevel config.dump)

/-- An error is logged, whatever else there is to say. -/
theorem Config.verify_of_finding {config : Config} {present : Bool} {finding : Finding}
    (listed : finding ∈ config.findings present) (wrong : finding.wrong = true)
    (isError : finding.isError = true) (configPath : CString) :
    (config.verify present configPath).exits = true ∧
      .error finding.text ∈ (config.verify present configPath).logged := by
  have found : finding ∈ (config.findings present).filter Finding.wrong :=
    List.mem_filter.mpr ⟨listed, wrong⟩
  have line : finding.logLine = .error finding.text := if_pos isError
  constructor
  · exact List.any_eq_true.mpr ⟨finding, found, isError⟩
  · exact List.mem_append_left _ (List.mem_map.mpr ⟨finding, found, line⟩)

theorem Config.exits_verify (config : Config) (present : Bool) (configPath : CString) :
    (config.verify present configPath).exits =
      (config.findings present).any fun finding => finding.wrong && finding.isError := by
  rw [verify, List.any_filter]

/-- A configuration passes if these fields are in order. -/
theorem Config.verify_passes_iff {config : Config} {present : Bool} {configPath : CString} :
    (config.verify present configPath).exits = false ↔
      config.basePath ≠ [] ∧ present = true ∧
      (config.destinations = [] ∨
        config.remoteUser = [] ∧ config.remoteHost = [] ∧ config.remoteDirectory = []) ∧
      config.lastRctimePath ≠ [] ∧ 0 ≤ config.syncPeriodS ∧ 0 ≤ config.propDelayMs ∧
      0 ≤ config.logLevel ∧ config.execBin ≠ [] ∧ 0 ≤ config.nproc ∧ 0 ≤ config.threads := by
  rw [exits_verify, findings]
  simp only [List.any_cons, List.any_nil, Bool.and_true, Bool.and_false, Bool.false_or,
    Bool.or_false, Bool.or_eq_false_iff, Bool.and_eq_false_iff, Bool.not_eq_false',
    List.isEmpty_iff, List.isEmpty_eq_false_iff, decide_eq_false_iff_not, not_lt]
  tauto

/-! ## Numeric keys -/

/-- The keys that have a number as their value. -/
inductive NumericKey where
  | syncPeriod
  | propagationDelay
  | logLevel
  | processes
  | threads
deriving DecidableEq

namespace NumericKey

def key : NumericKey → ConfigKey
  | .syncPeriod => .syncPeriod
  | .propagationDelay => .propagationDelay
  | .logLevel => .logLevel
  | .processes => .processes
  | .threads => .threads

/-- The field of the key. -/
def field (config : Config) : NumericKey → Int
  | .syncPeriod => config.syncPeriodS
  | .propagationDelay => config.propDelayMs
  | .logLevel => config.logLevel
  | .processes => config.nproc
  | .threads => config.threads

/-- What `verify` says about a negative field. The last text names another key. -/
def complaint : NumericKey → CString
  | .syncPeriod => "sync frequency must be positive integer (Sync Period)".toList
  | .propagationDelay => "rctime prop delay must be positive integer (Propagation Delay)".toList
  | .logLevel => "log level must be positive integer (Log Level)".toList
  | .processes => "number of processses must be positive integer (Processes)".toList
  | .threads => "number of threads must be positive integer (Processes)".toList

/-- The command line can replace three of the fields. -/
def overridden (overrides : ConfigOverrides) : NumericKey → Bool
  | .syncPeriod | .propagationDelay => false
  | .logLevel => overrides.logLevelOverride.isSome
  | .processes => overrides.nprocOverride.isSome
  | .threads => overrides.threadsOverride.isSome

variable {config : Config} {overrides : ConfigOverrides}

theorem isNumeric_key (numeric : NumericKey) : numeric.key.isNumeric = true := by
  cases numeric <;> rfl

theorem field_referenceConfig (numeric : NumericKey) (entries : List (ConfigKey × CString)) :
    numeric.field (referenceConfig entries) = referenceNumber entries numeric.key := by
  cases numeric <;> rfl

theorem field_overrideFields {numeric : NumericKey}
    (kept : numeric.overridden overrides = false) :
    numeric.field (config.overrideFields overrides) = numeric.field config := by
  cases numeric with
  | syncPeriod | propagationDelay => rfl
  | logLevel | processes | threads =>
      have absent := Option.isSome_eq_false_iff.mp kept
      simp [field, Config.overrideFields, Option.isNone_iff_eq_none.mp absent]

/-- A negative field is found by `verify`, and the program ends. -/
theorem verify_of_negative {numeric : NumericKey} (negative : numeric.field config < 0)
    (present : Bool) (configPath : CString) :
    (config.verify present configPath).exits = true ∧
      .error numeric.complaint ∈ (config.verify present configPath).logged := by
  have wrong : decide (numeric.field config < 0) = true := decide_eq_true negative
  have listed : ⟨decide (numeric.field config < 0), true, numeric.complaint⟩ ∈
      config.findings present := by
    cases numeric with
    | syncPeriod => exact List.mem_of_getElem? (show (config.findings present)[7]? = _ from rfl)
    | propagationDelay =>
        exact List.mem_of_getElem? (show (config.findings present)[8]? = _ from rfl)
    | logLevel => exact List.mem_of_getElem? (show (config.findings present)[9]? = _ from rfl)
    | processes => exact List.mem_of_getElem? (show (config.findings present)[12]? = _ from rfl)
    | threads => exact List.mem_of_getElem? (show (config.findings present)[13]? = _ from rfl)
  exact Config.verify_of_finding listed wrong rfl configPath

end NumericKey

/-! ## Values that are no numbers -/

/-- The text starts with an `int`. -/
def Representable (value : CString) : Prop :=
  ∃ number, leadingInteger value = some number ∧ IsInt32 number

/-- How mistakes in numbers are meant to end: the loop goes on, the field is -1, and if it
still is at the end then `verify` names the field and ends the program. -/
structure ReportsMistakes (text : CString) : Prop where
  finishes : ∃ config, readConfig text = .ok config
  marks : ∀ (numeric : NumericKey) value before after,
    entriesOf text = before ++ (numeric.key, value) :: after → ¬ Representable value →
    ∃ config, Config.assignAll {} (before ++ [(numeric.key, value)]) = .ok config ∧
      numeric.field config = -1
  reports : ∀ (numeric : NumericKey) value,
    lastValue (entriesOf text) numeric.key = some value → ¬ Representable value →
    ∀ fsExists configPath overrides, numeric.overridden overrides = false →
    ∃ logged, Config.construct fsExists configPath text overrides = .exited logged ∧
      .error numeric.complaint ∈ logged

section Mistakes

variable {entries before after : List (ConfigKey × CString)} {numeric : NumericKey}
  {value : CString}

theorem mem_of_lastValue {known : ConfigKey} (last : lastValue entries known = some value) :
    (known, value) ∈ entries := by
  obtain ⟨⟨known', value'⟩, member, rfl⟩ := List.mem_map.mp (List.mem_of_getLast? last)
  obtain ⟨listed, same⟩ := List.mem_filter.mp member
  rw [← of_decide_eq_true same]
  exact listed

/-- With numbers that fit, only a text without one is not representable. -/
theorem leadingInteger_of_not_representable (fits : NumbersFit entries)
    (member : (numeric.key, value) ∈ entries) (unfit : ¬ Representable value) :
    leadingInteger value = none := by
  cases leading : leadingInteger value with
  | none => rfl
  | some number =>
      exact absurd ⟨number, leading, fits _ member numeric.isNumeric_key number leading⟩ unfit

theorem field_of_lastValue (fits : NumbersFit entries)
    (last : lastValue entries numeric.key = some value) (unfit : ¬ Representable value) :
    numeric.field (referenceConfig entries) = -1 := by
  rw [numeric.field_referenceConfig, referenceNumber, last, Option.bind_some,
    leadingInteger_of_not_representable fits (mem_of_lastValue last) unfit, Option.getD_none]

theorem lastValue_concat (entries : List (ConfigKey × CString)) (known : ConfigKey)
    (value : CString) : lastValue (entries ++ [(known, value)]) known = some value := by
  rw [lastValue, valuesOf_concat_self, List.getLast?_concat]

/-- The mistakes are reported exactly if no numeric key is given an integer that is too
large for an `int`. -/
theorem reportsMistakes_iff (text : CString) :
    ReportsMistakes text ↔ NumbersFit (entriesOf text) := by
  constructor
  · intro reported
    exact (readConfig_ok_iff text).mp reported.finishes
  intro fits
  obtain ⟨config, finished⟩ := (readConfig_ok_iff text).mpr fits
  have fields := readConfig_entriesOf finished
  refine ⟨⟨config, finished⟩, ?_, ?_⟩
  · intro numeric value before after parts unfit
    rw [List.append_cons] at parts
    have fits' : NumbersFit (before ++ [(numeric.key, value)]) :=
      numbersFit_append (parts ▸ fits)
    have nonempty : ∀ entry ∈ before ++ [(numeric.key, value)], entry.2 ≠ [] :=
      fun entry member => value_ne_nil_of_assignments (parts ▸ List.mem_append_left _ member)
    exact ⟨_, @assignAll_referenceConfig _ [] nonempty fits',
      field_of_lastValue fits' (lastValue_concat _ _ _) unfit⟩
  · intro numeric value last unfit fsExists configPath overrides kept
    have negative : numeric.field (config.overrideFields overrides) < 0 := by
      rw [NumericKey.field_overrideFields kept, fields, field_of_lastValue fits last unfit]
      decide
    obtain ⟨exits, logged⟩ := NumericKey.verify_of_negative negative
      (fsExists (config.overrideFields overrides).basePath) configPath
    refine ⟨_, ?_, logged⟩
    have read : Config.ofText text overrides = .ok (config.overrideFields overrides) := by
      rw [Config.ofText, finished]
      rfl
    rw [Config.construct, read]
    exact if_pos exits

/-- More seconds than an `int` holds. -/
theorem not_reportsMistakes_period : ¬ ReportsMistakes "Sync Period = 9999999999\n".toList := by
  rintro ⟨⟨config, finished⟩, _, _⟩
  have thrown : readConfig "Sync Period = 9999999999\n".toList = .error .outOfRange := by
    decide +kernel
  rw [thrown] at finished
  cases finished

end Mistakes

end CephGeoRep
