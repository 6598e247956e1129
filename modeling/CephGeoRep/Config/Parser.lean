import CephGeoRep.Support.Stream
import CephGeoRep.Data.Config
import CephGeoRep.Data.Numeral

/-!
# The configuration file

The constructor of `Config`: the loop over the lines of the file, the command line
overrides and the checks behind them. The variables of the loop outlive an
iteration, and a read that fails leaves its target as it was, so `ReadVars` is part
of the state.
-/

namespace CephGeoRep

open Support

/-! ## strip_whitespace -/

/-- The characters that `strip_whitespace` removes. -/
def isBlank (char : Char) : Bool := char = ' ' || char = '\t'

/-- The loop over the white space at the back, from `strItr` down. It does not look
at the first character. -/
def backWhitespace (str : CString) : Nat → Nat
  | 0 => 0
  | strItr + 1 =>
    if isBlank (str.charAt (strItr + 1)) then backWhitespace str strItr else strItr + 1

/-- The loop over the white space in front: the final `strItr`. -/
def frontWhitespace : CString → Nat
  | [] => 0
  | char :: rest => if isBlank char then frontWhitespace rest + 1 else 0

/-- `strip_whitespace`. `findIdx` yields the length when there is no `#`. -/
def stripWhitespace (str : CString) : CString :=
  let strItr := str.findIdx (· = '#')
  let strItr := if strItr ≠ 0 then strItr - 1 else strItr
  let str := str.take (backWhitespace str strItr + 1)
  str.drop (frontWhitespace str)

/-! ## Assignments -/

/-- The keys that the chain of comparisons knows. -/
inductive ConfigKey where
  | sourceDirectory
  | remoteUser
  | remoteHost
  | remoteDirectory
  | destination
  | metadataDirectory
  | syncPeriod
  | ignoreHidden
  | ignoreWindowsLock
  | ignoreVimSwap
  | propagationDelay
  | logLevel
  | exec
  | flags
  | processes
  | threads
deriving DecidableEq

/-- The chain of comparisons; `none` is an entry that is ignored. -/
def ConfigKey.ofText (key : CString) : Option ConfigKey :=
  if key = "Source Directory".toList then some .sourceDirectory
  else if key = "Remote User".toList then some .remoteUser
  else if key = "Remote Host".toList then some .remoteHost
  else if key = "Remote Directory".toList then some .remoteDirectory
  else if key = "Destination".toList then some .destination
  else if key = "Metadata Directory".toList then some .metadataDirectory
  else if key = "Sync Period".toList then some .syncPeriod
  else if key = "Ignore Hidden".toList then some .ignoreHidden
  else if key = "Ignore Windows Lock".toList then some .ignoreWindowsLock
  else if key = "Ignore Vim Swap".toList then some .ignoreVimSwap
  else if key = "Propagation Delay".toList then some .propagationDelay
  else if key = "Log Level".toList then some .logLevel
  else if key = "Exec".toList then some .exec
  else if key = "Flags".toList then some .flags
  else if key = "Processes".toList then some .processes
  else if key = "Threads".toList then some .threads
  else none

/-- `LAST_RCTIME_NAME`. -/
def lastRctimeName : CString := "last_rctime.dat".toList

/-- A number of 32 bits. -/
def IsInt32 (value : Int) : Prop := -2 ^ 31 ≤ value ∧ value < 2 ^ 31

instance (value : Int) : Decidable (IsInt32 value) :=
  inferInstanceAs (Decidable (-2 ^ 31 ≤ value ∧ value < 2 ^ 31))

/-- `std::stoi`. -/
def stoi (text : CString) : Except NumeralError Int :=
  match stol text with
  | .error thrown => .error thrown
  | .ok value => if IsInt32 value then .ok value else .error .outOfRange

/-- The value of a numeric field. `std::invalid_argument` is caught,
`std::out_of_range` is not. -/
def numericField (value : CString) : Except NumeralError Int :=
  match stoi value with
  | .error .invalidArgument => .ok (-1)
  | result => result

/-- `std::istringstream(value) >> std::boolalpha >> flag`. The operator skips white
space and does nothing when it meets the end there; else it matches the names
`true` and `false` and sets the flag to false when neither fits. -/
def booleanField (value : CString) (flag : Bool) : Bool :=
  match value.dropWhile isSpace with
  | [] => flag
  | name => "true".toList.isPrefixOf name

/-- What a key does with the value: the fields, and `value` itself, which one of the
assignments changes. -/
def Config.assign (config : Config) (value : CString) :
    ConfigKey → Except NumeralError (Config × CString)
  | .sourceDirectory => .ok ({ config with basePath := value }, value)
  | .remoteUser => .ok ({ config with remoteUser := value }, value)
  | .remoteHost => .ok ({ config with remoteHost := value }, value)
  | .remoteDirectory => .ok ({ config with remoteDirectory := value }, value)
  | .destination =>
    .ok ({ config with
      destinations :=
        if config.destinations.isEmpty then value else config.destinations ++ ',' :: value },
      value)
  | .metadataDirectory =>
    .ok ({ config with lastRctimePath := value ++ lastRctimeName }, value ++ lastRctimeName)
  | .syncPeriod => (numericField value).map fun number =>
    ({ config with syncPeriodS := number }, value)
  | .ignoreHidden =>
    .ok ({ config with ignoreHidden := booleanField value config.ignoreHidden }, value)
  | .ignoreWindowsLock =>
    .ok ({ config with ignoreWinLock := booleanField value config.ignoreWinLock }, value)
  | .ignoreVimSwap =>
    .ok ({ config with ignoreVimSwap := booleanField value config.ignoreVimSwap }, value)
  | .propagationDelay => (numericField value).map fun number =>
    ({ config with propDelayMs := number }, value)
  | .logLevel => (numericField value).map fun number =>
    ({ config with logLevel := number }, value)
  | .exec => .ok ({ config with execBin := value }, value)
  | .flags => .ok ({ config with execFlags := value }, value)
  | .processes => (numericField value).map fun number => ({ config with nproc := number }, value)
  | .threads => (numericField value).map fun number => ({ config with threads := number }, value)

/-! ## The read loop -/

/-- The variables of the constructor, with the fields set so far. -/
structure ReadVars where
  line : CString := []
  key : CString := []
  value : CString := []
  config : Config := {}
deriving DecidableEq

/-- The body of the read loop, behind the read of `line`. -/
def readLine (vars : ReadVars) : Except NumeralError ReadVars :=
  let line := stripWhitespace vars.line
  if line.isEmpty || line.head? = some '#' then .ok { vars with line := line }
  else
    let first := IStream.getline { rest := line } vars.key '='
    let second := first.1.getline vars.value '\n'
    let key := stripWhitespace first.2
    let value := stripWhitespace second.2
    if key.isEmpty || value.isEmpty then .ok { vars with line := line, key := key, value := value }
    else
      match ConfigKey.ofText key with
      | none => .ok { vars with line := line, key := key, value := value }
      | some known =>
        (vars.config.assign value known).map fun assigned =>
          { line := line, key := key, value := assigned.2, config := assigned.1 }

/-- `while(config_file)`. -/
def readLoop (file : IStream Char) (vars : ReadVars) : Except NumeralError ReadVars :=
  if _ : file.fail = false then
    (readLine { vars with line := (file.getline vars.line '\n').2 }).bind fun vars' =>
      readLoop (file.getline vars.line '\n').1 vars'
  else .ok vars
termination_by file.budget
decreasing_by exact IStream.budget_getline_lt ‹_› _ _

/-- The fields after the read loop. -/
def readConfig (text : CString) : Except NumeralError Config :=
  (readLoop { rest := text } {}).map ReadVars.config

/-! ## Behind the read loop -/

/-- `ConfigOverrides`; `none` is an override without a value. -/
structure ConfigOverrides where
  logLevelOverride : Option Int := none
  nprocOverride : Option Int := none
  threadsOverride : Option Int := none

/-- `Config::override_fields`. -/
def Config.overrideFields (config : Config) (overrides : ConfigOverrides) : Config :=
  { config with
    logLevel := overrides.logLevelOverride.getD config.logLevel
    nproc := overrides.nprocOverride.getD config.nproc
    threads := overrides.threadsOverride.getD config.threads }

/-- The fields that the constructor computes from a text and the command line. -/
def Config.ofText (text : CString) (overrides : ConfigOverrides) : Except NumeralError Config :=
  (readConfig text).map fun config => config.overrideFields overrides

end CephGeoRep
