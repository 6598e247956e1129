import CephGeoRep.Config.Template
import CephGeoRep.Crawler.Recovery

/-!
# How a process starts

`main` goes through the options that `getopt_long` returns, one at a time: some end the
process at once, the others are remembered. Only behind the last one it looks for
`--version`, and only then the constructors read the configuration and the watermark, each
of which can end the process as well.
-/

namespace CephGeoRep

/-- What `getopt_long` returns, with `optarg` where an argument is required. -/
inductive Opt where
  | config (optarg : CString)
  | help
  | verbose
  | quiet
  | seed
  | setRctime
  | nproc (optarg : CString)
  | oneshot
  | dryRun
  | threads (optarg : CString)
  | version
  /-- `'?'`, about which `getopt_long` has complained. -/
  | unknown
deriving DecidableEq

/-- `DEFAULT_CONFIG_PATH`. -/
def defaultConfigPath : CString := "/etc/cephfssyncd.conf".toList

/-- The variables of `main`. -/
structure Options where
  seed : Bool := false
  dryRun : Bool := false
  setRctime : Bool := false
  printVersAndExit : Bool := false
  oneshot : Bool := false
  configPath : CString := defaultConfigPath
  overrides : ConfigOverrides := {}

/-- How an option ends the process. -/
inductive OptionEnding where
  /-- `usage` and `exit(EXIT_SUCCESS)`. -/
  | usage
  /-- An error and `abort`. -/
  | aborted (error : CString)
  /-- An exception that nobody catches. -/
  | threw (exception : NumeralError)
deriving DecidableEq

/-- The number in `optarg`. Only `std::invalid_argument` is caught. -/
def numberOption (complaint optarg : CString) : Except OptionEnding Int :=
  match stoi optarg with
  | .ok number => .ok number
  | .error .invalidArgument => .error (.aborted complaint)
  | .error .outOfRange => .error (.threw .outOfRange)

/-- The body of the loop. -/
def Options.take (options : Options) : Opt → Except OptionEnding Options
  | .config optarg => .ok { options with configPath := optarg }
  | .help => .error .usage
  | .verbose =>
    .ok { options with overrides := { options.overrides with logLevelOverride := some 2 } }
  | .quiet =>
    .ok { options with overrides := { options.overrides with logLevelOverride := some 0 } }
  | .seed => .ok { options with seed := true }
  | .nproc optarg =>
    (numberOption "Invalid number of processes.".toList optarg).map fun number =>
      { options with overrides := { options.overrides with nprocOverride := some number } }
  | .oneshot => .ok { options with oneshot := true }
  | .dryRun => .ok { options with dryRun := true }
  | .threads optarg =>
    (numberOption "Invalid number of threads.".toList optarg).map fun number =>
      { options with overrides := { options.overrides with threadsOverride := some number } }
  | .setRctime => .ok { options with setRctime := true }
  | .version => .ok { options with printVersAndExit := true }
  | .unknown => .ok options

/-! ## The constructor of LastRctime -/

/-- What the file system makes of `last_rctime_path_`: the text, if the file can be opened;
whether `create_directories` succeeds; and whether `init_last_rctime` leaves a file that can
be opened. -/
structure RctimeDisk where
  text : Option CString
  makesPath : Bool
  keeps : Bool

namespace RctimeDisk

/-- The text that the constructor reads. A stream that does not open yields nothing. -/
def content (disk : RctimeDisk) : CString :=
  disk.text.getD (if disk.keeps then initLastRctime else [])

/-- The constructor returns with this watermark. -/
def Yields (disk : RctimeDisk) (lastRctime : Timespec) : Prop :=
  (disk.text = none → disk.makesPath = true) ∧
  (LastRctime.convert disk.content = .ok lastRctime ∨
    ¬ LastRctime.Converts disk.content ∧ LastRctime.InRange disk.content ∧
      disk.makesPath = true ∧ lastRctime = .zero)

end RctimeDisk

namespace LastRctime

/-- How the constructor ends. -/
inductive Outcome where
  | threw (exception : NumeralError)
  | exited (logged : List LogLine)
  | finished (lastRctime : Timespec) (logged : List LogLine)

/-- What `init_last_rctime` logs. Behind the error it exits. -/
def initLogged (logLevel : Int) (parentPath : CString → CString) (path : CString)
    (disk : RctimeDisk) : List LogLine :=
  debugMessage logLevel
      (path ++ " does not exist. Creating and initializing to 0.0.".toList) ++
    if disk.makesPath then [] else [.error ("Cannot create path: ".toList ++ parentPath path)]

/-- What is logged until the file is open. -/
def openLogged (logLevel : Int) (parentPath : CString → CString) (path : CString)
    (disk : RctimeDisk) : List LogLine :=
  debugMessage logLevel "Reading last rctime from disk.".toList ++
    if disk.text.isSome then [] else initLogged logLevel parentPath path disk

/-- What is logged where the text is not two numbers. -/
def corruptLogged (logLevel : Int) (parentPath : CString → CString) (path : CString)
    (disk : RctimeDisk) : List LogLine :=
  .warning (path ++ " is corrupt. Reinitializing.".toList) ::
    initLogged logLevel parentPath path disk

/-- The constructor on a file system. -/
def load (logLevel : Int) (parentPath : CString → CString) (path : CString)
    (disk : RctimeDisk) : Outcome :=
  let logged := openLogged logLevel parentPath path disk
  if disk.text.isNone && !disk.makesPath then .exited logged
  else
    match convert disk.content with
    | .ok lastRctime => .finished lastRctime logged
    | .error .outOfRange => .threw .outOfRange
    | .error .invalidArgument =>
      let logged := logged ++ corruptLogged logLevel parentPath path disk
      if disk.makesPath then .finished .zero logged else .exited logged

section Load

variable {logLevel : Int} {parentPath : CString → CString} {path : CString} {disk : RctimeDisk}
  {lastRctime : Timespec}

/-- The constructor returns where the numbers can be read, or where there are none and the
directory is there. -/
theorem load_eq_finished_iff :
    (∃ logged, load logLevel parentPath path disk = .finished lastRctime logged) ↔
      disk.Yields lastRctime := by
  rw [RctimeDisk.Yields, converts_iff, inRange_iff, load]
  by_cases stuck : (disk.text.isNone && !disk.makesPath) = true
  · rw [if_pos stuck]
    simp only [Bool.and_eq_true, Option.isNone_iff_eq_none, Bool.not_eq_true'] at stuck
    simp [stuck.1, stuck.2]
  · have made : disk.text = none → disk.makesPath = true := by
      intro missing
      simpa [missing] using stuck
    rw [if_neg stuck, and_iff_right made]
    cases convert disk.content with
    | ok found => simp
    | error thrown =>
        cases thrown with
        | outOfRange => simp
        | invalidArgument => cases disk.makesPath <;> simp [eq_comm]

/-- Where the file can be written, the daemon begins with the same watermark. -/
theorem begin_of_yields (yields : disk.Yields lastRctime)
    (keeps : disk.keeps = true) {daemon : Daemon} (same : daemon.disk = disk.text)
    (tokenize : CString → CString → List CString) (pid : Nat) (config : Config) (flags : Flags)
    (argMax : Int) (envpSize : Nat) :
    ∃ next, daemon.begin tokenize pid config flags argMax envpSize = some next ∧
      next.crawler = ⟨config, lastRctime⟩ ∧ next.flags = flags := by
  have content : disk.content = daemon.disk.getD initLastRctime := by
    rw [RctimeDisk.content, keeps, same]
    rfl
  obtain ⟨_, found⟩ := yields
  rw [converts_iff, inRange_iff, content] at found
  rw [Daemon.begin, ← construct_eq, construct]
  rcases found with converted | ⟨corrupt, caught, _, rfl⟩
  · rw [converted]
    exact ⟨_, rfl, rfl, rfl⟩
  · cases converted : convert (daemon.disk.getD initLastRctime) with
    | ok found => exact absurd ⟨found, converted⟩ corrupt
    | error thrown =>
        cases thrown with
        | outOfRange => exact absurd converted caught
        | invalidArgument => exact ⟨_, rfl, rfl, rfl⟩

end Load

end LastRctime

/-! ## main -/

/-- How the process starts. -/
inductive Startup where
  | ended (ending : OptionEnding)
  /-- The version is printed, and `main` returns 0. -/
  | version
  /-- The constructor of `Config` or `LastRctime` throws. -/
  | threw (exception : NumeralError)
  | exited (logged : List LogLine)
  /-- Both have returned; the one of `Syncer` and then `poll_base` are next. -/
  | starts (config : Config) (lastRctime : Timespec) (flags : Flags) (logged : List LogLine)

/-- The file system at the start. -/
structure Disk where
  fsExists : CString → Bool
  parentPath : CString → CString
  config : CString → ConfigDisk
  rctime : CString → RctimeDisk

/-- How the process goes on behind the constructor of `LastRctime`. -/
def LastRctime.Outcome.startup (config : Config) (flags : Flags) (logged : List LogLine) :
    LastRctime.Outcome → Startup
  | .threw exception => .threw exception
  | .exited further => .exited (logged ++ further)
  | .finished lastRctime further => .starts config lastRctime flags (logged ++ further)

/-- The flags for `poll_base`. -/
def Options.flags (options : Options) : Flags :=
  ⟨options.seed, options.dryRun, options.setRctime, options.oneshot⟩

/-- The member initialisers of `Crawler`, up to `last_rctime_`. -/
def construct (disk : Disk) (options : Options) : Startup :=
  match Config.load disk.fsExists disk.parentPath options.configPath
      (disk.config options.configPath) options.overrides with
  | .threw exception => .threw exception
  | .exited logged => .exited logged
  | .finished config logged =>
    (LastRctime.load config.logLevel disk.parentPath config.lastRctimePath
      (disk.rctime config.lastRctimePath)).startup config options.flags logged

/-- `main` up to there. -/
def startup (disk : Disk) (opts : List Opt) : Startup :=
  match opts.foldlM Options.take {} with
  | .error ending => .ended ending
  | .ok options => if options.printVersAndExit then .version else construct disk options

/-! ## Which option counts -/

namespace Opt

/-- How the option ends the process, if it does. -/
def stops : Opt → Option OptionEnding
  | .help => some .usage
  | .nproc optarg =>
    match numberOption "Invalid number of processes.".toList optarg with
    | .ok _ => none
    | .error ending => some ending
  | .threads optarg =>
    match numberOption "Invalid number of threads.".toList optarg with
    | .ok _ => none
    | .error ending => some ending
  | _ => none

/-- What an option tells about the path, the log level, the processes and the threads. -/
def configPath? : Opt → Option CString
  | .config optarg => some optarg
  | _ => none

def logLevel? : Opt → Option Int
  | .verbose => some 2
  | .quiet => some 0
  | _ => none

def nproc? : Opt → Option Int
  | .nproc optarg => (stoi optarg).toOption
  | _ => none

def threads? : Opt → Option Int
  | .threads optarg => (stoi optarg).toOption
  | _ => none

end Opt

/-- The last option that tells something. -/
def lastOf {α : Type} (tells : Opt → Option α) (opts : List Opt) : Option α :=
  (opts.filterMap tells).getLast?

/-- The values of the command line. -/
def overridesOf (opts : List Opt) : ConfigOverrides where
  logLevelOverride := lastOf Opt.logLevel? opts
  nprocOverride := lastOf Opt.nproc? opts
  threadsOverride := lastOf Opt.threads? opts

/-- What the options tell, if none of them stops. -/
def optionsOf (opts : List Opt) : Options where
  seed := .seed ∈ opts
  dryRun := .dryRun ∈ opts
  setRctime := .setRctime ∈ opts
  printVersAndExit := .version ∈ opts
  oneshot := .oneshot ∈ opts
  configPath := (lastOf Opt.configPath? opts).getD defaultConfigPath
  overrides := overridesOf opts

section Options

variable {opts : List Opt}

theorem lastOf_concat {α : Type} (tells : Opt → Option α) (opts : List Opt) (opt : Opt) :
    lastOf tells (opts ++ [opt]) = (tells opt).or (lastOf tells opts) := by
  rw [lastOf, List.filterMap_append, List.getLast?_append]
  cases told : tells opt <;> simp [told, lastOf]

/-- A number that can be read is kept, anything else ends the process. -/
theorem map_numberOption {complaint optarg : CString} {keep : Int → Options} {kept : Options}
    (reads : ∀ number, stoi optarg = .ok number → keep number = kept) :
    (numberOption complaint optarg).map keep =
      match (match numberOption complaint optarg with
        | .ok _ => none
        | .error ending => some ending) with
      | some ending => .error ending
      | none => .ok kept := by
  cases read : stoi optarg with
  | ok number => simp [numberOption, read, Except.map, reads number read]
  | error thrown => cases thrown <;> simp [numberOption, read, Except.map]

/-- One pass of the loop. -/
theorem take_optionsOf (opts : List Opt) (opt : Opt) :
    (optionsOf opts).take opt = match opt.stops with
      | some ending => .error ending
      | none => .ok (optionsOf (opts ++ [opt])) := by
  cases opt with
  | help => rfl
  | nproc optarg =>
      refine map_numberOption fun number read => ?_
      simp [optionsOf, overridesOf, lastOf_concat, Opt.configPath?, Opt.logLevel?, Opt.nproc?,
        Opt.threads?, read, Except.toOption]
  | threads optarg =>
      refine map_numberOption fun number read => ?_
      simp [optionsOf, overridesOf, lastOf_concat, Opt.configPath?, Opt.logLevel?, Opt.nproc?,
        Opt.threads?, read, Except.toOption]
  | _ =>
      simp [Options.take, Opt.stops, optionsOf, overridesOf, lastOf_concat, Opt.configPath?,
        Opt.logLevel?, Opt.nproc?, Opt.threads?]

/-- The first option that stops decides; without one the last of each kind counts. -/
theorem foldlM_take (opts : List Opt) : opts.foldlM Options.take {} =
    match opts.findSome? Opt.stops with
    | some ending => .error ending
    | none => .ok (optionsOf opts) := by
  induction opts using List.reverseRecOn with
  | nil => rfl
  | append_singleton opts opt ih =>
      rw [List.foldlM_append, ih, List.findSome?_append]
      cases opts.findSome? Opt.stops with
      | some ending => rfl
      | none =>
          have pass := take_optionsOf opts opt
          change (optionsOf opts).take opt >>= pure = _
          cases stopped : opt.stops <;> simp_all

theorem findSome?_stops : opts.findSome? Opt.stops = none ↔ ∀ opt ∈ opts, opt.stops = none :=
  List.findSome?_eq_none_iff

end Options

/-- The constructor of `Config` returns if the file can be opened and read and its fields,
below those of the command line, pass `verify`. -/
theorem Config.load_eq_finished_iff {fsExists : CString → Bool}
    {parentPath : CString → CString} {path : CString} {disk : ConfigDisk}
    {overrides : ConfigOverrides} {config : Config} {logged : List LogLine} :
    Config.load fsExists parentPath path disk overrides = .finished config logged ↔
      ∃ text read found, disk.text = some text ∧ readConfig text = .ok read ∧
        config = read.overrideFields overrides ∧
        config.verify (fsExists config.basePath) path = ⟨found, false⟩ ∧
        logged = found ++ debugMessage config.logLevel config.dump := by
  have constructed : ∀ {text read}, disk.text = some text → readConfig text = .ok read →
      Config.load fsExists parentPath path disk overrides =
        let config := read.overrideFields overrides
        let verdict := config.verify (fsExists config.basePath) path
        if verdict.exits then .exited verdict.logged
        else .finished config (verdict.logged ++ debugMessage config.logLevel config.dump) := by
    intro text read given parsed
    simp only [Config.load, given, Config.construct, Config.ofText, parsed, Except.map]
  constructor
  · intro finished
    cases given : disk.text with
    | none =>
        obtain ⟨_, exited, _⟩ := @load_of_missing overrides fsExists parentPath path disk given
        rw [exited] at finished
        cases finished
    | some text =>
        cases parsed : readConfig text with
        | error thrown =>
            simp only [Config.load, given, Config.construct, Config.ofText, parsed, Except.map]
              at finished
            cases finished
        | ok read =>
            rw [constructed given parsed] at finished
            dsimp only at finished
            split at finished
            · cases finished
            · next passes =>
              cases finished
              exact ⟨text, read, _, rfl, parsed, rfl,
                congrArg (Verdict.mk _) (Bool.not_eq_true _ ▸ passes), rfl⟩
  · rintro ⟨text, read, found, given, parsed, rfl, verdict, rfl⟩
    rw [constructed given parsed]
    dsimp only
    rw [verdict]
    rfl

/-! ## How the process starts -/

section Startup

variable {disk : Disk} {opts : List Opt}

theorem startup_of_stopped {ending : OptionEnding}
    (stopped : opts.findSome? Opt.stops = some ending) :
    startup disk opts = .ended ending := by
  rw [startup, foldlM_take, stopped]

theorem startup_of_version (passed : opts.findSome? Opt.stops = none)
    (version : .version ∈ opts) : startup disk opts = .version := by
  rw [startup, foldlM_take, passed]
  exact if_pos (decide_eq_true version)

theorem startup_of_passed (passed : opts.findSome? Opt.stops = none)
    (version : .version ∉ opts) : startup disk opts = construct disk (optionsOf opts) := by
  rw [startup, foldlM_take, passed]
  exact if_neg fun asked => version (of_decide_eq_true asked)

/-- The constructors neither end as an option does nor print the version. -/
theorem construct_cases (disk : Disk) (options : Options) :
    (∀ ending, construct disk options ≠ .ended ending) ∧ construct disk options ≠ .version := by
  rw [construct]
  split
  · simp
  · simp
  · next config logged _ =>
    cases LastRctime.load config.logLevel disk.parentPath config.lastRctimePath
        (disk.rctime config.lastRctimePath) <;> simp [LastRctime.Outcome.startup]

theorem startup_eq_starts_iff {outcome : LastRctime.Outcome} {config config' : Config}
    {lastRctime : Timespec} {flags flags' : Flags} {logged logged' : List LogLine} :
    outcome.startup config' flags' logged' = .starts config lastRctime flags logged ↔
      config' = config ∧ flags = flags' ∧
        ∃ further, outcome = .finished lastRctime further ∧ logged = logged' ++ further := by
  cases outcome with
  | threw exception => simp [LastRctime.Outcome.startup]
  | exited further => simp [LastRctime.Outcome.startup]
  | finished time further =>
      simp only [LastRctime.Outcome.startup, Startup.starts.injEq,
        LastRctime.Outcome.finished.injEq]
      constructor
      · rintro ⟨rfl, rfl, rfl, rfl⟩
        exact ⟨rfl, rfl, _, ⟨rfl, rfl⟩, rfl⟩
      · rintro ⟨rfl, rfl, _, ⟨rfl, rfl⟩, rfl⟩
        exact ⟨rfl, rfl, rfl, rfl⟩

theorem construct_eq_starts_iff {options : Options} {config : Config} {lastRctime : Timespec}
    {flags : Flags} {logged : List LogLine} :
    construct disk options = .starts config lastRctime flags logged ↔
      flags = options.flags ∧
      ∃ first second, Config.load disk.fsExists disk.parentPath options.configPath
          (disk.config options.configPath) options.overrides = .finished config first ∧
        LastRctime.load config.logLevel disk.parentPath config.lastRctimePath
          (disk.rctime config.lastRctimePath) = .finished lastRctime second ∧
        logged = first ++ second := by
  rw [construct]
  split
  · next loaded => simp [loaded]
  · next loaded => simp [loaded]
  · next read first loaded =>
    rw [startup_eq_starts_iff]
    constructor
    · rintro ⟨rfl, rfl, second, rctime, rfl⟩
      exact ⟨rfl, first, second, loaded, rctime, rfl⟩
    · rintro ⟨rfl, _, second, loaded', rctime, rfl⟩
      cases loaded.symm.trans loaded'
      exact ⟨rfl, rfl, second, rctime, rfl⟩

theorem startup_ended_iff {ending : OptionEnding} :
    startup disk opts = .ended ending ↔ opts.findSome? Opt.stops = some ending := by
  cases stopped : opts.findSome? Opt.stops with
  | some found => simp [startup_of_stopped stopped]
  | none =>
      by_cases version : .version ∈ opts
      · simp [startup_of_version stopped version]
      · simp [startup_of_passed stopped version, (construct_cases disk _).1]

theorem startup_version_iff :
    startup disk opts = .version ↔ opts.findSome? Opt.stops = none ∧ .version ∈ opts := by
  cases stopped : opts.findSome? Opt.stops with
  | some found => simp [startup_of_stopped stopped]
  | none =>
      by_cases version : .version ∈ opts
      · simp [startup_of_version stopped version, version]
      · simp [startup_of_passed stopped version, version, (construct_cases disk _).2]

theorem startup_starts_iff {config : Config} {lastRctime : Timespec} {flags : Flags}
    {logged : List LogLine} :
    startup disk opts = .starts config lastRctime flags logged ↔
      opts.findSome? Opt.stops = none ∧ .version ∉ opts ∧
      construct disk (optionsOf opts) = .starts config lastRctime flags logged := by
  cases stopped : opts.findSome? Opt.stops with
  | some found => simp [startup_of_stopped stopped]
  | none =>
      by_cases version : .version ∈ opts
      · simp [startup_of_version stopped version, version]
      · simp [startup_of_passed stopped version, version]

end Startup

/-- How the process starts. The first option that stops it decides, wherever `--version`
stands. If there is none, `--version` decides. Else it gets past the constructors of
`Config` and `LastRctime` if the configuration file can be opened and passes `verify`, where
a switch counts wherever it stands, and of the options with a value the last one counts,
and comes before the field of the file; and if the watermark can be read, or started
again. The daemon then begins with that configuration and watermark. -/
theorem startup_iff (disk : Disk) (opts : List Opt) :
    (∀ ending, startup disk opts = .ended ending ↔
      ∃ before opt behind, opts = before ++ opt :: behind ∧
        (∀ earlier ∈ before, earlier.stops = none) ∧ opt.stops = some ending) ∧
    (startup disk opts = .version ↔ (∀ opt ∈ opts, opt.stops = none) ∧ .version ∈ opts) ∧
    (∀ config lastRctime flags,
      (∃ logged, startup disk opts = .starts config lastRctime flags logged) ↔
      (∀ opt ∈ opts, opt.stops = none) ∧ .version ∉ opts ∧
      flags = ⟨.seed ∈ opts, .dryRun ∈ opts, .setRctime ∈ opts, .oneshot ∈ opts⟩ ∧
      (∃ path text read found, path = (lastOf Opt.configPath? opts).getD defaultConfigPath ∧
        (disk.config path).text = some text ∧ readConfig text = .ok read ∧
        config = { read with
          logLevel := (lastOf Opt.logLevel? opts).getD read.logLevel
          nproc := (lastOf Opt.nproc? opts).getD read.nproc
          threads := (lastOf Opt.threads? opts).getD read.threads } ∧
        config.verify (disk.fsExists config.basePath) path = ⟨found, false⟩) ∧
      (disk.rctime config.lastRctimePath).Yields lastRctime) ∧
    (∀ config lastRctime flags logged,
      startup disk opts = .starts config lastRctime flags logged →
      (disk.rctime config.lastRctimePath).keeps = true →
      ∀ daemon : Daemon, daemon.disk = (disk.rctime config.lastRctimePath).text →
      ∀ tokenize pid argMax envpSize, ∃ next,
        daemon.begin tokenize pid config flags argMax envpSize = some next ∧
        next.crawler = ⟨config, lastRctime⟩ ∧ next.flags = flags) := by
  refine ⟨fun ending => ?_, ?_, fun config lastRctime flags => ?_, ?_⟩
  · rw [startup_ended_iff, List.findSome?_eq_some_iff]
    simp only [and_comm]
  · rw [startup_version_iff, findSome?_stops]
  · constructor
    · rintro ⟨logged, starts⟩
      obtain ⟨passed, version, constructed⟩ := startup_starts_iff.mp starts
      obtain ⟨switches, first, second, loaded, rctime, _⟩ := construct_eq_starts_iff.mp constructed
      obtain ⟨text, read, found, given, parsed, fields, verdict, _⟩ :=
        Config.load_eq_finished_iff.mp loaded
      exact ⟨findSome?_stops.mp passed, version, switches,
        ⟨_, text, read, found, rfl, given, parsed, fields, verdict⟩,
        LastRctime.load_eq_finished_iff.mp ⟨second, rctime⟩⟩
    · rintro ⟨passed, version, switches, ⟨_, text, read, found, rfl, given, parsed, fields,
        verdict⟩, yields⟩
      obtain ⟨second, rctime⟩ := LastRctime.load_eq_finished_iff.mpr yields
      have loaded := (@Config.load_eq_finished_iff _ disk.parentPath _ _ (overridesOf opts) _
        _).mpr ⟨text, read, found, given, parsed, fields, verdict, rfl⟩
      exact ⟨_, startup_starts_iff.mpr ⟨findSome?_stops.mpr passed, version,
        construct_eq_starts_iff.mpr ⟨switches, _, second, loaded, rctime, rfl⟩⟩⟩
  · intro config lastRctime flags logged starts keeps daemon same tokenize pid argMax envpSize
    obtain ⟨_, _, constructed⟩ := startup_starts_iff.mp starts
    obtain ⟨_, _, second, _, rctime, _⟩ := construct_eq_starts_iff.mp constructed
    exact LastRctime.begin_of_yields (LastRctime.load_eq_finished_iff.mp ⟨second, rctime⟩)
      keeps same tokenize pid config flags argMax envpSize

end CephGeoRep
