import CephGeoRep.Config.Dump

/-!
# The configuration file of a first start

Where the configuration file cannot be opened `init_config_file` writes one with two
fields left open, the source directory and the destinations, or ends the program. The file
it writes is read at once, and again after it has been completed by hand; both are the
same text with different lines in two places.
-/

namespace CephGeoRep

open Support

/-- The lines of the file, with those of the two open fields as parameters. -/
def initConfigLines (source destination : CString) : List CString := [
  "# local backup settings".toList,
  source,
  "Ignore Hidden = false            # ignore files beginning with \".\"".toList,
  "Ignore Windows Lock = true       # ignore files beginning with \"~$\"".toList,
  "Ignore Vim Swap = true           # ignore vim .swp files (.<filename>.swp)".toList,
  [],
  "# remote settings".toList,
  destination,
  [],
  "# daemon settings".toList,
  "Exec = rsync                     # program to use for syncing - rsync or scp".toList,
  "Flags = -a --relative            # execution flags for above program (space delim)".toList,
  "Metadata Directory = /var/lib/cephgeorep/".toList,
  "Sync Period = 10                 # time in seconds between checks for changes".toList,
  "Propagation Delay = 100          # time in milliseconds between snapshot and sync".toList,
  "Processes = 4                    # number of parallel sync processes to launch".toList,
  "Threads = 8                      # number of worker threads to search for files".toList,
  "Log Level = 1".toList,
  "# 0 = minimum logging".toList,
  "# 1 = basic logging".toList,
  "# 2 = debug logging".toList,
  "# If Remote User is empty, the daemon will sync remotely as the executing user.".toList,
  "# Propagation Delay is to account for the limit that Ceph can".toList,
  "# propagate the modification time of a file all the way back to".toList,
  "# the root of the sync directory.".toList]

/-- The line that `init_config_file` writes for the source directory. -/
def openSource : CString :=
  "Source Directory =               # full path to directory to backup".toList

def openDestination : CString :=
  "Destination =                    # [[user@]host:][directory] (root@backup:/tank)".toList

/-- What `init_config_file` writes. -/
def initConfigText : CString := textOf (initConfigLines openSource openDestination)

/-- What the file system makes of the path of the configuration: the text, if the file can
be opened for reading and writing; whether `create_directories` succeeds; whether a file
can be opened there for writing; and whether that one can be opened again. -/
structure ConfigDisk where
  text : Option CString
  makesPath : Bool
  opensFile : Bool
  reopens : Bool

/-- `Config::init_config_file`: the text it writes, or the error it exits with. -/
def initConfigFile (parentPath : CString → CString) (configPath : CString) (disk : ConfigDisk) :
    Except CString CString :=
  if !disk.makesPath then .error ("Error creating path: ".toList ++ parentPath configPath)
  else if !disk.opensFile then .error ("Error opening config file: ".toList ++ configPath)
  else .ok initConfigText

/-- The constructor on a file system. A stream that does not open the second time is not
read, which leaves the fields as those of an empty file. -/
def Config.load (fsExists : CString → Bool) (parentPath : CString → CString)
    (configPath : CString) (disk : ConfigDisk) (overrides : ConfigOverrides) : Config.Outcome :=
  match disk.text with
  | some text => Config.construct fsExists configPath text overrides
  | none =>
    match initConfigFile parentPath configPath disk with
    | .error complaint => .exited [.error complaint]
    | .ok written =>
      Config.construct fsExists configPath (if disk.reopens then written else []) overrides

/-- What the file denotes with the two fields filled in. -/
def initConfig (basePath destinations : CString) : Config where
  logLevel := 1
  nproc := 4
  threads := 8
  ignoreHidden := false
  ignoreWinLock := true
  ignoreVimSwap := true
  syncPeriodS := 10
  propDelayMs := 100
  lastRctimePath := "/var/lib/cephgeorep/".toList ++ lastRctimeName
  execBin := "rsync".toList
  execFlags := "-a --relative".toList
  basePath := basePath
  destinations := destinations

/-! ## What it denotes -/

/-- The fields of the file, with the two open ones. -/
def initFields (basePath destinations : CString) : List (ConfigKey × CString) := [
  (.sourceDirectory, basePath),
  (.ignoreHidden, showBool false),
  (.ignoreWindowsLock, showBool true),
  (.ignoreVimSwap, showBool true),
  (.destination, destinations),
  (.exec, "rsync".toList),
  (.flags, "-a --relative".toList),
  (.metadataDirectory, "/var/lib/cephgeorep/".toList),
  (.syncPeriod, showInt 10),
  (.propagationDelay, showInt 100),
  (.processes, showInt 4),
  (.threads, showInt 8),
  (.logLevel, showInt 1)]

/-- What the parser makes of the lines of the two open fields. -/
structure Filled (source destination basePath destinations : CString) : Prop where
  source : Reads source (fieldEntry (.sourceDirectory, basePath))
  destination : Reads destination (fieldEntry (.destination, destinations))

variable {source destination basePath destinations : CString}

/-- A comment. -/
theorem reads_comment {line rest : CString} (comment : line = '#' :: rest)
    (single : '\n' ∉ rest) : Reads line none := by
  have key : lineKey line = [] := by
    rw [lineKey, comment, uncommented, List.takeWhile_cons_of_neg (by simp)]
    rfl
  refine reads_heading ?_ (by rw [key]; decide)
  rw [comment, List.mem_cons, not_or]
  exact ⟨by decide, single⟩

/-- A line of the file, given by its characters. -/
theorem reads_given {line chars : CString} (known : ConfigKey) (value : CString)
    (same : line = chars) (shape : '\n' ∉ chars ∧ '=' ∈ uncommented chars ∧
      lineKey chars = known.name ∧ lineValue chars = value) :
    Reads line (fieldEntry (known, value)) := by
  obtain ⟨single, equals, key, isValue⟩ := shape
  refine ⟨same ▸ single, fun pending => ?_⟩
  rw [same, assignmentOf, assignedValue, if_pos equals, key, isValue, ofText_name, fieldEntry]
  split <;> rfl

theorem entriesOf_initConfig (filled : Filled source destination basePath destinations) :
    entriesOf (textOf (initConfigLines source destination)) =
      (initFields basePath destinations).filterMap fieldEntry := by
  have comment : ∀ {text : String} {rest : CString}, text.toList = '#' :: rest → '\n' ∉ rest →
      Reads text.toList none := reads_comment
  have blank : Reads [] none := reads_heading (by decide) (by decide)
  have reads : List.Forall₂ Reads (initConfigLines source destination) _ :=
    .cons (comment String.toList_ofList (by decide)) <| .cons filled.source <|
    .cons (reads_given .ignoreHidden (showBool false) String.toList_ofList (by decide)) <|
    .cons (reads_given .ignoreWindowsLock (showBool true) String.toList_ofList (by decide)) <|
    .cons (reads_given .ignoreVimSwap (showBool true) String.toList_ofList (by decide)) <|
    .cons blank <| .cons (comment String.toList_ofList (by decide)) <|
    .cons filled.destination <|
    .cons blank <| .cons (comment String.toList_ofList (by decide)) <|
    .cons (reads_given .exec "rsync".toList String.toList_ofList (by decide)) <|
    .cons (reads_given .flags "-a --relative".toList String.toList_ofList (by decide)) <|
    .cons (reads_given .metadataDirectory "/var/lib/cephgeorep/".toList String.toList_ofList
      (by decide)) <|
    .cons (reads_given .syncPeriod (showInt 10) String.toList_ofList (by decide)) <|
    .cons (reads_given .propagationDelay (showInt 100) String.toList_ofList (by decide)) <|
    .cons (reads_given .processes (showInt 4) String.toList_ofList (by decide)) <|
    .cons (reads_given .threads (showInt 8) String.toList_ofList (by decide)) <|
    .cons (reads_given .logLevel (showInt 1) String.toList_ofList (by decide)) <|
    .cons (comment String.toList_ofList (by decide)) <|
    .cons (comment String.toList_ofList (by decide)) <|
    .cons (comment String.toList_ofList (by decide)) <|
    .cons (comment String.toList_ofList (by decide)) <|
    .cons (comment String.toList_ofList (by decide)) <|
    .cons (comment String.toList_ofList (by decide)) <|
    .cons (comment String.toList_ofList (by decide)) .nil
  rw [entriesOf_textOf reads]
  rfl

/-- The numbers of the file are read as they are written. -/
theorem fits_initFields (basePath destinations : CString) :
    ∀ field ∈ initFields basePath destinations, field.1.isNumeric = true →
      ∀ number ∈ leadingInteger field.2, IsInt32 number := by
  simp only [initFields, List.forall_mem_cons, ConfigKey.isNumeric, Bool.false_eq_true,
    false_implies, true_and, forall_const, List.not_mem_nil, implies_true, and_true]
  decide +kernel

theorem referenceConfig_initFields (basePath destinations : CString) :
    referenceConfig ((initFields basePath destinations).filterMap fieldEntry) =
      initConfig basePath destinations := by
  have path : ((lastValue ((initFields basePath destinations).filterMap fieldEntry)
      .metadataDirectory).map (· ++ lastRctimeName)).getD [] =
      "/var/lib/cephgeorep/".toList ++ lastRctimeName := by
    rw [@lastValue_fields "/var/lib/cephgeorep/".toList _ (initFields basePath destinations) rfl,
      if_neg (by decide)]
    rfl
  have fields : ∀ known value, valuesOf (initFields basePath destinations) known = [value] →
      (lastValue ((initFields basePath destinations).filterMap fieldEntry) known).getD [] = value :=
    fun _ _ => text_fields
  have absent : ∀ known, valuesOf (initFields basePath destinations) known = [] →
      (lastValue ((initFields basePath destinations).filterMap fieldEntry) known).getD [] = [] :=
    fun _ => text_absent
  rw [referenceConfig, path, int_fields 1 rfl, int_fields 4 rfl, int_fields 8 rfl,
    flag_fields false rfl, flag_fields true rfl, flag_fields true rfl, int_fields 10 rfl,
    int_fields 100 rfl, fields .exec _ rfl, fields .flags _ rfl, fields .sourceDirectory _ rfl,
    absent .remoteUser rfl, absent .remoteHost rfl, absent .remoteDirectory rfl,
    destinations_fields rfl]
  rfl

/-! ## How a first start ends -/

/-- Whatever the two fields are, the file is read to its end. -/
theorem ofText_initConfig (filled : Filled source destination basePath destinations)
    (overrides : ConfigOverrides) :
    Config.ofText (textOf (initConfigLines source destination)) overrides =
      .ok ((initConfig basePath destinations).overrideFields overrides) := by
  rw [Config.ofText, readConfig_of_fields (entriesOf_initConfig filled) (fits_initFields _ _),
    referenceConfig_initFields]
  rfl

/-- The lines that `init_config_file` writes leave both fields empty. -/
theorem filled_openLines : Filled openSource openDestination [] [] where
  source := reads_given .sourceDirectory [] String.toList_ofList (by decide)
  destination := reads_given .destination [] String.toList_ofList (by decide)

theorem filled_of_written (single : '\n' ∉ source ∧ '\n' ∉ destination)
    (written : Written source "Source Directory".toList basePath ∧
      Written destination "Destination".toList destinations)
    (clean : Clean basePath ∧ Clean destinations) :
    Filled source destination basePath destinations where
  source := reads_written written.1 single.1 (neat_name .sourceDirectory).1.1
    (neat_name .sourceDirectory).2 (ofText_name .sourceDirectory) clean.1
  destination := reads_written written.2 single.2 (neat_name .destination).1.1
    (neat_name .destination).2 (ofText_name .destination) clean.2

/-- The values of the command line that pass `verify`. -/
def ConfigOverrides.NonNegative (overrides : ConfigOverrides) : Prop :=
  (∀ number ∈ overrides.logLevelOverride, 0 ≤ number) ∧
    (∀ number ∈ overrides.nprocOverride, 0 ≤ number) ∧
    ∀ number ∈ overrides.threadsOverride, 0 ≤ number

theorem getD_nonneg_iff {override : Option Int} {number : Int} (positive : 0 ≤ number) :
    0 ≤ override.getD number ↔ ∀ number ∈ override, 0 ≤ number := by
  cases override <;> simp [positive]

variable {overrides : ConfigOverrides}

/-- Only the two fields and the command line can be mistaken. -/
theorem verify_initConfig_iff {present : Bool} {configPath : CString} :
    (((initConfig basePath destinations).overrideFields overrides).verify present
      configPath).exits = false ↔ basePath ≠ [] ∧ present = true ∧ overrides.NonNegative := by
  rw [Config.verify_passes_iff]
  have path : "/var/lib/cephgeorep/".toList ++ lastRctimeName ≠ [] :=
    List.append_ne_nil_of_right_ne_nil _ (by decide)
  have execBin : "rsync".toList ≠ [] := by decide
  simp only [Config.overrideFields, initConfig, path, execBin, and_self, or_true, ne_eq,
    not_false_eq_true, true_and, ConfigOverrides.NonNegative,
    getD_nonneg_iff (show 0 ≤ 1 by decide), getD_nonneg_iff (show 0 ≤ 4 by decide),
    getD_nonneg_iff (show 0 ≤ 8 by decide)]
  simp

/-- Without the old fields, and with flags, there is nothing to warn about. -/
theorem logged_of_passes {config : Config} {present : Bool} {configPath : CString}
    (passes : (config.verify present configPath).exits = false)
    (current : config.remoteUser = [] ∧ config.remoteHost = [] ∧ config.remoteDirectory = [] ∧
      config.execFlags ≠ []) : (config.verify present configPath).logged = [] := by
  have warnings : ∀ finding ∈ config.findings present, finding.isError = false →
      finding.wrong = false := by
    simp [Config.findings, current]
  have silent : (config.findings present).filter Finding.wrong = [] := by
    rw [List.filter_eq_nil_iff]
    intro finding listed wrong
    cases isError : finding.isError with
    | false => exact absurd (warnings finding listed isError) (ne_false_of_eq_true wrong)
    | true =>
        have exits := (Config.verify_of_finding listed wrong isError configPath).1
        rw [passes] at exits
        cases exits
  rw [Config.verify, silent]
  rfl

/-- The complaint about a search directory that is not there. -/
def missingSource : CString :=
  "Config does not contain a search directory (Source Directory).".toList

/-- Without a source directory the constructor exits. -/
theorem construct_of_noSource {text : CString} {config : Config}
    (read : Config.ofText text overrides = .ok config) (missing : config.basePath = [])
    (fsExists : CString → Bool) (configPath : CString) :
    ∃ logged, Config.construct fsExists configPath text overrides = .exited logged ∧
      .error missingSource ∈ logged := by
  have listed : ⟨config.basePath.isEmpty, true, missingSource⟩ ∈
      config.findings (fsExists config.basePath) := List.mem_cons_self
  obtain ⟨exits, logged⟩ := Config.verify_of_finding listed (List.isEmpty_iff.mpr missing) rfl
    configPath
  refine ⟨_, ?_, logged⟩
  rw [Config.construct, read]
  exact if_pos exits

/-- An empty file leaves the fields as they are initialised. -/
theorem ofText_nil (overrides : ConfigOverrides) :
    Config.ofText [] overrides = .ok (Config.overrideFields {} overrides) := by
  rw [Config.ofText, show readConfig [] = .ok {} by decide +kernel]
  rfl

/-- Without a file that opens the program ends: with the error of `init_config_file`, or
because what is there then has no source directory. -/
theorem load_of_missing {fsExists : CString → Bool} {parentPath : CString → CString}
    {configPath : CString} {disk : ConfigDisk} (missing : disk.text = none) :
    ∃ logged, Config.load fsExists parentPath configPath disk overrides = .exited logged ∧
      (disk.makesPath = false →
        logged = [.error ("Error creating path: ".toList ++ parentPath configPath)]) ∧
      (disk.makesPath = true → disk.opensFile = false →
        logged = [.error ("Error opening config file: ".toList ++ configPath)]) ∧
      (disk.makesPath = true → disk.opensFile = true → .error missingSource ∈ logged) := by
  have exits : ∀ complaint, initConfigFile parentPath configPath disk = .error complaint →
      Config.load fsExists parentPath configPath disk overrides = .exited [.error complaint] := by
    intro complaint failed
    simp only [Config.load, missing, failed]
  cases made : disk.makesPath with
  | false =>
      refine ⟨_, exits _ ?_, fun _ => rfl, by simp, by simp⟩
      rw [initConfigFile, made]
      rfl
  | true =>
      cases opened : disk.opensFile with
      | false =>
          refine ⟨_, exits _ ?_, by simp, fun _ _ => rfl, by simp⟩
          rw [initConfigFile, made, opened]
          rfl
      | true =>
          have written : initConfigFile parentPath configPath disk = .ok initConfigText := by
            rw [initConfigFile, made, opened]
            rfl
          obtain ⟨logged, exited, complaint⟩ : ∃ logged, Config.construct fsExists configPath
              (if disk.reopens then initConfigText else []) overrides = .exited logged ∧
              .error missingSource ∈ logged := by
            split
            · exact construct_of_noSource (ofText_initConfig filled_openLines overrides) rfl _ _
            · exact construct_of_noSource (ofText_nil overrides) rfl _ _
          refine ⟨logged, ?_, by simp, by simp, fun _ _ => complaint⟩
          simp only [Config.load, missing, written, exited]

/-- A program that cannot open its configuration file for reading and writing always ends:
with the complaint that the search directory is missing where it can write the file, and
else with the error that it cannot. Once the two fields are filled in, however that is
written, and the file can be opened, the constructor returns if and only if the directory
exists and no number of the command line is negative, and then it has nothing to log but
the dump of the log level 2. -/
theorem load_of_filled (single : '\n' ∉ source ∧ '\n' ∉ destination)
    (written : Written source "Source Directory".toList basePath ∧
      Written destination "Destination".toList destinations)
    (clean : Clean basePath ∧ Clean destinations) (fsExists : CString → Bool)
    (parentPath : CString → CString) (configPath : CString) (disk : ConfigDisk)
    (overrides : ConfigOverrides) :
    (disk.text = none →
      ∃ logged, Config.load fsExists parentPath configPath disk overrides = .exited logged ∧
        (disk.makesPath = false →
          logged = [.error ("Error creating path: ".toList ++ parentPath configPath)]) ∧
        (disk.makesPath = true → disk.opensFile = false →
          logged = [.error ("Error opening config file: ".toList ++ configPath)]) ∧
        (disk.makesPath = true → disk.opensFile = true → .error missingSource ∈ logged)) ∧
    (disk.text = some (textOf (initConfigLines source destination)) →
      (basePath ≠ [] ∧ fsExists basePath = true ∧ overrides.NonNegative →
        Config.load fsExists parentPath configPath disk overrides =
          .finished ((initConfig basePath destinations).overrideFields overrides)
            (debugMessage (overrides.logLevelOverride.getD 1)
              ((initConfig basePath destinations).overrideFields overrides).dump)) ∧
      (¬ (basePath ≠ [] ∧ fsExists basePath = true ∧ overrides.NonNegative) →
        ∃ logged, Config.load fsExists parentPath configPath disk overrides =
          .exited logged)) := by
  have read := ofText_initConfig (filled_of_written single written clean) overrides
  have pass : (((initConfig basePath destinations).overrideFields overrides).verify
      (fsExists basePath) configPath).exits = false ↔
      basePath ≠ [] ∧ fsExists basePath = true ∧ overrides.NonNegative := verify_initConfig_iff
  refine ⟨load_of_missing, fun given => ?_⟩
  have opened : Config.load fsExists parentPath configPath disk overrides =
      Config.construct fsExists configPath (textOf (initConfigLines source destination))
        overrides := by
    simp only [Config.load, given]
  rw [opened, Config.construct, read]
  constructor
  · intro accepted
    have passes := pass.mpr accepted
    have flags : "-a --relative".toList ≠ [] := by decide
    have silent := logged_of_passes passes ⟨rfl, rfl, rfl, flags⟩
    refine (if_neg (ne_true_of_eq_false passes)).trans ?_
    exact congrArg (Config.Outcome.finished _) (congrArg (· ++ _) silent)
  · intro mistaken
    exact ⟨_, if_pos (Bool.eq_true_of_not_eq_false (mt pass.mp mistaken))⟩

theorem load_of_written : Config.load (fun path => path = "/mnt/fs".toList) id "/etc/conf".toList
    ⟨some (textOf (initConfigLines "Source Directory = /mnt/fs # data".toList
      "\tDestination=backup:/tank".toList)), true, true, true⟩ { nprocOverride := some 2 } =
    .finished { initConfig "/mnt/fs".toList "backup:/tank".toList with nproc := 2 } [] := by
  have source : Written "Source Directory = /mnt/fs # data".toList "Source Directory".toList
      "/mnt/fs".toList :=
    ⟨[], [' '], [' '], [' '], "# data".toList, by simp, by simp [isBlank],
      .inr ⟨_, String.toList_ofList⟩⟩
  have destination : Written "\tDestination=backup:/tank".toList "Destination".toList
      "backup:/tank".toList :=
    ⟨['\t'], [], [], [], [], by simp, by simp [isBlank], .inl rfl⟩
  have clean : Clean "/mnt/fs".toList ∧ Clean "backup:/tank".toList :=
    ⟨⟨by decide, by decide⟩, ⟨by decide, by decide⟩⟩
  exact ((load_of_filled ⟨by decide, by decide⟩ ⟨source, destination⟩ clean _ _ _ _ _).2 rfl).1
    ⟨by decide, by decide, by simp [ConfigOverrides.NonNegative]⟩

end CephGeoRep
