import CephGeoRep.Support.CString
import CephGeoRep.Support.Split
import CephGeoRep.Config.Verify
import CephGeoRep.Syncer.Sync

/-!
# Flags and destinations

The constructor of `Syncer` cuts two texts of the configuration into tokens. The loop
over the destinations skips empty tokens, the loop over the flags keeps them.
-/

namespace CephGeoRep

open Support

/-! ## The tokenizer -/

/-- The escape and the two quotes of the tokenizer. -/
def isSpecial (char : Char) : Bool := char = '\\' || char = '"' || char = '\''

/-- A text without them. -/
def Plain (text : CString) : Prop := ∀ char ∈ text, isSpecial char = false

instance (text : CString) : Decidable (Plain text) :=
  List.decidableBAll (fun char => isSpecial char = false) text

def isSeparator (separators : CString) (char : Char) : Bool := separators.contains char

/-- What is known of `boost::tokenizer` with `escaped_list_separator`: without escapes and
quotes a text is cut at every separator. The empty text has no tokens. -/
structure SplitsAtSeparators (tokenize : CString → CString → List CString) : Prop where
  nil : ∀ separators, tokenize separators [] = []
  plain : ∀ separators {text : CString}, text ≠ [] → Plain text →
    tokenize separators text = text.splitOnP (isSeparator separators)

theorem splitsAtSeparators_plainTokens : SplitsAtSeparators plainTokens where
  nil _ := rfl
  plain _ _ nonempty _ := if_neg (mt List.isEmpty_iff.mp nonempty)

section Tokens

variable {tokenize : CString → CString → List CString} {separators text : CString}

/-- The tokens that are not empty. -/
theorem SplitsAtSeparators.filter (splits : SplitsAtSeparators tokenize)
    (plain : Plain text) :
    (tokenize separators text).filter (fun token => !token.isEmpty) =
      solidPieces (isSeparator separators) text := by
  by_cases empty : text = []
  · rw [empty, splits.nil, solidPieces_nil, List.filter_nil]
  · rw [splits.plain separators empty plain, solidPieces]

/-- The tokens of a row are its words, unless one of the gaps is wide. -/
theorem SplitsAtSeparators.eq_names_iff (splits : SplitsAtSeparators tokenize)
    (row : Row (isSeparator separators)) (plain : Plain row.text) :
    tokenize separators row.text = row.names ↔ row.Single := by
  cases row with
  | empty => exact iff_of_true (splits.nil separators) trivial
  | words first rest =>
      have nonempty : (Row.words first rest).text ≠ [] :=
        List.append_ne_nil_of_left_ne_nil first.2.1 _
      rw [splits.plain separators nonempty plain, splitOnP_text_iff]

end Tokens

/-! ## A configuration to read -/

/-- The lines of a file that passes `verify`. -/
def acceptedLines (flags : Piece '\n') : List (Piece '\n') := [
  ⟨"Source Directory = /data".toList, by decide⟩,
  ⟨"Exec = rsync".toList, by decide⟩,
  flags,
  ⟨"Metadata Directory = /var/lib/cephgeorep/".toList, by decide⟩,
  ⟨"Sync Period = 10".toList, by decide⟩,
  ⟨"Propagation Delay = 100".toList, by decide⟩,
  ⟨"Processes = 4".toList, by decide⟩,
  ⟨"Threads = 8".toList, by decide⟩,
  ⟨"Log Level = 1".toList, by decide⟩]

def acceptedConfig (execFlags : CString) : Config where
  logLevel := 1
  nproc := 4
  threads := 8
  syncPeriodS := 10
  propDelayMs := 100
  lastRctimePath := "/var/lib/cephgeorep/last_rctime.dat".toList
  execBin := "rsync".toList
  execFlags := execFlags
  basePath := "/data".toList

theorem passes_acceptedConfig (execFlags configPath : CString) :
    ((acceptedConfig execFlags).verify true configPath).exits = false := by
  simp only [Config.verify_passes_iff, acceptedConfig]
  decide +kernel

/-! ## Flags -/

/-- The value that a text gives to the key `Flags`: that of the last line which does. -/
def flagsValue (text : CString) : CString := (lastValue (entriesOf text) .flags).getD []

/-- What is there of an argument as a C string: `strcpy` stops at a NUL. -/
def argText (arg : CString) : CString := stringAt '\x00' arg 0

/-- The initial argument vector has these flags, and they are what is accounted for. -/
structure Syncer.HasFlags (syncer : Syncer) (flags : List CString) : Prop where
  payload : syncer.startPayload.map (Option.map argText) =
    some (argText syncer.execBin) :: flags.map some
  memory : syncer.startMemUsage = sizeT (argMem syncer.execBin.length
    + (flags.map fun flag => argMem flag.length).sum
    + argMem (maxDestinationLen syncer.destinations.names).toNat + sizeofPtr)

section Flags

variable {tokenize : CString → CString → List CString} {text : CString}
  {overrides : ConfigOverrides} {config : Config}

theorem argText_eq_self_iff {arg : CString} : argText arg = arg ↔ '\x00' ∉ arg := by
  rw [argText, stringAt, List.drop_zero, List.takeWhile_eq_self_iff]
  constructor
  · intro all member
    simpa using all _ member
  · intro ended char member
    simpa using fun same : char = '\x00' => ended (same ▸ member)

theorem not_mem_argText (arg : CString) : '\x00' ∉ argText arg := by
  intro member
  simpa using List.mem_takeWhile_imp member

/-- The arguments are the tokens, as far as they are C strings. -/
theorem Syncer.map_argText_of_hasFlags {argMax : Int} {envpSize : Nat} {flags : List CString}
    (has : (Syncer.new tokenize argMax envpSize config).HasFlags flags) :
    (tokenize " ".toList config.execFlags).map argText = flags := by
  have payload := (List.cons.inj has.payload).2
  rw [List.map_map] at payload
  apply List.map_injective_iff.mpr (Option.some_injective _)
  rw [← payload, List.map_map]
  rfl

/-- Tokens that are C strings are the arguments, and accounted for. -/
theorem Syncer.hasFlags_of_ended {flags : List CString}
    (tokens : tokenize " ".toList config.execFlags = flags)
    (ended : ∀ flag ∈ flags, '\x00' ∉ flag) (argMax : Int) (envpSize : Nat) :
    (Syncer.new tokenize argMax envpSize config).HasFlags flags := by
  subst tokens
  refine ⟨?_, rfl⟩
  apply congrArg (some (argText config.execBin) :: ·)
  rw [List.map_map, List.map_inj_left]
  intro flag member
  exact congrArg some (argText_eq_self_iff.mpr (ended flag member))

/-- The flags of the configuration are the arguments exactly if one space is between any
two of them, and none has a NUL in it: an empty argument is there for every further space,
and a NUL cuts the argument that it is in. -/
theorem hasFlags_iff_single (splits : SplitsAtSeparators tokenize)
    (read : Config.ofText text overrides = .ok config) (row : Row (isSeparator " ".toList))
    (value : flagsValue text = row.text) (plain : Plain row.text)
    (argMax : Int) (envpSize : Nat) :
    (Syncer.new tokenize argMax envpSize config).HasFlags row.names ↔
      row.Single ∧ ∀ name ∈ row.names, '\x00' ∉ name := by
  have flags : config.execFlags = row.text := by
    rw [Config.ofText_entriesOf read, ← value]
    rfl
  constructor
  · intro has
    have texts := Syncer.map_argText_of_hasFlags has
    rw [flags] at texts
    constructor
    · -- As many tokens as words, and the words are those that are not empty.
      have kept : (tokenize " ".toList row.text).filter (fun token => !token.isEmpty) =
          row.names := (splits.filter plain).trans (solidPieces_text row)
      have length : (tokenize " ".toList row.text).length = row.names.length := by
        rw [← texts, List.length_map]
      rw [← splits.eq_names_iff row plain, ← kept, eq_comm]
      apply List.filter_sublist.eq_of_length
      rw [kept, length]
    · intro name member
      rw [← texts] at member
      obtain ⟨token, _, rfl⟩ := List.mem_map.mp member
      exact not_mem_argText token
  · rintro ⟨single, ended⟩
    apply Syncer.hasFlags_of_ended _ ended
    rw [flags]
    exact (splits.eq_names_iff row plain).mpr single

/-- Two flags that one space keeps apart. -/
theorem hasFlags_oneSpace : ∃ config,
    Config.ofText "Exec = rsync\nFlags = -a --relative # default\n".toList {} = .ok config ∧
    (Syncer.new plainTokens 2097152 0 config).HasFlags ["-a".toList, "--relative".toList] := by
  have read : Config.ofText "Exec = rsync\nFlags = -a --relative # default\n".toList {} =
      .ok { execBin := "rsync".toList, execFlags := "-a --relative".toList } := by decide +kernel
  refine ⟨_, read, ?_⟩
  exact (hasFlags_iff_single splitsAtSeparators_plainTokens read
    (.words ⟨"-a".toList, by decide⟩ [(⟨[' '], by decide⟩, ⟨"--relative".toList, by decide⟩)])
    (by decide +kernel) (by decide +kernel) 2097152 0).mpr ⟨by decide, by decide⟩

/-- With two spaces, the command has an empty argument. -/
theorem not_hasFlags_twoSpaces : ∃ config,
    Config.ofText (terminated
      (acceptedLines ⟨"Flags = -a  --relative".toList, by decide⟩)) {} = .ok config ∧
    (∀ configPath, (config.verify true configPath).exits = false) ∧
    (Syncer.new plainTokens 2097152 0 config).startPayload =
      [some "rsync".toList, some "-a".toList, some [], some "--relative".toList] ∧
    ¬ (Syncer.new plainTokens 2097152 0 config).HasFlags ["-a".toList, "--relative".toList] := by
  refine ⟨acceptedConfig "-a  --relative".toList, by decide +kernel, passes_acceptedConfig _,
    by decide +kernel, fun has => ?_⟩
  exact absurd has.payload (by decide +kernel)

end Flags

/-! ## Destinations -/

/-- The destinations that a line lists. Its value is a row of names between which there
are spaces and commas; other lines have nothing to say. -/
inductive Lists (line : CString) : List CString → Prop where
  | names (key : lineKey line = "Destination".toList) (equals : '=' ∈ uncommented line)
      (row : Row (isSeparator ", ".toList)) (value : lineValue line = row.text)
      (plain : Plain row.text) : Lists line row.names
  | nothing (key : lineKey line ≠ "Destination".toList) : Lists line []

section Destinations

variable {tokenize : CString → CString → List CString} {line pending : CString}
  {names tokens : List CString} {fallback : CString}

/-- The destinations start at the first, and there is always one. -/
theorem Destinations.ofTokens_names (tokens : List CString) (fallback : CString) :
    (ofTokens tokens fallback).names =
        (if tokens.filter (fun token => !token.isEmpty) = [] then [fallback]
        else tokens.filter fun token => !token.isEmpty) ∧
      (ofTokens tokens fallback).current = 0 := by
  rw [ofTokens]
  split
  · next none => exact ⟨(if_pos none).symm, rfl⟩
  · next first rest some =>
    have nonempty : tokens.filter (fun token => !token.isEmpty) ≠ [] := by simp only [some, ne_eq,
      reduceCtorEq, not_false_eq_true]
    exact ⟨some.symm.trans (if_neg nonempty).symm, rfl⟩

/-- A comparison that yields another key has failed. -/
theorem of_ite_some {known other : ConfigKey} {compared : Prop} [Decidable compared]
    {rest : Option ConfigKey} (found : (if compared then some known else rest) = some other)
    (differs : known ≠ other) : rest = some other := by
  split at found
  · exact absurd (Option.some.inj found) differs
  · exact found

theorem ofText_eq_destination_iff {key : CString} :
    ConfigKey.ofText key = some .destination ↔ key = "Destination".toList := by
  constructor
  · intro found
    by_contra other
    rw [ConfigKey.ofText] at found
    repeat replace found := of_ite_some found (by decide)
    rw [if_neg other] at found
    repeat replace found := of_ite_some found (by decide)
    cases found
  · rintro rfl
    decide

/-- What a line has to say is in its assignment. -/
theorem Lists.valuesOf_assignmentOf (lists : Lists line names) (pending : CString) :
    (valuesOf (assignmentOf pending line).toList .destination).flatMap
        (solidPieces (isSeparator ", ".toList)) = names ∧
      ∀ value ∈ valuesOf (assignmentOf pending line).toList .destination, Plain value := by
  cases lists with
  | names key equals row value plain =>
      have assigned : assignedValue pending line = row.text := (if_pos equals).trans value
      have known : ConfigKey.ofText (lineKey line) = some .destination :=
        ofText_eq_destination_iff.mpr key
      rw [assignmentOf, assigned, known]
      split
      · next empty =>
        have none := solidPieces_text row
        rw [empty, solidPieces_nil] at none
        exact ⟨none, List.forall_mem_nil Plain⟩
      · simp [valuesOf, solidPieces_text, plain]
  | nothing key =>
      have none : valuesOf (assignmentOf pending line).toList .destination = [] := by
        rw [assignmentOf]
        split
        · rfl
        · cases found : ConfigKey.ofText (lineKey line) with
          | none => rfl
          | some known =>
              have other : known ≠ .destination := by
                rintro rfl
                exact key (ofText_eq_destination_iff.mp found)
              simp [valuesOf, other]
      rw [none]
      exact ⟨rfl, List.forall_mem_nil Plain⟩

/-- A row of such names is its own value. -/
theorem clean_text (row : Row (isSeparator ", ".toList))
    (names : ∀ name ∈ row.names, '#' ∉ name ∧ '\t' ∉ name) : Clean row.text := by
  have solid : ∀ char ∈ row.text, isSeparator ", ".toList char = false →
      isBlank char = false := by
    intro char member word
    rcases row.mem_text member with ⟨name, listed, inside⟩ | separates
    · have tab : char ≠ '\t' := fun same => (names name listed).2 (same ▸ inside)
      have space : char ≠ ' ' := fun same => by
        rw [same] at word
        exact absurd word (by decide)
      simp [isBlank, space, tab]
    · rw [separates] at word
      cases word
  constructor
  · intro member
    rcases row.mem_text member with ⟨name, listed, inside⟩ | separates
    · exact (names name listed).1 inside
    · exact absurd separates (by decide)
  · apply trim_of_ends
    · intro char head
      exact solid char (List.mem_of_head? head) (row.head_text head)
    · intro char last
      exact solid char (List.mem_of_getLast? last) (row.last_text last)

theorem plain_text (row : Row (isSeparator ", ".toList)) (names : ∀ name ∈ row.names, Plain name) :
    Plain row.text := by
  intro char member
  rcases row.mem_text member with ⟨name, listed, inside⟩ | separates
  · exact names name listed char inside
  · have cases : char = ',' ∨ char = ' ' := by simpa [isSeparator] using separates
    rcases cases with rfl | rfl <;> decide

/-- How a line may be written to list its names. -/
theorem lists_of_written {line : CString} (row : Row (isSeparator ", ".toList))
    (names : ∀ name ∈ row.names, '#' ∉ name ∧ '\t' ∉ name ∧ Plain name)
    (written : Written line "Destination".toList row.text) : Lists line row.names := by
  have clean := clean_text row fun name listed => ⟨(names name listed).1, (names name listed).2.1⟩
  have key : Clean "Destination".toList := ⟨by decide, by decide⟩
  obtain ⟨equals, read, value⟩ := written.read key (by decide) clean
  exact .names read equals row value (plain_text row fun name listed => (names name listed).2.2)

theorem valuesOf_append (front back : List (ConfigKey × CString)) (known : ConfigKey) :
    valuesOf (front ++ back) known = valuesOf front known ++ valuesOf back known := by
  simp [valuesOf]

/-- So is what all lines have to say. -/
theorem valuesOf_assignments {lines : List CString} {lists : List (List CString)}
    (listed : List.Forall₂ Lists lines lists) (pending : CString) :
    (valuesOf (assignments pending lines) .destination).flatMap
        (solidPieces (isSeparator ", ".toList)) = lists.flatten ∧
      ∀ value ∈ valuesOf (assignments pending lines) .destination, Plain value := by
  induction listed generalizing pending with
  | nil => exact ⟨rfl, List.forall_mem_nil Plain⟩
  | cons first _ ih =>
      obtain ⟨here, plain⟩ := first.valuesOf_assignmentOf pending
      obtain ⟨later, plain'⟩ := ih (pendingValue pending _)
      rw [assignments, valuesOf_append, List.flatMap_append, here, later, List.flatten_cons]
      refine ⟨rfl, fun value member => ?_⟩
      rcases List.mem_append.mp member with before | behind
      · exact plain value before
      · exact plain' value behind

/-- The comma that joins two lines does not make a word special. -/
theorem plain_intercalate {values : List CString} (plain : ∀ value ∈ values, Plain value) :
    Plain (List.intercalate [','] values) := by
  intro char member
  rcases mem_intercalate member with rfl | ⟨value, listed, inside⟩
  · decide
  · exact plain value listed char inside

/-- The destinations are the names that the lines list, in the order of the lines. If
there are none, there is the one that the fields of the old format describe. -/
theorem destinations_of_lists (splits : SplitsAtSeparators tokenize)
    {lines : List (Piece '\n')} {lists : List (List CString)}
    (listed : List.Forall₂ (fun line names => Lists line.1 names) lines lists)
    {overrides : ConfigOverrides} {config : Config}
    (read : Config.ofText (terminated lines) overrides = .ok config)
    (argMax : Int) (envpSize : Nat) :
    (Syncer.new tokenize argMax envpSize config).destinations.names =
        (if lists.flatten = [] then [Syncer.constructDestination config.remoteUser
          config.remoteHost config.remoteDirectory] else lists.flatten) ∧
      (Syncer.new tokenize argMax envpSize config).destinations.current = 0 := by
  have listed' : List.Forall₂ Lists (linesRead (terminated lines)) (lists ++ [[], []]) := by
    have empty : Lists [] [] := .nothing (by decide)
    rw [← List.append_nil (terminated lines), linesRead_terminated_append]
    exact List.rel_append ((List.forall₂_map_left_iff).mpr listed) (.cons empty (.cons empty .nil))
  obtain ⟨all, plain⟩ := valuesOf_assignments listed' []
  rw [← entriesOf] at all plain
  rw [List.flatten_append] at all
  have joined : config.destinations =
      List.intercalate [','] (valuesOf (entriesOf (terminated lines)) .destination) := by
    rw [Config.ofText_entriesOf read]
    rfl
  have kept : (tokenize ", ".toList config.destinations).filter (fun token => !token.isEmpty) =
      lists.flatten := by
    rw [joined, splits.filter (plain_intercalate plain), solidPieces_intercalate (by decide)]
    exact all.trans (List.append_nil _)
  rw [← kept]
  exact Destinations.ofTokens_names _ _

/-- Two lines of destinations, with another one between them. -/
theorem destinations_twoLines : ∃ config,
    Config.ofText (terminated
      [(⟨"Destination = a:/x, b:/y=1 # near".toList, by decide⟩ : Piece '\n'),
        ⟨"Threads = 4".toList, by decide⟩, ⟨"Destination=c".toList, by decide⟩]) {} =
      .ok config ∧
    (Syncer.new plainTokens 2097152 0 config).destinations.names =
      ["a:/x".toList, "b:/y=1".toList, "c".toList] := by
  have first : Lists "Destination = a:/x, b:/y=1 # near".toList
      ["a:/x".toList, "b:/y=1".toList] :=
    lists_of_written
      (.words ⟨"a:/x".toList, by decide⟩ [(⟨", ".toList, by decide⟩, ⟨"b:/y=1".toList, by decide⟩)])
      (by decide)
      ⟨[], [' '], [' '], [' '], "# near".toList, by decide +kernel, by simp [isBlank],
        .inr ⟨" near".toList, by decide⟩⟩
  have second : Lists "Threads = 4".toList [] := .nothing (by decide +kernel)
  have third : Lists "Destination=c".toList ["c".toList] :=
    lists_of_written (.words ⟨"c".toList, by decide⟩ []) (by decide)
      ⟨[], [], [], [], [], by decide +kernel, by simp, .inl rfl⟩
  have listed : List.Forall₂ (fun line names => Lists line.1 names)
      [(⟨"Destination = a:/x, b:/y=1 # near".toList, by decide⟩ : Piece '\n'),
        ⟨"Threads = 4".toList, by decide⟩, ⟨"Destination=c".toList, by decide⟩]
      [["a:/x".toList, "b:/y=1".toList], [], ["c".toList]] :=
    .cons first (.cons second (.cons third .nil))
  have read : Config.ofText (terminated
      [(⟨"Destination = a:/x, b:/y=1 # near".toList, by decide⟩ : Piece '\n'),
        ⟨"Threads = 4".toList, by decide⟩, ⟨"Destination=c".toList, by decide⟩]) {} =
      .ok { destinations := "a:/x, b:/y=1,c".toList, threads := 4 } := by decide +kernel
  exact ⟨_, read, (destinations_of_lists splitsAtSeparators_plainTokens listed read 2097152 0).1⟩

/-- Without such a line, and without the fields of the old format, the one destination is
the empty text. -/
theorem destinations_noLines : ∃ (lines : List (Piece '\n')) (config : Config),
    List.Forall₂ (fun line names => Lists line.1 names) lines (lines.map fun _ => []) ∧
    Config.ofText (terminated lines) {} = .ok config ∧
    (∀ configPath, (config.verify true configPath).exits = false) ∧
    SplitsAtSeparators plainTokens ∧
    (Syncer.new plainTokens 2097152 0 config).destinations.names = [[]] ∧
    (Syncer.new plainTokens 2097152 0 config).destinations.names ≠
      (lines.map fun _ => []).flatten := by
  have only : (Syncer.new plainTokens 2097152 0
      (acceptedConfig "-a".toList)).destinations.names = [[]] := by
    rw [Syncer.new, Destinations.ofTokens]
    rfl
  have silent : ∀ line ∈ acceptedLines ⟨"Flags = -a".toList, by decide⟩,
      lineKey line.1 ≠ "Destination".toList := by
    decide +kernel
  refine ⟨acceptedLines ⟨"Flags = -a".toList, by decide⟩, acceptedConfig "-a".toList, ?_,
    by decide +kernel, passes_acceptedConfig _, splitsAtSeparators_plainTokens, only, ?_⟩
  · rw [List.forall₂_map_right_iff, List.forall₂_same]
    exact fun line member => .nothing (silent line member)
  · rw [only]
    exact List.cons_ne_nil _ _

end Destinations

end CephGeoRep
