import CephGeoRep.Config.Lines

/-!
# Which lines act where they should not

A line without `=` assigns the value of an earlier line to its key, and a last line
without a newline is read twice. Both happen in one place of the loop, so each is
described by a condition on the pending state in front of that line.
-/

namespace CephGeoRep

open Support

/-! ## Assigning once more -/

/-- The field of a key is already what the value would make it. A destination is
appended and the metadata path extended in any case. -/
def ConfigKey.Holds (value : CString) (config : Config) : ConfigKey → Prop
  | .sourceDirectory => config.basePath = value
  | .remoteUser => config.remoteUser = value
  | .remoteHost => config.remoteHost = value
  | .remoteDirectory => config.remoteDirectory = value
  | .destination => False
  | .metadataDirectory => False
  | .syncPeriod => numericField value = .ok config.syncPeriodS
  | .ignoreHidden => booleanField value config.ignoreHidden = config.ignoreHidden
  | .ignoreWindowsLock => booleanField value config.ignoreWinLock = config.ignoreWinLock
  | .ignoreVimSwap => booleanField value config.ignoreVimSwap = config.ignoreVimSwap
  | .propagationDelay => numericField value = .ok config.propDelayMs
  | .logLevel => numericField value = .ok config.logLevel
  | .exec => config.execBin = value
  | .flags => config.execFlags = value
  | .processes => numericField value = .ok config.nproc
  | .threads => numericField value = .ok config.threads

/-- The list of destinations only gets longer. -/
theorem destinations_ne (destinations : CString) {value : CString} (nonempty : value ≠ []) :
    (if destinations.isEmpty then value else destinations ++ ',' :: value) ≠ destinations := by
  intro same
  have lengths := congrArg List.length same
  have positive := List.length_pos_iff.mpr nonempty
  split at lengths
  · next none =>
    rw [List.isEmpty_iff.mp none, List.length_nil] at lengths
    omega
  · rw [List.length_append, List.length_cons] at lengths
    omega

/-- Only such an assignment changes nothing. -/
theorem Config.assign_eq_self_iff {config : Config} {value : CString} (nonempty : value ≠ [])
    (known : ConfigKey) :
    config.assign value known = .ok (config, value) ↔ known.Holds value config := by
  cases known with
  | destination =>
      apply iff_of_false _ not_false
      intro same
      have fields := congrArg (fun pair => pair.1.destinations) (Except.ok.inj same)
      exact destinations_ne config.destinations nonempty fields
  | metadataDirectory =>
      apply iff_of_false _ not_false
      intro same
      exact append_lastRctimeName_ne value (congrArg Prod.snd (Except.ok.inj same))
  | syncPeriod | propagationDelay | logLevel | processes | threads =>
      cases config
      cases number : numericField value <;>
        simp [Config.assign, ConfigKey.Holds, number, Except.map]
  | _ =>
      cases config
      simp [Config.assign, ConfigKey.Holds, eq_comm]

/-- Apart from these two keys, to assign a value twice is to assign it once. -/
theorem Config.holds_of_assign {config : Config} {value : CString} {known : ConfigKey}
    {next : Config × CString} (assigned : config.assign value known = .ok next)
    (noDestination : known ≠ .destination) (noMetadata : known ≠ .metadataDirectory) :
    known.Holds value next.1 := by
  cases known with
  | destination => exact absurd rfl noDestination
  | metadataDirectory => exact absurd rfl noMetadata
  | syncPeriod | propagationDelay | logLevel | processes | threads =>
      obtain ⟨_, read, rfl⟩ := numericField_of_map assigned
      exact read
  | ignoreHidden | ignoreWindowsLock | ignoreVimSwap =>
      cases assigned
      simp only [ConfigKey.Holds, booleanField]
      split <;> rfl
  | _ =>
      cases assigned
      rfl

/-! ## Lines without an equals sign -/

/-- The lines that a missing `=` leaves without effect: nothing is pending, or the text
names no key, or the field of the key is as the pending value would make it. -/
def Inert (vars : ReadVars) (line : CString) : Prop :=
  vars.value = [] ∨ ConfigKey.ofText (lineKey line) = none ∨
    ∃ known, ConfigKey.ofText (lineKey line) = some known ∧ known.Holds vars.value vars.config

/-- A line without `=` that changes nothing is inert, and conversely. -/
theorem read_eq_self_iff_inert {vars : ReadVars} {line : CString}
    (noEquals : '=' ∉ uncommented line) :
    vars.pending.read line = .ok vars.pending ↔ Inert vars line := by
  have value : vars.pending.valueOf line = vars.value := if_neg noEquals
  by_cases none : vars.value = []
  · apply iff_of_true _ (.inl none)
    rw [Pending.read_of_unknown (.inl (value.trans none)), value]
    rfl
  cases found : ConfigKey.ofText (lineKey line) with
  | none =>
      apply iff_of_true _ (.inr (.inl found))
      rw [Pending.read_of_unknown (.inr found), value]
      rfl
  | some known =>
      have nonempty : vars.pending.valueOf line ≠ [] := by rwa [value]
      rw [Pending.read_of_known found nonempty, value]
      have inert : Inert vars line ↔ known.Holds vars.value vars.config := by
        simp [Inert, none, found]
      rw [inert, ← Config.assign_eq_self_iff none known]
      change (vars.config.assign vars.value known).map _ = _ ↔ _
      cases vars.config.assign vars.value known with
      | error thrown => simp [Except.map]
      | ok next =>
          obtain ⟨config, value⟩ := next
          simp [Except.map, ReadVars.pending, and_comm]

/-- Whatever follows a line and whatever is overridden, the line can be deleted without
a change of the fields. The last line may lack its newline. -/
def Deletable (before : List (Piece '\n')) (line : Piece '\n') : Prop :=
  (∀ after overrides,
    Config.ofText (terminated before ++ line.1 ++ '\n' :: after) overrides =
      Config.ofText (terminated before ++ after) overrides) ∧
  ∀ overrides, Config.ofText (terminated before ++ line.1) overrides =
    Config.ofText (terminated before) overrides

/-- The state behind the complete lines of a text. -/
theorem readAll_eq_ok_iff {lines : List (Piece '\n')} {pending : Pending} :
    Pending.readAll {} lines.unattach = .ok pending ↔
      ∃ vars, readLoop { rest := terminated lines } {} = .ok vars ∧ vars.pending = pending := by
  rw [← readLoop_of_terminated]
  cases readLoop { rest := terminated lines } {} <;> simp [Except.map]

section Deletable

variable {before : List (Piece '\n')} {line : Piece '\n'} {overrides : ConfigOverrides}

/-- The fields of a text, from the state behind some of its lines. -/
theorem Config.ofText_append (rest : CString) :
    Config.ofText (terminated before ++ rest) overrides =
      (Pending.readAll {} before.unattach).bind fun pending =>
        (pending.readAll (linesRead rest)).map (Pending.fields overrides) := by
  rw [ofText_spec, linesRead_terminated_append, Pending.readAll_append]
  cases Pending.readAll {} before.unattach <;> rfl

/-- An inert line can go. -/
theorem deletable_of_inert (noEquals : '=' ∉ uncommented line.1)
    (inert : ∀ vars, readLoop { rest := terminated before } {} = .ok vars → Inert vars line.1) :
    Deletable before line := by
  have still : ∀ pending, Pending.readAll {} before.unattach = .ok pending →
      pending.read line.1 = .ok pending := by
    intro pending reached
    obtain ⟨vars, read, rfl⟩ := readAll_eq_ok_iff.mp reached
    exact (read_eq_self_iff_inert noEquals).mpr (inert vars read)
  constructor
  · intro after overrides
    rw [List.append_assoc, Config.ofText_append, Config.ofText_append, linesRead_append_cons]
    cases reached : Pending.readAll {} before.unattach with
    | error thrown => rfl
    | ok pending =>
        change Except.map _ (Pending.readAll _ _) = Except.map _ (Pending.readAll _ _)
        rw [Pending.readAll, still pending reached]
        rfl
  · intro overrides
    have nothing : Config.ofText (terminated before ++ []) overrides = _ :=
      Config.ofText_append []
    rw [List.append_nil] at nothing
    rw [nothing, Config.ofText_append, linesRead_last]
    cases reached : Pending.readAll {} before.unattach with
    | error thrown => rfl
    | ok pending =>
        change Except.map _ (Pending.readAll _ _) = _
        rw [Pending.readAll, still pending reached]
        change Except.map _ (Pending.readAll _ _) = _
        rw [Pending.readAll, still pending reached]
        rfl

@[simp]
theorem Config.overrideFields_none (config : Config) : config.overrideFields {} = config := rfl

/-- What deleting a line means for the state in front of it. -/
theorem read_of_deletable (deletable : Deletable before line) {pending : Pending}
    (reached : Pending.readAll {} before.unattach = .ok pending) (after : CString) :
    ((pending.read line.1).bind fun next => next.readAll (linesRead after)).map Pending.config =
      (pending.readAll (linesRead after)).map Pending.config := by
  have same := deletable.1 after {}
  rw [List.append_assoc, Config.ofText_append, Config.ofText_append, linesRead_append_cons,
    reached] at same
  exact same

/-- A line that names a key shows the pending value in the field of that key. -/
theorem readAll_flags {pending : Pending} (nonempty : pending.value ≠ []) :
    (pending.readAll (linesRead "Flags\n".toList)).map Pending.config =
      .ok { pending.config with execFlags := pending.value } := by
  have read : linesRead "Flags\n".toList = ["Flags".toList, [], []] := by decide
  have known : ConfigKey.ofText (lineKey "Flags".toList) = some .flags := by decide
  have value : pending.valueOf "Flags".toList = pending.value :=
    Pending.valueOf_of_noEquals (by decide) pending
  rw [read, Pending.readAll, Pending.read_of_known known (by rwa [value]), value]
  rfl

/-- A line that can go is inert: otherwise its field tells, or a further line does that
shows the value it leaves. -/
theorem inert_of_deletable (noEquals : '=' ∉ uncommented line.1)
    (deletable : Deletable before line) {vars : ReadVars}
    (reached : readLoop { rest := terminated before } {} = .ok vars) : Inert vars line.1 := by
  by_cases none : vars.value = []
  · exact .inl none
  cases found : ConfigKey.ofText (lineKey line.1) with
  | none => exact .inr (.inl found)
  | some known =>
      have pending := readAll_eq_ok_iff.mpr ⟨vars, reached, rfl⟩
      have value : vars.pending.valueOf line.1 = vars.value := if_neg noEquals
      have effect := Pending.read_of_known found (by rwa [value])
      rw [value] at effect
      have atEnd := read_of_deletable deletable pending []
      have shown := read_of_deletable deletable pending "Flags\n".toList
      rw [← read_eq_self_iff_inert noEquals]
      rw [effect] at atEnd shown ⊢
      cases assigned : vars.pending.config.assign vars.value known with
      | error thrown =>
          rw [assigned] at atEnd
          cases atEnd
      | ok next =>
          rw [assigned] at atEnd shown
          have fields : next.1 = vars.config := Except.ok.inj atEnd
          have left := Config.value_of_assign assigned
          have longer : next.2 ≠ [] := by
            rw [left]
            split <;> simp [none]
          have flags : next.2 = vars.value := by
            have both := shown
            change ((Pending.mk next.2 next.1).readAll _).map _ = _ at both
            rw [readAll_flags longer, readAll_flags none] at both
            exact congrArg Config.execFlags (Except.ok.inj both)
          change Except.ok (Pending.mk next.2 next.1) = _
          rw [fields, flags]
          rfl

end Deletable

/-- A line without `=` can be deleted exactly when it is inert where it stands. -/
theorem deletable_iff_inert {before : List (Piece '\n')} {line : Piece '\n'}
    (noEquals : '=' ∉ uncommented line.1) :
    Deletable before line ↔
      ∀ vars, readLoop { rest := terminated before } {} = .ok vars → Inert vars line.1 :=
  ⟨fun deletable _ reached => inert_of_deletable noEquals deletable reached,
    deletable_of_inert noEquals⟩

/-- A heading without `=` is not a key, so it can be deleted. -/
theorem deletable_heading :
    Deletable [⟨"Exec = rsync".toList, by decide⟩] ⟨"remote settings".toList, by decide⟩ :=
  (deletable_iff_inert (by decide)).mpr fun _ _ => .inr (.inl (by decide +kernel))

/-- A key without `=` takes the value of the line above. -/
theorem not_deletable_flags :
    ¬ ∀ (before : List (Piece '\n')) (line : Piece '\n'), '=' ∉ uncommented line.1 →
      Deletable before line := by
  intro all
  have deletable := all [⟨"Exec = rsync".toList, by decide⟩] ⟨"Flags".toList, by decide⟩ (by decide)
  have same := deletable.1 [] {}
  rw [Config.ofText_spec, Config.ofText_spec] at same
  exact absurd same (by decide)

/-! ## The last line -/

/-- What stands behind the last newline may be read twice: it appends no destination and
does not extend a pending value that is a metadata path. -/
def Repeatable (vars : ReadVars) (last : CString) : Prop :=
  (ConfigKey.ofText (lineKey last) = some .destination → vars.pending.valueOf last = []) ∧
  (ConfigKey.ofText (lineKey last) = some .metadataDirectory → '=' ∉ uncommented last →
    vars.value = [])

/-- The second reading assigns the same value, or the extended one. -/
theorem Pending.valueOf_again {pending next : Pending} {last : CString}
    (kept : next.value = pending.valueOf last) : next.valueOf last = pending.valueOf last := by
  rw [valueOf, kept, valueOf]
  split <;> rfl

section Repeatable

variable {vars : ReadVars} {last : CString} {next : Pending} {overrides : ConfigOverrides}

/-- A line that assigned nothing assigns nothing again. -/
theorem read_again_of_unknown
    (ignored : vars.pending.valueOf last = [] ∨ ConfigKey.ofText (lineKey last) = none)
    (first : vars.pending.read last = .ok next) :
    (next.read last).map (Pending.fields overrides) = .ok (next.fields overrides) ∧
      Repeatable vars last := by
  have effect := Pending.read_of_unknown ignored
  rw [first] at effect
  obtain rfl := Except.ok.inj effect
  have again : Pending.valueOf { vars.pending with value := vars.pending.valueOf last } last =
      vars.pending.valueOf last := Pending.valueOf_again rfl
  constructor
  · rw [Pending.read_of_unknown (by rwa [again])]
    rfl
  · obtain empty | unknown := ignored
    · refine ⟨fun _ => empty, fun _ noEquals => ?_⟩
      rwa [Pending.valueOf_of_noEquals noEquals] at empty
    · rw [Repeatable, unknown]
      exact ⟨fun other => absurd other (by decide), fun other => absurd other (by decide)⟩

/-- Without a `=` the second reading finds the metadata path that the first one left. -/
theorem read_again_of_metadata
    (found : ConfigKey.ofText (lineKey last) = some .metadataDirectory)
    (nonempty : vars.pending.valueOf last ≠ [])
    (effect : next = ⟨vars.pending.valueOf last ++ lastRctimeName,
      { vars.config with lastRctimePath := vars.pending.valueOf last ++ lastRctimeName }⟩) :
    (next.read last).map (Pending.fields overrides) = .ok (next.fields overrides) ↔
      Repeatable vars last := by
  by_cases equals : '=' ∈ uncommented last
  · have again : next.valueOf last = vars.pending.valueOf last := by
      rw [Pending.valueOf, Pending.valueOf, if_pos equals, if_pos equals]
    apply iff_of_true
    · rw [Pending.read_of_known found (by rwa [again]), again, effect]
      rfl
    · rw [Repeatable, found]
      exact ⟨fun other => absurd other (by decide), fun _ noEquals => absurd equals noEquals⟩
  · have again : next.valueOf last = vars.pending.valueOf last ++ lastRctimeName := by
      rw [Pending.valueOf_of_noEquals equals, effect]
    apply iff_of_false
    · rw [Pending.read_of_known found (by simp [again, nonempty]), again, effect]
      intro same
      exact append_lastRctimeName_ne _ (congrArg Config.lastRctimePath (Except.ok.inj same))
    · intro repeatable
      apply nonempty
      rw [Pending.valueOf_of_noEquals equals]
      exact repeatable.2 found equals

/-- The second reading of the last line keeps the fields in these cases only. -/
theorem read_again_iff_repeatable (first : vars.pending.read last = .ok next) :
    (next.read last).map (Pending.fields overrides) = .ok (next.fields overrides) ↔
      Repeatable vars last := by
  by_cases ignored :
      vars.pending.valueOf last = [] ∨ ConfigKey.ofText (lineKey last) = none
  · obtain ⟨same, repeatable⟩ := read_again_of_unknown ignored first
    exact iff_of_true same repeatable
  rw [not_or] at ignored
  obtain ⟨nonempty, isKey⟩ := ignored
  obtain ⟨known, found⟩ := Option.ne_none_iff_exists'.mp isKey
  have effect := Pending.read_of_known found nonempty
  rw [first] at effect
  by_cases destination : known = .destination
  · subst destination
    have kept : next.value = vars.pending.valueOf last :=
      congrArg Pending.value (Except.ok.inj effect)
    have again := Pending.valueOf_again kept
    apply iff_of_false
    · rw [Pending.read_of_known found (by rwa [again]), again]
      intro same
      exact destinations_ne _ nonempty (congrArg Config.destinations (Except.ok.inj same))
    · exact fun repeatable => nonempty (repeatable.1 found)
  by_cases metadata : known = .metadataDirectory
  · subst metadata
    exact read_again_of_metadata found nonempty (Except.ok.inj effect)
  cases assigned : vars.pending.config.assign (vars.pending.valueOf last) known with
  | error thrown =>
      rw [assigned] at effect
      cases effect
  | ok pair =>
      rw [assigned] at effect
      obtain rfl := Except.ok.inj effect
      have kept : pair.2 = vars.pending.valueOf last := by
        rw [Config.value_of_assign assigned, if_neg metadata]
      have again : Pending.valueOf ⟨pair.2, pair.1⟩ last = vars.pending.valueOf last :=
        Pending.valueOf_again kept
      have holds := Config.holds_of_assign assigned destination metadata
      apply iff_of_true
      · rw [Pending.read_of_known found (by rwa [again]), again,
          (Config.assign_eq_self_iff nonempty known).mpr holds]
        rfl
      · rw [Repeatable, found]
        exact ⟨fun same => absurd (Option.some.inj same) destination,
          fun same => absurd (Option.some.inj same) metadata⟩

end Repeatable

/-- Where the first reading throws, there is no second one. -/
theorem repeatable_of_error {vars : ReadVars} {last : CString} {thrown : NumeralError}
    (first : vars.pending.read last = .error thrown) : Repeatable vars last := by
  constructor
  · intro found
    by_contra nonempty
    rw [Pending.read_of_known found nonempty] at first
    cases first
  · intro found noEquals
    by_contra nonempty
    have value : vars.pending.valueOf last = vars.value := if_neg noEquals
    rw [Pending.read_of_known found (by rwa [value])] at first
    cases first

/-- A newline behind a text makes no difference exactly when its last line may be read
twice. -/
theorem ofText_newline_iff (text : CString) (overrides : ConfigOverrides) :
    Config.ofText text overrides = Config.ofText (text ++ ['\n']) overrides ↔
      ∀ vars, readLoop { rest := terminated (pieces '\n' text).1 } {} = .ok vars →
        Repeatable vars (pieces '\n' text).2.1 := by
  have whole : terminated (pieces '\n' text).1 ++ (pieces '\n' text).2.1 = text :=
    terminated_pieces text
  generalize pieces '\n' text = cut at whole ⊢
  obtain ⟨before, last⟩ := cut
  subst whole
  rw [Config.ofText_append, List.append_assoc, Config.ofText_append, linesRead_last,
    linesRead_append_cons]
  cases reached : Pending.readAll {} before.unattach with
  | error thrown =>
      apply iff_of_true rfl
      intro vars read
      rw [readAll_eq_ok_iff.mpr ⟨vars, read, rfl⟩] at reached
      cases reached
  | ok pending =>
      obtain ⟨vars, read, rfl⟩ := readAll_eq_ok_iff.mp reached
      have alone : (∀ vars', readLoop { rest := terminated before } {} = .ok vars' →
          Repeatable vars' last.1) ↔ Repeatable vars last.1 := by simp [read]
      rw [alone]
      change Except.map _ (Pending.readAll _ _) = Except.map _ (Pending.readAll _ _) ↔ _
      rw [Pending.readAll, Pending.readAll]
      cases first : vars.pending.read last.1 with
      | error thrown => exact iff_of_true rfl (repeatable_of_error first)
      | ok next =>
          change Except.map _ ((next.read last.1).bind _) = .ok (next.fields overrides) ↔ _
          rw [← read_again_iff_repeatable first]
          cases next.read last.1 <;> rfl

/-- The last destination is listed twice when its line is not terminated. -/
theorem ofText_newline_ne :
    ¬ ∀ (text : CString) (overrides : ConfigOverrides), text.getLast? ≠ some '\n' →
      Config.ofText text overrides = Config.ofText (text ++ ['\n']) overrides := by
  intro all
  have same := all "Destination = backup:/tank".toList {} (by decide)
  rw [Config.ofText_spec, Config.ofText_spec] at same
  exact absurd same (by decide)

end CephGeoRep
