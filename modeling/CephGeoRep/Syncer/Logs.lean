import CephGeoRep.Data.Numeral
import CephGeoRep.Support.FirstFree
import CephGeoRep.Support.Stream
import CephGeoRep.Syncer.Sync

/-!
# The logs of the sync programs

`dump_argv` and `log_errors` open a log with `std::ios::trunc`, but under a path that
`get_unique_log_path` has found free, so they never overwrite an earlier one. What
`log_errors` takes from the pipe it uses as C strings, one for each `read`.
-/

namespace CephGeoRep

open Semantics Support

/-! ## The directory -/

/-- The argument of `get_unique_log_path`. -/
inductive LogType where
  | fail
  | error
deriving DecidableEq

def LogType.text : LogType → CString
  | .fail => "fail".toList
  | .error => "error".toList

/-- The files in the directory of the logs, and what is in them. -/
abbrev LogDir := List (CString × CString)

/-- The path without a number; `stamp` is what `std::put_time` prints. -/
def logBase (type : LogType) (stamp : CString) : CString :=
  "/var/log/cephgeorep".toList ++ "/exec_".toList ++ type.text ++ '_' :: stamp ++ ".log".toList

/-- The path with a number. -/
def numberedPath (type : LogType) (stamp : CString) (number : Nat) : CString :=
  logBase type stamp ++ '.' :: Nat.toDigits 10 number

/-- `get_unique_log_path`. No result would mean that its loop has not ended yet. -/
def getUniqueLogPath (dir : LogDir) (type : LogType) (stamp : CString) : Option CString :=
  let taken := dir.map Prod.fst
  if logBase type stamp ∈ taken then
    (firstFree taken (numberedPath type stamp) (dir.length + 1) 1).map (numberedPath type stamp)
  else some (logBase type stamp)

namespace LogDir

/-- `open` with `std::ios::trunc`, and the writes. -/
def openTrunc (dir : LogDir) (path content : CString) : LogDir :=
  dir.filter (fun entry => entry.1 ≠ path) ++ [(path, content)]

/-- What `dump_argv` writes: the error with its text, and the arguments. -/
def dumpArgv (error : Int) (message : CString) (payload : List Arg) : CString :=
  showInt error ++ " : ".toList ++ message ++ '\n' ::
    payload.reduceOption.flatMap (· ++ ['\n'])

end LogDir

/-- What `log_errors` makes of the results of its calls of `read`. -/
def loggedText (chunks : List CString) : CString :=
  chunks.flatMap fun chunk => chunk.takeWhile (· ≠ '\x00')

/-- What happens to the directory. The calls tell the time and whether `open` succeeds. -/
inductive LogChoice where
  | dumpArgv (stamp : CString) (error : Int) (message : CString) (payload : List Arg)
      (opens : Bool)
  | logErrors (stamp : CString) (chunks : List CString) (opens : Bool)
  /-- Somebody removes a log. -/
  | remove (path : CString)

/-- The log that a call writes: its type, its time and its content. -/
def LogChoice.written : LogChoice → Option (LogType × CString × CString)
  | .dumpArgv stamp error message payload opens =>
    if opens then some (.fail, stamp, LogDir.dumpArgv error message payload) else none
  | .logErrors stamp chunks opens =>
    if opens then some (.error, stamp, loggedText chunks) else none
  | .remove _ => none

/-- The type and the time that a call names its log after. -/
def LogChoice.named : LogChoice → Option (LogType × CString)
  | .dumpArgv stamp _ _ _ _ => some (.fail, stamp)
  | .logErrors stamp _ _ => some (.error, stamp)
  | .remove _ => none

/-- `SyncProcess::dump_argv`, `SyncProcess::log_errors`, or a removal. -/
def LogDir.step (dir : LogDir) (choice : LogChoice) : Option LogDir :=
  match choice with
  | .remove path => some (dir.filter fun entry => entry.1 ≠ path)
  | .dumpArgv .. | .logErrors .. =>
    choice.named.bind fun (type, stamp) =>
      (getUniqueLogPath dir type stamp).map fun path =>
        match choice.written with
        | some (_, _, content) => dir.openTrunc path content
        | none => dir

/-- The directory over any number of calls. -/
def logMachine : Machine LogDir LogChoice where
  Initial _ := True
  step := LogDir.step

/-! ## Free paths -/

/-- All paths for one type and time: the one without a number is the first. -/
def logPath (type : LogType) (stamp : CString) : Nat → CString
  | 0 => logBase type stamp
  | number + 1 => numberedPath type stamp (number + 1)

section Paths

variable {type other : LogType} {stamp time : CString} {number count : Nat} {dir : LogDir}

theorem logBase_injective (same : logBase type stamp = logBase other time) :
    type = other ∧ stamp = time := by
  unfold logBase at same
  simp only [List.append_assoc, List.cons_append, List.append_cancel_left_eq] at same
  cases type <;> cases other
  · exact ⟨rfl, by simpa using same⟩
  · simp [LogType.text] at same
  · simp [LogType.text] at same
  · exact ⟨rfl, by simpa using same⟩

/-- A path without a number ends with a letter. -/
theorem logBase_ne_numberedPath : logBase type stamp ≠ numberedPath other time number := by
  intro same
  have letter : (logBase type stamp).getLast? = some 'g' := by
    unfold logBase
    rw [List.getLast?_append_of_ne_nil _ (by decide)]
    decide
  have digit : (numberedPath other time number).getLast? =
      (Nat.toDigits 10 number).getLast? := by
    rw [numberedPath, ← List.singleton_append, ← List.append_assoc,
      List.getLast?_append_of_ne_nil _ Nat.toDigits_ne_nil]
  rw [same, digit] at letter
  exact absurd (isDigit_toDigits number _ (List.mem_of_getLast? letter)) (by decide)

/-- The number is what is behind the last point. -/
theorem numberedPath_injective
    (same : numberedPath type stamp number = numberedPath other time count) :
    type = other ∧ stamp = time ∧ number = count := by
  have noPoint : ∀ number, '.' ∉ (Nat.toDigits 10 number).reverse := fun number member =>
    absurd (isDigit_toDigits number _ (List.mem_reverse.mp member)) (by decide)
  have turned := congrArg List.reverse same
  simp only [numberedPath, List.reverse_append, List.reverse_cons, List.append_assoc,
    List.singleton_append] at turned
  have digits := congrArg (List.takeWhile (· ≠ '.')) turned
  rw [takeWhile_ne_append (noPoint number), takeWhile_ne_append (noPoint count)] at digits
  rw [digits, List.append_cancel_left_eq, List.cons.injEq, List.reverse_inj] at turned
  have numbers := congrArg (Nat.ofDigitChars 10 · 0) (List.reverse_inj.mp digits)
  simp only [Nat.ofDigitChars_ten_toDigits] at numbers
  exact ⟨(logBase_injective turned.2).1, (logBase_injective turned.2).2, numbers⟩

theorem logPath_injective (same : logPath type stamp number = logPath other time count) :
    type = other ∧ stamp = time ∧ number = count := by
  cases number with
  | zero =>
      cases count with
      | zero => exact ⟨(logBase_injective same).1, (logBase_injective same).2, rfl⟩
      | succ count => exact absurd same logBase_ne_numberedPath
  | succ number =>
      cases count with
      | zero => exact absurd same.symm logBase_ne_numberedPath
      | succ count => exact numberedPath_injective same

/-- The loop ends, at the first free path. -/
theorem getUniqueLogPath_eq (dir : LogDir) (type : LogType) (stamp : CString) :
    ∃ number, getUniqueLogPath dir type stamp = some (logPath type stamp number) ∧
      logPath type stamp number ∉ dir.map Prod.fst ∧
      ∀ lower < number, logPath type stamp lower ∈ dir.map Prod.fst := by
  rw [getUniqueLogPath]
  split
  · next taken =>
    have injective : Function.Injective (numberedPath type stamp) :=
      fun _ _ same => (numberedPath_injective same).2.2
    obtain ⟨found, first⟩ := exists_firstFree injective (dir.map Prod.fst) 1
    rw [List.length_map] at first
    obtain ⟨low, _, free, passed⟩ := firstFree_eq_some_iff.mp first
    obtain ⟨number, rfl⟩ := Nat.exists_eq_add_one.mpr low
    refine ⟨number + 1, by rw [first]; rfl, free, fun lower below => ?_⟩
    cases lower with
    | zero => exact taken
    | succ lower => exact passed (lower + 1) (by omega) below
  · next free => exact ⟨0, rfl, free, fun lower below => by omega⟩

end Paths

/-! ## Runs -/

section Runs

variable {dir next final : LogDir} {choice : LogChoice} {choices : List LogChoice}
  {type : LogType} {stamp content path : CString}

/-- Opening a free path adds a file, and leaves the others alone. -/
theorem LogDir.openTrunc_of_free (free : path ∉ dir.map Prod.fst) (content : CString) :
    dir.openTrunc path content = dir ++ [(path, content)] := by
  rw [openTrunc, List.filter_eq_self.mpr]
  intro entry member
  have differs : entry.1 ≠ path := fun same => free (same ▸ List.mem_map_of_mem member)
  simpa using differs

/-- What a step of the directory is. -/
inductive LogDir.Move (dir : LogDir) : LogChoice → LogDir → Prop where
  | opened {choice : LogChoice} {type : LogType} {stamp content : CString} {number : Nat}
      (written : choice.written = some (type, stamp, content))
      (free : logPath type stamp number ∉ dir.map Prod.fst)
      (first : ∀ lower < number, logPath type stamp lower ∈ dir.map Prod.fst) :
      Move dir choice (dir ++ [(logPath type stamp number, content)])
  | unopened {choice : LogChoice} (nothing : choice.written = none) : Move dir choice dir
  | removed {path : CString} :
      Move dir (.remove path) (dir.filter fun entry => entry.1 ≠ path)

/-- A log is named after the call that writes it. -/
theorem LogChoice.named_of_written (written : choice.written = some (type, stamp, content)) :
    choice.named = some (type, stamp) := by
  cases choice with
  | dumpArgv _ _ _ _ opens =>
      cases opens with
      | true => cases written; rfl
      | false => cases written
  | logErrors _ _ opens =>
      cases opens with
      | true => cases written; rfl
      | false => cases written
  | remove _ => cases written

/-- Every call returns, and does what is listed. -/
theorem LogDir.move_of_step (dir : LogDir) (choice : LogChoice) :
    ∃ next, dir.step choice = some next ∧ dir.Move choice next := by
  have call : ∀ type stamp, choice.named = some (type, stamp) →
      ∃ next, (choice.named.bind fun (type, stamp) =>
        (getUniqueLogPath dir type stamp).map fun path =>
          match choice.written with
          | some (_, _, content) => dir.openTrunc path content
          | none => dir) = some next ∧ dir.Move choice next := by
    intro type stamp named
    obtain ⟨number, found, free, first⟩ := getUniqueLogPath_eq dir type stamp
    rw [named]
    simp only [Option.bind_some, found, Option.map_some]
    cases written : choice.written with
    | none => exact ⟨dir, rfl, .unopened written⟩
    | some log =>
        obtain ⟨type', stamp', content⟩ := log
        have same := LogChoice.named_of_written written
        rw [named] at same
        cases same
        exact ⟨_, congrArg some (openTrunc_of_free free content), .opened written free first⟩
  cases choice with
  | dumpArgv stamp error message payload opens => exact call .fail stamp rfl
  | logErrors stamp chunks opens => exact call .error stamp rfl
  | remove path => exact ⟨_, rfl, .removed⟩

/-- One step: what is not removed stays, and no path comes twice. -/
theorem LogDir.Move.keeps (move : dir.Move choice next) {entry : CString × CString}
    (member : entry ∈ dir) (kept : choice ≠ .remove entry.1) : entry ∈ next := by
  cases move with
  | opened _ _ _ => exact List.mem_append_left _ member
  | unopened _ => exact member
  | removed =>
      refine List.mem_filter.mpr ⟨member, decide_eq_true fun same => ?_⟩
      exact kept (congrArg LogChoice.remove same.symm)

theorem LogDir.Move.distinct (move : dir.Move choice next)
    (distinct : (dir.map Prod.fst).Nodup) : (next.map Prod.fst).Nodup := by
  cases move with
  | opened _ free _ =>
      rw [List.map_append, List.map_singleton, List.nodup_append]
      refine ⟨distinct, List.nodup_singleton _, ?_⟩
      rintro path member _ last rfl
      rw [List.mem_singleton.mp last] at member
      exact free member
  | unopened _ => exact distinct
  | removed => exact distinct.sublist (List.filter_sublist.map _)

/-- What a call writes for a type and a time. -/
def LogChoice.logFor (type : LogType) (stamp : CString) (choice : LogChoice) : Option CString :=
  match choice.written with
  | some (type', stamp', content) => if type' = type ∧ stamp' = stamp then some content else none
  | none => none

/-- The logs of a type and a time, in the order of their numbers. -/
def LogDir.Numbered (dir : LogDir) (type : LogType) (stamp : CString) (logs : List CString) :
    Prop :=
  ∀ number content, (logPath type stamp number, content) ∈ dir ↔ logs[number]? = some content

/-- One step: the next log of a type and a time gets the next number. -/
theorem LogDir.Numbered.of_move {logs : List CString} (numbered : dir.Numbered type stamp logs)
    (move : dir.Move choice next) (kept : ∀ path, choice ≠ .remove path) :
    next.Numbered type stamp (logs ++ (choice.logFor type stamp).toList) := by
  cases move with
  | removed => exact absurd rfl (kept _)
  | unopened nothing =>
      have none : choice.logFor type stamp = none := by rw [LogChoice.logFor, nothing]
      rwa [none, Option.toList_none, List.append_nil]
  | @opened _ type' stamp' content number written free first =>
      intro position text
      rw [List.mem_append, List.mem_singleton, Prod.mk.injEq, numbered position text]
      by_cases same : type' = type ∧ stamp' = stamp
      · obtain ⟨rfl, rfl⟩ := same
        have log : choice.logFor type' stamp' = some content := by simp [LogChoice.logFor, written]
        have count : number = logs.length := by
          apply Nat.le_antisymm
          · by_contra short
            obtain ⟨⟨_, text⟩, member, rfl⟩ := List.mem_map.mp (first logs.length (by omega))
            have found := (numbered logs.length text).mp member
            simp at found
          · by_contra long
            have found := List.getElem?_eq_getElem (show number < logs.length by omega)
            exact free (List.mem_map_of_mem ((numbered number _).mpr found))
        have path : logPath type' stamp' position = logPath type' stamp' number ↔
            position = logs.length :=
          ⟨fun same => count ▸ (logPath_injective same).2.2, fun same => by rw [same, count]⟩
        rw [log, Option.toList_some, path, List.getElem?_append]
        split
        · next inside =>
          rw [or_iff_left]
          exact fun both => absurd both.1 (by omega)
        · next outside =>
          rw [List.getElem?_eq_none (by omega), List.getElem?_singleton]
          split
          · next last => simp [show position = logs.length by omega, eq_comm]
          · next later => simp [show position ≠ logs.length by omega]
      · have none : choice.logFor type stamp = none := by simp [LogChoice.logFor, written, same]
        rw [none, Option.toList_none, List.append_nil, or_iff_left]
        rintro ⟨path, _⟩
        obtain ⟨rfl, rfl, _⟩ := logPath_injective path
        exact same ⟨rfl, rfl⟩

theorem LogDir.move_of_taken (taken : logMachine.step dir choice = some next) :
    dir.Move choice next := by
  obtain ⟨next', stepped, move⟩ := dir.move_of_step choice
  have same : dir.step choice = some next := taken
  rw [stepped] at same
  exact Option.some.inj same ▸ move

/-- Over any number of calls, and whatever is removed in between: every call returns, no
two files have the same path, a log stays as it is until it is removed, and without
removals the logs of a type and a time are numbered in the order of their calls. -/
theorem logs_of_steps (steps : logMachine.Steps Machine.unguarded dir choices final)
    (distinct : (dir.map Prod.fst).Nodup) :
    (∀ choice, ∃ next, logMachine.step final choice = some next) ∧
    (final.map Prod.fst).Nodup ∧
    (∀ entry ∈ dir, LogChoice.remove entry.1 ∉ choices → entry ∈ final) ∧
    ((∀ path, LogChoice.remove path ∉ choices) → ∀ type stamp logs,
      dir.Numbered type stamp logs →
      final.Numbered type stamp (logs ++ choices.filterMap (LogChoice.logFor type stamp))) := by
  induction steps with
  | refl =>
      refine ⟨fun choice => ?_, distinct, fun _ member _ => member, fun _ _ _ logs numbered => ?_⟩
      · obtain ⟨next, stepped, _⟩ := LogDir.move_of_step _ choice
        exact ⟨next, stepped⟩
      · rwa [List.filterMap_nil, List.append_nil]
  | @step choices before choice after _ _ taken ih =>
      obtain ⟨_, apart, keeps, numbers⟩ := ih
      have move := LogDir.move_of_taken taken
      refine ⟨fun choice => ?_, move.distinct apart, fun entry member kept => ?_,
        fun kept type stamp logs numbered => ?_⟩
      · obtain ⟨next, stepped, _⟩ := LogDir.move_of_step after choice
        exact ⟨next, stepped⟩
      · rw [List.mem_append, not_or, List.mem_singleton] at kept
        exact move.keeps (keeps entry member kept.1) fun same => kept.2 same.symm
      · have earlier := numbers (fun path member => kept path (List.mem_append_left _ member))
          type stamp logs numbered
        have next := earlier.of_move move fun path same =>
          kept path (List.mem_append_right _ (List.mem_singleton.mpr same.symm))
        have last : [choice].filterMap (LogChoice.logFor type stamp) =
            (choice.logFor type stamp).toList := by
          cases log : choice.logFor type stamp <;> simp [log]
        rwa [List.append_assoc, ← last, ← List.filterMap_append] at next

/-- Three failures of one second; the second one cannot open its log. -/
def threeCalls : List LogChoice :=
  [.logErrors "t".toList ["first\n".toList] true, .logErrors "t".toList ["second".toList] false,
    .dumpArgv "t".toList 7 "Argument list too long".toList [some "rsync".toList, none] true,
    .logErrors "t".toList ["thi".toList, "rd\n".toList] true]

theorem logs_of_threeCalls : ∃ final : LogDir,
    (logPath .error "t".toList 1, "third\n".toList) ∈ final ∧
    ∀ content, (logPath .error "t".toList 2, content) ∉ final := by
  have executed : (logMachine.run Machine.unguarded [] threeCalls).isSome = true := by
    decide +kernel
  obtain ⟨final, reached⟩ := Option.isSome_iff_exists.mp executed
  have empty : LogDir.Numbered [] .error "t".toList [] := fun _ _ => by simp
  have numbered := (logs_of_steps (Machine.steps_of_run reached) List.nodup_nil).2.2.2
    (by simp [threeCalls]) .error "t".toList [] empty
  have logs : [] ++ threeCalls.filterMap (LogChoice.logFor .error "t".toList) =
      ["first\n".toList, "third\n".toList] := by
    decide +kernel
  rw [logs] at numbered
  exact ⟨final, (numbered 1 _).mpr rfl, fun content member => by
    simpa using (numbered 2 content).mp member⟩

end Runs

/-! ## What is read from the pipe -/

/-- The results of `read` on a pipe with this text, up to the end. -/
def ReadAs (text : CString) (chunks : List CString) : Prop :=
  chunks.flatten = text ∧ ∀ chunk ∈ chunks, chunk ≠ [] ∧ chunk.length ≤ 4095

section Chunks

variable {text : CString} {chunks : List CString}

/-- The text has no character behind a NUL but more of them. -/
def NulsLast (text : CString) : Prop := ∀ char ∈ text.dropWhile (· ≠ '\x00'), char = '\x00'

theorem loggedText_of_nuls (nuls : ∀ char ∈ chunks.flatten, char = '\x00') :
    loggedText chunks = [] := by
  rw [loggedText, List.flatMap_eq_nil_iff]
  intro chunk listed
  cases chunk with
  | nil => rfl
  | cons char chunk =>
      rw [nuls char (List.mem_flatten.mpr ⟨_, listed, List.mem_cons_self⟩)]
      rfl

/-- Then it does not matter how the text is read. -/
theorem loggedText_of_nulsLast (nulsLast : NulsLast chunks.flatten) :
    loggedText chunks = chunks.flatten.takeWhile (· ≠ '\x00') := by
  induction chunks with
  | nil => rfl
  | cons chunk chunks ih =>
      rw [NulsLast, List.flatten_cons] at nulsLast
      rw [loggedText, List.flatMap_cons, ← loggedText, List.flatten_cons]
      by_cases nul : '\x00' ∈ chunk
      · obtain ⟨front, back, rfl, clear⟩ := List.eq_append_cons_of_mem nul
        rw [List.append_assoc, List.cons_append] at nulsLast ⊢
        rw [dropWhile_ne_append clear] at nulsLast
        rw [takeWhile_ne_append clear, takeWhile_ne_append clear, loggedText_of_nuls,
          List.append_nil]
        intro char member
        exact nulsLast char (List.mem_cons_of_mem _ (List.mem_append_right _ member))
      · have solid : ∀ char ∈ chunk, decide (char ≠ '\x00') = true := fun char member =>
          decide_eq_true fun same => nul (same ▸ member)
        rw [List.dropWhile_append_of_pos solid] at nulsLast
        rw [List.takeWhile_append_of_pos solid, ih nulsLast,
          List.takeWhile_eq_self_iff.mpr solid]

/-- Reading character by character. -/
theorem loggedText_singletons (text : CString) :
    loggedText (text.map fun char => [char]) = text.filter (· ≠ '\x00') := by
  induction text with
  | nil => rfl
  | cons char text ih =>
      rw [List.map_cons, loggedText, List.flatMap_cons, ← loggedText, ih]
      by_cases nul : char = '\x00' <;> simp [nul]

theorem readAs_singletons (text : CString) : ReadAs text (text.map fun char => [char]) := by
  constructor
  · rw [← List.flatMap_def, List.flatMap_singleton']
  · intro chunk listed
    obtain ⟨char, _, rfl⟩ := List.mem_map.mp listed
    exact ⟨List.cons_ne_nil _ _, by simp⟩

/-- A NUL with another character behind it. -/
theorem exists_of_not_nulsLast (inside : ¬ NulsLast text) :
    ∃ front char back, text = front ++ '\x00' :: char :: back ∧ char ≠ '\x00' := by
  induction text with
  | nil => exact absurd (List.forall_mem_nil _) inside
  | cons first text ih =>
      by_cases nul : first = '\x00'
      · subst nul
        cases text with
        | nil => exact absurd (by simp [NulsLast]) inside
        | cons char text =>
            by_cases another : char = '\x00'
            · obtain ⟨front, other, back, parts, differs⟩ := ih fun nulsLast => by
                subst another
                exact inside (by simpa [NulsLast] using nulsLast)
              exact ⟨'\x00' :: front, other, back, by rw [parts, List.cons_append], differs⟩
            · exact ⟨[], char, text, rfl, another⟩
      · obtain ⟨front, char, back, parts, differs⟩ := ih fun nulsLast => by
          refine inside ?_
          rwa [NulsLast, List.dropWhile_cons_of_pos (by simpa using nul)]
        exact ⟨first :: front, char, back, by rw [parts, List.cons_append], differs⟩

/-- The loop of `log_errors` with full reads is one way to read the text. -/
theorem readPipe_readAs {rounds : Nat} (enough : text.length ≤ rounds) :
    ∃ chunks, ReadAs text chunks ∧ loggedText chunks = readPipe rounds text := by
  induction rounds generalizing text with
  | zero =>
      obtain rfl := List.length_eq_zero_iff.mp (Nat.le_zero.mp enough)
      exact ⟨[], ⟨rfl, List.forall_mem_nil _⟩, rfl⟩
  | succ rounds ih =>
      rw [readPipe]
      split
      · next empty =>
        rw [List.isEmpty_iff] at empty
        exact ⟨[], ⟨empty.symm, List.forall_mem_nil _⟩, rfl⟩
      · next full =>
        have nonempty : text ≠ [] := fun none => full (List.isEmpty_iff.mpr none)
        have some := List.length_pos_iff.mpr nonempty
        obtain ⟨chunks, reads, same⟩ := @ih (text.drop 4095) (by
          rw [List.length_drop]
          omega)
        refine ⟨text.take 4095 :: chunks, ⟨?_, ?_⟩, ?_⟩
        · rw [List.flatten_cons, reads.1, List.take_append_drop]
        · rw [List.forall_mem_cons]
          refine ⟨⟨?_, List.length_take_le _ _⟩, reads.2⟩
          exact fun none => (List.take_eq_nil_iff.mp none).elim (by decide) nonempty
        · rw [← same]
          rfl

/-- What `log_errors` makes of the output of a program does not depend on how `read` cuts
it exactly if behind a NUL there are only more of them. -/
theorem loggedText_unique_iff (text : CString) :
    (∀ chunks, ReadAs text chunks → loggedText chunks = readPipe text.length text) ↔
      NulsLast text := by
  obtain ⟨full, reads, same⟩ := readPipe_readAs (Nat.le_refl text.length)
  constructor
  · intro unique
    by_contra inside
    obtain ⟨front, char, back, parts, differs⟩ := exists_of_not_nulsLast inside
    have singles := unique _ (readAs_singletons text)
    -- The same with the two characters in one read, which loses the second of them.
    have pair : ReadAs text (front.map (fun char => [char]) ++
        ['\x00', char] :: back.map fun char => [char]) := by
      obtain ⟨before, short⟩ := readAs_singletons front
      obtain ⟨behind, short'⟩ := readAs_singletons back
      refine ⟨by rw [List.flatten_append, List.flatten_cons, before, behind, parts]; rfl, ?_⟩
      rw [List.forall_mem_append, List.forall_mem_cons]
      exact ⟨short, ⟨List.cons_ne_nil _ _, by simp⟩, short'⟩
    have lost := unique _ pair
    rw [← singles, loggedText_singletons, parts, loggedText, List.flatMap_append, List.flatMap_cons,
      ← loggedText, ← loggedText, loggedText_singletons, loggedText_singletons] at lost
    have lengths := congrArg List.length lost
    simp [differs] at lengths
  · rintro nulsLast chunks ⟨rfl, _⟩
    rw [← same, loggedText_of_nulsLast nulsLast, loggedText_of_nulsLast (reads.1.symm ▸ nulsLast),
      reads.1]

end Chunks

end CephGeoRep
