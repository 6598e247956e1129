import CephGeoRep.Config.Parser
import CephGeoRep.Support.Trim

/-!
# What a line of the configuration does

The read loop carries little from one iteration to the next: the fields, and the
value that a line without `=` assigns once more. `Pending` is just that, and
`readLoop_terminated` reduces the loop to one application of `Pending.read` for each
line, with the last line of the file read twice.
-/

namespace CephGeoRep

open Support

/-! ## strip_whitespace -/

/-- A line up to its first `#`. -/
def uncommented (line : CString) : CString := line.takeWhile (· ≠ '#')

theorem not_mem_uncommented (line : CString) : '#' ∉ uncommented line := by
  intro member
  have differs := List.mem_takeWhile_imp member
  simp at differs

theorem mem_of_mem_uncommented {line : CString} {char : Char}
    (member : char ∈ uncommented line) : char ∈ line :=
  (List.takeWhile_prefix _).subset member

@[simp]
theorem uncommented_nil : uncommented [] = [] := rfl

theorem uncommented_of_not_mem {line : CString} (plain : '#' ∉ line) : uncommented line = line :=
  takeWhile_ne_of_not_mem plain

theorem take_findIdx (line : CString) : line.take (line.findIdx (· = '#')) = uncommented line := by
  induction line with
  | nil => rfl
  | cons char rest ih =>
      by_cases comment : char = '#'
      · simp [uncommented, List.findIdx_cons, comment]
      · simpa [uncommented, List.findIdx_cons, comment] using ih

/-- The loop at the back trims, but for a single blank that it leaves in front. -/
theorem take_backWhitespace {str : CString} {strItr : Nat} (inside : strItr < str.length) :
    (str.take (backWhitespace str strItr + 1)).dropWhile isBlank =
      trim isBlank (str.take (strItr + 1)) := by
  induction strItr with
  | zero =>
      obtain ⟨char, rest, rfl⟩ := List.exists_cons_of_length_pos inside
      by_cases blank : isBlank char = true <;>
        simp [backWhitespace, trim, List.rdropWhile_singleton, blank]
  | succ strItr ih =>
      have split : str.take (strItr + 1 + 1) =
          str.take (strItr + 1) ++ [str.charAt (strItr + 1)] := by
        rw [List.take_succ_eq_append_getElem inside, CString.charAt,
          List.getD_eq_getElem _ _ inside]
      rw [split]
      by_cases blank : isBlank (str.charAt (strItr + 1)) = true
      · rw [backWhitespace, if_pos blank, ih (by omega), trim, trim,
          List.rdropWhile_concat_pos _ _ _ blank]
      · rw [backWhitespace, if_neg blank, split, trim, List.rdropWhile_concat_neg _ _ _ blank]

/-- The loop in front drops the blanks there. -/
theorem drop_frontWhitespace (str : CString) :
    str.drop (frontWhitespace str) = str.dropWhile isBlank := by
  induction str with
  | nil => rfl
  | cons char rest ih =>
      by_cases blank : isBlank char = true
      · simpa [frontWhitespace, blank] using ih
      · simp [frontWhitespace, blank]

/-- A comment in the first column survives as its first character. -/
theorem stripWhitespace_comment (rest : CString) : stripWhitespace ('#' :: rest) = ['#'] := by
  simp [stripWhitespace, List.findIdx_cons, backWhitespace, frontWhitespace, isBlank]

/-- Any other line is cut at its comment and trimmed. -/
theorem stripWhitespace_eq_trim {line : CString} (noComment : line.head? ≠ some '#') :
    stripWhitespace line = trim isBlank (uncommented line) := by
  cases line with
  | nil => rfl
  | cons char rest =>
      have differs : char ≠ '#' := by simpa using noComment
      have start : (char :: rest).findIdx (· = '#') = rest.findIdx (· = '#') + 1 := by
        simp [List.findIdx_cons, differs]
      have inside : rest.findIdx (· = '#') < (char :: rest).length :=
        Nat.lt_succ_of_le List.findIdx_le_length
      rw [← take_findIdx, start]
      simp only [stripWhitespace, start, ne_eq, Nat.add_one_ne_zero, not_false_eq_true, ↓reduceIte,
        Nat.add_sub_cancel]
      rw [drop_frontWhitespace, take_backWhitespace inside]

/-- Texts on which `strip_whitespace` has nothing to do. -/
structure Clean (text : CString) : Prop where
  plain : '#' ∉ text
  trimmed : trim isBlank text = text

section Clean

variable {text : CString}

theorem stripWhitespace_of_plain (plain : '#' ∉ text) :
    stripWhitespace text = trim isBlank text := by
  have noComment : text.head? ≠ some '#' := fun first => plain (List.mem_of_head? first)
  rw [stripWhitespace_eq_trim noComment, uncommented_of_not_mem plain]

theorem Clean.stripWhitespace (clean : Clean text) : stripWhitespace text = text := by
  rw [stripWhitespace_of_plain clean.plain, clean.trimmed]

theorem clean_nil : Clean [] := ⟨List.not_mem_nil, rfl⟩

theorem clean_trim (plain : '#' ∉ text) : Clean (trim isBlank text) :=
  ⟨fun member => plain (mem_of_mem_trim member), trim_trim⟩

/-- The name of the watermark file ends in a letter, so nothing is trimmed there. -/
theorem Clean.append_lastRctimeName (clean : Clean text) (nonempty : text ≠ []) :
    Clean (text ++ lastRctimeName) where
  plain := by
    rw [List.mem_append, not_or]
    exact ⟨clean.plain, by decide⟩
  trimmed := by
    obtain ⟨first, rest, rfl⟩ := List.exists_cons_of_ne_nil nonempty
    have solid : isBlank first = false := not_blank_of_trim_eq_cons clean.trimmed
    have name : lastRctimeName = "last_rctime.da".toList ++ 't' :: [] := by decide
    rw [name, ← List.append_assoc, trim_append (by decide)]
    simp [solid]

theorem append_lastRctimeName_ne (value : CString) : value ++ lastRctimeName ≠ value := by
  intro same
  have name : lastRctimeName = [] := List.append_right_eq_self.mp same
  exact absurd name (by decide)

/-- Stripping a line again changes nothing. -/
theorem stripWhitespace_idem (line : CString) :
    stripWhitespace (stripWhitespace line) = stripWhitespace line := by
  by_cases comment : line.head? = some '#'
  · obtain ⟨rest, rfl⟩ := List.head?_eq_some_iff.mp comment
    rw [stripWhitespace_comment]
    exact stripWhitespace_comment []
  · rw [stripWhitespace_eq_trim comment]
    exact (clean_trim (not_mem_uncommented line)).stripWhitespace

end Clean

/-! ## One line -/

/-- The text in front of the first `=`, trimmed. -/
def lineKey (line : CString) : CString :=
  trim isBlank ((uncommented line).takeWhile (· ≠ '='))

/-- The text behind the first `=`, trimmed. -/
def lineValue (line : CString) : CString :=
  trim isBlank ((uncommented line).dropWhile (· ≠ '=')).tail

/-- An assignment as it may be written: blanks around the key and the value, and a comment
behind them. -/
def Written (line key value : CString) : Prop :=
  ∃ front gap pad back comment : CString,
    line = front ++ (key ++ gap) ++ '=' :: (pad ++ (value ++ back)) ++ comment ∧
    (∀ text ∈ [front, gap, pad, back], ∀ char ∈ text, isBlank char = true) ∧
    (comment = [] ∨ ∃ rest, comment = '#' :: rest)

theorem not_mem_of_blank {text : CString} {char : Char}
    (blanks : ∀ char ∈ text, isBlank char = true) (solid : isBlank char = false) :
    char ∉ text := by
  intro member
  rw [blanks char member] at solid
  cases solid

/-- It is read as it is meant. -/
theorem Written.read {line key value : CString} (written : Written line key value)
    (cleanKey : Clean key) (noEquals : '=' ∉ key) (cleanValue : Clean value) :
    '=' ∈ uncommented line ∧ lineKey line = key ∧ lineValue line = value := by
  obtain ⟨front, gap, pad, back, comment, rfl, blanks, commented⟩ := written
  simp only [List.forall_mem_cons, List.not_mem_nil, false_implies, implies_true, and_true]
    at blanks
  obtain ⟨front', gap', pad', back'⟩ := blanks
  have cut : uncommented (front ++ (key ++ gap) ++ '=' :: (pad ++ (value ++ back)) ++ comment) =
      front ++ (key ++ gap) ++ '=' :: (pad ++ (value ++ back)) := by
    have noComment : '#' ∉ front ++ (key ++ gap) ++ '=' :: (pad ++ (value ++ back)) := by
      simp only [List.mem_append, List.mem_cons, not_or]
      exact ⟨⟨not_mem_of_blank front' rfl, cleanKey.plain, not_mem_of_blank gap' rfl⟩, by decide,
        not_mem_of_blank pad' rfl, cleanValue.plain, not_mem_of_blank back' rfl⟩
    rcases commented with rfl | ⟨rest, rfl⟩
    · rw [List.append_nil, uncommented_of_not_mem noComment]
    · exact takeWhile_ne_append noComment rest
  have absent : '=' ∉ front ++ (key ++ gap) := by
    simp only [List.mem_append, not_or]
    exact ⟨not_mem_of_blank front' rfl, noEquals, not_mem_of_blank gap' rfl⟩
  refine ⟨by rw [cut]; simp, ?_, ?_⟩
  · rw [lineKey, cut, takeWhile_ne_append absent, trim_padded front' gap', cleanKey.trimmed]
  · rw [lineValue, cut, dropWhile_ne_append absent, List.tail_cons, trim_padded pad' back',
      cleanValue.trimmed]

/-- What an iteration leaves to the next ones. -/
structure Pending where
  value : CString := []
  config : Config := {}
deriving DecidableEq

def ReadVars.pending (vars : ReadVars) : Pending := ⟨vars.value, vars.config⟩

namespace Pending

/-- The entry of a line; an empty key, an empty value and an unknown key are ignored. -/
def store (pending : Pending) (key value : CString) : Except NumeralError Pending :=
  if key.isEmpty || value.isEmpty then .ok { pending with value := value }
  else
    match ConfigKey.ofText key with
    | none => .ok { pending with value := value }
    | some known => (pending.config.assign value known).map fun assigned =>
      ⟨assigned.2, assigned.1⟩

/-- The value that a line assigns: without `=` the one that is pending. -/
def valueOf (pending : Pending) (line : CString) : CString :=
  if '=' ∈ uncommented line then lineValue line else pending.value

/-- One line. -/
def read (pending : Pending) (line : CString) : Except NumeralError Pending :=
  pending.store (lineKey line) (pending.valueOf line)

/-- A list of lines. -/
def readAll (pending : Pending) : List CString → Except NumeralError Pending
  | [] => .ok pending
  | line :: rest => (pending.read line).bind fun next => next.readAll rest

theorem readAll_append (pending : Pending) (front back : List CString) :
    pending.readAll (front ++ back) =
      (pending.readAll front).bind fun next => next.readAll back := by
  induction front generalizing pending with
  | nil => rfl
  | cons line front ih =>
      rw [List.cons_append, readAll, readAll]
      cases pending.read line with
      | error thrown => rfl
      | ok next => exact ih next

end Pending

/-- No key is the empty text. -/
theorem lineKey_ne_nil {line : CString} {known : ConfigKey}
    (found : ConfigKey.ofText (lineKey line) = some known) : lineKey line ≠ [] := by
  intro none
  rw [none] at found
  exact absurd found (by decide +revert)

/-- With a key and a value, the line is an assignment. -/
theorem Pending.read_of_known {pending : Pending} {line : CString} {known : ConfigKey}
    (found : ConfigKey.ofText (lineKey line) = some known)
    (nonempty : pending.valueOf line ≠ []) :
    pending.read line = (pending.config.assign (pending.valueOf line) known).map fun assigned =>
      ⟨assigned.2, assigned.1⟩ := by
  have key := lineKey_ne_nil found
  rw [read, store, if_neg (by simp [key, nonempty]), found]

/-- Without them the fields stay. -/
theorem Pending.read_of_unknown {pending : Pending} {line : CString}
    (ignored : pending.valueOf line = [] ∨ ConfigKey.ofText (lineKey line) = none) :
    pending.read line = .ok { pending with value := pending.valueOf line } := by
  rw [read, store]
  split
  · rfl
  · next assigned =>
    obtain none | unknown := ignored
    · simp [none] at assigned
    · rw [unknown]

theorem Pending.valueOf_of_noEquals {line : CString} (noEquals : '=' ∉ uncommented line)
    (pending : Pending) : pending.valueOf line = pending.value := if_neg noEquals

/-- How an iteration ends once the line is split into `key` and `value`. -/
theorem readLine_of_split {vars : ReadVars} {line key value : CString}
    (stripped : stripWhitespace vars.line = line) (nonempty : line ≠ [])
    (noComment : line.head? ≠ some '#')
    (front : stripWhitespace (IStream.getline { rest := line } vars.key '=').2 = key)
    (back : stripWhitespace
      ((IStream.getline { rest := line } vars.key '=').1.getline vars.value '\n').2 = value) :
    (readLine vars).map (fun vars => (vars.line, vars.pending)) =
      (vars.pending.store key value).map fun pending => (line, pending) := by
  have solid : line.isEmpty = false := by simpa using nonempty
  simp only [readLine, stripped, front, back, solid, noComment, decide_false, Bool.or_self,
    Bool.false_eq_true, ↓reduceIte, Pending.store]
  by_cases unassigned : (key.isEmpty || value.isEmpty) = true
  · simp only [unassigned, ↓reduceIte]
    rfl
  · simp only [unassigned, Bool.false_eq_true, ↓reduceIte]
    cases ConfigKey.ofText key with
    | none => rfl
    | some known =>
        simp only [ReadVars.pending]
        cases vars.config.assign value known <;> rfl

/-- A line with nothing in front of its comment is skipped. -/
theorem readLine_of_blank {vars : ReadVars} (blank : trim isBlank (uncommented vars.line) = []) :
    (readLine vars).map (fun vars => (vars.line, vars.pending)) =
      (vars.pending.read vars.line).map fun pending =>
        (stripWhitespace vars.line, pending) := by
  have noEquals : '=' ∉ uncommented vars.line := by
    intro member
    exact absurd (trim_eq_nil_iff.mp blank '=' member) (by decide)
  have key : lineKey vars.line = [] := by
    rw [lineKey, takeWhile_ne_of_not_mem noEquals, blank]
  have skipped : (stripWhitespace vars.line).isEmpty ||
      (stripWhitespace vars.line).head? = some '#' := by
    by_cases comment : vars.line.head? = some '#'
    · obtain ⟨rest, line⟩ := List.head?_eq_some_iff.mp comment
      simp [line, stripWhitespace_comment]
    · simp [stripWhitespace_eq_trim comment, blank]
  rw [readLine, if_pos skipped, Pending.read, Pending.store, key, Pending.valueOf, if_neg noEquals]
  rfl

/-- Behind a comment in the first column nothing is left. -/
theorem noComment_of_not_blank {line : CString} (solid : trim isBlank (uncommented line) ≠ []) :
    line.head? ≠ some '#' := by
  intro comment
  obtain ⟨rest, rfl⟩ := List.head?_eq_some_iff.mp comment
  exact solid (by simp [uncommented])

theorem noComment_trim (line : CString) : (trim isBlank (uncommented line)).head? ≠ some '#' :=
  fun first => (clean_trim (not_mem_uncommented line)).plain (List.mem_of_head? first)

/-- With a `=` both reads from the line succeed. -/
theorem readLine_of_equals {vars : ReadVars} (single : '\n' ∉ vars.line)
    (equals : '=' ∈ uncommented vars.line) :
    (readLine vars).map (fun vars => (vars.line, vars.pending)) =
      (vars.pending.read vars.line).map fun pending =>
        (stripWhitespace vars.line, pending) := by
  obtain ⟨front, back, parts, absent⟩ := List.eq_append_cons_of_mem equals
  have plain := not_mem_uncommented vars.line
  rw [parts, List.mem_append, List.mem_cons, not_or, not_or] at plain
  have whole : trim isBlank (uncommented vars.line) =
      front.dropWhile isBlank ++ '=' :: back.rdropWhile isBlank := by
    rw [parts, trim_append (by decide)]
  have solid : trim isBlank (uncommented vars.line) ≠ [] := by simp [whole]
  have absent' : '=' ∉ front.dropWhile isBlank :=
    fun member => absent ((List.dropWhile_suffix _).subset member)
  have single' : '\n' ∉ back.rdropWhile isBlank := by
    intro member
    apply single
    apply mem_of_mem_uncommented
    rw [parts]
    exact List.mem_append_right _
      (List.mem_cons_of_mem _ ((List.rdropWhile_prefix _ _).subset member))
  have first : IStream.getline { rest := trim isBlank (uncommented vars.line) } vars.key '=' =
      ({ rest := back.rdropWhile isBlank }, front.dropWhile isBlank) := by
    rw [whole, IStream.getline_append absent']
  have second : (IStream.getline { rest := back.rdropWhile isBlank } vars.value '\n').2 =
      back.rdropWhile isBlank := by
    rw [IStream.getline_of_not_mem single']
  have key : lineKey vars.line = trim isBlank front := by
    rw [lineKey, parts, takeWhile_ne_append absent]
  have value : lineValue vars.line = trim isBlank back := by
    rw [lineValue, parts, dropWhile_ne_append absent, List.tail_cons]
  rw [Pending.read, key, Pending.valueOf, if_pos equals, value]
  have stripped := stripWhitespace_eq_trim (noComment_of_not_blank solid)
  rw [stripped]
  apply readLine_of_split stripped solid (noComment_trim vars.line)
  · rw [first, stripWhitespace_of_plain, trim_dropWhile]
    exact fun member => plain.1 ((List.dropWhile_suffix _).subset member)
  · rw [first, second, stripWhitespace_of_plain, trim_rdropWhile]
    exact fun member => plain.2.2 ((List.rdropWhile_prefix _ _).subset member)

/-- Without a `=` the first read takes the whole line, and the second one fails and
leaves the value of an earlier line in place. -/
theorem readLine_of_noEquals {vars : ReadVars} (clean : Clean vars.value)
    (noEquals : '=' ∉ uncommented vars.line)
    (solid : trim isBlank (uncommented vars.line) ≠ []) :
    (readLine vars).map (fun vars => (vars.line, vars.pending)) =
      (vars.pending.read vars.line).map fun pending =>
        (stripWhitespace vars.line, pending) := by
  have cut := clean_trim (not_mem_uncommented vars.line)
  have absent : '=' ∉ trim isBlank (uncommented vars.line) :=
    fun member => noEquals (mem_of_mem_trim member)
  have first : IStream.getline { rest := trim isBlank (uncommented vars.line) } vars.key '=' =
      ({ rest := [], eof := true, fail := (trim isBlank (uncommented vars.line)).isEmpty },
        trim isBlank (uncommented vars.line)) := IStream.getline_of_not_mem absent
  have key : lineKey vars.line = trim isBlank (uncommented vars.line) := by
    rw [lineKey, takeWhile_ne_of_not_mem noEquals]
  rw [Pending.read, key, Pending.valueOf, if_neg noEquals]
  have stripped := stripWhitespace_eq_trim (noComment_of_not_blank solid)
  rw [stripped]
  apply readLine_of_split stripped solid (noComment_trim vars.line)
  · rw [first]
    exact cut.stripWhitespace
  · rw [first, IStream.getline_of_eof]
    exact clean.stripWhitespace

/-- An iteration reads its line, and keeps the stripped line besides. -/
theorem readLine_spec {vars : ReadVars} (single : '\n' ∉ vars.line) (clean : Clean vars.value) :
    (readLine vars).map (fun vars => (vars.line, vars.pending)) =
      (vars.pending.read vars.line).map fun pending =>
        (stripWhitespace vars.line, pending) := by
  by_cases blank : trim isBlank (uncommented vars.line) = []
  · exact readLine_of_blank blank
  by_cases equals : '=' ∈ uncommented vars.line
  · exact readLine_of_equals single equals
  · exact readLine_of_noEquals clean equals blank

/-! ## The loop -/

/-- An assignment that does not throw has read its number. -/
theorem numericField_of_map {Result : Type} {value : CString} {update : Int → Result}
    {result : Result} (assigned : (numericField value).map update = .ok result) :
    ∃ number, numericField value = .ok number ∧ update number = result := by
  cases read : numericField value with
  | error thrown =>
      rw [read] at assigned
      cases assigned
  | ok number =>
      rw [read] at assigned
      exact ⟨number, rfl, Except.ok.inj assigned⟩

/-- One assignment changes `value` as well. -/
theorem Config.value_of_assign {config : Config} {value : CString} {known : ConfigKey}
    {next : Config × CString} (assigned : config.assign value known = .ok next) :
    next.2 = if known = .metadataDirectory then value ++ lastRctimeName else value := by
  cases known with
  | syncPeriod | propagationDelay | logLevel | processes | threads =>
      obtain ⟨_, _, rfl⟩ := numericField_of_map assigned
      rfl
  | _ =>
      cases assigned
      rfl

/-- No line makes the pending value anything but clean. -/
theorem Pending.clean_of_read {pending next : Pending} {line : CString}
    (clean : Clean pending.value) (read : pending.read line = .ok next) : Clean next.value := by
  have assigned : Clean (pending.valueOf line) := by
    rw [valueOf]
    split
    · apply clean_trim
      intro member
      apply not_mem_uncommented line
      exact (List.dropWhile_suffix _).subset (List.mem_of_mem_tail member)
    · exact clean
  rw [Pending.read, store] at read
  split at read
  · cases read
    exact assigned
  next nonempty =>
  split at read
  · cases read
    exact assigned
  next known _ =>
  cases result : pending.config.assign (pending.valueOf line) known with
  | error thrown =>
      rw [result] at read
      cases read
  | ok next' =>
      rw [result] at read
      cases read
      change Clean next'.2
      rw [Config.value_of_assign result]
      split
      · apply assigned.append_lastRctimeName
        intro none
        simp [none] at nonempty
      · exact assigned

/-- The loop from a state in which the file has more to give. -/
theorem readLoop_of_good {file : IStream Char} {vars : ReadVars} (sound : file.fail = false) :
    readLoop file vars =
      (readLine { vars with line := (file.getline vars.line '\n').2 }).bind fun vars' =>
        readLoop (file.getline vars.line '\n').1 vars' := by
  rw [readLoop, dif_pos sound]

theorem readLoop_of_fail {file : IStream Char} {vars : ReadVars} (failed : file.fail = true) :
    readLoop file vars = .ok vars := by
  rw [readLoop, dif_neg (by simp [failed])]

/-- `readLine_spec`, case by case. -/
theorem readLine_cases (vars : ReadVars) {line : CString} (single : '\n' ∉ line)
    (clean : Clean vars.value) :
    (∃ thrown, readLine { vars with line := line } = .error thrown ∧
      vars.pending.read line = .error thrown) ∨
    ∃ next, readLine { vars with line := line } = .ok next ∧
      vars.pending.read line = .ok next.pending ∧
      next.line = stripWhitespace line ∧ Clean next.value := by
  have spec : (readLine { vars with line := line }).map (fun vars => (vars.line, vars.pending)) =
      (vars.pending.read line).map fun pending => (stripWhitespace line, pending) :=
    readLine_spec single clean
  cases body : readLine { vars with line := line } with
  | error thrown =>
      left
      cases effect : vars.pending.read line with
      | error thrown' =>
          rw [body, effect] at spec
          cases spec
          exact ⟨thrown, rfl, rfl⟩
      | ok pending =>
          rw [body, effect] at spec
          cases spec
  | ok next =>
      right
      cases effect : vars.pending.read line with
      | error thrown =>
          rw [body, effect] at spec
          cases spec
      | ok pending =>
          rw [body, effect] at spec
          obtain ⟨same, rfl⟩ := Prod.mk.inj (Except.ok.inj spec)
          exact ⟨next, rfl, rfl, same, Pending.clean_of_read clean effect⟩

/-- An iteration sees the stripped line only. -/
theorem readLine_stripWhitespace (vars : ReadVars) :
    readLine { vars with line := stripWhitespace vars.line } = readLine vars := by
  simp only [readLine, stripWhitespace_idem]

/-- The end of the file. The loop asks for the state of the stream before it reads, so a
last line without a newline is still there when the next read fails. -/
theorem readLoop_last (last : Piece '\n') (vars : ReadVars) (clean : Clean vars.value) :
    (readLoop { rest := last.1 } vars).map ReadVars.pending =
      vars.pending.readAll [last.1, last.1] := by
  rw [readLoop_of_good rfl, IStream.getline_of_not_mem last.2, Pending.readAll]
  obtain ⟨thrown, body, effect⟩ | ⟨next, body, effect, line, clean'⟩ :=
    readLine_cases vars last.2 clean
  · rw [body, effect]
    rfl
  rw [body, effect]
  change (readLoop _ next).map ReadVars.pending = next.pending.readAll [last.1]
  by_cases empty : last.1 = []
  · rw [readLoop_of_fail (by simp [empty]), empty]
    rfl
  · rw [readLoop_of_good (by simpa using empty), IStream.getline_of_eof, line,
      readLine_stripWhitespace { next with line := last.1 }, Pending.readAll]
    obtain ⟨thrown, body, effect⟩ | ⟨final, body, effect, -, -⟩ :=
      readLine_cases next last.2 clean'
    · rw [body, effect]
      rfl
    · rw [body, effect]
      exact congrArg (Except.map ReadVars.pending) (readLoop_of_fail rfl)

/-- The loop, line by line. -/
theorem readLoop_terminated (lines : List (Piece '\n')) (last : Piece '\n') (vars : ReadVars)
    (clean : Clean vars.value) :
    (readLoop { rest := terminated lines ++ last.1 } vars).map ReadVars.pending =
      vars.pending.readAll (lines.unattach ++ [last.1, last.1]) := by
  induction lines generalizing vars with
  | nil => exact readLoop_last last vars clean
  | cons line lines ih =>
      rw [terminated_cons, List.append_assoc, List.cons_append, readLoop_of_good rfl,
        IStream.getline_append line.2, List.unattach_cons, List.cons_append,
        Pending.readAll]
      obtain ⟨thrown, body, effect⟩ | ⟨next, body, effect, -, clean'⟩ :=
        readLine_cases vars line.2 clean
      · rw [body, effect]
        rfl
      · rw [body, effect]
        exact ih next clean'

/-- The lines that the loop reads in a text, in order. -/
def linesRead (text : CString) : List CString :=
  (pieces '\n' text).1.unattach ++ [(pieces '\n' text).2.1, (pieces '\n' text).2.1]

theorem linesRead_terminated_append (lines : List (Piece '\n')) (rest : CString) :
    linesRead (terminated lines ++ rest) = lines.unattach ++ linesRead rest := by
  simp [linesRead, pieces_terminated_append]

theorem linesRead_append_cons (line : Piece '\n') (rest : CString) :
    linesRead (line.1 ++ '\n' :: rest) = line.1 :: linesRead rest := by
  simp [linesRead, pieces_append_cons]

/-- A last line without a newline is read twice. -/
theorem linesRead_last (last : Piece '\n') : linesRead last.1 = [last.1, last.1] := by
  simp [linesRead, pieces_of_piece]

/-- The read loop applies `Pending.read` to these lines. -/
theorem readLoop_spec (text : CString) (vars : ReadVars) (clean : Clean vars.value) :
    (readLoop { rest := text } vars).map ReadVars.pending =
      vars.pending.readAll (linesRead text) := by
  have loop := readLoop_terminated (pieces '\n' text).1 (pieces '\n' text).2 vars clean
  rwa [terminated_pieces] at loop

/-- The fields, with the overrides. -/
def Pending.fields (overrides : ConfigOverrides) (pending : Pending) : Config :=
  pending.config.overrideFields overrides

/-- The fields that the constructor computes. -/
theorem Config.ofText_spec (text : CString) (overrides : ConfigOverrides) :
    Config.ofText text overrides =
      (Pending.readAll {} (linesRead text)).map (Pending.fields overrides) := by
  have loop : (readLoop { rest := text } {}).map ReadVars.pending =
      Pending.readAll {} (linesRead text) := readLoop_spec text {} clean_nil
  rw [ofText, readConfig, ← loop]
  cases readLoop { rest := text } {} <;> rfl

/-- What is read behind complete lines; the empty line at the end has no effect. -/
theorem readLoop_of_terminated (lines : List (Piece '\n')) :
    (readLoop { rest := terminated lines } {}).map ReadVars.pending =
      Pending.readAll {} lines.unattach := by
  have loop : (readLoop { rest := terminated lines } {}).map ReadVars.pending =
      Pending.readAll {} (linesRead (terminated lines)) := readLoop_spec _ {} clean_nil
  rw [loop, ← List.append_nil (terminated lines), linesRead_terminated_append,
    Pending.readAll_append]
  cases Pending.readAll {} lines.unattach <;> rfl

end CephGeoRep
