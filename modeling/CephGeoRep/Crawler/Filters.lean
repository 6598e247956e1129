import CephGeoRep.Support.Pattern
import CephGeoRep.Support.Pointer
import CephGeoRep.Crawler.Routes

/-!
# The name filters

The filters of `ignore_entry` walk over C strings with pointers. The comments of the source
name the patterns they are meant for. On the name of an entry they stay inside its memory,
and accept exactly what these patterns match.
-/

namespace CephGeoRep

open Support
open scoped Computability

/-! ## The pointer loops -/

/-- `get_last_of`, with `last`. -/
def getLastOfCells (test : Char) : List Char → Option (List Char) → Option (Option (List Char))
  | [], _ => none
  | cell :: string, last =>
    if cell = '\x00' then some last
    else
      match string with
      | [] => none
      | next :: _ => getLastOfCells test string (if next = test then some string else last)

/-- `get_filename`. -/
def getFilenameCells (path : List Char) : Option (Option (List Char)) :=
  (getLastOfCells '/' path none).map fun fileName => fileName.map List.tail

/-- `ptr[index] == char`. -/
def cellIs (ptr : List Char) (index : Nat) (char : Char) : Option Bool :=
  ptr[index]?.map fun cell => cell == char

/-- `check_hidden`. -/
def checkHiddenCells (fileName : List Char) : Option Bool := cellIs fileName 0 '.'

/-- `check_win_lock`. -/
def checkWinLockCells (fileName : List Char) : Option Bool :=
  both (cellIs fileName 0 '~') (cellIs fileName 1 '$')

/-- `check_vim_swap`. -/
def checkVimSwapCells (fileName : List Char) : Option Bool := do
  let hidden ← checkHiddenCells fileName
  if !hidden then return false
  let ext ← getLastOfCells '.' fileName none
  match ext with
  | none => return false
  | some ext =>
    both (cellIs ext 1 's') (both (cellIs ext 2 'w') (both (cellIs ext 3 'p')
      (either (cellIs ext 4 '\x00') (both (cellIs ext 4 'x') (cellIs ext 5 '\x00')))))

section Cells

variable {text : CString} {test : Char}

theorem getLastOfCells_cons (cell next : Char) (rest : List Char) (last : Option (List Char)) :
    getLastOfCells test (cell :: next :: rest) last =
      if cell = '\x00' then some last
      else getLastOfCells test (next :: rest) (if next = test then some (next :: rest) else last) :=
  rfl

theorem getLastOf_cons (char : Char) (text : CString) :
    getLastOf (char :: text) test =
      (getLastOf text test).or (if text.head? = some test then some text else none) := by
  rw [getLastOf]
  cases getLastOf text test <;> rfl

/-- The loop finds the place that the recursion finds, and reads up to the NUL. -/
theorem getLastOfCells_eq (ended : '\x00' ∉ text) (differs : test ≠ '\x00')
    (behind : List Char) (last : Option (List Char)) :
    getLastOfCells test (text ++ '\x00' :: behind) last =
      some (((getLastOf text test).map (· ++ '\x00' :: behind)).or last) := by
  induction text generalizing last with
  | nil => simp [getLastOfCells, getLastOf]
  | cons char text ih =>
      obtain ⟨solid, later⟩ := List.ne_and_not_mem_of_not_mem_cons ended
      cases text with
      | nil => simp [getLastOfCells, getLastOf, solid.symm, differs.symm]
      | cons next rest =>
          rw [List.cons_append, List.cons_append, getLastOfCells_cons, if_neg solid.symm,
            ← List.cons_append, ih later, getLastOf_cons char]
          cases getLastOf (next :: rest) test with
          | some found => rfl
          | none => by_cases same : next = test <;> simp [same]

/-- Inside the text, and at the NUL, a cell is what `charAt` says. -/
theorem cellIs_eq {index : Nat} (inside : index ≤ text.length) (behind : List Char)
    (char : Char) : cellIs (text ++ '\x00' :: behind) index char =
      some (text.charAt index == char) := by
  rw [cellIs, CString.charAt]
  rcases inside.lt_or_eq with before | rfl
  · rw [List.getElem?_append_left before, List.getD_eq_getElem?_getD,
      List.getElem?_eq_getElem before]
    rfl
  · simp

/-- What `get_last_of` finds is behind at least one character. -/
theorem getLastOf_eq_some_iff {found : CString} : getLastOf text test = some found ↔
    ∃ front rest, front ≠ [] ∧ test ∉ rest ∧ text = front ++ test :: rest ∧
      found = test :: rest := by
  constructor
  · intro last
    by_cases present : test ∈ text.tail
    · obtain ⟨first, tail, rfl⟩ := List.exists_cons_of_ne_nil
        (show text ≠ [] from fun empty => by simp [empty] at present)
      obtain ⟨rest, before, reversed, absent⟩ :=
        List.eq_append_cons_of_mem (List.mem_reverse.mpr present)
      have whole : first :: tail = (first :: before.reverse) ++ test :: rest.reverse := by
        have straight := congrArg List.reverse reversed
        simpa using straight
      have absent' : test ∉ rest.reverse := by simpa using absent
      rw [whole, getLastOf_append (by simp) absent'] at last
      exact ⟨_, _, by simp, absent', whole, (Option.some.inj last).symm⟩
    · rw [getLastOf_eq_none present] at last
      cases last
  · rintro ⟨front, rest, nonempty, absent, rfl, rfl⟩
    exact getLastOf_append nonempty absent

/-- A comparison that holds has not met the NUL, so the next cell may be read. -/
theorem both_cellIs {index : Nat} {char : Char} {second : Option Bool} {result : Bool}
    (inside : index ≤ text.length) (solid : char ≠ '\x00')
    (next : index + 1 ≤ text.length → second = some result) (behind : List Char) :
    both (cellIs (text ++ '\x00' :: behind) index char) second =
      some (text.charAt index == char && result) := by
  rw [cellIs_eq inside, both_some]
  by_cases same : text.charAt index = char
  · have before : index < text.length := by
      by_contra outside
      apply solid
      rw [← same, CString.charAt, List.getD_eq_default _ _ (not_lt.mp outside)]
    rw [next before, same, beq_self_eq_true, Bool.true_and, if_pos rfl]
  · rw [beq_false_of_ne same, Bool.false_and, if_neg Bool.false_ne_true]

theorem checkHiddenCells_eq (text : CString) (behind : List Char) :
    checkHiddenCells (text ++ '\x00' :: behind) = some (checkHidden text) :=
  cellIs_eq (Nat.zero_le _) behind '.'

theorem checkWinLockCells_eq (text : CString) (behind : List Char) :
    checkWinLockCells (text ++ '\x00' :: behind) = some (checkWinLock text) :=
  both_cellIs (Nat.zero_le _) (by decide) (fun inside => cellIs_eq inside behind '$') behind

/-- Up to five cells behind the last point, each only if the one before is as it must be. -/
theorem checkVimSwapCells_eq (ended : '\x00' ∉ text) (behind : List Char) :
    checkVimSwapCells (text ++ '\x00' :: behind) = some (checkVimSwap text) := by
  rw [checkVimSwapCells, checkVimSwap, checkHiddenCells_eq, getLastOfCells_eq ended (by decide)]
  cases checkHidden text with
  | false => rfl
  | true =>
      cases found : getLastOf text '.' with
      | none => rfl
      | some ext =>
          have point : 1 ≤ ext.length := by
            obtain ⟨_, rest, _, _, _, rfl⟩ := getLastOf_eq_some_iff.mp found
            simp
          have last (inside : 4 ≤ ext.length) :
              either (cellIs (ext ++ '\x00' :: behind) 4 '\x00')
                (both (cellIs (ext ++ '\x00' :: behind) 4 'x')
                  (cellIs (ext ++ '\x00' :: behind) 5 '\x00')) =
              some (ext.charAt 4 == '\x00' ||
                (ext.charAt 4 == 'x' && ext.charAt 5 == '\x00')) := by
            rw [cellIs_eq inside, either_some, both_cellIs inside (by decide)
              fun inside => cellIs_eq inside behind _]
            cases ext.charAt 4 == '\x00' <;> rfl
          have all := both_cellIs point (by decide : 's' ≠ '\x00')
            (fun inside => both_cellIs inside (by decide : 'w' ≠ '\x00')
              (fun inside => both_cellIs inside (by decide : 'p' ≠ '\x00') last behind)
              behind) behind
          rw [← Bool.and_assoc, ← Bool.and_assoc] at all
          exact all

end Cells

/-! ## The patterns -/

/-- `/^\./` -/
def hiddenPattern : Language Char := initially (literal ".".toList)

/-- `/^~\$/` -/
def winLockPattern : Language Char := initially (literal "~$".toList)

/-- `/^\..*\.swpx?$/` -/
def vimSwapPattern : Language Char :=
  literal ".".toList * anyChar∗ * literal ".swp".toList * maybe (literal "x".toList)

section Patterns

variable {name : CString}

theorem checkHidden_iff : checkHidden name = true ↔ name ∈ hiddenPattern := by
  rw [hiddenPattern, mem_initially_literal, checkHidden, beq_iff_eq]
  cases name with
  | nil => decide
  | cons char rest => simp [CString.charAt, eq_comm]

theorem checkWinLock_iff : checkWinLock name = true ↔ name ∈ winLockPattern := by
  rw [winLockPattern, mem_initially_literal, checkWinLock, Bool.and_eq_true, beq_iff_eq,
    beq_iff_eq]
  rcases name with _ | ⟨first, _ | ⟨second, rest⟩⟩
  · decide
  · simp [CString.charAt]
  · simp [CString.charAt, eq_comm]

theorem mem_vimSwapPattern : name ∈ vimSwapPattern ↔
    ∃ front, ".".toList <+: front ∧
      (name = front ++ ".swp".toList ∨ name = front ++ ".swpx".toList) := by
  have extension : ".swpx".toList = ".swp".toList ++ "x".toList := by decide
  rw [vimSwapPattern, mem_mul_maybe_literal, kstar_anyChar, extension]
  simp only [mem_mul_literal]
  change (∃ rest ∈ initially (literal ".".toList), _) ∨
    (∃ whole, (∃ rest ∈ initially (literal ".".toList), _) ∧ _) ↔ _
  simp only [mem_initially_literal]
  constructor
  · rintro (⟨front, hidden, rfl⟩ | ⟨_, ⟨front, hidden, rfl⟩, rfl⟩)
    · exact ⟨front, hidden, .inl rfl⟩
    · exact ⟨front, hidden, .inr (List.append_assoc _ _ _)⟩
  · rintro ⟨front, hidden, rfl | rfl⟩
    · exact .inl ⟨front, hidden, rfl⟩
    · exact .inr ⟨_, ⟨front, hidden, rfl⟩, List.append_assoc _ _ _⟩

/-- The comparisons hold for two extensions only. -/
theorem extension_iff {rest : CString} (ended : '\x00' ∉ rest) :
    (CString.charAt ('.' :: rest) 1 == 's' && CString.charAt ('.' :: rest) 2 == 'w' &&
        CString.charAt ('.' :: rest) 3 == 'p' &&
        (CString.charAt ('.' :: rest) 4 == '\x00' || (CString.charAt ('.' :: rest) 4 == 'x' &&
          CString.charAt ('.' :: rest) 5 == '\x00'))) = true ↔
      rest = "swp".toList ∨ rest = "swpx".toList := by
  simp only [Bool.and_eq_true, Bool.or_eq_true, beq_iff_eq]
  rcases rest with _ | ⟨first, _ | ⟨second, _ | ⟨third, _ | ⟨fourth, _ | ⟨fifth, rest⟩⟩⟩⟩⟩
  · decide
  · simp [CString.charAt]
  · simp [CString.charAt]
  · simp [CString.charAt, and_assoc]
  · have solid : fourth ≠ '\x00' := fun same => ended (by simp [same])
    simp [CString.charAt, solid, and_assoc]
  · have solid : fourth ≠ '\x00' := fun same => ended (by simp [same])
    have solid' : fifth ≠ '\x00' := fun same => ended (by simp [same])
    simp [CString.charAt, solid, solid']

/-- The last point is behind the first one, so a name with one point only is no swap
file. -/
theorem checkVimSwap_iff (ended : '\x00' ∉ name) :
    checkVimSwap name = true ↔ name ∈ vimSwapPattern := by
  rw [mem_vimSwapPattern, checkVimSwap]
  constructor
  · intro accepted
    by_cases hidden : checkHidden name = true
    · rw [hidden, Bool.not_true, if_neg Bool.false_ne_true] at accepted
      cases found : getLastOf name '.' with
      | none =>
          rw [found] at accepted
          cases accepted
      | some ext =>
          rw [found] at accepted
          obtain ⟨front, rest, nonempty, absent, rfl, rfl⟩ := getLastOf_eq_some_iff.mp found
          have ended' : '\x00' ∉ rest := fun member =>
            ended (List.mem_append_right _ (List.mem_cons_of_mem _ member))
          refine ⟨front, ?_, ?_⟩
          · obtain ⟨char, front, rfl⟩ := List.exists_cons_of_ne_nil nonempty
            have first := mem_initially_literal.mp (checkHidden_iff.mp hidden)
            simpa using first
          · rcases (extension_iff ended').mp accepted with rfl | rfl
            · exact .inl rfl
            · exact .inr rfl
    · rw [Bool.not_eq_true] at hidden
      rw [hidden] at accepted
      cases accepted
  · rintro ⟨front, first, swap⟩
    have nonempty : front ≠ [] := by
      rintro rfl
      exact absurd first (by decide)
    have hidden (back : CString) : checkHidden (front ++ back) = true :=
      checkHidden_iff.mpr (mem_initially_literal.mpr (first.trans (List.prefix_append _ _)))
    rcases swap with rfl | rfl
    · have found : getLastOf (front ++ ".swp".toList) '.' = some ".swp".toList :=
        getLastOf_append nonempty (by decide : '.' ∉ "swp".toList)
      rw [hidden, found]
      decide
    · have found : getLastOf (front ++ ".swpx".toList) '.' = some ".swpx".toList :=
        getLastOf_append nonempty (by decide : '.' ∉ "swpx".toList)
      rw [hidden, found]
      decide

end Patterns

/-! ## The filters on an entry -/

/-- What the filters do with the name at the end of a path. The memory behind the NUL is
arbitrary, and may be missing: nothing there is read. -/
structure FiltersMatch (front name : CString) : Prop where
  filename : ∀ behind, getFilenameCells (front ++ '/' :: name ++ '\x00' :: behind) =
    some (some (name ++ '\x00' :: behind))
  filename_init : ∀ (snapRootLen : Nat) (st : Stat), snapRootLen ≤ front.length → ∀ behind,
    getFilenameCells ((File.init (front ++ '/' :: name) snapRootLen st).path ++
      '\x00' :: behind) = some (some (name ++ '\x00' :: behind))
  hidden : ∃ accepted, (∀ behind, checkHiddenCells (name ++ '\x00' :: behind) = some accepted) ∧
    (accepted = true ↔ name ∈ hiddenPattern)
  winLock : ∃ accepted, (∀ behind, checkWinLockCells (name ++ '\x00' :: behind) = some accepted) ∧
    (accepted = true ↔ name ∈ winLockPattern)
  vimSwap : ∃ accepted, (∀ behind, checkVimSwapCells (name ++ '\x00' :: behind) = some accepted) ∧
    (accepted = true ↔ name ∈ vimSwapPattern)

section Entry

variable {front name : CString}

theorem getFilenameCells_eq {path : CString} (ended : '\x00' ∉ path) (behind : List Char) :
    getFilenameCells (path ++ '\x00' :: behind) =
      some ((getLastOf path '/').map fun found => (found ++ '\x00' :: behind).tail) := by
  rw [getFilenameCells, getLastOfCells_eq ended (by decide), Option.or_none, Option.map_some,
    Option.map_map]
  rfl

theorem getFilenameCells_append (nonempty : front ≠ []) (noSlash : '/' ∉ name)
    (ended : '\x00' ∉ front ++ '/' :: name) (behind : List Char) :
    getFilenameCells (front ++ '/' :: name ++ '\x00' :: behind) =
      some (some (name ++ '\x00' :: behind)) := by
  rw [getFilenameCells_eq ended, getLastOf_append nonempty noSlash]
  rfl

/-- The marker goes into the part in front of the name. -/
theorem path_init_append (name : CString) {snapRootLen : Nat} {st : Stat}
    (inside : snapRootLen ≤ front.length) :
    ∃ front', (File.init (front ++ '/' :: name) snapRootLen st).path = front' ++ '/' :: name ∧
      (front ≠ [] → front' ≠ []) ∧ ('\x00' ∉ front → '\x00' ∉ front') := by
  by_cases directory : st.isDir = true
  · exact ⟨front, by simp [File.init, directory], id, id⟩
  · refine ⟨front.take snapRootLen ++ ['/', '.'] ++ front.drop snapRootLen, ?_, by simp, ?_⟩
    · simp [File.init, directory, List.take_append_of_le_length inside,
        List.drop_append_of_le_length inside]
    · intro ended member
      simp only [List.mem_append] at member
      obtain (taken | marker) | dropped := member
      · exact ended (List.mem_of_mem_take taken)
      · exact absurd marker (by decide)
      · exact ended (List.mem_of_mem_drop dropped)

/-- Behind every nonempty front, the filters see the name of an entry, and match it with
their patterns. -/
theorem filtersMatch_of_path (nonempty : front ≠ []) (noSlash : '/' ∉ name)
    (ended : '\x00' ∉ front) (ended' : '\x00' ∉ name) : FiltersMatch front name where
  filename := getFilenameCells_append nonempty noSlash (by simp [ended, ended'])
  filename_init snapRootLen st inside behind := by
    obtain ⟨front', path, nonempty', noNul⟩ := @path_init_append front name _ st inside
    rw [path]
    exact getFilenameCells_append (nonempty' nonempty) noSlash (by simp [noNul ended, ended'])
      behind
  hidden := ⟨checkHidden name, checkHiddenCells_eq name, checkHidden_iff⟩
  winLock := ⟨checkWinLock name, checkWinLockCells_eq name, checkWinLock_iff⟩
  vimSwap := ⟨checkVimSwap name, checkVimSwapCells_eq ended', checkVimSwap_iff ended'⟩

/-- A swap file with several points in its name. -/
theorem filtersMatch_swapFile : FiltersMatch "/s/d".toList ".a.b.swpx".toList :=
  filtersMatch_of_path (by decide) (by decide) (by decide) (by decide)

/-- The patterns of the filters that the configuration turns on. -/
def enabledPatterns (config : Config) : Language Char :=
  (if config.ignoreHidden then hiddenPattern else 0) +
    (if config.ignoreWinLock then winLockPattern else 0) +
    (if config.ignoreVimSwap then vimSwapPattern else 0)

theorem filtered_iff {crawler : Crawler} (ended : '\x00' ∉ name) :
    crawler.filtered name = true ↔ name ∈ enabledPatterns crawler.config := by
  have member (enabled : Bool) (pattern : Language Char) :
      name ∈ (if enabled then pattern else 0) ↔ enabled = true ∧ name ∈ pattern := by
    cases enabled <;> simp
  rw [enabledPatterns, Language.mem_add, Language.mem_add, member, member, member,
    ← checkHidden_iff, ← checkWinLock_iff, ← checkVimSwap_iff ended, Crawler.filtered]
  simp only [Bool.or_eq_true, Bool.and_eq_true]

/-- `ignore_entry` skips what is not newer than the watermark, and what has a name that
matches an enabled pattern. -/
theorem ignoreEntry_iff {crawler : Crawler} {snapRoot below : CString}
    (extensible : Extensible (snapRoot ++ below)) (noSlash : '/' ∉ name)
    (ended : '\x00' ∉ name) (attributes : Attributes) :
    crawler.ignoreEntry (Crawler.fileOf snapRoot (snapRoot ++ below) name attributes)
        attributes.rctime = true ↔
      searchRctime attributes ≤ crawler.lastRctime ∨ name ∈ enabledPatterns crawler.config := by
  rw [ignoreEntry_fileOf extensible noSlash, Crawler.passes, Bool.not_eq_true',
    Bool.and_eq_false_iff, Timespec.gt_eq_false_iff, Bool.not_eq_false', filtered_iff ended]

end Entry

end CephGeoRep
