import CephGeoRep.Data.Timespec

/-!
# Files and their paths

`File` holds what the search keeps of a directory entry. The path of a
non-directory is rewritten by `File.init`: `/.` is inserted after the snapshot
root, which is where `rsync --relative` and `s3wrap.sh` cut it.
-/

namespace CephGeoRep

/-- A C string: its characters before the terminating NUL. -/
abbrev CString := List Char

/-- Reads past the end of the text see the terminating NUL. -/
def CString.charAt (text : CString) (index : Nat) : Char := text.getD index '\x00'

/-- The fields of `struct stat` that `File::init` reads. -/
structure Stat where
  isDir : Bool
  size : Nat
  mtime : Timespec
deriving DecidableEq

/-- `class File`. -/
structure File where
  size : Nat
  isDirectory : Bool
  pathLen : Nat
  path : CString
  rctime : Timespec
deriving DecidableEq

namespace File

/-- `File::init`. A directory keeps its path, has `path_len_` 0 and leaves
`rctime_` unset; nothing reads the latter. -/
def init (path : CString) (snapRootLen : Nat) (st : Stat) : File :=
  if st.isDir then
    { size := st.size, isDirectory := true, pathLen := 0, path := path, rctime := .zero }
  else
    let path' := path.take snapRootLen ++ ['/', '.'] ++ path.drop snapRootLen
    { size := st.size, isDirectory := false, pathLen := path'.length, path := path',
      rctime := st.mtime }

@[simp]
theorem init_isDirectory (path : CString) (snapRootLen : Nat) (st : Stat) :
    (init path snapRootLen st).isDirectory = st.isDir := by
  rw [init]
  split <;> simp_all

@[simp]
theorem init_size (path : CString) (snapRootLen : Nat) (st : Stat) :
    (init path snapRootLen st).size = st.size := by
  rw [init]
  split <;> rfl

/-- The length that `File::init` keeps is that of the path it writes. -/
theorem init_pathLen {path : CString} {snapRootLen : Nat} {st : Stat}
    (regular : st.isDir = false) :
    (init path snapRootLen st).pathLen = (init path snapRootLen st).path.length := by
  rw [init, regular]
  rfl

theorem init_rctime {path : CString} {snapRootLen : Nat} {st : Stat}
    (regular : st.isDir = false) : (init path snapRootLen st).rctime = st.mtime := by
  simp [init, regular]

end File

/-- `get_last_of`: the suffix that starts at the last occurrence of `test`, where
the first character is skipped. The pointer is advanced before it is compared,
so the recursion looks at the head of the rest. -/
def getLastOf : CString → Char → Option CString
  | [], _ => none
  | _ :: rest, test =>
    match getLastOf rest test with
    | some last => some last
    | none => if rest.head? = some test then some rest else none

/-- `get_filename`; `none` is the null pointer. -/
def getFilename (path : CString) : Option CString :=
  (getLastOf path '/').map List.tail

/-- `check_hidden`: `/^\./`. -/
def checkHidden (fileName : CString) : Bool :=
  fileName.charAt 0 == '.'

/-- `check_win_lock`: `/^~\$/`. -/
def checkWinLock (fileName : CString) : Bool :=
  fileName.charAt 0 == '~' && fileName.charAt 1 == '$'

/-- `check_vim_swap`: `/^\..*\.swpx?$/`. -/
def checkVimSwap (fileName : CString) : Bool :=
  if !checkHidden fileName then false
  else
    match getLastOf fileName '.' with
    | none => false
    | some ext =>
      ext.charAt 1 == 's' && ext.charAt 2 == 'w' && ext.charAt 3 == 'p' &&
        (ext.charAt 4 == '\x00' || (ext.charAt 4 == 'x' && ext.charAt 5 == '\x00'))

/-- A path without a separator has no last component behind one. -/
theorem getLastOf_eq_none {text : CString} {test : Char} (absent : test ∉ text.tail) :
    getLastOf text test = none := by
  induction text with
  | nil => rfl
  | cons first rest ih =>
      have tail : getLastOf rest test = none :=
        ih fun present => absent (List.mem_of_mem_tail present)
      have head : rest.head? ≠ some test := fun found =>
        absent (List.mem_of_head? found)
      simp [getLastOf, tail, head]

/-- The last separator of `prefix/name` is the one before `name`, provided the
prefix is not empty and the name has no separator of its own. -/
theorem getLastOf_append {front name : CString} {test : Char} (nonempty : front ≠ [])
    (absent : test ∉ name) :
    getLastOf (front ++ test :: name) test = some (test :: name) := by
  induction front with
  | nil => exact absurd rfl nonempty
  | cons first front ih =>
      cases front with
      | nil =>
          have later : getLastOf (test :: name) test = none := getLastOf_eq_none absent
          rw [List.singleton_append, getLastOf, later]
          simp
      | cons second front =>
          have found := ih (by simp)
          simp only [List.cons_append] at found ⊢
          rw [getLastOf, found]

/-- `get_filename` returns the component behind the last separator. -/
theorem getFilename_append {front name : CString} (nonempty : front ≠ [])
    (noSlash : '/' ∉ name) : getFilename (front ++ '/' :: name) = some name := by
  simp [getFilename, getLastOf_append nonempty noSlash]

end CephGeoRep
