import CephGeoRep.Crawler.LastRctime
import CephGeoRep.Data.Config

/-!
# The search for new files

A directory tree is what nested `directory_iterator`s find. The single-threaded
search walks it recursively with two accumulators; `Listing.newFiles` and
`Listing.searched` say without them what it collects and which directories it opens.
-/

namespace CephGeoRep

/-- The entries of a directory in the order in which they are found. `children` is
what the entry lists, should it be a directory. -/
inductive Listing where
  | nil
  | entry (name : CString) (attributes : Attributes) (children rest : Listing)
deriving DecidableEq

/-- The members of `class Crawler` that the search reads. -/
structure Crawler where
  config : Config
  lastRctime : Timespec

/-- The path a `directory_iterator` over `path` reports for `name`. -/
def fsAppend (path name : CString) : CString :=
  if path.isEmpty ∨ path.getLast? = some '/' then path ++ name else path ++ '/' :: name

/-- `uintmax_t`. -/
def uintmaxT (value : Nat) : Nat := value % 2 ^ 64

namespace Crawler

/-- The filter tests of `ignore_entry`. -/
def filtered (crawler : Crawler) (fileName : CString) : Bool :=
  (crawler.config.ignoreHidden && checkHidden fileName) ||
    (crawler.config.ignoreWinLock && checkWinLock fileName) ||
    (crawler.config.ignoreVimSwap && checkVimSwap fileName)

/-- `Crawler::ignore_entry`. The path of an entry always has a last component, see
`getFilename_entry`. -/
def ignoreEntry (crawler : Crawler) (file : File) (rctime : Option CString) : Bool :=
  if isNewer crawler.lastRctime file rctime then (getFilename file.path).any crawler.filtered
  else true

/-- The `File` the search makes of an entry. -/
def fileOf (snapRoot path name : CString) (attributes : Attributes) : File :=
  File.init (fsAppend path name) snapRoot.length attributes.stat

/-- `Crawler::find_new_files_recursive`, with `file_list` and `total_bytes`. -/
def findNewFilesRecursive (crawler : Crawler) (snapRoot : CString) :
    CString → Listing → List File × Nat → List File × Nat
  | _, .nil, result => result
  | currentPath, .entry name attributes children rest, (fileList, totalBytes) =>
    let file := fileOf snapRoot currentPath name attributes
    if crawler.ignoreEntry file attributes.rctime then
      findNewFilesRecursive crawler snapRoot currentPath rest (fileList, totalBytes)
    else if file.isDirectory then
      findNewFilesRecursive crawler snapRoot currentPath rest
        (findNewFilesRecursive crawler snapRoot (fsAppend currentPath name) children
          (fileList, totalBytes))
    else
      findNewFilesRecursive crawler snapRoot currentPath rest
        (fileList ++ [file], uintmaxT (totalBytes + file.size))

/-- An entry that is a directory and passes `ignore_entry`. -/
def opens (crawler : Crawler) (snapRoot path name : CString) (attributes : Attributes) : Bool :=
  let file := fileOf snapRoot path name attributes
  !crawler.ignoreEntry file attributes.rctime && file.isDirectory

/-- An entry that is no directory and passes `ignore_entry`. -/
def queues (crawler : Crawler) (snapRoot path name : CString) (attributes : Attributes) : Bool :=
  let file := fileOf snapRoot path name attributes
  !crawler.ignoreEntry file attributes.rctime && !file.isDirectory

end Crawler

namespace Listing

variable (crawler : Crawler) (snapRoot : CString)

/-- The files the search collects below a directory. -/
def newFiles : CString → Listing → List File
  | _, .nil => []
  | path, .entry name attributes children rest =>
    (if crawler.opens snapRoot path name attributes then
        newFiles (fsAppend path name) children
      else if crawler.queues snapRoot path name attributes then
        [Crawler.fileOf snapRoot path name attributes]
      else []) ++ newFiles path rest

/-- The directories below a directory that pass `ignore_entry`, as do those on the
way to them. -/
def searched : CString → Listing → List CString
  | _, .nil => []
  | path, .entry name attributes children rest =>
    (if crawler.opens snapRoot path name attributes then
        fsAppend path name :: searched (fsAppend path name) children
      else []) ++ searched path rest

end Listing

/-- The sum of the sizes of files. -/
def totalSize (files : List File) : Nat := (files.map File.size).sum

/-- The single-threaded search appends the new files and adds their sizes. -/
theorem Crawler.findNewFilesRecursive_eq (crawler : Crawler) (snapRoot path : CString)
    (listing : Listing) (fileList : List File) (totalBytes : Nat) :
    crawler.findNewFilesRecursive snapRoot path listing (fileList, uintmaxT totalBytes) =
      (fileList ++ listing.newFiles crawler snapRoot path,
        uintmaxT (totalBytes + totalSize (listing.newFiles crawler snapRoot path))) := by
  induction listing generalizing path fileList totalBytes with
  | nil => simp [findNewFilesRecursive, Listing.newFiles, totalSize]
  | entry name attributes children rest inner next =>
      unfold findNewFilesRecursive Listing.newFiles opens queues
      by_cases ignored : crawler.ignoreEntry (fileOf snapRoot path name attributes)
          attributes.rctime = true
      · simp only [ignored, ↓reduceIte, Bool.not_true, Bool.false_and, Bool.false_eq_true,
          List.nil_append]
        exact next path fileList totalBytes
      · rw [Bool.not_eq_true] at ignored
        by_cases directory : (fileOf snapRoot path name attributes).isDirectory = true
        · simp only [ignored, directory, Bool.false_eq_true, ↓reduceIte, Bool.not_false,
            Bool.and_self]
          rw [inner, next]
          simp [totalSize, Nat.add_assoc]
        · rw [Bool.not_eq_true] at directory
          have wrapped : uintmaxT (uintmaxT totalBytes +
              (fileOf snapRoot path name attributes).size) =
                uintmaxT (totalBytes + (fileOf snapRoot path name attributes).size) := by
            simp [uintmaxT]
          simp only [ignored, directory, Bool.false_eq_true, ↓reduceIte, Bool.not_false,
            Bool.and_false, Bool.and_self]
          rw [wrapped, next]
          simp [totalSize, Nat.add_assoc]

/-! ## Paths -/

/-- A path that names a directory without a separator at its end. -/
def Extensible (path : CString) : Prop := path ≠ [] ∧ path.getLast? ≠ some '/'

/-- The names of the entries. -/
def Listing.names : Listing → List CString
  | .nil => []
  | .entry name _ _ rest => name :: rest.names

/-- A directory tree as a file system has it: the names in a directory are distinct,
not empty and without separators. -/
def Listing.Proper : Listing → Prop
  | .nil => True
  | .entry name _ children rest =>
    name ≠ [] ∧ '/' ∉ name ∧ name ∉ rest.names ∧ children.Proper ∧ rest.Proper

section Paths

variable {path snapRoot name : CString} {crawler : Crawler} {attributes : Attributes}
  {listing : Listing}

theorem fsAppend_eq (extensible : Extensible path) (name : CString) :
    fsAppend path name = path ++ '/' :: name := by
  obtain ⟨nonempty, unclosed⟩ := extensible
  simp [fsAppend, nonempty, unclosed]

/-- Entries of an extensible path are extensible. -/
theorem extensible_fsAppend (extensible : Extensible path) (nonempty : name ≠ [])
    (noSlash : '/' ∉ name) : Extensible (fsAppend path name) := by
  rw [fsAppend_eq extensible]
  refine ⟨by simp, fun closed => noSlash ?_⟩
  have last : name.getLast? = some '/' := by
    rw [List.getLast?_append, List.getLast?_cons_of_ne_nil nonempty] at closed
    cases found : name.getLast? with
    | none => exact absurd (List.getLast?_eq_none_iff.mp found) nonempty
    | some char =>
        rw [found] at closed
        simpa using closed
  exact List.mem_of_getLast? last

/-- The file name that `ignore_entry` tests is the name of the entry, also behind the
`/./` marker. -/
theorem getFilename_entry {below : CString} (extensible : Extensible (snapRoot ++ below))
    (noSlash : '/' ∉ name) (attributes : Attributes) :
    getFilename (Crawler.fileOf snapRoot (snapRoot ++ below) name attributes).path =
      some name := by
  unfold Crawler.fileOf File.init
  rw [fsAppend_eq extensible]
  split
  · exact getFilename_append extensible.1 noSlash
  · have marked : (snapRoot ++ below ++ '/' :: name).take snapRoot.length ++ ['/', '.'] ++
        (snapRoot ++ below ++ '/' :: name).drop snapRoot.length =
          (snapRoot ++ ['/', '.'] ++ below) ++ '/' :: name := by
      simp
    rw [marked]
    exact getFilename_append (by simp) noSlash

/-- What lies at or below an entry starts with its name. -/
theorem below_entry (extensible : Extensible path) {found : CString}
    (below : found = fsAppend path name ∨ ∃ deeper, found = fsAppend path name ++ '/' :: deeper) :
    ∃ more, found = path ++ '/' :: (name ++ more) ∧ (more = [] ∨ more.head? = some '/') := by
  rw [fsAppend_eq extensible] at below
  rcases below with rfl | ⟨deeper, rfl⟩
  · exact ⟨[], by rw [List.append_nil], .inl rfl⟩
  · exact ⟨'/' :: deeper, by simp, .inr rfl⟩

/-- A directory found below a path, by the entry it was found in. -/
theorem searched_below (extensible : Extensible path) (proper : listing.Proper)
    {found : CString} (member : found ∈ listing.searched crawler snapRoot path) :
    ∃ name ∈ listing.names, '/' ∉ name ∧ ∃ more, found = path ++ '/' :: (name ++ more) ∧
      (more = [] ∨ more.head? = some '/') := by
  induction listing generalizing path with
  | nil => cases member
  | entry name attributes children rest inner next =>
      obtain ⟨nonempty, noSlash, _, below, others⟩ := proper
      rw [Listing.searched] at member
      rcases List.mem_append.mp member with here | later
      · refine ⟨name, List.mem_cons_self, noSlash, ?_⟩
        split at here
        · apply below_entry extensible
          rcases List.mem_cons.mp here with same | deeper
          · exact .inl same
          · obtain ⟨child, _, _, more, equal, _⟩ :=
              inner (extensible_fsAppend extensible nonempty noSlash) below deeper
            exact .inr ⟨child ++ more, equal⟩
        · cases here
      · obtain ⟨other, listed, rest⟩ := next extensible others later
        exact ⟨other, List.mem_cons_of_mem _ listed, rest⟩

/-- The name of an entry is what its path has up to the next separator. -/
theorem takeWhile_entry {more : CString} (noSlash : '/' ∉ name)
    (stop : more = [] ∨ more.head? = some '/') :
    (name ++ more).takeWhile (· ≠ '/') = name := by
  rcases stop with rfl | separated
  · rw [List.takeWhile_append_of_pos fun char member => by
      have differs : char ≠ '/' := fun same => noSlash (same ▸ member)
      simpa using differs]
    exact List.append_nil _
  · obtain ⟨rest, rfl⟩ : ∃ rest, more = '/' :: rest := by
      cases more with
      | nil => cases separated
      | cons char rest => exact ⟨rest, by simpa using separated⟩
    exact Support.takeWhile_ne_append noSlash rest

/-- No directory is searched twice. -/
theorem searched_nodup (extensible : Extensible path) (proper : listing.Proper) :
    (path :: listing.searched crawler snapRoot path).Nodup := by
  have longer : path ∉ listing.searched crawler snapRoot path := by
    intro member
    obtain ⟨name, _, _, more, equal, _⟩ := searched_below extensible proper member
    have length := congrArg List.length equal
    simp at length
  refine List.nodup_cons.mpr ⟨longer, ?_⟩
  clear longer
  induction listing generalizing path with
  | nil => exact List.nodup_nil
  | entry name attributes children rest inner next =>
      obtain ⟨nonempty, noSlash, fresh, below, others⟩ := proper
      have extensible' := extensible_fsAppend extensible nonempty noSlash
      rw [Listing.searched, List.nodup_append]
      refine ⟨?_, next extensible others, ?_⟩
      · split
        · refine List.nodup_cons.mpr ⟨fun member => ?_, inner extensible' below⟩
          obtain ⟨child, _, _, more, equal, _⟩ := searched_below extensible' below member
          have length := congrArg List.length equal
          simp at length
        · exact List.nodup_nil
      · intro first here second later same
        subst same
        split at here
        · have inside : first = fsAppend path name ∨
              ∃ deeper, first = fsAppend path name ++ '/' :: deeper := by
            rcases List.mem_cons.mp here with same | deeper
            · exact .inl same
            · obtain ⟨child, _, _, more, equal, _⟩ := searched_below extensible' below deeper
              exact .inr ⟨child ++ more, equal⟩
          obtain ⟨more, equal, stop⟩ := below_entry extensible inside
          obtain ⟨other, listed, noSlash', more', equal', stop'⟩ :=
            searched_below extensible others later
          have tails : name ++ more = other ++ more' := by
            rw [equal] at equal'
            simpa using equal'
          have names : name = other := by
            rw [← takeWhile_entry noSlash stop, tails, takeWhile_entry noSlash' stop']
          exact fresh (names ▸ listed)
        · cases here

end Paths

end CephGeoRep
