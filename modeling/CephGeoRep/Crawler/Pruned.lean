import CephGeoRep.Crawler.Exhaustive
import CephGeoRep.Crawler.Poll

/-!
# What the pruned search rests on

The search does not open a directory whose `rctime` is no newer than the watermark.
That is sound if Ceph has propagated the times of the files to the directories above
them, which is what `Listing.Trickled` assumes.
-/

namespace CephGeoRep

open Semantics Support

/-! ## Entries and the times above them -/

namespace Listing

/-- The entries of a tree: the names on the way to each, and its attributes. -/
def entries : Listing → List (List CString × Attributes)
  | .nil => []
  | .entry name attributes children rest =>
    ([name], attributes) ::
      (if attributes.stat.isDir then
        children.entries.map fun below => (name :: below.1, below.2)
      else []) ++ rest.entries

/-- The directories of a tree, with what they list. -/
def directories : Listing → List (Attributes × Listing)
  | .nil => []
  | .entry _ attributes children rest =>
    (if attributes.stat.isDir then (attributes, children) :: children.directories else []) ++
      rest.directories

/-- No file of a tree is newer than a time that has been read. -/
def NoneNewer (listing : Listing) : Except NumeralError Timespec → Prop
  | .ok rctime => ∀ entry ∈ listing.entries, entry.2.stat.isDir = false →
      entry.2.stat.mtime ≤ rctime
  | .error _ => False

/-- What is assumed of Ceph at the time of a reading: the `rctime` that `get_rctime`
returns for a directory is at least that of every entry below it. It is enough to
assume this of the entries that are no directories. -/
def Trickled (listing : Listing) (read : Attributes → Except NumeralError Timespec) : Prop :=
  ∀ directory ∈ listing.directories, directory.2.NoneNewer (read directory.1)

instance (listing : Listing) : ∀ read, Decidable (listing.NoneNewer read)
  | .ok rctime => inferInstanceAs (Decidable (∀ entry ∈ listing.entries,
      entry.2.stat.isDir = false → entry.2.stat.mtime ≤ rctime))
  | .error _ => .isFalse id

instance (listing : Listing) (read : Attributes → Except NumeralError Timespec) :
    Decidable (listing.Trickled read) :=
  inferInstanceAs (Decidable (∀ directory ∈ listing.directories,
    directory.2.NoneNewer (read directory.1)))

instance decidableProper : ∀ listing : Listing, Decidable listing.Proper
  | .nil => .isTrue trivial
  | .entry name _ children rest =>
    have : Decidable children.Proper := decidableProper children
    have : Decidable rest.Proper := decidableProper rest
    inferInstanceAs (Decidable (name ≠ [] ∧ '/' ∉ name ∧ name ∉ rest.names ∧
      children.Proper ∧ rest.Proper))

section Entries

variable {name : CString} {attributes : Attributes} {children rest listing : Listing}
  {read : Attributes → Except NumeralError Timespec}

theorem trickled_entry :
    (Listing.entry name attributes children rest).Trickled read ↔
      (attributes.stat.isDir = true →
        children.NoneNewer (read attributes) ∧ children.Trickled read) ∧
      rest.Trickled read := by
  rw [Trickled, directories]
  simp only [List.mem_append, or_imp, forall_and]
  apply and_congr_left
  intro _
  split
  · next directory => simp [directory, Trickled]
  · next file => simp [file]

/-- A time that no file of a tree is newer than has been read. -/
theorem exists_of_noneNewer {time : Except NumeralError Timespec}
    (covered : listing.NoneNewer time) : ∃ rctime, time = .ok rctime ∧
      ∀ entry ∈ listing.entries, entry.2.stat.isDir = false → entry.2.stat.mtime ≤ rctime := by
  cases time with
  | error thrown => cases covered
  | ok rctime => exact ⟨rctime, rfl, covered⟩

/-- In a tree whose times have trickled up, every entry of the top can be read. -/
theorem readable_of_trickled (trickled : listing.Trickled read)
    (files : ∀ attributes, attributes.stat.isDir = false →
      read attributes = .ok attributes.stat.mtime) :
    ∀ attributes ∈ listing.top, ∃ rctime, read attributes = .ok rctime := by
  induction listing with
  | nil => nofun
  | entry name attributes children rest inner next =>
      obtain ⟨here, later⟩ := trickled_entry.mp trickled
      intro top member
      rcases List.mem_cons.mp member with rfl | behind
      · by_cases directory : top.stat.isDir = true
        · obtain ⟨rctime, found, _⟩ := exists_of_noneNewer (here directory).1
          exact ⟨rctime, found⟩
        · exact ⟨_, files top (by simpa using directory)⟩
      · exact next later top behind

end Entries

end Listing

/-! ## The search -/

/-- What `get_rctime(const File &)` returns for an entry of the snapshot, whatever its
path. -/
def searchRctime (attributes : Attributes) : Timespec :=
  getRctimeOfFile (File.init [] 0 attributes.stat) attributes.rctime

/-- The `File` of the entry that is reached from `snapRoot` through `names`. -/
def Crawler.fileAt (snapRoot : CString) (names : List CString) (attributes : Attributes) : File :=
  File.init (names.foldl fsAppend snapRoot) snapRoot.length attributes.stat

section Search

variable {crawler : Crawler} {snapRoot : CString} {attributes : Attributes} {listing : Listing}

theorem getRctimeOfFile_init (path : CString) (snapRootLen : Nat) (attributes : Attributes) :
    getRctimeOfFile (File.init path snapRootLen attributes.stat) attributes.rctime =
      searchRctime attributes := by
  unfold searchRctime getRctimeOfFile
  rw [File.init_isDirectory, File.init_isDirectory]
  split
  · rfl
  · next regular =>
    have regular' : attributes.stat.isDir = false := by simpa using regular
    rw [File.init_rctime regular', File.init_rctime regular']

@[simp]
theorem Crawler.fileOf_isDirectory (snapRoot path name : CString) (attributes : Attributes) :
    (Crawler.fileOf snapRoot path name attributes).isDirectory = attributes.stat.isDir :=
  File.init_isDirectory _ _ _

theorem searchRctime_file (regular : attributes.stat.isDir = false) :
    searchRctime attributes = attributes.stat.mtime := by
  simp [searchRctime, getRctimeOfFile, regular, File.init_rctime]

theorem getRctime_file (regular : attributes.stat.isDir = false) :
    getRctime attributes = .ok attributes.stat.mtime := by
  simp [getRctime, regular]

/-- However many workers it has, `trigger_search` fills the list with the new files. -/
theorem perm_of_triggerSearch {schedule : List Schedule} {result : List File × Nat}
    (some : 0 < crawler.config.threads)
    (found : crawler.triggerSearch snapRoot listing schedule = .some result) :
    result.1.Perm (listing.newFiles crawler snapRoot snapRoot) := by
  rw [Crawler.triggerSearch] at found
  split at found
  · have recursive := crawler.findNewFilesRecursive_eq snapRoot snapRoot listing [] 0
    rw [List.nil_append] at recursive
    rw [← Option.some.inj found]
    exact .of_eq (congrArg Prod.fst recursive)
  · simp only at found
    split at found
    · next search executed =>
      split at found
      · next returned =>
        have reachable := Machine.reachable_of_run rfl executed
        have workers : search.workers ≠ [] := by
          intro none
          have length := Search.length_workers reachable
          rw [none, List.length_nil] at length
          omega
        have files := Search.paid_of_returned (Search.fileLedger crawler snapRoot) workers
          reachable returned
        rw [← Option.some.inj found]
        exact Multiset.coe_eq_coe.mp (by simpa [Search.fileLedger] using files)
      · cases found
    · cases found

end Search

/-! ## The snapshot path -/

theorem extensible_showInt (value : Int) : Extensible (showInt value) := by
  constructor
  · exact showInt_ne_nil value
  · intro closed
    exact not_mem_showInt value (by decide) (by decide) (List.mem_of_getLast? closed)

theorem Extensible.append {text : CString} (extensible : Extensible text) (front : CString) :
    Extensible (front ++ text) := by
  obtain ⟨nonempty, unclosed⟩ := extensible
  refine ⟨by simp [nonempty], ?_⟩
  rw [List.getLast?_append_of_ne_nil front nonempty]
  exact unclosed

theorem Extensible.cons {text : CString} (extensible : Extensible text) (char : Char) :
    Extensible (char :: text) := extensible.append [char]

/-- Appending an extensible path gives one. -/
theorem Extensible.fsAppend {text : CString} (extensible : Extensible text) (path : CString) :
    Extensible (fsAppend path text) := by
  unfold CephGeoRep.fsAppend
  split
  · exact extensible.append path
  · exact (extensible.cons '/').append path

/-- The path of a snapshot ends with a number. -/
theorem extensible_createSnapPath (basePath : CString) (pid : Nat) (rctime : Timespec) :
    Extensible (createSnapPath basePath pid rctime) := by
  have number := extensible_showInt rctime.tvNsec
  exact (((number.cons '.').append _).append _).fsAppend basePath

end CephGeoRep
