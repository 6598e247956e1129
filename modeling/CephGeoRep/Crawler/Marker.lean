import CephGeoRep.Support.Pointer
import CephGeoRep.Support.Cut
import CephGeoRep.Crawler.Routes

/-!
# The relative-path marker

`File::init` copies a path into a new array and puts `/.` behind the snapshot root, by its
length. `rsync --relative` and `s3wrap.sh` look for `/./` instead. They find the same place
unless the configured directory has the marker in it already.
-/

namespace CephGeoRep

open Support

/-! ## The pointer loops -/

/-- `File::init` on the memory from `path` on, for an entry that is no directory: the array
at `path_`, and `path_len_`. -/
def File.initCells (path : List Char) (snapRootLen : Nat) : Option (Buffer Char × Nat) := do
  let length ← strlen '\x00' path
  let dst := Buffer.alloc (length + 2 + 1)
  let (src, dst) ← copyCells snapRootLen path dst
  let dst ← dst.put '/'
  let dst ← dst.put '.'
  let dst ← copyString '\x00' src dst
  let pathLen := dst.written.length
  let dst ← dst.put '\x00'
  return (dst, pathLen)

/-- The loops read no further than the text, and fill the array to the last cell. -/
theorem File.initCells_eq {path : CString} {snapRootLen : Nat} {st : Stat}
    (ended : '\x00' ∉ path) (inside : snapRootLen ≤ path.length) (regular : st.isDir = false)
    (behind : List Char) :
    initCells (path ++ '\x00' :: behind) snapRootLen =
      some (⟨(init path snapRootLen st).path ++ ['\x00'], 0⟩,
        (init path snapRootLen st).pathLen) := by
  obtain ⟨front, back, rfl, rfl⟩ :
      ∃ front back, path = front ++ back ∧ snapRootLen = front.length :=
    ⟨path.take snapRootLen, path.drop snapRootLen, (List.take_append_drop _ _).symm,
      (List.length_take_of_le inside).symm⟩
  have ended' : '\x00' ∉ back := fun member => ended (List.mem_append_right _ member)
  have room : (front ++ back).length + 2 + 1 = front.length + (back.length + 1 + 1 + 1) := by
    rw [List.length_append]
    omega
  have source : front ++ back ++ '\x00' :: behind = front ++ (back ++ '\x00' :: behind) :=
    List.append_assoc _ _ _
  have result : (init (front ++ back) front.length st).path = front ++ ['/', '.'] ++ back := by
    simp [init, regular]
  rw [init_pathLen regular, result, initCells, strlen_append ended, source]
  simp only [Option.bind_eq_bind, Option.bind_some, Buffer.alloc, room, copyCells_append,
    List.nil_append, Buffer.put_succ, copyString_append ended', Option.pure_def]
  simp

/-! ## Where the marker is found -/

/-- What `File::init` puts between the snapshot root and the rest. -/
def marker : CString := "/./".toList

/-- The cut that `rsync --relative` makes: the text behind the first marker. -/
def remoteName (path : CString) : Option CString := (cutAt marker path).map Prod.snd

/-- `REL` of `s3wrap.sh`: the second field of an argument of one line, with the marker
between the fields. -/
def s3wrapRel (arg : CString) : CString :=
  match cutAt marker arg with
  | none => []
  | some (_, rest) => ((cutAt marker rest).map Prod.fst).getD rest

/-- No separator comes right behind a point. -/
def Unmarked (first second : Char) : Prop := ¬ (first = '.' ∧ second = '/')

section Marker

variable {front back text : CString}

theorem isChain_of_noSlash (noSlash : '/' ∉ text) : text.IsChain Unmarked := by
  induction text with
  | nil => exact .nil
  | cons char text ih =>
      obtain ⟨_, later⟩ := List.ne_and_not_mem_of_not_mem_cons noSlash
      refine List.isChain_cons.mpr ⟨fun next head both => ?_, ih later⟩
      exact later (both.2 ▸ List.mem_of_head? head)

theorem isChain_append_slash (chain : front.IsChain Unmarked) (last : front.getLast? ≠ some '.')
    (chain' : back.IsChain Unmarked) : (front ++ '/' :: back).IsChain Unmarked := by
  refine chain.append (List.isChain_cons.mpr ⟨fun _ _ both => absurd both.1 (by decide), chain'⟩) ?_
  intro char final next _ both
  exact last (both.1 ▸ final)

/-- Behind such a text the marker does not end. -/
theorem marker_infix_append (chain : back.IsChain Unmarked) (head : back.head? ≠ some '/') :
    marker <:+: front ++ back ↔ marker <:+: front := by
  constructor
  · rintro ⟨before, behind, equal⟩
    rcases List.append_eq_append_iff.mp equal with ⟨more, whole, _⟩ | ⟨more, reaches, rest⟩
    · exact ⟨before, more, whole.symm⟩
    rcases more.eq_nil_or_concat with rfl | ⟨more, char, rfl⟩
    · exact ⟨before, [], by rw [List.append_nil, ← List.append_nil front, reaches]⟩
    -- The last character of the marker is in the text, so the one before must be, too.
    have parts : before ++ ['/', '.'] ++ ['/'] = front ++ more ++ [char] := by
      rw [List.append_assoc, List.append_assoc]
      simpa [marker] using reaches
    obtain ⟨inner, rfl⟩ := List.append_inj' parts rfl |>.imp_right List.singleton_inj.mp
    rw [List.concat_eq_append, List.append_assoc, List.singleton_append] at rest
    rcases more.eq_nil_or_concat with rfl | ⟨more, char, rfl⟩
    · rw [rest] at head
      exact absurd rfl head
    · have point : before ++ ['/'] ++ ['.'] = front ++ more ++ [char] := by
        rw [List.append_assoc, List.append_assoc]
        simpa using inner
      obtain ⟨_, rfl⟩ := List.append_inj' point rfl |>.imp_right List.singleton_inj.mp
      rw [rest, List.concat_eq_append, List.append_assoc, List.singleton_append,
        List.isChain_append_cons_cons] at chain
      exact absurd ⟨rfl, rfl⟩ chain.2.1
  · intro inside
    exact inside.trans (List.prefix_append _ _).isInfix

/-- The name of a snapshot. -/
def snapName (pid : Nat) (rctime : Timespec) : CString :=
  Nat.toDigits 10 pid ++ "snapshot".toList ++ (showInt rctime.tvSec ++ '.' :: showInt rctime.tvNsec)

theorem createSnapPath_eq (basePath : CString) (pid : Nat) (rctime : Timespec) :
    createSnapPath basePath pid rctime =
      fsAppend basePath (".snap".toList ++ '/' :: snapName pid rctime) := by
  have directory : ".snap/".toList = ".snap".toList ++ ['/'] := by decide
  rw [createSnapPath, directory, snapName]
  simp only [List.append_assoc, List.cons_append, List.nil_append]

/-- What `create_snap` appends has no marker, and none together with what is in front. -/
theorem isChain_snapName (pid : Nat) (rctime : Timespec) :
    (".snap".toList ++ '/' :: snapName pid rctime ++ ['/', '.']).IsChain Unmarked := by
  have noSlash : '/' ∉ snapName pid rctime := by
    have digits : '/' ∉ Nat.toDigits 10 pid := fun member =>
      absurd (isDigit_toDigits pid _ member) (by decide)
    have name : '/' ∉ "snapshot".toList := by decide
    simp only [snapName, List.mem_append, List.mem_cons, not_or]
    exact ⟨⟨digits, name⟩, not_mem_showInt _ (by decide) (by decide), by decide,
      not_mem_showInt _ (by decide) (by decide)⟩
  have directory : (".snap".toList ++ '/' :: snapName pid rctime).IsChain Unmarked :=
    isChain_append_slash (isChain_of_noSlash (by decide)) (by decide) (isChain_of_noSlash noSlash)
  apply isChain_append_slash directory
  · intro last
    have split : ".snap".toList ++ '/' :: snapName pid rctime =
        (".snap".toList ++ '/' :: (Nat.toDigits 10 pid ++ "snapshot".toList ++
          (showInt rctime.tvSec ++ ['.']))) ++ showInt rctime.tvNsec := by
      simp [snapName]
    rw [split, List.getLast?_append_of_ne_nil _ (showInt_ne_nil _)] at last
    exact not_mem_showInt _ (by decide) (by decide) (List.mem_of_getLast? last)
  · exact isChain_of_noSlash (by decide)

/-- The marker occurs in front of the place where it was put if and only if it occurs in
the base directory and the separator behind it. -/
theorem marker_infix_iff (basePath : CString) (pid : Nat) (rctime : Timespec) :
    marker <:+: createSnapPath basePath pid rctime ++ marker.dropLast ↔
      marker <:+: basePath ++ ['/'] := by
  have chain := isChain_snapName pid rctime
  have two : marker.dropLast = ['/', '.'] := by decide
  have head : (".snap".toList ++ '/' :: snapName pid rctime ++ ['/', '.']).head? ≠ some '/' := by
    rintro ⟨⟩
  rw [createSnapPath_eq, two]
  by_cases closed : basePath.isEmpty ∨ basePath.getLast? = some '/'
  · rw [fsAppend, if_pos closed, List.append_assoc, marker_infix_append chain head,
      List.infix_concat_iff, or_iff_right_of_imp]
    intro suffixed
    exfalso
    obtain ⟨before, equal⟩ := suffixed
    have parts : before ++ ['/', '.'] ++ ['/'] = basePath ++ ['/'] := by
      rw [← equal]
      simp [marker]
    have point : before ++ ['/', '.'] = basePath := List.append_cancel_right parts
    rw [← point] at closed
    simp at closed
  · have opened : fsAppend basePath (".snap".toList ++ '/' :: snapName pid rctime) =
        basePath ++ ['/'] ++ (".snap".toList ++ '/' :: snapName pid rctime) := by
      rw [fsAppend, if_neg closed, List.append_assoc, List.singleton_append]
    rw [opened, List.append_assoc]
    exact marker_infix_append chain head

end Marker

/-! ## Every file -/

/-- The path of an entry below the root. -/
def Route.relative (route : Route) : CString := (joined route.names).tail

/-- The path of an entry as the search finds it. -/
def Route.found (snapRoot : CString) (route : Route) : CString :=
  route.names.foldl fsAppend snapRoot

/-- How a file of a snapshot is marked: at the root, in an array of just that size, and so
that the cut finds the relative path, by which files can be told apart. -/
structure Marked (listing : Listing) (snapRoot : CString) (route : Route) : Prop where
  found : route.found snapRoot = snapRoot ++ '/' :: route.relative
  path : (route.file snapRoot).path = snapRoot ++ (marker ++ route.relative)
  pathLen : (route.file snapRoot).pathLen = (route.file snapRoot).path.length
  written : ∀ behind, File.initCells (route.found snapRoot ++ '\x00' :: behind) snapRoot.length =
    some (⟨(route.file snapRoot).path ++ ['\x00'], 0⟩, (route.file snapRoot).pathLen)
  size : ((route.file snapRoot).path ++ ['\x00']).length = (route.found snapRoot).length + 3
  remote : remoteName (route.file snapRoot).path = some route.relative
  distinct : ∀ other ∈ listing.routes, other.attributes.stat.isDir = false →
    remoteName (other.file snapRoot).path = remoteName (route.file snapRoot).path → other = route

/-- A directory with one file in it. -/
def markedListing : Listing :=
  .entry "d".toList { stat := ⟨true, 0, ⟨8, 0⟩⟩, rctime := some "8.090".toList }
    (.entry "f".toList { stat := ⟨false, 3, ⟨8, 0⟩⟩, rctime := none } .nil .nil) .nil

/-- The way to the file. -/
def markedRoute : Route where
  above := [("d".toList, { stat := ⟨true, 0, ⟨8, 0⟩⟩, rctime := some "8.090".toList })]
  name := "f".toList
  attributes := { stat := ⟨false, 3, ⟨8, 0⟩⟩, rctime := none }

section Marked

variable {listing : Listing} {route : Route} {snapRoot : CString}

theorem joined_names (route : Route) : joined route.names = '/' :: route.relative := by
  rw [Route.relative]
  obtain ⟨name, names, equal⟩ := List.exists_cons_of_ne_nil
    (show route.names ≠ [] by simp [Route.names])
  rw [equal, joined_cons, List.tail_cons]

/-- The array that `File::init` allocates is filled. -/
theorem path_of_marked (extensible : Extensible snapRoot)
    (valid : ∀ name ∈ route.names, name ≠ [] ∧ '/' ∉ name)
    (regular : route.attributes.stat.isDir = false) :
    route.found snapRoot = snapRoot ++ '/' :: route.relative ∧
      (route.file snapRoot).path = snapRoot ++ (marker ++ route.relative) := by
  constructor
  · rw [Route.found, foldl_fsAppend extensible valid, joined_names]
  · rw [path_file extensible valid regular, joined_names, List.append_assoc]
    rfl

/-- Below an absolute directory paths are absolute. -/
theorem absolute_createSnapPath {basePath : CString} (absolute : basePath.head? = some '/')
    (pid : Nat) (rctime : Timespec) :
    (createSnapPath basePath pid rctime).head? = some '/' := by
  rw [createSnapPath_eq, fsAppend]
  split <;> rw [List.head?_append, absolute, Option.some_or]

theorem absolute_file (extensible : Extensible snapRoot)
    (valid : ∀ name ∈ route.names, name ≠ [] ∧ '/' ∉ name)
    (regular : route.attributes.stat.isDir = false) (absolute : snapRoot.head? = some '/') :
    (route.file snapRoot).path.head? = some '/' := by
  rw [(path_of_marked extensible valid regular).2, List.head?_append, absolute, Option.some_or]

/-- The cut finds the relative path where no marker is in front. -/
theorem remoteName_file_iff (extensible : Extensible snapRoot)
    (valid : ∀ name ∈ route.names, name ≠ [] ∧ '/' ∉ name)
    (regular : route.attributes.stat.isDir = false) :
    remoteName (route.file snapRoot).path = some route.relative ↔
      ¬ marker <:+: snapRoot ++ marker.dropLast := by
  rw [(path_of_marked extensible valid regular).2, remoteName]
  exact cutAt_append_iff (by decide) snapRoot route.relative

/-- Every file of the snapshot is marked so that the cut finds its relative path, exactly
if the base directory and the separator behind it do not contain the marker. -/
theorem marked_iff {basePath : CString} {pid : Nat} {rctime : Timespec} (proper : listing.Proper)
    (member : route ∈ listing.routes) (regular : route.attributes.stat.isDir = false)
    (ended : '\x00' ∉ route.found (createSnapPath basePath pid rctime)) :
    Marked listing (createSnapPath basePath pid rctime) route ↔
      ¬ marker <:+: basePath ++ ['/'] := by
  have extensible := extensible_createSnapPath basePath pid rctime
  have valid := Listing.names_of_routes proper member
  obtain ⟨found, path⟩ := path_of_marked extensible valid regular
  rw [← marker_infix_iff basePath pid rctime, ← remoteName_file_iff extensible valid regular]
  refine ⟨Marked.remote, fun remote => ?_⟩
  have inside : (createSnapPath basePath pid rctime).length ≤
      (route.found (createSnapPath basePath pid rctime)).length := by
    rw [found, List.length_append]
    exact Nat.le_add_right _ _
  refine ⟨found, path, File.init_pathLen regular, File.initCells_eq ended inside regular, ?_,
    remote, ?_⟩
  · have three : marker.length = 3 := by decide
    rw [path, found]
    simp only [List.length_append, List.length_cons, List.length_nil, three]
    omega
  · intro other member' regular' same
    have valid' := Listing.names_of_routes proper member'
    have clear := (remoteName_file_iff extensible valid regular).mp remote
    rw [(remoteName_file_iff extensible valid' regular').mpr clear, remote] at same
    apply Listing.route_ext proper member' member
    apply joined_injective (fun name listed => (valid' name listed).2)
      (fun name listed => (valid name listed).2)
    rw [joined_names, joined_names, Option.some.inj same]

/-- A file two levels below a base directory without the marker. -/
theorem marked_nested :
    Marked markedListing (createSnapPath "/data".toList 42 ⟨7, 0⟩) markedRoute :=
  (marked_iff (by decide) (by decide) (by decide) (by decide +kernel)).mpr (by decide)

/-- The same file below a base directory with the marker: the cut leaves the name of the
snapshot in the relative path. -/
theorem not_marked_baseMarker :
    remoteName (markedRoute.file (createSnapPath "/a/./b".toList 42 ⟨7, 0⟩)).path =
      some "b/.snap/42snapshot7.0/./d/f".toList ∧
    ¬ Marked markedListing (createSnapPath "/a/./b".toList 42 ⟨7, 0⟩) markedRoute := by
  have found : remoteName (markedRoute.file (createSnapPath "/a/./b".toList 42 ⟨7, 0⟩)).path =
      some "b/.snap/42snapshot7.0/./d/f".toList := by decide +kernel
  refine ⟨found, fun marked => ?_⟩
  rw [marked.remote] at found
  exact absurd found (by decide)

/-! ## s3wrap.sh -/

theorem marker_infix_of_noSlash {front back : CString} (noSlash : '/' ∉ front)
    (inside : marker <:+: front ++ back) : marker <:+: back := by
  induction front with
  | nil => exact inside
  | cons char front ih =>
      obtain ⟨differs, later⟩ := List.ne_and_not_mem_of_not_mem_cons noSlash
      rw [List.cons_append, List.infix_cons_iff] at inside
      rcases inside with ⟨rest, equal⟩ | deeper
      · exact absurd (List.cons.inj equal).1 differs
      · exact ih later deeper

/-- The names on the way to a file are no `.`, so there is no marker between them. -/
theorem not_marker_infix_joined {names : List CString}
    (valid : ∀ name ∈ names, '/' ∉ name ∧ name ≠ ['.']) : ¬ marker <:+: joined names := by
  induction names with
  | nil => decide
  | cons name names ih =>
      obtain ⟨noSlash, noPoint⟩ := valid name List.mem_cons_self
      rw [joined_cons, List.infix_cons_iff, not_or]
      constructor
      · rintro ⟨rest, equal⟩
        have tails : '.' :: '/' :: rest = name ++ joined names := (List.cons.inj equal).2
        have stop : joined names = [] ∨ (joined names).head? = some '/' := by
          cases names with
          | nil => exact .inl rfl
          | cons next names => exact .inr rfl
        apply noPoint
        rw [← takeWhile_entry noSlash stop, ← tails]
        rfl
      · intro inside
        exact ih (fun other listed => valid other (List.mem_cons_of_mem _ listed))
          (marker_infix_of_noSlash noSlash inside)

/-- Then the script cuts the relative path out, too. -/
theorem s3wrapRel_of_marked (marked : Marked listing snapRoot route)
    (valid : ∀ name ∈ route.names, '/' ∉ name ∧ name ≠ ['.']) :
    s3wrapRel (route.file snapRoot).path = route.relative := by
  obtain ⟨⟨front, back⟩, cut, rfl⟩ := Option.map_eq_some_iff.mp marked.remote
  have absent : ¬ marker <:+: route.relative := fun inside =>
    not_marker_infix_joined valid (inside.trans (List.tail_suffix _).isInfix)
  rw [s3wrapRel, cut]
  change ((cutAt marker route.relative).map Prod.fst).getD route.relative = route.relative
  rw [cutAt_eq_none_iff.mpr absent]
  rfl

end Marked

end CephGeoRep
