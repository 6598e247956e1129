import CephGeoRep.Crawler.Pruned

/-!
# Which files the search finds

A route is an entry of a tree together with the directories on the way to it. The
search collects exactly the files all of whose route is newer than the watermark and
unfiltered, whatever the times of the directories are. If Ceph has propagated the times,
the directories are newer whenever the file is, and the search finds what a full scan
would.
-/

namespace CephGeoRep

/-- An entry of a tree and the directories above it, from the top. -/
structure Route where
  above : List (CString × Attributes)
  name : CString
  attributes : Attributes
deriving DecidableEq

namespace Route

/-- The route with a directory in front. -/
def behind (name : CString) (attributes : Attributes) (route : Route) : Route :=
  { route with above := (name, attributes) :: route.above }

/-- The names on the way. -/
def names (route : Route) : List CString := route.above.map Prod.fst ++ [route.name]

/-- The `File` the search makes of the entry. -/
def file (snapRoot : CString) (route : Route) : File :=
  Crawler.fileAt snapRoot route.names route.attributes

@[simp]
theorem names_behind (name : CString) (attributes : Attributes) (route : Route) :
    (route.behind name attributes).names = name :: route.names := rfl

@[simp]
theorem attributes_behind (name : CString) (attributes : Attributes) (route : Route) :
    (route.behind name attributes).attributes = route.attributes := rfl

end Route

/-- The routes of a tree, in the order of the search. -/
def Listing.routes : Listing → List Route
  | .nil => []
  | .entry name attributes children rest =>
    ⟨[], name, attributes⟩ ::
      (if attributes.stat.isDir then children.routes.map (Route.behind name attributes)
      else []) ++ rest.routes

namespace Crawler

/-- An entry is newer than the watermark and its name matches no enabled filter. -/
def passes (crawler : Crawler) (step : CString × Attributes) : Bool :=
  (searchRctime step.2).gt crawler.lastRctime && !crawler.filtered step.1

/-- A file all of whose route passes. -/
def wants (crawler : Crawler) (route : Route) : Bool :=
  !route.attributes.stat.isDir && crawler.passes (route.name, route.attributes) &&
    route.above.all crawler.passes

/-- What a full scan looks for: a file newer than the watermark with unfiltered names
on the way to it. -/
def wanted (crawler : Crawler) (entry : List CString × Attributes) : Bool :=
  !entry.2.stat.isDir && entry.2.stat.mtime.gt crawler.lastRctime &&
    entry.1.all fun name => !crawler.filtered name

end Crawler

section Routes

variable {crawler : Crawler} {snapRoot below name : CString} {names : List CString}
  {attributes : Attributes} {children rest listing : Listing} {route other : Route}

theorem Listing.mem_routes_entry :
    route ∈ (Listing.entry name attributes children rest).routes ↔
      route = ⟨[], name, attributes⟩ ∨
      attributes.stat.isDir = true ∧ (∃ deeper ∈ children.routes,
        deeper.behind name attributes = route) ∨
      route ∈ rest.routes := by
  rw [routes, List.mem_append, List.mem_cons, or_assoc]
  apply or_congr_right
  apply or_congr_left
  split
  · next directory => simp [directory]
  · next file => simp [file]

/-- The entries are the ends of the routes. -/
theorem Listing.entries_eq (listing : Listing) :
    listing.entries = listing.routes.map fun route => (route.names, route.attributes) := by
  induction listing with
  | nil => rfl
  | entry name attributes children rest inner next =>
      rw [entries, routes, List.map_append, List.map_cons, next]
      split
      · rw [inner, List.map_map, List.map_map]
        rfl
      · rfl

/-- `ignore_entry` lets exactly the entries through that pass. -/
theorem ignoreEntry_fileOf (extensible : Extensible (snapRoot ++ below)) (noSlash : '/' ∉ name)
    (attributes : Attributes) :
    crawler.ignoreEntry (Crawler.fileOf snapRoot (snapRoot ++ below) name attributes)
      attributes.rctime = !crawler.passes (name, attributes) := by
  have read : isNewer crawler.lastRctime
      (Crawler.fileOf snapRoot (snapRoot ++ below) name attributes) attributes.rctime =
        (searchRctime attributes).gt crawler.lastRctime := by
    rw [isNewer, Crawler.fileOf, getRctimeOfFile_init]
  rw [Crawler.ignoreEntry, read, getFilename_entry extensible noSlash, Crawler.passes]
  cases (searchRctime attributes).gt crawler.lastRctime <;> simp

/-- What is wanted at the top of a tree. -/
theorem wants_top (name : CString) (attributes : Attributes) :
    crawler.wants ⟨[], name, attributes⟩ =
      (!attributes.stat.isDir && crawler.passes (name, attributes)) := by
  rw [Crawler.wants, List.all_nil, Bool.and_true]

/-- What is wanted behind a directory. -/
theorem wants_behind (name : CString) (attributes : Attributes) (route : Route) :
    crawler.wants (route.behind name attributes) =
      (crawler.passes (name, attributes) && crawler.wants route) := by
  simp only [Crawler.wants, Route.behind, List.all_cons]
  ac_rfl

/-- The search collects the files all of whose route passes, in order. -/
theorem newFiles_eq (extensible : Extensible (snapRoot ++ below)) (proper : listing.Proper) :
    listing.newFiles crawler snapRoot (snapRoot ++ below) =
      (listing.routes.filter crawler.wants).map fun route =>
        File.init (route.names.foldl fsAppend (snapRoot ++ below)) snapRoot.length
          route.attributes.stat := by
  induction listing generalizing below with
  | nil => rfl
  | entry name attributes children rest inner next =>
      obtain ⟨nonempty, noSlash, _, inside, others⟩ := proper
      have ignored := @ignoreEntry_fileOf crawler _ _ _ extensible noSlash attributes
      rw [Listing.newFiles, Listing.routes, List.filter_append, List.map_append,
        next extensible others, Crawler.opens, Crawler.queues]
      simp only [ignored, Bool.not_not, Crawler.fileOf_isDirectory, List.filter_cons, wants_top]
      congr 1
      cases directory : attributes.stat.isDir with
      | true =>
          have extended : fsAppend (snapRoot ++ below) name =
              snapRoot ++ (below ++ '/' :: name) := by
            rw [fsAppend_eq extensible, List.append_assoc]
          have deeper := @inner (below ++ '/' :: name)
            (extended ▸ extensible_fsAppend extensible nonempty noSlash) inside
          simp only [Bool.and_true, Bool.not_true, Bool.and_false, Bool.false_eq_true, ↓reduceIte,
            Bool.false_and, List.filter_map, Function.comp_def, wants_behind, List.map_map,
            Route.names_behind, List.foldl_cons, extended, Route.attributes_behind, deeper]
          cases crawler.passes (name, attributes) with
          | true => simp only [↓reduceIte, Bool.true_and]
          | false => simp
      | false =>
          simp only [Bool.and_false, Bool.false_eq_true, ↓reduceIte, Bool.not_false, Bool.and_true,
            Bool.true_and, List.filter_nil]
          cases crawler.passes (name, attributes) with
          | true => rfl
          | false => rfl

/-! ## Routes and paths -/

/-- The names on a route are those of a file system. -/
theorem Listing.names_of_routes (proper : listing.Proper) (member : route ∈ listing.routes) :
    ∀ name ∈ route.names, name ≠ [] ∧ '/' ∉ name := by
  induction listing generalizing route with
  | nil => cases member
  | entry top attributes children rest inner next =>
      obtain ⟨nonempty, noSlash, _, inside, others⟩ := proper
      rcases mem_routes_entry.mp member with rfl | ⟨_, deeper, found, rfl⟩ | behind
      · intro name listed
        rw [List.mem_singleton.mp listed]
        exact ⟨nonempty, noSlash⟩
      · intro name listed
        rcases List.mem_cons.mp listed with rfl | below
        · exact ⟨nonempty, noSlash⟩
        · exact inner inside found name below
      · exact next others behind

/-- A route starts with an entry of the tree's root. -/
theorem Listing.head_of_routes (member : route ∈ listing.routes) :
    ∃ name ∈ listing.names, route.names.head? = some name := by
  induction listing with
  | nil => cases member
  | entry top attributes children rest inner next =>
      rcases mem_routes_entry.mp member with rfl | ⟨_, deeper, _, rfl⟩ | behind
      · exact ⟨top, List.mem_cons_self, rfl⟩
      · exact ⟨top, List.mem_cons_self, rfl⟩
      · obtain ⟨name, listed, head⟩ := next behind
        exact ⟨name, List.mem_cons_of_mem _ listed, head⟩

/-- A route starts at the top of the tree. -/
theorem Listing.top_of_routes (member : route ∈ listing.routes) :
    ∃ top ∈ listing.top, top = route.attributes ∨ ∃ step ∈ route.above, top = step.2 := by
  induction listing with
  | nil => cases member
  | entry name attributes children rest inner next =>
      rcases mem_routes_entry.mp member with rfl | ⟨_, deeper, _, rfl⟩ | behind
      · exact ⟨attributes, List.mem_cons_self, .inl rfl⟩
      · exact ⟨attributes, List.mem_cons_self, .inr ⟨_, List.mem_cons_self, rfl⟩⟩
      · obtain ⟨top, listed, same⟩ := next behind
        exact ⟨top, List.mem_cons_of_mem _ listed, same⟩

/-- No entry has two routes. -/
theorem Listing.nodup_names (proper : listing.Proper) :
    (listing.routes.map Route.names).Nodup := by
  induction listing with
  | nil => exact List.nodup_nil
  | entry top attributes children rest inner next =>
      obtain ⟨_, _, fresh, inside, others⟩ := proper
      rw [routes, List.map_append, List.nodup_append]
      refine ⟨?_, next others, ?_⟩
      · rw [List.map_cons, List.nodup_cons]
        split
        · rw [List.map_map]
          constructor
          · intro member
            obtain ⟨deeper, _, same⟩ := List.mem_map.mp member
            have length := congrArg List.length same
            simp [Route.names, Route.behind] at length
          · have behind : Route.names ∘ Route.behind top attributes =
                List.cons top ∘ Route.names := rfl
            rw [behind, ← List.map_map]
            exact (inner inside).map List.cons_injective
        · exact ⟨List.not_mem_nil, List.nodup_nil⟩
      · intro first here second later same
        subst same
        obtain ⟨behind, listed, rfl⟩ := List.mem_map.mp later
        obtain ⟨name, known, head⟩ := head_of_routes listed
        have starts : behind.names.head? = some top := by
          rcases List.mem_cons.mp here with single | below
          · rw [single]
            rfl
          · split at below
            · obtain ⟨deeper, found, equal⟩ := List.mem_map.mp below
              obtain ⟨_, _, rfl⟩ := List.mem_map.mp found
              rw [← equal]
              rfl
            · cases below
        rw [starts] at head
        exact fresh (Option.some.inj head ▸ known)

/-- An entry is known by the names on the way to it. -/
theorem Listing.route_ext (proper : listing.Proper) (member : route ∈ listing.routes)
    (member' : other ∈ listing.routes) (same : route.names = other.names) : route = other :=
  List.inj_on_of_nodup_map (nodup_names proper) member member' same

/-- The text of a relative path, with a separator before each name. -/
def joined (names : List CString) : CString := names.flatMap (List.cons '/')

theorem joined_cons (name : CString) (names : List CString) :
    joined (name :: names) = '/' :: (name ++ joined names) := rfl

theorem foldl_fsAppend {path : CString} (extensible : Extensible path)
    (valid : ∀ name ∈ names, name ≠ [] ∧ '/' ∉ name) :
    names.foldl fsAppend path = path ++ joined names := by
  induction names generalizing path with
  | nil => simp [joined]
  | cons name names ih =>
      obtain ⟨nonempty, noSlash⟩ := valid name List.mem_cons_self
      rw [List.foldl_cons, ih (extensible_fsAppend extensible nonempty noSlash)
        fun other listed => valid other (List.mem_cons_of_mem _ listed), fsAppend_eq extensible,
        joined_cons, List.append_assoc, List.cons_append]

/-- Names without separators can be read off the path. -/
theorem joined_injective {names' : List CString} (noSlash : ∀ name ∈ names, '/' ∉ name)
    (noSlash' : ∀ name ∈ names', '/' ∉ name) (same : joined names = joined names') :
    names = names' := by
  induction names generalizing names' with
  | nil =>
      cases names' with
      | nil => rfl
      | cons name names' => cases same
  | cons name names ih =>
      cases names' with
      | nil => cases same
      | cons name' names' =>
          rw [joined_cons, joined_cons, List.cons.injEq] at same
          have stops : ∀ names : List CString, joined names = [] ∨
              (joined names).head? = some '/' := by
            intro names
            cases names with
            | nil => exact .inl rfl
            | cons name names => exact .inr rfl
          have heads : name = name' := by
            rw [← takeWhile_entry (noSlash name List.mem_cons_self) (stops names), same.2,
              takeWhile_entry (noSlash' name' List.mem_cons_self) (stops names')]
          subst heads
          rw [ih (fun other listed => noSlash other (List.mem_cons_of_mem _ listed))
            (fun other listed => noSlash' other (List.mem_cons_of_mem _ listed))
            (List.append_cancel_left same.2)]

/-- The path of a collected file: the snapshot root, the marker, and the names. -/
theorem path_file (extensible : Extensible snapRoot)
    (valid : ∀ name ∈ route.names, name ≠ [] ∧ '/' ∉ name)
    (regular : route.attributes.stat.isDir = false) :
    (route.file snapRoot).path = snapRoot ++ ['/', '.'] ++ joined route.names := by
  rw [Route.file, Crawler.fileAt, foldl_fsAppend extensible valid, File.init,
    if_neg (by simp [regular])]
  simp

/-- Two files of a tree with one path are the same entry. -/
theorem Listing.route_of_file (extensible : Extensible snapRoot) (proper : listing.Proper)
    (member : route ∈ listing.routes) (member' : other ∈ listing.routes)
    (regular : route.attributes.stat.isDir = false)
    (regular' : other.attributes.stat.isDir = false)
    (same : (route.file snapRoot).path = (other.file snapRoot).path) : route = other := by
  have valid := names_of_routes proper member
  have valid' := names_of_routes proper member'
  rw [path_file extensible valid regular, path_file extensible valid' regular'] at same
  exact route_ext proper member member' (joined_injective (fun name listed => (valid name listed).2)
    (fun name listed => (valid' name listed).2) (List.append_cancel_left same))

theorem regular_of_wants (wants : crawler.wants route = true) :
    route.attributes.stat.isDir = false := by
  simp only [Crawler.wants, Bool.and_eq_true, Bool.not_eq_true'] at wants
  exact wants.1.1

/-- What is collected are files of the tree all of whose route passes. -/
theorem Listing.route_of_newFiles (extensible : Extensible snapRoot) (proper : listing.Proper)
    {file : File} (member : file ∈ listing.newFiles crawler snapRoot snapRoot) :
    ∃ route ∈ listing.routes, crawler.wants route = true ∧ route.file snapRoot = file := by
  have root : Extensible (snapRoot ++ []) := by rwa [List.append_nil]
  have found := @newFiles_eq crawler _ _ _ root proper
  rw [List.append_nil] at found
  rw [found, List.mem_map] at member
  obtain ⟨route, listed, rfl⟩ := member
  obtain ⟨known, wants⟩ := List.mem_filter.mp listed
  exact ⟨route, known, wants, rfl⟩

/-- A file is collected if all of its route passes, and only then. -/
theorem mem_newFiles_iff (extensible : Extensible snapRoot) (proper : listing.Proper)
    (member : route ∈ listing.routes) (regular : route.attributes.stat.isDir = false) :
    route.file snapRoot ∈ listing.newFiles crawler snapRoot snapRoot ↔
      crawler.wants route = true := by
  constructor
  · intro collected
    obtain ⟨other, known, wants, same⟩ := Listing.route_of_newFiles extensible proper collected
    have paths := congrArg File.path same
    rw [← Listing.route_of_file extensible proper known member (regular_of_wants wants) regular
      paths]
    exact wants
  · intro wants
    have root : Extensible (snapRoot ++ []) := by rwa [List.append_nil]
    have found := @newFiles_eq crawler _ _ _ root proper
    rw [List.append_nil] at found
    rw [found]
    exact List.mem_map_of_mem (List.mem_filter.mpr ⟨member, wants⟩)

/-- A file with an unfiltered route is collected if all of the route is newer. -/
theorem wants_iff (regular : route.attributes.stat.isDir = false)
    (unfiltered : ∀ name ∈ route.names, crawler.filtered name = false) :
    crawler.wants route = true ↔ crawler.lastRctime < route.attributes.stat.mtime ∧
      ∀ step ∈ route.above, crawler.lastRctime < searchRctime step.2 := by
  have last : crawler.filtered route.name = false := unfiltered _ (by simp [Route.names])
  have above : ∀ step ∈ route.above, crawler.filtered step.1 = false := fun step listed =>
    unfiltered _ (List.mem_append_left _ (List.mem_map_of_mem listed))
  simp only [Crawler.wants, Crawler.passes, regular, Bool.not_false, Bool.true_and, last,
    Bool.and_true, searchRctime_file regular, Bool.and_eq_true, List.all_eq_true, Timespec.gt_iff,
    Bool.not_eq_true']
  refine and_congr_right fun _ => forall_congr' fun step => forall_congr' fun listed => ?_
  rw [and_iff_left (above step listed)]

/-! ## The full scan -/

/-- What lies above an entry is a directory. -/
theorem Listing.isDir_of_above {step : CString × Attributes} (member : route ∈ listing.routes)
    (above : step ∈ route.above) : step.2.stat.isDir = true := by
  induction listing generalizing route with
  | nil => cases member
  | entry top attributes children rest inner next =>
      rcases mem_routes_entry.mp member with rfl | ⟨directory, deeper, found, rfl⟩ | behind
      · cases above
      · rcases List.mem_cons.mp above with rfl | further
        · exact directory
        · exact inner found further
      · exact next behind above

/-- What lies above an entry is a directory that contains it. -/
theorem Listing.directory_of_above {step : CString × Attributes}
    (member : route ∈ listing.routes) (above : step ∈ route.above) :
    ∃ children, (step.2, children) ∈ listing.directories ∧
      ∃ names, (names, route.attributes) ∈ children.entries := by
  induction listing generalizing route with
  | nil => cases member
  | entry top attributes children rest inner next =>
      rw [directories]
      rcases mem_routes_entry.mp member with rfl | ⟨directory, deeper, found, rfl⟩ | behind
      · cases above
      · rw [if_pos directory]
        rcases List.mem_cons.mp above with rfl | further
        · refine ⟨children, by simp, deeper.names, ?_⟩
          rw [entries_eq]
          exact List.mem_map_of_mem found
        · obtain ⟨inside, listed, contains⟩ := inner found further
          exact ⟨inside, by simp [listed], contains⟩
      · obtain ⟨inside, listed, contains⟩ := next behind above
        exact ⟨inside, List.mem_append_right _ listed, contains⟩

/-- When the times have trickled up, what lies above a file can be read and is at least
as new. -/
theorem Listing.exists_of_above {read : Attributes → Except NumeralError Timespec}
    {step : CString × Attributes} (trickled : listing.Trickled read)
    (member : route ∈ listing.routes) (above : step ∈ route.above)
    (regular : route.attributes.stat.isDir = false) :
    ∃ rctime, read step.2 = .ok rctime ∧ route.attributes.stat.mtime ≤ rctime := by
  obtain ⟨children, directory, names, contains⟩ := directory_of_above member above
  obtain ⟨rctime, found, covered⟩ := exists_of_noneNewer (trickled _ directory)
  exact ⟨rctime, found, covered _ contains regular⟩

theorem Listing.le_of_above {step : CString × Attributes}
    (trickled : listing.Trickled fun attributes => .ok (searchRctime attributes))
    (member : route ∈ listing.routes) (above : step ∈ route.above)
    (regular : route.attributes.stat.isDir = false) :
    route.attributes.stat.mtime ≤ searchRctime step.2 := by
  obtain ⟨rctime, found, later⟩ := exists_of_above trickled member above regular
  rw [Except.ok.inj found]
  exact later

/-- Whether `check_for_change` sees a newer file: the entry of the base directory at
or above the file is at least as new. -/
theorem Listing.exists_top_of_mem_entries {read : Attributes → Except NumeralError Timespec}
    (trickled : listing.Trickled read)
    (files : ∀ attributes, attributes.stat.isDir = false →
      read attributes = .ok attributes.stat.mtime)
    (member : (names, attributes) ∈ listing.entries) (regular : attributes.stat.isDir = false) :
    ∃ top ∈ listing.top, ∃ rctime, read top = .ok rctime ∧ attributes.stat.mtime ≤ rctime := by
  rw [entries_eq] at member
  obtain ⟨route, listed, same⟩ := List.mem_map.mp member
  obtain ⟨-, rfl⟩ := Prod.mk.inj same
  obtain ⟨top, first, rfl | ⟨step, above, rfl⟩⟩ := top_of_routes listed
  · exact ⟨_, first, _, files _ regular, le_refl _⟩
  · exact ⟨_, first, exists_of_above trickled listed above regular⟩

/-- The files a scan of the whole tree would collect. -/
def Crawler.fullScan (crawler : Crawler) (snapRoot : CString) (listing : Listing) : List File :=
  (listing.entries.filter crawler.wanted).map fun entry =>
    Crawler.fileAt snapRoot entry.1 entry.2

/-- A full scan finds the newer files with unfiltered names on the way to them. -/
theorem mem_fullScan (member : (names, attributes) ∈ listing.entries)
    (regular : attributes.stat.isDir = false) (newer : crawler.lastRctime < attributes.stat.mtime)
    (unfiltered : ∀ name ∈ names, crawler.filtered name = false) :
    Crawler.fileAt snapRoot names attributes ∈ crawler.fullScan snapRoot listing := by
  have wanted : crawler.wanted (names, attributes) = true := by
    simpa [Crawler.wanted, regular, Timespec.gt_iff, newer] using unfiltered
  exact List.mem_map_of_mem (List.mem_filter.mpr ⟨member, wanted⟩)

/-- Where the times have trickled up, the directories decide nothing but their names. -/
theorem wants_eq_wanted
    (trickled : listing.Trickled fun attributes => .ok (searchRctime attributes))
    (member : route ∈ listing.routes) :
    crawler.wants route = crawler.wanted (route.names, route.attributes) := by
  cases directory : route.attributes.stat.isDir with
  | true => simp [Crawler.wants, Crawler.wanted, directory]
  | false =>
      rw [Bool.eq_iff_iff]
      simp only [Crawler.wants, Crawler.wanted, Crawler.passes, directory, Bool.not_false,
        Bool.true_and, searchRctime_file directory, Route.names, List.all_append, List.all_map,
        List.all_cons, List.all_nil, Bool.and_true, Bool.and_eq_true, List.all_eq_true,
        Function.comp_apply, Timespec.gt_iff]
      constructor
      · rintro ⟨⟨newer, unfiltered⟩, above⟩
        exact ⟨newer, fun step listed => (above step listed).2, unfiltered⟩
      · rintro ⟨newer, above, unfiltered⟩
        refine ⟨⟨newer, unfiltered⟩, fun step listed => ⟨?_, above step listed⟩⟩
        exact newer.trans_le (Listing.le_of_above trickled member listed directory)

/-- The pruned search collects what the full scan collects. -/
theorem newFiles_eq_fullScan (extensible : Extensible snapRoot) (proper : listing.Proper)
    (trickled : listing.Trickled fun attributes => .ok (searchRctime attributes)) :
    listing.newFiles crawler snapRoot snapRoot = crawler.fullScan snapRoot listing := by
  have root : Extensible (snapRoot ++ []) := by rwa [List.append_nil]
  have found := @newFiles_eq crawler _ _ _ root proper
  rw [List.append_nil] at found
  have same : listing.routes.filter crawler.wants =
      listing.routes.filter fun route => crawler.wanted (route.names, route.attributes) :=
    List.filter_congr fun route member => wants_eq_wanted trickled member
  rw [found, same, Crawler.fullScan, Listing.entries_eq, List.filter_map, List.map_map]
  rfl

/-- The full scan collects no file twice. -/
theorem nodup_fullScan (extensible : Extensible snapRoot) (proper : listing.Proper) :
    ((crawler.fullScan snapRoot listing).map File.path).Nodup := by
  rw [Crawler.fullScan, Listing.entries_eq, List.filter_map, List.map_map, List.map_map]
  refine List.Nodup.map_on ?_ ((Listing.nodup_names proper).of_map.filter _)
  intro route member other member' same
  obtain ⟨listed, found⟩ := List.mem_filter.mp member
  obtain ⟨listed', found'⟩ := List.mem_filter.mp member'
  have regular : ∀ {route : Route},
      (crawler.wanted ∘ fun route => (route.names, route.attributes)) route = true →
      route.attributes.stat.isDir = false := by
    intro route wanted
    simp only [Function.comp_apply, Crawler.wanted, Bool.and_eq_true, Bool.not_eq_true'] at wanted
    exact wanted.1.1
  exact Listing.route_of_file extensible proper listed listed' (regular found) (regular found') same

/-- Where Ceph has propagated the times to the directories, the single-threaded search
appends what a scan of the whole tree finds, each file once, and adds the sizes. -/
theorem findNewFilesRecursive_of_trickled (extensible : Extensible snapRoot)
    (proper : listing.Proper)
    (trickled : listing.Trickled fun attributes => .ok (searchRctime attributes))
    (fileList : List File) (totalBytes : Nat) :
    crawler.findNewFilesRecursive snapRoot snapRoot listing (fileList, uintmaxT totalBytes) =
      (fileList ++ crawler.fullScan snapRoot listing,
        uintmaxT (totalBytes + totalSize (crawler.fullScan snapRoot listing))) ∧
    ((crawler.fullScan snapRoot listing).map File.path).Nodup := by
  refine ⟨?_, nodup_fullScan extensible proper⟩
  rw [crawler.findNewFilesRecursive_eq, newFiles_eq_fullScan extensible proper trickled]

/-- Both files of a small tree are found. -/
theorem findNewFilesRecursive_smallTree :
    Search.smallCrawler.findNewFilesRecursive "/s".toList "/s".toList Search.smallTree
        ([], uintmaxT 0) =
      ([Crawler.fileAt "/s".toList ["a".toList] { stat := ⟨false, 3, ⟨5, 0⟩⟩, rctime := none },
        Crawler.fileAt "/s".toList ["d".toList, "b".toList]
          { stat := ⟨false, 4, ⟨7, 0⟩⟩, rctime := none }], 7) := by
  have extensible : Extensible "/s".toList := by
    constructor <;> decide
  rw [(findNewFilesRecursive_of_trickled extensible (by decide) (by decide +kernel) [] 0).1]
  decide +kernel

end Routes

end CephGeoRep
