import CephGeoRep.Semantics.Replication
import CephGeoRep.Syncer.Programs
import CephGeoRep.Crawler.Marker
import CephGeoRep.Crawler.Payloads
import CephGeoRep.Crawler.Watermark

/-!
# The replicas

What the sync programs have stored at the destinations, kept by an observer of the daemon.
The sync program is not part of the repository: what it does is a parameter, of which only
what `Site.Transfers` says is assumed, for the command that the site uses. The children that a
process leaves behind are followed until the next process starts.
-/

namespace CephGeoRep

open Semantics

/-! ## Files and their names -/

/-- The file with a name, as a file system finds it. -/
def Listing.fileNamed (listing : Listing) (naming : Route → CString) (text : CString) :
    Option Route :=
  listing.routes.find? fun route =>
    !route.attributes.stat.isDir && decide (naming route = text)

/-- The files of a tree by their relative paths. -/
def Listing.source (listing : Listing) (key : CString) : Option Attributes :=
  (listing.fileNamed Route.relative key).map Route.attributes

/-- The path of a file with the marker. -/
def Route.markedPath (snapRoot : CString) (route : Route) : CString := (route.file snapRoot).path

/-- The relative path of every file can be cut from its path. -/
structure Listing.Named (listing : Listing) (snapRoot : CString) : Prop where
  proper : listing.Proper
  remote : ∀ route ∈ listing.routes, route.attributes.stat.isDir = false →
    remoteName (route.markedPath snapRoot) = some route.relative

section Names

variable {listing : Listing} {snapRoot text : CString} {naming : Route → CString}
  {route other : Route}

theorem Listing.fileNamed_eq_some (found : listing.fileNamed naming text = some route) :
    route ∈ listing.routes ∧ route.attributes.stat.isDir = false ∧ naming route = text := by
  have passes := List.find?_some found
  simp only [Bool.and_eq_true, Bool.not_eq_true', decide_eq_true_eq] at passes
  exact ⟨List.mem_of_find?_eq_some found, passes⟩

/-- A file with a name of its own is found by it. -/
theorem Listing.fileNamed_eq (member : route ∈ listing.routes)
    (regular : route.attributes.stat.isDir = false)
    (unique : ∀ other ∈ listing.routes, other.attributes.stat.isDir = false →
      naming other = naming route → other = route) :
    listing.fileNamed naming (naming route) = some route := by
  cases found : listing.fileNamed naming (naming route) with
  | none => simpa [regular] using List.find?_eq_none.mp found route member
  | some other =>
      obtain ⟨member', regular', same⟩ := fileNamed_eq_some found
      rw [unique other member' regular' same]

/-- A relative path is made of the names on the way. -/
theorem splitOn_joined {name : CString} {names : List CString}
    (noSlash : ∀ each ∈ name :: names, '/' ∉ each) :
    (joined (name :: names)).tail.splitOn '/' = name :: names := by
  induction names generalizing name with
  | nil =>
      have alone : (joined [name]).tail = name := by simp [joined]
      rw [alone]
      refine List.splitOnP_eq_singleton fun char member => ?_
      have differs : char ≠ '/' := fun same => noSlash name List.mem_cons_self (same ▸ member)
      simpa using differs
  | cons next names ih =>
      have parts : (joined (name :: next :: names)).tail =
          name ++ '/' :: (joined (next :: names)).tail := by
        simp [joined]
      rw [parts, List.splitOn, List.splitOnP_append_cons_of_forall_mem _ _ (by simp)]
      · exact congrArg (name :: ·) (ih fun each member => noSlash each (.tail _ member))
      · intro char member
        have differs : char ≠ '/' := fun same => noSlash name List.mem_cons_self (same ▸ member)
        simpa using differs

theorem Listing.splitOn_relative (proper : listing.Proper) (member : route ∈ listing.routes) :
    route.relative.splitOn '/' = route.names := by
  have valid := names_of_routes proper member
  obtain ⟨name, names, equal⟩ := List.exists_cons_of_ne_nil
    (show route.names ≠ [] by simp [Route.names])
  rw [Route.relative, equal]
  exact splitOn_joined fun each listed => (valid each (equal ▸ listed)).2

/-- No two entries have the same relative path. -/
theorem Listing.route_of_relative (proper : listing.Proper) (member : route ∈ listing.routes)
    (member' : other ∈ listing.routes) (same : route.relative = other.relative) :
    route = other := by
  apply route_ext proper member member'
  rw [← splitOn_relative proper member, same, splitOn_relative proper member']

theorem Listing.source_relative (proper : listing.Proper) (member : route ∈ listing.routes)
    (regular : route.attributes.stat.isDir = false) :
    listing.source route.relative = some route.attributes := by
  have unique : ∀ other ∈ listing.routes, other.attributes.stat.isDir = false →
      other.relative = route.relative → other = route :=
    fun other member' _ same => route_of_relative proper member' member same
  rw [source, fileNamed_eq member regular unique, Option.map_some]

theorem Listing.route_of_source {key : CString} {attributes : Attributes}
    (found : listing.source key = some attributes) :
    ∃ route ∈ listing.routes, route.attributes.stat.isDir = false ∧ route.relative = key ∧
      route.attributes = attributes := by
  obtain ⟨route, here, same⟩ := Option.map_eq_some_iff.mp found
  obtain ⟨member, regular, named⟩ := fileNamed_eq_some here
  exact ⟨route, member, regular, named, same⟩

theorem Listing.named_nil (snapRoot : CString) : Listing.nil.Named snapRoot :=
  ⟨trivial, List.forall_mem_nil _⟩

/-- Below a base directory without the marker. -/
theorem Listing.named_createSnapPath {basePath : CString} (proper : listing.Proper)
    (unmarked : ¬ marker <:+: basePath ++ ['/']) (pid : Nat) (rctime : Timespec) :
    listing.Named (createSnapPath basePath pid rctime) where
  proper := proper
  remote _ member regular :=
    (remoteName_file_iff (extensible_createSnapPath basePath pid rctime)
      (names_of_routes proper member) regular).mpr
        (by rwa [marker_infix_iff basePath pid rctime])

theorem Listing.Named.fileNamed (named : listing.Named snapRoot) (member : route ∈ listing.routes)
    (regular : route.attributes.stat.isDir = false) :
    listing.fileNamed (Route.markedPath snapRoot) (route.markedPath snapRoot) = some route := by
  refine fileNamed_eq member regular fun other member' regular' same => ?_
  apply route_of_relative named.proper member' member
  have remote := named.remote other member' regular'
  rw [same, named.remote route member regular] at remote
  exact (Option.some.inj remote).symm

end Names

/-! ## What a program stores -/

/-- What is stored at a destination under a name, the temporary files of the programs
aside. -/
abbrev Replicas := CString → CString → Option Attributes

/-- A snapshot as a sync program finds it. -/
structure Tree where
  root : CString
  listing : Listing

namespace Tree

/-- The path of a file of the tree. -/
def IsFile (tree : Tree) (path : CString) : Prop :=
  ∃ route ∈ tree.listing.routes, route.attributes.stat.isDir = false ∧
    route.markedPath tree.root = path

/-- Files of the tree have been stored, each under what is behind the first marker of its
path. -/
inductive Stores (tree : Tree) : Replicas → Replicas → Prop where
  | refl (replica : Replicas) : Stores tree replica replica
  | file {before after : Replicas} {route : Route} {key : CString}
      (prior : Stores tree before after) (member : route ∈ tree.listing.routes)
      (regular : route.attributes.stat.isDir = false)
      (behind : remoteName (route.markedPath tree.root) = some key) (place : CString) :
      Stores tree before (Replication.put after place key route.attributes)

/-- The files with these paths are stored at the destination, each under what is behind the
first marker of its path. -/
def Stored (tree : Tree) (paths : List CString) (destination : CString) (replica : Replicas) :
    Prop :=
  ∀ route ∈ tree.listing.routes, route.attributes.stat.isDir = false →
    route.markedPath tree.root ∈ paths → ∀ key,
      remoteName (route.markedPath tree.root) = some key →
        replica destination key = some route.attributes

variable {tree : Tree} {before after : Replicas} {route : Route}

/-- What is stored of the tree stays as it is. -/
theorem Stores.keeps (stores : tree.Stores before after) (named : tree.listing.Named tree.root)
    (member : route ∈ tree.listing.routes) {place : CString}
    (stored : before place route.relative = some route.attributes) :
    after place route.relative = some route.attributes := by
  induction stores with
  | refl => exact stored
  | @file after other key _ member' regular behind place' ih =>
      have relative : key = other.relative :=
        Option.some.inj (behind.symm.trans (named.remote other member' regular))
      rw [Replication.put]
      split
      · next both =>
        rw [Listing.route_of_relative named.proper member' member (relative ▸ both.2.symm)]
      · exact ih

/-- What is stored of the tree stays so. -/
theorem Stored.keeps {paths : List CString} {destination : CString}
    (stored : tree.Stored paths destination before) (named : tree.listing.Named tree.root)
    (stores : tree.Stores before after) : tree.Stored paths destination after := by
  intro route member regular listed key behind
  obtain rfl : route.relative = key :=
    Option.some.inj ((named.remote route member regular).symm.trans behind)
  exact stores.keeps named member (stored route member regular listed _ behind)

/-- A tree below an absolute directory, with one marker in front of the names of its
files. -/
structure Sound (tree : Tree) : Prop where
  extensible : Extensible tree.root
  absolute : tree.root.head? = some '/'
  named : tree.listing.Named tree.root

end Tree

/-! ## The observer -/

/-- The programs of the children with the replicas, and the timestamp the file held at
first. -/
structure Copies (Local : Type) where
  programs : Family Local Replicas
  floor : Timespec

/-- What is stored now. -/
def Copies.replica {Local : Type} (copies : Copies Local) : Replicas := copies.programs.world

/-- The snapshot that the children of the daemon read. -/
def Daemon.tree (daemon : Daemon) : Tree := ⟨daemon.snapPath, daemon.snapshot⟩

/-- The watermark the daemon has or would start with. It counts as moved when both
members of `last_rctime_` have been assigned. -/
def Daemon.mark (daemon : Daemon) : Timespec :=
  match daemon.control with
  | .stopped => (timestamp daemon.disk).toOption.getD .zero
  | .updateNsec _ _ => daemon.startRctime
  | _ => daemon.crawler.lastRctime

/-- Between the two assignments of `update`. -/
def PollControl.between : PollControl → Bool
  | .updateNsec _ _ => true
  | _ => false

/-- Follows the programs. -/
def copyObserver {Local Event : Type} (program : Tree → Program Arg Local Replicas Event) :
    Observer Daemon PollChoice (Copies Local) (ProgramEvent Event) where
  start daemon := ⟨.empty fun _ _ => none, daemon.mark⟩
  note daemon choice _ copies :=
    match choice with
    | .syncer call =>
      { copies with
        programs := daemon.round.execute (program daemon.tree) call copies.programs }
    | _ => copies
  see daemon event copies :=
    (daemon.round.advance (program daemon.tree) event copies.programs).map fun programs =>
      { copies with programs := programs }

/-- What stays when the daemon is restarted: the filters, the command, and where it sends
to. -/
structure Site where
  ignoreHidden : Bool
  ignoreWinLock : Bool
  ignoreVimSwap : Bool
  execBin : CString
  flags : List CString
  destinations : List CString
  addressed : [] ∉ destinations

namespace Site

/-- The command of the site, for files with these paths. -/
def argv (site : Site) (paths : List CString) (destination : CString) : List Arg :=
  some site.execBin :: site.flags.map some ++ paths.map some ++ [some destination, none]

/-- The command of the site transfers: called with files of such a tree, it stores nothing
but files of the tree, and has stored its own ones at its destination when it exits with
code 0. Others may do the same meanwhile. -/
def Transfers {Local Event : Type} (site : Site)
    (program : Tree → Program Arg Local Replicas Event) : Prop :=
  ∀ (tree : Tree) (paths : List CString), ∀ destination ∈ site.destinations, tree.Sound →
    (∀ path ∈ paths, tree.IsFile path) →
    (program tree).Meets (site.argv paths destination) tree.Stores tree.Stores
      (tree.Stored paths destination)

/-- The filters applied to a name. -/
def filtered (site : Site) (name : CString) : Bool :=
  (site.ignoreHidden && checkHidden name) || (site.ignoreWinLock && checkWinLock name) ||
    (site.ignoreVimSwap && checkVimSwap name)

/-- A configuration with the filters of the site, and an absolute base directory without
the marker. -/
def Serves (site : Site) (config : Config) : Prop :=
  (config.ignoreHidden = site.ignoreHidden ∧ config.ignoreWinLock = site.ignoreWinLock ∧
    config.ignoreVimSwap = site.ignoreVimSwap) ∧
    config.basePath.head? = some '/' ∧ ¬ marker <:+: config.basePath ++ ['/']

/-- A syncer with the command of the site and destinations among those of the site. -/
def Equips (site : Site) (syncer : Syncer) : Prop :=
  syncer.execBin = site.execBin ∧ syncer.garbage = site.flags ∧
    ∀ name ∈ syncer.destinations.names, name ∈ site.destinations

/-- A file that no filter excludes. -/
def Wants (site : Site) (route : Route) : Prop :=
  route.attributes.stat.isDir = false ∧ ∀ name ∈ route.names, site.filtered name = false

section Rules

variable {Local Event : Type} (site : Site) (tokenize : CString → CString → List CString)
  (program : Tree → Program Arg Local Replicas Event) (both : Observed Daemon (Copies Local))

/-- Files that are not newer than the watermark are as they were in the snapshot before. -/
def Settled (snapshot : Listing) : Prop :=
  ∀ route ∈ snapshot.routes, site.Wants route →
    both.record.floor < route.attributes.stat.mtime →
    route.attributes.stat.mtime ≤ both.state.mark →
    both.state.snapshot.source route.relative = some route.attributes

/-- Every process uses the filters, the command and destinations of the site, the programs
exit as they may, and no signal falls between the assignments of `update`. -/
def keeps : PollChoice → Prop
  | .start _ config _ argMax envpSize =>
    site.Serves config ∧ site.Equips (Syncer.new tokenize argMax envpSize config)
  | .create snapshot => site.Settled both snapshot
  | .syncer call => State.exitsAs (program both.state.tree) both.record.programs call
  | .signal => both.state.control.between = false
  | _ => True

/-- The runs that replicate: Ceph has propagated the times, the children are not disturbed,
and the site is kept. -/
def replicating : PollChoice ⊕ ProgramEvent Event → Prop
  | .inl choice => trickledUp both.state choice ∧ inRounds undisturbed both.state choice ∧
      site.keeps tokenize program both choice
  | .inr _ => True

/-- The file is at one of the destinations. -/
def Holds (route : Route) : Prop :=
  ∃ destination ∈ site.destinations,
    both.record.replica destination route.relative = some route.attributes

instance (config : Config) : Decidable (site.Serves config) :=
  inferInstanceAs (Decidable ((_ ∧ _ ∧ _) ∧ _ ∧ _))

instance (syncer : Syncer) : Decidable (site.Equips syncer) :=
  inferInstanceAs (Decidable (_ ∧ _ ∧ _))

instance (route : Route) : Decidable (site.Wants route) :=
  inferInstanceAs (Decidable (_ ∧ _))

instance (snapshot : Listing) : Decidable (site.Settled both snapshot) :=
  inferInstanceAs (Decidable (∀ route ∈ snapshot.routes, _))

instance : ∀ choice, Decidable (site.keeps tokenize program both choice)
  | .start _ config _ argMax envpSize => inferInstanceAs (Decidable (site.Serves config ∧
      site.Equips (Syncer.new tokenize argMax envpSize config)))
  | .create snapshot => inferInstanceAs (Decidable (site.Settled both snapshot))
  | .syncer call => inferInstanceAs (Decidable
      (State.exitsAs (program both.state.tree) both.record.programs call))
  | .signal => inferInstanceAs (Decidable (both.state.control.between = false))
  | .assign | .check _ | .createFails | .search _ | .searchFails | .launch _
  | .deleteSnap _ | .flush _ | .rest | .close | .kill => .isTrue trivial

instance : ∀ choice, Decidable (site.replicating tokenize program both choice)
  | .inl choice => inferInstanceAs (Decidable (trickledUp both.state choice ∧
      inRounds undisturbed both.state choice ∧ site.keeps tokenize program both choice))
  | .inr _ => .isTrue trivial

end Rules

variable {site : Site} {config : Config}

theorem Serves.filtered (serves : site.Serves config) (lastRctime : Timespec) (name : CString) :
    (⟨config, lastRctime⟩ : Crawler).filtered name = site.filtered name := by
  obtain ⟨⟨hidden, winLock, vimSwap⟩, _⟩ := serves
  rw [Crawler.filtered, Site.filtered, hidden, winLock, vimSwap]

end Site

/-! ## A program that transfers -/

/-- How far a simple `rsync` is. -/
structure SimpleRsync where
  relative : Bool
  destination : CString
  ahead : List CString
  failed : Bool
deriving DecidableEq

/-- The name of a file at the destination: with `--relative` what is behind the first
marker, and without it the last name of the path. -/
def SimpleRsync.key (here : SimpleRsync) (path : CString) : CString :=
  if here.relative then (remoteName path).getD path
  else ((path.splitOn '/').getLast?).getD path

/-- `rsync [OPTION]... FILE... DESTINATION`, one file at a time; an event tells whether it
can be sent. -/
def simpleRsync (tree : Tree) : Program Arg SimpleRsync Replicas Bool where
  start argv :=
    let names := (operands argv).filter fun arg => arg.head? ≠ some '-'
    { relative := (operands argv).contains "--relative".toList
      destination := names.getLast?.getD []
      ahead := names.dropLast
      failed := false }
  step here replica sent :=
    match here.ahead with
    | [] => none
    | path :: ahead =>
      match if sent then tree.listing.fileNamed (Route.markedPath tree.root) path else none with
      | some route => some ({ here with ahead := ahead },
          Replication.put replica here.destination (here.key path) route.attributes)
      | none => some ({ here with ahead := ahead, failed := true }, replica)
  exits here code := here.ahead.isEmpty && code == if here.failed then 23 else 0

/-- A site without filters and with one destination, to which it sends with
`rsync -a --relative`. -/
def plainSite : Site where
  ignoreHidden := false
  ignoreWinLock := false
  ignoreVimSwap := false
  execBin := "rsync".toList
  flags := ["-a".toList, "--relative".toList]
  destinations := ["a:b".toList]
  addressed := by decide

/-- How far the program is with the command of the site. -/
structure SimpleRsync.Runs (tree : Tree) (paths : List CString) (here : SimpleRsync)
    (replica : Replicas) : Prop where
  relative : here.relative = true
  destination : here.destination = "a:b".toList
  progress : ∃ past, paths = past ++ here.ahead ∧
    (here.failed = false → tree.Stored past "a:b".toList replica)

section Simple

variable {tree : Tree} {paths : List CString} {here there : SimpleRsync}
  {replica after : Replicas}

theorem SimpleRsync.runs_start (sound : tree.Sound) (files : ∀ path ∈ paths, tree.IsFile path)
    (replica : Replicas) :
    ((simpleRsync tree).start (plainSite.argv paths "a:b".toList)).Runs tree paths replica := by
  have args : operands (plainSite.argv paths "a:b".toList) =
      ["-a".toList, "--relative".toList] ++ (paths ++ ["a:b".toList]) := by
    have command : plainSite.argv paths "a:b".toList = some "rsync".toList ::
        (["-a".toList, "--relative".toList] ++ (paths ++ ["a:b".toList])).map some ++ [none] := by
      simp [Site.argv, plainSite]
    rw [command, operands_map]
  have kept : paths.filter (fun arg => arg.head? ≠ some '-') = paths := by
    rw [List.filter_eq_self]
    intro path listed
    obtain ⟨route, member, regular, rfl⟩ := files path listed
    have absolute := absolute_file sound.extensible
      (Listing.names_of_routes sound.named.proper member) regular sound.absolute
    rw [Route.markedPath, absolute]
    decide
  have names : (operands (plainSite.argv paths "a:b".toList)).filter
      (fun arg => arg.head? ≠ some '-') = paths ++ ["a:b".toList] := by
    rw [args, List.filter_append, List.filter_append, kept]
    rfl
  constructor
  · show (operands (plainSite.argv paths "a:b".toList)).contains "--relative".toList = true
    rw [args, List.contains_iff_mem]
    exact List.mem_append_left _ (by decide)
  · show (List.filter _ (operands (plainSite.argv paths "a:b".toList))).getLast?.getD [] = _
    rw [names, List.getLast?_concat, Option.getD_some]
  · refine ⟨[], ?_, fun _ route _ _ listed => by cases listed⟩
    show paths = [] ++ (List.filter _ (operands (plainSite.argv paths "a:b".toList))).dropLast
    rw [names, List.dropLast_concat, List.nil_append]

/-- A step stores the next file, or fails. -/
theorem SimpleRsync.Runs.step (runs : here.Runs tree paths replica) (sound : tree.Sound)
    {sent : Bool} (taken : (simpleRsync tree).step here replica sent = some (there, after)) :
    there.Runs tree paths after ∧ tree.Stores replica after := by
  obtain ⟨relative, destination, past, whole, stored⟩ := runs
  simp only [simpleRsync] at taken
  split at taken
  · cases taken
  · next path ahead files =>
    have further : paths = (past ++ [path]) ++ ahead := by rw [whole, files]; simp
    split at taken
    · next route found =>
      cases taken
      obtain ⟨_, found⟩ := Option.ite_none_right_eq_some.mp found
      obtain ⟨member, regular, rfl⟩ := Listing.fileNamed_eq_some found
      have behind := sound.named.remote route member regular
      have key : here.key (route.markedPath tree.root) = route.relative := by
        rw [SimpleRsync.key, relative, if_pos rfl, behind, Option.getD_some]
      rw [key, destination]
      have stores : tree.Stores replica
          (Replication.put replica "a:b".toList route.relative route.attributes) :=
        .file (.refl _) member regular behind _
      refine ⟨⟨relative, rfl, _, further, fun well => ?_⟩, stores⟩
      intro other member' regular' listed key' behind'
      rcases List.mem_append.mp listed with before | last
      · exact (stored well).keeps sound.named stores other member' regular' before key' behind'
      · have remote := sound.named.remote other member' regular'
        rw [List.mem_singleton.mp last, behind] at remote
        obtain rfl := Listing.route_of_relative sound.named.proper member member'
          (Option.some.inj remote)
        obtain rfl : route.relative = key' := Option.some.inj (behind.symm.trans behind')
        rw [Replication.put, if_pos ⟨rfl, rfl⟩]
    · cases taken
      exact ⟨⟨relative, destination, _, further, fun failed => by cases failed⟩, .refl _⟩

/-- With the command of the site the simple `rsync` transfers. -/
theorem transfers_simpleRsync : plainSite.Transfers simpleRsync := by
  intro tree paths destination known sound files
  obtain rfl : destination = "a:b".toList := List.mem_singleton.mp known
  apply Program.Meets.of_invariant fun here replica => here.Runs tree paths replica
  · exact SimpleRsync.runs_start sound files
  · exact fun here replica sent there after runs taken => runs.step sound taken
  · rintro here replica after ⟨relative, destination, past, whole, stored⟩ stores
    exact ⟨relative, destination, past, whole, fun well => (stored well).keeps sound.named stores⟩
  · rintro here replica code ⟨_, _, past, whole, stored⟩ exits zero
    obtain ⟨none, ends⟩ := Bool.and_eq_true _ _ ▸ exits
    have ended : code = if here.failed then 23 else 0 := eq_of_beq ends
    cases failed : here.failed with
    | true =>
        rw [failed] at ended
        simp [ended] at zero
    | false =>
        rw [List.isEmpty_iff.mp none, List.append_nil] at whole
        exact whole ▸ stored failed

end Simple

end CephGeoRep
