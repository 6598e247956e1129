import CephGeoRep.Semantics.Refinement
import CephGeoRep.Crawler.Replica

/-!
# The daemon replicates

If the command of the site transfers, the daemon and its sync programs behave like
replication by a watermark over any number of runs: a snapshot is a new look at the source,
a sync program copies, the watermark moves behind a complete copy, and the end of a process
loses what was not written. So the destinations have everything that is not newer than the
watermark.
-/

namespace CephGeoRep

open Semantics

/-- The destinations are the places, relative paths the keys and the attributes of a file
its version. -/
def Site.policy (site : Site) : Policy CString CString Attributes Timespec where
  wanted key _ := ∀ name ∈ key.splitOn '/', site.filtered name = false
  places := { destination | destination ∈ site.destinations }
  stamp attributes := attributes.stat.mtime

/-- What the daemon and its observer are in terms of replication. -/
def replicationState {Local : Type} (both : Observed Daemon (Copies Local)) :
    Replication.State CString CString Attributes Timespec where
  source := both.state.snapshot.source
  replica := both.record.replica
  floor := both.record.floor
  mark := both.state.mark

/-- From `create_snap` to the return of `Syncer::sync`. -/
@[simp]
def PollControl.undelivered : PollControl → Bool
  | .creating | .searching | .launching | .syncing => true
  | _ => false

namespace Site

/-- What the command of the site leaves behind when it exits with code 0. -/
def Delivers (site : Site) (tree : Tree) (argv : List Arg) (replica : Replicas) : Prop :=
  ∀ paths, ∀ destination ∈ site.destinations, argv = site.argv paths destination →
    tree.Stored paths destination replica

/-- What has been stored at each point of an iteration. -/
structure Replicating {Local Event : Type} (site : Site)
    (program : Tree → Program Arg Local Replicas Event) (both : Observed Daemon (Copies Local)) :
    Prop where
  serves : both.state.control ≠ .stopped → site.Serves both.state.crawler.config
  equips : both.state.control ≠ .stopped → site.Equips both.state.round.syncer
  named : both.state.snapshot.Named both.state.snapPath
  absolute : both.state.snapPath = [] ∨ both.state.snapPath.head? = some '/'
  performing : both.state.round.Performing (program both.state.tree) both.state.tree.Stores
    (site.Delivers both.state.tree) both.record.programs
  queued : both.state.control = .syncing → both.state.round.queue.Perm both.state.fileList
  performed : both.state.control = .syncing →
    both.state.round.Performed (site.Delivers both.state.tree) both.record.replica
  early : both.state.control.undelivered = true → both.state.delivered = none
  landed : ∀ fileList, both.state.delivered = some fileList →
    ∀ route ∈ both.state.snapshot.routes, route.attributes.stat.isDir = false →
      route.file both.state.snapPath ∈ fileList → site.Holds both route
  behind : both.state.control ≠ .stopped → both.state.startRctime ≤ both.state.mark

variable {Local Event : Type} {program : Tree → Program Arg Local Replicas Event}
  {tokenize : CString → CString → List CString} {capacity : Nat} {site : Site}
  {both : Observed Daemon (Copies Local)} {next : Daemon} {choice : PollChoice} {route : Route}
  {tree : Tree}

/-! ## What a step stores -/

/-- The steps of the daemon store nothing themselves. -/
theorem note_replica (both : Observed Daemon (Copies Local)) (choice : PollChoice)
    (next : Daemon) : ((copyObserver program).note both.state choice next both.record).replica =
      both.record.replica := by
  cases choice with
  | syncer call => exact State.execute_world ..
  | _ => rfl

theorem note_floor (both : Observed Daemon (Copies Local)) (choice : PollChoice)
    (next : Daemon) : ((copyObserver program).note both.state choice next both.record).floor =
      both.record.floor := by
  cases choice <;> rfl

theorem holds_note (both : Observed Daemon (Copies Local)) (choice : PollChoice)
    (next : Daemon) (route : Route) :
    site.Holds ⟨next, (copyObserver program).note both.state choice next both.record⟩ route ↔
      site.Holds both route := by
  rw [Holds, Holds, note_replica]

/-- The arguments of a command tell its files and its destination. -/
theorem argv_injective {paths paths' : List CString} {destination destination' : CString}
    (same : site.argv paths destination = site.argv paths' destination') :
    paths = paths' ∧ destination = destination' := by
  rw [argv, argv, List.append_assoc, List.append_assoc] at same
  obtain ⟨files, rest⟩ := List.append_inj' (List.append_cancel_left same) rfl
  refine ⟨List.map_injective_iff.mpr (Option.some_injective _) files, ?_⟩
  simpa using rest

theorem commandLine_eq {state : State} {batch : List Nat} {destination : CString}
    (equips : site.Equips state.syncer)
    (inside : ∀ position ∈ batch, position < state.queue.length)
    (known : destination ∈ site.destinations) : state.commandLine batch destination =
      site.argv (batch.filterMap (pathAt state.queue)) destination := by
  have nonempty : destination.isEmpty = false := by
    rw [List.isEmpty_eq_false_iff]
    rintro rfl
    exact site.addressed known
  rw [State.commandLine, argv, State.map_pathAt inside, equips.1, equips.2.1, nonempty]
  rfl

theorem command_of_equips {state : State} {child : Child} (equips : site.Equips state.syncer)
    (addressed : state.Addressed) (destined : state.Destined) (member : child ∈ state.children) :
    child.destination ∈ site.destinations ∧ child.argv =
      site.argv (child.batch.filterMap (pathAt state.queue)) child.destination := by
  have known := equips.2.2 _ (destined child member)
  refine ⟨known, ?_⟩
  rw [addressed.commandLine member,
    commandLine_eq equips (addressed.children child member).inside known]

theorem Delivers.keeps {argv : List Arg} {before after : Replicas}
    (delivers : site.Delivers tree argv before) (named : tree.listing.Named tree.root)
    (stores : tree.Stores before after) : site.Delivers tree argv after :=
  fun paths destination known same => (delivers paths destination known same).keeps named stores

/-- What is held stays held as more of the snapshot is stored. -/
theorem Holds.keeps (held : site.Holds both route)
    (named : both.state.snapshot.Named both.state.snapPath)
    (member : route ∈ both.state.snapshot.routes) {copies : Copies Local}
    (stores : both.state.tree.Stores both.record.replica copies.replica) :
    site.Holds { both with record := copies } route := by
  obtain ⟨place, known, stored⟩ := held
  exact ⟨place, known, stores.keeps named member stored⟩

/-- The children run the command of the site on files of the snapshot. -/
theorem meets_of_equips (transfers : site.Transfers program) {state : State} {child : Child}
    (equips : site.Equips state.syncer) (addressed : state.Addressed) (destined : state.Destined)
    (sound : tree.Sound) (files : ∀ file ∈ state.queue, tree.IsFile file.path)
    (member : child ∈ state.children) :
    (program tree).Meets child.argv tree.Stores tree.Stores (site.Delivers tree child.argv) := by
  obtain ⟨known, command⟩ := command_of_equips equips addressed destined member
  have meets := transfers tree (child.batch.filterMap (pathAt state.queue)) child.destination
    known sound fun path listed => by
      obtain ⟨position, _, isPath⟩ := List.mem_filterMap.mp listed
      obtain ⟨file, here, rfl⟩ := Option.map_eq_some_iff.mp isPath
      exact files file (List.mem_of_getElem? here)
  rw [← command] at meets
  refine ⟨meets.keeps, fun here replica code runs exits zero paths destination _ same => ?_⟩
  obtain ⟨rfl, rfl⟩ := argv_injective (command.symm.trans same)
  exact meets.ends _ _ _ runs exits zero

/-! ## The watermark -/

theorem mark_of_running (up : next.control ≠ .stopped) (whole : next.control.between = false) :
    next.mark = next.crawler.lastRctime := by
  unfold Daemon.mark
  split
  · next stopped => exact absurd stopped up
  · next between =>
    rw [between] at whole
    cases whole
  · rfl

theorem mark_of_stopped (stopped : next.control = .stopped) {bound : Timespec}
    (stored : next.Stored bound) : next.mark ≤ bound := by
  obtain ⟨read, found, below⟩ := stored
  rw [Daemon.mark, stopped]
  simp only [timestamp_of_read found, Except.toOption, Option.getD_some]
  exact below

/-- The file holds nothing later than the watermark. -/
theorem stored_mark (holds : next.Watermark) (up : next.control ≠ .stopped) :
    next.Stored next.mark := by
  have running := holds.running up
  unfold Daemon.mark
  split
  · next stopped => exact absurd stopped up
  · next between =>
    have stage := running.stage
    rw [between] at stage
    exact stage.2.2.2.2.1
  · exact running.stored

/-! ## The invariant -/

/-- The rounds of the daemon are undisturbed. -/
theorem inStep_of_replicating
    (reachable : ((copyObserver program).watch (pollMachine tokenize capacity)).Reachable
      (site.replicating tokenize program) both) : both.state.InStep undisturbed capacity :=
  Daemon.inStep_invariant.of_reachable
    (Observer.reachable reachable fun _ _ allowed => allowed.2.1)

theorem watermark_of_replicating
    (reachable : ((copyObserver program).watch (pollMachine tokenize capacity)).Reachable
      (site.replicating tokenize program) both) : both.state.Watermark :=
  Daemon.watermark_invariant.of_reachable
    (Observer.reachable reachable fun _ _ allowed => allowed.1)

/-- What the daemon reads of an iteration is left alone. -/
structure Same (daemon next : Daemon) : Prop where
  config : next.crawler.config = daemon.crawler.config
  syncer : next.round.syncer = daemon.round.syncer
  children : next.round.children = daemon.round.children
  snapshot : next.snapshot = daemon.snapshot
  snapPath : next.snapPath = daemon.snapPath
  delivered : next.delivered = daemon.delivered

theorem Same.tree_eq {daemon : Daemon} (same : Same daemon next) : next.tree = daemon.tree := by
  rw [Daemon.tree, Daemon.tree, same.snapshot, same.snapPath]

/-- A step outside of `Syncer::sync` to a later point of the iteration. -/
theorem Replicating.keep (holds : site.Replicating program both) (same : Same both.state next)
    (up : next.control ≠ .stopped → both.state.control ≠ .stopped)
    (elsewhere : next.control ≠ .syncing)
    (early : next.control.undelivered = true → both.state.control.undelivered = true)
    (behind : next.control ≠ .stopped → next.startRctime ≤ next.mark) :
    site.Replicating program ⟨next, both.record⟩ where
  serves running := by
    show site.Serves next.crawler.config
    rw [same.config]
    exact holds.serves (up running)
  equips running := by
    show site.Equips next.round.syncer
    rw [same.syncer]
    exact holds.equips (up running)
  named := by
    show next.snapshot.Named next.snapPath
    rw [same.snapshot, same.snapPath]
    exact holds.named
  absolute := by
    show next.snapPath = [] ∨ next.snapPath.head? = some '/'
    rw [same.snapPath]
    exact holds.absolute
  performing index child found sending := by
    show (program next.tree).Meets _ next.tree.Stores next.tree.Stores (site.Delivers next.tree _) ∧
      both.record.programs.Running (program next.tree) next.tree.Stores index _
    rw [same.tree_eq]
    exact holds.performing index child (same.children ▸ found) sending
  queued here := absurd here elsewhere
  performed here := absurd here elsewhere
  early here := same.delivered.trans (holds.early (early here))
  landed fileList delivered route member regular listed := by
    have member' : route ∈ both.state.snapshot.routes := same.snapshot ▸ member
    have listed' : route.file both.state.snapPath ∈ fileList := same.snapPath ▸ listed
    exact holds.landed fileList (same.delivered ▸ delivered) route member' regular listed'
  behind := behind

/-- The process ends. -/
theorem Replicating.die (holds : site.Replicating program both) (same : Same both.state next)
    (stopped : next.control = .stopped) : site.Replicating program ⟨next, both.record⟩ :=
  holds.keep same (fun up => absurd stopped up) (by simp [stopped])
    (fun early => by simp [stopped, PollControl.undelivered] at early)
    (fun up => absurd stopped up)

/-- Neither the watermark nor the start of the iteration changes. -/
theorem Replicating.behind_of_same (holds : site.Replicating program both)
    (up : both.state.control ≠ .stopped) (before : both.state.control.between = false)
    (after : next.control.between = false)
    (lastRctime : next.crawler.lastRctime = both.state.crawler.lastRctime)
    (startRctime : next.startRctime = both.state.startRctime) :
    next.control ≠ .stopped → next.startRctime ≤ next.mark := by
  intro up'
  rw [mark_of_running up' after, lastRctime, startRctime, ← mark_of_running up before]
  exact holds.behind up

/-- A step to another place of the iteration that stores nothing. -/
theorem Replicating.pass (holds : site.Replicating program both)
    (up : both.state.control ≠ .stopped)
    (before : both.state.control.between = false) (control : PollControl)
    (elsewhere : control ≠ .syncing) (after : control.between = false)
    (early : control.undelivered = true → both.state.control.undelivered = true)
    (fileList : List File) (disk : Option CString) (round : State)
    (syncer : round.syncer = both.state.round.syncer)
    (children : round.children = both.state.round.children) :
    site.Replicating program ⟨{ both.state with
      control := control, fileList := fileList, disk := disk, round := round },
      both.record⟩ := by
  apply holds.keep
  · exact ⟨rfl, syncer, children, rfl, rfl, rfl⟩
  · exact fun _ => up
  · exact elsewhere
  · exact early
  · exact holds.behind_of_same up before after rfl rfl

/-- An iteration ends where it may start again or close. -/
theorem rest_control {daemon : Daemon} (plain : daemon.flags.seed = false) :
    daemon.rest.control = .checking ∨ daemon.rest.control = .closing := by
  rw [Daemon.rest]
  simp only [plain, Bool.false_and, Bool.false_eq_true, ↓reduceIte]
  split
  · exact .inr rfl
  · exact .inl rfl

theorem Replicating.of_begin (holds : site.Replicating program both) {pid argMax envpSize}
    {config : Config} {flags : Flags} (plain : flags.seed = false)
    (allowed : site.Serves config ∧ site.Equips (Syncer.new tokenize argMax envpSize config))
    (begun : both.state.begin tokenize pid config flags argMax envpSize = some next) :
    site.Replicating program ⟨next, both.record⟩ := by
  obtain ⟨lastRctime, content, read, rfl⟩ := Daemon.eq_of_begin begun
  simp only [plain, Bool.false_eq_true, ↓reduceIte]
  exact {
    serves := fun _ => allowed.1
    equips := fun _ => allowed.2
    named := holds.named
    absolute := holds.absolute
    performing := State.performing_of_childless _ _ _ rfl _
    queued := by simp
    performed := by simp
    early := by simp
    landed := by simp
    behind := fun _ => le_refl _ }

theorem Replicating.of_check (holds : site.Replicating program both)
    (here : both.state.control = .checking) (base : Listing) :
    site.Replicating program ⟨both.state.check base, both.record⟩ := by
  have up : both.state.control ≠ .stopped := by simp [here]
  rw [Daemon.check]
  split
  · next change newRctime returned =>
    exact {
      serves := fun _ => holds.serves up
      equips := fun _ => holds.equips up
      named := holds.named
      absolute := holds.absolute
      performing := holds.performing
      queued := by cases change <;> simp
      performed := by cases change <;> simp
      early := fun _ => rfl
      landed := by simp
      behind := fun up' => by
        rw [mark_of_running up' (by cases change <;> rfl)] }
  · apply holds.die
    · exact ⟨rfl, rfl, rfl, rfl, rfl, rfl⟩
    · rfl

/-- Outside of `Syncer::sync` no children are left. -/
theorem outstanding_of_elsewhere (inStep : both.state.InStep undisturbed capacity)
    (up : both.state.control ≠ .stopped) (elsewhere : both.state.control ≠ .syncing)
    (other : both.state.control ≠ .deleting) : both.state.round.outstanding = [] := by
  have idle : both.state.round.control = .idle := by
    rcases inStep.outside up elsewhere with ⟨idle, _⟩ | ⟨deleting, _⟩
    · exact idle
    · exact absurd deleting other
  exact (State.accounted_invariant.of_reachable inStep.reachable).outstanding_eq_nil
    (by rw [idle]; rfl)

/-- A new snapshot has not been read by any program. -/
theorem Replicating.of_create (holds : site.Replicating program both) {snapshot : Listing}
    (here : both.state.control = .creating) (inStep : both.state.InStep undisturbed capacity)
    (proper : snapshot.Proper) :
    site.Replicating program ⟨{ both.state with
      snapshot := snapshot
      snapPath := createSnapPath both.state.crawler.config.basePath both.state.pid
        both.state.newRctime
      control := .searching }, both.record⟩ := by
  have up : both.state.control ≠ .stopped := by simp [here]
  have delivered := holds.early (by rw [here]; rfl)
  obtain ⟨_, absolute, unmarked⟩ := holds.serves up
  have gone := outstanding_of_elsewhere inStep up (by simp [here]) (by simp [here])
  exact {
    serves := fun _ => holds.serves up
    equips := fun _ => holds.equips up
    named := Listing.named_createSnapPath proper unmarked _ _
    absolute := .inr (absolute_createSnapPath absolute _ _)
    performing := State.performing_of_none _ _ _ gone _
    queued := by simp
    performed := by simp
    early := fun _ => delivered
    landed := fun fileList some => by cases some.symm.trans delivered
    behind := holds.behind_of_same up (by rw [here]; rfl) rfl rfl rfl }

/-- `Syncer::sync` starts with the file list as its queue and without children. -/
theorem Replicating.of_launch (holds : site.Replicating program both) {sorted : List File}
    {round : State} (here : both.state.control = .launching)
    (inStep : both.state.InStep undisturbed capacity)
    (taken : both.state.round.step capacity (.sync both.state.fileList sorted) = some round) :
    site.Replicating program ⟨{ both.state with round := round, control := .syncing },
      both.record⟩ := by
  have up : both.state.control ≠ .stopped := by simp [here]
  have gone := outstanding_of_elsewhere inStep up (by simp [here]) (by simp [here])
  have delivered := holds.early (by rw [here]; rfl)
  cases State.moves_of_step taken with
  | sync _ perm _ =>
      exact {
        serves := fun _ => holds.serves up
        equips := fun _ => holds.equips up
        named := holds.named
        absolute := holds.absolute
        performing := State.performing_of_childless _ _ _ gone _
        queued := fun _ => perm
        performed := fun _ => State.performed_of_childless _ gone _
        early := fun _ => delivered
        landed := fun fileList some => by cases some.symm.trans delivered
        behind := fun _ => by
          have before := holds.behind up
          rw [mark_of_running up (by rw [here]; rfl)] at before
          exact before }

/-- A step inside of `Syncer::sync` keeps the queue. -/
theorem queue_of_syncing (inside : both.state.Inside) (here : both.state.control = .syncing)
    {call : Choice} {round : State} (taken : both.state.round.step capacity call = some round) :
    round.queue = both.state.round.queue := by
  rcases State.queue_of_move (State.moves_of_step taken) with same | ⟨_, _, rfl, _⟩
  · exact same
  · cases State.moves_of_step taken with
    | sync idle _ _ => exact absurd idle (inside here).1

theorem equips_of_move {call : Choice} {state after : State}
    (equips : site.Equips state.syncer) (move : State.Move capacity state call after) :
    site.Equips after.syncer := by
  obtain ⟨execBin, garbage⟩ := State.command_of_move move
  rw [Equips, execBin, garbage, State.names_of_move move]
  exact equips

/-- What is known of a daemon within `Syncer::sync`. -/
structure Syncing (program : Tree → Program Arg Local Replicas Event) (capacity : Nat)
    (both : Observed Daemon (Copies Local)) (call : Choice) (round : State) : Prop where
  here : both.state.control = .syncing
  inside : both.state.Inside
  inStep : both.state.InStep undisturbed capacity
  phase : both.state.Phase .syncing
  allowed : undisturbed both.state.round call
  exits : State.exitsAs (program both.state.tree) both.record.programs call
  taken : both.state.round.step capacity call = some round

section Syncing

variable {call : Choice} {round : State}

theorem Syncing.up (syncing : Syncing program capacity both call round) :
    both.state.control ≠ .stopped := by
  simp [syncing.here]

/-- The snapshot is where the programs can read it. -/
theorem Replicating.sound (holds : site.Replicating program both)
    (syncing : Syncing program capacity both call round) : both.state.tree.Sound where
  extensible := syncing.phase.2.1
  absolute := holds.absolute.resolve_left syncing.phase.2.1.1
  named := holds.named

/-- The queue has files of the snapshot. -/
theorem Replicating.files (holds : site.Replicating program both)
    (syncing : Syncing program capacity both call round) :
    ∀ file ∈ both.state.round.queue, both.state.tree.IsFile file.path := by
  intro file member
  obtain ⟨_, extensible, searched⟩ := syncing.phase
  have listed := searched.mem_iff.mp ((holds.queued syncing.here).mem_iff.mp member)
  obtain ⟨route, known, wants, rfl⟩ :=
    Listing.route_of_newFiles extensible holds.named.proper listed
  exact ⟨route, known, regular_of_wants wants, rfl⟩

/-- The programs of the children go on, as those of the site. -/
theorem Replicating.performing_of_sync (holds : site.Replicating program both)
    (transfers : site.Transfers program)
    (syncing : Syncing program capacity both call round) :
    round.Performing (program both.state.tree) both.state.tree.Stores
      (site.Delivers both.state.tree)
      (both.state.round.execute (program both.state.tree) call both.record.programs) := by
  have reachable := syncing.inStep.reachable
  apply holds.performing.of_move (State.accounted_invariant.of_reachable reachable)
  · intro child member
    exact meets_of_equips transfers (holds.equips syncing.up)
      (State.addressed_invariant.of_reachable reachable)
      (State.destined_invariant.of_reachable reachable)
      (holds.sound syncing) (holds.files syncing) member
  · exact State.moves_of_step syncing.taken

/-- The children that end with code 0 have delivered. -/
theorem Replicating.performed_of_sync (holds : site.Replicating program both)
    (syncing : Syncing program capacity both call round) :
    round.Performed (site.Delivers both.state.tree) both.record.replica :=
  (holds.performed syncing.here).of_move holds.performing
    ((State.quiet_invariant fun _ _ allowed => allowed.2).of_reachable syncing.inStep.reachable)
    syncing.exits (State.moves_of_step syncing.taken)

/-- When `Syncer::sync` returns, every file of the list has been stored. -/
theorem Replicating.landed_of_synced (holds : site.Replicating program both)
    (syncing : Syncing program capacity both call round) (ended : round.control = .synced)
    (member : route ∈ both.state.snapshot.routes) (regular : route.attributes.stat.isDir = false)
    (listed : route.file both.state.snapPath ∈ both.state.fileList) : site.Holds both route := by
  have reached := syncing.inStep.reachable.next syncing.allowed syncing.taken
  have exits := reached.mono fun _ _ (allowed : undisturbed _ _) => allowed.1
  have addressed := State.addressed_invariant.of_reachable reached
  have queue : round.queue.Perm both.state.fileList :=
    queue_of_syncing syncing.inside syncing.here syncing.taken ▸ holds.queued syncing.here
  obtain ⟨child, sent, inBatch, _, succeeded⟩ := State.child_of_synced
    (State.delivered_invariant.of_reachable exits) (State.batched_invariant.of_reachable exits)
    (State.accounted_invariant.of_reachable exits) ended (queue.mem_iff.mpr listed)
  obtain ⟨known, command⟩ := command_of_equips
    (equips_of_move (holds.equips syncing.up) (State.moves_of_step syncing.taken)) addressed
    (State.destined_invariant.of_reachable reached) sent
  have stored := holds.performed_of_sync syncing child sent
    (Child.finished_of_succeeded succeeded) _ child.destination known command
  exact ⟨child.destination, known,
    stored route member regular inBatch _ (holds.named.remote route member regular)⟩

/-- A step of the children or of `Syncer::sync`. -/
theorem Replicating.of_sync (holds : site.Replicating program both)
    (transfers : site.Transfers program) (syncing : Syncing program capacity both call round)
    (disk : Option CString) :
    site.Replicating program ⟨{ both.state with round := round, disk := disk },
      (copyObserver program).note both.state (.syncer call)
        { both.state with round := round, disk := disk } both.record⟩ := by
  have up := syncing.up
  have here := syncing.here
  have move := State.moves_of_step syncing.taken
  have delivered := holds.early (by rw [here]; rfl)
  exact {
    serves := fun _ => holds.serves up
    equips := fun _ => equips_of_move (holds.equips up) move
    named := holds.named
    absolute := holds.absolute
    performing := holds.performing_of_sync transfers syncing
    queued := fun _ => queue_of_syncing syncing.inside here syncing.taken ▸ holds.queued here
    performed := fun _ => by
      rw [note_replica]
      exact holds.performed_of_sync syncing
    early := fun _ => delivered
    landed := fun fileList some => by cases some.symm.trans delivered
    behind := holds.behind_of_same up (by rw [here]; rfl) (by rw [here]; rfl) rfl rfl }

/-- `Syncer::sync` returns. -/
theorem Replicating.of_synced (holds : site.Replicating program both)
    (transfers : site.Transfers program) (syncing : Syncing program capacity both call round)
    (ended : round.control = .synced) (disk : Option CString) {after : Daemon}
    (next : after = { both.state with
      round := round, disk := disk, delivered := some both.state.fileList, control := .deleting }) :
    site.Replicating program
      ⟨after, (copyObserver program).note both.state (.syncer call) after both.record⟩ := by
  subst next
  have up := syncing.up
  have move := State.moves_of_step syncing.taken
  exact {
    serves := fun _ => holds.serves up
    equips := fun _ => equips_of_move (holds.equips up) move
    named := holds.named
    absolute := holds.absolute
    performing := holds.performing_of_sync transfers syncing
    queued := by simp
    performed := by simp
    early := by simp
    landed := fun fileList some route member regular listed => by
      cases some
      have landed := holds.landed_of_synced syncing ended member regular listed
      exact (holds_note both (.syncer call) _ route).mpr landed
    behind := holds.behind_of_same up (by rw [syncing.here]; rfl) rfl rfl rfl }

/-- The process ends in `Syncer::sync`, and its children go on. -/
theorem Replicating.of_syncFails (holds : site.Replicating program both)
    (transfers : site.Transfers program) (syncing : Syncing program capacity both call round)
    {after : Daemon} (tree : after.tree = both.state.tree) (same : after.round = round)
    (delivered : after.delivered = both.state.delivered) (stopped : after.control = .stopped) :
    site.Replicating program
      ⟨after, (copyObserver program).note both.state (.syncer call) after both.record⟩ := by
  have early := holds.early (by rw [syncing.here]; rfl)
  have snapshot : after.snapshot = both.state.snapshot := congrArg Tree.listing tree
  have snapPath : after.snapPath = both.state.snapPath := congrArg Tree.root tree
  exact {
    serves := fun up => absurd stopped up
    equips := fun up => absurd stopped up
    named := by
      show after.snapshot.Named after.snapPath
      rw [snapshot, snapPath]
      exact holds.named
    absolute := by
      show after.snapPath = [] ∨ after.snapPath.head? = some '/'
      rw [snapPath]
      exact holds.absolute
    performing := by
      show after.round.Performing (program after.tree) after.tree.Stores
        (site.Delivers after.tree) _
      rw [tree, same]
      exact holds.performing_of_sync transfers syncing
    queued := fun here => by cases here.symm.trans stopped
    performed := fun here => by cases here.symm.trans stopped
    early := fun undelivered => by simp [stopped] at undelivered
    landed := fun fileList some => by cases some.symm.trans (delivered.trans early)
    behind := fun up => absurd stopped up }

end Syncing

/-- Every move keeps the invariant. -/
theorem Replicating.of_move (holds : site.Replicating program both)
    (transfers : site.Transfers program) (watermark : both.state.Watermark)
    (inside : both.state.Inside) (inStep : both.state.InStep undisturbed capacity)
    (phase : both.state.Phase both.state.control)
    (allowed : site.replicating tokenize program both (.inl choice))
    (move : Daemon.Move tokenize capacity both.state choice next) :
    site.Replicating program
      ⟨next, (copyObserver program).note both.state choice next both.record⟩ := by
  have syncing : ∀ {call : Choice} {round : State}, both.state.control = .syncing →
      choice = .syncer call → both.state.round.step capacity call = some round →
      Syncing program capacity both call round := by
    rintro call round here rfl taken
    exact ⟨here, inside, inStep, here ▸ phase, allowed.2.1, allowed.2.2, taken⟩
  cases move with
  | start _ begun => exact holds.of_begin allowed.1.1 allowed.2.2 begun
  | assignSec here =>
      apply holds.keep
      · exact ⟨rfl, rfl, rfl, rfl, rfl, rfl⟩
      · exact fun _ => by simp [here]
      · simp
      · simp
      · exact fun _ => le_refl both.state.startRctime
  | @assignNsec newRctime after here =>
      obtain ⟨_, stage⟩ := watermark.stage here (by simp)
      obtain ⟨rfl, rfl, seconds, later, _⟩ := stage
      apply holds.keep
      · exact ⟨rfl, rfl, rfl, rfl, rfl, rfl⟩
      · exact fun _ => by simp [here]
      · simp [AfterUpdate.control]
      · simp [AfterUpdate.control]
      · intro _
        show both.state.startRctime ≤
          ⟨both.state.crawler.lastRctime.tvSec, both.state.newRctime.tvNsec⟩
        rw [seconds]
        exact later.le
  | check here => exact holds.of_check here _
  | create here => exact holds.of_create here inStep allowed.1.1
  | @search schedule result here _ _ =>
      have up : both.state.control ≠ .stopped := by simp [here]
      have before : both.state.control.between = false := by rw [here]; rfl
      have early : both.state.control.undelivered = true := by rw [here]; rfl
      rw [Daemon.afterSearch]
      split
      · exact holds.pass up before .deleting (by simp) rfl (by simp) _ _ _ rfl rfl
      · exact holds.pass up before .launching (by simp) rfl (fun _ => early) _ _ _ rfl rfl
  | launch here taken => exact holds.of_launch here inStep taken
  | sync here taken _ _ => exact holds.of_sync transfers (syncing here rfl taken) _
  | synced here taken ended _ =>
      exact holds.of_synced transfers (syncing here rfl taken) ended _ rfl
  | syncFails here taken _ _ =>
      exact holds.of_syncFails transfers (syncing here rfl taken) rfl rfl rfl rfl
  | deleteSnap here =>
      have up : both.state.control ≠ .stopped := by simp [here]
      have plain := (watermark.running up).flags.2.1
      simp only [plain, Bool.false_eq_true, ↓reduceIte]
      exact holds.pass up (by rw [here]; rfl) (.update both.state.newRctime .flush) (by simp) rfl
        (by simp) _ _ { both.state.round with control := .idle, snapshot := false } rfl rfl
  | @flush due here =>
      have up : both.state.control ≠ .stopped := by simp [here]
      cases due with
      | false =>
          exact holds.pass up (by rw [here]; rfl) .resting (by simp) rfl (by simp) _ _ _ rfl rfl
      | true =>
          exact holds.pass up (by rw [here]; rfl) .resting (by simp) rfl (by simp) _ _ _ rfl rfl
  | rest here =>
      have up : both.state.control ≠ .stopped := by simp [here]
      have control := rest_control (watermark.running up).flags.1
      obtain ⟨place, equal⟩ := both.state.rest_eq
      rw [equal] at control ⊢
      rcases control with rfl | rfl
      · exact holds.pass up (by rw [here]; rfl) .checking (by simp) rfl (by simp) _ _ _ rfl rfl
      · exact holds.pass up (by rw [here]; rfl) .closing (by simp) rfl (by simp) _ _ _ rfl rfl
  | close | createFails | noWorkers | searchFails | keepSnap | signal | kill =>
      apply holds.die
      · exact ⟨rfl, rfl, rfl, rfl, rfl, rfl⟩
      · rfl

/-- A step of a program takes nothing away. -/
theorem Replicating.of_event (holds : site.Replicating program both)
    {event : ProgramEvent Event} {copies : Copies Local}
    (seen : (copyObserver program).see both.state event both.record = some copies) :
    site.Replicating program { both with record := copies } ∧
      both.state.tree.Stores both.record.replica copies.replica := by
  obtain ⟨programs, advanced, rfl⟩ := Option.map_eq_some_iff.mp seen
  obtain ⟨performing, stores⟩ := holds.performing.of_advance advanced
  refine ⟨?_, stores⟩
  exact { holds with
    performing := performing
    performed := fun here =>
      (holds.performed here).mono fun argv delivers => delivers.keeps holds.named stores
    landed := fun fileList delivered route member regular listed =>
      (holds.landed fileList delivered route member regular listed).keeps holds.named member
        stores }

/-- The invariant holds in every run that replicates. -/
theorem replicating_invariant (transfers : site.Transfers program) :
    ((copyObserver program).watch (pollMachine tokenize capacity)).Invariant
      (site.replicating tokenize program) (site.Replicating program) := by
  apply Observer.invariant
  · rintro _ ⟨disk, rfl⟩
    exact {
      serves := fun up => absurd rfl up
      equips := fun up => absurd rfl up
      named := Listing.named_nil _
      absolute := .inl rfl
      performing := State.performing_of_childless _ _ _ rfl _
      queued := by simp [Daemon.initial]
      performed := by simp [Daemon.initial]
      early := by simp [Daemon.initial]
      landed := by simp [Daemon.initial]
      behind := fun up => absurd rfl up }
  · intro both choice next reachable holds allowed taken
    have plain : (pollMachine tokenize capacity).Reachable Machine.unguarded both.state :=
      Observer.reachable reachable fun _ _ _ => trivial
    have inside : both.state.Inside := Daemon.inside_invariant.of_reachable plain
    exact holds.of_move transfers (watermark_of_replicating reachable) inside
      (inStep_of_replicating reachable) (Daemon.phase_of_reachable plain rfl) allowed
      (Daemon.moves_of_step taken)
  · intro both event record _ holds _ seen
    exact (holds.of_event seen).1

/-! ## The simulation -/

/-- What programs store of a tree are copies. -/
theorem steps_stores {replica after : Replicas} (stores : tree.Stores replica after)
    (named : tree.listing.Named tree.root)
    (image : Replication.State CString CString Attributes Timespec)
    (source : image.source = tree.listing.source) (start : image.replica = replica) :
    ∃ choices, Replication.machine.Steps (Replication.rules site.policy) image choices
      { image with replica := after } := by
  induction stores with
  | refl =>
      subst start
      exact ⟨[], .refl⟩
  | @file after route key _ member regular behind place ih =>
      obtain ⟨choices, run⟩ := ih
      obtain rfl : key = route.relative :=
        Option.some.inj (behind.symm.trans (named.remote route member regular))
      refine ⟨choices ++ [.copy place route.relative], run.trans (.single ?_ ?_)⟩
      · exact trivial
      · show (image.source route.relative).map _ = _
        rw [source, Listing.source_relative named.proper member regular]
        rfl

/-- A step that leaves the snapshot alone and does not raise the watermark. -/
theorem steps_keep (both : Observed Daemon (Copies Local)) (choice : PollChoice)
    (snapshot : next.snapshot = both.state.snapshot) (lower : next.mark ≤ both.state.mark) :
    ∃ choices, Replication.machine.Steps (Replication.rules site.policy) (replicationState both)
      choices (replicationState
        ⟨next, (copyObserver program).note both.state choice next both.record⟩) := by
  refine ⟨[.retreat next.mark], .single lower ?_⟩
  simp only [replicationState, snapshot, note_replica, note_floor]
  rfl

/-- What is wanted and newer than the start of the iteration has been delivered, and so is
held. -/
theorem Replicating.held_of_delivered (holds : site.Replicating program both)
    (up : both.state.control ≠ .stopped) (delivered : both.state.Delivered)
    (member : route ∈ both.state.snapshot.routes) (wants : site.Wants route)
    (newer : both.state.startRctime < route.attributes.stat.mtime) : site.Holds both route := by
  have owed : both.state.Owes route.names route.attributes := by
    refine ⟨?_, wants.1, newer, fun name listed => ?_⟩
    · rw [Listing.entries_eq]
      exact List.mem_map_of_mem member
    · exact ((holds.serves up).filtered _ name).trans (wants.2 name listed)
  obtain ⟨fileList, some, listed⟩ := delivered _ _ owed
  exact holds.landed fileList some route member wants.1 listed

/-- What is wanted in terms of replication is a file that the site wants. -/
theorem wants_of_source {listing : Listing} (proper : listing.Proper) {key : CString}
    {version : Attributes} (found : listing.source key = some version)
    (wanted : site.policy.wanted key version) :
    ∃ route ∈ listing.routes, site.Wants route ∧ route.relative = key ∧
      route.attributes = version := by
  obtain ⟨route, member, regular, rfl, rfl⟩ := Listing.route_of_source found
  refine ⟨route, member, ⟨regular, fun name listed => wanted name ?_⟩, rfl, rfl⟩
  rwa [Listing.splitOn_relative proper member]

/-- Behind the first assignment of `update` everything newer has been copied. -/
theorem Replicating.copied (holds : site.Replicating program both)
    (up : both.state.control ≠ .stopped) (delivered : both.state.Delivered)
    (mark : both.state.mark = both.state.startRctime) :
    (replicationState both).Copied site.policy := by
  intro key version found wanted newer
  obtain ⟨route, member, wants, rfl, rfl⟩ := wants_of_source holds.named.proper found wanted
  exact holds.held_of_delivered up delivered member wants (mark ▸ newer)

/-- The watermark of a process that ends is the one it has written last. -/
theorem mark_of_end (watermark : both.state.Watermark) (up : both.state.control ≠ .stopped)
    (machine : both.state.crawler.lastRctime.IsMachine)
    (whole : next.disk = both.state.disk ∨ both.state.control.between = false ∧
      next.disk = some (writeLastRctime both.state.crawler.lastRctime))
    (stopped : next.control = .stopped) : next.mark ≤ both.state.mark := by
  apply mark_of_stopped stopped
  rcases whole with same | ⟨whole, written⟩
  · rw [Daemon.Stored, same]
    exact stored_mark watermark up
  · rw [Daemon.Stored, written, mark_of_running up whole]
    exact ⟨_, readLastRctime_writeLastRctime machine, le_refl _⟩

/-- Every move is matched by the rules of replication. -/
theorem Replicating.matched (holds : site.Replicating program both)
    (watermark : both.state.Watermark)
    (allowed : site.replicating tokenize program both (.inl choice))
    (move : Daemon.Move tokenize capacity both.state choice next) :
    ∃ choices, Replication.machine.Steps (Replication.rules site.policy) (replicationState both)
      choices (replicationState
        ⟨next, (copyObserver program).note both.state choice next both.record⟩) := by
  -- A step to another place that keeps the watermark.
  have pass : ∀ {next : Daemon}, both.state.control ≠ .stopped →
      both.state.control.between = false → next.control ≠ .stopped →
      next.control.between = false → next.snapshot = both.state.snapshot →
      next.crawler.lastRctime = both.state.crawler.lastRctime →
      ∃ choices, Replication.machine.Steps (Replication.rules site.policy)
        (replicationState both) choices
        (replicationState
          ⟨next, (copyObserver program).note both.state choice next both.record⟩) := by
    intro next up before up' after snapshot lastRctime
    apply steps_keep both choice snapshot
    rw [mark_of_running up before, mark_of_running up' after, lastRctime]
  have ends : ∀ {next : Daemon} {control : PollControl}, both.state.control = control →
      control ≠ .stopped → next.snapshot = both.state.snapshot → next.control = .stopped →
      next.disk = both.state.disk ∨ control.between = false ∧
        next.disk = some (writeLastRctime both.state.crawler.lastRctime) →
      ∃ choices, Replication.machine.Steps (Replication.rules site.policy)
        (replicationState both) choices
        (replicationState
          ⟨next, (copyObserver program).note both.state choice next both.record⟩) := by
    rintro next control rfl up snapshot stopped whole
    apply steps_keep both choice snapshot
    exact mark_of_end watermark up (watermark.running up).lastRctime whole stopped
  cases move with
  | start stopped begun =>
      apply steps_keep both
      · obtain ⟨_, _, _, rfl⟩ := Daemon.eq_of_begin begun
        rfl
      · obtain ⟨lastRctime, content, read, rfl⟩ := Daemon.eq_of_begin begun
        have plain := allowed.1.1
        simp only [Daemon.mark, stopped, plain, Bool.false_eq_true, ↓reduceIte,
          timestamp_of_read read, Except.toOption, Option.getD_some]
        exact le_refl _
  | assignSec here =>
      obtain ⟨_, stage⟩ := watermark.stage here (by simp)
      have mark : both.state.mark = both.state.startRctime :=
        (mark_of_running (by simp [here]) (by rw [here]; rfl)).trans stage.2.2.1.1
      apply steps_keep both
      · rfl
      · exact mark.ge
  | @assignNsec newRctime after here =>
      obtain ⟨_, stage⟩ := watermark.stage here (by simp)
      obtain ⟨rfl, rfl, _, _, _, delivered⟩ := stage
      have mark : both.state.mark = both.state.startRctime := by
        rw [Daemon.mark, here]
      have copied := holds.copied (by simp [here]) delivered mark
      exact ⟨[.advance _], .single copied rfl⟩
  | check here =>
      rw [Daemon.check]
      split
      · next change newRctime returned =>
        refine pass (by simp [here]) (by rw [here]; rfl) ?_ ?_ rfl rfl <;> cases change <;> simp
          [PollControl.between]
      · exact ends here (by simp) rfl rfl (.inl rfl)
  | @create snapshot here =>
      have up : both.state.control ≠ .stopped := by simp [here]
      have settled : (replicationState both).Settled site.policy snapshot.source := by
        intro key version found wanted newer before
        obtain ⟨route, member, wants, rfl, rfl⟩ := wants_of_source allowed.1.1 found wanted
        exact allowed.2.2 route member wants newer before
      refine ⟨[.take snapshot.source], .single settled ?_⟩
      have mark := mark_of_running up (by rw [here]; rfl)
      simp only [Replication.machine, Replication.State.step, replicationState, mark]
      rfl
  | @search schedule result here _ _ =>
      have control := both.state.afterSearch_control result.1
      refine pass (by simp [here]) (by rw [here]; rfl) ?_ ?_ rfl rfl
      · rcases control with control | control <;> simp [control]
      · rcases control with control | control <;> simp [control, PollControl.between]
  | launch here _ => exact pass (by simp [here]) (by rw [here]; rfl) (by simp) rfl rfl rfl
  | sync here _ _ _ =>
      exact pass (by simp [here]) (by rw [here]; rfl) (by simp [here]) (by simp only [here]; rfl)
        rfl rfl
  | synced here _ _ _ => exact pass (by simp [here]) (by rw [here]; rfl) (by simp) rfl rfl rfl
  | syncFails here _ _ wrote =>
      exact ends here (by simp) rfl rfl (wrote.imp_right fun written => ⟨rfl, written⟩)
  | deleteSnap here =>
      have up : both.state.control ≠ .stopped := by simp [here]
      have plain := (watermark.running up).flags.2.1
      simp only [plain, Bool.false_eq_true, ↓reduceIte]
      exact pass up (by rw [here]; rfl) (by simp) rfl rfl rfl
  | @flush due here =>
      cases due with
      | false => exact pass (by simp [here]) (by rw [here]; rfl) (by simp) rfl rfl rfl
      | true => exact pass (by simp [here]) (by rw [here]; rfl) (by simp) rfl rfl rfl
  | rest here =>
      have up : both.state.control ≠ .stopped := by simp [here]
      have control := rest_control (watermark.running up).flags.1
      obtain ⟨place, equal⟩ := both.state.rest_eq
      rw [equal] at control ⊢
      rcases control with rfl | rfl
      · exact pass up (by rw [here]; rfl) (by simp) rfl rfl rfl
      · exact pass up (by rw [here]; rfl) (by simp) rfl rfl rfl
  | close here => exact ends here (by simp) rfl rfl (.inr ⟨rfl, rfl⟩)
  | createFails here => exact ends here (by simp) rfl rfl (.inl rfl)
  | noWorkers here => exact ends here (by simp) rfl rfl (.inl rfl)
  | searchFails here => exact ends here (by simp) rfl rfl (.inl rfl)
  | keepSnap here => exact ends here (by simp) rfl rfl (.inl rfl)
  | signal up => exact ends rfl up rfl rfl (.inr ⟨allowed.2.2, rfl⟩)
  | kill up => exact ends rfl up rfl rfl (.inl rfl)

/-- A step of a program is matched by copies. -/
theorem Replicating.matched_event (holds : site.Replicating program both)
    {event : ProgramEvent Event} {copies : Copies Local}
    (seen : (copyObserver program).see both.state event both.record = some copies) :
    ∃ choices, Replication.machine.Steps (Replication.rules site.policy) (replicationState both)
      choices (replicationState { both with record := copies }) := by
  obtain ⟨_, stores⟩ := holds.of_event seen
  obtain ⟨programs, _, rfl⟩ := Option.map_eq_some_iff.mp seen
  exact steps_stores stores holds.named (replicationState both) rfl rfl

/-- In the runs that replicate, every step follows the rules of replication. -/
theorem refines_replication (transfers : site.Transfers program) :
    Machine.Refines ((copyObserver program).watch (pollMachine tokenize capacity))
      (site.replicating tokenize program) Replication.machine (Replication.rules site.policy)
      fun both image => image = replicationState both where
  initial both valid := by
    obtain ⟨state, record⟩ := both
    obtain ⟨⟨disk, rfl⟩, started⟩ := valid
    rw [show record = (copyObserver program).start (.initial disk) from started]
    exact ⟨_, ⟨rfl, rfl, rfl⟩, rfl⟩
  matched both choice next image reachable _ same allowed taken := by
    obtain ⟨state, record⟩ := next
    subst same
    have holds := (replicating_invariant transfers).of_reachable reachable
    cases choice with
    | inl choice =>
        obtain ⟨stepped, noted⟩ := Observer.step_inl taken
        rw [show record = (copyObserver program).note both.state choice state both.record
          from noted]
        obtain ⟨choices, run⟩ := holds.matched (watermark_of_replicating reachable) allowed
          (Daemon.moves_of_step stepped)
        exact ⟨choices, _, run, rfl⟩
    | inr event =>
        obtain ⟨unchanged, seen⟩ := Observer.step_inr taken
        rw [show state = both.state from unchanged]
        obtain ⟨choices, run⟩ := holds.matched_event seen
        exact ⟨choices, _, run, rfl⟩

/-- The daemon, its sync programs and its destinations replicate by a watermark: whatever
they do in such a run, replication does by its rules. -/
theorem replicates_of_steps (transfers : site.Transfers program)
    {origin final : Observed Daemon (Copies Local)}
    {choices : List (PollChoice ⊕ ProgramEvent Event)}
    (reachable : ((copyObserver program).watch (pollMachine tokenize capacity)).Reachable
      (site.replicating tokenize program) origin)
    (steps : ((copyObserver program).watch (pollMachine tokenize capacity)).Steps
      (site.replicating tokenize program) origin choices final) :
    Replication.machine.Reachable (Replication.rules site.policy) (replicationState origin) ∧
    ∃ choices', Replication.machine.Steps (Replication.rules site.policy)
      (replicationState origin) choices' (replicationState final) := by
  obtain ⟨_, reachable', rfl⟩ := (refines_replication transfers).of_reachable reachable
  obtain ⟨choices', _, run, rfl⟩ :=
    (refines_replication transfers).steps steps reachable reachable' rfl
  exact ⟨reachable', choices', run⟩

/-- What a wanted file is in terms of replication. -/
theorem wanted_of_wants (named : both.state.snapshot.Named both.state.snapPath)
    (member : route ∈ both.state.snapshot.routes) (wants : site.Wants route) :
    (replicationState both).source route.relative = some route.attributes ∧
      site.policy.wanted route.relative route.attributes := by
  refine ⟨Listing.source_relative named.proper member wants.1, fun name listed => ?_⟩
  rw [Listing.splitOn_relative named.proper member] at listed
  exact wants.2 name listed

/-- In the runs that replicate, every file of the latest snapshot that no filter excludes
and that is not newer than the watermark is at one of the destinations, under its relative
path and as it is in the snapshot, unless it was older than the watermark at first. A
process that has moved the watermark has all of them there, however new they are. -/
theorem replicated_of_reachable (transfers : site.Transfers program)
    (reachable : ((copyObserver program).watch (pollMachine tokenize capacity)).Reachable
      (site.replicating tokenize program) both) :
    (∀ route ∈ both.state.snapshot.routes, site.Wants route →
      both.record.floor < route.attributes.stat.mtime →
      route.attributes.stat.mtime ≤ both.state.mark → site.Holds both route) ∧
    (both.state.control ≠ .stopped →
      both.state.crawler.lastRctime ≠ both.state.startRctime →
      ∀ route ∈ both.state.snapshot.routes, site.Wants route →
        both.record.floor < route.attributes.stat.mtime → site.Holds both route) := by
  have holds := (replicating_invariant transfers).of_reachable reachable
  obtain ⟨_, rfl, complete⟩ :=
    (refines_replication transfers).invariant Replication.complete_invariant reachable
  constructor
  · intro route member wants newer before
    obtain ⟨here, wanted⟩ := wanted_of_wants holds.named member wants
    exact complete _ _ here wanted newer before
  · intro up moved route member wants newer
    rcases le_or_gt route.attributes.stat.mtime both.state.startRctime with before | behind
    · obtain ⟨here, wanted⟩ := wanted_of_wants holds.named member wants
      exact complete _ _ here wanted newer (before.trans (holds.behind up))
    · have delivered := (watermark_of_replicating reachable).moved.resolve_left moved
      exact holds.held_of_delivered up delivered member wants behind

/-- `Search.smallTree` with a file that has come later. -/
def grownTree : Listing :=
  .entry "c".toList { stat := ⟨false, 5, ⟨9, 0⟩⟩, rctime := none } .nil Search.smallTree

/-- The configuration of `plainSite`. -/
def relativeConfig : Config :=
  { Daemon.polledConfig with execFlags := "-a --relative".toList }

/-- One iteration of a process from `checking` to the end of `update`. -/
def replicatingIteration (tree : Listing) (lastRctime newRctime : Timespec) :
    List (PollChoice ⊕ ProgramEvent Bool) :=
  let snapPath := createSnapPath relativeConfig.basePath 42 newRctime
  let files := tree.newFiles ⟨relativeConfig, lastRctime⟩ snapPath snapPath
  ([.check tree, .create tree, .search [], .launch files, .syncer (.fork 11),
    .syncer (.child 0 .resetSigint), .syncer (.child 0 (.exec []))] : List PollChoice).map .inl ++
  files.map (fun _ => .inr ⟨0, true⟩) ++
  ([.syncer (.child 0 (.exit 0)), .syncer (.wait 0 true), .syncer .afterRound, .deleteSnap true,
    .assign, .assign] : List PollChoice).map .inl

/-- Two iterations; in the second one there is a new file. -/
def replicatingRun : List (PollChoice ⊕ ProgramEvent Bool) :=
  [.inl (.start 42 relativeConfig ⟨false, false, false, false⟩ 2097152 1024)] ++
  replicatingIteration Search.smallTree .zero ⟨7, 0⟩ ++ [.inl (.flush false), .inl .rest] ++
  replicatingIteration grownTree ⟨7, 0⟩ ⟨9, 0⟩

theorem replicatingRun_initial :
    ((copyObserver simpleRsync).watch (pollMachine plainTokens 4)).Initial
      ⟨.initial none, (copyObserver simpleRsync).start (.initial none)⟩ :=
  ⟨Daemon.initial_valid _, rfl⟩

theorem replicatingRun_executed :
    ((((copyObserver simpleRsync).watch (pollMachine plainTokens 4)).run
      (plainSite.replicating plainTokens simpleRsync)
      ⟨.initial none, (copyObserver simpleRsync).start (.initial none)⟩ replicatingRun).any
      fun both =>
        decide (both.state.snapshot = grownTree ∧ both.record.floor = .zero ∧
          both.state.control = .flushing ∧ both.state.crawler.lastRctime = ⟨9, 0⟩ ∧
          both.state.startRctime = ⟨7, 0⟩)) = true := by
  decide +kernel

/-- Both iterations are a run of replication. -/
theorem replicates_of_replicatingRun : ∃ (final : Observed Daemon (Copies SimpleRsync))
    (choices : List (Replication.Choice CString CString Attributes Timespec)),
    final.state.crawler.lastRctime = ⟨9, 0⟩ ∧
    Replication.machine.Steps (Replication.rules plainSite.policy)
      (replicationState ⟨.initial none, (copyObserver simpleRsync).start (.initial none)⟩) choices
      (replicationState final) := by
  obtain ⟨final, executed, ended⟩ := (Option.any_eq_true _ _).mp replicatingRun_executed
  obtain ⟨_, _, _, last, _⟩ := of_decide_eq_true ended
  obtain ⟨_, choices, run⟩ := replicates_of_steps transfers_simpleRsync
    (.initial replicatingRun_initial) (Machine.steps_of_run executed)
  exact ⟨final, choices, last, run⟩

/-- The file of the first iteration and that of the second are at the destination. -/
theorem replicated_of_replicatingRun : ∃ both : Observed Daemon (Copies SimpleRsync),
    both.record.replica "a:b".toList "d/b".toList =
      some { stat := ⟨false, 4, ⟨7, 0⟩⟩, rctime := none } ∧
    both.record.replica "a:b".toList "c".toList =
      some { stat := ⟨false, 5, ⟨9, 0⟩⟩, rctime := none } := by
  obtain ⟨both, reachable, ended⟩ :=
    Machine.exists_of_run replicatingRun_initial replicatingRun_executed
  obtain ⟨snapshot, floor, control, last, start⟩ := of_decide_eq_true ended
  obtain ⟨old, all⟩ := replicated_of_reachable transfers_simpleRsync reachable
  have first := old
    ⟨[("d".toList, { stat := ⟨true, 0, ⟨5, 0⟩⟩, rctime := some "7.090".toList })], "b".toList,
      { stat := ⟨false, 4, ⟨7, 0⟩⟩, rctime := none }⟩
    (by rw [snapshot]; decide) (by decide) (by rw [floor]; decide)
    (by rw [mark_of_running (by simp [control]) (by rw [control]; rfl), last]; decide)
  have second := all (by simp [control]) (by rw [last, start]; decide)
    ⟨[], "c".toList, { stat := ⟨false, 5, ⟨9, 0⟩⟩, rctime := none }⟩
    (by rw [snapshot]; decide) (by decide) (by rw [floor]; decide)
  obtain ⟨place, known, stored⟩ := first
  obtain ⟨place', known', stored'⟩ := second
  obtain rfl : place = "a:b".toList := List.mem_singleton.mp known
  obtain rfl : place' = "a:b".toList := List.mem_singleton.mp known'
  exact ⟨both, stored, stored'⟩

end Site

end CephGeoRep
