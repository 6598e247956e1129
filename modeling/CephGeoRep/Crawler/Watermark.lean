import CephGeoRep.Crawler.Iteration

/-!
# The watermark loses no update

The watermark moves from the value an iteration started with only after the list the
search made of its snapshot has been synced. Until then neither `last_rctime_` nor the
timestamp on disk changes, so a failure leaves everything to the next run.
-/

namespace CephGeoRep

open Semantics

/-- The runs with neither `seed`, `dry_run` nor `set_rctime`, over trees in which Ceph
has propagated the times of the files. The times are machine words. -/
def trickledUp (_ : Daemon) : PollChoice → Prop
  | .start _ _ flags _ _ => flags.seed = false ∧ flags.dryRun = false ∧ flags.setRctime = false
  | .check base => base.Trickled getRctime ∧
      ∀ attributes ∈ base.top, attributes.stat.mtime.IsMachine
  | .create snapshot => snapshot.Proper ∧
      snapshot.Trickled fun attributes => .ok (searchRctime attributes)
  | _ => True

instance (daemon : Daemon) : ∀ choice, Decidable (trickledUp daemon choice)
  | .start _ _ flags _ _ => inferInstanceAs (Decidable
      (flags.seed = false ∧ flags.dryRun = false ∧ flags.setRctime = false))
  | .check base => inferInstanceAs (Decidable (base.Trickled getRctime ∧
      ∀ attributes ∈ base.top, attributes.stat.mtime.IsMachine))
  | .create snapshot => inferInstanceAs (Decidable (snapshot.Proper ∧
      snapshot.Trickled fun attributes => .ok (searchRctime attributes)))
  | .assign | .createFails | .search _ | .searchFails | .launch _ | .syncer _ | .deleteSnap _
  | .flush _ | .rest | .close | .signal | .kill => .isTrue trivial

namespace Daemon

/-- What an iteration owes: the entries of its snapshot that are no directories, are
newer than the watermark it started with and have no filtered component. -/
def Owes (daemon : Daemon) (names : List CString) (attributes : Attributes) : Prop :=
  (names, attributes) ∈ daemon.snapshot.entries ∧ attributes.stat.isDir = false ∧
    daemon.startRctime < attributes.stat.mtime ∧
    ∀ name ∈ names, daemon.crawler.filtered name = false

/-- The file list has everything that is owed. -/
def Complete (daemon : Daemon) : Prop :=
  ∀ names attributes, daemon.Owes names attributes →
    Crawler.fileAt daemon.snapPath names attributes ∈ daemon.fileList

/-- Everything that is owed was in the list given to a call of `Syncer::sync` that has
returned. -/
def Delivered (daemon : Daemon) : Prop :=
  ∀ names attributes, daemon.Owes names attributes → ∃ fileList,
    daemon.delivered = some fileList ∧
      Crawler.fileAt daemon.snapPath names attributes ∈ fileList

/-- The timestamp on disk is at most `bound`. -/
def Stored (daemon : Daemon) (bound : Timespec) : Prop :=
  ∃ read, readLastRctime daemon.disk = .ok read ∧ read.1 ≤ bound

/-- What holds at each point of an iteration. -/
def Stage (daemon : Daemon) : PollControl → Prop
  | .creating => daemon.Ahead
  | .searching => daemon.Ahead ∧ daemon.snapshot.Proper ∧ Extensible daemon.snapPath ∧
      daemon.snapshot.Trickled fun attributes => .ok (searchRctime attributes)
  | .launching | .syncing => daemon.Ahead ∧ daemon.Complete
  | .deleting => daemon.Ahead ∧ daemon.Delivered
  | .update newRctime after => newRctime = daemon.newRctime ∧ after = .flush ∧
      daemon.Ahead ∧ daemon.Delivered
  | .updateNsec newRctime after => newRctime = daemon.newRctime ∧ after = .flush ∧
      daemon.crawler.lastRctime.tvSec = newRctime.tvSec ∧ daemon.startRctime < newRctime ∧
      daemon.Stored daemon.startRctime ∧ daemon.Delivered
  | .stopped | .checking | .flushing | .resting | .closing => True

/-- The invariant of the daemon while a process runs. -/
structure Running (daemon : Daemon) : Prop where
  flags : daemon.flags.seed = false ∧ daemon.flags.dryRun = false ∧ daemon.flags.setRctime = false
  lastRctime : daemon.crawler.lastRctime.IsMachine
  newRctime : daemon.newRctime.IsMachine
  stored : daemon.Stored daemon.crawler.lastRctime
  stage : daemon.Stage daemon.control

/-- The watermark is kept or what is owed has been delivered; also when no process
runs. -/
structure Watermark (daemon : Daemon) : Prop where
  moved : daemon.crawler.lastRctime = daemon.startRctime ∨ daemon.Delivered
  running : daemon.control ≠ .stopped → daemon.Running

variable {tokenize : CString → CString → List CString} {capacity : Nat} {daemon next : Daemon}
  {choice : PollChoice}

/-! ## The invariant -/

theorem Stored.mono {lower upper : Timespec} (stored : daemon.Stored lower)
    (le : lower ≤ upper) : daemon.Stored upper := by
  obtain ⟨read, found, below⟩ := stored
  exact ⟨read, found, below.trans le⟩

/-- The file holds the watermark or is unchanged. -/
theorem stored_of_wrote {bound : Timespec} (machine : daemon.crawler.lastRctime.IsMachine)
    (below : daemon.crawler.lastRctime ≤ bound) (stored : daemon.Stored bound)
    (wrote : next.disk = daemon.disk ∨
      next.disk = some (writeLastRctime daemon.crawler.lastRctime)) : next.Stored bound := by
  rcases wrote with same | written
  · rw [Stored, same]
    exact stored
  · rw [Stored, written]
    exact ⟨_, readLastRctime_writeLastRctime machine, below⟩

/-- While a process runs, the stage is that of its control. -/
theorem Watermark.stage {control : PollControl} (holds : daemon.Watermark)
    (here : daemon.control = control) (up : control ≠ .stopped) :
    daemon.Running ∧ daemon.Stage control := by
  rw [← here] at up ⊢
  exact ⟨holds.running up, (holds.running up).stage⟩

/-- `main` reads the watermark it goes on with. -/
theorem watermark_of_begin {pid argMax envpSize} {config : Config} {flags : Flags}
    (plain : flags.seed = false ∧ flags.dryRun = false ∧ flags.setRctime = false)
    (begun : daemon.begin tokenize pid config flags argMax envpSize = some next) :
    next.Watermark := by
  obtain ⟨lastRctime, content, read, rfl⟩ := eq_of_begin begun
  obtain ⟨machine, again⟩ := readLastRctime_again read
  refine ⟨.inl rfl, fun _ => ⟨plain, machine, isMachine_zero, ?_, ?_⟩⟩
  · exact ⟨_, again, le_refl _⟩
  · simp only [plain.1, Bool.false_eq_true, ↓reduceIte]
    trivial

/-- `check_for_change` finds a later `new_rctime` when it returns true. -/
theorem watermark_of_check {base : Listing} (holds : daemon.Watermark)
    (running : daemon.Running)
    (machine : ∀ attributes ∈ base.top, attributes.stat.mtime.IsMachine) :
    (daemon.check base).Watermark := by
  rw [check]
  split
  · next change newRctime returned =>
    refine ⟨.inl rfl, fun _ => ⟨running.flags, running.lastRctime, ?_, running.stored, ?_⟩⟩
    · exact isMachine_of_checkForChange running.newRctime machine returned
    · cases change with
      | false => trivial
      | true => exact ⟨rfl, lt_of_checkForChange returned⟩
  · exact ⟨holds.moved, fun up => absurd rfl up⟩

/-- The search completes the file list; when there is nothing to sync, nothing is owed. -/
theorem watermark_of_search {schedule : List Schedule} {result : List File × Nat}
    (running : daemon.Running) (here : daemon.control = .searching)
    (workers : 0 < daemon.crawler.config.threads)
    (found : daemon.crawler.triggerSearch daemon.snapPath daemon.snapshot schedule = some result) :
    (daemon.afterSearch result.1).Watermark := by
  have stage := running.stage
  rw [here] at stage
  obtain ⟨ahead, proper, extensible, trickled⟩ := stage
  have complete : (daemon.afterSearch result.1).Complete := by
    intro names attributes owed
    obtain ⟨listed, regular, newer, unfiltered⟩ := owed
    have later : daemon.crawler.lastRctime < attributes.stat.mtime := ahead.1 ▸ newer
    show Crawler.fileAt daemon.snapPath names attributes ∈ result.1
    rw [(perm_of_triggerSearch workers found).mem_iff,
      newFiles_eq_fullScan extensible proper trickled]
    exact mem_fullScan listed regular later unfiltered
  refine ⟨.inl ahead.1, fun _ => ⟨running.flags, running.lastRctime, running.newRctime,
    running.stored, ?_⟩⟩
  obtain ⟨_, dryRun, setRctime⟩ := running.flags
  simp only [afterSearch, dryRun, setRctime, Bool.or_false]
  by_cases empty : result.1.isEmpty = true
  · rw [if_pos empty]
    refine ⟨ahead, fun names attributes owed => ?_⟩
    have member := complete names attributes owed
    rw [show (daemon.afterSearch result.1).fileList = [] from List.isEmpty_iff.mp empty] at member
    cases member
  · rw [if_neg empty]
    exact ⟨ahead, complete⟩

/-- Between the two assignments of `update` the watermark is not behind the start. -/
theorem le_of_assigned {first second : Timespec} (later : first < second) :
    first ≤ ⟨second.tvSec, first.tvNsec⟩ := by
  rw [← not_lt, Timespec.lt_iff]
  rw [Timespec.lt_iff] at later
  simp only
  omega

/-- Every move keeps the invariant. -/
theorem Watermark.of_move (holds : daemon.Watermark) (allowed : trickledUp daemon choice)
    (move : Move tokenize capacity daemon choice next) : next.Watermark := by
  cases move with
  | start _ begun => exact watermark_of_begin allowed begun
  | @assignSec newRctime after here =>
      obtain ⟨⟨flags, lastRctime, newMachine, stored, _⟩, stage⟩ := holds.stage here (by simp)
      obtain ⟨rfl, rfl, ⟨same, later⟩, delivered⟩ := stage
      refine ⟨.inr delivered, fun _ => ⟨flags, ⟨newMachine.1, lastRctime.2⟩, newMachine, ?_, ?_⟩⟩
      · exact stored.mono (same ▸ le_of_assigned later)
      · exact ⟨rfl, rfl, rfl, later, same ▸ stored, delivered⟩
  | @assignNsec newRctime after here =>
      obtain ⟨⟨flags, lastRctime, newMachine, _, _⟩, stage⟩ := holds.stage here (by simp)
      obtain ⟨rfl, rfl, seconds, later, stored, delivered⟩ := stage
      have final : (⟨daemon.crawler.lastRctime.tvSec, daemon.newRctime.tvNsec⟩ : Timespec) =
          daemon.newRctime := by
        rw [seconds]
      refine ⟨.inr delivered, fun _ => ⟨flags, ?_, newMachine, ?_, trivial⟩⟩
      · exact ⟨lastRctime.1, newMachine.2⟩
      · exact stored.mono (final ▸ later.le)
  | check here => exact watermark_of_check holds (holds.stage here (by simp)).1 allowed.2
  | create here =>
      obtain ⟨⟨flags, lastRctime, newMachine, stored, _⟩, ahead⟩ := holds.stage here (by simp)
      refine ⟨.inl ahead.1, fun _ => ⟨flags, lastRctime, newMachine, stored, ?_⟩⟩
      exact ⟨ahead, allowed.1, extensible_createSnapPath _ _ _, allowed.2⟩
  | search here workers found =>
      exact watermark_of_search (holds.stage here (by simp)).1 here workers found
  | launch here taken =>
      obtain ⟨⟨flags, lastRctime, newMachine, stored, _⟩, stage⟩ := holds.stage here (by simp)
      exact ⟨.inl stage.1.1, fun _ => ⟨flags, lastRctime, newMachine, stored, stage⟩⟩
  | sync here _ _ wrote =>
      obtain ⟨⟨flags, lastRctime, newMachine, stored, _⟩, stage⟩ := holds.stage here (by simp)
      refine ⟨.inl stage.1.1, fun _ => ⟨flags, lastRctime, newMachine, ?_, ?_⟩⟩
      · exact stored_of_wrote lastRctime (le_refl _) stored wrote
      · simp only [here]
        exact stage
  | synced here _ _ wrote =>
      obtain ⟨⟨flags, lastRctime, newMachine, stored, _⟩, ahead, complete⟩ :=
        holds.stage here (by simp)
      refine ⟨.inl ahead.1, fun _ => ⟨flags, lastRctime, newMachine, ?_, ahead, ?_⟩⟩
      · exact stored_of_wrote lastRctime (le_refl _) stored wrote
      · intro names attributes owed
        exact ⟨_, rfl, complete names attributes owed⟩
  | deleteSnap here =>
      obtain ⟨⟨flags, lastRctime, newMachine, stored, _⟩, stage⟩ := holds.stage here (by simp)
      refine ⟨.inl stage.1.1, fun _ => ⟨flags, lastRctime, newMachine, stored, ?_⟩⟩
      simp only [flags.2.1, Bool.false_eq_true, ↓reduceIte]
      exact ⟨rfl, rfl, stage⟩
  | @flush due here =>
      obtain ⟨⟨flags, lastRctime, newMachine, stored, _⟩, _⟩ := holds.stage here (by simp)
      cases due with
      | false => exact ⟨holds.moved, fun _ => ⟨flags, lastRctime, newMachine, stored, trivial⟩⟩
      | true =>
          refine ⟨holds.moved, fun _ => ⟨flags, lastRctime, newMachine, ?_, trivial⟩⟩
          exact stored_of_wrote lastRctime (le_refl _) stored (.inr rfl)
  | rest here =>
      obtain ⟨⟨flags, lastRctime, newMachine, stored, _⟩, _⟩ := holds.stage here (by simp)
      have plain := flags
      obtain ⟨seed, dryRun, setRctime⟩ := plain
      rw [Daemon.rest]
      simp only [seed, dryRun, setRctime, Bool.or_false, Bool.false_and, Bool.false_eq_true,
        ↓reduceIte]
      split
      · exact ⟨holds.moved, fun _ => ⟨flags, lastRctime, newMachine, stored, trivial⟩⟩
      · exact ⟨holds.moved, fun _ => ⟨flags, lastRctime, newMachine, stored, trivial⟩⟩
  | syncFails | close | createFails | noWorkers | searchFails | keepSnap | signal | kill =>
      exact ⟨holds.moved, fun up => absurd rfl up⟩

/-- The invariant holds in every reachable state. -/
theorem watermark_invariant : (pollMachine tokenize capacity).Invariant trickledUp Watermark where
  initial := by
    rintro _ ⟨disk, rfl⟩
    exact ⟨.inl rfl, fun up => absurd rfl up⟩
  preserved _ _ _ _ holds allowed taken := holds.of_move allowed (moves_of_step taken)

/-- A process that ends in or behind `Syncer::sync` has kept the watermark, and the
file holds nothing later. -/
theorem kept_of_stopped (holds : daemon.Watermark)
    (early : daemon.control = .syncing ∨ daemon.control = .deleting)
    (move : Move tokenize capacity daemon choice next) (stopped : next.control = .stopped) :
    next.crawler.lastRctime = daemon.startRctime ∧ next.Stored daemon.startRctime := by
  have up : daemon.control ≠ .stopped := by
    rcases early with here | here <;> simp [here]
  obtain ⟨_, lastRctime, _, stored, _⟩ := holds.running up
  have kept : daemon.crawler.lastRctime = daemon.startRctime := by
    rcases early with here | here
    · exact (holds.stage here (by simp)).2.1.1
    · exact (holds.stage here (by simp)).2.1.1
  rw [kept] at stored
  have elsewhere : ∀ {control}, daemon.control = control → control ≠ .syncing →
      control ≠ .deleting → False := by
    rintro control rfl notSyncing notDeleting
    exact early.elim notSyncing notDeleting
  cases move with
  | start here => exact absurd here up
  | sync => exact absurd stopped up
  | synced => cases stopped
  | deleteSnap =>
      split at stopped
      · cases stopped
      · cases stopped
  | syncFails _ _ _ wrote => exact ⟨kept, stored_of_wrote lastRctime kept.le stored wrote⟩
  | signal => exact ⟨kept, stored_of_wrote lastRctime kept.le stored (.inr rfl)⟩
  | keepSnap | kill => exact ⟨kept, stored⟩
  | assignSec here | assignNsec here | check here | create here | search here | launch here
  | flush here | rest here | close here | createFails here | noWorkers here
  | searchFails here => exact (elsewhere here (by simp) (by simp)).elim

/-- `check_for_change` returns true when some file below the base directory is newer
than the watermark. -/
theorem changed_of_newer {base : Listing} {names : List CString} {attributes : Attributes}
    {lastRctime : Timespec} (trickled : base.Trickled getRctime)
    (member : (names, attributes) ∈ base.entries) (regular : attributes.stat.isDir = false)
    (newer : lastRctime < attributes.stat.mtime) (newRctime : Timespec) :
    ∃ final, checkForChange lastRctime base.top (false, newRctime) = .ok (true, final) := by
  have files : ∀ attributes : Attributes, attributes.stat.isDir = false →
      getRctime attributes = .ok attributes.stat.mtime := fun _ => getRctime_file
  have readable := Listing.readable_of_trickled trickled files
  obtain ⟨top, listed, rctime, read, above⟩ :=
    Listing.exists_top_of_mem_entries trickled files member regular
  exact checkForChange_of_newer readable listed read (newer.trans_le above) newRctime

/-- No update is lost by the watermark. A newer file below the base directory is
noticed; once the watermark differs from the one the iteration started with, every
newer unfiltered file of its snapshot was in the list given to a call of
`Syncer::sync` that has returned; and when the process ends in that call or before
the snapshot is removed, the watermark and the timestamp on disk are not past the
start. -/
theorem watermark_of_reachable
    (reachable : (pollMachine tokenize capacity).Reachable trickledUp daemon) :
    (∀ (base : Listing) (names : List CString) (attributes : Attributes),
      base.Trickled getRctime → (names, attributes) ∈ base.entries →
      attributes.stat.isDir = false → daemon.crawler.lastRctime < attributes.stat.mtime →
      ∃ newRctime, checkForChange daemon.crawler.lastRctime base.top (false, daemon.newRctime) =
        .ok (true, newRctime)) ∧
    (daemon.crawler.lastRctime ≠ daemon.startRctime → daemon.Delivered) ∧
    (daemon.control = .syncing ∨ daemon.control = .deleting → ∀ choice next,
      daemon.step tokenize capacity choice = some next → next.control = .stopped →
      next.crawler.lastRctime = daemon.startRctime ∧ next.Stored daemon.startRctime) := by
  have holds := watermark_invariant.of_reachable reachable
  refine ⟨?_, ?_, ?_⟩
  · intro base names attributes trickled member regular newer
    exact changed_of_newer trickled member regular newer daemon.newRctime
  · intro moved
    exact holds.moved.resolve_left moved
  · intro early choice next taken stopped
    exact kept_of_stopped holds early (moves_of_step taken) stopped

/-- A configuration with one worker and one process. -/
def polledConfig : Config where
  nproc := 1
  threads := 1
  execBin := "rsync".toList
  execFlags := "-a".toList
  basePath := "/b".toList
  destinations := "a:b".toList

/-- One iteration over `Search.smallTree`, up to the end of `update`. -/
def polledRun : List PollChoice :=
  let snapPath := createSnapPath polledConfig.basePath 42 ⟨7, 0⟩
  let files := Search.smallTree.newFiles ⟨polledConfig, .zero⟩ snapPath snapPath
  ([.start 42 polledConfig ⟨false, false, false, true⟩ 2097152 1024, .check Search.smallTree,
    .create Search.smallTree, .search [], .launch files, .syncer (.fork 11)] : List PollChoice) ++
  (childExits 0 0).map .syncer ++
  ([.syncer (.wait 0 true), .syncer .afterRound, .deleteSnap true, .assign, .assign] :
    List PollChoice)

/-- The file `d/b` has been delivered. -/
theorem watermark_of_polledRun : ∃ daemon : Daemon,
    daemon.startRctime = .zero ∧ daemon.crawler.lastRctime = ⟨7, 0⟩ ∧
    ∃ fileList, daemon.delivered = some fileList ∧
      Crawler.fileAt daemon.snapPath ["d".toList, "b".toList]
        { stat := ⟨false, 4, ⟨7, 0⟩⟩, rctime := none } ∈ fileList := by
  have executed : ((pollMachine plainTokens 4).run trickledUp (.initial none) polledRun).any
      (fun daemon => decide (daemon.startRctime = .zero ∧ daemon.crawler.lastRctime = ⟨7, 0⟩ ∧
        daemon.snapshot = Search.smallTree ∧ daemon.crawler.config = polledConfig)) = true := by
    decide +kernel
  obtain ⟨daemon, reachable, ended⟩ := Machine.exists_of_run (initial_valid _) executed
  obtain ⟨start, last, snapshot, config⟩ := of_decide_eq_true ended
  have moved : daemon.crawler.lastRctime ≠ daemon.startRctime := by
    rw [start, last]
    decide
  refine ⟨daemon, start, last, (watermark_of_reachable reachable).2.1 moved _ _ ⟨?_, rfl, ?_, ?_⟩⟩
  · rw [snapshot]
    decide
  · rw [start]
    decide
  · simp [Crawler.filtered, config, polledConfig]

end Daemon

end CephGeoRep
