import CephGeoRep.Crawler.Quiescence

/-!
# Timestamps and the clock

The watermark is the highest time that `check_for_change` has read of an entry of the base
directory. As long as entries carry true times it stays behind the clock, and a change is
found until it has been queued. An entry with a time to come moves the watermark past the
clock, and what is changed before that time is not found.
-/

namespace CephGeoRep

open Semantics

/-- A change of a file: the names on the way to it below the base directory, and the time.
`read` holds the times that the checks of the run had read before it, and `snapped` tells
whether a snapshot has been taken since. -/
structure Change where
  names : List CString
  stamp : Timespec
  read : List Timespec
  snapped : Bool
deriving DecidableEq

/-- What is noted of a run of `poll_base`: the clock, the times its checks have read,
whether it has taken a snapshot, and the changes made since then that it has not queued. -/
structure Timeline where
  now : Timespec
  read : List Timespec
  snapped : Bool
  pending : List Change

/-- The next change of a file. -/
structure Touch where
  names : List CString
  stamp : Timespec

/-- A time that has been read is not before `stamp`. -/
def NotBefore (stamp : Timespec) : Except NumeralError Timespec → Prop
  | .ok rctime => stamp ≤ rctime
  | .error _ => False

instance (stamp : Timespec) : ∀ read, Decidable (NotBefore stamp read)
  | .ok rctime => inferInstanceAs (Decidable (stamp ≤ rctime))
  | .error _ => .isFalse id

/-- A tree holds a change with its time on the file and on all directories above it. -/
def Listing.Holds (listing : Listing) (read : Attributes → Except NumeralError Timespec)
    (change : Change) : Prop :=
  ∃ route ∈ listing.routes, route.names = change.names ∧
    route.attributes.stat.isDir = false ∧ change.stamp ≤ route.attributes.stat.mtime ∧
    ∀ step ∈ route.above, NotBefore change.stamp (read step.2)

instance (listing : Listing) (read : Attributes → Except NumeralError Timespec)
    (change : Change) : Decidable (listing.Holds read change) :=
  inferInstanceAs (Decidable (∃ route ∈ listing.routes, route.names = change.names ∧
    route.attributes.stat.isDir = false ∧ change.stamp ≤ route.attributes.stat.mtime ∧
    ∀ step ∈ route.above, NotBefore change.stamp (read step.2)))

/-- The times of the entries of a directory, as `check_for_change` reads them. -/
def Listing.times (base : Listing) : List Timespec :=
  base.top.filterMap fun attributes => (getRctime attributes).toOption

/-- The search has queued a change that the snapshot holds. -/
def Daemon.queues (daemon : Daemon) (change : Change) : Bool :=
  change.snapped && daemon.snapshot.routes.any fun route =>
    route.names == change.names && daemon.fileList.contains (route.file daemon.snapPath)

/-- Keeps the timeline of the current run of `poll_base`. A change is noted once the run
has taken a snapshot, and the clock does not stand still. -/
def changes : Observer Daemon PollChoice Timeline Touch where
  start _ := ⟨.zero, [], false, []⟩
  note _ choice next timeline :=
    match choice with
    | .start .. => ⟨timeline.now, [], false, []⟩
    | .check base => { timeline with read := timeline.read ++ base.times }
    | .create _ =>
      { timeline with
        snapped := true
        pending := timeline.pending.map fun change => { change with snapped := true } }
    | .search _ =>
      { timeline with pending := timeline.pending.filter fun change => !next.queues change }
    | _ => timeline
  see _ touch timeline :=
    if timeline.snapped ∧ timeline.now < touch.stamp then
      some { timeline with
        now := touch.stamp
        pending := timeline.pending ++ [⟨touch.names, touch.stamp, timeline.read, false⟩] }
    else none

/-- The changes that have not been queued are in what is checked and in the snapshots, with
unfiltered names and with true times on the file and the directories above it. -/
def stamped (both : Observed Daemon Timeline) : PollChoice ⊕ Touch → Prop
  | .inl (.check base) => ∀ change ∈ both.record.pending, base.Holds getRctime change
  | .inl (.create snapshot) => snapshot.Proper ∧ ∀ change ∈ both.record.pending,
      snapshot.Holds (fun attributes => .ok (searchRctime attributes)) change ∧
      ∀ name ∈ change.names, both.state.crawler.filtered name = false
  | _ => True

instance (both : Observed Daemon Timeline) : ∀ choice, Decidable (stamped both choice)
  | .inl (.check base) => inferInstanceAs
      (Decidable (∀ change ∈ both.record.pending, base.Holds getRctime change))
  | .inl (.create snapshot) => inferInstanceAs (Decidable (snapshot.Proper ∧
      ∀ change ∈ both.record.pending,
        snapshot.Holds (fun attributes => .ok (searchRctime attributes)) change ∧
        ∀ name ∈ change.names, both.state.crawler.filtered name = false))
  | .inl (.start ..) | .inl .assign | .inl .createFails | .inl (.search _) | .inl .searchFails
  | .inl (.launch _) | .inl (.syncer _) | .inl (.deleteSnap _) | .inl (.flush _) | .inl .rest
  | .inl .close | .inl .signal | .inl .kill | .inr _ => .isTrue trivial

/-- Every time that a check has read before the change is before it. -/
def Change.Fair (change : Change) : Prop := ∀ time ∈ change.read, time < change.stamp

/-- `new_rctime` is not before a time read so far, and before every change that is left. -/
structure Timeline.Told (timeline : Timeline) (newRctime : Timespec) : Prop where
  highest : ∀ time ∈ timeline.read, time ≤ newRctime
  left : ∀ change ∈ timeline.pending, change.Fair → newRctime < change.stamp

namespace Daemon

/-- What the timeline says about the watermark. -/
def Timed (daemon : Daemon) (timeline : Timeline) : PollControl → Prop
  | .checking =>
    (∀ time ∈ timeline.read, time ≤ daemon.crawler.lastRctime) ∧
      (timeline.snapped = true →
        daemon.crawler.lastRctime = daemon.newRctime ∧ timeline.Told daemon.newRctime)
  | .creating =>
    (∀ time ∈ timeline.read, time ≤ daemon.newRctime) ∧
      ∀ change ∈ timeline.pending, change.Fair → daemon.crawler.lastRctime < change.stamp
  | .searching =>
    (∀ time ∈ timeline.read, time ≤ daemon.newRctime) ∧
      daemon.snapshot.Proper ∧
      ∀ change ∈ timeline.pending,
        (change.Fair → daemon.crawler.lastRctime < change.stamp) ∧
        (change.snapped = true →
          daemon.snapshot.Holds (fun attributes => .ok (searchRctime attributes)) change ∧
          ∀ name ∈ change.names, daemon.crawler.filtered name = false) ∧
        (change.snapped = false → change.Fair → daemon.newRctime < change.stamp)
  | .update _ .loop | .updateNsec _ .loop =>
    timeline.read = [] ∧ timeline.snapped = false
  | .launching | .syncing | .deleting | .update _ .flush | .updateNsec _ .flush | .flushing =>
    timeline.Told daemon.newRctime
  | .resting => daemon.flags.dryRun = false →
    (∀ time ∈ timeline.read, time ≤ daemon.crawler.lastRctime) ∧
      (timeline.snapped = true →
        daemon.crawler.lastRctime = daemon.newRctime ∧ timeline.Told daemon.newRctime)
  | .update _ .close | .updateNsec _ .close | .stopped | .closing => True

/-- The timeline of a run. -/
structure Clocked (daemon : Daemon) (timeline : Timeline) : Prop where
  clock : .zero ≤ timeline.now
  source : daemon.newRctime = .zero ∨ daemon.newRctime ∈ timeline.read
  snapped : timeline.snapped = false → timeline.pending = []
  pending : ∀ change ∈ timeline.pending, .zero < change.stamp ∧
    ∀ time ∈ change.read, time ∈ timeline.read
  timed : daemon.Timed timeline daemon.control

variable {tokenize : CString → CString → List CString} {capacity : Nat} {daemon next : Daemon}
  {choice : PollChoice} {timeline : Timeline} {change : Change}

/-! ## What the steps do -/

theorem mem_times {base : Listing} {time : Timespec} :
    time ∈ base.times ↔ time ∈ rctimes base.top := by
  simp only [Listing.times, List.mem_filterMap, rctimes, Set.mem_ofPred_eq]
  refine exists_congr fun attributes => and_congr_right fun _ => ?_
  cases getRctime attributes <;> simp [Except.toOption]

/-- A search finds the changes in its snapshot that are newer than the watermark. -/
theorem queues_of_search (extensible : Extensible daemon.snapPath)
    (proper : daemon.snapshot.Proper) (snapped : change.snapped = true)
    (newer : daemon.crawler.lastRctime < change.stamp)
    (holds : daemon.snapshot.Holds (fun attributes => .ok (searchRctime attributes)) change)
    (unfiltered : ∀ name ∈ change.names, daemon.crawler.filtered name = false)
    {fileList : List File}
    (found : fileList.Perm
      (daemon.snapshot.newFiles daemon.crawler daemon.snapPath daemon.snapPath)) :
    (daemon.afterSearch fileList).queues change = true := by
  obtain ⟨route, member, names, regular, file, above⟩ := holds
  have wants : daemon.crawler.wants route = true :=
    (wants_iff regular (names ▸ unfiltered)).mpr
      ⟨newer.trans_le file, fun step listed => newer.trans_le (above step listed)⟩
  have queued : route.file daemon.snapPath ∈ fileList :=
    found.mem_iff.mpr ((mem_newFiles_iff extensible proper member regular).mpr wants)
  simp only [queues, snapped, Bool.true_and, List.any_eq_true]
  refine ⟨route, member, ?_⟩
  rw [names, beq_self_eq_true, Bool.true_and, List.contains_iff_mem]
  exact queued

/-- A change that is before no time read so far is after `new_rctime`. -/
theorem Clocked.newRctime_lt (clocked : daemon.Clocked timeline) {stamp : Timespec}
    (later : timeline.now < stamp) (fair : ∀ time ∈ timeline.read, time < stamp) :
    daemon.newRctime < stamp := by
  rcases clocked.source with zero | read
  · rw [zero]
    exact clocked.clock.trans_lt later
  · exact fair _ read

/-- A change of a file keeps what the timeline says. -/
theorem Clocked.touch (clocked : daemon.Clocked timeline) (phase : daemon.Phase daemon.control)
    {touch : Touch} {after : Timeline} (seen : changes.see daemon touch timeline = some after) :
    daemon.Clocked after := by
  simp only [changes, Option.ite_none_right_eq_some, Option.some.injEq] at seen
  obtain ⟨⟨snapped, later⟩, rfl⟩ := seen
  have behind : (∀ time ∈ timeline.read, time < touch.stamp) → daemon.newRctime < touch.stamp :=
    clocked.newRctime_lt later
  have ahead : daemon.Ahead → (∀ time ∈ timeline.read, time < touch.stamp) →
      daemon.crawler.lastRctime < touch.stamp := fun ahead fair =>
    (ahead.1 ▸ ahead.2).trans (behind fair)
  have told : timeline.Told daemon.newRctime → Timeline.Told { timeline with
      now := touch.stamp
      pending := timeline.pending ++ [⟨touch.names, touch.stamp, timeline.read, false⟩] }
      daemon.newRctime := by
    refine fun told => ⟨told.highest, fun change member fair => ?_⟩
    rcases List.mem_append.mp member with old | new
    · exact told.left change old fair
    · rw [List.mem_singleton.mp new] at fair ⊢
      exact behind fair
  have timed := clocked.timed
  refine ⟨clocked.clock.trans later.le, clocked.source, fun none => ?_, fun change member => ?_, ?_⟩
  · cases snapped.symm.trans none
  · rcases List.mem_append.mp member with old | new
    · exact clocked.pending change old
    · rw [List.mem_singleton.mp new]
      exact ⟨clocked.clock.trans_lt later, fun time read => read⟩
  · generalize here : daemon.control = control at timed phase ⊢
    have settled : ((∀ time ∈ timeline.read, time ≤ daemon.crawler.lastRctime) ∧
        (timeline.snapped = true →
          daemon.crawler.lastRctime = daemon.newRctime ∧ timeline.Told daemon.newRctime)) → _ :=
      fun settled => And.intro settled.1 fun snapped =>
        And.intro (settled.2 snapped).1 (told (settled.2 snapped).2)
    cases control with
    | checking => exact settled timed
    | resting => exact fun plain => settled (timed plain)
    | creating =>
        refine ⟨timed.1, fun change member fair => ?_⟩
        rcases List.mem_append.mp member with old | new
        · exact timed.2 change old fair
        · rw [List.mem_singleton.mp new] at fair ⊢
          exact ahead phase fair
    | searching =>
        refine ⟨timed.1, timed.2.1, fun change member => ?_⟩
        rcases List.mem_append.mp member with old | new
        · exact timed.2.2 change old
        · rw [List.mem_singleton.mp new]
          exact ⟨ahead phase.1, nofun, fun _ => behind⟩
    | update newRctime after =>
        cases after with
        | loop => cases snapped.symm.trans timed.2
        | flush => exact told timed
        | close => trivial
    | updateNsec newRctime after =>
        cases after with
        | loop => cases snapped.symm.trans timed.2
        | flush => exact told timed
        | close => trivial
    | launching | syncing | deleting | flushing => exact told timed
    | stopped | closing => trivial

theorem clocked_of_check {base : Listing} (clocked : daemon.Clocked timeline)
    (timed : daemon.Timed timeline .checking) :
    (daemon.check base).Clocked { timeline with read := timeline.read ++ base.times } := by
  have pending : ∀ change ∈ timeline.pending, .zero < change.stamp ∧
      ∀ time ∈ change.read, time ∈ timeline.read ++ base.times := fun change member =>
    ⟨(clocked.pending change member).1, fun time read =>
      List.mem_append_left _ ((clocked.pending change member).2 time read)⟩
  have source : daemon.newRctime = .zero ∨ daemon.newRctime ∈ timeline.read ++ base.times :=
    clocked.source.imp_right fun read => List.mem_append_left _ read
  rw [check]
  split
  · next change newRctime returned =>
    refine ⟨clocked.clock, ?_, clocked.snapped, pending, ?_⟩
    · rcases (checkForChange_spec returned).2.2.2 with same | ⟨attributes, member, read⟩
      · rw [show newRctime = daemon.newRctime from same]
        exact source
      · exact .inr (List.mem_append_right _ (mem_times.mpr ⟨attributes, member, read⟩))
    · cases change with
      | true =>
          obtain ⟨later, above⟩ := checkForChange_true returned
          refine ⟨fun time member => ?_, fun change member fair => ?_⟩
          · rcases List.mem_append.mp member with old | new
            · exact (timed.1 time old).trans later.le
            · exact above time (mem_times.mp new)
          · show daemon.crawler.lastRctime < change.stamp
            cases snapped : timeline.snapped with
            | false =>
                rw [clocked.snapped snapped] at member
                cases member
            | true =>
                obtain ⟨same, told⟩ := timed.2 snapped
                rw [same]
                exact told.left change member fair
      | false =>
          obtain ⟨old, same⟩ := checkForChange_false returned
          have read : ∀ time ∈ timeline.read ++ base.times, time ≤ daemon.crawler.lastRctime := by
            intro time member
            rcases List.mem_append.mp member with before | new
            · exact timed.1 time before
            · exact old time (mem_times.mp new)
          refine fun _ => ⟨read, fun snapped => ?_⟩
          obtain ⟨settled, told⟩ := timed.2 snapped
          rw [same]
          exact ⟨settled, fun time member => settled ▸ read time member, told.left⟩
  · exact ⟨clocked.clock, source, clocked.snapped, pending, trivial⟩

theorem clocked_of_create {snapshot : Listing} {snapPath : CString}
    (clocked : daemon.Clocked timeline) (timed : daemon.Timed timeline .creating)
    (allowed : stamped ⟨daemon, timeline⟩ (.inl (.create snapshot))) :
    Clocked { daemon with
        snapPath := snapPath, snapshot := snapshot, control := .searching }
      { timeline with
        snapped := true
        pending := timeline.pending.map fun change => { change with snapped := true } } := by
  obtain ⟨proper, held⟩ := allowed
  refine ⟨clocked.clock, clocked.source, nofun, fun change member => ?_, timed.1, proper,
    fun change member => ?_⟩
  · obtain ⟨old, listed, rfl⟩ := List.mem_map.mp member
    exact clocked.pending old listed
  · obtain ⟨old, listed, rfl⟩ := List.mem_map.mp member
    exact ⟨timed.2 old listed, fun _ => held old listed, nofun⟩

theorem clocked_of_search {schedule : List Schedule} {result : List File × Nat}
    (clocked : daemon.Clocked timeline) (timed : daemon.Timed timeline .searching)
    (extensible : Extensible daemon.snapPath) (workers : 0 < daemon.crawler.config.threads)
    (found : daemon.crawler.triggerSearch daemon.snapPath daemon.snapshot schedule =
      some result) :
    (daemon.afterSearch result.1).Clocked { timeline with
      pending := timeline.pending.filter fun change =>
        !(daemon.afterSearch result.1).queues change } := by
  obtain ⟨highest, proper, pending⟩ := timed
  have told : Timeline.Told { timeline with
      pending := timeline.pending.filter fun change =>
        !(daemon.afterSearch result.1).queues change } daemon.newRctime := by
    refine ⟨highest, fun change member fair => ?_⟩
    obtain ⟨listed, left⟩ := List.mem_filter.mp member
    obtain ⟨newer, held, fresh⟩ := pending change listed
    cases snapped : change.snapped with
    | false => exact fresh snapped fair
    | true =>
        have queued := queues_of_search extensible proper snapped (newer fair) (held snapped).1
          (held snapped).2 (perm_of_triggerSearch workers found)
        rw [queued] at left
        cases left
  refine ⟨clocked.clock, clocked.source, fun none => ?_, fun change member => ?_, ?_⟩
  · simp only
    rw [clocked.snapped none, List.filter_nil]
  · exact clocked.pending change (List.mem_filter.mp member).1
  · rcases daemon.afterSearch_control result.1 with control | control
    · rw [control]
      exact told
    · rw [control]
      exact told

theorem clocked_of_begin {pid argMax envpSize} {config : Config} {flags : Flags}
    (clocked : daemon.Clocked timeline)
    (begun : daemon.begin tokenize pid config flags argMax envpSize = some next) :
    next.Clocked ⟨timeline.now, [], false, []⟩ := by
  obtain ⟨lastRctime, content, read, rfl⟩ := eq_of_begin begun
  refine ⟨clocked.clock, .inl rfl, fun _ => rfl,
    fun change member => absurd member List.not_mem_nil, ?_⟩
  cases seed : flags.seed with
  | true => exact ⟨rfl, rfl⟩
  | false =>
      exact ⟨fun time member => absurd member List.not_mem_nil,
        fun snapped => absurd snapped Bool.false_ne_true⟩

theorem clocked_of_rest (clocked : daemon.Clocked timeline)
    (timed : daemon.Timed timeline .resting) : daemon.rest.Clocked timeline := by
  rw [Daemon.rest]
  split
  · split <;> exact ⟨clocked.clock, clocked.source, clocked.snapped, clocked.pending, trivial⟩
  · next plain =>
    have dryRun : daemon.flags.dryRun = false := by
      simp only [Bool.or_eq_true, not_or, Bool.not_eq_true] at plain
      exact plain.1.2
    exact ⟨clocked.clock, clocked.source, clocked.snapped, clocked.pending, timed dryRun⟩

/-- Every move keeps what the timeline says. -/
theorem Clocked.of_move (clocked : daemon.Clocked timeline) (phase : daemon.Phase daemon.control)
    (allowed : stamped ⟨daemon, timeline⟩ (.inl choice))
    (move : Move tokenize capacity daemon choice next) :
    next.Clocked (changes.note daemon choice next timeline) := by
  have timed := clocked.timed
  have keep : ∀ {next : Daemon}, next.newRctime = daemon.newRctime →
      next.Timed timeline next.control → next.Clocked timeline := by
    intro next same timed
    exact ⟨clocked.clock, same ▸ clocked.source, clocked.snapped, clocked.pending, timed⟩
  cases move with
  | start _ begun => exact clocked_of_begin clocked begun
  | check here => exact clocked_of_check clocked (here ▸ timed)
  | create here => exact clocked_of_create clocked (here ▸ timed) allowed
  | search here workers found =>
      rw [here] at timed phase
      exact clocked_of_search clocked timed phase.2 workers found
  | rest here => exact clocked_of_rest clocked (here ▸ timed)
  | assignSec here =>
      rw [here] at timed
      refine keep rfl ?_
      rename_i after
      cases after <;> exact timed
  | assignNsec here =>
      rw [here] at timed
      refine keep rfl ?_
      rename_i after
      cases after with
      | loop =>
          obtain ⟨none, fresh⟩ := timed
          refine ⟨fun time member => ?_, fun snapped => ?_⟩
          · rw [none] at member
            cases member
          · cases fresh.symm.trans snapped
      | flush => exact timed
      | close => trivial
  | launch here _ =>
      rw [here] at timed
      exact keep rfl timed
  | sync here _ _ _ =>
      refine keep rfl ?_
      simp only [here] at timed ⊢
      exact timed
  | synced here _ _ _ =>
      rw [here] at timed
      exact keep rfl timed
  | deleteSnap here =>
      rw [here] at timed
      refine keep rfl ?_
      simp only
      split
      · next dryRun => exact fun plain => absurd (dryRun.symm.trans plain) (by simp)
      · exact timed
  | @flush due here =>
      rw [here] at timed phase
      have same : daemon.crawler.lastRctime = daemon.newRctime := phase.1
      have settled : daemon.Timed timeline .resting := fun _ =>
        ⟨fun time member => same ▸ timed.highest time member, fun _ => ⟨same, timed⟩⟩
      cases due <;> exact keep rfl settled
  | noWorkers _ _ =>
      refine ⟨clocked.clock, clocked.source, fun none => ?_, fun change member => ?_, trivial⟩
      · simp only [changes]
        rw [clocked.snapped none, List.filter_nil]
      · exact clocked.pending change (List.mem_filter.mp member).1
  | searchFails | syncFails | close | createFails | keepSnap | signal | kill =>
      exact keep rfl trivial

variable {both : Observed Daemon Timeline}

theorem clocked_invariant : (changes.watch (pollMachine tokenize capacity)).Invariant stamped
    fun both => both.state.Clocked both.record := by
  refine Observer.invariant ?_ ?_ ?_
  · rintro _ ⟨disk, rfl⟩
    exact ⟨le_refl _, .inl rfl, fun _ => rfl, nofun, trivial⟩
  · intro both choice next reachable clocked allowed taken
    exact clocked.of_move (phase_of_observed reachable rfl) allowed (moves_of_step taken)
  · intro both touch record reachable clocked _ seen
    exact clocked.touch (phase_of_observed reachable rfl) seen

/-- Whether an iteration is about to be told of a change. -/
theorem lt_stamp_iff (clocked : daemon.Clocked timeline) (here : daemon.control = .checking)
    (member : change ∈ timeline.pending) :
    daemon.crawler.lastRctime < change.stamp ↔ change.Fair := by
  have timed := clocked.timed
  rw [here] at timed
  have snapped : timeline.snapped = true := by
    by_contra fresh
    rw [clocked.snapped (by simpa using fresh)] at member
    cases member
  obtain ⟨same, told⟩ := timed.2 snapped
  constructor
  · intro newer time read
    exact (timed.1 time ((clocked.pending change member).2 time read)).trans_lt newer
  · intro fair
    rw [same]
    exact told.left change member fair

/-- A check that finds a change newer than the watermark leads to a snapshot. -/
theorem creating_of_holds {base : Listing} (holds : base.Holds getRctime change)
    (newer : daemon.crawler.lastRctime < change.stamp)
    (readable : ∀ attributes ∈ base.top, ∃ rctime, getRctime attributes = .ok rctime) :
    (daemon.check base).control = .creating := by
  obtain ⟨route, member, _, regular, file, above⟩ := holds
  obtain ⟨top, listed, same⟩ := Listing.top_of_routes member
  obtain ⟨rctime, read⟩ := readable top listed
  have later : change.stamp ≤ rctime := by
    rcases same with rfl | ⟨step, onTheWay, rfl⟩
    · rw [getRctime_file regular] at read
      exact Except.ok.inj read ▸ file
    · have notBefore := above step onTheWay
      rw [read] at notBefore
      exact notBefore
  exact creating_of_newer readable listed read (newer.trans_le later)

/-- At each check a change that has not been queued is newer than the watermark if and
only if all times that had been read before it are before it. Then the check leads to a
snapshot, and the search of a snapshot that holds the change queues it. -/
theorem silence_of_reachable
    (reachable : (changes.watch (pollMachine tokenize capacity)).Reachable stamped both)
    (pending : change ∈ both.record.pending) :
    (both.state.control = .checking →
      (both.state.crawler.lastRctime < change.stamp ↔ ∀ time ∈ change.read, time < change.stamp)) ∧
    ((∀ time ∈ change.read, time < change.stamp) →
      (both.state.control = .checking → ∀ base : Listing, base.Holds getRctime change →
        (∀ attributes ∈ base.top, ∃ rctime, getRctime attributes = .ok rctime) →
        (both.state.check base).control = .creating) ∧
      (both.state.control = .searching → both.state.crawler.lastRctime < change.stamp ∧
        (change.snapped = true → ∀ schedule next,
          both.state.step tokenize capacity (.search schedule) = some next →
          next.control ≠ .stopped → next.queues change = true))) := by
  have clocked := clocked_invariant.of_reachable reachable
  refine ⟨fun here => lt_stamp_iff clocked here pending, fun fair => ⟨?_, ?_⟩⟩
  · intro here base holds readable
    exact creating_of_holds holds ((lt_stamp_iff clocked here pending).mpr fair) readable
  · intro here
    have timed := clocked.timed
    rw [here] at timed
    obtain ⟨_, proper, left⟩ := timed
    obtain ⟨newer, held, _⟩ := left change pending
    refine ⟨newer fair, fun snapped schedule next taken running => ?_⟩
    obtain ⟨holds, unfiltered⟩ := held snapped
    have extensible := (phase_of_observed reachable here).2
    cases moves_of_step taken with
    | search _ workers found =>
        exact queues_of_search extensible proper snapped (newer fair) holds unfiltered
          (perm_of_triggerSearch workers found)
    | noWorkers => exact absurd rfl running

/-- One iteration over a base directory with a single file, from its check to the next one. -/
def stampRun (mtime : Timespec) : List PollChoice :=
  let base := Listing.entry "a".toList { stat := ⟨false, 3, mtime⟩, rctime := none } .nil .nil
  let snapPath := createSnapPath polledConfig.basePath 42 mtime
  let files := base.newFiles ⟨polledConfig, .zero⟩ snapPath snapPath
  ([.start 42 polledConfig ⟨false, false, false, false⟩ 2097152 1024, .check base,
    .create base, .search [], .launch files, .syncer (.fork 11)] : List PollChoice) ++
  (childExits 0 0).map .syncer ++
  ([.syncer (.wait 0 true), .syncer .afterRound, .deleteSnap true, .assign, .assign,
    .flush false, .rest] : List PollChoice)

/-- The directory after `b` has been written at second 10. -/
def stampedBase (mtime : Timespec) : Listing :=
  .entry "a".toList { stat := ⟨false, 3, mtime⟩, rctime := none } .nil
    (.entry "b".toList { stat := ⟨false, 4, ⟨10, 0⟩⟩, rctime := none } .nil .nil)

/-- Beside a file of second 7 the new one is found. -/
theorem silence_of_stampRun : ∃ both : Observed Daemon Timeline,
    (∃ change ∈ both.record.pending, change.stamp = ⟨10, 0⟩ ∧
      both.state.crawler.lastRctime < change.stamp) ∧
    (both.state.check (stampedBase ⟨7, 0⟩)).control = .creating := by
  have executed : ((changes.watch (pollMachine plainTokens 4)).run stamped
      ⟨.initial none, ⟨.zero, [], false, []⟩⟩
      ((stampRun ⟨7, 0⟩).map .inl ++ [.inr ⟨["b".toList], ⟨10, 0⟩⟩])).any
      (fun both => decide (both.state.control = .checking ∧
        both.record.pending = [⟨["b".toList], ⟨10, 0⟩, [⟨7, 0⟩], false⟩])) = true := by
    decide +kernel
  have valid : (changes.watch (pollMachine plainTokens 4)).Initial
      ⟨.initial none, ⟨.zero, [], false, []⟩⟩ := ⟨⟨none, rfl⟩, rfl⟩
  obtain ⟨both, reachable, ended⟩ := Machine.exists_of_run valid executed
  obtain ⟨checking, left⟩ := of_decide_eq_true ended
  have member : (⟨["b".toList], ⟨10, 0⟩, [⟨7, 0⟩], false⟩ : Change) ∈ both.record.pending := by
    rw [left]
    exact List.mem_singleton_self _
  obtain ⟨judged, found⟩ := silence_of_reachable reachable member
  refine ⟨both, ⟨_, member, rfl, (judged checking).mpr (by decide)⟩, ?_⟩
  exact (found (by decide)).1 checking (stampedBase ⟨7, 0⟩) (by decide +kernel)
    fun attributes listed =>
    ⟨_, getRctime_file (by revert attributes; decide)⟩

/-- Beside a file of second 1000 it is not: the next iteration takes no snapshot. -/
theorem silent_of_stampRun : ∃ both : Observed Daemon Timeline,
    (changes.watch (pollMachine plainTokens 4)).Reachable stamped both ∧
    both.state.control = .checking ∧
    (∃ change ∈ both.record.pending, ¬ both.state.crawler.lastRctime < change.stamp) ∧
    stamped both (.inl (.check (stampedBase ⟨1000, 0⟩))) ∧
    (both.state.check (stampedBase ⟨1000, 0⟩)).control = .resting := by
  have executed : ((changes.watch (pollMachine plainTokens 4)).run stamped
      ⟨.initial none, ⟨.zero, [], false, []⟩⟩
      ((stampRun ⟨1000, 0⟩).map .inl ++ [.inr ⟨["b".toList], ⟨10, 0⟩⟩])).any
      (fun both => decide (both.state.control = .checking ∧
        (∃ change ∈ both.record.pending, ¬ both.state.crawler.lastRctime < change.stamp) ∧
        stamped both (.inl (.check (stampedBase ⟨1000, 0⟩))) ∧
        (both.state.check (stampedBase ⟨1000, 0⟩)).control = .resting)) = true := by
    decide +kernel
  have valid : (changes.watch (pollMachine plainTokens 4)).Initial
      ⟨.initial none, ⟨.zero, [], false, []⟩⟩ := ⟨⟨none, rfl⟩, rfl⟩
  obtain ⟨both, reachable, ended⟩ := Machine.exists_of_run valid executed
  exact ⟨both, reachable, of_decide_eq_true ended⟩

end Daemon

end CephGeoRep
