import CephGeoRep.Crawler.Watermark

/-!
# Directories that cannot be read

A failing `lgetxattr` reads as the rctime 0.0, so the search prunes the directory with all
that is below it, and the watermark moves on all the same. What is new below such a
directory is only found while the watermark is negative.
-/

namespace CephGeoRep

open Semantics

/-- `lgetxattr` succeeds for the directory. -/
def Attributes.readable (attributes : Attributes) : Bool := attributes.rctime.isSome

/-- Ceph has propagated the times of the files to the directories that can be read. -/
def Listing.TrickledWhereRead (listing : Listing) : Prop :=
  ∀ directory ∈ listing.directories, directory.1.readable = true →
    directory.2.NoneNewer (.ok (searchRctime directory.1))

instance (listing : Listing) : Decidable listing.TrickledWhereRead :=
  inferInstanceAs (Decidable (∀ directory ∈ listing.directories, directory.1.readable = true →
    directory.2.NoneNewer (.ok (searchRctime directory.1))))

theorem searchRctime_unreadable {attributes : Attributes} (directory : attributes.stat.isDir = true)
    (unreadable : attributes.readable = false) : searchRctime attributes = .zero := by
  have none : attributes.rctime = none := by simpa [Attributes.readable] using unreadable
  simp [searchRctime, getRctimeOfFile, directory, none]

namespace Daemon

/-- A file of the snapshot that is due in this iteration, with unfiltered names on the way
to it, below a directory that cannot be read. -/
structure AtRisk (daemon : Daemon) (route : Route) : Prop where
  member : route ∈ daemon.snapshot.routes
  regular : route.attributes.stat.isDir = false
  newer : daemon.startRctime < route.attributes.stat.mtime
  due : route.attributes.stat.mtime ≤ daemon.newRctime
  unfiltered : ∀ name ∈ route.names, daemon.crawler.filtered name = false
  unreadable : ∃ step ∈ route.above, step.2.readable = false

variable {tokenize : CString → CString → List CString} {capacity : Nat} {daemon : Daemon}
  {newRctime : Timespec} {route : Route}

/-- Whether a file at risk is queued is decided by the directories above it. -/
theorem AtRisk.queued_iff (atRisk : daemon.AtRisk route) (extensible : Extensible daemon.snapPath)
    (searched : daemon.Searched) (proper : daemon.snapshot.Proper) :
    route.file daemon.snapPath ∈ daemon.fileList ↔
      ∀ step ∈ route.above, daemon.startRctime < searchRctime step.2 := by
  have wanted : daemon.startCrawler.wants route = true ↔ _ :=
    wants_iff atRisk.regular atRisk.unfiltered
  rw [List.Perm.mem_iff searched,
    mem_newFiles_iff extensible proper atRisk.member atRisk.regular, wanted]
  exact and_iff_right atRisk.newer

/-- Where Ceph has propagated the times, only a negative watermark opens the directories
above a file at risk. -/
theorem AtRisk.opened_iff (atRisk : daemon.AtRisk route)
    (trickled : daemon.snapshot.TrickledWhereRead) :
    (∀ step ∈ route.above, daemon.startRctime < searchRctime step.2) ↔
      daemon.startRctime < .zero := by
  constructor
  · intro opened
    obtain ⟨step, above, unreadable⟩ := atRisk.unreadable
    have directory := Listing.isDir_of_above atRisk.member above
    rw [← searchRctime_unreadable directory unreadable]
    exact opened step above
  · intro negative step above
    cases readable : step.2.readable with
    | true =>
        obtain ⟨children, directory, names, contains⟩ :=
          Listing.directory_of_above atRisk.member above
        have covered := trickled _ directory readable _ contains atRisk.regular
        exact atRisk.newer.trans_le covered
    | false =>
        rw [searchRctime_unreadable (Listing.isDir_of_above atRisk.member above) readable]
        exact negative

/-- `last_rctime_.update(new_rctime)` in its two assignments. -/
theorem assigned_of_update (here : daemon.control = .update newRctime .flush) : ∃ final,
    (pollMachine tokenize capacity).Steps Machine.unguarded daemon [.assign, .assign] final ∧
      final.crawler.lastRctime = newRctime := by
  have first : daemon.step tokenize capacity .assign =
      some { daemon.setRctime ⟨newRctime.tvSec, daemon.crawler.lastRctime.tvNsec⟩ with
        control := .updateNsec newRctime .flush } := by
    rw [Daemon.step, here]
  have steps : (pollMachine tokenize capacity).Steps Machine.unguarded daemon [.assign] _ :=
    .single trivial (show daemon.step tokenize capacity .assign = _ from first)
  exact ⟨_, steps.trans (.single trivial rfl), rfl⟩

/-- An iteration that is about to move the watermark has queued the files at risk if and
only if all directories above them are newer than the old watermark as the search reads
them. Where Ceph has propagated the times to the directories that can be read, that is a
negative watermark, unless there is nothing at risk. -/
theorem readErrors_of_reachable
    (reachable : (pollMachine tokenize capacity).Reachable Machine.unguarded daemon)
    (here : daemon.control = .update newRctime .flush) (proper : daemon.snapshot.Proper) :
    (newRctime = daemon.newRctime ∧ ∃ final,
      (pollMachine tokenize capacity).Steps Machine.unguarded daemon [.assign, .assign] final ∧
        final.crawler.lastRctime = newRctime) ∧
    ((∀ route, daemon.AtRisk route → route.file daemon.snapPath ∈ daemon.fileList) ↔
      ∀ route, daemon.AtRisk route → ∀ step ∈ route.above,
        daemon.startRctime < searchRctime step.2) ∧
    (daemon.snapshot.TrickledWhereRead →
      ((∀ route, daemon.AtRisk route → route.file daemon.snapPath ∈ daemon.fileList) ↔
        daemon.startRctime < .zero ∨ ∀ route, ¬ daemon.AtRisk route)) := by
  obtain ⟨same, _, extensible, searched⟩ := phase_of_reachable reachable here
  have queued : ∀ route, daemon.AtRisk route → _ := fun route atRisk =>
    atRisk.queued_iff extensible searched proper
  refine ⟨⟨same, assigned_of_update here⟩,
    forall_congr' fun route => forall_congr' (queued route), fun trickled => ?_⟩
  constructor
  · intro all
    by_cases some : ∃ route, daemon.AtRisk route
    · obtain ⟨route, atRisk⟩ := some
      exact .inl ((atRisk.opened_iff trickled).mp ((queued route atRisk).mp (all route atRisk)))
    · exact .inr (not_exists.mp some)
  · rintro (negative | none) route atRisk
    · exact (queued route atRisk).mpr ((atRisk.opened_iff trickled).mpr negative)
    · exact absurd atRisk (none route)

/-- `Search.smallTree` with a directory that cannot be read. -/
def unreadableTree : Listing :=
  .entry "a".toList { stat := ⟨false, 3, ⟨5, 0⟩⟩, rctime := none } .nil
    (.entry "d".toList { stat := ⟨true, 0, ⟨5, 0⟩⟩, rctime := none }
      (.entry "b".toList { stat := ⟨false, 4, ⟨7, 0⟩⟩, rctime := none } .nil .nil) .nil)

/-- The file in that directory. -/
def unreadableRoute : Route where
  above := [("d".toList, { stat := ⟨true, 0, ⟨5, 0⟩⟩, rctime := none })]
  name := "b".toList
  attributes := { stat := ⟨false, 4, ⟨7, 0⟩⟩, rctime := none }

/-- One iteration whose search cannot read the directory, from a watermark to its update. -/
def unreadableRun (lastRctime : Timespec) : List PollChoice :=
  let snapPath := createSnapPath polledConfig.basePath 42 ⟨7, 0⟩
  let files := unreadableTree.newFiles ⟨polledConfig, lastRctime⟩ snapPath snapPath
  ([.start 42 polledConfig ⟨false, false, false, true⟩ 2097152 1024, .check Search.smallTree,
    .create unreadableTree, .search [], .launch files, .syncer (.fork 11)] : List PollChoice) ++
  (childExits 0 0).map .syncer ++
  ([.syncer (.wait 0 true), .syncer .afterRound, .deleteSnap true] : List PollChoice)

theorem atRisk_unreadableRoute (snapshot : daemon.snapshot = unreadableTree)
    (config : daemon.crawler.config = polledConfig) (start : daemon.startRctime < ⟨7, 0⟩)
    (due : daemon.newRctime = ⟨7, 0⟩) : daemon.AtRisk unreadableRoute where
  member := by
    rw [snapshot]
    decide
  regular := rfl
  newer := start
  due := due.ge
  unfiltered _ _ := by simp [Crawler.filtered, config, polledConfig]
  unreadable := ⟨_, List.mem_singleton_self _, rfl⟩

/-- From the watermark -1.0 the file in the directory is queued. -/
theorem readErrors_of_negativeRun : ∃ daemon : Daemon,
    daemon.startRctime = ⟨-1, 0⟩ ∧ unreadableRoute.file daemon.snapPath ∈ daemon.fileList := by
  have executed : ((pollMachine plainTokens 4).run Machine.unguarded
      (.initial (some "-1.0\n".toList)) (unreadableRun ⟨-1, 0⟩)).any
      (fun daemon => decide (daemon.control = .update ⟨7, 0⟩ .flush ∧
        daemon.startRctime = ⟨-1, 0⟩ ∧ daemon.newRctime = ⟨7, 0⟩ ∧
        daemon.snapshot = unreadableTree ∧ daemon.crawler.config = polledConfig)) = true := by
    decide +kernel
  obtain ⟨daemon, reachable, ended⟩ := Machine.exists_of_run (initial_valid _) executed
  obtain ⟨here, start, due, snapshot, config⟩ := of_decide_eq_true ended
  have proper : daemon.snapshot.Proper := by
    rw [snapshot]
    decide
  have trickled : daemon.snapshot.TrickledWhereRead := by
    rw [snapshot]
    decide
  have negative : daemon.startRctime < .zero := by
    rw [start]
    decide
  have atRisk := atRisk_unreadableRoute snapshot config (by rw [start]; decide) due
  have queued := ((readErrors_of_reachable reachable here proper).2.2 trickled).mpr (.inl negative)
  exact ⟨daemon, start, queued _ atRisk⟩

/-- From the watermark 0.0 it is lost: it is due, not queued, and not newer than the new
watermark. -/
theorem lost_of_unreadableRun : ∃ daemon : Daemon,
    (pollMachine plainTokens 4).Reachable Machine.unguarded daemon ∧
    daemon.AtRisk unreadableRoute ∧ daemon.crawler.lastRctime = ⟨7, 0⟩ ∧
    unreadableRoute.file daemon.snapPath ∉ daemon.fileList ∧
    ¬ daemon.crawler.lastRctime < unreadableRoute.attributes.stat.mtime := by
  have executed : ((pollMachine plainTokens 4).run Machine.unguarded (.initial none)
      (unreadableRun .zero ++ [.assign, .assign])).any
      (fun daemon => decide (daemon.startRctime = .zero ∧ daemon.newRctime = ⟨7, 0⟩ ∧
        daemon.snapshot = unreadableTree ∧ daemon.crawler.config = polledConfig ∧
        daemon.crawler.lastRctime = ⟨7, 0⟩ ∧
        unreadableRoute.file daemon.snapPath ∉ daemon.fileList)) = true := by
    decide +kernel
  obtain ⟨daemon, reachable, ended⟩ := Machine.exists_of_run (initial_valid _) executed
  obtain ⟨start, due, snapshot, config, last, lost⟩ := of_decide_eq_true ended
  refine ⟨daemon, reachable, atRisk_unreadableRoute snapshot config (by rw [start]; decide) due,
    last, lost, ?_⟩
  rw [last]
  decide

end Daemon

end CephGeoRep
