import CephGeoRep.Crawler.Liveness
import CephGeoRep.Crawler.Watermark

/-!
# Seeding

A run with `seed` lowers the watermark to 1.0 instead of passing the comparison by. Every
directory is opened that is younger than that, but a file whose mtime is not is left out.
-/

namespace CephGeoRep

open Semantics

/-- The search always has an outcome. -/
theorem Crawler.exists_triggerSearch (crawler : Crawler) (snapPath : CString)
    (snapshot : Listing) :
    ∃ schedule result, crawler.triggerSearch snapPath snapshot schedule = some result := by
  by_cases one : crawler.config.threads = 1
  · exact ⟨[], _, by rw [triggerSearch, if_pos one]⟩
  · obtain ⟨schedule, final, steps, returned⟩ := Search.exists_completion
      (.initial (show (searchMachine crawler snapPath snapshot crawler.config.threads.toNat).Initial
        (.start snapPath snapshot crawler.config.threads.toNat) from rfl))
    refine ⟨schedule, (final.fileList, final.totalBytes), ?_⟩
    rw [triggerSearch, if_neg one]
    simp only [Machine.run_of_steps steps, if_pos returned]

/-- A run with `seed`, where the watermark is what `update({1})` has made of it. -/
def Daemon.Seeding (daemon : Daemon) : PollControl → Prop
  | .updateNsec newRctime .loop =>
    newRctime = ⟨1, 0⟩ ∧ daemon.crawler.lastRctime.tvSec = 1
  | .update newRctime .loop => newRctime = ⟨1, 0⟩
  | .checking | .creating | .searching => daemon.crawler.lastRctime = ⟨1, 0⟩
  | _ => True

namespace Daemon

variable {tokenize : CString → CString → List CString} {capacity : Nat} {daemon next : Daemon}
  {choice : PollChoice}

/-- A run with `seed` does not return to the head of the loop. -/
theorem seeding_of_rest (seed : daemon.rest.flags.seed = true) :
    daemon.rest.Seeding daemon.rest.control := by
  rw [rest_flags] at seed
  rw [Daemon.rest]
  simp only [seed, Bool.or_true, Bool.true_or, ↓reduceIte, Bool.true_and]
  split <;> trivial

theorem seeding_of_check (base : Listing) (seeded : daemon.crawler.lastRctime = ⟨1, 0⟩) :
    (daemon.check base).Seeding (daemon.check base).control := by
  rw [check]
  split
  · next change _ _ =>
    cases change with
    | true => exact seeded
    | false => trivial
  · trivial

theorem seeding_of_begin {pid argMax envpSize} {config : Config} {flags : Flags}
    (begun : daemon.begin tokenize pid config flags argMax envpSize = some next)
    (seed : next.flags.seed = true) : next.Seeding next.control := by
  obtain ⟨_, _, _, rfl⟩ := eq_of_begin begun
  simp only at seed
  simp only [seed, ↓reduceIte]
  rfl

/-- Every move of a run with `seed` keeps its watermark until the search is over. -/
theorem seeding_of_move (seeding : daemon.flags.seed = true → daemon.Seeding daemon.control)
    (move : Move tokenize capacity daemon choice next) (seed : next.flags.seed = true) :
    next.Seeding next.control := by
  cases move with
  | start _ begun => exact seeding_of_begin begun seed
  | @assignSec newRctime after here =>
      have before := seeding seed
      rw [here] at before
      cases after with
      | loop => exact ⟨before, by rw [show newRctime = ⟨1, 0⟩ from before]; rfl⟩
      | flush | close => trivial
  | @assignNsec newRctime after here =>
      have before := seeding seed
      rw [here] at before
      cases after with
      | loop =>
          obtain ⟨same, first⟩ := before
          show (⟨daemon.crawler.lastRctime.tvSec, newRctime.tvNsec⟩ : Timespec) = ⟨1, 0⟩
          rw [same, first]
      | flush | close => trivial
  | check here =>
      have before := seeding (check_flags daemon _ ▸ seed)
      rw [here] at before
      exact seeding_of_check _ before
  | create here =>
      have before := seeding seed
      rw [here] at before
      exact before
  | search here _ _ =>
      rcases daemon.afterSearch_control _ with control | control
      · rw [control]
        trivial
      · rw [control]
        trivial
  | rest _ => exact seeding_of_rest seed
  | deleteSnap _ =>
      simp only
      split <;> trivial
  | sync here _ _ _ =>
      simp only [here]
      trivial
  | launch | synced | syncFails | flush | close | createFails | noWorkers | searchFails
  | keepSnap | signal | kill => trivial

/-- The watermark of a run with `seed`. -/
theorem seeding_invariant : (pollMachine tokenize capacity).Invariant Machine.unguarded
    fun daemon => daemon.flags.seed = true → daemon.Seeding daemon.control where
  initial := by
    rintro _ ⟨disk, rfl⟩ _
    trivial
  preserved _ _ _ _ seeding _ taken seed := seeding_of_move seeding (moves_of_step taken) seed

/-- The ignore filters are off. -/
def Unfiltered (config : Config) : Prop :=
  config.ignoreHidden = false ∧ config.ignoreWinLock = false ∧ config.ignoreVimSwap = false

theorem filtered_of_unfiltered {crawler : Crawler} (unfiltered : Unfiltered crawler.config)
    (name : CString) : crawler.filtered name = false := by
  obtain ⟨hidden, winLock, vimSwap⟩ := unfiltered
  simp [Crawler.filtered, hidden, winLock, vimSwap]

/-- The files of the snapshot. -/
def Regular (daemon : Daemon) (route : Route) : Prop :=
  route ∈ daemon.snapshot.routes ∧ route.attributes.stat.isDir = false

/-- What a search of a seeding run finds. -/
theorem seeded_of_search (extensible : Extensible daemon.snapPath)
    (seeded : daemon.crawler.lastRctime = ⟨1, 0⟩) (unfiltered : Unfiltered daemon.crawler.config)
    (workers : 0 < daemon.crawler.config.threads) (proper : daemon.snapshot.Proper)
    (created : ∀ directory ∈ daemon.snapshot.directories, ⟨1, 0⟩ < searchRctime directory.1)
    {schedule : List Schedule}
    (taken : daemon.step tokenize capacity (.search schedule) = some next)
    {route : Route} (regular : daemon.Regular route) :
    route.file daemon.snapPath ∈ next.fileList ↔ ⟨1, 0⟩ < route.attributes.stat.mtime := by
  have names : ∀ name ∈ route.names, daemon.crawler.filtered name = false := fun name _ =>
    filtered_of_unfiltered unfiltered name
  cases moves_of_step taken with
  | @search _ result _ _ found =>
      show route.file daemon.snapPath ∈ result.1 ↔ _
      rw [(perm_of_triggerSearch workers found).mem_iff,
        mem_newFiles_iff extensible proper regular.1 regular.2, wants_iff regular.2 names, seeded]
      refine and_iff_left fun step above => ?_
      obtain ⟨children, directory, _⟩ := Listing.directory_of_above regular.1 above
      exact created _ directory
  | noWorkers _ none => omega

/-- A run with `seed` whose base directory holds a directory changed after 1.0 searches
its snapshot, and if that holds of all directories of the snapshot, exactly the files with
an mtime after 1.0 are queued. -/
theorem seed_of_reachable
    (reachable : (pollMachine tokenize capacity).Reachable Machine.unguarded daemon)
    (seed : daemon.flags.seed = true) (unfiltered : Unfiltered daemon.crawler.config)
    (workers : 0 < daemon.crawler.config.threads) :
    (daemon.control = .checking → ∀ base : Listing,
      (∀ attributes ∈ base.top, ∃ rctime, getRctime attributes = .ok rctime) →
      (∃ attributes ∈ base.top, attributes.stat.isDir = true ∧
        ∃ rctime, getRctime attributes = .ok rctime ∧ ⟨1, 0⟩ < rctime) →
      ∃ next, daemon.step tokenize capacity (.check base) = some next ∧
        next.control = .creating) ∧
    (daemon.control = .searching → daemon.snapshot.Proper →
      (∀ directory ∈ daemon.snapshot.directories, ⟨1, 0⟩ < searchRctime directory.1) →
      (∃ schedule next, daemon.step tokenize capacity (.search schedule) = some next) ∧
      ∀ schedule next, daemon.step tokenize capacity (.search schedule) = some next →
        ((∀ route, daemon.Regular route → route.file daemon.snapPath ∈ next.fileList) ↔
          ∀ route, daemon.Regular route → ⟨1, 0⟩ < route.attributes.stat.mtime)) := by
  have seeding := seeding_invariant.of_reachable reachable seed
  constructor
  · intro here base readable changed
    rw [here] at seeding
    have seeded : daemon.crawler.lastRctime = ⟨1, 0⟩ := seeding
    obtain ⟨attributes, member, _, rctime, read, later⟩ := changed
    exact ⟨_, if_pos here, creating_of_newer readable member read (seeded ▸ later)⟩
  · intro here proper created
    rw [here] at seeding
    have extensible := (phase_of_reachable reachable here).2
    constructor
    · obtain ⟨schedule, result, found⟩ :=
        daemon.crawler.exists_triggerSearch daemon.snapPath daemon.snapshot
      refine ⟨schedule, daemon.afterSearch result.1, ?_⟩
      rw [Daemon.step, if_pos here, if_neg (by omega), found]
    · intro schedule next taken
      exact forall_congr' fun route => forall_congr' fun regular =>
        seeded_of_search extensible seeding unfiltered workers proper created taken regular

/-- A snapshot with a file that was changed at the epoch. -/
def epochTree : Listing :=
  .entry "a".toList { stat := ⟨false, 3, ⟨0, 0⟩⟩, rctime := none } .nil
    (.entry "d".toList { stat := ⟨true, 0, ⟨5, 0⟩⟩, rctime := some "7.090".toList }
      (.entry "b".toList { stat := ⟨false, 4, ⟨7, 0⟩⟩, rctime := none } .nil .nil) .nil)

/-- That file. -/
def epochRoute : Route := ⟨[], "a".toList, { stat := ⟨false, 3, ⟨0, 0⟩⟩, rctime := none }⟩

/-- A run with `seed` up to the search. -/
def seedRun (snapshot : Listing) : List PollChoice :=
  [.start 42 polledConfig ⟨true, false, false, false⟩ 2097152 1024, .assign, .assign,
    .check snapshot, .create snapshot]

/-- Both files of a small tree are queued, whatever the stored watermark is. -/
theorem seed_of_seedRun : ∃ daemon next : Daemon,
    daemon.step plainTokens 4 (.search []) = some next ∧ daemon.snapshot = Search.smallTree ∧
      ∀ route, daemon.Regular route → route.file daemon.snapPath ∈ next.fileList := by
  have executed : ((pollMachine plainTokens 4).run Machine.unguarded
      (.initial (some "1700000000.5\n".toList)) (seedRun Search.smallTree)).any
      (fun daemon => decide (daemon.control = .searching ∧ daemon.flags.seed = true ∧
        daemon.snapshot = Search.smallTree ∧ daemon.crawler.config = polledConfig)) = true := by
    decide +kernel
  obtain ⟨daemon, reachable, ended⟩ := Machine.exists_of_run (initial_valid _) executed
  obtain ⟨here, seed, snapshot, config⟩ := of_decide_eq_true ended
  have workers : 0 < daemon.crawler.config.threads := by
    rw [config]
    decide
  have unfiltered : Unfiltered daemon.crawler.config := by
    rw [config]
    exact ⟨rfl, rfl, rfl⟩
  have proper : daemon.snapshot.Proper := by
    rw [snapshot]
    decide
  have created : ∀ directory ∈ daemon.snapshot.directories,
      ⟨1, 0⟩ < searchRctime directory.1 := by
    rw [snapshot]
    decide +kernel
  have queued := ((seed_of_reachable reachable seed unfiltered workers).2 here proper created).2
  have taken : ∃ next, daemon.step plainTokens 4 (.search []) = some next := by
    rw [Daemon.step, if_pos here, if_neg (by omega), Crawler.triggerSearch,
      if_pos (by rw [config]; rfl)]
    exact ⟨_, rfl⟩
  obtain ⟨next, taken⟩ := taken
  refine ⟨daemon, next, taken, snapshot, (queued [] next taken).mpr ?_⟩
  rintro route ⟨member, regular⟩
  rw [snapshot] at member
  revert route
  decide +kernel

/-- The file from the epoch is not queued. -/
theorem left_of_seedRun : ∃ daemon : Daemon,
    (pollMachine plainTokens 4).Reachable Machine.unguarded daemon ∧
    daemon.flags.seed = true ∧ daemon.control = .launching ∧ daemon.Regular epochRoute ∧
    (∀ directory ∈ daemon.snapshot.directories, ⟨1, 0⟩ < searchRctime directory.1) ∧
    epochRoute.file daemon.snapPath ∉ daemon.fileList := by
  have executed : ((pollMachine plainTokens 4).run Machine.unguarded (.initial none)
      (seedRun epochTree ++ [.search []])).any
      (fun daemon => decide (daemon.flags.seed = true ∧ daemon.control = .launching ∧
        daemon.snapshot = epochTree ∧ epochRoute.file daemon.snapPath ∉ daemon.fileList)) =
        true := by
    decide +kernel
  obtain ⟨daemon, reachable, ended⟩ := Machine.exists_of_run (initial_valid _) executed
  obtain ⟨seed, launching, snapshot, left⟩ := of_decide_eq_true ended
  refine ⟨daemon, reachable, seed, launching, ⟨?_, rfl⟩, ?_, left⟩
  · rw [snapshot]
    decide
  · rw [snapshot]
    decide +kernel

end Daemon

end CephGeoRep
