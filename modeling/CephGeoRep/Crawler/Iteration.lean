import CephGeoRep.Crawler.PollMoves
import CephGeoRep.Crawler.Routes
import CephGeoRep.Semantics.Observer

/-!
# One iteration of the daemon

What holds at each point of an iteration of `poll_base`, whatever its flags are and
however often the daemon has been restarted: the watermark is the one the iteration
started with, `new_rctime` is later, and the file list is what the search collects of
the snapshot.
-/

namespace CephGeoRep

open Semantics

namespace Daemon

/-- The watermark is the one the iteration started with, and `new_rctime` is later. -/
def Ahead (daemon : Daemon) : Prop :=
  daemon.crawler.lastRctime = daemon.startRctime ∧ daemon.startRctime < daemon.newRctime

/-- The crawler as it was when the iteration started. -/
def startCrawler (daemon : Daemon) : Crawler := ⟨daemon.crawler.config, daemon.startRctime⟩

/-- The file list is what the search collects, in some order. -/
def Searched (daemon : Daemon) : Prop :=
  daemon.fileList.Perm
    (daemon.snapshot.newFiles daemon.startCrawler daemon.snapPath daemon.snapPath)

/-- What holds at each point of an iteration. -/
def Phase (daemon : Daemon) : PollControl → Prop
  | .creating => daemon.Ahead
  | .searching => daemon.Ahead ∧ Extensible daemon.snapPath
  | .launching | .syncing | .deleting => daemon.Ahead ∧ Extensible daemon.snapPath ∧ daemon.Searched
  | .update newRctime .flush =>
    newRctime = daemon.newRctime ∧ daemon.Ahead ∧ Extensible daemon.snapPath ∧
      daemon.Searched
  | .updateNsec newRctime .flush =>
    newRctime = daemon.newRctime ∧ daemon.startRctime < newRctime ∧
      daemon.crawler.lastRctime = ⟨newRctime.tvSec, daemon.startRctime.tvNsec⟩
  | .update newRctime .loop | .updateNsec newRctime .loop =>
    newRctime = ⟨1, 0⟩ ∧ daemon.flags.seed = true
  | .update newRctime .close | .updateNsec newRctime .close =>
    newRctime = daemon.oldRctimeCache ∧ daemon.flags.seed = true ∧ daemon.flags.dryRun = true
  | .flushing => daemon.crawler.lastRctime = daemon.newRctime ∧
      daemon.startRctime < daemon.newRctime
  | .stopped | .checking | .resting | .closing => True

variable {tokenize : CString → CString → List CString} {capacity : Nat} {daemon next : Daemon}
  {choice : PollChoice}

/-- `check_for_change` only returns true with a later `new_rctime`. -/
theorem phase_of_check (base : Listing) :
    (daemon.check base).Phase (daemon.check base).control := by
  rw [check]
  split
  · next change newRctime returned =>
    cases change with
    | false => trivial
    | true => exact ⟨rfl, lt_of_checkForChange returned⟩
  · trivial

/-- A check that sees a newer entry leads to a snapshot. -/
theorem creating_of_newer {base : Listing} {attributes : Attributes} {rctime : Timespec}
    (readable : ∀ attributes ∈ base.top, ∃ rctime, getRctime attributes = .ok rctime)
    (member : attributes ∈ base.top) (read : getRctime attributes = .ok rctime)
    (newer : daemon.crawler.lastRctime < rctime) : (daemon.check base).control = .creating := by
  obtain ⟨final, returned⟩ :=
    checkForChange_of_newer readable member read newer daemon.newRctime
  rw [check, returned]
  rfl

theorem phase_of_search {schedule : List Schedule} {result : List File × Nat}
    (phase : daemon.Phase .searching) (workers : 0 < daemon.crawler.config.threads)
    (found : daemon.crawler.triggerSearch daemon.snapPath daemon.snapshot schedule = some result) :
    (daemon.afterSearch result.1).Phase (daemon.afterSearch result.1).control := by
  obtain ⟨ahead, extensible⟩ := phase
  have searched : (daemon.afterSearch result.1).Searched := by
    have same : daemon.startCrawler = daemon.crawler := by
      rw [startCrawler, ← ahead.1]
    show result.1.Perm
      (daemon.snapshot.newFiles daemon.startCrawler daemon.snapPath daemon.snapPath)
    rw [same]
    exact perm_of_triggerSearch workers found
  have all : (daemon.afterSearch result.1).Ahead ∧
      Extensible (daemon.afterSearch result.1).snapPath ∧
      (daemon.afterSearch result.1).Searched := ⟨ahead, extensible, searched⟩
  rcases daemon.afterSearch_control result.1 with control | control
  · rw [control]
    exact all
  · rw [control]
    exact all

theorem phase_of_begin {pid argMax envpSize} {config : Config} {flags : Flags}
    (begun : daemon.begin tokenize pid config flags argMax envpSize = some next) :
    next.Phase next.control := by
  obtain ⟨_, _, _, rfl⟩ := eq_of_begin begun
  cases seed : flags.seed with
  | true => exact ⟨rfl, seed⟩
  | false => trivial

theorem phase_of_rest : daemon.rest.Phase daemon.rest.control := by
  rw [Daemon.rest]
  split
  · split
    · next both => exact ⟨rfl, by simpa using both⟩
    · trivial
  · trivial

/-- Every move leads to the next point of the iteration. -/
theorem phase_of_move (phase : daemon.Phase daemon.control)
    (move : Move tokenize capacity daemon choice next) : next.Phase next.control := by
  cases move with
  | start _ begun => exact phase_of_begin begun
  | @assignSec newRctime after here =>
      rw [here] at phase
      cases after with
      | loop | close => exact phase
      | flush =>
          obtain ⟨same, ahead, _⟩ := phase
          refine ⟨same, same ▸ ahead.2, ?_⟩
          show (⟨newRctime.tvSec, daemon.crawler.lastRctime.tvNsec⟩ : Timespec) =
            ⟨newRctime.tvSec, daemon.startRctime.tvNsec⟩
          rw [ahead.1]
  | @assignNsec newRctime after here =>
      rw [here] at phase
      cases after with
      | loop | close => trivial
      | flush =>
          obtain ⟨same, later, half⟩ := phase
          refine ⟨?_, same ▸ later⟩
          show (⟨daemon.crawler.lastRctime.tvSec, newRctime.tvNsec⟩ : Timespec) = daemon.newRctime
          rw [half, ← same]
  | check here => exact phase_of_check _
  | create here =>
      rw [here] at phase
      exact ⟨phase, extensible_createSnapPath _ _ _⟩
  | search here workers found => exact phase_of_search (here ▸ phase) workers found
  | launch here taken | synced here taken _ _ =>
      rw [here] at phase
      exact phase
  | sync here _ _ _ =>
      rw [here] at phase
      simp only [here]
      exact phase
  | deleteSnap here =>
      rw [here] at phase
      simp only
      split
      · trivial
      · exact ⟨rfl, phase⟩
  | rest => exact phase_of_rest
  | flush | close | createFails | noWorkers | searchFails | keepSnap | signal | kill | syncFails =>
      trivial

/-- In every reachable state the phase is that of the control. -/
theorem phase_invariant : (pollMachine tokenize capacity).Invariant Machine.unguarded
    fun daemon => daemon.Phase daemon.control where
  initial := by
    rintro _ ⟨disk, rfl⟩
    trivial
  preserved _ _ _ _ phase _ taken := phase_of_move phase (moves_of_step taken)

/-- The phase at a known point, whatever is assumed of the runs. -/
theorem phase_of_reachable {guard : Machine.Guard Daemon PollChoice} {control : PollControl}
    (reachable : (pollMachine tokenize capacity).Reachable guard daemon)
    (here : daemon.control = control) : daemon.Phase control :=
  here ▸ phase_invariant.of_reachable (reachable.mono fun _ _ _ => trivial)

/-- The phase of a daemon that is observed. -/
theorem phase_of_observed {Record Event : Type} {observer : Observer Daemon PollChoice Record Event}
    {guard : Machine.Guard (Observed Daemon Record) (PollChoice ⊕ Event)}
    {both : Observed Daemon Record} {control : PollControl}
    (reachable : (observer.watch (pollMachine tokenize capacity)).Reachable guard both)
    (here : both.state.control = control) : both.state.Phase control :=
  here ▸ phase_invariant.of_reachable (Observer.reachable reachable fun _ _ _ => trivial)

/-- Without `seed` an update is the one at the end of an iteration. -/
theorem flush_of_phase {newRctime : Timespec} {after : AfterUpdate}
    (plain : daemon.flags.seed = false)
    (phase : daemon.Phase (.update newRctime after) ∨ daemon.Phase (.updateNsec newRctime after)) :
    after = .flush ∧ newRctime = daemon.newRctime := by
  cases after with
  | loop =>
      have seeded : daemon.flags.seed = true := phase.elim (·.2) (·.2)
      cases plain.symm.trans seeded
  | close =>
      have seeded : daemon.flags.seed = true := phase.elim (·.2.1) (·.2.1)
      cases plain.symm.trans seeded
  | flush => exact ⟨rfl, phase.elim (·.1) (·.1)⟩

end Daemon

end CephGeoRep
