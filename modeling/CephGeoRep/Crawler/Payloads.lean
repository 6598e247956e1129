import CephGeoRep.Crawler.Iteration
import CephGeoRep.Crawler.Rounds
import CephGeoRep.Syncer.Memory

/-!
# The payloads of the daemon

The queue of every round is what the search collected, so its files were measured by
`File::init`, and the accounting of `Syncer/Memory` applies to every `execvp` that the
daemon leads to.
-/

namespace CephGeoRep

open Semantics

/-- The search collects files that are not directories. -/
theorem Listing.measured_of_newFiles {crawler : Crawler} {snapRoot path : CString}
    {listing : Listing} {file : File} (member : file ∈ listing.newFiles crawler snapRoot path) :
    file.pathLen = file.path.length := by
  induction listing generalizing path with
  | nil => cases member
  | entry name attributes children rest inner next =>
      rw [newFiles, List.mem_append] at member
      rcases member with here | later
      · split at here
        · exact inner here
        · split at here
          · next queued =>
            rw [List.mem_singleton.mp here]
            apply File.init_pathLen
            have regular := queued
            simp only [Crawler.queues, Bool.and_eq_true, Bool.not_eq_true'] at regular
            simpa [Crawler.fileOf] using regular.2
          · cases here
      · exact next later

namespace State

/-- `sync` has been called and has not returned to `poll_base` yet. -/
def UnderWay (state : State) : Prop := state.control ≠ .idle ∧ state.control ≠ .synced

variable {capacity : Nat} {state next : State} {choice : Choice}

/-- A loop leads on to something that is not the end of `sync`. -/
theorem underWay_continueWith {loop : List Nat → Control} (isLoop : IsLoop loop)
    (todo : List Nat) : (state.continueWith loop todo).UnderWay := by
  apply holds_continueWith fun control => control ≠ .idle ∧ control ≠ .synced
  · rcases isLoop with rfl | rfl | rfl <;> simp
  · simp
  · simp

/-- A step of `sync` either ends it with `SYNC_SUCCESS` or goes on with it. -/
theorem underWay_of_step (underWay : state.UnderWay)
    (taken : state.step capacity choice = some next) : next.control = .synced ∨ next.UnderWay := by
  cases moves_of_step taken with
  | sync idle _ _ => exact absurd idle underWay.1
  | deleted synced | notDeleted synced => exact absurd synced underWay.2
  | success _ => exact .inl rfl
  | launch => exact .inr (underWay_continueWith launching_isLoop _)
  | relaunch => exact .inr (underWay_continueWith relaunching_isLoop _)
  | failOver => exact .inr (underWay_continueWith failingOver_isLoop _)
  | returned waiting found ended owner handled =>
      right
      cases handled with
      | finished | more => exact underWay_continueWith relaunching_isLoop _
      | _ => exact ⟨by simp [failRound, tryNextDestination],
          by simp [failRound, tryNextDestination]⟩
  | stray waiting | reap waiting => exact .inr (by simp [UnderWay, State.reap, waiting])
  | child | signal => exact .inr underWay
  | _ => exact .inr ⟨by simp [launchProcs, startRound, exitFailure, failRound],
      by simp [launchProcs, startRound, exitFailure, failRound]⟩

end State

namespace Daemon

variable {tokenize : CString → CString → List CString} {capacity : Nat} {daemon next : Daemon}
  {choice : PollChoice} {guard : Machine.Guard Daemon PollChoice}

/-- While the daemon is in `Syncer::sync`, so is its round. -/
def Inside (daemon : Daemon) : Prop := daemon.control = .syncing → daemon.round.UnderWay

theorem inside_of_elsewhere (elsewhere : daemon.control ≠ .syncing) : daemon.Inside :=
  fun syncing => absurd syncing elsewhere

theorem Inside.of_move (inside : daemon.Inside)
    (move : Move tokenize capacity daemon choice next) : next.Inside := by
  cases move with
  | start _ begun =>
      obtain ⟨_, _, _, rfl⟩ := eq_of_begin begun
      apply inside_of_elsewhere
      cases flags : (_ : Flags).seed <;> simp
  | launch here taken =>
      intro _
      cases State.moves_of_step taken
      exact ⟨by simp [State.launchProcs, State.startRound],
        by simp [State.launchProcs, State.startRound]⟩
  | sync here taken goesOn _ =>
      exact fun _ => (State.underWay_of_step (inside here) taken).resolve_left goesOn.1
  | @assignNsec newRctime after here =>
      apply inside_of_elsewhere
      cases after <;> simp [AfterUpdate.control]
  | check here =>
      apply inside_of_elsewhere
      rw [Daemon.check]
      split
      · next change _ _ => cases change <;> simp
      · simp [die]
  | @search schedule result here _ _ =>
      apply inside_of_elsewhere
      rcases daemon.afterSearch_control result.1 with control | control <;> simp [control]
  | deleteSnap here =>
      apply inside_of_elsewhere
      show (if daemon.flags.dryRun then PollControl.resting
        else .update daemon.newRctime .flush) ≠ .syncing
      split <;> simp
  | rest here =>
      apply inside_of_elsewhere
      rw [Daemon.rest]
      split
      · split <;> simp
      · simp
  | _ => exact inside_of_elsewhere (by simp [die])

theorem inside_invariant : (pollMachine tokenize capacity).Invariant guard Inside where
  initial := by
    rintro _ ⟨disk, rfl⟩
    exact inside_of_elsewhere (by simp [initial])
  preserved _ _ _ _ inside _ taken := inside.of_move (moves_of_step taken)

/-- The search measures every file that `Syncer::sync` is called with. -/
theorem measured_of_reachable
    (reachable : (pollMachine tokenize capacity).Reachable Machine.unguarded daemon) :
    (pollMachine tokenize capacity).Reachable (inRounds State.measured) daemon := by
  refine reachable.strengthen fun daemon choice next reachable _ taken => ?_
  have move : Move tokenize capacity daemon choice next := moves_of_step taken
  cases move with
  | launch here _ =>
      obtain ⟨_, _, searched⟩ := phase_of_reachable reachable here
      intro file member
      exact Listing.measured_of_newFiles (searched.mem_iff.mp member)
  | sync here stepped _ _ | synced here stepped _ _ | syncFails here stepped _ _ =>
      have underWay := inside_invariant.of_reachable reachable here
      simp only [inRounds]
      cases State.moves_of_step stepped with
      | sync idle _ _ => exact absurd idle underWay.1
      | _ => trivial
  | _ => trivial

/-- In every run the arguments of an `execvp` take no more than what the counter of the
process says, on whatever destination it is, and a process that has a file is below its
limit. -/
theorem memory_of_reachable
    (reachable : (pollMachine tokenize capacity).Reachable Machine.unguarded daemon)
    (short : ∀ name ∈ daemon.round.syncer.destinations.names, name.length < 2 ^ 31)
    (addressable : daemon.round.argumentMem < 2 ^ 64) :
    (∀ pid next child, daemon.round.step capacity (.fork pid) = some next →
      next.children = daemon.round.children ++ [child] →
      ∃ process ∈ next.procs, process.pid = pid ∧ child.pid = pid ∧
        child.proc = process.id ∧ child.batch = process.batch ∧
        payloadMem child.argv + sizeofPtr ≤ process.currMemUsage) ∧
    ∀ process ∈ daemon.round.procs, process.batch ≠ [] →
      process.currMemUsage < process.maxMemUsage := by
  have round := (inStep_invariant.of_reachable (measured_of_reachable reachable)).reachable
  constructor
  · intro pid next child taken added
    exact State.accounted_of_fork round short addressable taken added
  · intro process member nonempty
    exact State.currMemUsage_lt round member nonempty

/-- One iteration over `Search.smallTree` with two processes, whose children both fail to
connect to the first destination. -/
def unreachableRun : List PollChoice :=
  let snapPath := createSnapPath polledConfig.basePath 42 ⟨7, 0⟩
  let files := Search.smallTree.newFiles ⟨polledConfig, .zero⟩ snapPath snapPath
  let config := { polledConfig with nproc := 2, destinations := "a:b, backup:/tank".toList }
  ([.start 42 config ⟨false, false, false, true⟩ 2097152 1024, .check Search.smallTree,
    .create Search.smallTree, .search [], .launch files] : List PollChoice) ++
  (([.fork 11, .fork 12] : List Choice) ++ childExits 0 sshFail ++ childExits 1 sshFail ++
    ([.wait 0 true, .wait 1 true] : List Choice)).map .syncer

/-- The first launch after the failover, to a destination that is longer. -/
theorem memory_of_unreachableRun : ∃ (daemon : Daemon) (next : State) (child : Child),
    child.destination = "backup:/tank".toList ∧
    (∃ process ∈ next.procs, process.pid = 13 ∧ child.pid = 13 ∧
      child.proc = process.id ∧ child.batch = process.batch ∧
      payloadMem child.argv + sizeofPtr ≤ process.currMemUsage) ∧
    ∃ process ∈ daemon.round.procs, process.currMemUsage < process.maxMemUsage := by
  have executed : ((pollMachine plainTokens 4).run Machine.unguarded (.initial none)
      unreachableRun).any (fun daemon =>
        decide (daemon.round.destination = "backup:/tank".toList ∧
          daemon.round.argumentMem < 2 ^ 64 ∧
          (∀ name ∈ daemon.round.syncer.destinations.names, name.length < 2 ^ 31) ∧
          ∃ process ∈ daemon.round.procs, process.batch ≠ []) &&
        (daemon.round.step 4 (.fork 13)).any fun next =>
          decide (next.control ≠ .undefined)) = true := by
    decide +kernel
  obtain ⟨daemon, reachable, passed⟩ := Machine.exists_of_run (initial_valid _) executed
  rw [Bool.and_eq_true] at passed
  obtain ⟨longer, addressable, short, process, member, nonempty⟩ := of_decide_eq_true passed.1
  obtain ⟨next, taken, defined⟩ := (Option.any_eq_true _ _).mp passed.2
  obtain ⟨covered, below⟩ := memory_of_reachable reachable short addressable
  rcases State.launch_of_fork taken with rfl | ⟨_, _, _, _, _, _, _, _, _, _, _, rfl⟩
  · exact absurd rfl (of_decide_eq_true defined)
  · exact ⟨daemon, _, _, longer, covered 13 _ _ taken rfl, process, member,
      below process member nonempty⟩

end Daemon

end CephGeoRep
