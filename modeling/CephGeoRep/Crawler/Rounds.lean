import CephGeoRep.Crawler.Watermark
import CephGeoRep.Syncer.Lifetime

/-!
# The rounds of the daemon

Every call of `Syncer::sync` that `poll_base` makes is a run of the machine of
`Syncer/Sync`, so what holds of the states of that machine holds of the rounds of the
daemon. Applied to the children: none is outstanding when an iteration removes its
snapshot, and one can be when `l::exit` does.
-/

namespace CephGeoRep

open Semantics

/-- An assumption about the calls of `Syncer::sync`, as one about the daemon. -/
def inRounds (guard : Machine.Guard State Choice) (daemon : Daemon) : PollChoice → Prop
  | .launch sorted => guard daemon.round (.sync daemon.fileList sorted)
  | .syncer choice => guard daemon.round choice
  | .deleteSnap removed => guard daemon.round (.deleteSnap removed)
  | _ => True

instance (guard : Machine.Guard State Choice) [∀ state choice, Decidable (guard state choice)]
    (daemon : Daemon) : ∀ choice, Decidable (inRounds guard daemon choice)
  | .launch sorted =>
      inferInstanceAs (Decidable (guard daemon.round (.sync daemon.fileList sorted)))
  | .syncer choice => inferInstanceAs (Decidable (guard daemon.round choice))
  | .deleteSnap removed => inferInstanceAs (Decidable (guard daemon.round (.deleteSnap removed)))
  | .start .. | .assign | .check _ | .create _ | .createFails | .search _ | .searchFails
  | .flush _ | .rest | .close | .signal | .kill => .isTrue trivial

namespace Daemon

variable {tokenize : CString → CString → List CString} {capacity : Nat} {daemon next : Daemon}
  {choice : PollChoice} {guard : Machine.Guard State Choice}

/-- Outside of `Syncer::sync` its machine is idle, or about to delete the snapshot as the
daemon is. -/
structure InStep (guard : Machine.Guard State Choice) (capacity : Nat) (daemon : Daemon) :
    Prop where
  reachable : (syncMachine capacity).Reachable guard daemon.round
  outside : daemon.control ≠ .stopped → daemon.control ≠ .syncing →
    daemon.round.control = .idle ∧ daemon.round.snapshot = false ∨
      daemon.control = .deleting ∧ daemon.round.control = .synced

/-- The daemon goes on outside of `Syncer::sync`. -/
theorem InStep.keep (inStep : daemon.InStep guard capacity) (round : next.round = daemon.round)
    (before : daemon.control ≠ .syncing) (running : daemon.control ≠ .stopped)
    (other : daemon.control ≠ .deleting) : next.InStep guard capacity where
  reachable := by
    rw [round]
    exact inStep.reachable
  outside _ _ := by
    rw [round]
    exact .inl ((inStep.outside running before).resolve_right fun deleting => other deleting.1)

/-- A process that has ended leaves the round as it is. -/
theorem InStep.die (inStep : daemon.InStep guard capacity) (round : next.round = daemon.round)
    (stopped : next.control = .stopped) : next.InStep guard capacity where
  reachable := by
    rw [round]
    exact inStep.reachable
  outside running := absurd stopped running

theorem inStep_of_begin {pid argMax envpSize} {config : Config} {flags : Flags}
    (begun : daemon.begin tokenize pid config flags argMax envpSize = some next) :
    next.InStep guard capacity := by
  obtain ⟨_, _, _, rfl⟩ := eq_of_begin begun
  exact ⟨.initial ⟨_, _, _, _, rfl⟩, fun _ _ => .inl ⟨rfl, rfl⟩⟩

/-- Every step of the daemon is a step of its round or leaves it alone. -/
theorem InStep.of_move (inStep : daemon.InStep guard capacity)
    (allowed : inRounds guard daemon choice) (move : Move tokenize capacity daemon choice next) :
    next.InStep guard capacity := by
  have keep : ∀ {control : PollControl} {next : Daemon}, daemon.control = control →
      next.round = daemon.round →
      control ≠ .syncing → control ≠ .stopped → control ≠ .deleting →
      next.InStep guard capacity := by
    rintro control next rfl round before running other
    exact inStep.keep round before running other
  cases move with
  | start _ begun => exact inStep_of_begin begun
  | launch here taken =>
      exact ⟨inStep.reachable.next allowed taken, fun _ other => absurd rfl other⟩
  | sync here taken _ _ =>
      exact ⟨inStep.reachable.next allowed taken, fun _ other => absurd here other⟩
  | synced here taken ended _ =>
      exact ⟨inStep.reachable.next allowed taken, fun _ _ => .inr ⟨rfl, ended⟩⟩
  | syncFails here taken _ _ =>
      exact ⟨inStep.reachable.next allowed taken, fun running => absurd rfl running⟩
  | deleteSnap here =>
      refine ⟨?_, fun _ _ => .inl ⟨rfl, rfl⟩⟩
      rcases inStep.outside (by simp [here]) (by simp [here]) with ⟨idle, none⟩ | ⟨_, synced⟩
      · have same : ({ daemon.round with control := .idle, snapshot := false } : State) =
            daemon.round := by
          rw [← idle, ← none]
        show (syncMachine capacity).Reachable guard
          { daemon.round with control := .idle, snapshot := false }
        rw [same]
        exact inStep.reachable
      · refine inStep.reachable.next allowed ?_
        show daemon.round.step capacity (.deleteSnap true) = _
        rw [State.step, if_pos synced, if_pos rfl]
  | check here =>
      rw [check]
      split
      · exact keep here rfl (by simp) (by simp) (by simp)
      · exact inStep.die rfl rfl
  | search here _ _ => exact keep here rfl (by simp) (by simp) (by simp)
  | rest here =>
      refine keep here ?_ (by simp) (by simp) (by simp)
      obtain ⟨control, equal⟩ := daemon.rest_eq
      rw [equal]
  | @flush due here =>
      refine keep here ?_ (by simp) (by simp) (by simp)
      cases due <;> rfl
  | assignSec here | assignNsec here | create here =>
      exact keep here rfl (by simp) (by simp) (by simp)
  | close | createFails | noWorkers | searchFails | keepSnap | signal | kill =>
      exact inStep.die rfl rfl

/-- The daemon makes its rounds as the machine of `Syncer::sync` does. -/
theorem inStep_invariant : (pollMachine tokenize capacity).Invariant (inRounds guard)
    (InStep guard capacity) where
  initial := by
    rintro _ ⟨disk, rfl⟩
    exact ⟨.initial ⟨_, _, _, _, rfl⟩, fun running => absurd rfl running⟩
  preserved _ _ _ _ inStep allowed taken := inStep.of_move allowed (moves_of_step taken)

/-- A failure that does not come last removes the snapshot while a child is outstanding. -/
theorem exits_of_not_failsLast {call : Choice}
    (taken : daemon.step tokenize capacity (.syncer call) = some next)
    (early : ¬ failsLast daemon.round call) :
    ∃ choices final,
      (pollMachine tokenize capacity).Steps Machine.unguarded next choices final ∧
      choices.length ≤ 1 ∧ final.control = .stopped ∧ final.round.control = .exited ∧
      final.round.snapshot = false ∧ final.round.outstanding ≠ [] := by
  cases moves_of_step taken with
  | @sync _ round disk here stepped goesOn _ =>
      obtain ⟨outstanding, ⟨exited, _⟩ | ⟨_, later⟩⟩ :=
        State.exits_of_not_failsLast stepped early
      · exact absurd exited goesOn.2
      · -- `sync` looks at the result and calls `l::exit`
        refine ⟨[.syncer .afterRound], ({ daemon with
          round := round.exitFailure, disk := disk } : Daemon).die, .single trivial ?_, le_refl 1,
          rfl, rfl, rfl, outstanding⟩
        show Daemon.step tokenize capacity _ (.syncer .afterRound) = _
        rw [Daemon.step, if_pos here, syncStep, later]
        rfl
  | synced _ stepped ended _ =>
      obtain ⟨outstanding, ⟨exited, _⟩ | ⟨failed, later⟩⟩ :=
        State.exits_of_not_failsLast stepped early
      · cases ended.symm.trans exited
      · cases ended.symm.trans failed
  | syncFails _ stepped ended _ =>
      obtain ⟨outstanding, ⟨exited, removed⟩ | ⟨failed, later⟩⟩ :=
        State.exits_of_not_failsLast stepped early
      · exact ⟨[], _, .refl, Nat.zero_le 1, rfl, exited, removed, outstanding⟩
      · cases ended.symm.trans failed

/-- In the runs whose failures come last no child is outstanding when an iteration or
`l::exit` removes the snapshot. A failure that comes earlier removes it from under a
child. -/
theorem lifetime_of_reachable
    (reachable : (pollMachine tokenize capacity).Reachable (inRounds failsLast) daemon) :
    (∀ removed next, daemon.step tokenize capacity (.deleteSnap removed) = some next →
      daemon.round.outstanding = []) ∧
    (daemon.round.control = .exited → daemon.round.outstanding = []) ∧
    (∀ call next, daemon.step tokenize capacity (.syncer call) = some next →
      ¬ failsLast daemon.round call →
      ∃ choices final,
        (pollMachine tokenize capacity).Steps Machine.unguarded next choices final ∧
        choices.length ≤ 1 ∧ final.control = .stopped ∧ final.round.control = .exited ∧
        final.round.snapshot = false ∧ final.round.outstanding ≠ []) := by
  have inStep := inStep_invariant.of_reachable reachable
  have none := fun ended => State.outstanding_of_ended inStep.reachable ended
  refine ⟨fun removed next taken => ?_, fun exited => none (.inr (.inr exited)),
    fun call next taken early => exits_of_not_failsLast taken early⟩
  have deleting : daemon.control = .deleting := by
    cases moves_of_step taken <;> assumption
  rcases inStep.outside (by simp [deleting]) (by simp [deleting]) with ⟨idle, _⟩ | ⟨_, synced⟩
  · exact none (.inl idle)
  · exact none (.inr (.inl synced))

/-- One iteration over `Search.smallTree` with two processes, up to the end of the child of
process 0 while that of process 1 runs. -/
def failingRun (code : Nat) : List PollChoice :=
  let snapPath := createSnapPath polledConfig.basePath 42 ⟨7, 0⟩
  let files := Search.smallTree.newFiles ⟨polledConfig, .zero⟩ snapPath snapPath
  ([.start 42 { polledConfig with nproc := 2 } ⟨false, false, false, true⟩ 2097152 1024,
    .check Search.smallTree, .create Search.smallTree, .search [], .launch files,
    .syncer (.fork 11), .syncer (.fork 12)] : List PollChoice) ++
  (childExits 0 code).map .syncer ++ ([.syncer (.wait 0 true)] : List PollChoice)

/-- Both children succeed, and the snapshot is about to be deleted. -/
theorem lifetime_of_failingRun : ∃ daemon : Daemon,
    daemon.control = .deleting ∧ daemon.round.children.length = 2 ∧
      daemon.round.outstanding = [] := by
  have executed : ((pollMachine plainTokens 4).run (inRounds failsLast) (.initial none)
      (failingRun 0 ++ (childExits 1 0).map .syncer ++
        [.syncer (.wait 1 true), .syncer .afterRound])).any
      (fun daemon => decide (daemon.control = .deleting ∧ daemon.round.children.length = 2)) =
        true := by
    decide +kernel
  obtain ⟨daemon, reachable, ended⟩ := Machine.exists_of_run (initial_valid _) executed
  obtain ⟨deleting, two⟩ := of_decide_eq_true ended
  have taken : ∃ next, daemon.step plainTokens 4 (.deleteSnap true) = some next :=
    ⟨_, by rw [Daemon.step, if_pos deleting, if_pos rfl]⟩
  obtain ⟨next, taken⟩ := taken
  exact ⟨daemon, deleting, two, (lifetime_of_reachable reachable).1 true next taken⟩

/-- The child of process 0 exits with code 1, and `l::exit` removes the snapshot from
under the other one. -/
theorem orphaned_of_failingRun : ∃ daemon : Daemon,
    (pollMachine plainTokens 4).Reachable Machine.unguarded daemon ∧
    daemon.control = .stopped ∧ daemon.round.snapshot = false ∧
    daemon.round.control = .exited ∧ daemon.round.outstanding.length = 1 := by
  have executed : ((pollMachine plainTokens 4).run Machine.unguarded (.initial none)
      (failingRun 1 ++ [.syncer .afterRound])).any
      (fun daemon => decide (daemon.control = .stopped ∧ daemon.round.snapshot = false ∧
        daemon.round.control = .exited ∧ daemon.round.outstanding.length = 1)) = true := by
    decide +kernel
  obtain ⟨daemon, reachable, ended⟩ := Machine.exists_of_run (initial_valid _) executed
  exact ⟨daemon, reachable, of_decide_eq_true ended⟩

end Daemon

end CephGeoRep
