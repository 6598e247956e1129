import CephGeoRep.Crawler.Payloads
import CephGeoRep.Syncer.Headroom

/-!
# The kernel's limit on arguments

`execve` counts the environment and the arguments together against `ARG_MAX`. What the
constructor of `Syncer` computes, what `sync` subtracts in later rounds and what the
processes count of their batches add up to one statement about all runs of the daemon:
no `execvp` with files in its payload can fail for its size, with as much headroom to
spare as has been set aside by then.
-/

namespace CephGeoRep

open Semantics

namespace Daemon

/-- What `ARG_MAX` leaves beside the environment, and the rounds that found it too
large since the process was started. -/
structure Allowance where
  room : Int
  rounds : Nat

/-- Notes what the daemon is started with and counts the rounds that ended with
`INC_HEADROOM`. -/
def allowance : Observer Daemon PollChoice Allowance Empty where
  start _ := ⟨0, 0⟩
  note daemon choice next record :=
    match choice with
    | .start _ _ _ argMax envpSize => ⟨Syncer.knownArgMax argMax - envpSize, 0⟩
    | .syncer choice =>
      { record with rounds := headroomRounds.note daemon.round choice next.round record.rounds }
    | _ => record
  see _ event _ := event.elim

/-- Every process is started with an environment that leaves room for one headroom. -/
def roomy (_ : Observed Daemon Allowance) : PollChoice ⊕ Empty → Prop
  | .inl (.start _ _ _ argMax envpSize) =>
    IsInt64 argMax ∧ envpSize + memLimHeadroom < Syncer.knownArgMax argMax
  | _ => True

instance (both : Observed Daemon Allowance) : ∀ choice, Decidable (roomy both choice)
  | .inl (.start _ _ _ argMax envpSize) => inferInstanceAs
      (Decidable (IsInt64 argMax ∧ envpSize + memLimHeadroom < Syncer.knownArgMax argMax))
  | .inl .assign | .inl (.check _) | .inl (.create _) | .inl .createFails | .inl (.search _)
  | .inl .searchFails | .inl (.launch _) | .inl (.syncer _) | .inl (.deleteSnap _)
  | .inl (.flush _) | .inl .rest | .inl .close | .inl .signal | .inl .kill => .isTrue trivial

/-- While a process runs its limit is what is left of its allowance. -/
def Allowed (both : Observed Daemon Allowance) : Prop :=
  both.state.control ≠ .stopped → both.state.round.Limited both.record.room both.record.rounds

variable {tokenize : CString → CString → List CString} {capacity : Nat} {daemon next : Daemon}
  {choice : PollChoice} {record : Allowance}

/-- Every step of the daemon keeps the limit within the allowance. -/
theorem Allowed.of_move (allowed : Allowed ⟨daemon, record⟩)
    (fits : roomy ⟨daemon, record⟩ (.inl choice))
    (move : Move tokenize capacity daemon choice next) :
    Allowed ⟨next, allowance.note daemon choice next record⟩ := by
  intro running
  cases move with
  | start _ begun =>
      obtain ⟨_, _, _, rfl⟩ := eq_of_begin begun
      exact limited_start fits.1 fits.2
  | sync here taken goesOn wrote => exact (allowed (by simp [here])).of_step taken goesOn.2
  | synced here taken ended wrote =>
      exact (allowed (by simp [here])).of_step taken (by simp [ended])
  | launch here taken =>
      refine (allowed (by simp [here])).of_step taken fun exited => ?_
      cases State.moves_of_step taken with
      | sync => simp [State.startRound, State.launchProcs] at exited
  | deleteSnap here =>
      have limited := allowed (by simp [here])
      exact ⟨limited.exact, limited.positive, limited.procs⟩
  | @check base here =>
      have limited := allowed (by simp [here])
      show (daemon.check base).round.Limited record.room record.rounds
      rw [check]
      split
      · exact limited
      · exact limited
  | rest here =>
      have limited := allowed (by simp [here])
      obtain ⟨control, equal⟩ := daemon.rest_eq
      rw [equal]
      exact limited
  | @flush due here =>
      have limited := allowed (by simp [here])
      cases due
      · exact limited
      · exact limited
  | assignSec here | assignNsec here | create here | search here =>
      exact allowed (by simp [here])
  | close | createFails | noWorkers | searchFails | keepSnap | signal | kill | syncFails =>
      exact absurd rfl running

theorem allowed_invariant :
    (allowance.watch (pollMachine tokenize capacity)).Invariant roomy Allowed := by
  apply Observer.invariant
  · rintro _ ⟨disk, rfl⟩ running
    exact absurd rfl running
  · rintro ⟨daemon, record⟩ choice next - allowed fits taken
    exact allowed.of_move fits (moves_of_step taken)
  · rintro - event
    exact event.elim

/-- A step in `Syncer::sync` is a step of its round. -/
theorem round_of_syncer {call : Choice}
    (taken : daemon.step tokenize capacity (.syncer call) = some next) :
    daemon.control = .syncing ∧ daemon.round.step capacity call = some next.round := by
  have move := moves_of_step taken
  cases move with
  | sync here stepped => exact ⟨here, stepped⟩
  | synced here stepped => exact ⟨here, stepped⟩
  | syncFails here stepped => exact ⟨here, stepped⟩

/-- In every run of daemons that start with room for their environment, an `execvp` that
is given files leaves all the headroom set aside so far below `ARG_MAX`, in later rounds
and on other destinations too. -/
theorem fits_of_reachable {both : Observed Daemon Allowance}
    (reachable : (allowance.watch (pollMachine tokenize capacity)).Reachable roomy both)
    (short : ∀ name ∈ both.state.round.syncer.destinations.names, name.length < 2 ^ 31)
    (addressable : both.state.round.argumentMem < 2 ^ 64) {pid : Nat} {child : Child}
    (taken : both.state.step tokenize capacity (.syncer (.fork pid)) = some next)
    (added : next.round.children = both.state.round.children ++ [child])
    (files : child.batch ≠ []) :
    payloadMem child.argv + sizeofPtr + (both.record.rounds + 1) * memLimHeadroom <
      both.record.room := by
  have plain : (pollMachine tokenize capacity).Reachable Machine.unguarded both.state :=
    Observer.reachable reachable fun _ _ _ => trivial
  obtain ⟨here, stepped⟩ := round_of_syncer taken
  have round := (inStep_invariant.of_reachable (measured_of_reachable plain)).reachable
  obtain ⟨process, member, _, _, _, batch, covered⟩ :=
    State.accounted_of_fork round short addressable stepped added
  -- The process that owns the batch is below its limit, and its limit is the syncer's.
  have below : process.currMemUsage < process.maxMemUsage :=
    State.currMemUsage_lt
      (round.next (show State.measured _ (.fork pid) from trivial) stepped) member (batch ▸ files)
  have limited : next.round.Limited both.record.room both.record.rounds :=
    (allowed_invariant.of_reachable reachable (by simp [here])).of_step stepped
      (State.goesOn_of_fork stepped)
  have limit := limited.exact
  rw [limited.procs process member] at below
  have sized : payloadMem child.argv + sizeofPtr < next.round.syncer.maxMemUsage := by omega
  omega

/-- One iteration over `Search.smallTree`; the kernel refuses the first payload, and the
second round is about to launch. -/
def tooLargeRun : List (PollChoice ⊕ Empty) :=
  let snapPath := createSnapPath polledConfig.basePath 42 ⟨7, 0⟩
  let files := Search.smallTree.newFiles ⟨polledConfig, .zero⟩ snapPath snapPath
  (([.start 42 polledConfig ⟨false, false, false, true⟩ 2097152 1024, .check Search.smallTree,
    .create Search.smallTree, .search [], .launch files] : List PollChoice) ++
  ([.fork 11, .child 0 .resetSigint, .child 0 (.execFail e2big), .child 0 .leave, .wait 0 true,
    .kill, .noChildren, .afterRound] : List Choice).map PollChoice.syncer).map .inl

/-- A headroom for each of the two rounds is left to spare. -/
theorem fits_of_tooLargeRun : ∃ (daemon : Daemon) (child : Child),
    child ∈ daemon.round.children ∧ child.pid = 12 ∧ child.batch ≠ [] ∧
    payloadMem child.argv + sizeofPtr + (1 + 1) * memLimHeadroom < (2096128 : Int) := by
  have executed : ((allowance.watch (pollMachine plainTokens 4)).run roomy ⟨.initial none, ⟨0, 0⟩⟩
      tooLargeRun).any (fun both =>
        decide (both.record.room = 2096128 ∧ both.record.rounds = 1 ∧
          both.state.round.argumentMem < 2 ^ 64 ∧
          ∀ name ∈ both.state.round.syncer.destinations.names, name.length < 2 ^ 31) &&
        (both.state.step plainTokens 4 (.syncer (.fork 12))).any fun next =>
          decide (next.round.control ≠ .undefined ∧
            ∀ child ∈ next.round.children.drop both.state.round.children.length,
              child.pid = 12 ∧ child.batch ≠ [])) = true := by
    decide +kernel
  obtain ⟨both, reachable, passed⟩ :=
    Machine.exists_of_run (by exact ⟨initial_valid _, rfl⟩) executed
  rw [Bool.and_eq_true] at passed
  obtain ⟨room, rounds, addressable, short⟩ := of_decide_eq_true passed.1
  obtain ⟨next, taken, tested⟩ := (Option.any_eq_true _ _).mp passed.2
  obtain ⟨defined, all⟩ := of_decide_eq_true tested
  obtain ⟨child, added⟩ : ∃ child,
      next.round.children = both.state.round.children ++ [child] := by
    rcases State.launch_of_fork (round_of_syncer taken).2 with undefined |
      ⟨_, _, _, _, _, _, _, _, _, _, _, launched⟩
    · exact absurd (congrArg State.control undefined) defined
    · rw [launched]
      exact ⟨_, rfl⟩
  rw [added, List.drop_left] at all
  obtain ⟨pid, files⟩ := all child (List.mem_singleton_self child)
  have fits := fits_of_reachable reachable short addressable taken added files
  rw [room, rounds] at fits
  exact ⟨next, child, by simp [added], pid, files, fits⟩

end Daemon

end CephGeoRep
