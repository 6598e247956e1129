import CephGeoRep.Syncer.Bookkeeping

/-!
# What a retired batch has been through

`handle_returned_procs` decodes a wait status with `WEXITSTATUS` alone, which is 0
for every child killed by a signal, and it does not ask whether the child has reached
`execvp`: in the inherited `sig_hdlr` it may exit with code 0 before. While `wait` returns
no such child, a batch is retired only after a sync program exited with code 0, and a
round that succeeds has sent every file; the first such child retires its batch all the
same.
-/

namespace CephGeoRep

open Semantics

/-- Not waited for yet, and `WEXITSTATUS` will be 0 although no sync program has exited
with code 0: the child was killed by a signal, or it has exited before `execvp`. -/
def Child.unsent (child : Child) : Bool :=
  match child.phase with
  | .zombie (.exited code) => code % 256 == 0 && !child.execed
  | .zombie (.signaled _ _) => true
  | _ => false

/-- Ended by itself with exit code 0, in the sync program or before it, and waited
for. -/
def Child.succeeded (child : Child) : Bool :=
  match child.phase with
  | .reaped (.exited code) => code % 256 == 0
  | _ => false

/-- Pids are fresh, and a child that the `wait` of the round returns with `WEXITSTATUS` 0
has reached the sync program and has exited by itself. -/
def exitsOnly (state : State) (choice : Choice) : Prop :=
  freshPids state choice ∧
    match choice with
    | .wait index _ =>
      state.control = .waiting → (state.children[index]?.all fun child => !child.unsent) = true
    | _ => True

instance (state : State) (choice : Choice) : Decidable (exitsOnly state choice) :=
  match choice with
  | .wait .. => inferInstanceAs (Decidable (_ ∧ (_ → _)))
  | .fork _ => inferInstanceAs (Decidable (_ ∧ True))
  | .sync .. | .forkFails | .noChildren | .kill | .afterRound | .deleteSnap _ | .child ..
  | .signal .. => .isTrue ⟨trivial, trivial⟩

namespace State

/-- Every retired batch was sent by a sync program that succeeded. -/
def Delivered (state : State) : Prop :=
  ∀ entry ∈ state.retired, ∃ child ∈ state.children, child.proc = entry.1 ∧
    child.batch = entry.2 ∧ child.execed = true ∧ child.succeeded = true

variable {capacity : Nat} {state next : State} {process : SyncProcess} {index : Nat}
  {child : Child} {status : WaitStatus}

theorem succeeded_of_still {before after : Child} (kept : Kept before after)
    (succeeded : before.succeeded = true) : after = before := by
  refine kept.still ?_
  rw [Child.succeeded] at succeeded
  rw [Child.outstanding]
  split at succeeded
  · next code reaped => rw [reaped]
  · cases succeeded

/-- A child that `wait` returns with `WEXITSTATUS` 0 is a successful program, unless it
is one of the others. -/
theorem succeeded_of_reaped (ended : child.phase = .zombie status)
    (zero : wexitstatus status.encode = 0) (sent : child.unsent = false) :
    child.execed = true ∧ ({ child with phase := .reaped status } : Child).succeeded = true := by
  rw [Child.unsent] at sent
  rw [ended] at sent
  cases status with
  | signaled signo coreDumped => cases sent
  | exited code =>
      rw [wexitstatus_exited] at zero
      simp only [zero, BEq.rfl, Bool.true_and, Bool.not_eq_false'] at sent
      exact ⟨sent, by simp [Child.succeeded, zero]⟩

/-- Deliveries survive as long as the children are carried on and nothing is retired. -/
theorem Delivered.carry (delivered : state.Delivered)
    (carries : Carries Kept state.children next.children) (retired : next.retired = state.retired) :
    next.Delivered := by
  intro entry member
  rw [retired] at member
  obtain ⟨child, listed, proc, batch, execed, succeeded⟩ := delivered entry member
  obtain ⟨index, found⟩ := List.mem_iff_getElem?.mp listed
  obtain ⟨after, found', kept⟩ := carries.successor found
  refine ⟨after, List.mem_of_getElem? found', ?_⟩
  rw [succeeded_of_still kept succeeded]
  exact ⟨proc, batch, execed, succeeded⟩

/-- A new child takes nothing away. -/
theorem Delivered.append (delivered : state.Delivered)
    (children : next.children = state.children ++ [child])
    (retired : next.retired = state.retired) : next.Delivered := by
  intro entry member
  rw [retired] at member
  obtain ⟨child, listed, sent⟩ := delivered entry member
  exact ⟨child, by rw [children]; exact List.mem_append_left _ listed, sent⟩

/-- A batch is retired only when the child just reaped succeeded with it. -/
theorem Delivered.handled {exitCode : Nat} (delivered : state.Delivered)
    (sent : exitCode = 0 → ∃ child ∈ state.children, child.proc = process.id ∧
      child.batch = process.batch ∧ child.execed = true ∧ child.succeeded = true)
    (handled : Handled state process exitCode next) : next.Delivered := by
  have retire : exitCode = 0 → ∀ entry ∈ state.retired ++ [(process.id, process.batch)],
      ∃ child ∈ state.children, child.proc = entry.1 ∧ child.batch = entry.2 ∧
        child.execed = true ∧ child.succeeded = true := by
    intro zero entry member
    rcases List.mem_append.mp member with old | new
    · exact delivered entry old
    · rw [List.mem_singleton.mp new]
      exact sent zero
  cases handled with
  | finished zero _ => exact retire zero
  | more zero _ => exact retire zero
  | _ => exact delivered

/-- Every transition in which the round takes no child for a successful program that is
none keeps the deliveries. -/
theorem Delivered.of_move {choice : Choice} (delivered : state.Delivered)
    (booked : state.Booked) (accounted : state.Accounted) (allowed : exitsOnly state choice)
    (move : Move capacity state choice next) : next.Delivered := by
  cases move with
  | sync _ _ _ => exact fun entry member => by cases member
  | newRound _ _ => exact fun entry member => by cases member
  | launch _ _ _ =>
      rw [launch_eq]
      exact delivered.append rfl rfl
  | relaunch _ _ _ => exact delivered.append rfl rfl
  | failOver _ _ _ => exact delivered.append rfl rfl
  | stray _ found ended _ =>
      exact delivered.carry (carries_set Kept.refl found (kept_reaped ended)) rfl
  | reap _ found ended =>
      exact delivered.carry (carries_set Kept.refl found (kept_reaped ended)) rfl
  | @returned index child status _ process _ waiting found ended owner handled =>
      have linked := booked.linked (by rw [waiting]; rfl)
      obtain ⟨own, _, _, owns, unique⟩ := owner_of_wait linked accounted found ended
      have same : own = process := Option.some.inj (unique.symm.trans owner)
      subst same
      have reaped : (state.reap index child status).Delivered :=
        delivered.carry (carries_set Kept.refl found (kept_reaped ended)) rfl
      refine reaped.handled (fun zero => ?_) handled
      have listed : { child with phase := .reaped status } ∈
          (state.reap index child status).children := by
        obtain ⟨bound, _⟩ := List.getElem?_eq_some_iff.mp found
        exact List.mem_set bound _
      have sent := allowed.2 waiting
      rw [found, Option.all_some] at sent
      obtain ⟨execed, succeeded⟩ := succeeded_of_reaped ended zero (by simpa using sent)
      exact ⟨_, listed, owns.proc, owns.batch, execed, succeeded⟩
  | kill _ =>
      exact delivered.carry (carries_map fun child =>
        kept_of_continues (continues_sendSigint child)) rfl
  | child found taken =>
      exact delivered.carry (carries_set Kept.refl found
        (kept_of_continues (Child.continues_of_step taken))) rfl
  | signal found live =>
      exact delivered.carry (carries_set Kept.refl found
        (kept_of_continues (Child.continues_of_signal live _))) rfl
  | _ => exact delivered

/-- Deliveries are genuine in every state that such runs reach. -/
theorem delivered_invariant : (syncMachine capacity).Invariant exitsOnly Delivered where
  initial := by
    rintro state ⟨tokenize, argMax, envpSize, config, rfl⟩ entry member
    cases member
  preserved _ _ _ reachable delivered allowed taken :=
    delivered.of_move ((booked_invariant fun _ _ allowed => allowed.1).of_reachable reachable)
      (accounted_invariant.of_reachable reachable) allowed (moves_of_step taken)

/-- Behind a successful round every file is in a retired batch. -/
theorem retired_of_synced (batched : state.Batched) (accounted : state.Accounted)
    (synced : state.control = .synced) {position : Nat}
    (below : position < state.queue.length) :
    ∃ entry ∈ state.retired, position ∈ entry.2 := by
  obtain ⟨_, parted⟩ := batched.parted (by rw [synced]; rfl)
  have gone := accounted.rest (by rw [synced]; rfl)
  have once : (state.retired.flatMap Prod.snd).count position = 1 :=
    parted.complete (fun id => by simp [work, proc?, gone]) below
  have listed : position ∈ state.retired.flatMap Prod.snd :=
    List.count_pos_iff.mp (by omega)
  exact List.mem_flatMap.mp listed

/-- When `sync` returns, every file was in the batch of a program that succeeded. -/
theorem child_of_synced (delivered : state.Delivered) (batched : state.Batched)
    (accounted : state.Accounted) (synced : state.control = .synced) {file : File}
    (member : file ∈ state.queue) :
    ∃ child ∈ state.children, file.path ∈ child.batch.filterMap (pathAt state.queue) ∧
      child.execed = true ∧ child.succeeded = true := by
  obtain ⟨position, here⟩ := List.mem_iff_getElem?.mp member
  obtain ⟨below, _⟩ := List.getElem?_eq_some_iff.mp here
  obtain ⟨entry, retired, inEntry⟩ := retired_of_synced batched accounted synced below
  obtain ⟨child, listed, _, batch, sent⟩ := delivered entry retired
  refine ⟨child, listed, List.mem_filterMap.mpr ⟨position, batch ▸ inEntry, ?_⟩, sent⟩
  rw [pathAt, here, Option.map_some]

/-- So it was among the arguments of that program. -/
theorem sent_of_synced (delivered : state.Delivered) (batched : state.Batched)
    (accounted : state.Accounted) (addressed : state.Addressed)
    (synced : state.control = .synced) {file : File} (member : file ∈ state.queue) :
    ∃ child ∈ state.children, some file.path ∈ child.argv ∧ child.execed = true ∧
      child.succeeded = true := by
  obtain ⟨child, listed, inBatch, sent⟩ :=
    child_of_synced delivered batched accounted synced member
  obtain ⟨position, inBatch, path⟩ := List.mem_filterMap.mp inBatch
  refine ⟨child, listed, ?_, sent⟩
  rw [addressed.commandLine listed]
  apply List.mem_append_left
  apply List.mem_append_right
  rw [← path]
  exact List.mem_map_of_mem inBatch

/-- `WEXITSTATUS` takes such a child for a successful program. -/
theorem wexitstatus_of_unsent (unsent : child.unsent = true)
    (ended : child.phase = .zombie status) : wexitstatus status.encode = 0 := by
  rw [Child.unsent] at unsent
  rw [ended] at unsent
  cases status with
  | exited code =>
      rw [wexitstatus_exited]
      simp only [Bool.and_eq_true, beq_iff_eq] at unsent
      exact unsent.1
  | signaled signo coreDumped => exact wexitstatus_signaled signo coreDumped

/-- The batch of a child that `wait` returns with `WEXITSTATUS` 0 is retired. -/
theorem retired_of_handled (handled : Handled state process 0 next) :
    next.retired = state.retired ++ [(process.id, process.batch)] := by
  cases handled with
  | finished _ _ => rfl
  | more _ _ => rfl
  | tooBig nonzero _ _ => exact absurd rfl nonzero
  | fail nonzero _ => exact absurd rfl nonzero
  | retry nonzero _ => exact absurd rfl nonzero
  | park code _ => cases code
  | failOver code _ => cases code

/-- As long as every child that the round waits for and that yields `WEXITSTATUS` 0 has
run the sync program and exited by itself, a retired batch was sent by a program that
exited with code 0, and when `sync` returns every file was in the arguments of such a
program. The first other child has its batch retired without. -/
theorem sent_of_reachable (reachable : (syncMachine capacity).Reachable exitsOnly state) :
    (∀ entry ∈ state.retired, ∃ child ∈ state.children, child.proc = entry.1 ∧
      child.batch = entry.2 ∧ child.execed = true ∧ child.succeeded = true) ∧
    (state.control = .synced → ∀ file ∈ state.queue, ∃ child ∈ state.children,
      some file.path ∈ child.argv ∧ child.execed = true ∧ child.succeeded = true) ∧
    (∀ index logOpens child next, state.control = .waiting →
      state.children[index]? = some child → child.unsent = true →
      state.step capacity (.wait index logOpens) = some next →
      next.retired = state.retired ++ [(child.proc, child.batch)]) := by
  have delivered := delivered_invariant.of_reachable reachable
  have accounted := accounted_invariant.of_reachable reachable
  have booked := (booked_invariant fun _ _ allowed => allowed.1).of_reachable reachable
  refine ⟨delivered, ?_, ?_⟩
  · intro synced file member
    exact sent_of_synced delivered (batched_invariant.of_reachable reachable) accounted
      (addressed_invariant.of_reachable reachable) synced member
  · intro index logOpens child next waiting found unsent taken
    have linked := booked.linked (by rw [waiting]; rfl)
    obtain ⟨process, _, status, owns, ended, handled⟩ :=
      handled_of_wait linked accounted waiting found taken
    rw [wexitstatus_of_unsent unsent ended] at handled
    have retired := retired_of_handled handled
    rw [owns.proc, owns.batch]
    exact retired

/-- The only file of the queue is sent by a child that exits with code 0. -/
def sentRun (files : List File) : List Choice :=
  ([.sync files files, .fork 11] : List Choice) ++ childExits 0 0 ++
    ([.wait 0 true, .afterRound] : List Choice)

theorem sent_of_sentRun :
    ∃ state : State, state.control = .synced ∧ state.queue.length = 1 ∧
      ∀ file ∈ state.queue, ∃ child ∈ state.children,
        some file.path ∈ child.argv ∧ child.execed = true ∧ child.succeeded = true := by
  have executed : ((syncMachine 4).run exitsOnly (rsyncDaemon 1 "a:b".toList)
      (sentRun [plainFile "/s/./a".toList 1])).any (fun state =>
        decide (state.control = .synced ∧ state.queue.length = 1)) = true := by
    decide +kernel
  obtain ⟨state, reachable, ended⟩ := Machine.exists_of_run (rsyncDaemon_initial 1 _) executed
  obtain ⟨synced, one⟩ := of_decide_eq_true ended
  exact ⟨state, synced, one, (sent_of_reachable reachable).2.1 synced⟩

/-- The child that was to send the only file is killed in the middle of it. -/
def killedRun (files : List File) : List Choice :=
  [.sync files files, .fork 11, .child 0 .resetSigint, .child 0 (.exec []),
    .child 0 (.kill 9 false), .wait 0 true, .afterRound]

/-- `sync` returns although no child exited with code 0. -/
theorem unsent_of_killedRun :
    ∃ state, (syncMachine 4).Reachable freshPids state ∧ state.control = .synced ∧
      ∃ file ∈ state.queue, ∀ child ∈ state.children,
        some file.path ∈ child.argv → child.succeeded = false := by
  have executed : ((syncMachine 4).run freshPids (rsyncDaemon 1 "a:b".toList)
      (killedRun [plainFile "/s/./a".toList 1])).any (fun state =>
        decide (state.control = .synced ∧ ∃ file ∈ state.queue, ∀ child ∈ state.children,
          some file.path ∈ child.argv → child.succeeded = false)) = true := by
    decide +kernel
  obtain ⟨state, reachable, ended⟩ := Machine.exists_of_run (rsyncDaemon_initial 1 _) executed
  exact ⟨state, reachable, of_decide_eq_true ended⟩

end State

end CephGeoRep
