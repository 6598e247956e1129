import CephGeoRep.Syncer.Headroom
import CephGeoRep.Syncer.Memory
import CephGeoRep.Syncer.Progress

/-!
# How much a call of `sync` does

Only two endings of a child make `sync` repeat itself: the exit codes after which a batch
is tried again, and an argument vector that was too long. The second one uses up the
memory limit, so a call takes a bounded number of steps (each a `fork`, `wait` or `kill`, or
the end of a round), plus two for each child whose exit code asks for a retry.
-/

namespace CephGeoRep

open Semantics

/-- The exit codes after which the same batch is launched again. -/
def retriedCodes : List Nat := [protocolStream, partialXfr, timeoutSR, timeoutConn, sshFail]

/-- Ended with such a code and not waited for yet. -/
def Child.endsRetried (child : Child) : Bool :=
  match child.phase with
  | .zombie status => decide (wexitstatus status.encode ∈ retriedCodes)
  | _ => false

namespace State

/-- `wait` returns a child whose batch will be tried again. -/
def retries (state : State) : Choice → Bool
  | .wait index _ =>
    decide (state.control = .waiting) && state.children[index]?.any Child.endsRetried
  | _ => false

end State

/-- A step of the parent within `sync`: `fork`, `wait`, `kill`, and what follows a
round. -/
def Choice.withinSync : Choice → Bool
  | .fork _ | .forkFails | .wait .. | .noChildren | .kill | .afterRound => true
  | .sync .. | .deleteSnap _ | .child .. | .signal .. => false

/-- `limit` is the memory limit at the call of `sync`, `spent` the number of its
steps and `retried` that of the children that had to be tried again. -/
structure Effort where
  limit : Nat
  spent : Nat
  retried : Nat
deriving DecidableEq

/-- Counts what a call of `sync` does. -/
def effortObserver : Observer State Choice Effort Empty where
  start state := ⟨state.syncer.maxMemUsage, 0, 0⟩
  note state choice _ effort :=
    match choice with
    | .sync .. => ⟨state.syncer.maxMemUsage, 0, 0⟩
    | choice => ⟨effort.limit, effort.spent + choice.withinSync.toNat,
        effort.retried + (state.retries choice).toNat⟩
  see _ event _ := event.elim

/-- Every file fits on a fresh payload, whatever the limit has become. -/
def fitting (both : Observed State Effort) : Choice ⊕ Empty → Prop
  | .inl (.sync ..) => True
  | _ => ∀ file ∈ both.state.queue, both.state.syncer.fits file = true

instance (both : Observed State Effort) (choice : Choice ⊕ Empty) :
    Decidable (fitting both choice) :=
  match choice with
  | .inl (.sync ..) => .isTrue trivial
  | .inl (.fork _) | .inl .forkFails | .inl (.wait ..) | .inl .noChildren | .inl .kill
  | .inl .afterRound | .inl (.deleteSnap _) | .inl (.child ..) | .inl (.signal ..) =>
    inferInstanceAs (Decidable (∀ file ∈ both.state.queue, both.state.syncer.fits file = true))
  | .inr event => event.elim

/-- `sync` has been called and has neither returned nor ended the process. -/
def Control.inSync : Control → Bool
  | .idle | .synced | .exited | .undefined => false
  | _ => true

/-- The loops that fork stop behind their last process. -/
def Control.occupied : Control → Bool
  | .launching todo | .relaunching todo | .failingOver todo => !todo.isEmpty
  | _ => true

namespace State

/-! ## What is due -/

/-- What a round may cost. -/
def roundCost (state : State) : Nat :=
  2 * state.queue.length +
    3 * Syncer.launchCount state.syncer.nproc state.queue.length + 3

/-- The files that are in no batch yet. -/
def unformed (state : State) : Nat :=
  state.queue.length - (state.formed.flatMap Prod.snd).length

/-- What is left to do in the current round. A process without a child is launched and
waited for; a batch that is still to be formed brings its process into that situation; and
when an argument vector is too long each process is killed. -/
def dueInRound (state : State) : Nat :=
  match state.control with
  | .launching _ | .relaunching _ | .failingOver _ | .waiting =>
    2 * state.unformed + 2 * state.childless.length + state.outstandingCount +
      state.numSshFailsToInc + 3
  | .killing todo => todo.length + state.outstandingCount + 3
  | .reaping => state.outstandingCount + 2
  | .returned _ => 1
  | .idle | .synced | .exited | .undefined => 0

/-- What is left to do in the call: the round, and one for each headroom in the limit. -/
def due (state : State) : Nat :=
  state.syncer.maxMemUsage / memLimHeadroom * state.roundCost + state.dueInRound

variable {capacity : Nat} {state next : State} {choice : Choice} {loop : List Nat → Control}
  {todo : List Nat} {process : SyncProcess} {index : Nat} {child : Child} {exitCode : Nat}

theorem dueInRound_of_inRound (inRound : state.control.inRound = true) :
    state.dueInRound = 2 * state.unformed + 2 * state.childless.length +
      state.outstandingCount + state.numSshFailsToInc + 3 := by
  unfold dueInRound
  cases control : state.control <;> simp_all [Control.inRound]

/-- What is due where a loop of the round leads. -/
theorem dueInRound_continueWith (isLoop : IsLoop loop) :
    (state.continueWith loop todo).dueInRound ≤
      2 * state.unformed + 2 * (todo.length + state.sshFailProcs.length) +
        state.outstandingCount + state.numSshFailsToInc + 3 := by
  have childless := length_childless_continueWith state todo isLoop
  by_cases inRound : (state.continueWith loop todo).control.inRound = true
  · rw [dueInRound_of_inRound inRound]
    change 2 * state.unformed + 2 * _ + state.outstandingCount + state.numSshFailsToInc + 3 ≤ _
    omega
  · rcases control_continueWith state loop todo with equal | ⟨_, _, equal⟩ | ⟨_, _, equal⟩
    · rw [equal] at inRound
      rcases isLoop with rfl | rfl | rfl <;> exact absurd rfl inRound
    · rw [equal] at inRound
      exact absurd rfl inRound
    · simp only [dueInRound, equal]
      omega

/-- Batches are formed from the files of the queue, each at most once. -/
theorem Batched.formed_length_le (batched : state.Batched) :
    (state.formed.flatMap Prod.snd).length ≤ state.queue.length := by
  have inside : state.formed.flatMap Prod.snd ⊆ List.range state.queue.length := by
    intro position member
    obtain ⟨entry, listed, visited⟩ := List.mem_flatMap.mp member
    exact List.mem_range.mpr (batched.formed_inside entry listed position visited)
  have total := (List.subperm_of_subset batched.formed_once inside).length_le
  rwa [List.length_range] at total

/-- The limit of the syncer is that of its processes. -/
def Uniform (state : State) : Prop :=
  state.control ≠ .exited →
    ∀ process ∈ state.procs, process.maxMemUsage = state.syncer.maxMemUsage

theorem uniform_invariant {guard : Machine.Guard State Choice} :
    (syncMachine capacity).Invariant guard Uniform where
  initial := by
    rintro state ⟨tokenize, argMax, envpSize, config, rfl⟩ _ process member
    cases member
  preserved state choice next _ uniform _ taken := by
    intro goesOn process member
    have before := uniform fun exited => goesOn (exited_of_step exited taken)
    have move := moves_of_step taken
    rcases maxMemUsage_of_move move goesOn 0 with ⟨_, same⟩ | ⟨_, _, _, fresh⟩
    · have origin := procOrigin_of_move move member
      rcases maxMemUsage_of_origin origin with equal | ⟨old, listed, equal⟩
      · exact equal
      · rw [equal, same]
        exact before old listed
    · exact fresh process member

/-! ## What a step costs -/

/-- A process that goes on takes at least one file if every file fits. -/
theorem unformed_of_consume {id : Nat} (counted : state.Counted) (uniform : state.Uniform)
    (running : state.control ≠ .exited) (member : process ∈ state.procs)
    (left : process.done state.queue = false)
    (fits : ∀ file ∈ state.queue, state.syncer.fits file = true)
    (queue : next.queue = state.queue) (batched : next.Batched)
    (formed : next.formed = state.formed ++
      [(id, (process.reset.consume state.queue state.destination).batch)]) :
    next.unformed + 1 ≤ state.unformed := by
  have inside : process.fileItr < state.queue.length := by
    simpa [SyncProcess.done] using left
  have found : state.queue[process.reset.fileItr]? = some state.queue[process.fileItr] :=
    List.getElem?_eq_getElem inside
  have empty : process.reset.fullTest state.queue[process.fileItr] = false := by
    have fit := fits _ (List.getElem_mem inside)
    have start : process.reset.currMemUsage = state.syncer.startMemUsage :=
      (counted.procs process member).2
    have limit : process.reset.maxMemUsage = state.syncer.maxMemUsage :=
      uniform running process member
    simpa [SyncProcess.fullTest, Syncer.fits, start, limit] using fit
  have taken := List.length_pos_iff.mpr (SyncProcess.consume_ne_nil found empty state.destination)
  have total := batched.formed_length_le
  simp only [formed, queue, List.flatMap_append, List.flatMap_singleton,
    List.length_append] at total
  simp only [unformed, formed, queue, List.flatMap_append, List.flatMap_singleton,
    List.length_append]
  omega

theorem unformed_of_handled (counted : state.Counted) (uniform : state.Uniform)
    (running : state.control ≠ .exited) (member : process ∈ state.procs)
    (fits : ∀ file ∈ state.queue, state.syncer.fits file = true) (batched : next.Batched)
    (handled : Handled state process exitCode next) (zero : exitCode = 0)
    (left : process.done state.queue = false) : next.unformed + 1 ≤ state.unformed := by
  cases handled with
  | finished _ done => exact absurd (done.symm.trans left) (by decide)
  | more _ _ =>
      exact unformed_of_consume counted uniform running member left fits rfl batched rfl
  | tooBig nonzero _ _ => exact absurd zero nonzero
  | fail nonzero _ => exact absurd zero nonzero
  | retry nonzero _ => exact absurd zero nonzero
  | park code _ => exact absurd (code.symm.trans zero) (by decide)
  | failOver code _ => exact absurd (code.symm.trans zero) (by decide)

/-- The body of the wait loop leaves no more to do than there was, unless the batch has to
be tried again. -/
theorem dueInRound_of_handled (accounted : state.Accounted) (waiting : state.control = .waiting)
    (handled : Handled state process exitCode next)
    (more : process.done state.queue = false → exitCode = 0 →
      next.unformed + 1 ≤ state.unformed) :
    next.dueInRound ≤ state.dueInRound + 2 * (decide (exitCode ∈ retriedCodes)).toNat := by
  have here : state.dueInRound = 2 * state.unformed + 2 * state.sshFailProcs.length +
      state.outstandingCount + state.numSshFailsToInc + 3 := by
    rw [dueInRound_of_inRound (by rw [waiting]; rfl), childless_of_waiting waiting]
  have few := accounted.few
  rw [here]
  cases handled with
  | finished zero done =>
      refine Nat.le_trans (dueInRound_continueWith relaunching_isLoop) ?_
      change 2 * state.unformed + 2 * (state.sshFailProcs.length + 0) +
        state.outstandingCount + state.numSshFailsToInc + 3 ≤ _
      omega
  | more zero left =>
      have fewer : ((state.retire process).consume process.reset).1.unformed + 1 ≤
          state.unformed := more left zero
      refine Nat.le_trans (dueInRound_continueWith relaunching_isLoop) ?_
      change 2 * ((state.retire process).consume process.reset).1.unformed +
        2 * (state.sshFailProcs.length + 1 + 0) +
        state.outstandingCount + state.numSshFailsToInc + 3 ≤ _
      omega
  | tooBig _ _ _ =>
      have others : (state.procs.filter fun other =>
          other.pid ≠ 0 && other.pid ≠ process.pid).length ≤ state.procs.length :=
        List.length_filter_le _ _
      change ((state.procs.filter fun other => _).map SyncProcess.pid).length +
        state.outstandingCount + 3 ≤ _
      rw [List.length_map]
      omega
  | fail _ _ =>
      change 1 ≤ _
      omega
  | retry _ code =>
      have charged : exitCode ∈ retriedCodes := List.mem_append_left [sshFail] code
      rw [decide_eq_true charged]
      change 2 * state.unformed + 2 * (state.sshFailProcs.length + 1) +
        state.outstandingCount + state.numSshFailsToInc + 3 ≤ _
      simp only [Bool.toNat_true]
      omega
  | park code few =>
      have charged : exitCode ∈ retriedCodes := by simp [retriedCodes, code]
      rw [decide_eq_true charged]
      change 2 * state.unformed + 2 * (state.sshFailProcs ++ [process.id]).length +
        state.outstandingCount + state.numSshFailsToInc + 3 ≤ _
      rw [List.length_append, List.length_singleton, Bool.toNat_true]
      omega
  | failOver code enough =>
      have charged : exitCode ∈ retriedCodes := by simp [retriedCodes, code]
      rw [decide_eq_true charged]
      change 2 * state.unformed + 2 * (state.procs.map SyncProcess.id ++ []).length +
        state.outstandingCount + state.numSshFailsToInc + 3 ≤ _
      rw [List.append_nil, List.length_map, Bool.toNat_true]
      omega

/-- What is due at the start of a round. -/
theorem dueInRound_startRound (gone : state.outstanding = []) (nproc : Nat) (pos : 0 < nproc) :
    (state.startRound nproc pos).dueInRound = 2 * state.queue.length + 3 * nproc + 3 := by
  have none : (state.startRound nproc pos).outstandingCount = 0 := by
    simp [outstandingCount, startRound, gone]
  have waiting : (state.startRound nproc pos).childless.length = nproc := by
    simp [childless, startRound, Control.inRound, Control.todo]
  have count : (state.startRound nproc pos).numSshFailsToInc = nproc := rfl
  have unformed : (state.startRound nproc pos).unformed = state.queue.length := by
    simp [State.unformed, startRound]
  rw [dueInRound_of_inRound rfl, none, waiting, unformed, count]
  omega

theorem due_launchProcs (gone : state.outstanding = []) :
    state.launchProcs.due =
      (state.syncer.maxMemUsage / memLimHeadroom + 1) * state.roundCost := by
  have cost : ∀ nproc pos, (state.startRound nproc pos).roundCost = state.roundCost :=
    fun _ _ => by simp only [roundCost, startRound]
  have limit : ∀ nproc pos, (state.startRound nproc pos).syncer = state.syncer :=
    fun _ _ => by simp only [startRound]
  rw [due, launchProcs, dueInRound_startRound gone, cost, limit, Nat.add_mul, Nat.one_mul,
    ← roundCost]

/-- Where the limit stays as it is, only the round counts. -/
theorem due_le {spent refund : Nat} (limit : next.syncer.maxMemUsage = state.syncer.maxMemUsage)
    (cost : next.roundCost = state.roundCost)
    (round : next.dueInRound + spent ≤ state.dueInRound + refund) :
    next.due + spent ≤ state.due + refund := by
  rw [due, due, limit, cost]
  omega

/-- A launch takes a process off the list and adds a child. -/
theorem dueInRound_of_fork {id pid : Nat} (isLoop : IsLoop loop)
    (control : state.control = loop (id :: todo)) (process started : SyncProcess)
    {formed : List (Nat × List Nat)}
    (grown : (state.formed.flatMap Prod.snd).length ≤ (formed.flatMap Prod.snd).length) :
    (continueWith { state.setProc started with
      children := state.children ++ [Child.fork process pid state.destination]
      formed := formed } loop todo).dueInRound + 1 ≤ state.dueInRound := by
  have count : (state.children ++ [Child.fork process pid state.destination]).countP
      Child.outstanding = state.outstandingCount + 1 := by
    simp [outstandingCount]
  have fewer : state.queue.length - (formed.flatMap Prod.snd).length ≤ state.unformed :=
    Nat.sub_le_sub_left grown _
  have led := @dueInRound_continueWith { state.setProc started with
      children := state.children ++ [Child.fork process pid state.destination]
      formed := formed } loop todo isLoop
  change _ ≤ 2 * (state.queue.length - (formed.flatMap Prod.snd).length) +
    2 * (todo.length + state.sshFailProcs.length) +
    (state.children ++ [Child.fork process pid state.destination]).countP Child.outstanding +
    state.numSshFailsToInc + 3 at led
  rw [count] at led
  have here := dueInRound_of_inRound (inRound_of_loop isLoop control)
  rw [childless_of_loop isLoop control, List.length_append, List.length_cons] at here
  omega

/-- A child that has been waited for is not due any more. -/
theorem dueInRound_reap {status : WaitStatus}
    (control : state.control = .waiting ∨ state.control = .reaping)
    (found : state.children[index]? = some child) (ended : child.phase = .zombie status) :
    (state.reap index child status).dueInRound + 1 = state.dueInRound := by
  have fewer := outstandingCount_reap found ended
  rcases control with waiting | reaping
  · have inRound : state.control.inRound = true := by
      rw [waiting]
      rfl
    rw [@dueInRound_of_inRound (state.reap index child status) inRound,
      dueInRound_of_inRound inRound]
    change 2 * state.unformed + 2 * state.childless.length + _ + state.numSshFailsToInc + 3 + 1 = _
    omega
  · have before : state.dueInRound = state.outstandingCount + 2 := by
      simp only [dueInRound, reaping]
    have after : (state.reap index child status).dueInRound =
        (state.reap index child status).outstandingCount + 2 := by
      simp only [dueInRound, show (state.reap index child status).control = .reaping from reaping]
    omega

/-- What the children do by themselves makes no difference. -/
theorem dueInRound_of_carried {children : List Child}
    (carried : children.countP Child.outstanding = state.children.countP Child.outstanding)
    (snapshot : Bool) :
    dueInRound { state with children := children, snapshot := snapshot } = state.dueInRound := by
  unfold dueInRound
  simp only [outstandingCount, carried]
  rfl

/-- Every step of the parent is paid for. -/
theorem due_of_move (accounted : state.Accounted) (batched : next.Batched)
    (counted : state.Counted) (uniform : state.Uniform)
    (fits : ∀ file ∈ state.queue, state.syncer.fits file = true)
    (within : ∀ queue sorted, choice ≠ .sync queue sorted)
    (move : Move capacity state choice next) :
    next.due + choice.withinSync.toNat ≤ state.due + 2 * (state.retries choice).toNat := by
  have paid : ∀ {next : State}, next.syncer.maxMemUsage = state.syncer.maxMemUsage →
      next.roundCost = state.roundCost → next.dueInRound + 1 ≤ state.dueInRound →
      next.due + 1 ≤ state.due + 2 * (state.retries choice).toNat :=
    fun limit cost round => due_le limit cost (Nat.le_add_right_of_le round)
  have ending : ∀ {result : LaunchProcsRet}, state.control = .returned result →
      state.dueInRound = 1 := by
    intro result returned
    simp only [dueInRound, returned]
  have positive : state.control.inRound = true → 1 < state.dueInRound := by
    intro inRound
    rw [dueInRound_of_inRound inRound]
    omega
  cases move with
  | sync _ _ _ => exact absurd rfl (within _ _)
  | newRound returned room =>
      have fewer := Nat.div_eq_sub_div (show 0 < memLimHeadroom by simp [memLimHeadroom])
        (show memLimHeadroom ≤ state.syncer.maxMemUsage by omega)
      have lower := @due_launchProcs { state with
        syncer := { state.syncer with
          maxMemUsage := state.syncer.maxMemUsage - memLimHeadroom } }
        (accounted.outstanding_eq_nil (by rw [returned]; rfl))
      have here : state.due = state.syncer.maxMemUsage / memLimHeadroom * state.roundCost + 1 := by
        rw [due, ending returned]
      rw [lower, here, fewer]
      exact Nat.le_add_right _ _
  | launch control found forkable =>
      rw [launch_eq]
      refine paid rfl rfl (dueInRound_of_fork launching_isLoop control _ _ ?_)
      rw [List.flatMap_append, List.length_append]
      exact Nat.le_add_right _ _
  | relaunch control found forkable =>
      exact paid rfl rfl (dueInRound_of_fork relaunching_isLoop control _ _ (Nat.le_refl _))
  | failOver control found forkable =>
      exact paid rfl rfl (dueInRound_of_fork failingOver_isLoop control _ _ (Nat.le_refl _))
  | dangling looping missing =>
      have inRound := positive (by rcases looping with here | here | here <;> rw [here] <;> rfl)
      exact paid rfl rfl (by change 0 + 1 ≤ _; omega)
  | forkFails looping =>
      have inRound := positive (by rcases looping with here | here | here <;> rw [here] <;> rfl)
      exact paid rfl rfl (by change 0 + 1 ≤ _; omega)
  | stray waiting found ended unknown =>
      exact paid rfl rfl (Nat.le_of_eq (dueInRound_reap (.inl waiting) found ended))
  | @returned index child status logOpens process _ waiting found ended owner handled =>
      have member := List.mem_of_find?_eq_some owner
      have charged : state.retries (.wait index logOpens) =
          decide (wexitstatus status.encode ∈ retriedCodes) := by
        simp [retries, waiting, found, Child.endsRetried, ended]
      have kept : next.syncer.maxMemUsage = state.syncer.maxMemUsage ∧
          next.roundCost = state.roundCost ∧ next.queue = state.queue := by
        cases handled <;> exact ⟨rfl, rfl, rfl⟩
      have before := dueInRound_reap (.inl waiting) found ended
      have after := dueInRound_of_handled (accounted.reap found ended) waiting handled
        fun left zero => unformed_of_handled ⟨counted.start, counted.procs⟩ uniform
          (show state.control ≠ .exited by rw [waiting]; simp) member fits batched handled zero left
      refine due_le kept.1 kept.2.1 ?_
      rw [charged]
      change next.dueInRound + 1 ≤ _
      omega
  | reap reaping found ended =>
      exact paid rfl rfl (Nat.le_of_eq (dueInRound_reap (.inr reaping) found ended))
  | noneLeft waiting none =>
      have inRound := positive (by rw [waiting]; rfl)
      exact paid rfl rfl (by change 1 + 1 ≤ _; omega)
  | allReaped reaping none =>
      refine paid rfl rfl ?_
      simp only [dueInRound, reaping]
      omega
  | kill killing =>
      refine paid rfl rfl ?_
      simp only [dueInRound, killing, outstandingCount, countP_sendSigint, List.length_cons]
      omega
  | killed killing =>
      refine paid rfl rfl ?_
      simp only [dueInRound, killing, List.length_nil]
      change state.outstandingCount + 2 + 1 ≤ _
      omega
  | success returned =>
      exact paid rfl rfl (Nat.le_of_eq (ending returned).symm)
  | failure returned unsuccessful =>
      exact paid rfl rfl (Nat.le_of_eq (ending returned).symm)
  | deleted synced => exact due_le rfl rfl (Nat.zero_le _)
  | notDeleted synced => exact due_le rfl rfl (Nat.zero_le _)
  | child found taken =>
      have carried := countP_set_of_continues found (Child.continues_of_step taken).outstanding
      exact due_le rfl rfl (Nat.le_of_eq (dueInRound_of_carried carried _))
  | @signal index child signal found live =>
      have carried : (state.children.set index { child with
          pending := signal :: child.pending }).countP Child.outstanding = _ :=
        countP_set_of_continues found rfl
      exact due_le rfl rfl (Nat.le_of_eq (dueInRound_of_carried carried state.snapshot))

variable {both : Observed State Effort}

/-- What has been spent and what is still due is paid for by the limit and the retries. -/
def Affordable (both : Observed State Effort) : Prop :=
  both.record.spent + both.state.due ≤
    (both.record.limit / memLimHeadroom + 1) * both.state.roundCost + 2 * both.record.retried

theorem roundCost_of_move (within : ∀ queue sorted, choice ≠ .sync queue sorted)
    (move : Move capacity state choice next) : next.roundCost = state.roundCost := by
  cases move with
  | sync _ _ _ => exact absurd rfl (within _ _)
  | returned _ _ _ _ handled => cases handled <;> rfl
  | newRound _ _ => simp only [roundCost, launchProcs, startRound]
  | _ => rfl

/-- The call itself: everything is still to be done. -/
theorem due_of_sync {queue sorted : List File} (accounted : state.Accounted)
    (taken : state.step capacity (.sync queue sorted) = some next) :
    next.due = (state.syncer.maxMemUsage / memLimHeadroom + 1) * next.roundCost := by
  cases moves_of_step taken with
  | sync idle _ _ =>
      have gone := accounted.outstanding_eq_nil (by rw [idle]; rfl)
      rw [@due_launchProcs { state with queue := sorted, snapshot := true } gone]
      simp only [roundCost, launchProcs, startRound]

theorem affordable_invariant :
    (effortObserver.watch (syncMachine capacity)).Invariant fitting Affordable := by
  refine Observer.invariant ?_ ?_ fun _ event => event.elim
  · rintro state ⟨tokenize, argMax, envpSize, config, rfl⟩
    generalize Syncer.new tokenize argMax envpSize config = syncer
    have record : effortObserver.start (.start syncer) = ⟨syncer.maxMemUsage, 0, 0⟩ := rfl
    have none : (State.start syncer).dueInRound = 0 := rfl
    have limit : (State.start syncer).syncer = syncer := rfl
    rw [Affordable, record, due, none, limit, Nat.add_mul]
    dsimp only
    omega
  · intro both choice next watched affordable allowed taken
    have taken : both.state.step capacity choice = some next := taken
    have reachable : (syncMachine capacity).Reachable Machine.unguarded both.state :=
      Observer.reachable watched fun _ _ _ => trivial
    have accounted := accounted_invariant.of_reachable reachable
    by_cases call : ∃ queue sorted, choice = .sync queue sorted
    · obtain ⟨queue, sorted, rfl⟩ := call
      have record : effortObserver.note both.state (.sync queue sorted) next both.record =
          ⟨both.state.syncer.maxMemUsage, 0, 0⟩ := rfl
      rw [Affordable, record, due_of_sync accounted taken]
      dsimp only
      omega
    · have within : ∀ queue sorted, choice ≠ .sync queue sorted :=
        fun queue sorted same => call ⟨queue, sorted, same⟩
      have fits : ∀ file ∈ both.state.queue, both.state.syncer.fits file = true := by
        cases choice <;> first | exact allowed | exact absurd rfl (within _ _)
      have paid := due_of_move accounted
        (batched_invariant.of_reachable (reachable_step reachable trivial taken))
        (counted_invariant.of_reachable reachable) (uniform_invariant.of_reachable reachable)
        fits within (moves_of_step taken)
      have noted : effortObserver.note both.state choice next both.record =
          ⟨both.record.limit, both.record.spent + choice.withinSync.toNat,
            both.record.retried + (both.state.retries choice).toNat⟩ := by
        cases choice <;> first | rfl | exact absurd rfl (within _ _)
      rw [Affordable] at affordable ⊢
      rw [noted, roundCost_of_move within (moves_of_step taken)]
      dsimp only
      omega

/-! ## The call goes on -/

theorem occupied_continueWith (isLoop : IsLoop loop) :
    (state.continueWith loop todo).control.occupied = true := by
  cases todo with
  | cons id rest => rcases isLoop with rfl | rfl | rfl <;> rfl
  | nil =>
      by_cases empty : state.procs = []
      · simp [continueWith, loopHead, empty, Control.occupied]
      · simp [continueWith, loopHead, empty, Control.occupied]

theorem occupied_launchProcs : state.launchProcs.control.occupied = true := by
  have pos := Syncer.launchCount_pos state.syncer.nproc state.queue.length
  simp only [launchProcs, startRound, Control.occupied, Bool.not_eq_true',
    List.isEmpty_eq_false_iff, ne_eq, List.range_eq_nil]
  omega

theorem occupied_of_move (occupied : state.control.occupied = true)
    (move : Move capacity state choice next) : next.control.occupied = true := by
  cases move with
  | launch _ _ _ => exact occupied_continueWith launching_isLoop
  | relaunch _ _ _ => exact occupied_continueWith relaunching_isLoop
  | failOver _ _ _ => exact occupied_continueWith failingOver_isLoop
  | sync _ _ _ => exact occupied_launchProcs
  | newRound _ _ => exact occupied_launchProcs
  | @returned _ _ _ _ process _ _ _ _ owner handled =>
      cases handled with
      | finished _ _ => exact occupied_continueWith relaunching_isLoop
      | more _ _ => exact occupied_continueWith relaunching_isLoop
      | failOver _ _ =>
          have member : process ∈ state.procs := List.mem_of_find?_eq_some owner
          have some : (state.procs.map SyncProcess.id).isEmpty = false := by
            rw [List.isEmpty_eq_false_iff]
            exact List.ne_nil_of_mem (List.mem_map_of_mem member)
          exact congrArg not some
      | _ => rfl
  | child _ _ => exact occupied
  | signal _ _ => exact occupied
  | stray _ _ _ _ => exact occupied
  | reap _ _ _ => exact occupied
  | _ => rfl

theorem occupied_invariant {guard : Machine.Guard State Choice} :
    (syncMachine capacity).Invariant guard fun state => state.control.occupied = true where
  initial := by
    rintro state ⟨tokenize, argMax, envpSize, config, rfl⟩
    rfl
  preserved _ _ _ _ occupied _ taken := occupied_of_move occupied (moves_of_step taken)

theorem goesOn_of_isSome (within : choice.withinSync = true)
    (taken : (state.step capacity choice).isSome = true) :
    ∃ choice next, choice.withinSync = true ∧ state.step capacity choice = some next := by
  obtain ⟨next, taken⟩ := Option.isSome_iff_exists.mp taken
  exact ⟨choice, next, within, taken⟩

/-- A loop that forks can go on. -/
theorem goesOn_of_loop {id : Nat} (isLoop : IsLoop loop)
    (control : state.control = loop (id :: todo)) :
    ∃ choice next, choice.withinSync = true ∧ state.step capacity choice = some next := by
  obtain ⟨pid, next, taken⟩ := exists_fork isLoop control capacity
  exact ⟨.fork pid, next, rfl, taken⟩

theorem zombie_of_outstanding (held : child.outstanding = true) (ended : child.live = false) :
    ∃ status, child.phase = .zombie status := by
  rw [Child.outstanding] at held
  rw [Child.live] at ended
  cases phase : child.phase <;> simp_all

/-- A `wait` returns when all children have ended. -/
theorem goesOn_of_wait (control : state.control = .waiting ∨ state.control = .reaping)
    (ended : ∀ child ∈ state.outstanding, child.live = false) :
    ∃ choice next, choice.withinSync = true ∧ state.step capacity choice = some next := by
  by_cases none : state.outstanding = []
  · apply goesOn_of_isSome (show Choice.noChildren.withinSync = true from rfl)
    rcases control with waiting | reaping
    · simp [step, none, waiting]
    · simp [step, none, reaping]
  · obtain ⟨child, member⟩ := List.exists_mem_of_ne_nil _ none
    obtain ⟨listed, held⟩ := List.mem_filter.mp member
    obtain ⟨status, zombie⟩ := zombie_of_outstanding held (ended child member)
    obtain ⟨index, found⟩ := List.mem_iff_getElem?.mp listed
    apply goesOn_of_isSome (show (Choice.wait index true).withinSync = true from rfl)
    simp only [step, waitStep, found, zombie]
    rcases control with waiting | reaping
    · rw [waiting]
      dsimp only
      split <;> rfl
    · rw [reaping]
      rfl

/-- Only a child that has not ended keeps the parent from going on. -/
theorem goesOn_of_occupied (occupied : state.control.occupied = true)
    (inSync : state.control.inSync = true)
    (ended : ∀ child ∈ state.outstanding, child.live = false) :
    ∃ choice next, choice.withinSync = true ∧ state.step capacity choice = some next := by
  cases control : state.control with
  | idle => rw [control] at inSync; cases inSync
  | synced => rw [control] at inSync; cases inSync
  | exited => rw [control] at inSync; cases inSync
  | undefined => rw [control] at inSync; cases inSync
  | waiting => exact goesOn_of_wait (.inl control) ended
  | reaping => exact goesOn_of_wait (.inr control) ended
  | returned result =>
      apply goesOn_of_isSome (show Choice.afterRound.withinSync = true from rfl)
      simp [step, control]
  | killing todo =>
      apply goesOn_of_isSome (show Choice.kill.withinSync = true from rfl)
      cases todo <;> simp [step, control]
  | launching todo =>
      cases todo with
      | nil => rw [control] at occupied; cases occupied
      | cons id todo => exact goesOn_of_loop launching_isLoop control
  | relaunching todo =>
      cases todo with
      | nil => rw [control] at occupied; cases occupied
      | cons id todo => exact goesOn_of_loop relaunching_isLoop control
  | failingOver todo =>
      cases todo with
      | nil => rw [control] at occupied; cases occupied
      | cons id todo => exact goesOn_of_loop failingOver_isLoop control

/-- A call of `sync` on files that fit takes at most so many steps: for each headroom in
its memory limit, and once more, two for each file and three for each process and three
more; and two for each child whose batch had to be tried again. As long as it has not
returned it can take another one, unless it waits for a child that has not ended. -/
theorem effort_of_reachable
    (reachable : (effortObserver.watch (syncMachine capacity)).Reachable fitting both) :
    both.record.spent ≤ (both.record.limit / memLimHeadroom + 1) *
        (2 * both.state.queue.length +
          3 * Syncer.launchCount both.state.syncer.nproc both.state.queue.length + 3) +
      2 * both.record.retried ∧
    (both.state.control.inSync = true →
      (∀ child ∈ both.state.outstanding, child.live = false) →
      ∃ choice next, choice.withinSync = true ∧ both.state.step capacity choice = some next) := by
  have unwatched : (syncMachine capacity).Reachable Machine.unguarded both.state :=
    Observer.reachable reachable fun _ _ _ => trivial
  constructor
  · exact Nat.le_trans (Nat.le_add_right _ _) (affordable_invariant.of_reachable reachable)
  · exact goesOn_of_occupied (occupied_invariant.of_reachable unwatched)

/-- Two processes; the batch of the first is tried again once, then both succeed. -/
def retriedRun : List (Choice ⊕ Empty) :=
  let files := [plainFile "/s/./a".toList 1, plainFile "/s/./b".toList 2]
  (([.sync files files, .fork 11, .fork 12] : List Choice) ++ childExits 0 partialXfr ++
    ([.wait 0 true, .fork 13] : List Choice) ++ childExits 1 0 ++ childExits 2 0 ++
    ([.wait 1 true, .wait 2 true, .afterRound] : List Choice)).map .inl

theorem effort_of_retriedRun : ∃ both : Observed State Effort,
    both.record = ⟨2094080, 7, 1⟩ ∧
      7 ≤ (2094080 / memLimHeadroom + 1) * (2 * 2 + 3 * 2 + 3) + 2 := by
  have executed : ((effortObserver.watch (syncMachine 4)).run fitting
      ⟨rsyncDaemon 2 "a:b".toList, effortObserver.start (rsyncDaemon 2 "a:b".toList)⟩
      retriedRun).any (fun both => decide (both.record = ⟨2094080, 7, 1⟩ ∧
        both.state.queue.length = 2 ∧
        Syncer.launchCount both.state.syncer.nproc 2 = 2)) = true := by
    decide +kernel
  obtain ⟨both, reachable, ended⟩ :=
    Machine.exists_of_run (by exact ⟨rsyncDaemon_initial 2 _, rfl⟩) executed
  obtain ⟨record, files, count⟩ := of_decide_eq_true ended
  have bounded := (effort_of_reachable reachable).1
  rw [record, files, count] at bounded
  exact ⟨both, record, bounded⟩

end State

end CephGeoRep
