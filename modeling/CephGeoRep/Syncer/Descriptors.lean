import CephGeoRep.Semantics.Observer
import CephGeoRep.Support.Ledger
import CephGeoRep.Syncer.Accounting

/-!
# The descriptors of the pipes

The member `pipefd_` of a process object goes through the constructor, `sync_batch`,
`reset` and the destructor. `calls` lists the calls that a step of the parent makes on
its process objects, and an observer performs them on the descriptors. The ledger is
what `pipe` gave to each object and the object has not closed since.
-/

namespace CephGeoRep

open Semantics Support

/-- The calls on process objects that touch `pipefd_`, and `log_errors`, which reads from
it. In `batchFails` the `mmap` or the `fork` of `sync_batch` fails. -/
inductive Call where
  | construct (id : Nat)
  | syncBatch (id : Nat)
  | batchFails (id : Nat)
  | logErrors (id : Nat)
  | reset (id : Nat)
  | destroy (id : Nat)
deriving DecidableEq

namespace State

/-- The process that `find_if` finds for the child at `index`, and how the child ended. -/
def returnedTo (state : State) (index : Nat) : Option (SyncProcess × WaitStatus) :=
  match state.children[index]? with
  | some child =>
    match child.phase with
    | .zombie status =>
      (state.procs.find? fun process => process.pid == child.pid).map fun process =>
        (process, status)
    | _ => none
  | none => none

/-- The calls of the wait loop behind `find_if`, up to the next `fork`. -/
def waitCalls (state : State) (index : Nat) : List Call :=
  match state.returnedTo index with
  | some (process, status) =>
    if wexitstatus status.encode = 0 then
      .reset process.id :: if process.reset.done state.queue then [.destroy process.id] else []
    else if wexitstatus status.encode = checkShmem ∧ (state.execError process).isSome then []
    else [.logErrors process.id]
  | none => []

/-- The calls that a step of the parent makes. -/
def calls (state : State) : Choice → List Call
  | .sync _ sorted =>
    (List.range (Syncer.launchCount state.syncer.nproc sorted.length)).map .construct
  | .fork _ => (state.control.todo.take 1).map .syncBatch
  | .forkFails => (state.control.todo.take 1).map .batchFails
  | .wait index _ => if state.control = .waiting then state.waitCalls index else []
  | .noChildren =>
    if state.control = .reaping then state.procs.map fun process => .destroy process.id else []
  | .afterRound =>
    if state.control = .returned .incHeadroom ∧
        memLimHeadroom * 2 < state.syncer.maxMemUsage then
      (List.range (Syncer.launchCount state.syncer.nproc state.queue.length)).map .construct
    else []
  | .kill | .deleteSnap _ | .child .. | .signal .. => []

/-- The child at `index` calls `reset` on its process when `wait` returns it. -/
def resets (state : State) (index : Nat) : Bool :=
  decide (state.control = .waiting) &&
    (state.returnedTo index).any fun returned => wexitstatus returned.2.encode == 0

end State

/-- The members `pipefd_` of the process objects, where -1 stands for no descriptor, what
they own, and how often `pipe` has been called. -/
structure Descriptors where
  pipefd : Nat → Int × Int
  ledger : Ledger Nat Int
  pipes : Nat

namespace Descriptors

/-- `SyncProcess::SyncProcess`. -/
def construct (descriptors : Descriptors) (id : Nat) : Descriptors :=
  { descriptors with pipefd := Function.update descriptors.pipefd id (-1, -1) }

/-- `if(fd != -1) close(fd);` -/
def closeUnlessNone (descriptors : Descriptors) (id : Nat) (fd : Int) : Descriptors :=
  if fd = -1 then descriptors
  else { descriptors with ledger := descriptors.ledger.release id fd }

/-- The four lines that `sync_batch`, `reset` and the destructor share. -/
def closeEnds (descriptors : Descriptors) (id : Nat) : Descriptors :=
  (descriptors.closeUnlessNone id (descriptors.pipefd id).1).closeUnlessNone id
    (descriptors.pipefd id).2

/-- `pipe(pipefd_)`, whose result nobody looks at; a failure leaves the array alone. -/
def pipe (descriptors : Descriptors) (id : Nat) : Option (Nat × Nat) → Descriptors
  | some (readEnd, writeEnd) =>
    { pipefd := Function.update descriptors.pipefd id (readEnd, writeEnd)
      ledger := (descriptors.ledger.obtain id readEnd).obtain id writeEnd
      pipes := descriptors.pipes + 1 }
  | none => { descriptors with pipes := descriptors.pipes + 1 }

/-- The last lines of `sync_batch` in the parent. -/
def closeWriteEnd (descriptors : Descriptors) (id : Nat) : Descriptors :=
  { descriptors with
    ledger := descriptors.ledger.release id (descriptors.pipefd id).2
    pipefd := Function.update descriptors.pipefd id ((descriptors.pipefd id).1, -1) }

/-- What a call does to the descriptors, given the results of `pipe`. -/
def perform (pipes : Nat → Option (Nat × Nat)) (descriptors : Descriptors) : Call → Descriptors
  | .construct id => descriptors.construct id
  | .syncBatch id =>
    ((descriptors.closeEnds id).pipe id (pipes descriptors.pipes)).closeWriteEnd id
  | .batchFails id => (descriptors.closeEnds id).pipe id (pipes descriptors.pipes)
  | .logErrors _ => descriptors
  | .reset id | .destroy id => descriptors.closeEnds id

end Descriptors

/-- Performs the calls of every step of the parent. -/
def descriptors (pipes : Nat → Option (Nat × Nat)) : Observer State Choice Descriptors Empty where
  start _ := ⟨fun _ => (-1, -1), .empty, 0⟩
  note state choice _ record := (state.calls choice).foldl (.perform pipes) record
  see _ event _ := event.elim

/-- `pipe` gives out two descriptors that are not open. -/
def freshEnds (pipes : Nat → Option (Nat × Nat)) (record : Descriptors) : Prop :=
  ∀ ends ∈ pipes record.pipes, ends.1 ≠ ends.2 ∧
    (ends.1 : Int) ∉ record.ledger.owned.map Prod.snd ∧
    (ends.2 : Int) ∉ record.ledger.owned.map Prod.snd

instance (pipes : Nat → Option (Nat × Nat)) (record : Descriptors) :
    Decidable (freshEnds pipes record) :=
  inferInstanceAs (Decidable (∀ ends ∈ pipes record.pipes, _))

/-- What the kernel promises. -/
def honestPipes (pipes : Nat → Option (Nat × Nat)) (both : Observed State Descriptors) :
    Choice ⊕ Empty → Prop
  | .inl (.fork _) | .inl .forkFails => freshEnds pipes both.record
  | _ => True

/-- With that promise `pipe` never fails, and no child of a listed process is returned with
exit code 0. -/
def neverResets (pipes : Nat → Option (Nat × Nat)) (both : Observed State Descriptors) :
    Choice ⊕ Empty → Prop
  | .inl (.fork _) => pipes both.record.pipes ≠ none ∧ freshEnds pipes both.record
  | .inl .forkFails => freshEnds pipes both.record
  | .inl (.wait index _) => both.state.resets index = false
  | _ => True

instance (pipes : Nat → Option (Nat × Nat)) (both : Observed State Descriptors) :
    ∀ choice, Decidable (honestPipes pipes both choice)
  | .inl (.fork _) | .inl .forkFails => inferInstanceAs (Decidable (freshEnds pipes both.record))
  | .inl (.sync ..) | .inl (.wait ..) | .inl .noChildren | .inl .kill | .inl .afterRound
  | .inl (.deleteSnap _) | .inl (.child ..) | .inl (.signal ..) | .inr _ => .isTrue trivial

instance (pipes : Nat → Option (Nat × Nat)) (both : Observed State Descriptors) :
    ∀ choice, Decidable (neverResets pipes both choice)
  | .inl (.fork _) => inferInstanceAs
      (Decidable (pipes both.record.pipes ≠ none ∧ freshEnds pipes both.record))
  | .inl .forkFails => inferInstanceAs (Decidable (freshEnds pipes both.record))
  | .inl (.wait index _) => inferInstanceAs (Decidable (both.state.resets index = false))
  | .inl (.sync ..) | .inl .noChildren | .inl .kill | .inl .afterRound
  | .inl (.deleteSnap _) | .inl (.child ..) | .inl (.signal ..) | .inr _ => .isTrue trivial

namespace Descriptors

variable {record : Descriptors} {pipes : Nat → Option (Nat × Nat)} {id other pid : Nat}

/-! ## Single calls -/

/-- What `pipefd_` holds between two calls: the read end, as soon as the process has been
started. -/
structure Ends (record : Descriptors) (id pid : Nat) : Prop where
  writeEnd : (record.pipefd id).2 = -1
  readEnd : (record.pipefd id).1 ≠ -1 → (id, (record.pipefd id).1) ∈ record.ledger.owned
  started : pid ≠ 0 → (record.pipefd id).1 ≠ -1

/-- Descriptors are not negative, and the ledger is clean. -/
structure Clean (record : Descriptors) : Prop where
  ledger : record.ledger.Clean
  valid : ∀ pair ∈ record.ledger.owned, 0 ≤ pair.2

/-- Between two calls at most the read end is closed. -/
theorem closeEnds_of_ends (ends : record.Ends id pid) :
    record.closeEnds id = record.closeUnlessNone id (record.pipefd id).1 := by
  rw [closeEnds, ends.writeEnd]
  exact if_pos rfl

@[simp]
theorem closeUnlessNone_pipefd (fd : Int) :
    (record.closeUnlessNone id fd).pipefd = record.pipefd := by
  rw [closeUnlessNone]
  split <;> rfl

/-- A close adds nothing to what is owned. -/
theorem closeUnlessNone_sublist (fd : Int) :
    (record.closeUnlessNone id fd).ledger.owned.Sublist record.ledger.owned := by
  rw [closeUnlessNone]
  split
  · exact List.Sublist.refl _
  · exact record.ledger.release_sublist id fd

/-- The object closes what it owns. -/
theorem Clean.closeEnds (clean : record.Clean) (ends : record.Ends id pid) :
    (record.closeEnds id).Clean := by
  rw [closeEnds_of_ends ends]
  refine ⟨?_, fun pair member => clean.valid pair ((closeUnlessNone_sublist _).subset member)⟩
  rw [closeUnlessNone]
  split
  · exact clean.ledger
  · next held => exact clean.ledger.release (ends.readEnd held)

/-- The other objects keep what they own. -/
theorem Ends.closeEnds (ends : record.Ends id pid) {number : Nat}
    (others : record.Ends other number) (differs : other ≠ id) :
    (record.closeEnds id).Ends other number := by
  rw [closeEnds_of_ends ends]
  refine ⟨?_, fun held => ?_, fun running => ?_⟩
  · rw [closeUnlessNone_pipefd]
    exact others.writeEnd
  · rw [closeUnlessNone_pipefd] at held ⊢
    rw [closeUnlessNone]
    split
    · exact others.readEnd held
    · exact Ledger.mem_release_of_ne (fun same => differs (congrArg Prod.fst same))
        (others.readEnd held)
  · rw [closeUnlessNone_pipefd]
    exact others.started running

/-- Fresh ends are fresh for what is left after a close. -/
theorem freshEnds_of_ends {pair : Nat × Nat} (fresh : freshEnds pipes record)
    (ends : record.Ends id pid) (given : pipes record.pipes = some pair) :
    pair.1 ≠ pair.2 ∧ (pair.1 : Int) ∉ (record.closeEnds id).ledger.owned.map Prod.snd ∧
      (pair.2 : Int) ∉ (record.closeEnds id).ledger.owned.map Prod.snd := by
  rw [closeEnds_of_ends ends]
  obtain ⟨apart, first, second⟩ := fresh pair given
  have fewer : (record.closeUnlessNone id (record.pipefd id).1).ledger.owned.map Prod.snd ⊆
      record.ledger.owned.map Prod.snd := ((closeUnlessNone_sublist _).map Prod.snd).subset
  exact ⟨apart, fun inside => first (fewer inside), fun inside => second (fewer inside)⟩

/-- The object gets two descriptors that nobody owns. -/
theorem Clean.pipe {readEnd writeEnd : Nat} (clean : record.Clean) (apart : readEnd ≠ writeEnd)
    (first : (readEnd : Int) ∉ record.ledger.owned.map Prod.snd)
    (second : (writeEnd : Int) ∉ record.ledger.owned.map Prod.snd) :
    (record.pipe id (some (readEnd, writeEnd))).Clean := by
  constructor
  · refine (clean.ledger.obtain first id).obtain ?_ id
    simp only [Ledger.obtain, List.map_append, List.map_cons, List.map_nil, List.mem_append,
      List.mem_singleton, not_or]
    exact ⟨second, fun same => apart (Int.ofNat_inj.mp same).symm⟩
  · intro pair member
    simp only [Descriptors.pipe, Ledger.obtain, List.mem_append, List.mem_singleton] at member
    rcases member with (old | rfl) | rfl
    · exact clean.valid pair old
    · exact Int.natCast_nonneg readEnd
    · exact Int.natCast_nonneg writeEnd

/-- The object closes the write end that it owns. -/
theorem Clean.closeWriteEnd (clean : record.Clean)
    (owned : (id, (record.pipefd id).2) ∈ record.ledger.owned) :
    (record.closeWriteEnd id).Clean where
  ledger := clean.ledger.release owned
  valid pair member := clean.valid pair ((Ledger.release_sublist ..).subset member)

theorem Ends.pipe {number : Nat} (others : record.Ends other number) (differs : other ≠ id)
    (result : Option (Nat × Nat)) : (record.pipe id result).Ends other number := by
  cases result with
  | none => exact ⟨others.writeEnd, others.readEnd, others.started⟩
  | some given =>
      have same : (record.pipe id (some given)).pipefd other = record.pipefd other :=
        Function.update_of_ne differs ..
      refine ⟨same ▸ others.writeEnd, fun held => ?_, same ▸ others.started⟩
      rw [same] at held ⊢
      exact Ledger.mem_obtain.mpr (.inl (Ledger.mem_obtain.mpr (.inl (others.readEnd held))))

theorem Ends.closeWriteEnd {number : Nat} (others : record.Ends other number)
    (differs : other ≠ id) : (record.closeWriteEnd id).Ends other number := by
  have same : (record.closeWriteEnd id).pipefd other = record.pipefd other :=
    Function.update_of_ne differs ..
  refine ⟨same ▸ others.writeEnd, fun held => ?_, same ▸ others.started⟩
  rw [same] at held ⊢
  exact Ledger.mem_release_of_ne (fun equal => differs (congrArg Prod.fst equal))
    (others.readEnd held)

variable {readEnd writeEnd : Nat}

/-- `sync_batch` closes what the object owns and leaves it the read end of its pipe. -/
theorem Clean.syncBatch (clean : record.Clean) (ends : record.Ends id pid)
    (fresh : freshEnds pipes record) (given : pipes record.pipes = some (readEnd, writeEnd)) :
    (record.perform pipes (.syncBatch id)).Clean ∧
      (∀ number, (record.perform pipes (.syncBatch id)).Ends id number) ∧
      ∀ other number, other ≠ id → record.Ends other number →
        (record.perform pipes (.syncBatch id)).Ends other number := by
  obtain ⟨apart, first, second⟩ := freshEnds_of_ends fresh ends given
  have piped : ((record.closeEnds id).pipe id (some (readEnd, writeEnd))).Clean :=
    (clean.closeEnds ends).pipe apart first second
  have result : record.perform pipes (.syncBatch id) =
      ((record.closeEnds id).pipe id (some (readEnd, writeEnd))).closeWriteEnd id := by
    rw [perform, given]
  rw [result]
  have held : ((record.closeEnds id).pipe id (some (readEnd, writeEnd))).pipefd id =
      ((readEnd : Int), (writeEnd : Int)) := Function.update_self ..
  have left : (((record.closeEnds id).pipe id (some (readEnd, writeEnd))).closeWriteEnd id).pipefd
      id = ((readEnd : Int), -1) := by
    simp only [Descriptors.closeWriteEnd, held, Function.update_self]
  refine ⟨piped.closeWriteEnd ?_, fun number => ⟨?_, fun _ => ?_, fun _ => ?_⟩, ?_⟩
  · rw [held]
    exact Ledger.mem_obtain.mpr (.inr ⟨rfl, rfl⟩)
  · rw [left]
  · rw [left]
    refine Ledger.mem_release_of_ne ?_
      (Ledger.mem_obtain.mpr (.inl (Ledger.mem_obtain.mpr (.inr ⟨rfl, rfl⟩))))
    rw [held]
    exact fun same => apart (Int.ofNat_inj.mp (congrArg Prod.snd same))
  · rw [left]
    exact ne_of_gt (lt_of_lt_of_le (by decide) (Int.natCast_nonneg readEnd))
  · intro other number differs others
    exact ((ends.closeEnds others differs).pipe differs _).closeWriteEnd differs

/-- A `sync_batch` that fails behind `pipe`. -/
theorem Clean.batchFails (clean : record.Clean) (ends : record.Ends id pid)
    (fresh : freshEnds pipes record) : (record.perform pipes (.batchFails id)).Clean := by
  have closed := clean.closeEnds ends
  show ((record.closeEnds id).pipe id (pipes record.pipes)).Clean
  cases given : pipes record.pipes with
  | none => exact ⟨closed.ledger, closed.valid⟩
  | some pair =>
      obtain ⟨apart, first, second⟩ := freshEnds_of_ends fresh ends given
      exact closed.pipe apart first second

/-- A wrong close is never forgotten. -/
theorem misused_pipe (wrong : record.ledger.misused ≠ []) (result : Option (Nat × Nat)) :
    (record.pipe id result).ledger.misused ≠ [] := by
  cases result <;> exact wrong

theorem misused_closeWriteEnd (wrong : record.ledger.misused ≠ []) :
    (record.closeWriteEnd id).ledger.misused ≠ [] :=
  (record.ledger.misused_release id _).ne_nil wrong

/-- Nothing takes the number of a closed read end out of `pipefd_`, so a second round of
closes gets it wrong. -/
theorem Clean.closeEnds_twice (clean : record.Clean) (ends : record.Ends id pid)
    (started : pid ≠ 0) : ((record.closeEnds id).closeEnds id).ledger.misused ≠ [] := by
  have held := ends.started started
  have closed : record.closeEnds id =
      { record with ledger := record.ledger.release id (record.pipefd id).1 } := by
    rw [closeEnds_of_ends ends, closeUnlessNone, if_neg held]
  have gone : (id, (record.pipefd id).1) ∉ (record.closeEnds id).ledger.owned := by
    rw [closed]
    exact fun inside => clean.ledger.not_mem_release (ends.readEnd held)
      (List.mem_map_of_mem inside)
  have same : (record.closeEnds id).pipefd id = ((record.pipefd id).1, -1) := by
    rw [closed, ← ends.writeEnd]
  have again : ((record.closeEnds id).closeEnds id).ledger =
      (record.closeEnds id).ledger.release id (record.pipefd id).1 := by
    rw [Descriptors.closeEnds, same]
    show (((record.closeEnds id).closeUnlessNone id (record.pipefd id).1).closeUnlessNone id
      (-1)).ledger = _
    rw [closeUnlessNone, if_pos rfl, closeUnlessNone, if_neg held]
  rw [again]
  exact Ledger.misused_ne_nil_of_not_mem gone

/-- When `pipe` fails the parent closes -1. -/
theorem Clean.syncBatch_of_none (clean : record.Clean) (ends : record.Ends id pid)
    (failed : pipes record.pipes = none) :
    (record.perform pipes (.syncBatch id)).ledger.misused ≠ [] := by
  rw [perform, failed]
  refine Ledger.misused_ne_nil_of_not_mem fun inside => ?_
  have same : ((record.closeEnds id).pipe id none).pipefd id = record.pipefd id := by
    rw [closeEnds_of_ends ends]
    exact congrFun (closeUnlessNone_pipefd _) id
  rw [same, ends.writeEnd] at inside
  have negative : (0 : Int) ≤ -1 := (clean.closeEnds ends).valid _ inside
  omega

/-! ## Loops of calls -/

/-- New objects have no descriptors. -/
theorem foldl_construct (pipes : Nat → Option (Nat × Nat)) (ids : List Nat)
    (record : Descriptors) :
    ((ids.map Call.construct).foldl (perform pipes) record).ledger = record.ledger ∧
      ∀ id ∈ ids, ((ids.map Call.construct).foldl (perform pipes) record).pipefd id = (-1, -1) := by
  suffices all : ((ids.map Call.construct).foldl (perform pipes) record).ledger = record.ledger ∧
      ∀ id, id ∈ ids ∨ record.pipefd id = (-1, -1) →
        ((ids.map Call.construct).foldl (perform pipes) record).pipefd id = (-1, -1) from
    ⟨all.1, fun id member => all.2 id (.inl member)⟩
  induction ids generalizing record with
  | nil => exact ⟨rfl, fun id held => held.resolve_left (by simp)⟩
  | cons first rest ih =>
      obtain ⟨ledger, pipefd⟩ := ih (record.construct first)
      refine ⟨ledger, fun id held => pipefd id ?_⟩
      by_cases same : id = first
      · right
        rw [same]
        exact Function.update_self ..
      · rcases held with member | before
        · exact .inl ((List.mem_cons.mp member).resolve_left same)
        · right
          rw [← before]
          exact Function.update_of_ne same ..

theorem Clean.foldl_construct (clean : record.Clean) (ids : List Nat) :
    ((ids.map Call.construct).foldl (perform pipes) record).Clean := by
  obtain ⟨ledger, _⟩ := Descriptors.foldl_construct pipes ids record
  constructor
  · rw [ledger]
    exact clean.ledger
  · rw [ledger]
    exact clean.valid

/-- The destructors of different objects close what each of them owns. -/
theorem Clean.foldl_destroy {ids : List Nat} (distinct : ids.Nodup) (clean : record.Clean)
    (ends : ∀ id ∈ ids, ∃ pid, record.Ends id pid) :
    ((ids.map Call.destroy).foldl (perform pipes) record).Clean := by
  induction ids generalizing record with
  | nil => exact clean
  | cons first rest ih =>
      obtain ⟨absent, distinct⟩ := List.nodup_cons.mp distinct
      obtain ⟨_, here⟩ := ends first List.mem_cons_self
      refine ih distinct (clean.closeEnds here) fun id member => ?_
      obtain ⟨pid, there⟩ := ends id (List.mem_cons_of_mem _ member)
      refine ⟨pid, here.closeEnds there ?_⟩
      rintro rfl
      exact absent member

end Descriptors

namespace State

variable {capacity : Nat} {state next : State} {choice : Choice} {index : Nat}

/-! ## Runs -/

/-- No child has pid 0. -/
theorem pid_of_move (nonzero : ∀ child ∈ state.children, child.pid ≠ 0)
    (move : Move capacity state choice next) : ∀ child ∈ next.children, child.pid ≠ 0 := by
  have forked : ∀ {process pid}, state.forkable pid = true →
      ∀ child ∈ state.children ++ [Child.fork process pid state.destination], child.pid ≠ 0 := by
    intro process pid forkable child member
    rcases List.mem_append.mp member with old | new
    · exact nonzero child old
    · rw [List.mem_singleton.mp new]
      simp only [State.forkable, Bool.and_eq_true, bne_iff_ne] at forkable
      exact forkable.1
  have set : ∀ {index old new}, state.children[index]? = some old → new.pid = old.pid →
      ∀ child ∈ state.children.set index new, child.pid ≠ 0 := by
    intro index old new found same child member
    rcases List.mem_or_eq_of_mem_set member with earlier | rfl
    · exact nonzero child earlier
    · rw [same]
      exact nonzero old (List.mem_of_getElem? found)
  cases move with
  | sync | newRound =>
      intro child member
      exact nonzero child (List.mem_of_mem_filter member)
  | launch _ _ forkable | relaunch _ _ forkable | failOver _ _ forkable =>
      exact forked forkable
  | stray _ found | reap _ found => exact set found rfl
  | @returned index child status _ _ _ _ found _ _ handled =>
      have reaped : ∀ other ∈ (state.reap index child status).children, other.pid ≠ 0 :=
        set found rfl
      cases handled <;> exact reaped
  | kill =>
      intro child member
      obtain ⟨old, listed, rfl⟩ := List.mem_map.mp member
      rw [(continues_sendSigint old).pid]
      exact nonzero old listed
  | child found taken => exact set found (Child.continues_of_step taken).pid
  | signal found => exact set found rfl
  | _ => exact nonzero

/-- What `find_if` finds, as the wait loop sees it. -/
theorem returnedTo_eq {child : Child} {status : WaitStatus}
    (found : state.children[index]? = some child) (ended : child.phase = .zombie status) :
    state.returnedTo index =
      (state.procs.find? fun process => process.pid == child.pid).map fun process =>
        (process, status) := by
  rw [returnedTo, found]
  simp only [ended]

/-- Without exit code 0 the wait loop only reads from the pipe. -/
theorem perform_waitCalls (kept : state.resets index = false) (waiting : state.control = .waiting)
    (pipes : Nat → Option (Nat × Nat)) (record : Descriptors) :
    (state.waitCalls index).foldl (.perform pipes) record = record := by
  rw [resets, waiting] at kept
  rw [waitCalls]
  split
  · next process status found =>
    have nonzero : wexitstatus status.encode ≠ 0 := by simpa [found] using kept
    rw [if_neg nonzero]
    split <;> rfl
  · rfl

/-- Going on with a loop has its list to visit. -/
theorem todo_continueWith {loop : List Nat → Control} (isLoop : IsLoop loop) (todo : List Nat) :
    (state.continueWith loop todo).control.todo = todo := by
  refine (read_continueWith Control.todo state loop todo ?_ ?_).trans ?_
  · rcases isLoop with rfl | rfl | rfl <;> rfl
  · rcases isLoop with rfl | rfl | rfl <;> rfl
  · rcases isLoop with rfl | rfl | rfl <;> rfl

/-- A loop that starts a process is about to call `sync_batch` on it. -/
theorem calls_of_loop {loop : List Nat → Control} {id : Nat} {todo : List Nat}
    (isLoop : IsLoop loop) (control : state.control = loop (id :: todo)) (pid : Nat) :
    state.control ≠ .exited ∧ id ∈ state.control.todo ∧
      (∀ other ∈ todo, other ∈ state.control.todo) ∧
      state.calls (.fork pid) = [.syncBatch id] ∧ state.calls .forkFails = [.batchFails id] := by
  have head := todo_of_loop isLoop control
  refine ⟨?_, ?_, ?_, ?_, ?_⟩
  · rw [control]
    rcases isLoop with rfl | rfl | rfl <;> simp
  · rw [head]
    exact List.mem_cons_self
  · rw [head]
    exact fun other member => List.mem_cons_of_mem _ member
  · simp [calls, head]
  · simp [calls, head]

end State

variable {capacity : Nat} {pipes : Nat → Option (Nat × Nat)} {both : Observed State Descriptors}
  {state : State} {choice : Choice}

/-- The objects hold what they own, and the loops visit objects that are there. -/
structure Tidy (state : State) (record : Descriptors) : Prop where
  clean : record.Clean
  ends : state.control ≠ .exited →
    ∀ process ∈ state.procs, record.Ends process.id process.pid
  listed : ∀ id ∈ state.control.todo, ∃ process ∈ state.procs, process.id = id
  nonzero : ∀ child ∈ state.children, child.pid ≠ 0

/-- A step that makes no calls and leaves the processes alone. -/
theorem Tidy.idle {record : Descriptors} {next : State} (tidy : Tidy state record)
    (nonzero : ∀ child ∈ next.children, child.pid ≠ 0) (procs : next.procs = state.procs)
    (running : state.control ≠ .exited ∨ next.control = .exited)
    (listed : ∀ id ∈ next.control.todo, ∃ process ∈ state.procs, process.id = id) :
    Tidy next record where
  clean := tidy.clean
  ends going := by
    rw [procs]
    exact tidy.ends (running.resolve_right going)
  listed := by
    rw [procs]
    exact listed
  nonzero := nonzero

/-- At the end of a round, or of the process. -/
theorem tidy_of_ended {record : Descriptors} (clean : record.Clean)
    (gone : state.control = .exited ∨ state.procs = []) (none : state.control.todo = [])
    (nonzero : ∀ child ∈ state.children, child.pid ≠ 0) : Tidy state record where
  clean := clean
  ends going process member := by
    rw [gone.resolve_left going] at member
    cases member
  listed id visited := by
    rw [none] at visited
    cases visited
  nonzero := nonzero

/-- The constructors of a round. -/
theorem tidy_startRound {record : Descriptors} (clean : record.Clean)
    (none : state.outstanding = []) (nproc : Nat) (pos : 0 < nproc) :
    Tidy (state.startRound nproc pos)
      (((List.range nproc).map Call.construct).foldl (.perform pipes) record) := by
  obtain ⟨_, pipefd⟩ := Descriptors.foldl_construct pipes (List.range nproc) record
  refine ⟨clean.foldl_construct _, fun _ process member => ?_, ?_, ?_⟩
  · simp only [State.startRound, List.mem_map] at member
    obtain ⟨id, below, rfl⟩ := member
    have held := pipefd id below
    refine ⟨?_, fun other => ?_, fun running => absurd rfl running⟩
    · rw [SyncProcess.new_id, held]
    · rw [SyncProcess.new_id, held] at other
      exact absurd rfl other
  · intro id visited
    exact ⟨SyncProcess.new state.syncer nproc pos id, List.mem_map_of_mem visited, rfl⟩
  · intro child member
    simp [State.startRound, none] at member

/-- The process at the head of a loop is there and holds what it owns. -/
theorem Tidy.head {record : Descriptors} {loop : List Nat → Control} {id : Nat}
    {todo : List Nat} (tidy : Tidy state record) (isLoop : State.IsLoop loop)
    (control : state.control = loop (id :: todo)) :
    ∃ process ∈ state.procs, process.id = id ∧ record.Ends id process.pid := by
  obtain ⟨going, head, _⟩ := State.calls_of_loop isLoop control 0
  obtain ⟨process, listed, same⟩ := tidy.listed id head
  exact ⟨process, listed, same, same ▸ tidy.ends going process listed⟩

/-- Starting the process at the head of a loop. -/
theorem Tidy.start {record : Descriptors} {loop : List Nat → Control} {id pid : Nat}
    {todo : List Nat} {process : SyncProcess} (tidy : Tidy state record)
    (isLoop : State.IsLoop loop) (control : state.control = loop (id :: todo))
    (same : process.id = id) (piped : pipes record.pipes ≠ none) (fresh : freshEnds pipes record)
    (formed : List (Nat × List Nat))
    (nonzero : ∀ child ∈ state.children ++ [Child.fork process pid state.destination],
      child.pid ≠ 0) :
    Tidy (State.continueWith { state.setProc (process.started pid state.children.length) with
        children := state.children ++ [Child.fork process pid state.destination]
        formed := formed } loop todo)
      ((state.calls (.fork pid)).foldl (.perform pipes) record) := by
  obtain ⟨going, _, rest, calls, _⟩ := State.calls_of_loop isLoop control pid
  obtain ⟨_, _, _, ends⟩ := tidy.head isLoop control
  obtain ⟨⟨readEnd, writeEnd⟩, given⟩ := Option.ne_none_iff_exists'.mp piped
  obtain ⟨clean, own, others⟩ := tidy.clean.syncBatch ends fresh given
  rw [calls]
  refine ⟨clean, fun _ other member => ?_, fun other visited => ?_, nonzero⟩
  · rcases State.mem_setProc.mp member with ⟨rfl, _⟩ | ⟨earlier, differs⟩
    · rw [SyncProcess.started_id, same]
      exact own _
    · exact others _ _ (fun equal => differs (equal.trans same.symm))
        (tidy.ends going other earlier)
  · rw [State.todo_continueWith isLoop] at visited
    obtain ⟨earlier, member, rfl⟩ := tidy.listed other (rest other visited)
    by_cases equal : earlier.id = process.id
    · exact ⟨_, State.mem_setProc.mpr (.inl ⟨rfl, earlier, member, equal⟩), equal.symm⟩
    · exact ⟨earlier, State.mem_setProc.mpr (.inr ⟨member, equal⟩), rfl⟩

/-- Handling an exit code other than 0 closes nothing. -/
theorem Tidy.handled {record : Descriptors} {next : State} {process : SyncProcess}
    {exitCode : Nat} (tidy : Tidy state record) (code : exitCode ≠ 0)
    (member : process ∈ state.procs) (going : state.control ≠ .exited)
    (handled : State.Handled state process exitCode next) : Tidy next record := by
  cases handled with
  | finished zero | more zero => exact absurd zero code
  | retry =>
      refine tidy.idle tidy.nonzero rfl (.inl going) fun id visited => ?_
      exact ⟨process, member, (List.mem_singleton.mp visited).symm⟩
  | failOver =>
      refine tidy.idle tidy.nonzero rfl (.inl going) fun id visited => ?_
      obtain ⟨other, listed, same⟩ := List.mem_map.mp visited
      exact ⟨other, listed, same⟩
  | tooBig | fail | park =>
      exact tidy.idle tidy.nonzero rfl (.inl going) fun id visited => by cases visited

/-- Every step keeps the descriptors where they belong. -/
theorem Tidy.of_step {record : Descriptors} {next : State} (tidy : Tidy state record)
    (accounted : state.Accounted) (allowed : neverResets pipes ⟨state, record⟩ (.inl choice))
    (taken : state.step capacity choice = some next) :
    Tidy next ((state.calls choice).foldl (.perform pipes) record) := by
  have move := State.moves_of_step taken
  have nonzero := State.pid_of_move tidy.nonzero move
  cases move with
  | sync idle perm ordered =>
      rw [State.calls, State.launchProcs]
      apply tidy_startRound tidy.clean
      exact accounted.outstanding_eq_nil (by rw [idle]; rfl)
  | newRound returned room =>
      rw [State.calls, if_pos ⟨returned, room⟩, State.launchProcs]
      apply tidy_startRound tidy.clean
      exact accounted.outstanding_eq_nil (by rw [returned]; rfl)
  | launch control found forkable =>
      obtain ⟨_, same⟩ := State.proc?_eq_some found
      rw [State.launch_eq] at nonzero ⊢
      exact tidy.start State.launching_isLoop control (by simpa using same) allowed.1 allowed.2 _
        nonzero
  | relaunch control found forkable =>
      obtain ⟨_, same⟩ := State.proc?_eq_some found
      exact tidy.start State.relaunching_isLoop control same allowed.1 allowed.2 state.formed
        nonzero
  | failOver control found forkable =>
      obtain ⟨_, same⟩ := State.proc?_eq_some found
      exact tidy.start State.failingOver_isLoop control (by simpa using same) allowed.1 allowed.2
        state.formed nonzero
  | dangling control missing =>
      obtain ⟨loop, isLoop, here⟩ := State.exists_isLoop control
      obtain ⟨process, listed, same, _⟩ := tidy.head isLoop here
      exact absurd missing (State.proc?_ne_none ⟨process, listed, same⟩)
  | forkFails looping =>
      obtain ⟨loop, isLoop, control⟩ := State.exists_isLoop looping
      obtain ⟨_, _, _, _, calls⟩ := State.calls_of_loop isLoop control 0
      obtain ⟨_, _, _, ends⟩ := tidy.head isLoop control
      rw [calls]
      exact tidy_of_ended (tidy.clean.batchFails ends allowed) (.inl rfl) rfl nonzero
  | stray waiting found ended unknown =>
      rw [State.calls, if_pos waiting, State.perform_waitCalls allowed waiting]
      exact tidy.idle nonzero rfl (.inl (by simp [waiting])) tidy.listed
  | @returned index child status _ process _ waiting found ended owner handled =>
      rw [State.calls, if_pos waiting, State.perform_waitCalls allowed waiting]
      have code : wexitstatus status.encode ≠ 0 := by
        have kept : state.resets index = false := allowed
        simpa [State.resets, waiting, State.returnedTo_eq found ended, owner] using kept
      have reaped : Tidy (state.reap index child status) record := by
        refine tidy.idle ?_ rfl (.inl (by simp [waiting])) tidy.listed
        cases handled <;> exact nonzero
      refine reaped.handled code (List.mem_of_find?_eq_some owner) ?_ handled
      simp [State.reap, waiting]
  | reap reaping found ended =>
      rw [State.calls, if_neg (by simp [reaping])]
      exact tidy.idle nonzero rfl (.inl (by simp [reaping])) tidy.listed
  | allReaped reaping none =>
      rw [State.calls, if_pos reaping]
      refine tidy_of_ended ?_ (.inr rfl) rfl nonzero
      have ends := tidy.ends (by simp [reaping])
      have ids : (state.procs.map fun process => Call.destroy process.id) =
          (state.procs.map SyncProcess.id).map Call.destroy := by
        rw [List.map_map]
        rfl
      rw [ids]
      refine Descriptors.Clean.foldl_destroy accounted.distinct tidy.clean fun id inside => ?_
      obtain ⟨process, member, rfl⟩ := List.mem_map.mp inside
      exact ⟨_, ends process member⟩
  | failure returned unsuccessful =>
      refine tidy_of_ended ?_ (.inl rfl) rfl nonzero
      rw [State.calls]
      split
      · exact tidy.clean.foldl_construct _
      · exact tidy.clean
  | noneLeft waiting none =>
      rw [State.calls, if_neg (by simp [waiting])]
      exact tidy.idle nonzero rfl (.inl (by simp [waiting])) fun id visited => by cases visited
  | success returned =>
      rw [State.calls, if_neg (by simp [returned])]
      exact tidy.idle nonzero rfl (.inl (by simp [returned])) fun id visited => by cases visited
  | kill killing | killed killing =>
      exact tidy.idle nonzero rfl (.inl (by simp [killing])) fun id visited => by cases visited
  | deleted synced | notDeleted synced =>
      exact tidy.idle nonzero rfl (.inl (by simp [synced])) fun id visited => by cases visited
  | child found taken => exact ⟨tidy.clean, tidy.ends, tidy.listed, nonzero⟩
  | signal found live => exact ⟨tidy.clean, tidy.ends, tidy.listed, nonzero⟩

/-- The descriptors are where they belong in all runs without exit code 0. -/
theorem tidy_invariant : ((descriptors pipes).watch (syncMachine capacity)).Invariant
    (neverResets pipes) fun both => Tidy both.state both.record := by
  refine Observer.invariant ?_ ?_ fun _ event => event.elim
  · rintro state ⟨tokenize, argMax, envpSize, config, rfl⟩
    exact tidy_of_ended ⟨Ledger.clean_empty, fun _ member => by cases member⟩ (.inr rfl) rfl
      fun _ member => by cases member
  · intro both choice next reachable tidy allowed taken
    have reached : (syncMachine capacity).Reachable Machine.unguarded both.state :=
      Observer.reachable reachable fun _ _ _ => trivial
    exact tidy.of_step (State.accounted_invariant.of_reachable reached) allowed taken

/-- The call of `reset` leaves a closed number behind, which the destructor or the next
`sync_batch` closes again. -/
theorem Tidy.misused_of_resets {record : Descriptors} {next : State} {index : Nat}
    {logOpens : Bool} (tidy : Tidy state record)
    (taken : state.step capacity (.wait index logOpens) = some next)
    (resets : state.resets index = true) :
    ((state.calls (.wait index logOpens)).foldl (.perform pipes) record).ledger.misused ≠ [] ∨
      ∀ choice, choice = .forkFails ∨ (∃ pid, choice = .fork pid) →
        ((next.calls choice).foldl (.perform pipes)
          ((state.calls (.wait index logOpens)).foldl (.perform pipes)
            record)).ledger.misused ≠ [] := by
  obtain ⟨waiting, some⟩ : state.control = .waiting ∧
      ((state.returnedTo index).any fun returned => wexitstatus returned.2.encode == 0) = true := by
    simpa [State.resets] using resets
  cases State.moves_of_step taken with
  | stray _ found ended unknown =>
      have missing : (state.procs.find? fun process => process.pid == _) = none :=
        List.find?_eq_none.mpr fun process member => by simpa using unknown process member
      simp [State.returnedTo_eq found ended, missing] at some
  | reap reaping => cases waiting.symm.trans reaping
  | @returned _ child status _ process _ _ found ended owner handled =>
      have member := List.mem_of_find?_eq_some owner
      have pid : process.pid = child.pid := by simpa using List.find?_some owner
      have zero : wexitstatus status.encode = 0 := by
        simpa [State.returnedTo_eq found ended, owner] using some
      have ends := tidy.ends (by simp [waiting]) process member
      have started : process.pid ≠ 0 := by
        rw [pid]
        exact tidy.nonzero child (List.mem_of_getElem? found)
      have twice := tidy.clean.closeEnds_twice ends started
      have calls : state.calls (.wait index logOpens) =
          .reset process.id :: if process.reset.done state.queue then [.destroy process.id]
            else [] := by
        rw [State.calls, if_pos waiting, State.waitCalls, State.returnedTo_eq found ended, owner]
        exact if_pos zero
      rw [calls]
      cases handled with
      | finished _ done =>
          have done' : process.reset.done state.queue = true := done
          rw [if_pos done']
          exact .inl twice
      | more _ left =>
          have left' : process.reset.done state.queue = false := left
          rw [left', if_neg Bool.false_ne_true]
          have calls : ∀ (after : State) (pid : Nat),
              (after.continueWith .relaunching (process.id :: state.sshFailProcs)).calls
                  (.fork pid) = [.syncBatch process.id] ∧
                (after.continueWith .relaunching (process.id :: state.sshFailProcs)).calls
                  .forkFails = [.batchFails process.id] := fun after pid =>
            (State.calls_of_loop State.relaunching_isLoop rfl pid).2.2.2
          refine .inr fun choice forks => ?_
          rcases forks with rfl | ⟨number, rfl⟩
          · rw [State.reap, (calls _ 0).2]
            exact Descriptors.misused_pipe twice _
          · rw [State.reap, (calls _ number).1]
            exact Descriptors.misused_closeWriteEnd (Descriptors.misused_pipe twice _)
      | tooBig nonzero | fail nonzero | retry nonzero => exact absurd zero nonzero
      | park code | failOver code => exact absurd (code.symm.trans zero) (by decide)

/-- A failure of `pipe` makes the parent close -1. -/
theorem Tidy.misused_of_none {record : Descriptors} {next : State} {pid : Nat}
    (tidy : Tidy state record) (taken : state.step capacity (.fork pid) = some next)
    (failed : pipes record.pipes = none) :
    ((state.calls (.fork pid)).foldl (.perform pipes) record).ledger.misused ≠ [] := by
  obtain ⟨loop, id, todo, isLoop, control⟩ : ∃ loop id todo, State.IsLoop loop ∧
      state.control = loop (id :: todo) := by
    cases State.moves_of_step taken with
    | launch control => exact ⟨_, _, _, State.launching_isLoop, control⟩
    | relaunch control => exact ⟨_, _, _, State.relaunching_isLoop, control⟩
    | failOver control => exact ⟨_, _, _, State.failingOver_isLoop, control⟩
    | dangling control =>
        obtain ⟨loop, isLoop, here⟩ := State.exists_isLoop control
        exact ⟨loop, _, _, isLoop, here⟩
  obtain ⟨_, _, _, calls, _⟩ := State.calls_of_loop isLoop control pid
  obtain ⟨_, _, _, ends⟩ := tidy.head isLoop control
  rw [calls]
  exact tidy.clean.syncBatch_of_none ends failed

/-- The pipes that a parent without other open files gets. -/
def lowPipes (call : Nat) : Option (Nat × Nat) := some (3 + call, 4 + call)

/-- Both processes fail over after an unreachable destination, with a new pipe each. -/
def failoverCalls : List (Choice ⊕ Empty) :=
  let files := [plainFile "/s/./a".toList 1, plainFile "/s/./b".toList 2]
  (([.sync files files, .fork 11, .fork 12] : List Choice) ++ childExits 0 sshFail ++
    childExits 1 sshFail ++ ([.wait 0 true, .wait 1 true, .fork 13, .fork 14] : List Choice)).map
      .inl

end CephGeoRep
