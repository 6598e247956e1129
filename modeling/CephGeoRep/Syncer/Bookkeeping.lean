import CephGeoRep.Syncer.Batches

/-!
# Which child belongs to which process

As long as `fork` returns no pid that another process of the list still stores,
the stored pids and the outstanding children correspond: `childless` lists exactly
the processes without a child, every other process has exactly one, and `find_if`
finds the process a child was forked for.
-/

namespace CephGeoRep

open Semantics

/-- Neither in a round nor in the undefined. -/
def Control.outside : Control → Bool
  | .launching _ | .relaunching _ | .failingOver _ | .waiting | .undefined => false
  | _ => true

/-- `fork` returns no pid stored in a process other than the one being started. -/
def freshPids (state : State) : Choice → Prop
  | .fork pid => ∀ process ∈ state.procs,
      state.control.todo.head? = some process.id ∨ process.pid ≠ pid
  | _ => True

instance (state : State) (choice : Choice) : Decidable (freshPids state choice) :=
  match choice with
  | .fork _ => inferInstanceAs (Decidable (∀ _ ∈ _, _))
  | .sync .. | .forkFails | .wait .. | .noChildren | .kill | .afterRound | .deleteSnap _
  | .child .. | .signal .. => .isTrue trivial

namespace State

/-- The child at `index` is the one a process waits for. -/
structure Owns (children : List Child) (process : SyncProcess) (index : Nat)
    (child : Child) : Prop where
  last : process.lastChild = some index
  found : children[index]? = some child
  outstanding : child.outstanding = true
  nonzero : child.pid ≠ 0
  pid : child.pid = process.pid
  proc : child.proc = process.id
  batch : child.batch = process.batch

/-- The processes outside `childless` and the outstanding children correspond. -/
structure Linked (state : State) (childless : List Nat) : Prop where
  once : childless.Nodup
  listed : ∀ id ∈ childless, ∃ process ∈ state.procs, process.id = id
  owner : ∀ process ∈ state.procs, process.id ∉ childless →
    ∃ index child, Owns state.children process index child
  owned : ∀ index child, state.children[index]? = some child → child.outstanding = true →
    ∃ process ∈ state.procs, process.id ∉ childless ∧ process.lastChild = some index
  apart : ∀ first ∈ state.procs, ∀ second ∈ state.procs, first.pid = second.pid →
    first.pid ≠ 0 → first.id = second.id

variable {capacity : Nat} {state next : State} {loop : List Nat → Control} {todo : List Nat}
  {process : SyncProcess} {childless others : List Nat} {index : Nat} {child : Child}

/-- The order of the childless processes does not matter. -/
theorem Linked.perm (linked : state.Linked childless) (perm : others.Perm childless) :
    state.Linked others where
  once := perm.nodup_iff.mpr linked.once
  listed id member := linked.listed id (perm.mem_iff.mp member)
  owner process member absent :=
    linked.owner process member fun inside => absent (perm.mem_iff.mpr inside)
  owned index child found held := by
    obtain ⟨process, member, absent, last⟩ := linked.owned index child found held
    exact ⟨process, member, fun inside => absent (perm.mem_iff.mp inside), last⟩
  apart := linked.apart

/-- Only the processes and the children matter. -/
theorem Linked.congr (linked : state.Linked childless) (procs : next.procs = state.procs)
    (children : next.children = state.children) : next.Linked childless where
  once := linked.once
  listed := by rw [procs]; exact linked.listed
  owner := by
    intro process member absent
    rw [procs] at member
    obtain ⟨index, child, owns⟩ := linked.owner process member absent
    rw [children]
    exact ⟨index, child, owns⟩
  owned := by rw [procs, children]; exact linked.owned
  apart := by rw [procs]; exact linked.apart

/-- The process a child was forked for is the only one that stores its pid. -/
theorem Linked.owner_of_pid (linked : state.Linked childless)
    (distinct : (state.procs.map SyncProcess.id).Nodup)
    (found : state.children[index]? = some child) (held : child.outstanding = true) :
    ∃ process ∈ state.procs, process.id ∉ childless ∧ Owns state.children process index child ∧
      ∀ other ∈ state.procs, other.pid = child.pid → other = process := by
  obtain ⟨process, member, absent, last⟩ := linked.owned index child found held
  obtain ⟨place, own, owns⟩ := linked.owner process member absent
  have same : place = index := by
    have equal := owns.last
    rw [last] at equal
    exact (Option.some.inj equal).symm
  subst same
  have equal : own = child := by
    have equal := owns.found
    rw [found] at equal
    exact (Option.some.inj equal).symm
  subst equal
  refine ⟨process, member, absent, owns, fun other listed pid => ?_⟩
  refine List.inj_on_of_nodup_map distinct listed member ?_
  exact linked.apart other listed process member (pid.trans owns.pid) (pid ▸ owns.nonzero)

/-- Children that are only carried on stay linked. -/
theorem Linked.carry (linked : state.Linked childless) {children : List Child}
    (carries : Carries Child.Continues state.children children) (snapshot : Bool) :
    Linked { state with children := children, snapshot := snapshot } childless where
  once := linked.once
  listed := linked.listed
  owner process member absent := by
    obtain ⟨index, old, owns⟩ := linked.owner process member absent
    obtain ⟨new, found, continues⟩ := carries.successor owns.found
    exact ⟨index, new, owns.last, found, continues.outstanding.trans owns.outstanding,
      continues.pid ▸ owns.nonzero, continues.pid.trans owns.pid, continues.proc.trans owns.proc,
      continues.batch.trans owns.batch⟩
  owned index child found held := by
    obtain ⟨old, earlier, continues⟩ := carries.origin found
    exact linked.owned index old earlier (continues.outstanding ▸ held)
  apart := linked.apart

/-- A new round has no children at all. -/
theorem linked_startRound (gone : state.outstanding = []) (nproc : Nat) (pos : 0 < nproc) :
    (state.startRound nproc pos).Linked (List.range nproc) where
  once := List.nodup_range
  listed id member :=
    ⟨SyncProcess.new state.syncer nproc pos id, List.mem_map_of_mem member, rfl⟩
  owner process member absent := by
    simp only [startRound, List.mem_map] at member
    obtain ⟨id, below, rfl⟩ := member
    exact absurd below absent
  owned index child found := by simp [startRound, gone] at found
  apart first member second _ _ nonzero := by
    simp only [startRound, List.mem_map] at member
    obtain ⟨id, _, rfl⟩ := member
    exact absurd rfl nonzero

/-- Starting a childless process gives it a child. -/
theorem Linked.start {id pid : Nat} {formed : List (Nat × List Nat)}
    (linked : state.Linked (id :: others)) (same : process.id = id) (nonzero : pid ≠ 0)
    (fresh : ∀ other ∈ state.procs, other.id = id ∨ other.pid ≠ pid)
    (destination : CString) :
    Linked { state.setProc (process.started pid state.children.length) with
      children := state.children ++ [Child.fork process pid destination]
      formed := formed } others where
  once := (List.nodup_cons.mp linked.once).2
  listed other member := by
    obtain ⟨old, listed, rfl⟩ := linked.listed other (List.mem_cons_of_mem _ member)
    have differs : old.id ≠ id := fun equal =>
      (List.nodup_cons.mp linked.once).1 (equal ▸ member)
    exact ⟨old, mem_setProc.mpr (.inr ⟨listed, fun equal => differs (equal.trans same)⟩), rfl⟩
  owner other member absent := by
    rcases mem_setProc.mp member with ⟨rfl, _⟩ | ⟨old, differs⟩
    · exact ⟨state.children.length, Child.fork process pid destination, rfl,
        List.getElem?_concat_length, rfl, nonzero, rfl, rfl, rfl⟩
    · have absent' : other.id ∉ id :: others := by
        rw [List.mem_cons]
        rintro (equal | inside)
        · exact differs (equal.trans same.symm)
        · exact absent inside
      obtain ⟨index, child, owns⟩ := linked.owner other old absent'
      refine ⟨index, child, { owns with found := ?_ }⟩
      obtain ⟨bound, _⟩ := List.getElem?_eq_some_iff.mp owns.found
      rw [List.getElem?_append_left bound]
      exact owns.found
  owned index child found held := by
    by_cases bound : index < state.children.length
    · rw [List.getElem?_append_left bound] at found
      obtain ⟨old, listed, absent, last⟩ := linked.owned index child found held
      rw [List.mem_cons, not_or] at absent
      refine ⟨old, mem_setProc.mpr (.inr ⟨listed, ?_⟩), absent.2, last⟩
      exact fun equal => absent.1 (equal.trans same)
    · have last : index = state.children.length := by
        obtain ⟨below, _⟩ := List.getElem?_eq_some_iff.mp found
        rw [List.length_append, List.length_singleton] at below
        omega
      subst last
      obtain ⟨old, listed, equal⟩ := linked.listed id List.mem_cons_self
      refine ⟨process.started pid state.children.length, ?_, ?_, rfl⟩
      · exact mem_setProc.mpr (.inl ⟨rfl, old, listed, equal.trans same.symm⟩)
      · rw [SyncProcess.started_id, same]
        exact (List.nodup_cons.mp linked.once).1
  apart first inFirst second inSecond equal nonzero' := by
    have foreign : ∀ other ∈ state.procs, other.id ≠ process.id → other.pid ≠ pid := by
      intro other listed differs
      rcases fresh other listed with here | differs'
      · exact absurd (here.trans same.symm) differs
      · exact differs'
    rcases mem_setProc.mp inFirst with ⟨rfl, _⟩ | ⟨old, differs⟩ <;>
      rcases mem_setProc.mp inSecond with ⟨rfl, _⟩ | ⟨old', differs'⟩
    · rfl
    · exact absurd equal.symm (foreign second old' differs')
    · exact absurd equal (foreign first old differs)
    · exact linked.apart first old second old' equal nonzero'

/-- Reaping the child of a process makes it childless. -/
theorem Linked.reap (linked : state.Linked childless)
    (distinct : (state.procs.map SyncProcess.id).Nodup) (member : process ∈ state.procs)
    (absent : process.id ∉ childless) (owns : Owns state.children process index child)
    (status : WaitStatus) : (state.reap index child status).Linked (process.id :: childless) where
  once := List.nodup_cons.mpr ⟨absent, linked.once⟩
  listed id inside := by
    rcases List.mem_cons.mp inside with rfl | inside
    · exact ⟨process, member, rfl⟩
    · exact linked.listed id inside
  owner other listed absent' := by
    rw [List.mem_cons, not_or] at absent'
    obtain ⟨place, own, owns'⟩ := linked.owner other listed absent'.2
    refine ⟨place, own, { owns' with found := ?_ }⟩
    have apart : index ≠ place := by
      rintro rfl
      have equal := owns'.found
      rw [owns.found, Option.some.injEq] at equal
      exact absent'.1 (by rw [← owns'.proc, ← equal, owns.proc])
    simp only [State.reap, List.getElem?_set_ne apart]
    exact owns'.found
  owned place own found held := by
    have apart : index ≠ place := by
      rintro rfl
      obtain ⟨bound, _⟩ := List.getElem?_eq_some_iff.mp owns.found
      simp only [State.reap, List.getElem?_set_self bound, Option.some.injEq] at found
      rw [← found] at held
      cases held
    simp only [State.reap, List.getElem?_set_ne apart] at found
    obtain ⟨other, listed, absent', last⟩ := linked.owned place own found held
    refine ⟨other, listed, ?_, last⟩
    rw [List.mem_cons, not_or]
    refine ⟨fun same => apart ?_, absent'⟩
    rw [List.inj_on_of_nodup_map distinct listed member same, owns.last,
      Option.some.injEq] at last
    exact last
  apart := linked.apart

/-- A childless process may be rewritten and may leave. -/
theorem Linked.eraseProc {id : Nat} (linked : state.Linked (id :: others))
    (distinct : (state.procs.map SyncProcess.id).Nodup) :
    (state.eraseProc id).Linked others where
  once := (List.nodup_cons.mp linked.once).2
  listed other member := by
    obtain ⟨old, listed, rfl⟩ := linked.listed other (List.mem_cons_of_mem _ member)
    refine ⟨old, (mem_eraseProc distinct).mpr ⟨listed, fun equal => ?_⟩, rfl⟩
    exact (List.nodup_cons.mp linked.once).1 (equal ▸ member)
  owner other member absent := by
    obtain ⟨listed, differs⟩ := (mem_eraseProc distinct).mp member
    refine linked.owner other listed ?_
    rw [List.mem_cons, not_or]
    exact ⟨differs, absent⟩
  owned index child found held := by
    obtain ⟨old, listed, absent, last⟩ := linked.owned index child found held
    rw [List.mem_cons, not_or] at absent
    exact ⟨old, (mem_eraseProc distinct).mpr ⟨listed, absent.1⟩, absent.2, last⟩
  apart first inFirst second inSecond :=
    linked.apart first ((mem_eraseProc distinct).mp inFirst).1 second
      ((mem_eraseProc distinct).mp inSecond).1

/-- A childless process may be rewritten, as long as it keeps its pid. -/
theorem Linked.setProc {old : SyncProcess} (linked : state.Linked (old.id :: others))
    (member : old ∈ state.procs) (same : process.id = old.id) (pid : process.pid = old.pid) :
    (state.setProc process).Linked (old.id :: others) where
  once := linked.once
  listed other inside := by
    obtain ⟨earlier, listed, rfl⟩ := linked.listed other inside
    by_cases equal : earlier.id = process.id
    · exact ⟨process, mem_setProc.mpr (.inl ⟨rfl, earlier, listed, equal⟩), equal.symm⟩
    · exact ⟨earlier, mem_setProc.mpr (.inr ⟨listed, equal⟩), rfl⟩
  owner other inside absent := by
    rcases mem_setProc.mp inside with ⟨rfl, _⟩ | ⟨listed, _⟩
    · exact absurd (same ▸ List.mem_cons_self) absent
    · exact linked.owner other listed absent
  owned index child found held := by
    obtain ⟨other, listed, absent, last⟩ := linked.owned index child found held
    refine ⟨other, mem_setProc.mpr (.inr ⟨listed, fun equal => absent ?_⟩), absent, last⟩
    rw [equal, same]
    exact List.mem_cons_self
  apart := by
    -- Every process of the new list has the pid of one with the same `id_`.
    have before : ∀ other ∈ (state.setProc process).procs,
        ∃ earlier ∈ state.procs, earlier.id = other.id ∧ earlier.pid = other.pid := by
      intro other inside
      rcases mem_setProc.mp inside with ⟨rfl, _⟩ | ⟨listed, _⟩
      · exact ⟨old, member, same.symm, pid.symm⟩
      · exact ⟨other, listed, rfl, rfl⟩
    intro first inFirst second inSecond equal nonzero
    obtain ⟨earlier, listed, sameFirst, pidFirst⟩ := before first inFirst
    obtain ⟨earlier', listed', sameSecond, pidSecond⟩ := before second inSecond
    rw [← sameFirst, ← sameSecond]
    refine linked.apart earlier listed earlier' listed' ?_ ?_
    · rw [pidFirst, pidSecond, equal]
    · rw [pidFirst]
      exact nonzero

/-- Going on with a loop keeps the processes that are linked by its list. -/
theorem Linked.continueWith (isLoop : IsLoop loop)
    (linked : state.Linked (todo ++ state.sshFailProcs)) :
    (state.continueWith loop todo).Linked (state.continueWith loop todo).childless := by
  rcases childless_continueWith state todo isLoop with equal | ⟨gone, _, none⟩
  · rw [equal]
    exact linked.congr rfl rfl
  · rw [none]
    refine ⟨List.nodup_nil, ?_, ?_, ?_, ?_⟩
    · intro id member
      cases member
    · intro process member
      simp [State.continueWith, gone] at member
    · intro index child found held
      obtain ⟨process, member, _⟩ := linked.owned index child found held
      simp [gone] at member
    · intro first member
      simp [State.continueWith, gone] at member

/-- The body of the wait loop keeps processes and children linked; the process whose
child was reaped is childless before it. -/
theorem Linked.handled {exitCode : Nat} (linked : state.Linked (process.id :: state.sshFailProcs))
    (accounted : state.Accounted)
    (room : state.outstandingCount + state.sshFailProcs.length + 1 ≤ state.procs.length)
    (member : process ∈ state.procs) (handled : Handled state process exitCode next)
    (inRound : next.control.inRound = true) : next.Linked next.childless := by
  have distinct := accounted.distinct
  cases handled with
  | finished _ _ =>
      apply Linked.continueWith relaunching_isLoop
      have left := linked.eraseProc distinct
      have retired : state.sshFailProcs ++ [] = state.sshFailProcs := List.append_nil _
      rw [show ((state.retire process).eraseProc process.id).sshFailProcs = [] from rfl, retired]
      exact left.congr rfl rfl
  | more _ _ =>
      apply Linked.continueWith relaunching_isLoop
      have rewritten : (state.setProc (process.reset.consume state.queue
          state.destination)).Linked (process.id :: state.sshFailProcs) :=
        linked.setProc member (by simp) (by simp)
      have none : ((state.retire process).consume process.reset).1.sshFailProcs = [] := rfl
      rw [none, List.append_nil]
      exact rewritten.congr rfl rfl
  | tooBig _ _ _ => cases inRound
  | fail _ _ => cases inRound
  | retry _ _ => exact linked.congr rfl rfl
  | park _ _ =>
      refine Linked.congr (linked.perm ?_) rfl rfl
      exact List.perm_append_singleton process.id state.sshFailProcs
  | failOver _ enough =>
      -- As many processes are parked as the round started with: no child is left.
      have few := accounted.few
      have gone : state.outstanding = [] := by
        apply List.eq_nil_of_length_eq_zero
        rw [← outstandingCount_eq]
        omega
      have all : state.tryNextDestination.childless = state.procs.map SyncProcess.id ++ [] := rfl
      rw [all, List.append_nil]
      refine ⟨distinct, ?_, ?_, ?_, linked.apart⟩
      · intro id inside
        exact List.mem_map.mp inside
      · intro other listed absent
        exact absurd (List.mem_map_of_mem listed) absent
      · intro index child found held
        rw [outstanding_eq_nil_iff.mp gone child (List.mem_of_getElem? found)] at held
        cases held

/-- In a round, `wait` finds the process whose child it returns. -/
theorem owner_of_wait {status : WaitStatus} (linked : state.Linked state.childless)
    (accounted : state.Accounted) (found : state.children[index]? = some child)
    (ended : child.phase = .zombie status) :
    ∃ process ∈ state.procs, process.id ∉ state.childless ∧
      Owns state.children process index child ∧
      (state.procs.find? fun process => process.pid == child.pid) = some process := by
  obtain ⟨process, member, absent, owns, unique⟩ := linked.owner_of_pid accounted.distinct found
    (outstanding_of_zombie ended)
  refine ⟨process, member, absent, owns, ?_⟩
  cases result : state.procs.find? fun process => process.pid == child.pid with
  | none =>
      have differs := List.find?_eq_none.mp result process member
      exact absurd owns.pid.symm (by simpa using differs)
  | some other =>
      have listed := List.mem_of_find?_eq_some result
      have pid : other.pid = child.pid := by simpa using List.find?_some result
      rw [unique other listed pid]

/-- So a `wait` in a round handles the process of the child that it returns. -/
theorem handled_of_wait {logOpens : Bool} (linked : state.Linked state.childless)
    (accounted : state.Accounted) (waiting : state.control = .waiting)
    (found : state.children[index]? = some child)
    (taken : state.step capacity (.wait index logOpens) = some next) :
    ∃ process ∈ state.procs, ∃ status, Owns state.children process index child ∧
      child.phase = .zombie status ∧
      Handled (state.reap index child status) process (wexitstatus status.encode) next := by
  cases moves_of_step taken with
  | stray _ found' ended unknown =>
      obtain ⟨process, member, _, owns, _⟩ := owner_of_wait linked accounted found' ended
      exact absurd owns.pid.symm (unknown process member)
  | reap reaping _ _ =>
      rw [waiting] at reaping
      cases reaping
  | @returned _ _ status _ process _ _ found' ended owner handled =>
      obtain ⟨own, member, _, owns, unique⟩ := owner_of_wait linked accounted found' ended
      obtain rfl : own = process := Option.some.inj (unique.symm.trans owner)
      rw [found, Option.some.injEq] at found'
      subst found'
      exact ⟨own, member, status, owns, ended, handled⟩

/-- Starting the process at the head of a loop. -/
theorem Linked.launch {id pid : Nat} (linked : state.Linked state.childless)
    (isLoop : IsLoop loop) (control : state.control = loop (id :: todo))
    (same : process.id = id) (forkable : state.forkable pid = true)
    (fresh : freshPids state (.fork pid)) (formed : List (Nat × List Nat)) :
    (State.continueWith { state.setProc (process.started pid state.children.length) with
      children := state.children ++ [Child.fork process pid state.destination]
      formed := formed } loop todo).Linked
        (State.continueWith { state.setProc (process.started pid state.children.length) with
          children := state.children ++ [Child.fork process pid state.destination]
          formed := formed } loop todo).childless := by
  apply Linked.continueWith isLoop
  have head := todo_of_loop isLoop control
  have nonzero : pid ≠ 0 := by
    have both := forkable
    simp only [State.forkable, Bool.and_eq_true, bne_iff_ne] at both
    exact both.1
  refine Linked.start ?_ same nonzero ?_ state.destination
  · rw [childless_of_loop isLoop control] at linked
    exact linked
  · intro other member
    rcases fresh other member with here | differs
    · rw [head, List.head?_cons, Option.some.injEq] at here
      exact .inl here.symm
    · exact .inr differs

/-- Outside the undefined, and linked while a round lasts. -/
structure Booked (state : State) : Prop where
  defined : state.control ≠ .undefined
  linked : state.control.inRound = true → state.Linked state.childless

/-- Outside the rounds there are no books to keep. -/
theorem booked_of_outside (outside : next.control.outside = true) : next.Booked where
  defined undefined := by
    rw [undefined] at outside
    cases outside
  linked inRound := by
    cases control : next.control <;> simp_all [Control.outside, Control.inRound]

/-- A new round is booked. -/
theorem booked_startRound (gone : state.outstanding = []) (nproc : Nat) (pos : 0 < nproc) :
    (state.startRound nproc pos).Booked where
  defined := by simp [startRound]
  linked _ := by
    have childless : (state.startRound nproc pos).childless = List.range nproc := by
      simp [State.childless, startRound, Control.inRound, Control.todo]
    rw [childless]
    exact linked_startRound gone nproc pos

/-- Children that are only carried on keep the books. -/
theorem Booked.carry (booked : state.Booked) {children : List Child}
    (carries : Carries Child.Continues state.children children) (snapshot : Bool) :
    Booked { state with children := children, snapshot := snapshot } where
  defined := booked.defined
  linked inRound := (booked.linked inRound).carry carries snapshot

/-- Going on with a loop is defined. -/
theorem continueWith_defined (isLoop : IsLoop loop) :
    (state.continueWith loop todo).control ≠ .undefined := by
  apply holds_continueWith fun control => control ≠ .undefined
  · rcases isLoop with rfl | rfl | rfl <;> simp
  · simp
  · simp

/-- The body of the wait loop is defined. -/
theorem handled_defined {exitCode : Nat} (handled : Handled state process exitCode next) :
    next.control ≠ .undefined := by
  cases handled with
  | finished _ _ => exact continueWith_defined relaunching_isLoop
  | more _ _ => exact continueWith_defined relaunching_isLoop
  | _ => simp [State.failRound, tryNextDestination]

/-- The head of a loop is a listed process. -/
theorem Linked.proc?_ne_none {id : Nat} (linked : state.Linked state.childless)
    (inRound : state.control.inRound = true) (head : state.control.todo = id :: todo) :
    state.proc? id ≠ none := by
  refine State.proc?_ne_none (linked.listed id ?_)
  simp [State.childless, inRound, head]

/-- Every transition under fresh pids keeps the books. -/
theorem Booked.of_move {choice : Choice} (booked : state.Booked) (accounted : state.Accounted)
    (fresh : freshPids state choice) (move : Move capacity state choice next) : next.Booked := by
  cases move with
  | sync idle perm ordered =>
      rw [launchProcs]
      apply booked_startRound
      exact accounted.outstanding_eq_nil (by rw [idle]; rfl)
  | launch control found forkable =>
      obtain ⟨_, same⟩ := proc?_eq_some found
      have linked := booked.linked (by rw [control]; rfl)
      refine ⟨continueWith_defined launching_isLoop, fun _ => ?_⟩
      rw [launch_eq]
      exact linked.launch launching_isLoop control (by simpa using same) forkable fresh _
  | relaunch control found forkable =>
      obtain ⟨_, same⟩ := proc?_eq_some found
      have linked := booked.linked (by rw [control]; rfl)
      refine ⟨continueWith_defined relaunching_isLoop, fun _ => ?_⟩
      exact linked.launch relaunching_isLoop control same forkable fresh state.formed
  | failOver control found forkable =>
      obtain ⟨_, same⟩ := proc?_eq_some found
      have linked := booked.linked (by rw [control]; rfl)
      refine ⟨continueWith_defined failingOver_isLoop, fun _ => ?_⟩
      exact linked.launch failingOver_isLoop control (by simpa using same) forkable fresh
        state.formed
  | dangling control missing =>
      rcases control with control | control | control <;>
        exact absurd missing ((booked.linked (by rw [control]; rfl)).proc?_ne_none
          (by rw [control]; rfl) (by rw [control]; rfl))
  | stray waiting found ended unknown =>
      have linked := booked.linked (by rw [waiting]; rfl)
      obtain ⟨process, member, _, owns, _⟩ := owner_of_wait linked accounted found ended
      exact absurd owns.pid.symm (unknown process member)
  | @returned index child status _ process _ waiting found ended owner handled =>
      have linked := booked.linked (by rw [waiting]; rfl)
      obtain ⟨own, member, absent, owns, unique⟩ := owner_of_wait linked accounted found ended
      have same : own = process := Option.some.inj (unique.symm.trans owner)
      subst same
      rw [childless_of_waiting waiting] at linked absent
      have reaped := linked.reap accounted.distinct member absent owns status
      exact ⟨handled_defined handled, fun inRound => reaped.handled (accounted.reap found ended)
        (accounted.room found ended waiting) member handled inRound⟩
  | reap reaping found ended =>
      refine booked_of_outside ?_
      simp [State.reap, reaping, Control.outside]
  | child found taken =>
      exact booked.carry (carries_set Child.Continues.refl found
        (Child.continues_of_step taken)) _
  | signal found live =>
      exact booked.carry (carries_set Child.Continues.refl found
        (Child.continues_of_signal live _)) state.snapshot
  | newRound returned room =>
      rw [launchProcs]
      apply booked_startRound
      exact accounted.outstanding_eq_nil (by rw [returned]; rfl)
  | _ => exact booked_of_outside rfl

/-- The books are kept in every state that runs with fresh pids reach. -/
theorem booked_invariant {guard : Machine.Guard State Choice}
    (fresh : ∀ state choice, guard state choice → freshPids state choice) :
    (syncMachine capacity).Invariant guard Booked where
  initial := by
    rintro state ⟨tokenize, argMax, envpSize, config, rfl⟩
    exact booked_of_outside rfl
  preserved _ _ _ reachable booked allowed taken :=
    booked.of_move (accounted_invariant.of_reachable reachable) (fresh _ _ allowed)
      (moves_of_step taken)

/-- The children of a process that have not been reaped. -/
def childrenOf (state : State) (id : Nat) : List Child :=
  state.outstanding.filter fun child => child.proc == id

/-- A childless process has no outstanding child. -/
theorem Linked.childrenOf_eq_nil {id : Nat} (linked : state.Linked childless)
    (distinct : (state.procs.map SyncProcess.id).Nodup) (inside : id ∈ childless) :
    state.childrenOf id = [] := by
  refine List.filter_eq_nil_iff.mpr fun child member => ?_
  obtain ⟨listed, held⟩ := List.mem_filter.mp member
  obtain ⟨index, found⟩ := List.mem_iff_getElem?.mp listed
  obtain ⟨process, _, absent, owns, _⟩ := linked.owner_of_pid distinct found held
  intro same
  refine absent ?_
  rw [← owns.proc, beq_iff_eq.mp same]
  exact inside

/-- Every other process has exactly one. -/
theorem Linked.childrenOf_eq_singleton (linked : state.Linked childless)
    (distinct : (state.procs.map SyncProcess.id).Nodup) (member : process ∈ state.procs)
    (absent : process.id ∉ childless) :
    ∃ child, state.childrenOf process.id = [child] ∧ child.pid = process.pid := by
  obtain ⟨index, child, owns⟩ := linked.owner process member absent
  refine ⟨child, ?_, owns.pid⟩
  unfold childrenOf outstanding
  rw [List.filter_filter]
  refine filter_eq_singleton owns.found ?_ ?_
  · simp [owns.proc, owns.outstanding]
  · intro place other found passes
    rw [Bool.and_eq_true, beq_iff_eq] at passes
    obtain ⟨own, listed, _, owns', _⟩ := linked.owner_of_pid distinct found passes.2
    have same : own = process :=
      List.inj_on_of_nodup_map distinct listed member (owns'.proc.symm.trans passes.1)
    subst same
    have equal := owns'.last
    rw [owns.last] at equal
    exact (Option.some.inj equal).symm

/-- An unparked process has a child. -/
theorem Linked.outstanding_ne_nil (linked : state.Linked state.sshFailProcs)
    (distinct : (state.procs.map SyncProcess.id).Nodup)
    (few : state.sshFailProcs.length < state.procs.length) : state.outstanding ≠ [] := by
  obtain ⟨process, member, absent⟩ : ∃ process ∈ state.procs,
      process.id ∉ state.sshFailProcs := by
    by_contra all
    push Not at all
    have subset : state.procs.map SyncProcess.id ⊆ state.sshFailProcs := by
      intro id inside
      obtain ⟨process, member, rfl⟩ := List.mem_map.mp inside
      exact all process member
    have short := (List.subperm_of_subset distinct subset).length_le
    rw [List.length_map] at short
    omega
  obtain ⟨index, child, owns⟩ := linked.owner process member absent
  refine List.ne_nil_of_mem (List.mem_filter.mpr ⟨?_, owns.outstanding⟩)
  exact List.mem_of_getElem? owns.found

/-- At the `wait`, the parked processes are listed without repetition and have no
child, and every other process has exactly one, whose pid it stores. So a process
is only started when it has no child, and no child is left when a round succeeds
or is about to be repeated with more headroom. -/
theorem bookkeeping_of_reachable (reachable : (syncMachine capacity).Reachable freshPids state) :
    (state.control = .waiting →
      state.sshFailProcs.Nodup ∧
      (∀ id ∈ state.sshFailProcs, ∃ process ∈ state.procs, process.id = id) ∧
      (∀ process ∈ state.procs, process.id ∉ state.sshFailProcs →
        ∃ child, state.childrenOf process.id = [child] ∧ child.pid = process.pid) ∧
      ∀ process ∈ state.procs, process.id ∈ state.sshFailProcs →
        state.childrenOf process.id = []) ∧
    (∀ pid next, freshPids state (.fork pid) → state.step capacity (.fork pid) = some next →
      ∃ process ∈ state.procs, state.control.todo.head? = some process.id ∧
        state.childrenOf process.id = [] ∧ next.control ≠ .undefined) ∧
    (state.control = .returned .syncSuccess ∨ state.control = .returned .incHeadroom →
      state.outstanding = []) := by
  have accounted := accounted_invariant.of_reachable reachable
  have booked := (booked_invariant fun _ _ fresh => fresh).of_reachable reachable
  have distinct := accounted.distinct
  refine ⟨fun waiting => ?_, fun pid next fresh taken => ?_, fun returned => ?_⟩
  · have linked := booked.linked (by rw [waiting]; rfl)
    rw [childless_of_waiting waiting] at linked
    exact ⟨linked.once, linked.listed,
      fun process member absent => linked.childrenOf_eq_singleton distinct member absent,
      fun process _ parked => linked.childrenOf_eq_nil distinct parked⟩
  · have after := (booked_invariant fun _ _ fresh => fresh).of_reachable
      (reachable_step reachable fresh taken)
    rcases launch_of_fork taken with equal | ⟨loop, id, todo, old, process, formed, isLoop,
      control, member, same, _, _⟩
    · exact absurd (by rw [equal]) after.defined
    · refine ⟨old, member, by rw [todo_of_loop isLoop control, same]; rfl, ?_, after.defined⟩
      refine (booked.linked (inRound_of_loop isLoop control)).childrenOf_eq_nil distinct ?_
      simp [childless_of_loop isLoop control, same]
  · exact accounted.outstanding_eq_nil (by rcases returned with same | same <;> rw [same] <;> rfl)

/-- One of two processes is parked. -/
def parkedRun : List Choice :=
  let files := [plainFile "/s/./a".toList 1, plainFile "/s/./b".toList 2]
  [.sync files files, .fork 11, .fork 12] ++ childExits 0 sshFail ++ [.wait 0 true]

theorem bookkeeping_of_parked :
    ∃ state : State, state.control = .waiting ∧ state.sshFailProcs = [0] ∧
      ∀ process ∈ state.procs, process.id ∈ state.sshFailProcs →
        state.childrenOf process.id = [] := by
  have executed : ((syncMachine 4).run freshPids (rsyncDaemon 2 "a:b".toList) parkedRun).any
      (fun state => decide (state.control = .waiting ∧ state.sshFailProcs = [0])) = true := by
    decide +kernel
  obtain ⟨state, reachable, ended⟩ := Machine.exists_of_run (rsyncDaemon_initial 2 _) executed
  obtain ⟨waiting, parked⟩ := of_decide_eq_true ended
  exact ⟨state, waiting, parked, ((bookkeeping_of_reachable reachable).1 waiting).2.2.2⟩

end State

end CephGeoRep
