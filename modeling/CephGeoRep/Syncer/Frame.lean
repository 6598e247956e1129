import CephGeoRep.Syncer.Moves

/-!
# Frame lemmas

How the primitive updates of the joint state act on the list of processes and on
the children.
-/

namespace CephGeoRep.State

variable {state : State} {process other : SyncProcess} {id pid : Nat}

/-- A list with one place where a test passes is filtered to one element. -/
theorem filter_eq_singleton {α : Type} {list : List α} {test : α → Bool} {element : α}
    {place : Nat} (found : list[place]? = some element) (passes : test element = true)
    (unique : ∀ (other : Nat) (value : α), list[other]? = some value → test value = true →
      other = place) : list.filter test = [element] := by
  induction list generalizing place with
  | nil => cases found
  | cons first rest ih =>
      cases place with
      | zero =>
          obtain rfl : first = element := by simpa using found
          have later : rest.filter test = [] := by
            refine List.filter_eq_nil_iff.mpr fun value member holds => ?_
            obtain ⟨other, here⟩ := List.mem_iff_getElem?.mp member
            exact absurd (unique (other + 1) value (by simpa using here) holds) (by simp)
          rw [List.filter_cons_of_pos passes, later]
      | succ place =>
          have skipped : ¬ test first = true := fun holds =>
            absurd (unique 0 first rfl holds) (by simp)
          rw [List.filter_cons_of_neg skipped]
          refine ih (by simpa using found) fun other value here holds => ?_
          exact Nat.succ.inj (unique (other + 1) value (by simpa using here) holds)

/-! ## Processes -/

theorem proc?_eq_some (found : state.proc? id = some process) :
    process ∈ state.procs ∧ process.id = id := by
  unfold proc? at found
  exact ⟨List.mem_of_find?_eq_some found, by simpa using List.find?_some found⟩

/-- A listed process is found under its `id_`. -/
theorem proc?_ne_none (member : ∃ process ∈ state.procs, process.id = id) :
    state.proc? id ≠ none := by
  obtain ⟨process, member, rfl⟩ := member
  intro missing
  simpa using List.find?_eq_none.mp missing process member

/-- The objects after one of them has been written back. -/
theorem mem_setProc :
    other ∈ (state.setProc process).procs ↔
      (other = process ∧ ∃ old ∈ state.procs, old.id = process.id) ∨
        (other ∈ state.procs ∧ other.id ≠ process.id) := by
  rw [setProc]
  simp only [List.mem_map]
  constructor
  · rintro ⟨old, member, rfl⟩
    split
    · next same => exact .inl ⟨rfl, old, member, same⟩
    · next differs => exact .inr ⟨member, differs⟩
  · rintro (⟨rfl, old, member, same⟩ | ⟨member, differs⟩)
    · exact ⟨old, member, by simp [same]⟩
    · exact ⟨other, member, by simp [differs]⟩

@[simp]
theorem map_id_setProc (state : State) (process : SyncProcess) :
    (state.setProc process).procs.map SyncProcess.id = state.procs.map SyncProcess.id := by
  rw [setProc]
  rw [List.map_map]
  refine List.map_congr_left fun old _ => ?_
  simp only [Function.comp_apply]
  split
  · next same => exact same.symm
  · rfl

@[simp]
theorem length_procs_setProc (state : State) (process : SyncProcess) :
    (state.setProc process).procs.length = state.procs.length := by
  simp [setProc]

/-- Writing an object back twice keeps the second version. -/
theorem setProc_setProc (same : other.id = process.id) :
    (state.setProc process).setProc other = state.setProc other := by
  unfold setProc
  simp only [List.map_map, State.mk.injEq, and_self, and_true, true_and]
  refine List.map_congr_left fun old _ => ?_
  simp only [Function.comp_apply, same]
  split <;> simp_all

/-- Processes that stay when one is erased; the `id_`s are distinct. -/
theorem mem_eraseProc (distinct : (state.procs.map SyncProcess.id).Nodup) :
    other ∈ (state.eraseProc id).procs ↔ other ∈ state.procs ∧ other.id ≠ id := by
  rw [eraseProc]
  simp only
  generalize state.procs = procs at distinct ⊢
  induction procs with
  | nil => simp
  | cons first rest ih =>
      rw [List.map_cons, List.nodup_cons] at distinct
      by_cases same : first.id = id
      · rw [List.eraseP_cons_of_pos (by simpa using same)]
        constructor
        · intro member
          refine ⟨.tail _ member, fun equal => distinct.1 ?_⟩
          rw [same, ← equal]
          exact List.mem_map_of_mem member
        · rintro ⟨member, differs⟩
          rcases List.mem_cons.mp member with rfl | later
          · exact absurd same differs
          · exact later
      · rw [List.eraseP_cons_of_neg (by simpa using same), List.mem_cons, List.mem_cons,
          ih distinct.2]
        constructor
        · rintro (rfl | ⟨member, differs⟩)
          · exact ⟨.inl rfl, same⟩
          · exact ⟨.inr member, differs⟩
        · rintro ⟨rfl | member, differs⟩
          · exact .inl rfl
          · exact .inr ⟨member, differs⟩

theorem length_eraseProc (state : State) (member : ∃ process ∈ state.procs, process.id = id) :
    (state.eraseProc id).procs.length + 1 = state.procs.length := by
  obtain ⟨process, member, same⟩ := member
  rw [eraseProc]
  simp only
  rw [List.length_eraseP_of_mem member (by simpa using same)]
  have := List.length_pos_of_mem member
  omega

theorem nodup_eraseProc (state : State) (distinct : (state.procs.map SyncProcess.id).Nodup) :
    ((state.eraseProc id).procs.map SyncProcess.id).Nodup :=
  distinct.sublist ((List.eraseP_sublist).map _)

/-- With distinct `id_`s every listed object is the one found under its `id_`. -/
theorem proc?_eq_some_iff (distinct : (state.procs.map SyncProcess.id).Nodup) :
    state.proc? id = some process ↔ process ∈ state.procs ∧ process.id = id := by
  refine ⟨proc?_eq_some, ?_⟩
  rintro ⟨member, rfl⟩
  obtain ⟨found, equal⟩ := Option.ne_none_iff_exists'.mp
    (proc?_ne_none ⟨process, member, rfl⟩)
  obtain ⟨other, same⟩ := proc?_eq_some equal
  rw [equal, List.inj_on_of_nodup_map distinct other member same]

/-- Looking up after one object has been written back. -/
theorem proc?_setProc (distinct : (state.procs.map SyncProcess.id).Nodup)
    (member : ∃ old ∈ state.procs, old.id = process.id) (id : Nat) :
    (state.setProc process).proc? id =
      if id = process.id then some process else state.proc? id := by
  have distinct' : ((state.setProc process).procs.map SyncProcess.id).Nodup := by
    rwa [map_id_setProc]
  by_cases same : id = process.id
  · rw [if_pos same, same, proc?_eq_some_iff distinct']
    exact ⟨mem_setProc.mpr (.inl ⟨rfl, member⟩), rfl⟩
  · rw [if_neg same]
    ext other
    rw [proc?_eq_some_iff distinct', proc?_eq_some_iff distinct, mem_setProc]
    constructor
    · rintro ⟨⟨rfl, _⟩ | ⟨member, _⟩, equal⟩
      · exact absurd equal.symm same
      · exact ⟨member, equal⟩
    · rintro ⟨member, rfl⟩
      exact ⟨.inr ⟨member, same⟩, rfl⟩

/-- Looking up after one object has been erased. -/
theorem proc?_eraseProc (distinct : (state.procs.map SyncProcess.id).Nodup) (gone id : Nat) :
    (state.eraseProc gone).proc? id = if id = gone then none else state.proc? id := by
  have distinct' : ((state.eraseProc gone).procs.map SyncProcess.id).Nodup :=
    nodup_eraseProc state distinct
  ext other
  rw [proc?_eq_some_iff distinct', mem_eraseProc distinct]
  by_cases same : id = gone
  · rw [if_pos same]
    constructor
    · rintro ⟨⟨_, differs⟩, equal⟩
      exact absurd (equal.trans same) differs
    · rintro ⟨⟩
  · rw [if_neg same, proc?_eq_some_iff distinct]
    constructor
    · rintro ⟨⟨member, _⟩, equal⟩
      exact ⟨member, equal⟩
    · rintro ⟨member, rfl⟩
      exact ⟨⟨member, same⟩, rfl⟩

/-- The launch of a process: it forms a batch and forks. -/
theorem launch_eq :
    (state.consume process).1.syncBatch (state.consume process).2 pid =
      { state.setProc ((process.consume state.queue state.destination).started pid
          state.children.length) with
        children := state.children ++
          [Child.fork (process.consume state.queue state.destination) pid state.destination]
        formed := state.formed ++
          [(process.id, (process.consume state.queue state.destination).batch)] } := by
  unfold syncBatch consume
  simp only [SyncProcess.consume_id]
  rw [← setProc_setProc
    (show ((process.consume state.queue state.destination).started pid
      state.children.length).id = (process.consume state.queue state.destination).id from rfl)]
  rfl

/-! ## Children -/

/-- How many children `wait` has not returned yet. -/
def outstandingCount (state : State) : Nat := state.children.countP Child.outstanding

theorem outstandingCount_eq : state.outstandingCount = state.outstanding.length :=
  List.countP_eq_length_filter

theorem outstanding_eq_nil_iff :
    state.outstanding = [] ↔ ∀ child ∈ state.children, child.outstanding = false := by
  simp [outstanding, List.filter_eq_nil_iff]

variable {index : Nat} {child next : Child} {status : WaitStatus}

@[simp]
theorem outstanding_of_zombie (ended : child.phase = .zombie status) :
    child.outstanding = true := by
  simp [Child.outstanding, ended]

/-- Replacing a child by its continuation keeps the number of outstanding ones. -/
theorem countP_set_of_continues {children : List Child} (found : children[index]? = some child)
    (same : next.outstanding = child.outstanding) :
    (children.set index next).countP Child.outstanding =
      children.countP Child.outstanding := by
  obtain ⟨bound, rfl⟩ := List.getElem?_eq_some_iff.mp found
  rw [List.countP_set bound, same]
  have positive : children[index].outstanding = true →
      0 < children.countP Child.outstanding := fun held =>
    List.countP_pos_iff.mpr ⟨_, List.getElem_mem bound, held⟩
  cases held : children[index].outstanding with
  | false => simp
  | true =>
      have := positive held
      simp only [↓reduceIte]
      omega

/-- Reaping a child takes it out of the outstanding ones. -/
theorem outstandingCount_reap (found : state.children[index]? = some child)
    (ended : child.phase = .zombie status) :
    (state.reap index child status).outstandingCount + 1 = state.outstandingCount := by
  obtain ⟨bound, equal⟩ := List.getElem?_eq_some_iff.mp found
  have held : state.children[index].outstanding = true := by
    rw [equal, outstanding_of_zombie ended]
  have positive : 0 < state.children.countP Child.outstanding :=
    List.countP_pos_iff.mpr ⟨_, List.getElem_mem bound, held⟩
  have gone : ({ child with phase := .reaped status } : Child).outstanding = false := rfl
  unfold outstandingCount reap
  rw [List.countP_set bound, held, gone]
  simp only [↓reduceIte, Bool.false_eq_true]
  omega

@[simp]
theorem sendSigint_outstanding : (sendSigint pid child).outstanding = child.outstanding := by
  rw [sendSigint]
  split <;> rfl

theorem countP_sendSigint {children : List Child} :
    (children.map (sendSigint pid)).countP Child.outstanding =
      children.countP Child.outstanding := by
  rw [List.countP_map]
  exact List.countP_congr fun child _ => by simp

@[simp]
theorem fork_outstanding {destination : CString} :
    (Child.fork process pid destination).outstanding = true := rfl

/-! ## Children that go on -/

/-- Nothing but the phase of a child and what it depends on changed; `wait` may
have reaped it. -/
structure Kept (before after : Child) : Prop where
  pid : after.pid = before.pid
  argv : after.argv = before.argv
  proc : after.proc = before.proc
  batch : after.batch = before.batch
  destination : after.destination = before.destination
  outstanding : after.outstanding = true → before.outstanding = true
  still : before.outstanding = false → after = before

theorem Kept.refl (child : Child) : Kept child child :=
  ⟨rfl, rfl, rfl, rfl, rfl, id, fun _ => rfl⟩

theorem kept_of_continues {before after : Child} (continues : before.Continues after) :
    Kept before after :=
  ⟨continues.pid, continues.argv, continues.proc, continues.batch, continues.destination,
    fun held => continues.outstanding ▸ held, continues.still⟩

theorem kept_reaped (ended : child.phase = .zombie status) :
    Kept child { child with phase := .reaped status } :=
  ⟨rfl, rfl, rfl, rfl, rfl, (fun held => by cases held),
    (fun gone => absurd gone (by simp [outstanding_of_zombie ended]))⟩

/-- Index by index, the children of one list are related to those of another. -/
structure Carries (relation : Child → Child → Prop) (before after : List Child) : Prop where
  length : after.length = before.length
  related : ∀ (index : Nat) (old new : Child), before[index]? = some old →
    after[index]? = some new → relation old new

variable {relation : Child → Child → Prop} {before after : List Child}

/-- A child of the later list has a predecessor at the same index. -/
theorem Carries.origin (carries : Carries relation before after) {new : Child}
    (found : after[index]? = some new) :
    ∃ old, before[index]? = some old ∧ relation old new := by
  obtain ⟨bound, _⟩ := List.getElem?_eq_some_iff.mp found
  obtain ⟨old, earlier⟩ : ∃ old, before[index]? = some old :=
    ⟨_, List.getElem?_eq_getElem (carries.length ▸ bound)⟩
  exact ⟨old, earlier, carries.related index _ _ earlier found⟩

/-- A child of the earlier list has a successor at the same index. -/
theorem Carries.successor (carries : Carries relation before after) {old : Child}
    (found : before[index]? = some old) :
    ∃ new, after[index]? = some new ∧ relation old new := by
  obtain ⟨bound, _⟩ := List.getElem?_eq_some_iff.mp found
  obtain ⟨new, later⟩ : ∃ new, after[index]? = some new :=
    ⟨_, List.getElem?_eq_getElem (carries.length.symm ▸ bound)⟩
  exact ⟨new, later, carries.related index _ _ found later⟩

theorem Carries.origin_mem (carries : Carries relation before after) {new : Child}
    (member : new ∈ after) : ∃ old ∈ before, relation old new := by
  obtain ⟨index, found⟩ := List.mem_iff_getElem?.mp member
  obtain ⟨old, earlier, related⟩ := carries.origin found
  exact ⟨old, List.mem_of_getElem? earlier, related⟩

theorem carries_refl (refl : ∀ child, relation child child) (children : List Child) :
    Carries relation children children where
  length := rfl
  related _ old new earlier later := by
    rw [earlier] at later
    cases later
    exact refl old

/-- Replacing one child by a related one. -/
theorem carries_set (refl : ∀ child, relation child child)
    (found : before[index]? = some child) (related : relation child next) :
    Carries relation before (before.set index next) where
  length := List.length_set
  related position old new earlier later := by
    rw [List.getElem?_set] at later
    split at later
    · next same =>
      subst same
      rw [found] at earlier
      cases earlier
      split at later <;> cases later
      exact related
    · rw [earlier] at later
      cases later
      exact refl old

/-- Replacing every child by a related one. -/
theorem carries_map {update : Child → Child} (related : ∀ child, relation child (update child)) :
    Carries relation before (before.map update) where
  length := List.length_map _
  related position old new earlier later := by
    rw [List.getElem?_map, earlier] at later
    cases later
    exact related old

theorem Carries.mono {weaker : Child → Child → Prop} (carries : Carries relation before after)
    (implies : ∀ old new, relation old new → weaker old new) : Carries weaker before after :=
  ⟨carries.length, fun index old new earlier later =>
    implies old new (carries.related index old new earlier later)⟩

/-- Sending SIGINT leaves everything but the pending signals alone. -/
theorem continues_sendSigint (child : Child) : child.Continues (sendSigint pid child) := by
  rw [sendSigint]
  split
  · next both => exact Child.continues_of_signal (Bool.and_eq_true .. ▸ both).1 _
  · exact .refl child

/-- Where the children after a step come from. -/
inductive Origin (capacity : Nat) (state : State) (choice : Choice) : Child → Prop where
  | kept {child : Child} (member : child ∈ state.children) : Origin capacity state choice child
  | forked {process : SyncProcess} {pid : Nat} {destination : CString} :
      Origin capacity state choice (Child.fork process pid destination)
  | reaped {child : Child} {status : WaitStatus} (member : child ∈ state.children)
      (ended : child.phase = .zombie status) :
      Origin capacity state choice { child with phase := .reaped status }
  | stepped {index : Nat} {old child : Child} {childChoice : ChildChoice}
      (same : choice = .child index childChoice) (found : state.children[index]? = some old)
      (taken : old.step capacity childChoice = some child) : Origin capacity state choice child
  | signaled {child : Child} (member : child ∈ state.children) (live : child.live = true)
      (pending : List Signal) : Origin capacity state choice { child with pending := pending }

variable {capacity : Nat} {choice : Choice} {after : State}

theorem origin_of_set {place : Child}
    (origin : Origin capacity state choice next) (member : place ∈ state.children.set index next) :
    Origin capacity state choice place := by
  rcases List.mem_or_eq_of_mem_set member with old | rfl
  · exact .kept old
  · exact origin

theorem origin_of_append {place : Child}
    (member : place ∈ state.children ++ [Child.fork process pid state.destination]) :
    Origin capacity state choice place := by
  rcases List.mem_append.mp member with old | new
  · exact .kept old
  · rw [List.mem_singleton.mp new]
    exact .forked

/-- Every child behind a transition was there before, was forked by it, or is what one
step made of an earlier child. -/
theorem origin_of_move (move : Move capacity state choice after) {child : Child}
    (member : child ∈ after.children) : Origin capacity state choice child := by
  cases move with
  | sync _ _ _ => exact .kept (List.mem_of_mem_filter member)
  | newRound _ _ => exact .kept (List.mem_of_mem_filter member)
  | launch _ _ _ => exact origin_of_append member
  | relaunch _ _ _ => exact origin_of_append member
  | failOver _ _ _ => exact origin_of_append member
  | stray _ found ended _ =>
      exact origin_of_set (.reaped (List.mem_of_getElem? found) ended) member
  | reap _ found ended =>
      exact origin_of_set (.reaped (List.mem_of_getElem? found) ended) member
  | @returned index old status _ _ _ _ found ended _ handled =>
      have reaped : child ∈ (state.reap index old status).children := by
        cases handled <;> exact member
      exact origin_of_set (.reaped (List.mem_of_getElem? found) ended) reaped
  | kill _ =>
      obtain ⟨old, listed, rfl⟩ := List.mem_map.mp member
      rw [sendSigint]
      split
      · next both => exact .signaled listed (Bool.and_eq_true .. ▸ both).1 _
      · exact .kept listed
  | child found taken => exact origin_of_set (.stepped rfl found taken) member
  | signal found live =>
      exact origin_of_set (.signaled (List.mem_of_getElem? found) live _) member
  | _ => exact .kept member

/-! ## Process objects -/

/-- Where the process objects behind a step come from. -/
inductive ProcOrigin (state next : State) : SyncProcess → Prop where
  | fresh (nproc : Nat) (pos : 0 < nproc) (id : Nat) :
      ProcOrigin state next (SyncProcess.new next.syncer nproc pos id)
  | kept {process : SyncProcess} (queue : next.queue = state.queue)
      (member : process ∈ state.procs) : ProcOrigin state next process
  | launched {process : SyncProcess} (queue : next.queue = state.queue)
      (member : process ∈ state.procs) (pid count : Nat) :
      ProcOrigin state next
        ((process.consume state.queue state.destination).started pid count)
  | relaunched {process : SyncProcess} (queue : next.queue = state.queue)
      (member : process ∈ state.procs) (pid count : Nat) :
      ProcOrigin state next (process.started pid count)
  | redirected {process : SyncProcess} (queue : next.queue = state.queue)
      (member : process ∈ state.procs) (pid count : Nat) :
      ProcOrigin state next ((process.changeDestination state.destination).started pid count)
  | refilled {process : SyncProcess} (queue : next.queue = state.queue)
      (member : process ∈ state.procs) :
      ProcOrigin state next (process.reset.consume state.queue state.destination)

theorem procOrigin_of_startRound {nproc : Nat} {pos : 0 < nproc}
    (member : process ∈ (state.startRound nproc pos).procs) (before : State) :
    ProcOrigin before (state.startRound nproc pos) process := by
  simp only [startRound, List.mem_map, List.mem_range] at member
  obtain ⟨id, -, rfl⟩ := member
  exact .fresh nproc pos id

/-- Every process object behind a transition is new, was there before, or is what one
call made of an earlier object. -/
theorem procOrigin_of_move (move : Move capacity state choice after)
    (member : process ∈ after.procs) : ProcOrigin state after process := by
  cases move with
  | sync _ _ _ => exact procOrigin_of_startRound member state
  | newRound _ _ => exact procOrigin_of_startRound member state
  | launch _ found _ =>
      rw [launch_eq] at member ⊢
      rcases mem_setProc.mp member with ⟨rfl, _⟩ | ⟨old, _⟩
      · exact .launched (by rfl) (proc?_eq_some found).1 _ _
      · exact .kept rfl old
  | relaunch _ found _ =>
      rcases mem_setProc.mp member with ⟨rfl, _⟩ | ⟨old, _⟩
      · exact .relaunched (by rfl) (proc?_eq_some found).1 _ _
      · exact .kept rfl old
  | failOver _ found _ =>
      rcases mem_setProc.mp member with ⟨rfl, _⟩ | ⟨old, _⟩
      · exact .redirected (by rfl) (proc?_eq_some found).1 _ _
      · exact .kept rfl old
  | returned _ _ _ owner handled =>
      have owned := List.mem_of_find?_eq_some owner
      cases handled with
      | finished _ _ => exact .kept rfl (List.mem_of_mem_eraseP member)
      | more _ _ =>
          rcases mem_setProc.mp member with ⟨rfl, _⟩ | ⟨old, _⟩
          · exact .refilled rfl owned
          · exact .kept rfl old
      | _ => exact .kept rfl member
  | allReaped _ _ => cases member
  | _ => exact .kept rfl member

end CephGeoRep.State
