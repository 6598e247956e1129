import CephGeoRep.Syncer.Bookkeeping

/-!
# Rounds whose children all succeed

Such a round forms its batches one after another and launches each of them once.
When every file of the queue fits on a fresh payload, no batch is empty and there
are at most as many launches as files. A file that does not fit stops its process
for good: it is launched with an empty file list again and again.
-/

namespace CephGeoRep

open Semantics Support

/-- `full_test` of a payload without files. -/
def Syncer.fits (syncer : Syncer) (file : File) : Bool :=
  sizeT (syncer.startMemUsage + file.pathLen + 1 + sizeofPtr) < syncer.maxMemUsage

/-- Exited with code 0 and not waited for yet. -/
def Child.exitedZero (child : Child) : Bool :=
  match child.phase with
  | .zombie (.exited code) => code % 256 == 0
  | _ => false

/-- Steps within a round whose children all exit with code 0. -/
def zeroExits (state : State) : Choice → Prop
  | .wait index _ => (state.children[index]?.all Child.exitedZero) = true
  | .sync .. | .afterRound | .deleteSnap _ => False
  | _ => True

instance (state : State) (choice : Choice) : Decidable (zeroExits state choice) :=
  match choice with
  | .wait .. => inferInstanceAs (Decidable (_ = _))
  | .fork _ | .forkFails | .noChildren | .kill | .child .. | .signal .. => .isTrue trivial
  | .sync .. | .afterRound | .deleteSnap _ => .isFalse id

/-- The parent takes the step. -/
def Choice.ofParent : Choice → Bool
  | .child .. | .signal .. => false
  | _ => true

/-- Where a round is whose children all succeed. -/
def Control.steady : Control → Bool
  | .launching _ | .relaunching _ | .waiting | .returned .syncSuccess | .exited => true
  | _ => false

/-- How many batches have been formed and wait for their launch. -/
def Control.pending : Control → Nat
  | .relaunching todo => todo.length
  | _ => 0

namespace State

/-- What every step of such a round keeps; `base` is the state it started in. -/
structure Steady (state base : State) : Prop where
  queue : state.queue = base.queue
  startMem : state.syncer.startMemUsage = base.syncer.startMemUsage
  maxMem : state.syncer.maxMemUsage = base.syncer.maxMemUsage
  limits : ∀ process ∈ state.procs, process.startMemUsage = base.syncer.startMemUsage ∧
    process.maxMemUsage = base.syncer.maxMemUsage
  fresh : ∀ process ∈ state.procs, process.id ∈ state.control.unloaded →
    process.fileItr = process.id ∧ process.currMemUsage = base.syncer.startMemUsage ∧
      process.id < max base.queue.length 1 ∧ process.pid = 0
  count : state.numSshFailsToInc = base.numSshFailsToInc
  parked : state.sshFailProcs = []
  control : state.control.steady = true
  busy : state.control = .waiting → state.procs ≠ []
  launches : state.children.length + state.control.pending ≤ state.formed.length
  single : state.control.pending ≤ 1

variable {capacity : Nat} {base state next : State} {loop : List Nat → Control}
  {todo : List Nat} {process old : SyncProcess} {id index : Nat} {child : Child}

/-- Going on with a loop of such a round. -/
theorem steady_continueWith (isLoop : loop = .launching ∨ loop = .relaunching) :
    (state.continueWith loop todo).control.steady = true := by
  apply holds_continueWith fun control => control.steady = true
  · rcases isLoop with rfl | rfl <;> rfl
  · rfl
  · rfl

theorem busy_continueWith (isLoop : IsLoop loop) :
    (state.continueWith loop todo).control = .waiting → state.procs ≠ [] := by
  intro waiting
  rcases control_continueWith state loop todo with equal | ⟨_, left, _⟩ | ⟨_, _, equal⟩
  · rw [equal] at waiting
    rcases isLoop with rfl | rfl | rfl <;> cases waiting
  · exact left
  · rw [equal] at waiting
    cases waiting

theorem pending_continueWith (isLoop : IsLoop loop) :
    (state.continueWith loop todo).control.pending = (loop todo).pending := by
  apply read_continueWith <;> rcases isLoop with rfl | rfl | rfl <;> rfl

/-- A process that is started keeps the round steady. -/
theorem Steady.start (steady : state.Steady base)
    (isLoop : loop = .launching ∨ loop = .relaunching)
    (control : state.control = loop (id :: todo)) (same : process.id = id)
    (once : id ∉ (loop todo).unloaded)
    (limits : process.startMemUsage = base.syncer.startMemUsage ∧
      process.maxMemUsage = base.syncer.maxMemUsage)
    (pid : Nat) (child : Child) {formed : List (Nat × List Nat)}
    (launches : state.children.length + 1 + (loop todo).pending ≤ formed.length)
    (single : (loop todo).pending ≤ 1) :
    (continueWith { state.setProc (process.started pid state.children.length) with
      children := state.children ++ [child], formed := formed } loop todo).Steady base := by
  have isLoop' : IsLoop loop := by
    rcases isLoop with rfl | rfl
    · exact launching_isLoop
    · exact relaunching_isLoop
  refine ⟨steady.queue, steady.startMem, steady.maxMem, ?_, ?_, steady.count, steady.parked,
    steady_continueWith isLoop, busy_continueWith isLoop', ?_, ?_⟩
  · intro other member
    rcases mem_setProc.mp member with ⟨rfl, _⟩ | ⟨earlier, _⟩
    · exact limits
    · exact steady.limits other earlier
  · intro other member unloaded
    rw [unloaded_continueWith _ isLoop'] at unloaded
    rcases mem_setProc.mp member with ⟨rfl, _⟩ | ⟨earlier, _⟩
    · exact absurd (same ▸ unloaded) once
    · refine steady.fresh other earlier ?_
      rw [control]
      rcases isLoop with rfl | rfl
      · exact List.mem_cons_of_mem _ unloaded
      · cases unloaded
  · rw [pending_continueWith isLoop']
    simpa [continueWith] using launches
  · rwa [pending_continueWith isLoop']

/-- `consume` keeps the limits of a process. -/
theorem consume_limits (process : SyncProcess) (queue : List File) (destination : CString) :
    (process.consume queue destination).startMemUsage = process.startMemUsage ∧
      (process.consume queue destination).maxMemUsage = process.maxMemUsage := by
  obtain ⟨filled, count, fills, equal⟩ := process.consume_fills queue destination
  rw [equal]
  exact ⟨fills.startMemUsage, fills.maxMemUsage⟩

/-- The child `wait` may return has exited with code 0. -/
theorem wexitstatus_of_zeroExits {logOpens : Bool} {status : WaitStatus}
    (allowed : zeroExits state (.wait index logOpens)) (found : state.children[index]? = some child)
    (ended : child.phase = .zombie status) : wexitstatus status.encode = 0 := by
  have all : (state.children[index]?.all Child.exitedZero) = true := allowed
  rw [found, Option.all_some, Child.exitedZero, ended] at all
  cases status with
  | exited code => simpa using all
  | signaled signo coreDumped => cases all

/-- The moves of such a round. -/
inductive ZeroMove (capacity : Nat) (state : State) : Choice → State → Prop where
  | launch {id todo process pid} (control : state.control = .launching (id :: todo))
      (found : state.proc? id = some process) :
      ZeroMove capacity state (.fork pid)
        (((state.consume process).1.syncBatch (state.consume process).2 pid).continueWith
          .launching todo)
  | relaunch {id todo process pid} (control : state.control = .relaunching (id :: todo))
      (found : state.proc? id = some process) :
      ZeroMove capacity state (.fork pid)
        ((state.syncBatch process pid).continueWith .relaunching todo)
  | forkFails (looping : state.control ≠ .exited) :
      ZeroMove capacity state .forkFails state.exitFailure
  | stray {index child status logOpens} (waiting : state.control = .waiting)
      (found : state.children[index]? = some child) (ended : child.phase = .zombie status) :
      ZeroMove capacity state (.wait index logOpens) (state.reap index child status)
  | finished {index child status logOpens process} (waiting : state.control = .waiting)
      (found : state.children[index]? = some child) (ended : child.phase = .zombie status)
      (member : process ∈ state.procs) (done : process.done state.queue = true) :
      ZeroMove capacity state (.wait index logOpens)
        ((((state.reap index child status).retire process).eraseProc process.id).continueWith
          .relaunching [])
  | more {index child status logOpens process} (waiting : state.control = .waiting)
      (found : state.children[index]? = some child) (ended : child.phase = .zombie status)
      (member : process ∈ state.procs) (left : process.done state.queue = false) :
      ZeroMove capacity state (.wait index logOpens)
        ((((state.reap index child status).retire process).consume
          process.reset).1.continueWith .relaunching [process.id])
  | child {index child choice next} (found : state.children[index]? = some child)
      (taken : child.step capacity choice = some next) :
      ZeroMove capacity state (.child index choice)
        { state with
          children := state.children.set index next
          snapshot := state.snapshot && decide (choice ≠ .handle true) }
  | signal {index child signal} (found : state.children[index]? = some child) :
      ZeroMove capacity state (.signal index signal)
        { state with
          children :=
            state.children.set index { child with pending := signal :: child.pending } }

/-- While `wait` has children to wait for and no pointer is followed that is gone, a
steady round makes no other moves. -/
theorem Steady.zeroMove {choice : Choice} (steady : state.Steady base)
    (defined : next.control ≠ .undefined)
    (running : state.control = .waiting → state.outstanding ≠ [])
    (allowed : zeroExits state choice) (move : Move capacity state choice next) :
    ZeroMove capacity state choice next := by
  have control := steady.control
  cases move with
  | launch here found _ => exact .launch here found
  | relaunch here found _ => exact .relaunch here found
  | failOver here _ _ => rw [here] at control; cases control
  | dangling _ _ => exact absurd rfl defined
  | forkFails looping =>
      apply ZeroMove.forkFails
      rcases looping with looping | looping | looping <;> rw [looping] <;> simp
  | stray waiting found ended _ => exact .stray waiting found ended
  | returned waiting found ended owner handled =>
      have member := List.mem_of_find?_eq_some owner
      rw [wexitstatus_of_zeroExits allowed found ended] at handled
      have parked := steady.parked
      cases handled with
      | finished _ done =>
          rw [show (state.reap _ _ _).sshFailProcs = [] from parked]
          exact .finished waiting found ended member done
      | more _ left =>
          rw [show (state.reap _ _ _).sshFailProcs = [] from parked]
          exact .more waiting found ended member left
      | tooBig nonzero _ _ => exact absurd rfl nonzero
      | fail nonzero _ => exact absurd rfl nonzero
      | retry nonzero _ => exact absurd rfl nonzero
      | park code _ => cases code
      | failOver code _ => cases code
  | reap here _ _ => rw [here] at control; cases control
  | noneLeft waiting gone => exact absurd gone (running waiting)
  | allReaped here _ => rw [here] at control; cases control
  | kill here => rw [here] at control; cases control
  | killed here => rw [here] at control; cases control
  | child found taken => exact .child found taken
  | signal found _ => exact .signal found
  | sync _ _ _ => exact absurd allowed id
  | newRound _ _ => exact absurd allowed id
  | success _ => exact absurd allowed id
  | failure _ _ => exact absurd allowed id
  | deleted _ => exact absurd allowed id
  | notDeleted _ => exact absurd allowed id

/-- Children that are only carried on keep the round steady. -/
theorem Steady.carry (steady : state.Steady base) {children : List Child}
    (length : children.length = state.children.length) (snapshot : Bool) :
    Steady { state with children := children, snapshot := snapshot } base where
  queue := steady.queue
  startMem := steady.startMem
  maxMem := steady.maxMem
  limits := steady.limits
  fresh := steady.fresh
  count := steady.count
  parked := steady.parked
  control := steady.control
  busy := steady.busy
  launches := length ▸ steady.launches
  single := steady.single

/-- A batch that is retired makes its process finish or go on. -/
theorem Steady.retire (steady : state.Steady base) (waiting : state.control = .waiting)
    {procs : List SyncProcess} {formed : List (Nat × List Nat)}
    (limits : ∀ process ∈ procs, process.startMemUsage = base.syncer.startMemUsage ∧
      process.maxMemUsage = base.syncer.maxMemUsage)
    (launches : state.formed.length + todo.length ≤ formed.length) (single : todo.length ≤ 1)
    (retired : List (Nat × List Nat)) :
    (continueWith { state with
      procs := procs, sshFailProcs := [], formed := formed, retired := retired }
      .relaunching todo).Steady base := by
  refine ⟨steady.queue, steady.startMem, steady.maxMem, limits, ?_, steady.count, rfl,
    steady_continueWith (.inr rfl), busy_continueWith relaunching_isLoop, ?_, ?_⟩
  · intro other _ unloaded
    rw [unloaded_continueWith _ relaunching_isLoop] at unloaded
    cases unloaded
  · have before := steady.launches
    rw [waiting] at before
    rw [pending_continueWith relaunching_isLoop]
    exact Nat.le_trans (Nat.add_le_add_right before _) launches
  · rw [pending_continueWith relaunching_isLoop]
    exact single

/-- Every move of such a round keeps it steady. -/
theorem Steady.of_move {choice : Choice} (steady : state.Steady base)
    (once : state.control.unloaded.Nodup) (move : ZeroMove capacity state choice next) :
    next.Steady base := by
  have launches := steady.launches
  have reaped : ∀ index child status, (state.reap index child status).Steady base :=
    fun _ _ _ => steady.carry List.length_set state.snapshot
  cases move with
  | launch here found =>
      obtain ⟨member, same⟩ := proc?_eq_some found
      rw [launch_eq]
      rw [here] at once launches
      obtain ⟨startMem, maxMem⟩ := consume_limits _ state.queue state.destination
      have before := steady.limits _ member
      refine steady.start (.inl rfl) here (by simpa using same) (List.nodup_cons.mp once).1
        ⟨startMem.trans before.1, maxMem.trans before.2⟩ _ _ ?_ (Nat.zero_le _)
      simpa [Control.pending] using launches
  | relaunch here found =>
      obtain ⟨member, same⟩ := proc?_eq_some found
      have single := steady.single
      rw [here] at launches single
      simp only [Control.pending, List.length_cons] at launches single
      refine steady.start (.inr rfl) here same nofun (steady.limits _ member) _ _ ?_
        (Nat.le_of_succ_le single)
      show state.children.length + 1 + List.length _ ≤ state.formed.length
      omega
  | forkFails _ =>
      refine ⟨steady.queue, steady.startMem, steady.maxMem, steady.limits, nofun,
        steady.count, steady.parked, rfl, nofun, ?_, Nat.zero_le _⟩
      exact Nat.le_trans (Nat.le_add_right _ _) launches
  | stray _ _ _ => exact reaped _ _ _
  | finished waiting _ _ _ _ =>
      refine (reaped _ _ _).retire waiting ?_ (Nat.le_refl _) (Nat.zero_le _) _
      intro other kept
      exact steady.limits other (List.mem_of_mem_eraseP kept)
  | @more _ _ _ _ process waiting _ _ member _ =>
      refine (reaped _ _ _).retire waiting ?_ ?_ (Nat.le_refl _) _
      · intro other inside
        rcases mem_setProc.mp inside with ⟨rfl, _⟩ | ⟨earlier, _⟩
        · obtain ⟨startMem, maxMem⟩ := consume_limits process.reset state.queue
            state.destination
          have before := steady.limits process member
          exact ⟨startMem.trans before.1, maxMem.trans before.2⟩
        · exact steady.limits other earlier
      · rw [List.length_append]
        exact Nat.le_refl _
  | child _ _ => exact steady.carry List.length_set _
  | signal _ => exact steady.carry List.length_set state.snapshot

/-- A round is steady where it starts. -/
theorem steady_startRound (gone : state.outstanding = []) (nproc : Nat) (pos : 0 < nproc)
    (few : nproc ≤ max state.queue.length 1) :
    (state.startRound nproc pos).Steady (state.startRound nproc pos) where
  queue := rfl
  startMem := rfl
  maxMem := rfl
  limits process member := by
    simp only [startRound, List.mem_map] at member
    obtain ⟨id, _, rfl⟩ := member
    exact ⟨rfl, rfl⟩
  fresh process member _ := by
    simp only [startRound, List.mem_map, List.mem_range] at member
    obtain ⟨id, below, rfl⟩ := member
    exact ⟨rfl, rfl, Nat.lt_of_lt_of_le below few, rfl⟩
  count := rfl
  parked := rfl
  control := rfl
  busy := nofun
  launches := by simp [startRound, gone, Control.pending]
  single := Nat.zero_le _

/-- A payload that `consume` is about to fill: accounted for like a fresh one. -/
structure Emptied (process : SyncProcess) (base : State) : Prop where
  batch : process.batch = []
  currMem : process.currMemUsage = base.syncer.startMemUsage
  maxMem : process.maxMemUsage = base.syncer.maxMemUsage

/-- The payload of a process that is launched for the first time. -/
theorem Steady.emptied (steady : state.Steady base) (addressed : state.Addressed)
    (control : state.control = .launching (id :: todo)) (found : state.proc? id = some process) :
    Emptied process base ∧ process.fileItr = process.id ∧
      process.id < max base.queue.length 1 := by
  obtain ⟨member, same⟩ := proc?_eq_some found
  have inside : process.id ∈ state.control.unloaded := by
    rw [control, same]
    exact List.mem_cons_self
  obtain ⟨fileItr, currMem, below, _⟩ := steady.fresh process member inside
  have loaded := addressed.procs (by rw [control]; rfl)
  exact ⟨⟨(loaded.unloaded process member inside).batch, currMem,
    (steady.limits process member).2⟩, fileItr, below⟩

/-- The payload of a process that goes on. -/
theorem Steady.emptied_reset (steady : state.Steady base) (member : process ∈ state.procs) :
    Emptied process.reset base :=
  ⟨rfl, (steady.limits process member).1, (steady.limits process member).2⟩

/-- What a move of such a round forms: nothing, or the next batch of a process with an
emptied payload, which is not done unless the queue is empty. -/
theorem formed_of_move {choice : Choice} (steady : state.Steady base)
    (addressed : state.Addressed) (move : ZeroMove capacity state choice next) :
    (next.formed = state.formed ∧
      next.control.unloaded.length ≤ state.control.unloaded.length) ∨
    ∃ process, Emptied process base ∧
      next.formed = state.formed ++
        [(process.id, (process.consume state.queue state.destination).batch)] ∧
      (state.queue ≠ [] → process.fileItr < state.queue.length) ∧
      (state.queue = [] →
        next.control.unloaded.length + 1 ≤ state.control.unloaded.length) := by
  have loaded : ∀ state : State, ∀ todo,
      (state.continueWith .relaunching todo).control.unloaded.length = 0 := by
    intro state todo
    rw [unloaded_continueWith _ relaunching_isLoop]
    rfl
  cases move with
  | @launch id todo process pid control found =>
      right
      obtain ⟨emptied, fileItr, below⟩ := steady.emptied addressed control found
      refine ⟨process, emptied, ?_, fun nonempty => ?_, fun _ => ?_⟩
      · rw [launch_eq]
        rfl
      · have positive := List.length_pos_iff.mpr nonempty
        rw [← steady.queue] at below
        omega
      · rw [launch_eq, unloaded_continueWith _ launching_isLoop, control]
        rfl
  | relaunch _ _ =>
      left
      exact ⟨rfl, (loaded _ _).trans_le (Nat.zero_le _)⟩
  | finished _ _ _ _ _ =>
      left
      exact ⟨rfl, (loaded _ _).trans_le (Nat.zero_le _)⟩
  | @more _ _ _ _ process _ _ _ member left =>
      right
      have inside : process.fileItr < state.queue.length := by
        simpa [SyncProcess.done] using left
      refine ⟨process.reset, steady.emptied_reset member, ?_, fun _ => inside, fun empty => ?_⟩
      · show state.formed ++
            [((process.reset.consume state.queue state.destination).id, _)] = _
        rw [SyncProcess.consume_id]
        rfl
      · rw [empty] at inside
        cases inside
  | forkFails => exact .inl ⟨rfl, Nat.zero_le _⟩
  | stray _ _ _ => exact .inl ⟨rfl, Nat.le_refl _⟩
  | child _ _ => exact .inl ⟨rfl, Nat.le_refl _⟩
  | signal _ => exact .inl ⟨rfl, Nat.le_refl _⟩

/-- No batch is empty, unless the queue is. -/
structure Fruitful (state base : State) : Prop where
  full : base.queue ≠ [] → ∀ entry ∈ state.formed, entry.2 ≠ []
  alone : base.queue = [] → state.formed.length + state.control.unloaded.length ≤ 1

/-- With files that all fit, every batch that is formed is fruitful. -/
theorem Fruitful.of_move {choice : Choice} (fruitful : state.Fruitful base)
    (fits : ∀ file ∈ base.queue, base.syncer.fits file = true)
    (steady : state.Steady base) (addressed : state.Addressed)
    (move : ZeroMove capacity state choice next) : next.Fruitful base := by
  rcases formed_of_move steady addressed move with ⟨same, fewer⟩ |
    ⟨process, emptied, formed, left, last⟩
  · refine ⟨fun nonempty => ?_, fun empty => ?_⟩
    · rw [same]
      exact fruitful.full nonempty
    · have alone := fruitful.alone empty
      rw [same]
      omega
  · refine ⟨fun nonempty entry member => ?_, fun empty => ?_⟩
    · rw [formed] at member
      rcases List.mem_append.mp member with old | new
      · exact fruitful.full nonempty entry old
      · rw [List.mem_singleton.mp new]
        have below := left (steady.queue ▸ nonempty)
        have found : state.queue[process.fileItr]? = some state.queue[process.fileItr] :=
          List.getElem?_eq_getElem below
        refine SyncProcess.consume_ne_nil found ?_ state.destination
        have listed : state.queue[process.fileItr] ∈ base.queue := by
          rw [← steady.queue]
          exact List.getElem_mem below
        have small := fits _ listed
        simp only [Syncer.fits, decide_eq_true_eq] at small
        simp only [SyncProcess.fullTest, emptied.currMem, emptied.maxMem, ge_iff_le,
          decide_eq_false_iff_not]
        omega
    · have alone := fruitful.alone empty
      have fewer := last (steady.queue.trans empty)
      rw [formed, List.length_append, List.length_singleton]
      omega

/-- The processes that wait for their first payload are listed once. -/
theorem Addressed.nodup_unloaded (addressed : state.Addressed) :
    state.control.unloaded.Nodup := by
  by_cases inRound : state.control.inRound = true
  · exact (addressed.procs inRound).once.1
  · have none : state.control.unloaded = [] := by
      cases control : state.control <;> simp_all [Control.inRound, Control.unloaded]
    rw [none]
    exact List.nodup_nil

/-- A state of a round that started in `base` and whose children all succeed. -/
structure Underway (capacity : Nat) (base state : State) : Prop where
  reachable : (syncMachine capacity).Reachable Machine.unguarded state
  booked : state.Booked
  steady : state.Steady base

/-- `wait` always has a child to wait for. -/
theorem Underway.running (underway : Underway capacity base state)
    (waiting : state.control = .waiting) : state.outstanding ≠ [] := by
  have distinct := (accounted_invariant.of_reachable underway.reachable).distinct
  have linked := underway.booked.linked (by rw [waiting]; rfl)
  rw [childless_of_waiting waiting] at linked
  refine linked.outstanding_ne_nil distinct ?_
  rw [underway.steady.parked]
  exact List.length_pos_iff.mpr (underway.steady.busy waiting)

/-- No process but the one to be started stores the pid of a child that has been
waited for, so `fork` cannot return a stored one. -/
theorem Underway.fresh {pid : Nat} (underway : Underway capacity base state)
    (taken : state.step capacity (.fork pid) = some next) : freshPids state (.fork pid) := by
  have steady := underway.steady
  obtain ⟨forkable, here⟩ : state.forkable pid = true ∧ state.forkStep pid = some next := by
    simpa only [State.step, Option.ite_none_right_eq_some] using taken
  simp only [State.forkable, Bool.and_eq_true, bne_iff_ne, List.all_eq_true] at forkable
  have inRound : state.control.inRound = true := by
    rw [forkStep] at here
    split at here <;> simp_all [Control.inRound]
  intro process member
  by_cases inside : process.id ∈ state.control.todo
  · cases control : state.control with
    | launching todo =>
        have none := (steady.fresh process member (by rwa [control] at inside ⊢)).2.2.2
        exact .inr fun same => forkable.1 (same ▸ none)
    | relaunching todo =>
        have single := steady.single
        rw [control] at inside single
        cases todo with
        | nil => cases inside
        | cons first rest =>
            have none : rest = [] :=
              List.eq_nil_of_length_eq_zero (Nat.le_zero.mp (Nat.le_of_succ_le_succ single))
            subst none
            rw [List.mem_singleton.mp inside]
            exact .inl rfl
    | failingOver todo =>
        have control' := steady.control
        rw [control] at control'
        cases control'
    | _ => rw [control] at inside; cases inside
  · have absent : process.id ∉ state.childless := by
      simpa [State.childless, inRound, steady.parked] using inside
    obtain ⟨index, child, owns⟩ := (underway.booked.linked inRound).owner process member absent
    have used : child ∈ state.outstanding :=
      List.mem_filter.mpr ⟨List.mem_of_getElem? owns.found, owns.outstanding⟩
    right
    rw [← owns.pid]
    exact forkable.2 child used

/-- The children still belong to their processes after a step. -/
theorem Underway.booked_next {choice : Choice} (underway : Underway capacity base state)
    (taken : state.step capacity choice = some next) : next.Booked := by
  have accounted := accounted_invariant.of_reachable underway.reachable
  have fresh : freshPids state choice := by
    cases choice with
    | fork pid => exact underway.fresh taken
    | _ => trivial
  exact underway.booked.of_move accounted fresh (moves_of_step taken)

/-- The moves of a round that is underway. -/
theorem Underway.zeroMove {choice : Choice} (underway : Underway capacity base state)
    (allowed : zeroExits state choice) (taken : state.step capacity choice = some next) :
    ZeroMove capacity state choice next :=
  underway.steady.zeroMove (underway.booked_next taken).defined underway.running allowed
    (moves_of_step taken)

/-- The round stays underway. -/
theorem Underway.of_step {choice : Choice} (underway : Underway capacity base state)
    (allowed : zeroExits state choice) (taken : state.step capacity choice = some next) :
    Underway capacity base next where
  reachable := reachable_step underway.reachable trivial taken
  booked := underway.booked_next taken
  steady := by
    have addressed := addressed_invariant.of_reachable underway.reachable
    exact underway.steady.of_move addressed.nodup_unloaded (underway.zeroMove allowed taken)

/-- The children a round forked and reaped pay for the steps of the parent. -/
def Paid (state : State) (spent : Nat) : Prop :=
  spent + state.outstandingCount ≤
    2 * state.children.length + if state.control = .exited then 1 else 0

/-- A launch pays for itself and for the `wait` that reaps its child. -/
theorem Paid.fork {spent : Nat} (paid : state.Paid spent) (before : state.control ≠ .exited)
    (count : next.outstandingCount = state.outstandingCount + 1)
    (length : next.children.length = state.children.length + 1) : next.Paid (spent + 1) := by
  unfold Paid at paid ⊢
  rw [if_neg before] at paid
  omega

/-- The child that is reaped pays for its `wait`. -/
theorem Paid.reap {spent : Nat} {status : WaitStatus} (paid : state.Paid spent)
    (waiting : state.control = .waiting) (found : state.children[index]? = some child)
    (ended : child.phase = .zombie status)
    (same : next.children = (state.reap index child status).children) :
    next.Paid (spent + 1) := by
  have fewer := outstandingCount_reap found ended
  have length : next.children.length = state.children.length := by
    rw [same]
    exact List.length_set
  unfold Paid at paid ⊢
  rw [waiting, if_neg (by simp)] at paid
  unfold outstandingCount at fewer paid ⊢
  rw [length, same]
  omega

/-- Children that are only carried on cost nothing. -/
theorem Paid.carry {spent : Nat} (paid : state.Paid spent)
    (found : state.children[index]? = some child) (after : Child)
    (same : after.outstanding = child.outstanding) (snapshot : Bool) :
    Paid { state with children := state.children.set index after, snapshot := snapshot }
      spent := by
  have count := countP_set_of_continues found same
  unfold Paid outstandingCount at paid ⊢
  simp only [count, List.length_set]
  exact paid

/-- Every move of such a round is paid for. -/
theorem Paid.of_move {choice : Choice} {spent : Nat} (paid : state.Paid spent)
    (move : ZeroMove capacity state choice next) :
    next.Paid (spent + [choice].countP Choice.ofParent) := by
  cases move with
  | launch control _ =>
      apply paid.fork
      · rw [control]
        simp
      · rw [launch_eq]
        simp [outstandingCount, continueWith]
      · rw [launch_eq]
        simp [continueWith]
  | relaunch control _ =>
      apply paid.fork
      · rw [control]
        simp
      · simp [outstandingCount, continueWith, syncBatch]
      · simp [continueWith, syncBatch]
  | forkFails before =>
      rw [Paid] at paid
      rw [if_neg before] at paid
      show spent + 1 + state.outstandingCount ≤ 2 * state.children.length + 1
      omega
  | stray waiting found ended => exact paid.reap waiting found ended rfl
  | finished waiting found ended _ _ => exact paid.reap waiting found ended rfl
  | more waiting found ended _ _ => exact paid.reap waiting found ended rfl
  | child found taken =>
      exact paid.carry found _ (Child.continues_of_step taken).outstanding _
  | @signal _ child signal found =>
      exact paid.carry found { child with pending := signal :: child.pending } rfl state.snapshot

/-- What a run within the round keeps when all its files fit. -/
theorem fruitful_of_steps {choices : List Choice} {final : State}
    (fits : ∀ file ∈ base.queue, base.syncer.fits file = true)
    (underway : Underway capacity base base) (paid : base.Paid 0) (fruitful : base.Fruitful base)
    (steps : (syncMachine capacity).Steps zeroExits base choices final) :
    Underway capacity base final ∧ final.Paid (choices.countP Choice.ofParent) ∧
      final.Fruitful base := by
  induction steps with
  | refl => exact ⟨underway, paid, fruitful⟩
  | @step choices state choice next prior allowed taken ih =>
      have taken' : state.step capacity choice = some next := taken
      obtain ⟨here, spent, full⟩ := ih
      have addressed := addressed_invariant.of_reachable here.reachable
      have move := here.zeroMove allowed taken'
      refine ⟨here.of_step allowed taken', ?_, full.of_move fits here.steady addressed move⟩
      rw [List.countP_append]
      exact spent.of_move move

/-- Disjoint batches with at least one file each are no more than the files. -/
theorem Fruitful.length_le (fruitful : state.Fruitful base) (batched : state.Batched)
    (queue : state.queue = base.queue) : state.formed.length ≤ max base.queue.length 1 := by
  by_cases empty : base.queue = []
  · have alone := fruitful.alone empty
    omega
  · have each : state.formed.length ≤ (state.formed.flatMap Prod.snd).length := by
      have full := fruitful.full empty
      generalize state.formed = formed at full
      induction formed with
      | nil => exact Nat.le_refl _
      | cons entry rest ih =>
          have first := List.length_pos_iff.mpr (full entry List.mem_cons_self)
          have later := ih fun other member => full other (List.mem_cons_of_mem _ member)
          rw [List.flatMap_cons, List.length_append, List.length_cons]
          omega
    have inside : state.formed.flatMap Prod.snd ⊆ List.range base.queue.length := by
      intro position member
      obtain ⟨entry, listed, visited⟩ := List.mem_flatMap.mp member
      rw [List.mem_range, ← queue]
      exact batched.formed_inside entry listed position visited
    have total := (List.subperm_of_subset batched.formed_once inside).length_le
    rw [List.length_range] at total
    omega

/-- The round that starts in `base` gets on as long as its children exit with code 0:
a `consume` takes at least one file if there are any, there are no more launches than
files, the steps of the parent are bounded, and none of them is a `wait` without
children. So the round comes to its end. -/
def Progresses (capacity : Nat) (base : State) : Prop :=
  ∀ choices final, (syncMachine capacity).Steps zeroExits base choices final →
    (base.queue ≠ [] → ∀ entry ∈ final.formed, entry.2 ≠ []) ∧
    final.children.length ≤ max base.queue.length 1 ∧
    choices.countP Choice.ofParent ≤ 2 * max base.queue.length 1 + 1 ∧
    (final.control = .waiting → final.outstanding ≠ []) ∧ final.control.steady = true

/-- Where a round starts. -/
structure Starts (base : State) : Prop where
  steady : base.Steady base
  booked : base.Booked
  formed : base.formed = []
  children : base.children = []
  control : base.control = .launching (List.range base.numSshFailsToInc)
  count : 0 < base.numSshFailsToInc ∧ base.numSshFailsToInc ≤ max base.queue.length 1

theorem starts_startRound (gone : state.outstanding = []) (nproc : Nat) (pos : 0 < nproc)
    (few : nproc ≤ max state.queue.length 1) : (state.startRound nproc pos).Starts where
  steady := steady_startRound gone nproc pos few
  booked := booked_startRound gone nproc pos
  formed := rfl
  children := gone
  control := rfl
  count := ⟨pos, few⟩

/-- With files that all fit, a round makes progress. -/
theorem progresses_of_fits (starts : base.Starts)
    (reachable : (syncMachine capacity).Reachable Machine.unguarded base)
    (fits : ∀ file ∈ base.queue, base.syncer.fits file = true) : Progresses capacity base := by
  intro choices final steps
  have paid : base.Paid 0 := by
    simp [Paid, outstandingCount, starts.children]
  have fruitful : base.Fruitful base := by
    refine ⟨fun _ entry member => ?_, fun empty => ?_⟩
    · rw [starts.formed] at member
      cases member
    · have few := starts.count.2
      rw [starts.formed, starts.control]
      simp only [empty, List.length_nil] at few
      simp only [List.length_nil, Control.unloaded, List.length_range]
      omega
  obtain ⟨underway, spent, full⟩ :=
    fruitful_of_steps fits ⟨reachable, starts.booked, starts.steady⟩ paid fruitful steps
  have batched := batched_invariant.of_reachable underway.reachable
  have formed := full.length_le batched underway.steady.queue
  have launches := underway.steady.launches
  have last : (if final.control = .exited then 1 else 0) ≤ 1 := by split <;> omega
  rw [Paid] at spent
  exact ⟨full.full, by omega, by omega, underway.running, underway.steady.control⟩

end State

end CephGeoRep
