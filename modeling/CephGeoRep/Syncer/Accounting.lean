import CephGeoRep.Syncer.Frame

/-!
# Children are accounted for

A process without a child is either still to be visited by a loop or parked in
`ssh_fail_procs`. Counting them against the outstanding children bounds both by
the number of processes, whatever pids `fork` returns. It follows that no child
runs while the destination iterator moves, and none is left behind by a round.
-/

namespace CephGeoRep

open Semantics

/-- The processes the current loop still has to start. -/
def Control.todo : Control → List Nat
  | .launching todo | .relaunching todo | .failingOver todo => todo
  | _ => []

/-- In `launch_procs`, or in the wait loop outside the E2BIG branch. -/
def Control.inRound : Control → Bool
  | .launching _ | .relaunching _ | .failingOver _ | .waiting => true
  | _ => false

/-- Outside a round that still has processes. -/
def Control.atRest : Control → Bool
  | .idle | .synced | .returned .syncSuccess | .returned .incHeadroom => true
  | _ => false

namespace State

/-- The `id_`s that may stand for a process without a child. -/
def childless (state : State) : List Nat :=
  if state.control.inRound then state.control.todo ++ state.sshFailProcs else []

/-- The counting invariant. -/
structure Accounted (state : State) : Prop where
  distinct : (state.procs.map SyncProcess.id).Nodup
  few : state.procs.length ≤ state.numSshFailsToInc
  count : state.outstandingCount + state.childless.length ≤ state.procs.length
  rest : state.control.atRest = true → state.procs = []

/-- The loops that start processes. -/
def IsLoop (loop : List Nat → Control) : Prop :=
  loop = .launching ∨ loop = .relaunching ∨ loop = .failingOver

theorem launching_isLoop : IsLoop .launching := .inl rfl
theorem relaunching_isLoop : IsLoop .relaunching := .inr (.inl rfl)
theorem failingOver_isLoop : IsLoop .failingOver := .inr (.inr rfl)

variable {capacity : Nat} {state next : State} {loop : List Nat → Control} {todo : List Nat}

/-- One of the three loops is about to start a process. -/
theorem exists_isLoop {id : Nat} (looping : state.control = .launching (id :: todo) ∨
    state.control = .relaunching (id :: todo) ∨ state.control = .failingOver (id :: todo)) :
    ∃ loop, IsLoop loop ∧ state.control = loop (id :: todo) := by
  rcases looping with control | control | control
  · exact ⟨_, launching_isLoop, control⟩
  · exact ⟨_, relaunching_isLoop, control⟩
  · exact ⟨_, failingOver_isLoop, control⟩

theorem inRound_of_loop (isLoop : IsLoop loop) (control : state.control = loop todo) :
    state.control.inRound = true := by
  rw [control]
  rcases isLoop with rfl | rfl | rfl <;> rfl

theorem todo_of_loop (isLoop : IsLoop loop) (control : state.control = loop todo) :
    state.control.todo = todo := by
  rw [control]
  rcases isLoop with rfl | rfl | rfl <;> rfl

/-- What a loop has not visited yet has no child, and neither has what is parked. -/
theorem childless_of_loop (isLoop : IsLoop loop) (control : state.control = loop todo) :
    state.childless = todo ++ state.sshFailProcs := by
  rw [childless, if_pos (inRound_of_loop isLoop control), todo_of_loop isLoop control]

/-- Some pid is free. -/
theorem exists_forkable (state : State) : ∃ pid, state.forkable pid = true := by
  obtain ⟨pid, fresh⟩ := Infinite.exists_notMem_finset
    (0 :: state.outstanding.map Child.pid).toFinset
  simp only [List.mem_toFinset, List.mem_cons, List.mem_map, not_or, not_exists,
    not_and] at fresh
  refine ⟨pid, ?_⟩
  simp only [forkable, Bool.and_eq_true, bne_iff_ne, List.all_eq_true]
  exact fresh

/-- `fork` can always succeed at the head of a loop. -/
theorem exists_fork {id : Nat} (isLoop : IsLoop loop) (control : state.control = loop (id :: todo))
    (capacity : Nat) : ∃ pid next, state.step capacity (.fork pid) = some next := by
  obtain ⟨pid, forkable⟩ := exists_forkable state
  refine ⟨pid, Option.isSome_iff_exists.mp ?_⟩
  simp only [step, forkable, if_true, forkStep]
  rcases isLoop with rfl | rfl | rfl <;> rw [control] <;> dsimp only <;> split <;> rfl

/-- A launch starts the process at the head of the loop and adds its child. -/
theorem launch_of_fork {pid : Nat} (taken : state.step capacity (.fork pid) = some next) :
    next = { state with control := .undefined } ∨
      ∃ loop id todo old process formed, IsLoop loop ∧ state.control = loop (id :: todo) ∧
        old ∈ state.procs ∧ old.id = id ∧ process.id = id ∧
        next = continueWith { state.setProc (process.started pid state.children.length) with
          children := state.children ++ [Child.fork process pid state.destination]
          formed := formed } loop todo := by
  cases moves_of_step taken with
  | launch control found forkable =>
      obtain ⟨member, same⟩ := proc?_eq_some found
      exact .inr ⟨_, _, _, _, _, _, launching_isLoop, control, member, same,
        by simpa using same, congrArg (continueWith · _ _) launch_eq⟩
  | relaunch control found forkable =>
      obtain ⟨member, same⟩ := proc?_eq_some found
      exact .inr ⟨_, _, _, _, _, state.formed, relaunching_isLoop, control, member, same,
        same, rfl⟩
  | failOver control found forkable =>
      obtain ⟨member, same⟩ := proc?_eq_some found
      exact .inr ⟨_, _, _, _, _, state.formed, failingOver_isLoop, control, member, same,
        by simpa using same, rfl⟩
  | dangling control missing => exact .inl rfl

/-- The child a launch adds belongs to a process that is still listed. -/
theorem child_of_fork {pid : Nat} {child : Child}
    (taken : state.step capacity (.fork pid) = some next)
    (added : next.children = state.children ++ [child]) :
    child.outstanding = true ∧ child.pid = pid ∧ ∃ process ∈ next.procs,
      process.pid = pid ∧ child.proc = process.id ∧ child.batch = process.batch := by
  have launched := launch_of_fork taken
  rcases launched with rfl | ⟨loop, id, todo, old, process, formed, _, _, member, same,
    renamed, rfl⟩
  · simp at added
  · have equal : Child.fork process pid state.destination = child := by
      simpa [continueWith] using added
    subst equal
    refine ⟨rfl, rfl, process.started pid state.children.length, ?_, rfl, rfl, rfl⟩
    exact mem_setProc.mpr (.inl ⟨rfl, old, member, same.trans renamed.symm⟩)

/-- Going on with a loop leads to its next process, to the `wait`, or out of the loop
when no process is left. -/
theorem control_continueWith (state : State) (loop : List Nat → Control) (todo : List Nat) :
    (state.continueWith loop todo).control = loop todo ∨
      todo = [] ∧ state.procs ≠ [] ∧ (state.continueWith loop todo).control = .waiting ∨
      todo = [] ∧ state.procs = [] ∧
        (state.continueWith loop todo).control = .returned .syncSuccess := by
  cases todo with
  | cons id rest => exact .inl rfl
  | nil =>
      right
      by_cases empty : state.procs = []
      · exact .inr ⟨rfl, empty, by simp [continueWith, loopHead, empty]⟩
      · exact .inl ⟨rfl, empty, by simp [continueWith, loopHead, empty]⟩

/-- What holds of a loop, of the `wait` and of a success holds where a loop leads. -/
theorem holds_continueWith (Holds : Control → Prop) (state : State) (loop : List Nat → Control)
    (todo : List Nat) (looping : Holds (loop todo)) (waiting : Holds .waiting)
    (returned : Holds (.returned .syncSuccess)) :
    Holds (state.continueWith loop todo).control := by
  rcases control_continueWith state loop todo with equal | ⟨_, _, equal⟩ | ⟨_, _, equal⟩
  · rw [equal]
    exact looping
  · rw [equal]
    exact waiting
  · rw [equal]
    exact returned

/-- A launch does not end `sync`. -/
theorem goesOn_of_fork {pid : Nat} (taken : state.step capacity (.fork pid) = some next) :
    next.control ≠ .exited := by
  rcases launch_of_fork taken with rfl | ⟨loop, _, _, _, _, _, isLoop, _, _, _, _, rfl⟩
  · simp
  · apply holds_continueWith fun control => control ≠ .exited
    · rcases isLoop with rfl | rfl | rfl <;> simp
    · simp
    · simp

/-- What is read off the control of a loop can be read off where it leads, as long as
the last two outcomes count as the end of the list. -/
theorem read_continueWith {Result : Type} (read : Control → Result) (state : State)
    (loop : List Nat → Control) (todo : List Nat) (waiting : read .waiting = read (loop []))
    (returned : read (.returned .syncSuccess) = read (loop [])) :
    read (state.continueWith loop todo).control = read (loop todo) := by
  rcases control_continueWith state loop todo with equal | ⟨rfl, _, equal⟩ | ⟨rfl, _, equal⟩
  · rw [equal]
  · rw [equal, waiting]
  · rw [equal, returned]

theorem childless_of_waiting (waiting : state.control = .waiting) :
    state.childless = state.sshFailProcs := by
  simp [State.childless, waiting, Control.inRound, Control.todo]

/-- Going on with a loop leaves its remaining processes childless, unless there is
no process at all. -/
theorem childless_continueWith (state : State) (todo : List Nat) (isLoop : IsLoop loop) :
    (state.continueWith loop todo).childless = todo ++ state.sshFailProcs ∨
      (state.procs = [] ∧ todo = [] ∧ (state.continueWith loop todo).childless = []) := by
  rcases control_continueWith state loop todo with equal | ⟨rfl, _, equal⟩ | ⟨rfl, gone, equal⟩
  · exact .inl (childless_of_loop isLoop equal)
  · exact .inl (childless_of_waiting equal)
  · refine .inr ⟨gone, rfl, ?_⟩
    rw [childless, equal]
    rfl

theorem length_childless_continueWith (state : State) (todo : List Nat) (isLoop : IsLoop loop) :
    (state.continueWith loop todo).childless.length ≤
      todo.length + state.sshFailProcs.length := by
  rcases childless_continueWith state todo isLoop with equal | ⟨_, _, none⟩
  · rw [equal, List.length_append]
  · simp [none]

/-- Going on with a loop comes to rest only without processes. -/
theorem rest_continueWith (isLoop : IsLoop loop)
    (rest : (state.continueWith loop todo).control.atRest = true) : state.procs = [] := by
  rcases control_continueWith state loop todo with equal | ⟨_, _, equal⟩ | ⟨_, gone, _⟩
  · rw [equal] at rest
    rcases isLoop with rfl | rfl | rfl <;> cases rest
  · rw [equal] at rest
    cases rest
  · exact gone

/-- Starting a process puts a child in the place of its entry in the loop. -/
theorem Accounted.start {process : SyncProcess} {child : Child} {id : Nat}
    (accounted : state.Accounted) (inRound : state.control.inRound = true)
    (control : state.control.todo = id :: todo) (isLoop : IsLoop loop)
    (member : ∃ old ∈ state.procs, old.id = process.id)
    (formed : List (Nat × List Nat)) :
    (continueWith { state.setProc process with
      children := state.children ++ [child], formed := formed } loop todo).Accounted := by
  have count := accounted.count
  simp only [childless, inRound, ↓reduceIte, control, List.length_append,
    List.length_cons] at count
  have same := length_procs_setProc state process
  have one : [child].countP Child.outstanding ≤ 1 := List.countP_le_length
  constructor
  · exact (map_id_setProc state process) ▸ accounted.distinct
  · exact same ▸ accounted.few
  · have bound := length_childless_continueWith { state.setProc process with
      children := state.children ++ [child], formed := formed } todo isLoop
    simp only [outstandingCount, continueWith, List.countP_append] at bound count ⊢
    simp only [setProc] at bound same ⊢
    omega
  · intro rest
    have none := rest_continueWith isLoop rest
    obtain ⟨old, member, _⟩ := member
    have gone : state.procs = [] := by
      apply List.eq_nil_of_length_eq_zero
      rw [← same]
      exact List.length_eq_zero_iff.mpr none
    rw [gone] at member
    cases member

/-- Without processes there are no children. -/
theorem Accounted.outstanding_eq_nil (accounted : state.Accounted)
    (rest : state.control.atRest = true) : state.outstanding = [] := by
  apply List.eq_nil_of_length_eq_zero
  have count := accounted.count
  rw [accounted.rest rest, List.length_nil] at count
  rw [← outstandingCount_eq]
  omega

/-- A fresh round accounts for its processes when no child is left. -/
theorem accounted_startRound (none : state.outstanding = []) (nproc : Nat)
    (pos : 0 < nproc) : (state.startRound nproc pos).Accounted where
  distinct := by
    have ids : (state.startRound nproc pos).procs.map SyncProcess.id = List.range nproc := by
      simp [startRound, Function.comp_def]
    rw [ids]
    exact List.nodup_range
  few := by simp [startRound]
  count := by
    simp [outstandingCount, startRound, childless, Control.inRound, Control.todo, none]
  rest := by simp [startRound, Control.atRest]

/-- Only the control changed, to one that has no childless processes. -/
theorem Accounted.stop (accounted : state.Accounted) {control : Control}
    (outside : control.inRound = false) (moving : control.atRest = false) :
    Accounted { state with control := control } where
  distinct := accounted.distinct
  few := accounted.few
  count := by
    have count := accounted.count
    simp only [outstandingCount, childless, outside] at count ⊢
    simp
    omega
  rest := by simp [moving]

/-- Children changed without being forked. -/
theorem Accounted.children (accounted : state.Accounted) {children : List Child}
    (fewer : children.countP Child.outstanding ≤ state.outstandingCount) (snapshot : Bool) :
    Accounted { state with children := children, snapshot := snapshot } where
  distinct := accounted.distinct
  few := accounted.few
  count := Nat.le_trans (Nat.add_le_add_right fewer _) accounted.count
  rest := accounted.rest

theorem Accounted.reap (accounted : state.Accounted) {index : Nat} {child : Child}
    {status : WaitStatus} (found : state.children[index]? = some child)
    (ended : child.phase = .zombie status) : (state.reap index child status).Accounted := by
  have fewer := outstandingCount_reap found ended
  exact accounted.children (by simp only [outstandingCount, State.reap] at fewer ⊢; omega) _

/-- Reaping a child leaves room for one more childless process. -/
theorem Accounted.room (accounted : state.Accounted) {index : Nat} {child : Child}
    {status : WaitStatus} (found : state.children[index]? = some child)
    (ended : child.phase = .zombie status) (waiting : state.control = .waiting) :
    (state.reap index child status).outstandingCount + state.sshFailProcs.length + 1 ≤
      state.procs.length := by
  have count := accounted.count
  have fewer := outstandingCount_reap found ended
  simp [childless, waiting, Control.inRound, Control.todo] at count
  omega

/-- The body of the wait loop keeps the account; `room` is what reaping the child
gained. -/
theorem Accounted.handled {process : SyncProcess} {exitCode : Nat}
    (accounted : state.Accounted)
    (room : state.outstandingCount + state.sshFailProcs.length + 1 ≤ state.procs.length)
    (member : process ∈ state.procs) (handled : Handled state process exitCode next) :
    next.Accounted := by
  have distinct := accounted.distinct
  have few := accounted.few
  cases handled with
  | finished _ _ =>
      have length := length_eraseProc (state.retire process) ⟨process, member, rfl⟩
      have bound := length_childless_continueWith
        ((state.retire process).eraseProc process.id) state.sshFailProcs relaunching_isLoop
      refine ⟨nodup_eraseProc (state.retire process) distinct, ?_, ?_,
        rest_continueWith relaunching_isLoop⟩
      · simp only [eraseProc, retire, continueWith] at length ⊢
        omega
      · simp only [outstandingCount, continueWith, eraseProc, retire,
          List.length_nil] at bound length room ⊢
        omega
  | more _ _ =>
      have bound := length_childless_continueWith
        ((state.retire process).consume process.reset).1 (process.id :: state.sshFailProcs)
        relaunching_isLoop
      have length : ((state.retire process).consume process.reset).1.procs.length =
          state.procs.length := by simp [consume, setProc, retire]
      refine ⟨?_, ?_, ?_, rest_continueWith relaunching_isLoop⟩
      · simp only [continueWith, consume]
        exact (map_id_setProc (state.retire process) _).symm ▸ distinct
      · simp only [continueWith]
        rw [length]
        exact few
      · simp only [continueWith] at bound ⊢
        simp only [outstandingCount, consume, setProc, retire, List.length_nil,
          List.length_cons] at bound length room ⊢
        omega
  | tooBig _ _ _ => exact accounted.stop rfl rfl
  | fail _ _ => exact accounted.stop rfl rfl
  | retry _ _ =>
      refine ⟨distinct, few, ?_, by simp [Control.atRest]⟩
      simp only [outstandingCount, childless, Control.inRound, Control.todo] at room ⊢
      simp
      omega
  | park _ _ =>
      refine ⟨distinct, few, ?_, by simp [Control.atRest]⟩
      simp only [outstandingCount, childless, Control.inRound, Control.todo] at room ⊢
      simp
      omega
  | failOver _ enough =>
      refine ⟨distinct, few, ?_, by simp [tryNextDestination, Control.atRest]⟩
      simp only [outstandingCount, childless, tryNextDestination, Control.inRound,
        Control.todo, ↓reduceIte, List.append_nil, List.length_map] at room ⊢
      omega

/-- Every transition keeps the account. -/
theorem Accounted.of_move {choice : Choice} (accounted : state.Accounted)
    (move : Move capacity state choice next) : next.Accounted := by
  have distinct := accounted.distinct
  have few := accounted.few
  have count := accounted.count
  cases move with
  | sync idle perm ordered =>
      rw [launchProcs]
      apply accounted_startRound
      exact accounted.outstanding_eq_nil (by rw [idle]; rfl)
  | launch control found forkable =>
      rw [launch_eq]
      exact accounted.start (by simp [control, Control.inRound])
        (by rw [control]; rfl) launching_isLoop
        ⟨_, (proc?_eq_some found).1, by simp⟩ _
  | relaunch control found forkable =>
      exact accounted.start (by simp [control, Control.inRound])
        (by rw [control]; rfl) relaunching_isLoop
        ⟨_, (proc?_eq_some found).1, by simp⟩ _
  | failOver control found forkable =>
      exact accounted.start (by simp [control, Control.inRound])
        (by rw [control]; rfl) failingOver_isLoop
        ⟨_, (proc?_eq_some found).1, by simp⟩ _
  | dangling _ _ => exact accounted.stop rfl rfl
  | forkFails => exact (accounted.children (Nat.le_refl _) false).stop rfl rfl
  | stray waiting found ended unknown => exact accounted.reap found ended
  | returned waiting found ended owner handled =>
      exact (accounted.reap found ended).handled (accounted.room found ended waiting)
        (List.mem_of_find?_eq_some owner) handled
  | reap reaping found ended => exact accounted.reap found ended
  | noneLeft _ _ => exact accounted.stop rfl rfl
  | allReaped _ none =>
      refine ⟨by simp, by simp, ?_, by simp⟩
      have zero : state.outstandingCount = 0 := by simp [outstandingCount_eq, none]
      simp only [outstandingCount] at zero
      simp [outstandingCount, childless, Control.inRound, zero]
  | @kill pid todo killing =>
      have fewer : (state.children.map (sendSigint pid)).countP Child.outstanding ≤
          state.outstandingCount := Nat.le_of_eq countP_sendSigint
      exact (accounted.children fewer state.snapshot).stop rfl rfl
  | killed _ => exact accounted.stop rfl rfl
  | success returned =>
      refine ⟨distinct, few, ?_, fun _ => accounted.rest (by simp [returned, Control.atRest])⟩
      simp only [outstandingCount, childless, Control.inRound] at count ⊢
      simp
      omega
  | newRound returned room =>
      rw [launchProcs]
      apply accounted_startRound
      exact accounted.outstanding_eq_nil (by rw [returned]; rfl)
  | failure _ _ => exact (accounted.children (Nat.le_refl _) false).stop rfl rfl
  | deleted synced =>
      refine ⟨distinct, few, ?_, fun _ => accounted.rest (by simp [synced, Control.atRest])⟩
      simp only [outstandingCount, childless, Control.inRound] at count ⊢
      simp
      omega
  | notDeleted _ => exact accounted.stop rfl rfl
  | child found taken =>
      have continues := Child.continues_of_step taken
      exact accounted.children
        (Nat.le_of_eq (countP_set_of_continues found continues.outstanding)) _
  | signal found live =>
      refine accounted.children ?_ state.snapshot
      exact Nat.le_of_eq (countP_set_of_continues found rfl)

/-- The account holds in every reachable state, whatever the environment does. -/
theorem accounted_invariant {guard : Machine.Guard State Choice} :
    (syncMachine capacity).Invariant guard Accounted where
  initial := by
    rintro state ⟨tokenize, argMax, envpSize, config, rfl⟩
    exact ⟨by simp [State.start], by simp [State.start], by simp [State.start,
      outstandingCount, childless, Control.inRound], fun _ => rfl⟩
  preserved _ _ _ _ accounted _ taken := accounted.of_move (moves_of_step taken)

end State

end CephGeoRep
