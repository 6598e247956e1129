import CephGeoRep.Syncer.Accounting

/-!
# Argument vectors and destinations

Every child gets the start of the payload, the paths of the batch of its process
and the current destination. The destination iterator is shared by all processes
and moves while their payloads still end in the old destination; it only moves
when no child is outstanding, and every payload is corrected before its process
is started again.
-/

namespace CephGeoRep

open Semantics

/-- The processes whose payload has no files yet. -/
def Control.unloaded : Control → List Nat
  | .launching todo => todo
  | _ => []

/-- The processes whose payload ends in the destination before the failover. -/
def Control.stale : Control → List Nat
  | .failingOver todo => todo
  | _ => []

namespace SyncProcess

/-- A payload that ends in `last` behind the files of the batch. -/
structure Loaded (start : List Arg) (queue : List File) (process : SyncProcess)
    (last : CString) : Prop where
  payload : process.payload = start ++ process.batch.map (pathAt queue) ++ trailer last
  inside : ∀ position ∈ process.batch, position < queue.length
  sendingTo : process.sendingTo = last

/-- A payload as the constructor leaves it. -/
structure Unloaded (start : List Arg) (process : SyncProcess) (destination : CString) :
    Prop where
  payload : process.payload = start
  batch : process.batch = []
  sendingTo : process.sendingTo = destination

variable {start : List Arg} {queue : List File} {process : SyncProcess}
  {destination last : CString}

/-- `consume` loads an empty payload for the current destination. -/
theorem Unloaded.consume (queue : List File) (unloaded : Unloaded start process destination) :
    Loaded start queue (process.consume queue destination) destination := by
  obtain ⟨filled, count, fills, equal⟩ := process.consume_fills queue destination
  rw [equal]
  constructor
  · simp [fills.payload, fills.batch, unloaded.payload, unloaded.batch]
  · simpa [fills.batch, unloaded.batch] using fills.inside
  · simp [unloaded.sendingTo]

/-- `reset` cuts a payload back to its start. -/
theorem Loaded.reset (loaded : Loaded start queue process last)
    (size : process.startPayloadSz = start.length) : Unloaded start process.reset last where
  payload := by
    simp [SyncProcess.reset, loaded.payload, size]
  batch := rfl
  sendingTo := loaded.sendingTo

/-- `change_destination` replaces exactly the old destination, or nothing when
both destinations are empty. -/
theorem Loaded.changeDestination (loaded : Loaded start queue process last)
    (shape : last = [] ↔ destination = []) :
    Loaded start queue (process.changeDestination destination) destination := by
  rw [SyncProcess.changeDestination]
  by_cases empty : destination = []
  · have same : last = destination := by rw [shape.mpr empty, empty]
    simpa [empty, same] using loaded
  · have full : last ≠ [] := fun none => empty (shape.mp none)
    simp only [List.isEmpty_iff, empty, ↓reduceIte]
    refine ⟨?_, loaded.inside, rfl⟩
    rw [loaded.payload]
    simp [trailer, full]

/-- Starting a process leaves its payload alone. -/
theorem Loaded.started (loaded : Loaded start queue process last) (pid child : Nat) :
    Loaded start queue (process.started pid child) last :=
  ⟨loaded.payload, loaded.inside, loaded.sendingTo⟩

end SyncProcess

open SyncProcess

/-- The argument vector of a child carries its batch and its destination. -/
structure Child.Addressed (start : List Arg) (queue : List File) (child : Child) : Prop where
  argv : child.argv =
    start ++ child.batch.map (pathAt queue) ++ trailer child.destination
  inside : ∀ position ∈ child.batch, position < queue.length

namespace State

/-- What the processes hold at every moment of a round. -/
structure ProcsLoaded (state : State) : Prop where
  once : state.control.unloaded.Nodup ∧ state.control.stale.Nodup
  sizes : ∀ process ∈ state.procs,
    process.startPayloadSz = state.syncer.startPayload.length
  unloaded : ∀ process ∈ state.procs, process.id ∈ state.control.unloaded →
    Unloaded state.syncer.startPayload process state.destination
  stale : ∀ process ∈ state.procs, process.id ∈ state.control.stale →
    ∃ last, (last = [] ↔ state.destination = []) ∧
      Loaded state.syncer.startPayload state.queue process last
  loaded : ∀ process ∈ state.procs, process.id ∉ state.control.unloaded →
    process.id ∉ state.control.stale →
    Loaded state.syncer.startPayload state.queue process state.destination

/-- The payload invariant. -/
structure Addressed (state : State) : Prop where
  start : state.syncer.startPayload = some state.syncer.execBin :: state.syncer.garbage.map some
  procs : state.control.inRound = true → state.ProcsLoaded
  children : ∀ child ∈ state.children,
    child.Addressed state.syncer.startPayload state.queue
  current : ∀ child ∈ state.children, child.outstanding = true →
    child.destination = state.destination

variable {capacity : Nat} {state next : State} {loop : List Nat → Control} {todo : List Nat}

theorem unloaded_continueWith (state : State) (isLoop : IsLoop loop) :
    (state.continueWith loop todo).control.unloaded = (loop todo).unloaded := by
  apply read_continueWith <;> rcases isLoop with rfl | rfl | rfl <;> rfl

theorem stale_continueWith (state : State) (isLoop : IsLoop loop) :
    (state.continueWith loop todo).control.stale = (loop todo).stale := by
  apply read_continueWith <;> rcases isLoop with rfl | rfl | rfl <;> rfl

/-- Taking the first process off a loop's list. -/
theorem loop_lists (isLoop : IsLoop loop) (id : Nat) (todo : List Nat) :
    ((loop (id :: todo)).unloaded = id :: (loop todo).unloaded ∨
        (loop (id :: todo)).unloaded = [] ∧ (loop todo).unloaded = []) ∧
      ((loop (id :: todo)).stale = id :: (loop todo).stale ∨
        (loop (id :: todo)).stale = [] ∧ (loop todo).stale = []) := by
  rcases isLoop with rfl | rfl | rfl <;> simp [Control.unloaded, Control.stale]

/-- A process that is loaded for the current destination can be started. -/
theorem ProcsLoaded.start {process : SyncProcess} {id : Nat} (loaded : state.ProcsLoaded)
    (isLoop : IsLoop loop) (control : state.control = loop (id :: todo))
    (same : process.id = id)
    (size : process.startPayloadSz = state.syncer.startPayload.length)
    (ready : Loaded state.syncer.startPayload state.queue process state.destination)
    (children : List Child) (formed : List (Nat × List Nat)) :
    (continueWith { state.setProc process with children := children, formed := formed }
      loop todo).ProcsLoaded := by
  obtain ⟨unloadedList, staleList⟩ := loop_lists isLoop id todo
  -- The lists before the step are those after it with `id` in front, or both empty.
  have unloadedMem : ∀ other, other ≠ id →
      (other ∈ state.control.unloaded ↔ other ∈ (loop todo).unloaded) := by
    intro other differs
    rw [control]
    rcases unloadedList with equal | ⟨before, after⟩
    · rw [equal, List.mem_cons]
      exact or_iff_right differs
    · rw [before, after]
  have staleMem : ∀ other, other ≠ id →
      (other ∈ state.control.stale ↔ other ∈ (loop todo).stale) := by
    intro other differs
    rw [control]
    rcases staleList with equal | ⟨before, after⟩
    · rw [equal, List.mem_cons]
      exact or_iff_right differs
    · rw [before, after]
  have once := loaded.once
  rw [control] at once
  have unloadedOnce : (loop todo).unloaded.Nodup ∧ id ∉ (loop todo).unloaded := by
    rcases unloadedList with equal | ⟨_, after⟩
    · exact (List.nodup_cons.mp (equal ▸ once.1)).symm
    · simp [after]
  have staleOnce : (loop todo).stale.Nodup ∧ id ∉ (loop todo).stale := by
    rcases staleList with equal | ⟨_, after⟩
    · exact (List.nodup_cons.mp (equal ▸ once.2)).symm
    · simp [after]
  constructor
  · rw [unloaded_continueWith _ isLoop, stale_continueWith _ isLoop]
    exact ⟨unloadedOnce.1, staleOnce.1⟩
  · intro other member
    rcases mem_setProc.mp member with ⟨rfl, _⟩ | ⟨old, _⟩
    · exact size
    · exact loaded.sizes other old
  · intro other member waiting
    rw [unloaded_continueWith _ isLoop] at waiting
    rcases mem_setProc.mp member with ⟨rfl, _⟩ | ⟨old, differs⟩
    · exact absurd (same ▸ waiting) unloadedOnce.2
    · exact loaded.unloaded other old ((unloadedMem _ (same ▸ differs)).mpr waiting)
  · intro other member waiting
    rw [stale_continueWith _ isLoop] at waiting
    rcases mem_setProc.mp member with ⟨rfl, _⟩ | ⟨old, differs⟩
    · exact absurd (same ▸ waiting) staleOnce.2
    · exact loaded.stale other old ((staleMem _ (same ▸ differs)).mpr waiting)
  · intro other member notUnloaded notStale
    rw [unloaded_continueWith _ isLoop] at notUnloaded
    rw [stale_continueWith _ isLoop] at notStale
    rcases mem_setProc.mp member with ⟨rfl, _⟩ | ⟨old, differs⟩
    · exact ready
    · refine loaded.loaded other old ?_ ?_
      · exact fun waiting => notUnloaded ((unloadedMem _ (same ▸ differs)).mp waiting)
      · exact fun waiting => notStale ((staleMem _ (same ▸ differs)).mp waiting)

/-- The processes of a new round are unloaded. -/
theorem procsLoaded_startRound (nproc : Nat) (pos : 0 < nproc) :
    (state.startRound nproc pos).ProcsLoaded := by
  have fresh : ∀ process ∈ (state.startRound nproc pos).procs,
      ∃ id < nproc, process = SyncProcess.new state.syncer nproc pos id := by
    intro process member
    simp only [startRound, List.mem_map, List.mem_range] at member
    obtain ⟨id, below, rfl⟩ := member
    exact ⟨id, below, rfl⟩
  constructor
  · exact ⟨List.nodup_range, List.nodup_nil⟩
  · intro process member
    obtain ⟨id, _, rfl⟩ := fresh process member
    rfl
  · intro process member _
    obtain ⟨id, _, rfl⟩ := fresh process member
    exact ⟨rfl, rfl, rfl⟩
  · intro process _ stale
    cases stale
  · intro process member notUnloaded
    obtain ⟨id, below, rfl⟩ := fresh process member
    exact absurd (List.mem_range.mpr below) notUnloaded

theorem addressed_startRound
    (start : state.syncer.startPayload =
      some state.syncer.execBin :: state.syncer.garbage.map some)
    (none : state.outstanding = []) (nproc : Nat) (pos : 0 < nproc) :
    (state.startRound nproc pos).Addressed := by
  refine ⟨start, fun _ => procsLoaded_startRound nproc pos, ?_, ?_⟩ <;>
    simp [startRound, none]

/-- Some processes are gone, and none of the others waits for a loop. -/
theorem ProcsLoaded.settle (loaded : state.ProcsLoaded)
    (waiting : state.control = .waiting) {procs : List SyncProcess} {control : Control}
    (subset : ∀ process ∈ procs, process ∈ state.procs)
    (noUnloaded : control.unloaded = []) (noStale : control.stale = [])
    (parked : List Nat) (formed retired : List (Nat × List Nat)) :
    ProcsLoaded { state with
      procs := procs, control := control, sshFailProcs := parked, formed := formed,
      retired := retired } where
  once := by simp [noUnloaded, noStale]
  sizes process member := loaded.sizes process (subset process member)
  unloaded process _ mem := by simp [noUnloaded] at mem
  stale process _ mem := by simp [noStale] at mem
  loaded process member _ _ := loaded.loaded process (subset process member)
    (by simp [waiting, Control.unloaded]) (by simp [waiting, Control.stale])

/-- A failover makes every payload stale. -/
theorem ProcsLoaded.tryNextDestination (loaded : state.ProcsLoaded)
    (waiting : state.control = .waiting)
    (distinct : (state.procs.map SyncProcess.id).Nodup) :
    state.tryNextDestination.ProcsLoaded where
  once := ⟨List.nodup_nil, distinct⟩
  sizes := loaded.sizes
  unloaded process _ mem := by cases mem
  stale process member _ := by
    have ready := loaded.loaded process member (by simp [waiting, Control.unloaded])
      (by simp [waiting, Control.stale])
    refine ⟨state.destination, ⟨fun empty => ?_, fun empty => ?_⟩, ready⟩
    · simp only [destination, State.tryNextDestination] at empty ⊢
      rw [Destinations.advance_star_of_nil empty]
      exact empty
    · by_contra full
      exact Destinations.advance_star_ne_nil full empty
  loaded process member _ notStale :=
    absurd (List.mem_map_of_mem member) notStale

/-- The body of the wait loop keeps the payloads in order. -/
theorem ProcsLoaded.handled {process : SyncProcess} {exitCode : Nat}
    (loaded : state.ProcsLoaded) (accounted : state.Accounted)
    (waiting : state.control = .waiting) (member : process ∈ state.procs)
    (handled : Handled state process exitCode next)
    (inRound : next.control.inRound = true) : next.ProcsLoaded := by
  have ready := loaded.loaded process member (by simp [waiting, Control.unloaded])
    (by simp [waiting, Control.stale])
  cases handled with
  | finished _ _ =>
      refine loaded.settle waiting
        (fun other kept => List.mem_of_mem_eraseP kept) ?_ ?_ _ _ _
      · exact unloaded_continueWith ((state.retire process).eraseProc process.id)
          relaunching_isLoop
      · exact stale_continueWith ((state.retire process).eraseProc process.id)
          relaunching_isLoop
  | more _ _ =>
      -- `setProc` runs on the retired state, whose control is still `waiting`.
      have size := loaded.sizes process member
      have refilled := (ready.reset size).consume state.queue
      have refilledSize : (process.reset.consume state.queue state.destination).startPayloadSz =
          state.syncer.startPayload.length := by
        obtain ⟨filled, count, fills, equal⟩ := process.reset.consume_fills
          state.queue state.destination
        rw [equal]
        exact fills.startPayloadSz.trans size
      have control : (loop : List Nat → Control) → (todo : List Nat) →
          ((((state.retire process).consume process.reset).1).continueWith loop todo).procs =
            (state.setProc (process.reset.consume state.queue state.destination)).procs :=
        fun _ _ => rfl
      constructor
      · rw [unloaded_continueWith _ relaunching_isLoop, stale_continueWith _ relaunching_isLoop]
        exact ⟨List.nodup_nil, List.nodup_nil⟩
      · intro other mem
        rw [control] at mem
        rcases mem_setProc.mp mem with ⟨rfl, _⟩ | ⟨old, _⟩
        · exact refilledSize
        · exact loaded.sizes other old
      · intro other _ mem
        rw [unloaded_continueWith _ relaunching_isLoop] at mem
        cases mem
      · intro other _ mem
        rw [stale_continueWith _ relaunching_isLoop] at mem
        cases mem
      · intro other mem _ _
        rw [control] at mem
        rcases mem_setProc.mp mem with ⟨rfl, _⟩ | ⟨old, _⟩
        · exact refilled
        · exact loaded.loaded other old (by simp [waiting, Control.unloaded])
            (by simp [waiting, Control.stale])
  | tooBig _ _ _ => simp [Control.inRound] at inRound
  | fail _ _ => simp [failRound, Control.inRound] at inRound
  | retry _ _ => exact loaded.settle waiting (fun _ kept => kept) rfl rfl _ _ _
  | park _ _ => exact loaded.settle waiting (fun _ kept => kept) rfl rfl _ _ _
  | failOver _ _ => exact loaded.tryNextDestination waiting accounted.distinct

/-- Children that are only carried on keep the payload invariant. -/
theorem Addressed.carry (addressed : state.Addressed) {children : List Child}
    (carries : Carries Kept state.children children) (snapshot : Bool) :
    Addressed { state with children := children, snapshot := snapshot } where
  start := addressed.start
  procs inRound :=
    have loaded := addressed.procs inRound
    ⟨loaded.once, loaded.sizes, loaded.unloaded, loaded.stale, loaded.loaded⟩
  children child member := by
    obtain ⟨old, earlier, kept⟩ := carries.origin_mem member
    have before := addressed.children old earlier
    exact ⟨by rw [kept.argv, kept.batch, kept.destination]; exact before.argv,
      by rw [kept.batch]; exact before.inside⟩
  current child member held := by
    obtain ⟨old, earlier, kept⟩ := carries.origin_mem member
    rw [kept.destination]
    exact addressed.current old earlier (kept.outstanding held)

theorem Addressed.reap (addressed : state.Addressed) {index : Nat} {child : Child}
    {status : WaitStatus} (found : state.children[index]? = some child)
    (ended : child.phase = .zombie status) : (state.reap index child status).Addressed :=
  addressed.carry (carries_set Kept.refl found (kept_reaped ended)) state.snapshot

/-- Outside the rounds only the children matter. -/
theorem Addressed.stop (addressed : state.Addressed) {control : Control}
    (outside : control.inRound = false) (procs : List SyncProcess) :
    Addressed { state with procs := procs, control := control } where
  start := addressed.start
  procs inRound := by simp [outside] at inRound
  children := addressed.children
  current := addressed.current

/-- Starting a loaded process keeps the payload invariant. -/
theorem Addressed.launch {process : SyncProcess} {id : Nat} (addressed : state.Addressed)
    (isLoop : IsLoop loop) (control : state.control = loop (id :: todo))
    (same : process.id = id)
    (size : process.startPayloadSz = state.syncer.startPayload.length)
    (ready : Loaded state.syncer.startPayload state.queue process state.destination)
    (pid count : Nat) (formed : List (Nat × List Nat)) :
    (continueWith { state.setProc (process.started pid count) with
      children := state.children ++ [Child.fork process pid state.destination],
      formed := formed } loop todo).Addressed where
  start := addressed.start
  procs _ := by
    have renamed : (process.started pid count).id = id := same
    exact (addressed.procs (inRound_of_loop isLoop control)).start isLoop control renamed size
      (ready.started pid count) _ formed
  children child member := by
    rcases List.mem_append.mp member with old | new
    · exact addressed.children child old
    · rw [List.mem_singleton.mp new]
      exact ⟨ready.payload, ready.inside⟩
  current child member held := by
    rcases List.mem_append.mp member with old | new
    · exact addressed.current child old held
    · rw [List.mem_singleton.mp new]
      rfl

/-- The body of the wait loop keeps the payload invariant. The destination moves
only when the child just reaped was the last one. -/
theorem Addressed.handled {process : SyncProcess} {exitCode : Nat}
    (addressed : state.Addressed) (accounted : state.Accounted)
    (room : state.outstandingCount + state.sshFailProcs.length + 1 ≤ state.procs.length)
    (waiting : state.control = .waiting) (member : process ∈ state.procs)
    (handled : Handled state process exitCode next) : next.Addressed := by
  have loaded := addressed.procs (by rw [waiting]; rfl)
  have procs := loaded.handled accounted waiting member handled
  cases handled with
  | failOver _ enough =>
      have few := accounted.few
      have none : state.outstanding = [] := by
        apply List.eq_nil_of_length_eq_zero
        rw [← outstandingCount_eq]
        omega
      refine ⟨addressed.start, procs, addressed.children, fun child member held => ?_⟩
      rw [outstanding_eq_nil_iff.mp none child member] at held
      cases held
  | _ => exact ⟨addressed.start, procs, addressed.children, addressed.current⟩

/-- Every transition keeps the payload invariant. -/
theorem Addressed.of_move {choice : Choice} (addressed : state.Addressed)
    (accounted : state.Accounted) (move : Move capacity state choice next) :
    next.Addressed := by
  cases move with
  | sync idle perm ordered =>
      rw [launchProcs]
      apply addressed_startRound
      · exact addressed.start
      · exact accounted.outstanding_eq_nil (by rw [idle]; rfl)
  | launch control found forkable =>
      obtain ⟨member, same⟩ := proc?_eq_some found
      have loaded := addressed.procs (by rw [control]; rfl)
      have fresh := loaded.unloaded _ member (by rw [control, same]; exact List.mem_cons_self)
      rw [launch_eq]
      obtain ⟨filled, count, fills, equal⟩ := SyncProcess.consume_fills _ state.queue
        state.destination
      refine addressed.launch launching_isLoop control (by simpa using same) ?_
        (fresh.consume _) _ _ _
      rw [equal]
      exact fills.startPayloadSz.trans (loaded.sizes _ member)
  | relaunch control found forkable =>
      obtain ⟨member, same⟩ := proc?_eq_some found
      have loaded := addressed.procs (by rw [control]; rfl)
      have ready := loaded.loaded _ member (by simp [control, Control.unloaded])
        (by simp [control, Control.stale])
      exact addressed.launch relaunching_isLoop control same (loaded.sizes _ member) ready _ _ _
  | failOver control found forkable =>
      obtain ⟨member, same⟩ := proc?_eq_some found
      have loaded := addressed.procs (by rw [control]; rfl)
      obtain ⟨last, shape, ready⟩ := loaded.stale _ member
        (by rw [control, same]; exact List.mem_cons_self)
      refine addressed.launch failingOver_isLoop control (by simpa using same) ?_
        (ready.changeDestination shape) _ _ _
      rw [← loaded.sizes _ member, SyncProcess.changeDestination]
      split <;> rfl
  | dangling _ _ => exact addressed.stop rfl _
  | forkFails =>
      exact (addressed.carry (carries_refl Kept.refl _) false).stop rfl _
  | stray waiting found ended unknown => exact addressed.reap found ended
  | returned waiting found ended owner handled =>
      exact (addressed.reap found ended).handled (accounted.reap found ended)
        (accounted.room found ended waiting) waiting (List.mem_of_find?_eq_some owner) handled
  | reap reaping found ended => exact addressed.reap found ended
  | noneLeft _ _ => exact addressed.stop rfl _
  | allReaped _ none => exact addressed.stop rfl _
  | kill killing =>
      exact (addressed.carry (carries_map (fun child =>
        kept_of_continues (continues_sendSigint child))) state.snapshot).stop rfl _
  | killed _ => exact addressed.stop rfl _
  | success returned => exact addressed.stop rfl _
  | newRound returned room =>
      rw [launchProcs]
      apply addressed_startRound
      · exact addressed.start
      · exact accounted.outstanding_eq_nil (by rw [returned]; rfl)
  | failure _ _ =>
      exact (addressed.carry (carries_refl Kept.refl _) false).stop rfl _
  | deleted synced =>
      exact (addressed.carry (carries_refl Kept.refl _) false).stop rfl _
  | notDeleted _ => exact addressed.stop rfl _
  | child found taken =>
      exact addressed.carry (carries_set Kept.refl found
        (kept_of_continues (Child.continues_of_step taken))) _
  | signal found live =>
      exact addressed.carry (carries_set Kept.refl found
        (kept_of_continues (Child.continues_of_signal live _))) state.snapshot

/-- The payload invariant holds in every reachable state. -/
theorem addressed_invariant {guard : Machine.Guard State Choice} :
    (syncMachine capacity).Invariant guard Addressed where
  initial := by
    rintro state ⟨tokenize, argMax, envpSize, config, rfl⟩
    refine ⟨rfl, ?_, ?_, ?_⟩ <;> simp [State.start, Control.inRound]
  preserved _ _ _ reachable addressed _ taken :=
    addressed.of_move (accounted_invariant.of_reachable reachable) (moves_of_step taken)

/-- `exec_bin_`, the flags, the files of a batch, the destination unless it is
empty, and `NULL`. -/
def commandLine (state : State) (batch : List Nat) (destination : CString) : List Arg :=
  some state.syncer.execBin :: state.syncer.garbage.map some ++
    batch.map (pathAt state.queue) ++
    if destination.isEmpty then [none] else [some destination, none]

/-- The command line of a child, in terms of what the syncer was built from. -/
theorem Addressed.commandLine (addressed : state.Addressed) {child : Child}
    (member : child ∈ state.children) :
    child.argv = state.commandLine child.batch child.destination := by
  rw [(addressed.children child member).argv, addressed.start]
  rfl

/-- A launch uses the current destination. -/
theorem commandLine_of_fork {pid : Nat} {child : Child} (addressed : next.Addressed)
    (taken : state.step capacity (.fork pid) = some next)
    (added : next.children = state.children ++ [child]) :
    child.argv = next.commandLine child.batch next.destination := by
  have member : child ∈ next.children := by simp [added]
  rw [← addressed.current child member (child_of_fork taken added).1]
  exact addressed.commandLine member

/-- Every child runs the command line of its batch. The children that have not been
reaped share the current destination, which is also the one a failure message
names; and a launch uses the batch that its process holds. -/
theorem commandLine_of_reachable
    (reachable : (syncMachine capacity).Reachable Machine.unguarded state) :
    (∀ child ∈ state.children,
      child.argv = state.commandLine child.batch child.destination ∧
        ∀ position ∈ child.batch, position < state.queue.length) ∧
      (∀ child ∈ state.children, child.outstanding = true →
        child.destination = state.destination) ∧
      (∀ pid next child, state.step capacity (.fork pid) = some next →
        next.children = state.children ++ [child] →
        ∃ process ∈ next.procs, process.pid = pid ∧ child.pid = pid ∧
          child.argv = next.commandLine process.batch next.destination) ∧
      (state.control = .waiting →
        ∀ process ∈ state.procs, process.sendingTo = state.destination) := by
  have addressed := addressed_invariant.of_reachable reachable
  refine ⟨?_, addressed.current, ?_, ?_⟩
  · exact fun child member =>
      ⟨addressed.commandLine member, (addressed.children child member).inside⟩
  · intro pid next child taken added
    have after := addressed_invariant.of_reachable (reachable_step reachable trivial taken)
    obtain ⟨_, samePid, process, member, pid, _, batch⟩ := child_of_fork taken added
    refine ⟨process, member, pid, samePid, ?_⟩
    rw [← batch]
    exact commandLine_of_fork after taken added
  · intro waiting process member
    have loaded := addressed.procs (by rw [waiting]; rfl)
    exact (loaded.loaded process member (by simp [waiting, Control.unloaded])
      (by simp [waiting, Control.stale])).sendingTo

/-- Two processes fail over from the first destination to the second. -/
def failoverRun : List Choice :=
  let files := [plainFile "/s/./a".toList 1, plainFile "/s/./b".toList 2]
  ([.sync files files, .fork 11, .fork 12] : List Choice) ++ childExits 0 sshFail ++
    childExits 1 sshFail ++ ([.wait 0 true, .wait 1 true, .fork 13, .fork 14] : List Choice)

/-- The command lines after the failover. -/
def failoverArgvs : List (List Arg) :=
  ["/s/./a", "/s/./b"].map fun path =>
    ["rsync", "-a", path, "c:d"].map (fun arg => some arg.toList) ++ [none]

theorem commandLine_after_failover :
    ∃ state : State, state.outstanding.map Child.argv = failoverArgvs ∧
      (∀ child ∈ state.children,
        child.argv = state.commandLine child.batch child.destination ∧
          ∀ position ∈ child.batch, position < state.queue.length) := by
  have executed : ((syncMachine 4).run Machine.unguarded
      (rsyncDaemon 2 "a:b, c:d".toList) failoverRun).any (fun state =>
        decide (state.outstanding.map Child.argv = failoverArgvs)) = true := by
    decide +kernel
  obtain ⟨state, reachable, sent⟩ := Machine.exists_of_run (rsyncDaemon_initial 2 _) executed
  exact ⟨state, of_decide_eq_true sent, (commandLine_of_reachable reachable).1⟩

end State

end CephGeoRep
