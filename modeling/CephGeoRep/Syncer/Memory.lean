import CephGeoRep.Syncer.Batches

/-!
# The memory of a payload

`curr_mem_usage_` is accounted for in several places: the constructor of `Syncer`
counts the executable, the flags and the longest destination, `add` the paths as
`File::init` measured them, and `reset` goes back to the start. `Metered` is what
holds of the counter behind any sequence of calls; it is an equation modulo the size
of `size_t`, and becomes a bound when the arguments fit in the address space.
-/

namespace CephGeoRep

open Semantics Support

/-- What an argument takes: its characters, the terminating NUL and a pointer. -/
def argMemOf : Arg → Nat
  | none => 0
  | some text => Syncer.argMem text.length

/-- What the arguments in front of `NULL` take. -/
def payloadMem (payload : List Arg) : Nat := (payload.map argMemOf).sum

@[simp]
theorem payloadMem_append (front back : List Arg) :
    payloadMem (front ++ back) = payloadMem front + payloadMem back := by
  simp [payloadMem]

/-- What the accounting takes for the file at a position of the queue. -/
def fileMem (queue : List File) (position : Nat) : Nat :=
  (queue[position]?.map fun file => Syncer.argMem file.pathLen).getD 0

/-- The same for a batch. -/
def batchMem (queue : List File) (batch : List Nat) : Nat := (batch.map (fileMem queue)).sum

namespace SyncProcess

/-- What the counter of a process says about its batch. -/
structure Metered (queue : List File) (process : SyncProcess) : Prop where
  small : process.startMemUsage < 2 ^ 64
  used : process.currMemUsage = sizeT (process.startMemUsage + batchMem queue process.batch)
  below : process.batch ≠ [] → process.currMemUsage < process.maxMemUsage

variable {queue : List File} {process : SyncProcess} {file : File}

/-- A file that passes `full_test` is accounted for. -/
theorem Metered.add (metered : Metered queue process)
    (found : queue[process.fileItr]? = some file) (fits : process.fullTest file = false)
    (fileItr : Nat) : Metered queue { process.add file with fileItr := fileItr } where
  small := metered.small
  used := by
    have used := metered.used
    simp only [SyncProcess.add, batchMem, List.map_append, List.map_singleton, List.sum_append,
      List.sum_singleton, fileMem, found, Option.map_some, Option.getD_some, Syncer.argMem, sizeT]
      at used ⊢
    rw [used]
    omega
  below _ := by
    simp only [fullTest, ge_iff_le, decide_eq_false_iff_not, not_le] at fits
    exact fits

/-- So is everything that `consume` takes. -/
theorem Metered.fill (metered : Metered queue process) (rounds : Nat) :
    Metered queue (process.fill queue rounds) := by
  induction rounds generalizing process with
  | zero => exact metered
  | succ rounds ih =>
      rw [SyncProcess.fill]
      split
      · exact metered
      · next file found =>
        split
        · exact metered
        · next fits => exact ih (metered.add found (by simpa using fits) _)

theorem Metered.consume (metered : Metered queue process) (destination : CString) :
    Metered queue (process.consume queue destination) :=
  have filled := metered.fill queue.length
  ⟨filled.small, filled.used, filled.below⟩

/-- `change_destination` leaves the counter alone. -/
theorem Metered.changeDestination (metered : Metered queue process) (destination : CString) :
    Metered queue (process.changeDestination destination) := by
  rw [SyncProcess.changeDestination]
  split
  · exact metered
  · exact ⟨metered.small, metered.used, metered.below⟩

theorem Metered.started (metered : Metered queue process) (pid child : Nat) :
    Metered queue (process.started pid child) :=
  ⟨metered.small, metered.used, metered.below⟩

/-- An empty batch is accounted for with the start of the payload only. -/
theorem metered_of_empty (small : process.startMemUsage < 2 ^ 64)
    (start : process.currMemUsage = process.startMemUsage) (empty : process.batch = []) :
    Metered queue process where
  small := small
  used := by
    rw [start, empty, batchMem, List.map_nil, List.sum_nil, Nat.add_zero, sizeT,
      Nat.mod_eq_of_lt small]
  below nonempty := absurd empty nonempty

theorem Metered.reset (metered : Metered queue process) : Metered queue process.reset :=
  metered_of_empty metered.small rfl rfl

end SyncProcess

open SyncProcess

/-! ## The syncer -/

/-- What the arguments of every payload but the files take, with the longest
destination and one pointer. -/
def Syncer.startMem (syncer : Syncer) : Nat :=
  payloadMem syncer.startPayload + argMem (maxDestinationLen syncer.destinations.names).toNat
    + sizeofPtr

theorem toInt32_of_lt {value : Nat} (small : value < 2 ^ 31) : toInt32 value = value := by
  unfold toInt32
  rw [Int.bmod_def]
  split <;> omega

/-- The loop for the longest destination keeps a maximum. -/
theorem Syncer.le_foldl_max (names : List CString) (longest : Int) :
    longest ≤ names.foldl (fun longest dest => max longest (toInt32 dest.length)) longest ∧
      ∀ name ∈ names, toInt32 name.length ≤
        names.foldl (fun longest dest => max longest (toInt32 dest.length)) longest := by
  induction names generalizing longest with
  | nil => simp
  | cons first names ih =>
      obtain ⟨grows, bounds⟩ := ih (max longest (toInt32 first.length))
      rw [List.foldl_cons]
      constructor
      · exact (le_max_left _ _).trans grows
      · intro name member
        cases member with
        | head => exact (le_max_right _ _).trans grows
        | tail _ later => exact bounds name later

/-- `max_destination_len` bounds every destination that an `int` can measure. -/
theorem Syncer.length_le_maxDestinationLen {names : List CString} {name : CString}
    (short : name.length < 2 ^ 31) (member : name ∈ names) :
    name.length ≤ (maxDestinationLen names).toNat := by
  have bound := (le_foldl_max names 0).2 name member
  rw [toInt32_of_lt short] at bound
  rw [maxDestinationLen]
  omega

/-- The constructor counts its arguments. -/
theorem Syncer.startMemUsage_new (tokenize : CString → CString → List CString) (argMax : Int)
    (envpSize : Nat) (config : Config) :
    (Syncer.new tokenize argMax envpSize config).startMemUsage =
      sizeT (Syncer.new tokenize argMax envpSize config).startMem := by
  simp only [Syncer.new, Syncer.startMem, payloadMem, argMemOf, List.map_cons, List.map_map,
    List.sum_cons, Function.comp_def]

namespace State

variable {capacity : Nat} {state next : State} {choice : Choice}

/-- No step changes what the constructor of the syncer counted. -/
theorem startMem_of_move (move : Move capacity state choice next) :
    next.syncer.startMemUsage = state.syncer.startMemUsage ∧
      next.syncer.startMem = state.syncer.startMem := by
  cases move with
  | returned _ _ _ _ handled =>
      cases handled with
      | failOver _ _ =>
          constructor
          · rfl
          · simp only [tryNextDestination, Syncer.startMem, Destinations.advance_names]
            rfl
      | _ => exact ⟨rfl, rfl⟩
  | _ => exact ⟨rfl, rfl⟩

/-- The counters of the syncer and of its processes. -/
structure Counted (state : State) : Prop where
  start : state.syncer.startMemUsage = sizeT state.syncer.startMem
  procs : ∀ process ∈ state.procs,
    process.Metered state.queue ∧ process.startMemUsage = state.syncer.startMemUsage

/-- What a new process counts is what the syncer counted. -/
theorem Counted.fresh (start : next.syncer.startMemUsage = sizeT next.syncer.startMem)
    (nproc : Nat) (pos : 0 < nproc) (id : Nat) :
    (SyncProcess.new next.syncer nproc pos id).Metered next.queue := by
  apply metered_of_empty _ rfl rfl
  show next.syncer.startMemUsage < 2 ^ 64
  rw [start]
  exact Nat.mod_lt _ (by decide)

theorem consume_startMemUsage (process : SyncProcess) (queue : List File)
    (destination : CString) :
    (process.consume queue destination).startMemUsage = process.startMemUsage := by
  obtain ⟨filled, count, fills, equal⟩ := process.consume_fills queue destination
  rw [equal]
  exact fills.startMemUsage

theorem changeDestination_startMemUsage (process : SyncProcess) (destination : CString) :
    (process.changeDestination destination).startMemUsage = process.startMemUsage := by
  rw [SyncProcess.changeDestination]
  split <;> rfl

/-- Every transition keeps the counters right. -/
theorem Counted.of_move (counted : state.Counted) (move : Move capacity state choice next) :
    next.Counted := by
  obtain ⟨usage, mem⟩ := startMem_of_move move
  have start : next.syncer.startMemUsage = sizeT next.syncer.startMem := by
    rw [usage, mem]
    exact counted.start
  refine ⟨start, fun process member => ?_⟩
  cases procOrigin_of_move move member with
  | fresh nproc pos id => exact ⟨Counted.fresh start nproc pos id, rfl⟩
  | kept queue old =>
      obtain ⟨metered, same⟩ := counted.procs _ old
      rw [queue, usage]
      exact ⟨metered, same⟩
  | launched queue old pid count =>
      obtain ⟨metered, same⟩ := counted.procs _ old
      rw [queue, usage]
      exact ⟨(metered.consume _).started pid count,
        (consume_startMemUsage _ _ state.destination).trans same⟩
  | relaunched queue old pid count =>
      obtain ⟨metered, same⟩ := counted.procs _ old
      rw [queue, usage]
      exact ⟨metered.started pid count, same⟩
  | redirected queue old pid count =>
      obtain ⟨metered, same⟩ := counted.procs _ old
      rw [queue, usage]
      exact ⟨(metered.changeDestination _).started pid count,
        (changeDestination_startMemUsage ..).trans same⟩
  | refilled queue old =>
      obtain ⟨metered, same⟩ := counted.procs _ old
      rw [queue, usage]
      exact ⟨metered.reset.consume _, (consume_startMemUsage ..).trans same⟩

theorem counted_invariant {guard : Machine.Guard State Choice} :
    (syncMachine capacity).Invariant guard Counted where
  initial := by
    rintro state ⟨tokenize, argMax, envpSize, config, rfl⟩
    exact ⟨Syncer.startMemUsage_new tokenize argMax envpSize config, fun _ member => by
      cases member⟩
  preserved _ _ _ _ counted _ taken := counted.of_move (moves_of_step taken)

/-- The arguments of the largest payload the queue could fill. -/
def argumentMem (state : State) : Nat :=
  state.syncer.startMem + batchMem state.queue (List.range state.queue.length)

/-- A batch without repetitions takes no more than the queue. -/
theorem batchMem_le {queue : List File} {batch : List Nat} (once : batch.Nodup)
    (inside : ∀ position ∈ batch, position < queue.length) :
    batchMem queue batch ≤ batchMem queue (List.range queue.length) := by
  obtain ⟨listed, perm, sublist⟩ : batch.Subperm (List.range queue.length) :=
    once.subperm fun position member => List.mem_range.mpr (inside position member)
  have same : batchMem queue batch = batchMem queue listed := (perm.map _).sum_eq.symm
  rw [same]
  exact (sublist.map _).sum_le_sum fun _ _ => Nat.zero_le _

/-- What the files of a batch take is what they were accounted with. -/
theorem payloadMem_batch {queue : List File} {batch : List Nat}
    (measured : ∀ file ∈ queue, file.pathLen = file.path.length) :
    payloadMem (batch.map (pathAt queue)) = batchMem queue batch := by
  rw [payloadMem, batchMem, List.map_map]
  apply congrArg List.sum
  apply List.map_congr_left
  intro position _
  simp only [Function.comp_apply, pathAt, fileMem]
  cases found : queue[position]? with
  | none => rfl
  | some file =>
      simp only [Option.map_some, argMemOf, Option.getD_some]
      rw [measured file (List.mem_of_getElem? found)]

/-- The destination in a payload is no longer than the longest one. -/
theorem payloadMem_trailer {destinations : Destinations}
    (short : ∀ name ∈ destinations.names, name.length < 2 ^ 31) :
    payloadMem (trailer destinations.star) ≤
      Syncer.argMem (Syncer.maxDestinationLen destinations.names).toNat := by
  have member := destinations.star_mem
  have bound := Syncer.length_le_maxDestinationLen (short _ member) member
  rw [trailer]
  split
  · simp [payloadMem, argMemOf]
  · simp only [payloadMem, argMemOf, List.map_cons, List.map_nil, List.sum_cons, List.sum_nil,
      Syncer.argMem]
    omega

/-- The queue holds files that `File::init` measured. -/
def measured (_ : State) : Choice → Prop
  | .sync queue _ => ∀ file ∈ queue, file.pathLen = file.path.length
  | _ => True

instance (state : State) (choice : Choice) : Decidable (measured state choice) :=
  match choice with
  | .sync queue _ => inferInstanceAs (Decidable (∀ file ∈ queue, file.pathLen = file.path.length))
  | .fork _ | .forkFails | .wait .. | .noChildren | .kill | .afterRound | .deleteSnap _
  | .child .. | .signal .. => .isTrue trivial

/-- Only `sync` brings a new queue. -/
theorem queue_of_move (move : Move capacity state choice next) :
    next.queue = state.queue ∨
      ∃ queue sorted, choice = .sync queue sorted ∧ sorted.Perm queue ∧
        (sorted.Pairwise fun first second => first.size ≤ second.size) ∧ next.queue = sorted := by
  cases move with
  | sync _ perm ordered => exact .inr ⟨_, _, rfl, perm, ordered, rfl⟩
  | returned _ _ _ _ handled =>
      left
      cases handled <;> rfl
  | _ => exact .inl rfl

theorem measured_invariant : (syncMachine capacity).Invariant measured
    (fun state => ∀ file ∈ state.queue, file.pathLen = file.path.length) where
  initial := by
    rintro state ⟨tokenize, argMax, envpSize, config, rfl⟩ file member
    cases member
  preserved state choice next _ before allowed taken := by
    rcases queue_of_move (moves_of_step taken) with same | ⟨queue, sorted, rfl, perm, _, same⟩
    · rw [same]
      exact before
    · intro file member
      rw [same] at member
      exact allowed file (perm.mem_iff.mp member)

/-- A launch leaves the syncer and the queue alone. -/
theorem syncer_of_fork {pid : Nat} (taken : state.step capacity (.fork pid) = some next) :
    next.syncer = state.syncer ∧ next.queue = state.queue := by
  rcases launch_of_fork taken with rfl | ⟨loop, id, todo, old, process, formed, _, _, _, _, _, rfl⟩
  · exact ⟨rfl, rfl⟩
  · exact ⟨rfl, rfl⟩

/-- The counter of a process whose batch fits in the address space. -/
theorem Counted.currMemUsage (counted : state.Counted) (addressable : state.argumentMem < 2 ^ 64)
    {process : SyncProcess} (member : process ∈ state.procs) (once : process.batch.Nodup)
    (inside : ∀ position ∈ process.batch, position < state.queue.length) :
    process.currMemUsage = state.syncer.startMem + batchMem state.queue process.batch := by
  obtain ⟨metered, start⟩ := counted.procs process member
  have fits := batchMem_le once inside
  rw [argumentMem] at addressable
  rw [metered.used, start, counted.start]
  simp only [sizeT]
  omega

/-- At a launch the counter of the process that owns the batch covers the argument
vector. -/
theorem accounted_of_fork (reachable : (syncMachine capacity).Reachable measured state)
    (short : ∀ name ∈ state.syncer.destinations.names, name.length < 2 ^ 31)
    (addressable : state.argumentMem < 2 ^ 64) {pid : Nat} {child : Child}
    (taken : state.step capacity (.fork pid) = some next)
    (added : next.children = state.children ++ [child]) :
    ∃ process ∈ next.procs, process.pid = pid ∧ child.pid = pid ∧ child.proc = process.id ∧
      child.batch = process.batch ∧
      payloadMem child.argv + sizeofPtr ≤ process.currMemUsage := by
  have after : (syncMachine capacity).Reachable measured next :=
    reachable_step reachable (show measured state (.fork pid) from trivial) taken
  obtain ⟨syncer, queue⟩ := syncer_of_fork taken
  obtain ⟨held, samePid, process, member, pid', proc, batch⟩ := child_of_fork taken added
  have launched : child ∈ next.children := by simp [added]
  have addressed := addressed_invariant.of_reachable after
  have batched := batched_invariant.of_reachable after
  obtain ⟨argv, inside⟩ := addressed.children child launched
  have once : child.batch.Nodup :=
    (List.nodup_flatMap.mp batched.formed_once).1 _ (batched.children child launched)
  have used := (counted_invariant.of_reachable after).currMemUsage
    (by rwa [argumentMem, syncer, queue]) member (by rwa [← batch]) (by rwa [← batch])
  refine ⟨process, member, pid', samePid, proc, batch, ?_⟩
  have files : payloadMem (child.batch.map (pathAt next.queue)) = batchMem next.queue child.batch :=
    payloadMem_batch (measured_invariant.of_reachable after)
  have destination : payloadMem (trailer child.destination) ≤
      Syncer.argMem (Syncer.maxDestinationLen next.syncer.destinations.names).toNat := by
    rw [addressed.current child launched held]
    exact payloadMem_trailer (by rwa [syncer])
  rw [used, argv, payloadMem_append, payloadMem_append, files, ← batch, Syncer.startMem]
  omega

/-- A batch with a file stays below the limit of its process. -/
theorem currMemUsage_lt {guard : Machine.Guard State Choice}
    (reachable : (syncMachine capacity).Reachable guard state) {process : SyncProcess}
    (member : process ∈ state.procs) (nonempty : process.batch ≠ []) :
    process.currMemUsage < process.maxMemUsage :=
  ((counted_invariant.of_reachable reachable).procs process member).1.below nonempty

end State

end CephGeoRep
