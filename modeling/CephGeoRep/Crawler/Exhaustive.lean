import CephGeoRep.Crawler.Ledger

/-!
# The workers find what the recursion finds

Termination is detected by `threads_running`, which counts the workers between an
increment and the next decrement. A worker that holds a node is counted, so `done_`
is set only when the queue is empty and no worker holds a node. By then everything
the ledgers expect has been delivered.
-/

namespace CephGeoRep

open Semantics Support

/-- Counted in `threads_running`. -/
def Worker.counted : Worker → Int
  | .popping | .entered | .iterating .. | .enqueuing _ | .appending .. => 1
  | _ => 0

/-- Holds a node. -/
def Worker.busy : Worker → Bool
  | .iterating .. | .enqueuing _ | .appending .. => true
  | _ => false

namespace Search

variable {crawler : Crawler} {snapRoot snapPath : CString} {listing : Listing} {threads : Nat}
  {search next : Search}

/-! ## Termination detection -/

/-- What the counter and `done_` say about the workers. -/
structure Counted (search : Search) : Prop where
  running : search.threadsRunning = shares Worker.counted search.workers
  finished : search.done = true →
    search.queue = [] ∧ ∀ worker ∈ search.workers, worker.busy = false
  returned : .returned ∈ search.workers → search.done = true
  bytes : search.totalBytes = uintmaxT search.totalBytes

theorem counted_notify (worker : Worker) : worker.notify.counted = worker.counted := by
  cases worker <;> rfl

theorem busy_notify (worker : Worker) : worker.notify.busy = worker.busy := by
  cases worker <;> rfl

theorem counted_nonneg (worker : Worker) : 0 ≤ worker.counted := by
  cases worker <;> simp [Worker.counted]

theorem shares_counted_nonneg (workers : List Worker) : 0 ≤ shares Worker.counted workers := by
  refine List.sum_nonneg fun share member => ?_
  obtain ⟨worker, _, rfl⟩ := List.mem_map.mp member
  exact counted_nonneg worker

/-- Without a counted worker no worker holds a node. -/
theorem busy_of_counted {workers : List Worker} (none : shares Worker.counted workers ≤ 0) :
    ∀ worker ∈ workers, worker.busy = false := by
  induction workers with
  | nil => nofun
  | cons first rest ih =>
      rw [shares_cons] at none
      have least := counted_nonneg first
      have others := shares_counted_nonneg rest
      intro worker member
      rcases List.mem_cons.mp member with rfl | later
      · have zero : worker.counted ≤ 0 := by omega
        cases worker <;> simp_all [Worker.counted, Worker.busy]
      · exact ih (by omega) worker later

/-- The workers after one of them went on. -/
theorem Counted.goOn {index : Nat} {before after : Worker} (counted : search.Counted)
    (found : search.workers[index]? = some before)
    (workers : next.workers = search.workers.set index after)
    (running : next.threadsRunning + before.counted = search.threadsRunning + after.counted)
    (done : next.done = search.done) (bytes : next.totalBytes = uintmaxT next.totalBytes)
    (finished : search.done = true → next.queue = search.queue ∧ after.busy = false)
    (returned : after = .returned → search.done = true) : next.Counted where
  running := by
    obtain ⟨others, held, kept⟩ := shares_set Worker.counted found
    have same := counted.running
    rw [workers, kept]
    omega
  finished ended := by
    obtain ⟨empty, idle⟩ := counted.finished (done ▸ ended)
    obtain ⟨queue, settled⟩ := finished (done ▸ ended)
    refine ⟨queue.trans empty, fun worker member => ?_⟩
    rw [workers] at member
    rcases List.mem_or_eq_of_mem_set member with old | rfl
    · exact idle worker old
    · exact settled
  returned left := by
    rw [workers] at left
    rw [done]
    rcases List.mem_or_eq_of_mem_set left with old | same
    · exact counted.returned old
    · exact returned same.symm
  bytes := bytes

/-- The counter stays right, and `done_` is only set at the end. -/
theorem Counted.of_move (counted : search.Counted)
    (move : Move crawler snapRoot search next) : next.Counted := by
  have bytes := counted.bytes
  have idle : ∀ {index : Nat} {before : Worker}, search.workers[index]? = some before →
      before.busy = true → search.done = false := by
    intro index before found holds
    by_contra ended
    have settled := (counted.finished (by simpa using ended)).2 before
      (List.mem_of_getElem? found)
    rw [holds] at settled
    cases settled
  have held : ∀ {index : Nat} {before after : Worker}, search.workers[index]? = some before →
      before.busy = true → search.done = true → search.queue = search.queue ∧
        after.busy = false := by
    intro index before after found holds ended
    rw [idle found holds] at ended
    cases ended
  cases move with
  | start found =>
      exact counted.goOn found rfl (by simp [Search.goOn, Worker.counted]) rfl bytes
        (fun _ => ⟨rfl, rfl⟩) (by simp)
  | lock found _ => exact counted.goOn found rfl rfl rfl bytes (fun _ => ⟨rfl, rfl⟩) (by simp)
  | enter found =>
      exact counted.goOn found rfl (by simp [Search.goOn, Worker.counted]) rfl bytes
        (fun _ => ⟨rfl, rfl⟩) (by simp)
  | finish found none empty =>
      obtain ⟨others, before, after⟩ := shares_set Worker.counted (Ledger.found_notify found rfl)
      rw [shares_map counted_notify] at before
      have running := counted.running
      have settled := busy_of_counted (running ▸ none)
      refine ⟨?_, fun _ => ⟨empty, fun worker member => ?_⟩, fun _ => rfl, bytes⟩
      · show search.threadsRunning = shares Worker.counted (List.set _ _ _)
        rw [after, running, before]
        rfl
      · rcases List.mem_or_eq_of_mem_set member with old | rfl
        · obtain ⟨worker, listed, rfl⟩ := List.mem_map.mp old
          rw [busy_notify]
          exact settled worker listed
        · rfl
  | proceed found _ => exact counted.goOn found rfl rfl rfl bytes (fun _ => ⟨rfl, rfl⟩) (by simp)
  | wait found _ _ => exact counted.goOn found rfl rfl rfl bytes (fun _ => ⟨rfl, rfl⟩) (by simp)
  | leave found _ finished =>
      exact counted.goOn found rfl rfl rfl bytes (fun _ => ⟨rfl, rfl⟩) fun _ => finished
  | take found front =>
      refine counted.goOn found rfl (by simp [Search.goOn, Worker.counted]) rfl bytes
        (fun ended => ?_) (by simp)
      have empty := (counted.finished ended).1
      rw [front] at empty
      cases empty
  | wake found => exact counted.goOn found rfl rfl rfl bytes (fun _ => ⟨rfl, rfl⟩) (by simp)
  | relock found _ => exact counted.goOn found rfl rfl rfl bytes (fun _ => ⟨rfl, rfl⟩) (by simp)
  | skip found _ _ => exact counted.goOn found rfl rfl rfl bytes (held found rfl) (by simp)
  | @descend index path name attributes children rest files found _ _ =>
      obtain ⟨others, before, after⟩ := shares_set Worker.counted (Ledger.found_notify found rfl)
      rw [shares_map counted_notify] at before
      have unfinished := idle found rfl
      refine ⟨?_, fun ended => ?_, fun left => ?_, bytes⟩
      · show search.threadsRunning =
          shares Worker.counted ((search.workers.map Worker.notify).set index _)
        rw [after, counted.running, before]
        rfl
      · rw [show search.done = true from ended] at unfinished
        cases unfinished
      · rcases List.mem_or_eq_of_mem_set left with old | same
        · obtain ⟨worker, listed, same⟩ := List.mem_map.mp old
          have here : worker = .returned := by
            cases worker <;> simp_all [Worker.notify]
          exact counted.returned (here ▸ listed)
        · cases same
  | collect found _ _ => exact counted.goOn found rfl rfl rfl bytes (held found rfl) (by simp)
  | exhaust found => exact counted.goOn found rfl rfl rfl bytes (held found rfl) (by simp)
  | add found =>
      exact counted.goOn found rfl rfl rfl (by simp [Search.goOn, uintmaxT]) (held found rfl)
        (by simp)
  | append found => exact counted.goOn found rfl rfl rfl bytes (held found rfl) (by simp)
  | again found => exact counted.goOn found rfl rfl rfl bytes (fun _ => ⟨rfl, rfl⟩) (by simp)

/-- The counter is right in every reachable state. -/
theorem counted_invariant : (searchMachine crawler snapPath listing threads).Invariant
    Machine.unguarded Counted where
  initial := by
    rintro search rfl
    have none : shares Worker.counted (List.replicate threads Worker.created) = 0 :=
      shares_eq_zero fun worker member => by rw [List.eq_of_mem_replicate member]; rfl
    refine ⟨none.symm, nofun, fun left => ?_, rfl⟩
    cases List.eq_of_mem_replicate left
  preserved _ _ _ _ counted _ taken := counted.of_move (moves_of_step taken)

/-! ## What is accounted for -/

/-- The files that are still to be appended to `file_list`. -/
def fileLedger (crawler : Crawler) (snapRoot : CString) :
    Ledger crawler snapRoot (Multiset File) where
  hand
    | .iterating path entries files => ↑(files ++ entries.newFiles crawler snapRoot path)
    | .enqueuing files => ↑files
    | .appending file files => ↑(file :: files)
    | _ => 0
  node node := ↑(node.2.newFiles crawler snapRoot node.1)
  paid files _ _ := ↑files
  idle := by simp
  take := by simp
  skip := by
    intro path name attributes children rest files noDirectory noFile
    simp [Listing.newFiles, noDirectory, noFile]
  descend := by
    intro path name attributes children rest files directory
    simp only [Listing.newFiles, directory, ↓reduceIte, ← Multiset.coe_add]
    abel
  collect := by
    intro path name attributes children rest files noDirectory file
    simp [Listing.newFiles, noDirectory, file]
  exhaust := by simp [Listing.newFiles]
  add := by simp
  append := by
    intro file files list bytes expanded
    simp only [Multiset.coe_add, List.append_assoc, List.singleton_append]

/-- The sizes that are still to be added to `total_bytes`, which wraps. -/
def byteLedger (crawler : Crawler) (snapRoot : CString) :
    Ledger crawler snapRoot (ZMod (2 ^ 64)) where
  hand
    | .iterating path entries files =>
      totalSize (files ++ entries.newFiles crawler snapRoot path)
    | .enqueuing files => totalSize files
    | .appending _ files => totalSize files
    | _ => 0
  node node := totalSize (node.2.newFiles crawler snapRoot node.1)
  paid _ bytes _ := bytes
  idle := by simp [totalSize]
  take := by simp
  skip := by
    intro path name attributes children rest files noDirectory noFile
    simp [Listing.newFiles, noDirectory, noFile]
  descend := by
    intro path name attributes children rest files directory
    simp only [Listing.newFiles, directory, ↓reduceIte, totalSize, List.map_append,
      List.sum_append, Nat.cast_add]
    abel
  collect := by
    intro path name attributes children rest files noDirectory file
    simp [Listing.newFiles, noDirectory, file]
  exhaust := by simp [Listing.newFiles]
  add := by
    intro file files list bytes expanded
    simp only [uintmaxT, ZMod.natCast_mod, totalSize, List.map_cons, List.sum_cons, Nat.cast_add]
    abel
  append := by simp

/-- The directories that are still to be expanded. -/
def pathLedger (crawler : Crawler) (snapRoot : CString) :
    Ledger crawler snapRoot (Multiset CString) where
  hand
    | .iterating path entries _ => ↑(entries.searched crawler snapRoot path)
    | _ => 0
  node node := ↑(node.1 :: node.2.searched crawler snapRoot node.1)
  paid _ _ expanded := ↑expanded
  idle := by simp
  take := by
    intro path listing files bytes expanded
    simp only [Multiset.coe_add, List.append_assoc, List.singleton_append]
  skip := by
    intro path name attributes children rest files noDirectory noFile
    simp [Listing.searched, noDirectory]
  descend := by
    intro path name attributes children rest files directory
    simp only [Listing.searched, directory, ↓reduceIte, ← Multiset.coe_add]
    abel
  collect := by
    intro path name attributes children rest files noDirectory file
    simp [Listing.searched, noDirectory]
  exhaust := by simp [Listing.searched]
  add := by simp
  append := by simp

/-- In every reachable state a ledger has the total of the root directory. -/
theorem total_of_reachable {Total : Type} [AddCommMonoid Total]
    (ledger : Ledger crawler snapPath Total)
    (reachable : (searchMachine crawler snapPath listing threads).Reachable
      Machine.unguarded search) :
    ledger.total search = ledger.paid [] 0 [] + ledger.node (snapPath, listing) := by
  have invariant : (searchMachine crawler snapPath listing threads).Invariant
      Machine.unguarded fun search => ledger.total search =
        ledger.paid [] 0 [] + ledger.node (snapPath, listing) := ⟨?_, ?_⟩
  · exact invariant.of_reachable reachable
  · rintro search rfl
    have none : shares ledger.hand (List.replicate threads Worker.created) = 0 :=
      shares_eq_zero fun worker member => by
        rw [List.eq_of_mem_replicate member]
        exact ledger.idle .created (by simp)
    simp [Ledger.total, start, none]
  · intro search schedule next _ same _ taken
    exact (ledger.total_of_move (moves_of_step taken)).trans same

/-- Once all workers have returned, everything has been delivered. -/
theorem paid_of_returned {Total : Type} [AddCommMonoid Total]
    (ledger : Ledger crawler snapPath Total) (some : search.workers ≠ [])
    (reachable : (searchMachine crawler snapPath listing threads).Reachable
      Machine.unguarded search)
    (returned : ∀ worker ∈ search.workers, worker = .returned) :
    ledger.paid search.fileList search.totalBytes search.expanded =
      ledger.paid [] 0 [] + ledger.node (snapPath, listing) := by
  have counted := counted_invariant.of_reachable reachable
  obtain ⟨worker, member⟩ := List.exists_mem_of_ne_nil _ some
  have ended := counted.returned (returned worker member ▸ member)
  have settled : shares ledger.hand search.workers = 0 :=
    shares_eq_zero fun worker member => by
      rw [returned worker member]
      exact ledger.idle .returned (by simp)
  rw [← total_of_reachable ledger reachable, Ledger.total, settled, (counted.finished ended).1,
    shares_nil, add_zero, add_zero]

/-- No worker is lost. -/
theorem length_workers (reachable : (searchMachine crawler snapPath listing threads).Reachable
    Machine.unguarded search) : search.workers.length = threads := by
  have invariant : (searchMachine crawler snapPath listing threads).Invariant
      Machine.unguarded fun search => search.workers.length = threads := by
    constructor
    · rintro search rfl
      exact List.length_replicate
    · intro search schedule next _ same _ taken
      have taken' : search.step crawler snapPath schedule = some next := taken
      cases moves_of_step taken' <;> simpa [goOn, push] using same
  exact invariant.of_reachable reachable

/-- When all workers have returned, every directory that passes `ignore_entry`, as do
those above it, has been expanded exactly once, and the file list and the total are
those of the single-threaded search, the list up to its order. -/
theorem search_of_returned (several : 1 < threads)
    (reachable : (searchMachine crawler snapPath listing threads).Reachable
      Machine.unguarded search)
    (returned : ∀ worker ∈ search.workers, worker = .returned) :
    search.expanded.Perm (snapPath :: listing.searched crawler snapPath snapPath) ∧
    (Extensible snapPath → listing.Proper → search.expanded.Nodup) ∧
    search.fileList.Perm
      (crawler.findNewFilesRecursive snapPath snapPath listing ([], 0)).1 ∧
    search.totalBytes =
      (crawler.findNewFilesRecursive snapPath snapPath listing ([], 0)).2 := by
  have some : search.workers ≠ [] := by
    intro none
    have length := length_workers reachable
    rw [none, List.length_nil] at length
    omega
  have files := paid_of_returned (fileLedger crawler snapPath) some reachable returned
  have bytes := paid_of_returned (byteLedger crawler snapPath) some reachable returned
  have paths := paid_of_returned (pathLedger crawler snapPath) some reachable returned
  have recursive := crawler.findNewFilesRecursive_eq snapPath snapPath listing [] 0
  have zero : uintmaxT 0 = 0 := rfl
  rw [zero] at recursive
  have expanded : search.expanded.Perm (snapPath :: listing.searched crawler snapPath snapPath) :=
    Multiset.coe_eq_coe.mp (by simpa [pathLedger] using paths)
  refine ⟨expanded, fun extensible proper => ?_, ?_, ?_⟩
  · exact expanded.nodup_iff.mpr (searched_nodup extensible proper)
  · rw [recursive]
    exact Multiset.coe_eq_coe.mp (by simpa [fileLedger] using files)
  · rw [recursive, (counted_invariant.of_reachable reachable).bytes]
    have same : ((search.totalBytes : Nat) : ZMod (2 ^ 64)) =
        ((totalSize (listing.newFiles crawler snapPath snapPath) : Nat) : ZMod (2 ^ 64)) := by
      simpa [byteLedger] using bytes
    rw [Nat.zero_add]
    exact (ZMod.natCast_eq_natCast_iff' _ _ _).mp same

/-- A snapshot with a file `a` of 3 bytes and a directory `d` with a file `b` of 4. -/
def smallTree : Listing :=
  .entry "a".toList { stat := ⟨false, 3, ⟨5, 0⟩⟩, rctime := none } .nil
    (.entry "d".toList { stat := ⟨true, 0, ⟨5, 0⟩⟩, rctime := some "7.090".toList }
      (.entry "b".toList { stat := ⟨false, 4, ⟨7, 0⟩⟩, rctime := none } .nil .nil) .nil)

/-- A crawler without filters that has synced everything up to second 4. -/
def smallCrawler : Crawler := { config := {}, lastRctime := ⟨4, 0⟩ }

/-- A schedule in which both of two workers expand a directory. -/
def sharedSchedule : List Schedule :=
  [0, 1, 1, 1, 1, 1, 0, 1, 0, 0, 0, 1, 0, 1, 1, 1, 0, 0, 0, 1, 1, 1, 0, 0, 0, 1, 1, 0, 0, 0, 0,
    1, 1].map .run

theorem search_of_sharedSchedule : ∃ search : Search,
    (∀ worker ∈ search.workers, worker = .returned) ∧
    search.expanded.Perm ("/s".toList :: smallTree.searched smallCrawler "/s".toList "/s".toList) ∧
    search.totalBytes = 7 := by
  have executed : ((searchMachine smallCrawler "/s".toList smallTree 2).run Machine.unguarded
      (.start "/s".toList smallTree 2) sharedSchedule).any
      (fun search => decide (∀ worker ∈ search.workers, worker = .returned)) = true := by
    decide +kernel
  obtain ⟨search, reachable, ended⟩ := Machine.exists_of_run rfl executed
  have returned := of_decide_eq_true ended
  have found := search_of_returned (by decide) reachable returned
  exact ⟨search, returned, found.1, found.2.2.2.trans (by decide +kernel)⟩

end Search

end CephGeoRep
