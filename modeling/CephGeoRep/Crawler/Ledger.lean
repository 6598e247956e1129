import CephGeoRep.Crawler.Workers
import CephGeoRep.Support.Shares

/-!
# Nothing is lost between the workers

`Move` lists the steps of the workers. A `Ledger` assigns to every worker and to
every queued node what is still expected of it, and to the results what has been
delivered; each step moves something from one to the other, so the total stays what
it was. The files, their sizes and the directories each have a ledger.
-/

namespace CephGeoRep

open Support

namespace Search

/-- The steps of the workers with the conditions under which each is taken. -/
inductive Move (crawler : Crawler) (snapRoot : CString) (search : Search) : Search → Prop where
  | start {index} (found : search.workers[index]? = some .created) :
      Move crawler snapRoot search
        ({ search with threadsRunning := search.threadsRunning + 1 }.goOn index .popping)
  | lock {index} (found : search.workers[index]? = some .popping)
      (free : search.mutexFree = true) :
      Move crawler snapRoot search (search.goOn index .entered)
  | enter {index} (found : search.workers[index]? = some .entered) :
      Move crawler snapRoot search
        ({ search with threadsRunning := search.threadsRunning - 1 }.goOn index .checking)
  | finish {index} (found : search.workers[index]? = some .checking)
      (idle : search.threadsRunning ≤ 0) (empty : search.queue = []) :
      Move crawler snapRoot search
        ({ search with
          done := true, workers := search.workers.map Worker.notify }.goOn index .looping)
  | proceed {index} (found : search.workers[index]? = some .checking)
      (left : ¬ (search.threadsRunning ≤ 0 ∧ search.queue = [])) :
      Move crawler snapRoot search (search.goOn index .looping)
  | wait {index} (found : search.workers[index]? = some .looping) (empty : search.queue = [])
      (unfinished : search.done = false) :
      Move crawler snapRoot search (search.goOn index .waiting)
  | leave {index} (found : search.workers[index]? = some .looping) (empty : search.queue = [])
      (finished : search.done = true) :
      Move crawler snapRoot search (search.goOn index .returned)
  | take {index path listing queue} (found : search.workers[index]? = some .looping)
      (front : search.queue = (path, listing) :: queue) :
      Move crawler snapRoot search
        ({ search with
          queue := queue
          threadsRunning := search.threadsRunning + 1
          expanded := search.expanded ++ [path] }.goOn index (.iterating path listing []))
  | wake {index} (found : search.workers[index]? = some .waiting) :
      Move crawler snapRoot search (search.goOn index .woken)
  | relock {index} (found : search.workers[index]? = some .woken)
      (free : search.mutexFree = true) :
      Move crawler snapRoot search (search.goOn index .looping)
  | skip {index path name attributes children rest files}
      (found : search.workers[index]? =
        some (.iterating path (.entry name attributes children rest) files))
      (noDirectory : crawler.opens snapRoot path name attributes = false)
      (noFile : crawler.queues snapRoot path name attributes = false) :
      Move crawler snapRoot search (search.goOn index (.iterating path rest files))
  | descend {index path name attributes children rest files}
      (found : search.workers[index]? =
        some (.iterating path (.entry name attributes children rest) files))
      (directory : crawler.opens snapRoot path name attributes = true)
      (free : search.mutexFree = true) :
      Move crawler snapRoot search
        ((search.push (fsAppend path name, children)).goOn index (.iterating path rest files))
  | collect {index path name attributes children rest files}
      (found : search.workers[index]? =
        some (.iterating path (.entry name attributes children rest) files))
      (noDirectory : crawler.opens snapRoot path name attributes = false)
      (file : crawler.queues snapRoot path name attributes = true) :
      Move crawler snapRoot search (search.goOn index
        (.iterating path rest (files ++ [Crawler.fileOf snapRoot path name attributes])))
  | exhaust {index path files}
      (found : search.workers[index]? = some (.iterating path .nil files)) :
      Move crawler snapRoot search (search.goOn index (.enqueuing files))
  | add {index} {file : File} {files : List File}
      (found : search.workers[index]? = some (.enqueuing (file :: files))) :
      Move crawler snapRoot search
        ({ search with totalBytes := uintmaxT (search.totalBytes + file.size) }.goOn index
          (.appending file files))
  | append {index} {file : File} {files : List File}
      (found : search.workers[index]? = some (.appending file files)) :
      Move crawler snapRoot search
        ({ search with fileList := search.fileList ++ [file] }.goOn index (.enqueuing files))
  | again {index} (found : search.workers[index]? = some (.enqueuing [])) :
      Move crawler snapRoot search (search.goOn index .popping)

variable {crawler : Crawler} {snapRoot : CString} {search next : Search} {index : Nat}

theorem move_of_loop (found : search.workers[index]? = some .looping) :
    Move crawler snapRoot search (search.loop index) := by
  rw [loop]
  split
  · next empty =>
    by_cases finished : search.done = true
    · rw [if_pos finished]
      exact .leave found empty finished
    · rw [if_neg finished]
      exact .wait found empty (by simpa using finished)
  · next path listing queue front => exact .take found front

theorem move_of_iterate {path : CString} {files : List File} {entries : Listing}
    (found : search.workers[index]? = some (.iterating path entries files))
    (taken : search.iterate crawler snapRoot index path files entries = some next) :
    Move crawler snapRoot search next := by
  cases entries with
  | nil =>
      cases taken
      exact .exhaust found
  | entry name attributes children rest =>
      simp only [iterate] at taken
      split at taken
      · next ignored =>
        cases taken
        exact .skip found (by simp [Crawler.opens, ignored]) (by simp [Crawler.queues, ignored])
      · next passes =>
        split at taken
        · next directory =>
          simp only [Option.ite_none_right_eq_some, Option.some.injEq] at taken
          obtain ⟨free, rfl⟩ := taken
          exact .descend found (by simp [Crawler.opens, passes, directory]) free
        · next file =>
          cases taken
          exact .collect found (by simp [Crawler.opens, file])
            (by simp [Crawler.queues, passes, file])

theorem move_of_runWorker {worker : Worker} (found : search.workers[index]? = some worker)
    (taken : search.runWorker crawler snapRoot index worker = some next) :
    Move crawler snapRoot search next := by
  cases worker with
  | created => cases taken; exact .start found
  | popping =>
      simp only [runWorker, Option.ite_none_right_eq_some, Option.some.injEq] at taken
      obtain ⟨free, rfl⟩ := taken
      exact .lock found free
  | entered => cases taken; exact .enter found
  | checking =>
      cases taken
      rw [check]
      split
      · next both => exact .finish found both.1 (by simpa using both.2)
      · next left => exact .proceed found (by simpa using left)
  | looping => cases taken; exact move_of_loop found
  | waiting => cases taken
  | woken =>
      simp only [runWorker, Option.ite_none_right_eq_some, Option.some.injEq] at taken
      obtain ⟨free, rfl⟩ := taken
      exact .relock found free
  | iterating path entries files => exact move_of_iterate found taken
  | enqueuing files =>
      cases files with
      | nil => cases taken; exact .again found
      | cons file files => cases taken; exact .add found
  | appending file files => cases taken; exact .append found
  | returned => cases taken

/-- Every step is a move. -/
theorem moves_of_step {schedule : Schedule}
    (taken : search.step crawler snapRoot schedule = some next) :
    Move crawler snapRoot search next := by
  cases schedule with
  | run index =>
      simp only [step] at taken
      split at taken
      · next worker found => exact move_of_runWorker found taken
      · cases taken
  | wake index =>
      simp only [step] at taken
      split at taken
      · next found =>
        cases taken
        exact .wake found
      · cases taken

/-! ## Ledgers -/

/-- What is expected of a worker and of a queued node, and what has been delivered, in
any commutative monoid. The equations say that each step that moves something is
balanced. -/
structure Ledger (crawler : Crawler) (snapRoot : CString) (Total : Type) [AddCommMonoid Total]
    where
  hand : Worker → Total
  node : Node → Total
  paid : List File → Nat → List CString → Total
  idle : ∀ worker ∈ [Worker.created, .popping, .entered, .checking, .looping, .waiting, .woken,
    .returned, .enqueuing []], hand worker = 0
  take : ∀ path listing files bytes expanded,
    paid files bytes (expanded ++ [path]) + hand (.iterating path listing []) =
      paid files bytes expanded + node (path, listing)
  skip : ∀ path name attributes children rest files,
    crawler.opens snapRoot path name attributes = false →
    crawler.queues snapRoot path name attributes = false →
    hand (.iterating path rest files) =
      hand (.iterating path (.entry name attributes children rest) files)
  descend : ∀ path name attributes children rest files,
    crawler.opens snapRoot path name attributes = true →
    hand (.iterating path rest files) + node (fsAppend path name, children) =
      hand (.iterating path (.entry name attributes children rest) files)
  collect : ∀ path name attributes children rest files,
    crawler.opens snapRoot path name attributes = false →
    crawler.queues snapRoot path name attributes = true →
    hand (.iterating path rest (files ++ [Crawler.fileOf snapRoot path name attributes])) =
      hand (.iterating path (.entry name attributes children rest) files)
  exhaust : ∀ path files, hand (.enqueuing files) = hand (.iterating path .nil files)
  add : ∀ (file : File) files list bytes expanded,
    paid list (uintmaxT (bytes + file.size)) expanded + hand (.appending file files) =
      paid list bytes expanded + hand (.enqueuing (file :: files))
  append : ∀ (file : File) files list bytes expanded,
    paid (list ++ [file]) bytes expanded + hand (.enqueuing files) =
      paid list bytes expanded + hand (.appending file files)

namespace Ledger

variable {Total : Type} [AddCommMonoid Total]

/-- What has been delivered together with what is still expected. -/
def total (ledger : Ledger crawler snapRoot Total) (search : Search) : Total :=
  ledger.paid search.fileList search.totalBytes search.expanded +
    (shares ledger.hand search.workers + shares ledger.node search.queue)

/-- Waking workers up changes nothing. -/
theorem hand_notify (ledger : Ledger crawler snapRoot Total) (worker : Worker) :
    ledger.hand worker.notify = ledger.hand worker := by
  cases worker with
  | waiting => exact (ledger.idle .woken (by simp)).trans (ledger.idle .waiting (by simp)).symm
  | _ => rfl

/-- A step that only moves a worker on, between two places with the same share. -/
theorem total_goOn (ledger : Ledger crawler snapRoot Total) {before after : Worker}
    (found : search.workers[index]? = some before) (same : ledger.hand after = ledger.hand before) :
    ledger.total (search.goOn index after) = ledger.total search := by
  obtain ⟨others, held, kept⟩ := shares_set ledger.hand found
  simp only [total, goOn]
  rw [held, kept, same]

/-- A step that delivers something while a worker moves on. -/
theorem total_deliver (ledger : Ledger crawler snapRoot Total) {before after : Worker}
    {files : List File} {bytes : Nat} {expanded : List CString}
    (found : search.workers[index]? = some before)
    (balanced : ledger.paid files bytes expanded + ledger.hand after =
      ledger.paid search.fileList search.totalBytes search.expanded + ledger.hand before) :
    ledger.total ({ search with fileList := files, totalBytes := bytes,
                                expanded := expanded }.goOn index after) =
      ledger.total search := by
  obtain ⟨others, held, kept⟩ := shares_set ledger.hand found
  simp only [total, goOn]
  rw [held, kept, add_assoc, ← add_assoc, balanced, add_assoc, add_assoc]

/-- A worker that is awake is still there after the others have been woken up. -/
theorem found_notify {worker : Worker} (found : search.workers[index]? = some worker)
    (awake : worker.notify = worker) :
    (search.workers.map Worker.notify)[index]? = some worker := by
  rw [List.getElem?_map, found, Option.map_some, awake]

/-- Every step is balanced. -/
theorem total_of_move (ledger : Ledger crawler snapRoot Total)
    (move : Move crawler snapRoot search next) : ledger.total next = ledger.total search := by
  have idle := ledger.idle
  simp only [List.mem_cons, List.not_mem_nil, or_false, forall_eq_or_imp, forall_eq] at idle
  obtain ⟨created, popping, entered, checking, looping, waiting, woken, returned, enqueuing⟩ :=
    idle
  cases move with
  | start found => exact ledger.total_goOn found (popping.trans created.symm)
  | lock found _ => exact ledger.total_goOn found (entered.trans popping.symm)
  | enter found => exact ledger.total_goOn found (checking.trans entered.symm)
  | @finish index found _ _ =>
      obtain ⟨others, held, kept⟩ := shares_set ledger.hand (found_notify found rfl)
      rw [shares_map ledger.hand_notify] at held
      simp only [total, goOn]
      rw [kept, held, looping, checking]
  | proceed found _ => exact ledger.total_goOn found (looping.trans checking.symm)
  | wait found _ _ => exact ledger.total_goOn found (waiting.trans looping.symm)
  | leave found _ _ => exact ledger.total_goOn found (returned.trans looping.symm)
  | @take index path listing queue found front =>
      obtain ⟨others, held, kept⟩ := shares_set ledger.hand found
      have balanced := ledger.take path listing search.fileList search.totalBytes search.expanded
      simp only [total, goOn]
      rw [held, kept, front, shares_cons, looping, zero_add, add_assoc, ← add_assoc, balanced]
      abel
  | wake found => exact ledger.total_goOn found (woken.trans waiting.symm)
  | relock found _ => exact ledger.total_goOn found (looping.trans woken.symm)
  | skip found noDirectory noFile =>
      exact ledger.total_goOn found (ledger.skip _ _ _ _ _ _ noDirectory noFile)
  | @descend index path name attributes children rest files found directory _ =>
      obtain ⟨others, held, kept⟩ := shares_set ledger.hand (found_notify found rfl)
      rw [shares_map ledger.hand_notify] at held
      have balanced := ledger.descend path name attributes children rest files directory
      simp only [total, goOn, push]
      rw [kept, held, ← balanced, shares_append, shares_cons, shares_nil, add_zero]
      abel
  | collect found noDirectory file =>
      exact ledger.total_goOn found (ledger.collect _ _ _ _ _ _ noDirectory file)
  | exhaust found => exact ledger.total_goOn found (ledger.exhaust _ _)
  | add found => exact ledger.total_deliver found (ledger.add _ _ _ _ _)
  | append found => exact ledger.total_deliver found (ledger.append _ _ _ _ _)
  | again found => exact ledger.total_goOn found (popping.trans enqueuing.symm)

end Ledger

end Search

end CephGeoRep
