import CephGeoRep.Crawler.Search
import CephGeoRep.Semantics.Machine

/-!
# The multithreaded search

The threads of `trigger_search` as a machine: every choice lets one worker take its
next atomic step, or wakes one up for no reason. A worker holds `mutex_` of the
queue from its entry into `pop` until it waits or leaves; `push` is one step, and so
is appending a file under `file_list_mt_`. `threads_running` and `total_bytes` are
atomic, so `threads_running++` of a worker that starts late can come between any two
steps of a `pop`.
-/

namespace CephGeoRep

open Semantics

/-- A directory to expand: its path, and what a `directory_iterator` over it finds. -/
abbrev Node := CString × Listing

/-- Where a worker is in `find_new_files_mt_bfs`. -/
inductive Worker where
  /-- Before `threads_running++`. -/
  | created
  /-- Before `pop`. -/
  | popping
  /-- In `pop`, before `threads_running--`. -/
  | entered
  /-- Before `if(threads_running <= 0 && queue_.empty())`. -/
  | checking
  /-- At the head of `while(queue_.empty() && !done_)`. -/
  | looping
  /-- In `empty_.wait`. -/
  | waiting
  /-- Woken up, about to lock `mutex_` again. -/
  | woken
  /-- In the loop over the entries of a node, with `files_to_enqueue`. -/
  | iterating (path : CString) (entries : Listing) (filesToEnqueue : List File)
  /-- In the loop over `files_to_enqueue`. -/
  | enqueuing (files : List File)
  /-- In that loop, the size of `file` having been added. -/
  | appending (file : File) (files : List File)
  | returned
deriving DecidableEq

/-- Holds `mutex_`. -/
def Worker.locks : Worker → Bool
  | .entered | .checking | .looping => true
  | _ => false

/-- `empty_.notify_all()`, as a worker sees it. -/
def Worker.notify : Worker → Worker
  | .waiting => .woken
  | worker => worker

/-- The state the threads share. `expanded` is bookkeeping: the paths of the nodes
that have been popped. -/
structure Search where
  queue : List Node
  threadsRunning : Int
  done : Bool
  fileList : List File
  totalBytes : Nat
  workers : List Worker
  expanded : List CString

/-- Who is scheduled. -/
inductive Schedule where
  | run (worker : Nat)
  | wake (worker : Nat)
deriving DecidableEq

namespace Search

/-- The queue with its root node and `threads_` workers, none of which has started. -/
def start (snapPath : CString) (listing : Listing) (threads : Nat) : Search where
  queue := [(snapPath, listing)]
  threadsRunning := 0
  done := false
  fileList := []
  totalBytes := 0
  workers := List.replicate threads .created
  expanded := []

/-- Worker `index` goes on as `worker`. -/
def goOn (search : Search) (index : Nat) (worker : Worker) : Search :=
  { search with workers := search.workers.set index worker }

/-- `mutex_` is free. -/
def mutexFree (search : Search) : Bool := search.workers.all fun worker => !worker.locks

/-- `ConcurrentQueue::push`. -/
def push (search : Search) (node : Node) : Search :=
  { search with
    queue := search.queue ++ [node], workers := search.workers.map Worker.notify }

/-- The `if` of `pop`. -/
def check (search : Search) : Search :=
  if search.threadsRunning ≤ 0 ∧ search.queue.isEmpty then
    { search with done := true, workers := search.workers.map Worker.notify }
  else search

/-- The rest of `pop`, and `if(!nodes_left) return`. -/
def loop (search : Search) (index : Nat) : Search :=
  match search.queue with
  | [] => search.goOn index (if search.done then .returned else .waiting)
  | (path, listing) :: queue =>
    { search with
      queue := queue
      threadsRunning := search.threadsRunning + 1
      expanded := search.expanded ++ [path] }.goOn index (.iterating path listing [])

/-- One round of the loop over the entries of a node. -/
def iterate (crawler : Crawler) (snapRoot : CString) (search : Search) (index : Nat)
    (path : CString) (filesToEnqueue : List File) : Listing → Option Search
  | .nil => some (search.goOn index (.enqueuing filesToEnqueue))
  | .entry name attributes children rest =>
    let file := Crawler.fileOf snapRoot path name attributes
    if crawler.ignoreEntry file attributes.rctime then
      some (search.goOn index (.iterating path rest filesToEnqueue))
    else if file.isDirectory then
      if search.mutexFree then
        some ((search.push (fsAppend path name, children)).goOn index
          (.iterating path rest filesToEnqueue))
      else none
    else some (search.goOn index (.iterating path rest (filesToEnqueue ++ [file])))

/-- The next step of a worker; none if it is blocked or has returned. -/
def runWorker (crawler : Crawler) (snapRoot : CString) (search : Search) (index : Nat) :
    Worker → Option Search
  | .created =>
    some ({ search with threadsRunning := search.threadsRunning + 1 }.goOn index .popping)
  | .popping => if search.mutexFree then some (search.goOn index .entered) else none
  | .entered =>
    some ({ search with threadsRunning := search.threadsRunning - 1 }.goOn index .checking)
  | .checking => some (search.check.goOn index .looping)
  | .looping => some (search.loop index)
  | .waiting => none
  | .woken => if search.mutexFree then some (search.goOn index .looping) else none
  | .iterating path entries filesToEnqueue =>
    search.iterate crawler snapRoot index path filesToEnqueue entries
  | .enqueuing [] => some (search.goOn index .popping)
  | .enqueuing (file :: files) =>
    some ({ search with totalBytes := uintmaxT (search.totalBytes + file.size) }.goOn index
      (.appending file files))
  | .appending file files =>
    some ({ search with fileList := search.fileList ++ [file] }.goOn index (.enqueuing files))
  | .returned => none

/-- One atomic step. -/
def step (crawler : Crawler) (snapRoot : CString) (search : Search) : Schedule → Option Search
  | .run index =>
    match search.workers[index]? with
    | some worker => search.runWorker crawler snapRoot index worker
    | none => none
  | .wake index =>
    match search.workers[index]? with
    | some .waiting => some (search.goOn index .woken)
    | _ => none

end Search

/-- The search of a snapshot by `threads_` workers. -/
def searchMachine (crawler : Crawler) (snapPath : CString) (listing : Listing) (threads : Nat) :
    Machine Search Schedule where
  Initial search := search = .start snapPath listing threads
  step := Search.step crawler snapPath

end CephGeoRep
