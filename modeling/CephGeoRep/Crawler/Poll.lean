import CephGeoRep.Crawler.Workers
import CephGeoRep.Syncer.Sync

/-!
# The daemon

`poll_base` statement by statement, over any number of runs of the daemon. The
environment decides what the base directory and the snapshots hold, how the workers
are scheduled, what becomes of the children, which system calls fail and where a
signal arrives. A call of `Syncer::sync` is a run of the machine of `Syncer/Sync`.
Children that a process leaves behind when it ends are not followed any further.
-/

namespace CephGeoRep

open Semantics

/-- The parameters of `poll_base`. -/
structure Flags where
  seed : Bool
  dryRun : Bool
  setRctime : Bool
  oneshot : Bool
deriving DecidableEq

/-- What follows a call of `LastRctime::update`. -/
inductive AfterUpdate where
  | loop
  | flush
  | close
deriving DecidableEq

/-- Where the daemon is. -/
inductive PollControl where
  /-- No process runs. -/
  | stopped
  /-- In `LastRctime::update`, before the first assignment. -/
  | update (newRctime : Timespec) (after : AfterUpdate)
  /-- Between the two assignments. -/
  | updateNsec (newRctime : Timespec) (after : AfterUpdate)
  /-- At `check_for_change`. -/
  | checking
  /-- At `create_snap`. -/
  | creating
  /-- At `trigger_search`. -/
  | searching
  /-- At `syncer.sync(file_list)`. -/
  | launching
  /-- In that call. -/
  | syncing
  /-- At `delete_snap`. -/
  | deleting
  /-- Behind `last_rctime_.update(new_rctime)`. -/
  | flushing
  /-- At the end of the loop. -/
  | resting
  /-- `poll_base` has returned. -/
  | closing
deriving DecidableEq

/-- The daemon and its file `last_rctime.dat`. The last three fields are bookkeeping
of the current iteration: the watermark it started with, what its snapshot holds, and
the list it gave to a call of `Syncer::sync` that has returned. -/
structure Daemon where
  flags : Flags
  crawler : Crawler
  pid : Nat
  newRctime : Timespec
  oldRctimeCache : Timespec
  snapPath : CString
  fileList : List File
  control : PollControl
  disk : Option CString
  round : State
  startRctime : Timespec
  snapshot : Listing
  delivered : Option (List File)

/-- What the environment decides. -/
inductive PollChoice where
  | start (pid : Nat) (config : Config) (flags : Flags) (argMax : Int) (envpSize : Nat)
  /-- The next assignment of `update`. -/
  | assign
  /-- The base directory holds `base`. -/
  | check (base : Listing)
  /-- The snapshot holds `snapshot` when it is searched. -/
  | create (snapshot : Listing)
  | createFails
  /-- The workers run through `schedule`, should there be several. -/
  | search (schedule : List Schedule)
  /-- `lstat` or a `directory_iterator` fails. -/
  | searchFails
  /-- `std::sort` turns `file_list` into `sorted`. -/
  | launch (sorted : List File)
  | syncer (choice : Choice)
  | deleteSnap (removed : Bool)
  /-- `due` tells whether an hour has passed since the last write. -/
  | flush (due : Bool)
  | rest
  | close
  /-- SIGINT, SIGTERM or SIGQUIT. -/
  | signal
  /-- The process is killed, or the machine stops. -/
  | kill

/-- Where `update` leads. -/
def AfterUpdate.control : AfterUpdate → PollControl
  | .loop => .checking
  | .flush => .flushing
  | .close => .closing

/-- The path `create_snap` builds. -/
def createSnapPath (basePath : CString) (pid : Nat) (rctime : Timespec) : CString :=
  fsAppend basePath (".snap/".toList ++ Nat.toDigits 10 pid ++ "snapshot".toList ++
    (showInt rctime.tvSec ++ '.' :: showInt rctime.tvNsec))

/-- The attributes of the entries of a directory. -/
def Listing.top : Listing → List Attributes
  | .nil => []
  | .entry _ attributes _ rest => attributes :: rest.top

/-- `Crawler::trigger_search` for a positive number of threads: the list it fills and
the total. No result means that the workers have not all returned. -/
def Crawler.triggerSearch (crawler : Crawler) (snapPath : CString) (snapshot : Listing)
    (schedule : List Schedule) : Option (List File × Nat) :=
  if crawler.config.threads = 1 then
    some (crawler.findNewFilesRecursive snapPath snapPath snapshot ([], 0))
  else
    let threads := crawler.config.threads.toNat
    match (searchMachine crawler snapPath snapshot threads).run Machine.unguarded
        (.start snapPath snapshot threads) schedule with
    | some search =>
      if ∀ worker ∈ search.workers, worker = .returned then
        some (search.fileList, search.totalBytes)
      else none
    | none => none

namespace Daemon

/-- The process ends without touching the file. -/
def die (daemon : Daemon) : Daemon := { daemon with control := .stopped }

/-- `write_last_rctime`. -/
def writeRctime (daemon : Daemon) : Daemon :=
  { daemon with disk := some (writeLastRctime daemon.crawler.lastRctime) }

/-- Set `last_rctime_`. -/
def setRctime (daemon : Daemon) (rctime : Timespec) : Daemon :=
  { daemon with crawler := { daemon.crawler with lastRctime := rctime } }

/-- `main` up to the loop of `poll_base`. An exception that escapes the constructor of
`LastRctime` ends the process at once. -/
def begin (tokenize : CString → CString → List CString) (daemon : Daemon) (pid : Nat)
    (config : Config) (flags : Flags) (argMax : Int) (envpSize : Nat) : Option Daemon :=
  match readLastRctime daemon.disk with
  | .ok (lastRctime, content) =>
    some { daemon with
      flags := flags
      crawler := ⟨config, lastRctime⟩
      pid := pid
      newRctime := .zero
      oldRctimeCache := if flags.seed && flags.dryRun then lastRctime else .zero
      control := if flags.seed then .update ⟨1, 0⟩ .loop else .checking
      disk := some content
      round := .start (Syncer.new tokenize argMax envpSize config)
      startRctime := lastRctime
      delivered := none }
  | .error _ => none

/-- `check_for_change` and the test of its result. An exception ends the process. -/
def check (daemon : Daemon) (base : Listing) : Daemon :=
  match checkForChange daemon.crawler.lastRctime base.top (false, daemon.newRctime) with
  | .ok (change, newRctime) =>
    { daemon with
      newRctime := newRctime
      control := if change then .creating else .resting
      startRctime := daemon.crawler.lastRctime
      delivered := none }
  | .error _ => daemon.die

/-- Where the search leads. -/
def afterSearch (daemon : Daemon) (fileList : List File) : Daemon :=
  { daemon with
    fileList := fileList
    control := if fileList.isEmpty || daemon.flags.dryRun || daemon.flags.setRctime then .deleting
      else .launching }

/-- A child in `sig_hdlr` writes its copy of the watermark. -/
def afterChild (daemon : Daemon) : Choice → Daemon
  | .child _ (.handle _) => daemon.writeRctime
  | _ => daemon

/-- A step of the children or of the parent in `Syncer::sync`. -/
def syncStep (capacity : Nat) (daemon : Daemon) (choice : Choice) : Option Daemon :=
  match daemon.round.step capacity choice with
  | some round =>
    let next := { daemon.afterChild choice with round := round }
    match round.control with
    | .synced => some { next with control := .deleting, delivered := some daemon.fileList }
    | .exited => some next.die
    | _ => some next
  | none => none

/-- The end of an iteration. -/
def rest (daemon : Daemon) : Daemon :=
  let flags := daemon.flags
  if flags.oneshot || flags.seed || flags.dryRun || flags.setRctime then
    if flags.seed && flags.dryRun then
      { daemon with control := .update daemon.oldRctimeCache .close }
    else { daemon with control := .closing }
  else { daemon with control := .checking }

/-- One step of the daemon; `capacity` is that of a pipe. -/
def step (tokenize : CString → CString → List CString) (capacity : Nat) (daemon : Daemon) :
    PollChoice → Option Daemon
  | .start pid config flags argMax envpSize =>
    if daemon.control = .stopped then daemon.begin tokenize pid config flags argMax envpSize
    else none
  | .assign =>
    match daemon.control with
    | .update newRctime after =>
      some { daemon.setRctime ⟨newRctime.tvSec, daemon.crawler.lastRctime.tvNsec⟩ with
        control := .updateNsec newRctime after }
    | .updateNsec newRctime after =>
      some { daemon.setRctime ⟨daemon.crawler.lastRctime.tvSec, newRctime.tvNsec⟩ with
        control := after.control }
    | _ => none
  | .check base => if daemon.control = .checking then some (daemon.check base) else none
  | .create snapshot =>
    if daemon.control = .creating then
      some { daemon with
        snapPath := createSnapPath daemon.crawler.config.basePath daemon.pid daemon.newRctime
        snapshot := snapshot
        control := .searching }
    else none
  | .createFails => if daemon.control = .creating then some daemon.die else none
  | .search schedule =>
    if daemon.control = .searching then
      if daemon.crawler.config.threads ≤ 0 then some daemon.die
      else
        match daemon.crawler.triggerSearch daemon.snapPath daemon.snapshot schedule with
        | some result => some (daemon.afterSearch result.1)
        | none => none
    else none
  | .searchFails => if daemon.control = .searching then some daemon.die else none
  | .launch sorted =>
    if daemon.control = .launching then
      match daemon.round.step capacity (.sync daemon.fileList sorted) with
      | some round => some { daemon with round := round, control := .syncing }
      | none => none
    else none
  | .syncer choice => if daemon.control = .syncing then daemon.syncStep capacity choice else none
  | .deleteSnap removed =>
    if daemon.control = .deleting then
      if removed then
        some { daemon with
          round := { daemon.round with control := .idle, snapshot := false }
          control := if daemon.flags.dryRun then .resting else .update daemon.newRctime .flush }
      else some daemon.die
    else none
  | .flush due =>
    if daemon.control = .flushing then
      some { (if due then daemon.writeRctime else daemon) with control := .resting }
    else none
  | .rest => if daemon.control = .resting then some daemon.rest else none
  | .close => if daemon.control = .closing then some daemon.writeRctime.die else none
  | .signal => if daemon.control = .stopped then none else some daemon.writeRctime.die
  | .kill => if daemon.control = .stopped then none else some daemon.die

/-- Nothing has run yet; the file holds anything. -/
def initial (disk : Option CString) : Daemon where
  flags := ⟨false, false, false, false⟩
  crawler := ⟨{}, .zero⟩
  pid := 0
  newRctime := .zero
  oldRctimeCache := .zero
  snapPath := []
  fileList := []
  control := .stopped
  disk := disk
  round := .start (Syncer.new (fun _ _ => []) 0 0 {})
  startRctime := .zero
  snapshot := .nil
  delivered := none

end Daemon

/-- The daemon with any tokenizer. -/
def pollMachine (tokenize : CString → CString → List CString) (capacity : Nat) :
    Machine Daemon PollChoice where
  Initial daemon := ∃ disk, daemon = .initial disk
  step := Daemon.step tokenize capacity

end CephGeoRep
