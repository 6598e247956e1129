import CephGeoRep.Crawler.Poll

/-!
# The steps of the daemon

What a step of `poll_base` does, one constructor for each outcome. Proofs about the
daemon go by cases on it instead of unfolding the step function.
-/

namespace CephGeoRep

namespace Daemon

/-- The steps of the daemon. -/
inductive Move (tokenize : CString → CString → List CString) (capacity : Nat) :
    Daemon → PollChoice → Daemon → Prop where
  | start {daemon next pid config flags argMax envpSize} (stopped : daemon.control = .stopped)
      (begun : daemon.begin tokenize pid config flags argMax envpSize = some next) :
      Move tokenize capacity daemon (.start pid config flags argMax envpSize) next
  | assignSec {daemon newRctime after} (here : daemon.control = .update newRctime after) :
      Move tokenize capacity daemon .assign
        { daemon.setRctime ⟨newRctime.tvSec, daemon.crawler.lastRctime.tvNsec⟩ with
          control := .updateNsec newRctime after }
  | assignNsec {daemon newRctime after} (here : daemon.control = .updateNsec newRctime after) :
      Move tokenize capacity daemon .assign
        { daemon.setRctime ⟨daemon.crawler.lastRctime.tvSec, newRctime.tvNsec⟩ with
          control := after.control }
  | check {daemon base} (here : daemon.control = .checking) :
      Move tokenize capacity daemon (.check base) (daemon.check base)
  | create {daemon snapshot} (here : daemon.control = .creating) :
      Move tokenize capacity daemon (.create snapshot)
        { daemon with
          snapPath := createSnapPath daemon.crawler.config.basePath daemon.pid daemon.newRctime
          snapshot := snapshot
          control := .searching }
  | search {daemon schedule result} (here : daemon.control = .searching)
      (workers : 0 < daemon.crawler.config.threads)
      (found : daemon.crawler.triggerSearch daemon.snapPath daemon.snapshot schedule =
        some result) :
      Move tokenize capacity daemon (.search schedule) (daemon.afterSearch result.1)
  | launch {daemon sorted round} (here : daemon.control = .launching)
      (taken : daemon.round.step capacity (.sync daemon.fileList sorted) = some round) :
      Move tokenize capacity daemon (.launch sorted)
        { daemon with round := round, control := .syncing }
  /-- A child that wrote its copy of the watermark wrote that of the parent. -/
  | sync {daemon choice round disk} (here : daemon.control = .syncing)
      (taken : daemon.round.step capacity choice = some round)
      (goesOn : round.control ≠ .synced ∧ round.control ≠ .exited)
      (wrote : disk = daemon.disk ∨ disk = some (writeLastRctime daemon.crawler.lastRctime)) :
      Move tokenize capacity daemon (.syncer choice)
        { daemon with round := round, disk := disk }
  | synced {daemon choice round disk} (here : daemon.control = .syncing)
      (taken : daemon.round.step capacity choice = some round)
      (ended : round.control = .synced)
      (wrote : disk = daemon.disk ∨ disk = some (writeLastRctime daemon.crawler.lastRctime)) :
      Move tokenize capacity daemon (.syncer choice)
        { daemon with
          round := round, disk := disk, control := .deleting, delivered := some daemon.fileList }
  | syncFails {daemon choice round disk} (here : daemon.control = .syncing)
      (taken : daemon.round.step capacity choice = some round)
      (ended : round.control = .exited)
      (wrote : disk = daemon.disk ∨ disk = some (writeLastRctime daemon.crawler.lastRctime)) :
      Move tokenize capacity daemon (.syncer choice)
        { daemon with round := round, disk := disk, control := .stopped }
  | deleteSnap {daemon} (here : daemon.control = .deleting) :
      Move tokenize capacity daemon (.deleteSnap true)
        { daemon with
          round := { daemon.round with control := .idle, snapshot := false }
          control := if daemon.flags.dryRun then .resting else .update daemon.newRctime .flush }
  | flush {daemon due} (here : daemon.control = .flushing) :
      Move tokenize capacity daemon (.flush due)
        { (if due then daemon.writeRctime else daemon) with control := .resting }
  | rest {daemon} (here : daemon.control = .resting) :
      Move tokenize capacity daemon .rest daemon.rest
  | close {daemon} (here : daemon.control = .closing) :
      Move tokenize capacity daemon .close daemon.writeRctime.die
  | createFails {daemon} (here : daemon.control = .creating) :
      Move tokenize capacity daemon .createFails daemon.die
  | noWorkers {daemon schedule} (here : daemon.control = .searching)
      (none : daemon.crawler.config.threads ≤ 0) :
      Move tokenize capacity daemon (.search schedule) daemon.die
  | searchFails {daemon} (here : daemon.control = .searching) :
      Move tokenize capacity daemon .searchFails daemon.die
  | keepSnap {daemon} (here : daemon.control = .deleting) :
      Move tokenize capacity daemon (.deleteSnap false) daemon.die
  | signal {daemon} (running : daemon.control ≠ .stopped) :
      Move tokenize capacity daemon .signal daemon.writeRctime.die
  | kill {daemon} (running : daemon.control ≠ .stopped) :
      Move tokenize capacity daemon .kill daemon.die

variable {tokenize : CString → CString → List CString} {capacity : Nat} {daemon next : Daemon}
  {choice : PollChoice}

theorem initial_valid (disk : Option CString) :
    (pollMachine tokenize capacity).Initial (.initial disk) := ⟨disk, rfl⟩

/-- How `main` starts: with what the constructor of `LastRctime` has read. -/
theorem eq_of_begin {pid argMax envpSize} {config : Config} {flags : Flags}
    (begun : daemon.begin tokenize pid config flags argMax envpSize = some next) :
    ∃ lastRctime content, readLastRctime daemon.disk = .ok (lastRctime, content) ∧
      next = { daemon with
        flags := flags
        crawler := ⟨config, lastRctime⟩
        pid := pid
        newRctime := .zero
        oldRctimeCache := if flags.seed && flags.dryRun then lastRctime else .zero
        control := if flags.seed then .update ⟨1, 0⟩ .loop else .checking
        disk := some content
        round := .start (Syncer.new tokenize argMax envpSize config)
        startRctime := lastRctime
        delivered := none } := by
  rw [begin] at begun
  split at begun
  · next lastRctime content read => exact ⟨lastRctime, content, read, (Option.some.inj begun).symm⟩
  · cases begun

@[simp]
theorem check_flags (daemon : Daemon) (base : Listing) :
    (daemon.check base).flags = daemon.flags := by
  rw [check]
  split <;> rfl

/-- The end of an iteration is a step to another place, and nothing else. -/
theorem rest_eq (daemon : Daemon) :
    ∃ control, daemon.rest = { daemon with control := control } := by
  rw [rest]
  split
  · split
    · exact ⟨_, rfl⟩
    · exact ⟨_, rfl⟩
  · exact ⟨_, rfl⟩

@[simp]
theorem rest_flags (daemon : Daemon) : daemon.rest.flags = daemon.flags := by
  obtain ⟨control, equal⟩ := daemon.rest_eq
  rw [equal]

@[simp]
theorem rest_disk (daemon : Daemon) : daemon.rest.disk = daemon.disk := by
  obtain ⟨control, equal⟩ := daemon.rest_eq
  rw [equal]

/-- The search leads to `Syncer::sync` or past it. -/
theorem afterSearch_control (daemon : Daemon) (fileList : List File) :
    (daemon.afterSearch fileList).control = .deleting ∨
      (daemon.afterSearch fileList).control = .launching := by
  rw [afterSearch]
  split
  · exact .inl rfl
  · exact .inr rfl

/-- A step of `Syncer::sync` is one of three moves. -/
theorem moves_of_syncStep {call : Choice} (here : daemon.control = .syncing)
    (taken : daemon.syncStep capacity call = some next) :
    Move tokenize capacity daemon (.syncer call) next := by
  obtain ⟨disk, wrote, equal⟩ : ∃ disk,
      (disk = daemon.disk ∨ disk = some (writeLastRctime daemon.crawler.lastRctime)) ∧
      daemon.afterChild call = { daemon with disk := disk } := by
    unfold afterChild
    split
    · exact ⟨_, .inr rfl, rfl⟩
    · exact ⟨_, .inl rfl, rfl⟩
  rw [syncStep, equal] at taken
  split at taken
  · next round stepped =>
    simp only at taken
    split at taken
    · next ended =>
      rw [← Option.some.inj taken]
      exact .synced here stepped ended wrote
    · next ended =>
      rw [← Option.some.inj taken]
      exact .syncFails here stepped ended wrote
    · next notSynced notExited =>
      rw [← Option.some.inj taken]
      exact .sync here stepped ⟨notSynced, notExited⟩ wrote
  · cases taken

/-- A step of the search either completes it or ends the process. -/
theorem moves_of_search {schedule : List Schedule}
    (taken : daemon.step tokenize capacity (.search schedule) = some next) :
    Move tokenize capacity daemon (.search schedule) next := by
  simp only [step, Option.ite_none_right_eq_some] at taken
  obtain ⟨here, taken⟩ := taken
  split at taken
  · next none =>
    cases taken
    exact .noWorkers here none
  · next workers =>
    split at taken
    · next result found =>
      cases taken
      exact .search here (not_le.mp workers) found
    · cases taken

/-- Every step is a move. -/
theorem moves_of_step (taken : daemon.step tokenize capacity choice = some next) :
    Move tokenize capacity daemon choice next := by
  cases choice with
  | start pid config flags argMax envpSize =>
      simp only [step, Option.ite_none_right_eq_some] at taken
      exact .start taken.1 taken.2
  | assign =>
      simp only [step] at taken
      split at taken
      · next here =>
        cases taken
        exact .assignSec here
      · next here =>
        cases taken
        exact .assignNsec here
      · cases taken
  | check base =>
      simp only [step, Option.ite_none_right_eq_some, Option.some.injEq] at taken
      obtain ⟨here, rfl⟩ := taken
      exact .check here
  | create snapshot =>
      simp only [step, Option.ite_none_right_eq_some, Option.some.injEq] at taken
      obtain ⟨here, rfl⟩ := taken
      exact .create here
  | createFails =>
      simp only [step, Option.ite_none_right_eq_some, Option.some.injEq] at taken
      obtain ⟨here, rfl⟩ := taken
      exact .createFails here
  | search schedule => exact moves_of_search taken
  | searchFails =>
      simp only [step, Option.ite_none_right_eq_some, Option.some.injEq] at taken
      obtain ⟨here, rfl⟩ := taken
      exact .searchFails here
  | launch sorted =>
      simp only [step, Option.ite_none_right_eq_some] at taken
      obtain ⟨here, taken⟩ := taken
      split at taken
      · next round launched =>
        cases taken
        exact .launch here launched
      · cases taken
  | syncer call =>
      simp only [step, Option.ite_none_right_eq_some] at taken
      exact moves_of_syncStep taken.1 taken.2
  | deleteSnap removed =>
      simp only [step, Option.ite_none_right_eq_some] at taken
      obtain ⟨here, taken⟩ := taken
      cases removed with
      | true =>
          cases taken
          exact .deleteSnap here
      | false =>
          cases taken
          exact .keepSnap here
  | flush due =>
      simp only [step, Option.ite_none_right_eq_some, Option.some.injEq] at taken
      obtain ⟨here, rfl⟩ := taken
      exact .flush here
  | rest =>
      simp only [step, Option.ite_none_right_eq_some, Option.some.injEq] at taken
      obtain ⟨here, rfl⟩ := taken
      exact .rest here
  | close =>
      simp only [step, Option.ite_none_right_eq_some, Option.some.injEq] at taken
      obtain ⟨here, rfl⟩ := taken
      exact .close here
  | signal =>
      simp only [step, Option.ite_none_left_eq_some, Option.some.injEq] at taken
      obtain ⟨running, rfl⟩ := taken
      exact .signal running
  | kill =>
      simp only [step, Option.ite_none_left_eq_some, Option.some.injEq] at taken
      obtain ⟨running, rfl⟩ := taken
      exact .kill running

end Daemon

end CephGeoRep
