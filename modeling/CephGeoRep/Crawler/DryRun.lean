import CephGeoRep.Crawler.Watermark

/-!
# Dry runs

A dry run starts no sync program, and at its end `poll_base` puts the watermark back
that it overwrote for `seed`. In between the watermark in memory is another one, which
the signal handler writes.
-/

namespace CephGeoRep

open Semantics

/-- Where in a run with `seed` the watermark is not `old_rctime_cache`. -/
def PollControl.lowers (oldRctimeCache : Timespec) : PollControl → Bool
  | .update _ .loop | .closing => false
  | .updateNsec _ .loop => oldRctimeCache.tvSec ≠ 1
  | .updateNsec _ .close => oldRctimeCache.tvNsec ≠ 0
  | _ => oldRctimeCache ≠ ⟨1, 0⟩

namespace Daemon

/-- The watermark in memory is not the stored one: behind the first assignment of
`update({1})` and up to the last one of `update(old_rctime_cache)`, as far as the two
differ. -/
def Lowered (daemon : Daemon) : Prop :=
  daemon.flags.seed = true ∧ daemon.control.lowers daemon.oldRctimeCache = true

instance (daemon : Daemon) : Decidable daemon.Lowered :=
  inferInstanceAs (Decidable (_ ∧ _))

end Daemon

/-- Dry runs in which no signal arrives while the watermark is lowered. -/
def dryRuns (daemon : Daemon) : PollChoice → Prop
  | .start _ _ flags _ _ => flags.dryRun = true
  | .signal => ¬ daemon.Lowered
  | _ => True

instance (daemon : Daemon) : ∀ choice, Decidable (dryRuns daemon choice)
  | .start _ _ flags _ _ => inferInstanceAs (Decidable (flags.dryRun = true))
  | .signal => inferInstanceAs (Decidable ¬ daemon.Lowered)
  | .create _ | .check _ | .assign | .createFails | .search _ | .searchFails | .launch _
  | .syncer _ | .deleteSnap _ | .flush _ | .rest | .close | .kill => .isTrue trivial

/-- Where a dry run never is. -/
def PollControl.syncs : PollControl → Bool
  | .launching | .syncing | .flushing | .update _ .flush | .updateNsec _ .flush => true
  | _ => false

namespace Daemon

/-- The watermark of a dry run with `seed`, given the stored one. -/
def seedRctime (old : Timespec) : PollControl → Timespec
  | .update _ .loop | .closing => old
  | .updateNsec _ .loop => ⟨1, old.tvNsec⟩
  | .updateNsec _ .close => ⟨old.tvSec, 0⟩
  | _ => ⟨1, 0⟩

/-- A dry run in progress, over a file that holds `old`. -/
structure Dry (daemon : Daemon) (old : Timespec) : Prop where
  machine : old.IsMachine
  flags : daemon.flags.dryRun = true
  idle : daemon.control.syncs = false
  cache : daemon.flags.seed = true → daemon.oldRctimeCache = old
  lastRctime : daemon.crawler.lastRctime =
    if daemon.flags.seed then seedRctime old daemon.control else old

/-- The file holds what it held, and a process that runs is a dry run over it. -/
structure Traceless (stored : Except NumeralError Timespec) (daemon : Daemon) : Prop where
  kept : timestamp daemon.disk = stored
  running : daemon.control ≠ .stopped → ∃ old, stored = .ok old ∧ daemon.Dry old

variable {tokenize : CString → CString → List CString} {capacity : Nat} {daemon next : Daemon}
  {choice : PollChoice} {stored : Except NumeralError Timespec} {old : Timespec}

/-- Both assignments of `update` keep machine numbers. -/
theorem isMachine_seedRctime (machine : old.IsMachine) (control : PollControl) :
    (seedRctime old control).IsMachine := by
  have one : IsInt64 1 ∧ IsInt64 0 := by decide
  unfold seedRctime
  split
  · exact machine
  · exact machine
  · exact ⟨one.1, machine.2⟩
  · exact ⟨machine.1, one.2⟩
  · exact one

theorem Dry.isMachine (dry : daemon.Dry old) : daemon.crawler.lastRctime.IsMachine := by
  rw [dry.lastRctime]
  split
  · exact isMachine_seedRctime dry.machine _
  · exact dry.machine

/-- The watermark is the stored one unless it is lowered. -/
theorem Dry.lowered_iff (dry : daemon.Dry old) :
    daemon.crawler.lastRctime = old ↔ ¬ daemon.Lowered := by
  rw [dry.lastRctime]
  cases seed : daemon.flags.seed with
  | false => simp [Lowered, seed]
  | true =>
      have cache := dry.cache seed
      rw [Lowered, cache, if_pos rfl, and_iff_right seed]
      obtain ⟨seconds, nanoseconds⟩ := old
      fun_cases seedRctime ⟨seconds, nanoseconds⟩ daemon.control <;>
        simp only [PollControl.lowers, Bool.false_eq_true, not_false_eq_true, decide_eq_true_eq,
          Decidable.not_not, Timespec.mk.injEq, true_and, and_true]
      · exact eq_comm
      · exact eq_comm
      · exact and_congr eq_comm eq_comm

/-- What the handler or the destructor writes into the file of a dry run. -/
theorem Dry.timestamp_write (dry : daemon.Dry old) :
    timestamp daemon.writeRctime.disk = .ok daemon.crawler.lastRctime :=
  timestamp_writeLastRctime dry.isMachine

theorem traceless_of_begin {pid argMax envpSize} {config : Config} {flags : Flags}
    (kept : timestamp daemon.disk = stored) (dryRun : flags.dryRun = true)
    (begun : daemon.begin tokenize pid config flags argMax envpSize = some next) :
    next.Traceless stored := by
  obtain ⟨lastRctime, content, read, rfl⟩ := eq_of_begin begun
  obtain ⟨machine, again⟩ := readLastRctime_again read
  have found : stored = .ok lastRctime := kept.symm.trans (timestamp_of_read read)
  refine ⟨found ▸ timestamp_of_read again, fun _ => ⟨lastRctime, found, ?_⟩⟩
  cases seed : flags.seed with
  | true =>
      refine ⟨machine, dryRun, by simp [PollControl.syncs], fun _ => by simp [dryRun], ?_⟩
      simp [seed, seedRctime]
  | false => exact ⟨machine, dryRun, rfl, by simp [seed], by simp [seed]⟩

/-- A step of a dry run to a place with the same watermark. -/
theorem Dry.go (dry : daemon.Dry old) (flags : next.flags = daemon.flags)
    (cache : next.oldRctimeCache = daemon.oldRctimeCache) (idle : next.control.syncs = false)
    (lastRctime : next.crawler.lastRctime = daemon.crawler.lastRctime)
    (same : seedRctime old next.control = seedRctime old daemon.control) : next.Dry old where
  machine := dry.machine
  flags := flags ▸ dry.flags
  idle := idle
  cache := by
    rw [flags, cache]
    exact dry.cache
  lastRctime := by
    rw [lastRctime, flags, same]
    exact dry.lastRctime

/-- A step of a dry run with `seed` that sets the watermark. -/
theorem Dry.assign (dry : daemon.Dry old) (seed : daemon.flags.seed = true)
    (flags : next.flags = daemon.flags) (cache : next.oldRctimeCache = daemon.oldRctimeCache)
    (idle : next.control.syncs = false)
    (lastRctime : next.crawler.lastRctime = seedRctime old next.control) : next.Dry old where
  machine := dry.machine
  flags := flags ▸ dry.flags
  idle := idle
  cache := by
    rw [flags, cache]
    exact dry.cache
  lastRctime := by rw [lastRctime, flags, if_pos seed]

/-- A process that has ended leaves the file as it is. -/
theorem traceless_of_stopped (kept : timestamp next.disk = stored)
    (ended : next.control = .stopped) : next.Traceless stored :=
  ⟨kept, fun up => absurd ended up⟩

/-- A dry run is not at the end of a sync. -/
theorem Dry.not_syncs {control : PollControl} (dry : daemon.Dry old)
    (here : daemon.control = control) (syncs : control.syncs = true) : False := by
  have idle := dry.idle
  rw [here, syncs] at idle
  cases idle

/-- The first assignment of an update of a dry run. -/
theorem Dry.assignSec {newRctime : Timespec} {after : AfterUpdate} (dry : daemon.Dry old)
    (here : daemon.control = .update newRctime after)
    (phase : daemon.Phase (.update newRctime after)) :
    Dry { daemon.setRctime ⟨newRctime.tvSec, daemon.crawler.lastRctime.tvNsec⟩ with
      control := .updateNsec newRctime after } old := by
  have lastRctime := dry.lastRctime
  rw [here] at lastRctime
  cases after with
  | loop =>
      obtain ⟨rfl, seed⟩ := phase
      rw [if_pos seed] at lastRctime
      refine dry.assign seed rfl rfl rfl ?_
      simp only [setRctime, lastRctime, seedRctime]
  | flush => exact (dry.not_syncs here rfl).elim
  | close =>
      obtain ⟨rfl, seed, _⟩ := phase
      rw [if_pos seed] at lastRctime
      refine dry.assign seed rfl rfl rfl ?_
      simp only [setRctime, lastRctime, seedRctime, dry.cache seed]

/-- The second one. -/
theorem Dry.assignNsec {newRctime : Timespec} {after : AfterUpdate} (dry : daemon.Dry old)
    (here : daemon.control = .updateNsec newRctime after)
    (phase : daemon.Phase (.updateNsec newRctime after)) :
    Dry { daemon.setRctime ⟨daemon.crawler.lastRctime.tvSec, newRctime.tvNsec⟩ with
      control := after.control } old := by
  have lastRctime := dry.lastRctime
  rw [here] at lastRctime
  cases after with
  | loop =>
      obtain ⟨rfl, seed⟩ := phase
      rw [if_pos seed] at lastRctime
      refine dry.assign seed rfl rfl rfl ?_
      simp only [setRctime, lastRctime, seedRctime, AfterUpdate.control]
  | flush => exact (dry.not_syncs here rfl).elim
  | close =>
      obtain ⟨rfl, seed, _⟩ := phase
      rw [if_pos seed] at lastRctime
      refine dry.assign seed rfl rfl rfl ?_
      simp only [setRctime, lastRctime, seedRctime, dry.cache seed, AfterUpdate.control]

theorem Dry.check (dry : daemon.Dry old) (here : daemon.control = .checking) (base : Listing)
    (kept : timestamp daemon.disk = stored) (found : stored = .ok old) :
    (daemon.check base).Traceless stored := by
  rw [Daemon.check]
  split
  · refine ⟨kept, fun _ => ⟨old, found, dry.go rfl rfl ?_ rfl ?_⟩⟩
    · simp only
      split <;> rfl
    · simp only [here]
      split <;> rfl
  · exact traceless_of_stopped kept rfl

/-- At the end of its loop a dry run with `seed` puts the old watermark back. -/
theorem Dry.rest (dry : daemon.Dry old) (here : daemon.control = .resting) :
    daemon.rest.Dry old := by
  have lastRctime := dry.lastRctime
  rw [here] at lastRctime
  rw [Daemon.rest]
  simp only [dry.flags, Bool.or_true, Bool.true_or, ↓reduceIte, Bool.and_true]
  split
  · next seed =>
    rw [if_pos seed] at lastRctime
    exact dry.assign seed rfl rfl rfl lastRctime
  · next plain =>
    rw [if_neg plain] at lastRctime
    refine ⟨dry.machine, dry.flags, rfl, dry.cache, ?_⟩
    simp [plain, lastRctime]

theorem Traceless.not_syncs {control : PollControl} (holds : daemon.Traceless stored)
    (here : daemon.control = control) (syncs : control.syncs = true) : False := by
  have up : control ≠ .stopped := by
    rintro rfl
    cases syncs
  obtain ⟨old, _, dry⟩ := holds.running (here ▸ up)
  exact dry.not_syncs here syncs

/-- Every move of a dry run keeps the timestamp, unless a signal finds the watermark
lowered. -/
theorem Traceless.of_move (holds : daemon.Traceless stored) (phase : daemon.Phase daemon.control)
    (allowed : dryRuns daemon choice) (move : Move tokenize capacity daemon choice next) :
    next.Traceless stored := by
  have kept := holds.kept
  have dry : ∀ {control}, daemon.control = control → control ≠ .stopped →
      ∃ old, stored = .ok old ∧ daemon.Dry old := fun here up => holds.running (here ▸ up)
  cases move with
  | start _ begun => exact traceless_of_begin kept allowed begun
  | assignSec here =>
      obtain ⟨old, found, dry⟩ := dry here (by simp)
      exact ⟨kept, fun _ => ⟨old, found, dry.assignSec here (here ▸ phase)⟩⟩
  | assignNsec here =>
      obtain ⟨old, found, dry⟩ := dry here (by simp)
      exact ⟨kept, fun _ => ⟨old, found, dry.assignNsec here (here ▸ phase)⟩⟩
  | check here =>
      obtain ⟨old, found, dry⟩ := dry here (by simp)
      exact dry.check here _ kept found
  | create here =>
      obtain ⟨old, found, dry⟩ := dry here (by simp)
      refine ⟨kept, fun _ => ⟨old, found, dry.go rfl rfl rfl rfl ?_⟩⟩
      rw [here]
      rfl
  | search here _ _ =>
      obtain ⟨old, found, dry⟩ := dry here (by simp)
      have control : ∀ fileList, (daemon.afterSearch fileList).control = .deleting := by
        intro fileList
        simp [afterSearch, dry.flags]
      refine ⟨kept, fun _ => ⟨old, found, dry.go rfl rfl ?_ rfl ?_⟩⟩
      · rw [control]
        rfl
      · rw [control, here]
        rfl
  | deleteSnap here =>
      obtain ⟨old, found, dry⟩ := dry here (by simp)
      have control : (if daemon.flags.dryRun then PollControl.resting
          else .update daemon.newRctime .flush) = .resting := if_pos dry.flags
      refine ⟨kept, fun _ => ⟨old, found, dry.go rfl rfl ?_ rfl ?_⟩⟩
      · simp only [control]
        rfl
      · simp only [control, here]
        rfl
  | rest here =>
      obtain ⟨old, found, dry⟩ := dry here (by simp)
      have same : timestamp daemon.rest.disk = stored := by rwa [rest_disk]
      exact ⟨same, fun _ => ⟨old, found, dry.rest here⟩⟩
  | close here =>
      obtain ⟨old, found, dry⟩ := dry here (by simp)
      have same := dry.lowered_iff.mpr (by simp [Lowered, PollControl.lowers, here])
      refine traceless_of_stopped ?_ rfl
      exact dry.timestamp_write.trans (found.trans (congrArg _ same.symm)).symm
  | signal up =>
      obtain ⟨old, found, dry⟩ := holds.running up
      have same := dry.lowered_iff.mpr allowed
      refine traceless_of_stopped ?_ rfl
      exact dry.timestamp_write.trans (found.trans (congrArg _ same.symm)).symm
  | launch here | sync here | synced here | syncFails here | flush here =>
      exact (holds.not_syncs here rfl).elim
  | createFails | noWorkers | searchFails | keepSnap | kill => exact traceless_of_stopped kept rfl

/-- A dry run has no step of `Syncer::sync`. -/
theorem Traceless.no_sync (holds : daemon.Traceless stored)
    (taken : daemon.step tokenize capacity choice = some next) :
    (∀ sorted, choice ≠ .launch sorted) ∧ ∀ call, choice ≠ .syncer call := by
  constructor
  · rintro sorted rfl
    cases moves_of_step taken with
    | launch here => exact holds.not_syncs here rfl
  · rintro call rfl
    cases moves_of_step taken with
    | sync here | synced here | syncFails here => exact holds.not_syncs here rfl

/-- Whether a signal that ends a dry run changes the timestamp. -/
theorem Traceless.signal_iff (holds : daemon.Traceless stored)
    (taken : daemon.step tokenize capacity .signal = some next) :
    timestamp next.disk = stored ↔ ¬ daemon.Lowered := by
  cases moves_of_step taken with
  | signal up =>
      obtain ⟨old, found, dry⟩ := holds.running up
      rw [← dry.lowered_iff, found]
      show timestamp daemon.writeRctime.disk = .ok old ↔ daemon.crawler.lastRctime = old
      rw [dry.timestamp_write, Except.ok.injEq]

/-- Whatever the file held when a dry run started, it holds it in every state of the run. -/
theorem traceless_of_run {origin : Daemon} {choices : List PollChoice}
    (stopped : origin.control = .stopped)
    (steps : (pollMachine tokenize capacity).Steps dryRuns origin choices daemon) :
    daemon.Traceless (timestamp origin.disk) := by
  have preserved : ∀ (state : Daemon) choice next,
      (state.Phase state.control ∧ state.Traceless (timestamp origin.disk)) →
      dryRuns state choice → (pollMachine tokenize capacity).step state choice = some next →
      next.Phase next.control ∧ next.Traceless (timestamp origin.disk) := by
    intro state choice next ⟨phase, holds⟩ allowed taken
    have move := moves_of_step taken
    exact ⟨phase_of_move phase move, holds.of_move phase allowed move⟩
  have start : origin.Phase origin.control := by
    rw [stopped]
    trivial
  exact (steps.preserves preserved ⟨start, traceless_of_stopped rfl stopped⟩).2

/-- Dry runs start no sync program, and the file holds what it held before them. A signal
that ends such a run changes the timestamp if and only if it finds the watermark
lowered. -/
theorem traceless_of_steps {origin : Daemon} {choices : List PollChoice}
    (stopped : origin.control = .stopped)
    (steps : (pollMachine tokenize capacity).Steps dryRuns origin choices daemon) :
    timestamp daemon.disk = timestamp origin.disk ∧
    (∀ choice next, daemon.step tokenize capacity choice = some next →
      (∀ sorted, choice ≠ .launch sorted) ∧ ∀ call, choice ≠ .syncer call) ∧
    (∀ next, daemon.step tokenize capacity .signal = some next →
      (timestamp next.disk = timestamp origin.disk ↔ ¬ daemon.Lowered)) := by
  have holds := traceless_of_run stopped steps
  refine ⟨holds.kept, ?_, ?_⟩
  · intro choice next taken
    exact holds.no_sync taken
  · intro next taken
    exact holds.signal_iff taken

/-- A dry run with `seed`, from its start. -/
def seededDryRun : List PollChoice :=
  [.start 42 polledConfig ⟨true, true, false, false⟩ 2097152 1024, .assign, .assign]

/-- Its iteration over a small tree, and its end. -/
def completedDryRun : List PollChoice :=
  seededDryRun ++ ([.check Search.smallTree, .create Search.smallTree, .search [],
    .deleteSnap true, .rest, .assign, .assign, .close] : List PollChoice)

/-- Completed, it leaves the timestamp 5.3 in the file. -/
theorem traceless_of_completedDryRun : ∃ daemon : Daemon,
    daemon.control = .stopped ∧ timestamp daemon.disk = .ok ⟨5, 3⟩ := by
  have executed : ((pollMachine plainTokens 4).run dryRuns (.initial (some "5.3\n".toList))
      completedDryRun).any (fun daemon => decide (daemon.control = .stopped)) = true := by
    decide +kernel
  obtain ⟨daemon, ran, ended⟩ := (Option.any_eq_true _ _).mp executed
  have kept := (traceless_of_steps rfl (Machine.steps_of_run ran)).1
  exact ⟨daemon, of_decide_eq_true ended, kept.trans (by decide +kernel)⟩

/-- Interrupted by a signal in its loop, it leaves the timestamp 1.0. -/
theorem changed_of_seededDryRun : ∃ daemon : Daemon,
    (pollMachine plainTokens 4).Steps Machine.unguarded (.initial (some "5.3\n".toList))
      (seededDryRun ++ [.signal]) daemon ∧
    timestamp (some "5.3\n".toList) = .ok ⟨5, 3⟩ ∧ daemon.control = .stopped ∧
    timestamp daemon.disk = .ok ⟨1, 0⟩ := by
  have executed : ((pollMachine plainTokens 4).run Machine.unguarded
      (.initial (some "5.3\n".toList)) (seededDryRun ++ [.signal])).any
        (fun daemon => decide (daemon.control = .stopped ∧
          timestamp daemon.disk = .ok ⟨1, 0⟩)) = true := by
    decide +kernel
  obtain ⟨daemon, ran, ended⟩ := (Option.any_eq_true _ _).mp executed
  obtain ⟨stopped, changed⟩ := of_decide_eq_true ended
  exact ⟨daemon, Machine.steps_of_run ran, by decide +kernel, stopped, changed⟩

end Daemon

end CephGeoRep
