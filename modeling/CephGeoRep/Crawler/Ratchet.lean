import CephGeoRep.Crawler.Replica

/-!
# The timestamp is never taken back

Without `seed` the watermark of a process only grows, and whatever is written to
`last_rctime.dat` is at least what the file held. So a file that was left out because of
its time stays left out: the iterations do not send again what an earlier one has sent
up to its watermark, and a run with `set_rctime` excludes for good what is older. Children
that an ended process leaves behind are not followed; one that has not reached `execvp` yet
could still write the watermark of its process.
-/

namespace CephGeoRep

open Semantics

/-- Every timestamp that the file has held, and every watermark that the process which
runs has had. A watermark counts when both members have been assigned. -/
structure Marks where
  stored : List Timespec
  reached : List Timespec
deriving DecidableEq

/-- Notes the timestamps. -/
def markObserver : Observer Daemon PollChoice Marks Empty where
  start daemon := ⟨(timestamp daemon.disk).toOption.toList, []⟩
  note _ choice next marks :=
    { stored := marks.stored ++ (timestamp next.disk).toOption.toList
      reached :=
        match choice with
        | .start .. => [next.crawler.lastRctime]
        | _ =>
          if next.control.between then marks.reached
          else marks.reached ++ [next.crawler.lastRctime] }
  see _ event _ := event.elim

/-- The runs without `seed`. The times are machine words. -/
def unseeded (_ : Observed Daemon Marks) : PollChoice ⊕ Empty → Prop
  | .inl (.start _ _ flags _ _) => flags.seed = false
  | .inl (.check base) => ∀ attributes ∈ base.top, attributes.stat.mtime.IsMachine
  | _ => True

instance (both : Observed Daemon Marks) : ∀ choice, Decidable (unseeded both choice)
  | .inl (.start _ _ flags _ _) => inferInstanceAs (Decidable (flags.seed = false))
  | .inl (.check base) => inferInstanceAs
      (Decidable (∀ attributes ∈ base.top, attributes.stat.mtime.IsMachine))
  | .inl (.create _) | .inl .assign | .inl .createFails | .inl (.search _) | .inl .searchFails
  | .inl (.launch _) | .inl (.syncer _) | .inl (.deleteSnap _) | .inl (.flush _) | .inl .rest
  | .inl .close | .inl .signal | .inl .kill => .isTrue trivial

/-- The search collects files that are newer than the watermark. -/
theorem Listing.newer_of_newFiles {crawler : Crawler} {snapRoot path : CString}
    {listing : Listing} {file : File} (member : file ∈ listing.newFiles crawler snapRoot path) :
    crawler.lastRctime < file.rctime := by
  induction listing generalizing path with
  | nil => cases member
  | entry name attributes children rest inner next =>
      rw [newFiles, List.mem_append] at member
      rcases member with here | later
      · split at here
        · exact inner here
        · split at here
          · next queued =>
            rw [List.mem_singleton.mp here]
            simp only [Crawler.queues, Bool.and_eq_true, Bool.not_eq_true'] at queued
            obtain ⟨passes, regular⟩ := queued
            rw [Crawler.ignoreEntry] at passes
            split at passes
            · next newer =>
              unfold isNewer getRctimeOfFile at newer
              rwa [if_neg (by rw [regular]; exact Bool.false_ne_true), Timespec.gt_iff] at newer
            · cases passes
          · cases here
      · exact next later

namespace Daemon

variable {tokenize : CString → CString → List CString} {capacity : Nat} {daemon next : Daemon}
  {choice : PollChoice} {marks : Marks}

/-- Where the watermark is whole it is the mark. -/
theorem mark_of_whole (whole : daemon.control.between = false)
    (up : daemon.control ≠ .stopped) : daemon.mark = daemon.crawler.lastRctime := by
  unfold mark
  cases control : daemon.control <;> simp_all [PollControl.between]

/-- A process without `seed`: the watermark is at least the timestamp on disk and at least
all earlier ones. -/
structure Onward (daemon : Daemon) (marks : Marks) : Prop where
  seed : daemon.flags.seed = false
  lastRctime : daemon.crawler.lastRctime.IsMachine
  newRctime : daemon.newRctime.IsMachine
  disk : ∃ held, timestamp daemon.disk = .ok held ∧ held ≤ daemon.mark
  reached : ∀ time ∈ marks.reached, time ≤ daemon.mark

/-- The timestamp on disk is at least all earlier ones, also when no process runs. -/
structure Ratchet (daemon : Daemon) (marks : Marks) : Prop where
  stored : ∀ time ∈ marks.stored, ∃ held, timestamp daemon.disk = .ok held ∧ time ≤ held
  running : daemon.control ≠ .stopped → daemon.Onward marks

/-- Between the two assignments the mark is the watermark that is being replaced. -/
theorem half_of_between (phase : daemon.Phase daemon.control)
    (seed : daemon.flags.seed = false) (between : daemon.control.between = true) :
    daemon.control = .updateNsec daemon.newRctime .flush ∧ daemon.mark = daemon.startRctime ∧
      daemon.startRctime < daemon.newRctime ∧
      daemon.crawler.lastRctime = ⟨daemon.newRctime.tvSec, daemon.startRctime.tvNsec⟩ := by
  cases control : daemon.control with
  | updateNsec newRctime after =>
      rw [control] at phase
      obtain ⟨rfl, rfl⟩ := flush_of_phase seed (.inr phase)
      exact ⟨rfl, by simp only [mark, control], phase.2⟩
  | _ => rw [control] at between; cases between

/-- What is in memory is at least the mark, also between the two assignments. -/
theorem mark_le_lastRctime (phase : daemon.Phase daemon.control)
    (seed : daemon.flags.seed = false) (up : daemon.control ≠ .stopped) :
    daemon.mark ≤ daemon.crawler.lastRctime := by
  cases between : daemon.control.between with
  | false => exact (mark_of_whole between up).le
  | true =>
      obtain ⟨_, mark, later, half⟩ := half_of_between phase seed between
      rw [mark, half]
      exact le_of_assigned later

/-- A step of a process does not lower the mark. -/
theorem mark_le_of_move (phase : daemon.Phase daemon.control) (seed : daemon.flags.seed = false)
    (move : Move tokenize capacity daemon choice next) (before : daemon.control ≠ .stopped)
    (after : next.control ≠ .stopped) : daemon.mark ≤ next.mark := by
  have whole : ∀ {control : PollControl}, daemon.control = control → control.between = false →
      next.control.between = false → next.crawler.lastRctime = daemon.crawler.lastRctime →
      daemon.mark ≤ next.mark := by
    rintro control rfl whole still same
    rw [mark_of_whole whole before, mark_of_whole still after, same]
  cases move with
  | start stopped _ => exact absurd stopped before
  | assignSec here =>
      have idle : daemon.control.between = false := by
        rw [here]
        rfl
      rw [here] at phase
      obtain ⟨rfl, rfl⟩ := flush_of_phase seed (.inl phase)
      rw [mark_of_whole idle before, phase.2.1.1]
      exact le_refl _
  | assignNsec here =>
      have between : daemon.control.between = true := by
        rw [here]
        rfl
      obtain ⟨known, mark, later, half⟩ := half_of_between phase seed between
      rw [here] at known
      cases known
      rw [mark, mark_of_whole rfl after]
      show daemon.startRctime ≤ ⟨daemon.crawler.lastRctime.tvSec, daemon.newRctime.tvNsec⟩
      rw [half]
      exact later.le
  | check here =>
      refine whole here rfl ?_ ?_
      · rw [check]
        split
        · next change newRctime _ => cases change <;> rfl
        · rfl
      · rw [check]
        split <;> rfl
  | search here _ _ =>
      refine whole here rfl ?_ rfl
      rcases daemon.afterSearch_control _ with control | control <;> rw [control] <;> rfl
  | deleteSnap here => exact whole here rfl (by dsimp only; split <;> rfl) rfl
  | @flush due here => exact whole here rfl rfl (by cases due <;> rfl)
  | rest here =>
      refine whole here rfl ?_ ?_
      · rw [rest, seed]
        simp only [Bool.false_and, Bool.false_eq_true, if_false]
        split <;> rfl
      · obtain ⟨control, equal⟩ := daemon.rest_eq
        rw [equal]
  | create here | launch here _ | synced here _ _ _ => exact whole here rfl rfl rfl
  | sync here _ _ _ => exact whole here rfl (by simp only [here]; rfl) rfl
  | close | createFails | noWorkers | searchFails | keepSnap | signal | kill | syncFails =>
      exact absurd rfl after

/-- What a step of a process writes is the watermark in memory, and the process ends with
it unless the watermark is whole. -/
theorem wrote_of_move (move : Move tokenize capacity daemon choice next)
    (before : daemon.control ≠ .stopped) :
    next.disk = daemon.disk ∨ next.disk = some (writeLastRctime daemon.crawler.lastRctime) ∧
      (next.control = .stopped ∨ daemon.control.between = false) := by
  have whole : ∀ {control : PollControl}, daemon.control = control → control.between = false →
      (next.disk = daemon.disk ∨
        next.disk = some (writeLastRctime daemon.crawler.lastRctime)) →
      next.disk = daemon.disk ∨ next.disk = some (writeLastRctime daemon.crawler.lastRctime) ∧
        (next.control = .stopped ∨ daemon.control.between = false) := by
    rintro control rfl whole wrote
    exact wrote.imp_right fun written => ⟨written, .inr whole⟩
  cases move with
  | start stopped _ => exact absurd stopped before
  | check here =>
      left
      rw [check]
      split <;> rfl
  | @flush due here =>
      refine whole here rfl ?_
      cases due with
      | false => exact .inl rfl
      | true => exact .inr rfl
  | rest _ => exact .inl daemon.rest_disk
  | sync here _ _ wrote | synced here _ _ wrote => exact whole here rfl wrote
  | syncFails _ _ _ wrote => exact wrote.imp_right fun written => ⟨written, .inl rfl⟩
  | close | signal => exact .inr ⟨rfl, .inl rfl⟩
  | _ => exact .inl rfl

/-- The timestamp on disk does not go back. -/
theorem Onward.held_le (onward : daemon.Onward marks)
    (above : daemon.mark ≤ daemon.crawler.lastRctime)
    (wrote : next.disk = daemon.disk ∨
      next.disk = some (writeLastRctime daemon.crawler.lastRctime)) :
    ∃ held held', timestamp daemon.disk = .ok held ∧ timestamp next.disk = .ok held' ∧
      held ≤ held' := by
  obtain ⟨held, found, le⟩ := onward.disk
  rcases wrote with same | written
  · exact ⟨held, held, found, same ▸ found, le_refl held⟩
  · refine ⟨held, _, found, ?_, le.trans above⟩
    rw [written]
    exact timestamp_writeLastRctime onward.lastRctime

/-- The watermark and `new_rctime` stay machine words, and the flags stay. -/
theorem machine_of_move (seed : daemon.flags.seed = false)
    (lastRctime : daemon.crawler.lastRctime.IsMachine) (newRctime : daemon.newRctime.IsMachine)
    (phase : daemon.Phase daemon.control) (allowed : unseeded ⟨daemon, marks⟩ (.inl choice))
    (move : Move tokenize capacity daemon choice next) (before : daemon.control ≠ .stopped) :
    next.flags.seed = false ∧ next.crawler.lastRctime.IsMachine ∧ next.newRctime.IsMachine := by
  cases move with
  | start stopped _ => exact absurd stopped before
  | assignSec here =>
      obtain ⟨rfl, rfl⟩ := flush_of_phase seed (.inl (here ▸ phase))
      exact ⟨seed, ⟨newRctime.1, lastRctime.2⟩, newRctime⟩
  | assignNsec here =>
      obtain ⟨rfl, rfl⟩ := flush_of_phase seed (.inr (here ▸ phase))
      exact ⟨seed, ⟨lastRctime.1, newRctime.2⟩, newRctime⟩
  | check here =>
      rw [check]
      split
      · next returned =>
        exact ⟨seed, lastRctime, isMachine_of_checkForChange newRctime allowed returned⟩
      · exact ⟨seed, lastRctime, newRctime⟩
  | @flush due _ => cases due <;> exact ⟨seed, lastRctime, newRctime⟩
  | rest _ =>
      obtain ⟨control, equal⟩ := daemon.rest_eq
      rw [equal]
      exact ⟨seed, lastRctime, newRctime⟩
  | _ => exact ⟨seed, lastRctime, newRctime⟩

theorem ratchet_of_begin {pid argMax envpSize} {config : Config} {flags : Flags}
    (holds : daemon.Ratchet marks) (seed : flags.seed = false)
    (begun : daemon.begin tokenize pid config flags argMax envpSize = some next) :
    next.Ratchet ⟨marks.stored ++ (timestamp next.disk).toOption.toList,
      [next.crawler.lastRctime]⟩ := by
  obtain ⟨lastRctime, content, read, rfl⟩ := eq_of_begin begun
  obtain ⟨machine, again⟩ := readLastRctime_again read
  have held : timestamp (some content) = .ok lastRctime := timestamp_of_read again
  refine ⟨fun time member => ⟨lastRctime, held, ?_⟩, fun _ => ?_⟩
  · rw [held] at member
    rcases List.mem_append.mp member with old | new
    · obtain ⟨before, found, le⟩ := holds.stored time old
      rw [timestamp_of_read read] at found
      cases found
      exact le
    · exact (List.mem_singleton.mp new).le
  · simp only [seed, Bool.false_and, Bool.false_eq_true, if_false]
    exact ⟨seed, machine, isMachine_zero, ⟨lastRctime, held, le_refl _⟩,
      fun time member => (List.mem_singleton.mp member).le⟩

/-- A step of a process keeps the ratchet. -/
theorem Ratchet.of_running (holds : daemon.Ratchet marks) (phase : daemon.Phase daemon.control)
    (allowed : unseeded ⟨daemon, marks⟩ (.inl choice))
    (move : Move tokenize capacity daemon choice next) (before : daemon.control ≠ .stopped) :
    next.Ratchet ⟨marks.stored ++ (timestamp next.disk).toOption.toList,
      if next.control.between then marks.reached
      else marks.reached ++ [next.crawler.lastRctime]⟩ := by
  have onward := holds.running before
  have above := mark_le_lastRctime phase onward.seed before
  have wrote := wrote_of_move move before
  obtain ⟨held, held', found, found', le⟩ :=
    onward.held_le above (wrote.imp_right And.left)
  have stored : ∀ time ∈ marks.stored ++ (timestamp next.disk).toOption.toList,
      ∃ held, timestamp next.disk = .ok held ∧ time ≤ held := by
    intro time member
    refine ⟨held', found', ?_⟩
    rw [found'] at member
    rcases List.mem_append.mp member with old | new
    · obtain ⟨earlier, there, below⟩ := holds.stored time old
      rw [found] at there
      cases there
      exact below.trans le
    · exact (List.mem_singleton.mp new).le
  refine ⟨stored, fun after => ?_⟩
  have higher := mark_le_of_move phase onward.seed move before after
  obtain ⟨seed, lastRctime, newRctime⟩ := machine_of_move onward.seed onward.lastRctime
    onward.newRctime phase allowed move before
  refine ⟨seed, lastRctime, newRctime, ⟨held', found', ?_⟩, fun time member => ?_⟩
  · rcases wrote with same | ⟨written, ended | whole⟩
    · obtain ⟨known, there, below⟩ := onward.disk
      rw [same, there] at found'
      cases found'
      exact below.trans higher
    · exact absurd ended after
    · rw [mark_of_whole whole before] at higher
      rw [written, timestamp_writeLastRctime onward.lastRctime] at found'
      cases found'
      exact higher
  · cases between : next.control.between with
    | true =>
        rw [between] at member
        exact (onward.reached time member).trans higher
    | false =>
        rw [between] at member
        rcases List.mem_append.mp member with old | new
        · exact (onward.reached time old).trans higher
        · rw [List.mem_singleton.mp new, mark_of_whole between after]

/-- Every move keeps the ratchet. -/
theorem Ratchet.of_move (holds : daemon.Ratchet marks) (phase : daemon.Phase daemon.control)
    (allowed : unseeded ⟨daemon, marks⟩ (.inl choice))
    (move : Move tokenize capacity daemon choice next) :
    next.Ratchet (markObserver.note daemon choice next marks) := by
  have up : ∀ {control : PollControl}, daemon.control = control → control ≠ .stopped →
      daemon.control ≠ .stopped := fun here running => here ▸ running
  have kept := move
  cases move with
  | start _ begun => exact ratchet_of_begin holds allowed begun
  | signal running | kill running => exact holds.of_running phase allowed kept running
  | assignSec here | assignNsec here | check here | create here | search here | launch here
  | sync here | synced here | syncFails here | deleteSnap here | flush here | rest here
  | close here | createFails here | noWorkers here | searchFails here | keepSnap here =>
      exact holds.of_running phase allowed kept (up here (by simp))

variable {both : Observed Daemon Marks}

theorem ratchet_invariant : (markObserver.watch (pollMachine tokenize capacity)).Invariant unseeded
    fun both => both.state.Ratchet both.record := by
  refine Observer.invariant ?_ ?_ fun _ event => event.elim
  · rintro _ ⟨disk, rfl⟩
    refine ⟨fun time member => ⟨time, ?_, le_refl time⟩, fun up => absurd rfl up⟩
    have member : time ∈ (timestamp disk).toOption.toList := member
    show timestamp disk = .ok time
    cases held : timestamp disk with
    | error thrown =>
        rw [held] at member
        cases member
    | ok first =>
        rw [held] at member
        rw [List.mem_singleton.mp member]
  · intro both choice next reachable holds allowed taken
    exact holds.of_move (phase_of_observed reachable rfl) allowed (moves_of_step taken)

/-- Without `seed` the timestamp on disk is at least every timestamp that the file has
held, over any number of processes and however they end. Every file that is given to
`Syncer::sync` is newer than all of them, and newer than every watermark the process has
had. -/
theorem ratchet_of_reachable
    (reachable : (markObserver.watch (pollMachine tokenize capacity)).Reachable unseeded both) :
    (∀ time ∈ both.record.stored,
      ∃ held, timestamp both.state.disk = .ok held ∧ time ≤ held) ∧
    (both.state.control = .launching ∨ both.state.control = .syncing →
      ∀ file ∈ both.state.fileList,
        (∀ time ∈ both.record.stored, time < file.rctime) ∧
        ∀ time ∈ both.record.reached, time < file.rctime) := by
  have holds := ratchet_invariant.of_reachable reachable
  refine ⟨holds.stored, fun here file member => ?_⟩
  have phase : both.state.Ahead ∧ Extensible both.state.snapPath ∧ both.state.Searched := by
    rcases here with launching | syncing
    · exact phase_of_observed reachable launching
    · exact phase_of_observed reachable syncing
  have up : both.state.control ≠ .stopped := by
    rcases here with here | here <;> simp [here]
  have whole : both.state.control.between = false := by
    rcases here with here | here <;> rw [here] <;> rfl
  have onward := holds.running up
  have newer : both.state.mark < file.rctime := by
    rw [mark_of_whole whole up, phase.1.1]
    exact Listing.newer_of_newFiles (phase.2.2.mem_iff.mp member)
  constructor
  · intro time listed
    obtain ⟨held, found, le⟩ := holds.stored time listed
    obtain ⟨known, there, below⟩ := onward.disk
    rw [there] at found
    cases found
    exact (le.trans below).trans_lt newer
  · intro time listed
    exact (onward.reached time listed).trans_lt newer

/-- A run with `set_rctime` over a small tree, and then one without it, up to the launch. A
file has been added in between. -/
def primedRun : List (PollChoice ⊕ Empty) :=
  let laterTree : Listing :=
    .entry "c".toList { stat := ⟨false, 5, ⟨9, 0⟩⟩, rctime := none } .nil Search.smallTree
  ([.start 42 polledConfig ⟨false, false, true, false⟩ 2097152 1024, .check Search.smallTree,
    .create Search.smallTree, .search [], .deleteSnap true, .assign, .assign, .flush false, .rest,
    .close, .start 43 polledConfig ⟨false, false, false, true⟩ 2097152 1024, .check laterTree,
    .create laterTree, .search []] : List PollChoice).map .inl

/-- Only the new file is sent. -/
theorem ratchet_of_primedRun : ∃ both : Observed Daemon Marks,
    both.state.fileList.map File.rctime = [⟨9, 0⟩] ∧ ⟨7, 0⟩ ∈ both.record.stored ∧
    ∀ file ∈ both.state.fileList, (⟨7, 0⟩ : Timespec) < file.rctime := by
  have executed : ((markObserver.watch (pollMachine plainTokens 4)).run unseeded
      ⟨.initial none, markObserver.start (.initial none)⟩ primedRun).any (fun both =>
        decide (both.state.control = .launching ∧ ⟨7, 0⟩ ∈ both.record.stored ∧
          both.state.fileList.map File.rctime = [⟨9, 0⟩])) = true := by
    decide +kernel
  obtain ⟨both, reachable, ended⟩ :=
    Machine.exists_of_run (by exact ⟨initial_valid _, rfl⟩) executed
  obtain ⟨launching, held, times⟩ := of_decide_eq_true ended
  exact ⟨both, times, held, fun file member =>
    ((ratchet_of_reachable reachable).2 (.inl launching) file member).1 _ held⟩

end Daemon

end CephGeoRep
