import CephGeoRep.Crawler.Watermark

/-!
# Signals and the watermark

The handler writes the watermark that is in memory. Between the two assignments of
`LastRctime::update` that is the new second with the old nanosecond, which can be later
than the watermark before the update and than the one after it.
-/

namespace CephGeoRep

open Semantics

/-- Notes the watermarks whose iterations are behind their `Syncer::sync`, the one on
disk at the beginning included. -/
def completions : Observer Daemon PollChoice (List Timespec) Empty where
  start daemon := (timestamp daemon.disk).toOption.toList
  note daemon choice _ completed :=
    match choice with
    | .deleteSnap true =>
      if daemon.flags.dryRun then completed else completed ++ [daemon.newRctime]
    | _ => completed
  see _ event _ := event.elim

/-- In a call of `LastRctime::update`. -/
def PollControl.updates : PollControl → Bool
  | .update .. | .updateNsec .. => true
  | _ => false

/-- Between the two assignments of an update that lowers the nanoseconds of
`last_rctime_`. -/
def PollControl.lowersNsec (lastRctime : Timespec) : PollControl → Bool
  | .updateNsec newRctime _ => newRctime.tvNsec < lastRctime.tvNsec
  | _ => false

namespace Daemon

/-- Half updated, with the nanoseconds of the old watermark beside the new seconds. -/
def Mixed (daemon : Daemon) : Prop :=
  daemon.control.lowersNsec daemon.crawler.lastRctime = true

instance (daemon : Daemon) : Decidable daemon.Mixed :=
  inferInstanceAs (Decidable (daemon.control.lowersNsec daemon.crawler.lastRctime = true))

/-- Not newer than some completed watermark. -/
def Behind (completed : List Timespec) (time : Timespec) : Prop := ∃ last ∈ completed, time ≤ last

/-- A run without `seed`: the watermark is behind a completed one, except for the time
between the two assignments of an update to a completed one. -/
structure Sound (daemon : Daemon) (completed : List Timespec) : Prop where
  seed : daemon.flags.seed = false
  lastRctime : daemon.crawler.lastRctime.IsMachine
  newRctime : daemon.newRctime.IsMachine
  behind : (∀ newRctime after, daemon.control ≠ .updateNsec newRctime after) →
    Behind completed daemon.crawler.lastRctime
  target : ∀ newRctime after,
    daemon.control = .update newRctime after ∨ daemon.control = .updateNsec newRctime after →
    newRctime ∈ completed

end Daemon

/-- The runs without `seed` in which no signal arrives between the two assignments of an
update that lowers the nanoseconds. The times are machine words. -/
def wholeUpdates (both : Observed Daemon (List Timespec)) : PollChoice ⊕ Empty → Prop
  | .inl (.start _ _ flags _ _) => flags.seed = false
  | .inl (.check base) => ∀ attributes ∈ base.top, attributes.stat.mtime.IsMachine
  | .inl .signal => ¬ both.state.Mixed
  | _ => True

instance (both : Observed Daemon (List Timespec)) :
    ∀ choice, Decidable (wholeUpdates both choice)
  | .inl (.start _ _ flags _ _) => inferInstanceAs (Decidable (flags.seed = false))
  | .inl (.check base) => inferInstanceAs
      (Decidable (∀ attributes ∈ base.top, attributes.stat.mtime.IsMachine))
  | .inl .signal => inferInstanceAs (Decidable ¬ both.state.Mixed)
  | .inl (.create _) | .inl .assign | .inl .createFails | .inl (.search _) | .inl .searchFails
  | .inl (.launch _) | .inl (.syncer _) | .inl (.deleteSnap _) | .inl (.flush _) | .inl .rest
  | .inl .close | .inl .kill => .isTrue trivial

namespace Daemon

/-- The timestamp on disk is behind a completed watermark, and so is a process. -/
structure SignalSafe (daemon : Daemon) (completed : List Timespec) : Prop where
  stored : ∀ time, timestamp daemon.disk = .ok time → Behind completed time
  running : daemon.control ≠ .stopped → daemon.Sound completed

variable {tokenize : CString → CString → List CString} {capacity : Nat} {daemon next : Daemon}
  {choice : PollChoice} {completed : List Timespec}

theorem Behind.append {time : Timespec} (behind : Behind completed time) (more : List Timespec) :
    Behind (completed ++ more) time := by
  obtain ⟨last, member, le⟩ := behind
  exact ⟨last, List.mem_append_left _ member, le⟩

/-- What the handler writes unless it finds the watermark half updated. -/
theorem Sound.behind_of_whole (sound : daemon.Sound completed)
    (phase : daemon.Phase daemon.control) (whole : ¬ daemon.Mixed) :
    Behind completed daemon.crawler.lastRctime := by
  by_cases elsewhere : ∀ newRctime after, daemon.control ≠ .updateNsec newRctime after
  · exact sound.behind elsewhere
  · push Not at elsewhere
    obtain ⟨newRctime, after, here⟩ := elsewhere
    refine ⟨newRctime, sound.target _ _ (.inr here), ?_⟩
    rw [Mixed, here] at whole
    rw [here] at phase
    obtain ⟨rfl, rfl⟩ := flush_of_phase sound.seed (.inr phase)
    obtain ⟨_, _, half⟩ := phase
    rw [half, PollControl.lowersNsec, decide_eq_true_eq] at whole
    rw [half, ← not_lt, Timespec.lt_iff]
    simp only at whole ⊢
    omega

/-- Half updated, the watermark is later than the old one and than the new one. -/
theorem Sound.newer_of_mixed (sound : daemon.Sound completed)
    (phase : daemon.Phase daemon.control) (mixed : daemon.Mixed) :
    daemon.startRctime < daemon.crawler.lastRctime ∧
      daemon.newRctime < daemon.crawler.lastRctime := by
  rw [Mixed, PollControl.lowersNsec.eq_def] at mixed
  split at mixed
  · next newRctime after here =>
    rw [here] at phase
    rw [decide_eq_true_eq] at mixed
    obtain ⟨rfl, rfl⟩ := flush_of_phase sound.seed (.inr phase)
    obtain ⟨_, later, half⟩ := phase
    rw [half] at mixed ⊢
    rw [Timespec.lt_iff] at later
    simp only at mixed
    constructor
    · rw [Timespec.lt_iff]
      simp only
      omega
    · rw [Timespec.lt_iff]
      exact .inr ⟨rfl, mixed⟩
  · cases mixed

/-- The file after the watermark has been written. -/
theorem stored_of_write {disk : Option CString}
    (stored : ∀ time, timestamp daemon.disk = .ok time → Behind completed time)
    (machine : daemon.crawler.lastRctime.IsMachine)
    (behind : Behind completed daemon.crawler.lastRctime)
    (wrote : disk = daemon.disk ∨ disk = some (writeLastRctime daemon.crawler.lastRctime)) :
    ∀ time, timestamp disk = .ok time → Behind completed time := by
  rcases wrote with rfl | rfl
  · exact stored
  · intro time read
    rw [timestamp_writeLastRctime machine] at read
    exact Except.ok.inj read ▸ behind

theorem signalSafe_of_begin {pid argMax envpSize} {config : Config} {flags : Flags}
    (stored : ∀ time, timestamp daemon.disk = .ok time → Behind completed time)
    (seed : flags.seed = false)
    (begun : daemon.begin tokenize pid config flags argMax envpSize = some next) :
    next.SignalSafe completed := by
  obtain ⟨lastRctime, content, read, rfl⟩ := eq_of_begin begun
  obtain ⟨machine, again⟩ := readLastRctime_again read
  have behind := stored lastRctime (timestamp_of_read read)
  refine ⟨fun time found => ?_, fun _ => ⟨seed, machine, isMachine_zero, fun _ => behind, ?_⟩⟩
  · rw [timestamp_of_read again] at found
    exact Except.ok.inj found ▸ behind
  · simp [seed]

/-- A step outside of `update` that keeps both watermarks. -/
theorem Sound.go (sound : daemon.Sound completed) (outside : daemon.control.updates = false)
    (flags : next.flags = daemon.flags)
    (lastRctime : next.crawler.lastRctime = daemon.crawler.lastRctime)
    (newRctime : next.newRctime.IsMachine) (idle : next.control.updates = false) :
    next.Sound completed where
  seed := flags ▸ sound.seed
  lastRctime := lastRctime ▸ sound.lastRctime
  newRctime := newRctime
  behind _ := lastRctime ▸ sound.behind fun newRctime after here => by
    rw [here] at outside
    cases outside
  target newRctime after here := by
    rcases here with here | here <;> rw [here] at idle <;> cases idle

theorem signalSafe_of_stopped
    (stored : ∀ time, timestamp next.disk = .ok time → Behind completed time)
    (ended : next.control = .stopped) : next.SignalSafe completed :=
  ⟨stored, fun up => absurd ended up⟩

theorem signalSafe_of_check {base : Listing} (holds : daemon.SignalSafe completed)
    (here : daemon.control = .checking)
    (machine : ∀ attributes ∈ base.top, attributes.stat.mtime.IsMachine) :
    (daemon.check base).SignalSafe completed := by
  have sound := holds.running (by simp [here])
  rw [check]
  split
  · next change newRctime returned =>
    refine ⟨holds.stored, fun _ => sound.go (by rw [here]; rfl) rfl rfl ?_ ?_⟩
    · exact isMachine_of_checkForChange sound.newRctime machine returned
    · cases change <;> rfl
  · exact signalSafe_of_stopped holds.stored rfl

/-- Every move keeps the timestamp on disk behind a completed watermark, unless a signal
finds the watermark half updated. -/
theorem SignalSafe.of_move (holds : daemon.SignalSafe completed)
    (phase : daemon.Phase daemon.control) (allowed : wholeUpdates ⟨daemon, completed⟩ (.inl choice))
    (move : Move tokenize capacity daemon choice next) :
    next.SignalSafe (completions.note daemon choice next completed) := by
  obtain ⟨stored, running⟩ := holds
  have sound : ∀ {control}, daemon.control = control → control ≠ .stopped →
      daemon.Sound completed := fun here up => running (here ▸ up)
  have behind : ∀ {control}, daemon.control = control → control ≠ .stopped →
      control.updates = false → Behind completed daemon.crawler.lastRctime := by
    rintro control here up idle
    refine (sound here up).behind fun newRctime after there => ?_
    rw [← here, there] at idle
    cases idle
  cases move with
  | start _ begun => exact signalSafe_of_begin stored allowed begun
  | @assignSec newRctime after here =>
      have sound := sound here (by simp)
      obtain ⟨rfl, rfl⟩ := flush_of_phase sound.seed (.inl (here ▸ phase))
      have target := sound.target _ _ (.inl here)
      refine ⟨stored, fun _ => ⟨sound.seed, ⟨sound.newRctime.1, sound.lastRctime.2⟩,
        sound.newRctime, fun elsewhere => absurd rfl (elsewhere _ _), ?_⟩⟩
      rintro newRctime after (here | here) <;> cases here
      exact target
  | @assignNsec newRctime after here =>
      have sound := sound here (by simp)
      obtain ⟨rfl, rfl⟩ := flush_of_phase sound.seed (.inr (here ▸ phase))
      have target := sound.target _ _ (.inr here)
      rw [here] at phase
      have whole : (⟨daemon.crawler.lastRctime.tvSec, daemon.newRctime.tvNsec⟩ : Timespec) =
          daemon.newRctime := by
        rw [phase.2.2]
      refine ⟨stored, fun _ => ⟨sound.seed, ⟨sound.lastRctime.1, sound.newRctime.2⟩,
        sound.newRctime, fun _ => ⟨_, target, whole.le⟩, ?_⟩⟩
      rintro newRctime after (here | here) <;> cases here
  | check here => exact signalSafe_of_check ⟨stored, running⟩ here allowed
  | create here | launch here _ =>
      have sound := sound here (by simp)
      exact ⟨stored, fun _ => sound.go (by rw [here]; rfl) rfl rfl sound.newRctime rfl⟩
  | search here _ _ =>
      have sound := sound here (by simp)
      refine ⟨stored, fun _ => sound.go (by rw [here]; rfl) rfl rfl sound.newRctime ?_⟩
      rcases daemon.afterSearch_control _ with control | control
      · rw [control]
        rfl
      · rw [control]
        rfl
  | sync here _ _ wrote =>
      have sound' := sound here (by simp)
      have written := stored_of_write stored sound'.lastRctime (behind here (by simp) rfl) wrote
      refine ⟨written, fun _ => sound'.go (by rw [here]; rfl) rfl rfl sound'.newRctime ?_⟩
      simp only [here]
      rfl
  | synced here _ _ wrote =>
      have sound' := sound here (by simp)
      have written := stored_of_write stored sound'.lastRctime (behind here (by simp) rfl) wrote
      exact ⟨written, fun _ => sound'.go (by rw [here]; rfl) rfl rfl sound'.newRctime rfl⟩
  | syncFails here _ _ wrote =>
      exact signalSafe_of_stopped (stored_of_write stored (sound here (by simp)).lastRctime
        (behind here (by simp) rfl) wrote) rfl
  | deleteSnap here =>
      have sound' := sound here (by simp)
      have before := behind here (by simp) rfl
      rw [completions]
      simp only
      cases dryRun : daemon.flags.dryRun with
      | true =>
          refine ⟨stored, fun _ => sound'.go (by rw [here]; rfl) rfl rfl sound'.newRctime ?_⟩
          simp [PollControl.updates]
      | false =>
          refine ⟨fun time read => (stored time read).append _, fun _ => ⟨sound'.seed,
            sound'.lastRctime, sound'.newRctime, fun _ => before.append _, ?_⟩⟩
          rintro newRctime after (here | here) <;> cases here
          simp
  | @flush due here =>
      have sound' := sound here (by simp)
      have before := behind here (by simp) rfl
      cases due with
      | false => exact ⟨stored, fun _ => sound'.go (by rw [here]; rfl) rfl rfl sound'.newRctime rfl⟩
      | true =>
          exact ⟨stored_of_write stored sound'.lastRctime before (.inr rfl),
            fun _ => sound'.go (by rw [here]; rfl) rfl rfl sound'.newRctime rfl⟩
  | rest here =>
      have sound' := sound here (by simp)
      rw [Daemon.rest]
      simp only [sound'.seed, Bool.false_and, Bool.false_eq_true, ↓reduceIte]
      split
      · exact ⟨stored, fun _ => sound'.go (by rw [here]; rfl) rfl rfl sound'.newRctime rfl⟩
      · exact ⟨stored, fun _ => sound'.go (by rw [here]; rfl) rfl rfl sound'.newRctime rfl⟩
  | close here =>
      exact signalSafe_of_stopped (stored_of_write stored (sound here (by simp)).lastRctime
        (behind here (by simp) rfl) (.inr rfl)) rfl
  | signal up =>
      have sound' := running up
      exact signalSafe_of_stopped (stored_of_write stored sound'.lastRctime
        (sound'.behind_of_whole phase allowed) (.inr rfl)) rfl
  | createFails | noWorkers | searchFails | keepSnap | kill =>
      exact signalSafe_of_stopped stored rfl

variable {both : Observed Daemon (List Timespec)}

/-- Every timestamp that reaches the disk is behind a completed watermark. -/
theorem signalSafe_invariant : (completions.watch (pollMachine tokenize capacity)).Invariant
    wholeUpdates fun both => both.state.SignalSafe both.record := by
  refine Observer.invariant ?_ ?_ fun _ event => event.elim
  · rintro _ ⟨disk, rfl⟩
    refine signalSafe_of_stopped (fun time read => ⟨time, ?_, le_refl time⟩) rfl
    simp [completions, show timestamp (initial disk).disk = .ok time from read, Except.toOption]
  · intro both choice next reachable holds allowed taken
    exact holds.of_move (phase_of_observed reachable rfl) allowed (moves_of_step taken)

/-- Without `seed`, and as long as no signal arrives between the two assignments of an
update that lowers the nanoseconds, the timestamp on disk is never newer than the newest
completed watermark. There the handler writes a timestamp that is newer than the
watermark before the update and than the one after it, and nowhere else. -/
theorem signalSafe_of_reachable
    (reachable : (completions.watch (pollMachine tokenize capacity)).Reachable wholeUpdates both) :
    (∀ time, timestamp both.state.disk = .ok time → Behind both.record time) ∧
    (∀ next, both.state.step tokenize capacity .signal = some next →
      timestamp next.disk = .ok both.state.crawler.lastRctime ∧
      (¬ both.state.Mixed → Behind both.record both.state.crawler.lastRctime) ∧
      (both.state.Mixed → both.state.startRctime < both.state.crawler.lastRctime ∧
        both.state.newRctime < both.state.crawler.lastRctime)) := by
  have holds := signalSafe_invariant.of_reachable reachable
  refine ⟨holds.stored, fun next taken => ?_⟩
  have phase := phase_of_observed reachable rfl
  cases moves_of_step taken with
  | signal up =>
      have sound := holds.running up
      exact ⟨timestamp_writeLastRctime sound.lastRctime, sound.behind_of_whole phase,
        sound.newer_of_mixed phase⟩

/-- A signal behind the update of a small tree. -/
theorem signalSafe_of_polledRun : ∃ both : Observed Daemon (List Timespec),
    timestamp both.state.disk = .ok ⟨7, 0⟩ ∧ Behind both.record ⟨7, 0⟩ := by
  have executed : ((completions.watch (pollMachine plainTokens 4)).run wholeUpdates
      ⟨.initial none, [.zero]⟩ ((polledRun ++ [PollChoice.signal]).map .inl)).any
        (fun both => decide (timestamp both.state.disk = .ok ⟨7, 0⟩)) = true := by
    decide +kernel
  have valid : (completions.watch (pollMachine plainTokens 4)).Initial ⟨.initial none, [.zero]⟩ :=
    ⟨⟨none, rfl⟩, by decide +kernel⟩
  obtain ⟨both, reachable, ended⟩ := Machine.exists_of_run valid executed
  have written := of_decide_eq_true ended
  exact ⟨both, written, (signalSafe_of_reachable reachable).1 _ written⟩

/-- An iteration from the watermark 5.9 to the watermark 7.0, up to a signal between the
two assignments of the update. -/
def signalledRun : List PollChoice :=
  let snapPath := createSnapPath polledConfig.basePath 42 ⟨7, 0⟩
  let files := Search.smallTree.newFiles ⟨polledConfig, ⟨5, 9⟩⟩ snapPath snapPath
  ([.start 42 polledConfig ⟨false, false, false, false⟩ 2097152 1024, .check Search.smallTree,
    .create Search.smallTree, .search [], .launch files, .syncer (.fork 11)] : List PollChoice) ++
  (childExits 0 0).map .syncer ++
  ([.syncer (.wait 0 true), .syncer .afterRound, .deleteSnap true, .assign, .signal] :
    List PollChoice)

/-- The handler writes 7.9, which no iteration has completed. -/
theorem newer_of_signalledRun : ∃ both : Observed Daemon (List Timespec),
    (completions.watch (pollMachine plainTokens 4)).Reachable Machine.unguarded both ∧
    both.state.control = .stopped ∧ timestamp both.state.disk = .ok ⟨7, 9⟩ ∧
    ∀ last ∈ both.record, last < ⟨7, 9⟩ := by
  have executed : ((completions.watch (pollMachine plainTokens 4)).run Machine.unguarded
      ⟨.initial (some "5.9\n".toList), [⟨5, 9⟩]⟩ (signalledRun.map .inl)).any
        (fun both => decide (both.state.control = .stopped ∧
          timestamp both.state.disk = .ok ⟨7, 9⟩ ∧ ∀ last ∈ both.record, last < ⟨7, 9⟩)) =
        true := by
    decide +kernel
  have valid : (completions.watch (pollMachine plainTokens 4)).Initial
      ⟨.initial (some "5.9\n".toList), [⟨5, 9⟩]⟩ :=
    ⟨⟨_, rfl⟩, by decide +kernel⟩
  obtain ⟨both, reachable, ended⟩ := Machine.exists_of_run valid executed
  exact ⟨both, reachable, of_decide_eq_true ended⟩

end Daemon

end CephGeoRep
