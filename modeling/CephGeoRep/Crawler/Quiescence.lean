import CephGeoRep.Crawler.Watermark

/-!
# Change detection and quiescence

`check_for_change` keeps the highest time it has seen in `new_rctime`, which survives
the iteration. As long as `new_rctime` is not past the watermark when the function is
entered, it ends as the maximum of the times of the entries, and the watermark moves to
that maximum: a second check of the same entries finds nothing.
-/

namespace CephGeoRep

open Semantics

/-- The times of the entries of a directory. -/
def rctimes (entries : List Attributes) : Set Timespec :=
  {rctime | ∃ entry ∈ entries, getRctime entry = .ok rctime}

section Check

variable {lastRctime newRctime : Timespec} {entries : List Attributes} {result : Bool × Timespec}

/-- An exception of `get_rctime` is the only way out of the loop. -/
theorem checkForChange_returns_iff (start : Bool × Timespec) :
    (∃ result, checkForChange lastRctime entries start = .ok result) ↔
      ∀ entry ∈ entries, ∃ rctime, getRctime entry = .ok rctime := by
  refine ⟨fun returned => ?_, fun readable => checkForChange_returns readable start⟩
  obtain ⟨result, returned⟩ := returned
  induction entries generalizing start with
  | nil => nofun
  | cons entry rest ih =>
      rw [checkForChange] at returned
      cases read : getRctime entry with
      | error thrown =>
          rw [read] at returned
          cases returned
      | ok rctime =>
          rw [read] at returned
          simp only at returned
          intro other member
          rcases List.mem_cons.mp member with rfl | later
          · exact ⟨rctime, read⟩
          · split at returned
            · exact ih _ returned other later
            · exact ih _ returned other later

theorem checkForChange_change
    (returned : checkForChange lastRctime entries (false, newRctime) = .ok result) :
    result.1 = true ↔ ∃ rctime ∈ rctimes entries, lastRctime < rctime := by
  rw [(checkForChange_spec returned).2.1]
  constructor
  · rintro (impossible | ⟨entry, member, rctime, read, newer⟩)
    · cases impossible
    · exact ⟨rctime, ⟨entry, member, read⟩, newer⟩
  · rintro ⟨rctime, ⟨entry, member, read⟩, newer⟩
    exact .inr ⟨entry, member, rctime, read, newer⟩

/-- Without a newer entry the accumulator is not touched. -/
theorem checkForChange_unchanged (start : Bool × Timespec)
    (old : ∀ rctime ∈ rctimes entries, rctime ≤ lastRctime)
    (returned : checkForChange lastRctime entries start = .ok result) : result = start := by
  induction entries with
  | nil =>
      cases returned
      rfl
  | cons entry rest ih =>
      rw [checkForChange] at returned
      cases read : getRctime entry with
      | error thrown =>
          rw [read] at returned
          cases returned
      | ok rctime =>
          have below := old rctime ⟨entry, List.mem_cons_self, read⟩
          rw [read] at returned
          simp only [Timespec.gt_iff, not_lt.mpr below, ↓reduceIte] at returned
          refine ih (fun other listed => ?_) returned
          obtain ⟨found, member, known⟩ := listed
          exact old other ⟨found, List.mem_cons_of_mem _ member, known⟩

/-- When the function returns false, no entry is newer and the accumulator is untouched. -/
theorem checkForChange_false {final : Timespec}
    (returned : checkForChange lastRctime entries (false, newRctime) = .ok (false, final)) :
    (∀ rctime ∈ rctimes entries, rctime ≤ lastRctime) ∧ final = newRctime := by
  have old : ∀ rctime ∈ rctimes entries, rctime ≤ lastRctime := by
    intro rctime member
    by_contra newer
    cases (checkForChange_change returned).mpr ⟨rctime, member, not_le.mp newer⟩
  exact ⟨old, congrArg Prod.snd (checkForChange_unchanged _ old returned)⟩

/-- When it returns true, the accumulator is later than the watermark and not before any
entry. -/
theorem checkForChange_true {final : Timespec}
    (returned : checkForChange lastRctime entries (false, newRctime) = .ok (true, final)) :
    lastRctime < final ∧ ∀ rctime ∈ rctimes entries, rctime ≤ final := by
  have later := lt_of_checkForChange returned
  refine ⟨later, fun rctime member => ?_⟩
  obtain ⟨entry, listed, read⟩ := member
  rcases le_or_gt rctime lastRctime with old | new
  · exact old.trans later.le
  · exact (checkForChange_spec returned).2.2.1 entry listed rctime read new

/-- With a newer entry the accumulator ends as the maximum, provided that it started no
later than the watermark. -/
theorem checkForChange_greatest {final : Timespec} (entry : newRctime ≤ lastRctime)
    (returned : checkForChange lastRctime entries (false, newRctime) = .ok (true, final)) :
    IsGreatest (rctimes entries) final ∧ lastRctime < final := by
  obtain ⟨later, above⟩ := checkForChange_true returned
  refine ⟨⟨?_, above⟩, later⟩
  rcases (checkForChange_spec returned).2.2.2 with same | source
  · exact absurd (same ▸ later) (not_lt.mpr entry)
  · exact source

/-- Once the watermark is the maximum, the same entries are no change. -/
theorem checkForChange_again {maximum : Timespec} (greatest : IsGreatest (rctimes entries) maximum)
    (readable : ∀ entry ∈ entries, ∃ rctime, getRctime entry = .ok rctime) :
    checkForChange maximum entries (false, maximum) = .ok (false, maximum) := by
  obtain ⟨result, returned⟩ := @checkForChange_returns maximum _ readable
    (false, maximum)
  rw [returned, checkForChange_unchanged _ (fun rctime member => greatest.2 member) returned]

end Check

/-- The runs with neither `seed` nor `dry_run` that start from a watermark of 0.0 or
later. -/
def fromZero (daemon : Daemon) : PollChoice → Prop
  | .start _ _ flags _ _ => flags.seed = false ∧ flags.dryRun = false ∧
      ∀ read ∈ (readLastRctime daemon.disk).toOption, Timespec.zero ≤ read.1
  | _ => True

instance (daemon : Daemon) : ∀ choice, Decidable (fromZero daemon choice)
  | .start _ _ flags _ _ => inferInstanceAs (Decidable (flags.seed = false ∧
      flags.dryRun = false ∧
      ∀ read ∈ (readLastRctime daemon.disk).toOption, Timespec.zero ≤ read.1))
  | .create _ | .check _ | .assign | .createFails | .search _ | .searchFails | .launch _
  | .syncer _ | .deleteSnap _ | .flush _ | .rest | .close | .signal | .kill => .isTrue trivial

namespace Daemon

/-- `new_rctime` is not past the watermark between two iterations. -/
def Settled (daemon : Daemon) : PollControl → Prop
  | .checking | .resting => daemon.newRctime ≤ daemon.crawler.lastRctime
  | _ => True

/-- The flags of the runs, and the condition on entry of `check_for_change`. -/
structure Quiet (daemon : Daemon) : Prop where
  flags : daemon.control ≠ .stopped → daemon.flags.seed = false ∧ daemon.flags.dryRun = false
  settled : daemon.Settled daemon.control

variable {tokenize : CString → CString → List CString} {capacity : Nat} {daemon next : Daemon}
  {choice : PollChoice}

theorem quiet_of_begin {pid argMax envpSize} {config : Config} {flags : Flags}
    (allowed : fromZero daemon (.start pid config flags argMax envpSize))
    (begun : daemon.begin tokenize pid config flags argMax envpSize = some next) :
    next.Quiet := by
  obtain ⟨seed, dryRun, zero⟩ := allowed
  obtain ⟨lastRctime, content, read, rfl⟩ := eq_of_begin begun
  refine ⟨fun _ => ⟨seed, dryRun⟩, ?_⟩
  simp only [seed, Bool.false_eq_true, ↓reduceIte]
  exact zero (lastRctime, content) (by rw [read]; rfl)

theorem settled_of_check (base : Listing) (settled : daemon.Settled .checking) :
    (daemon.check base).Settled (daemon.check base).control := by
  rw [check]
  split
  · next change newRctime returned =>
    cases change with
    | true => trivial
    | false =>
        rw [(checkForChange_false returned).2]
        exact settled
  · trivial

/-- Every move keeps the condition. -/
theorem Quiet.of_move (quiet : daemon.Quiet) (phase : daemon.Phase daemon.control)
    (allowed : fromZero daemon choice) (move : Move tokenize capacity daemon choice next) :
    next.Quiet := by
  obtain ⟨flags, settled⟩ := quiet
  cases move with
  | start _ begun => exact quiet_of_begin allowed begun
  | @assignSec newRctime after here => exact ⟨fun _ => flags (by simp [here]), trivial⟩
  | @assignNsec newRctime after here =>
      have plain := flags (by simp [here])
      obtain ⟨rfl, _⟩ := flush_of_phase plain.1 (.inr (here ▸ phase))
      exact ⟨fun _ => plain, trivial⟩
  | @check base here =>
      refine ⟨fun _ => ?_, settled_of_check base (here ▸ settled)⟩
      rw [check_flags]
      exact flags (by simp [here])
  | search here _ _ =>
      refine ⟨fun _ => flags (by simp [here]), ?_⟩
      rcases daemon.afterSearch_control _ with control | control
      · rw [control]
        trivial
      · rw [control]
        trivial
  | deleteSnap here =>
      have plain := flags (by simp [here])
      refine ⟨fun _ => plain, ?_⟩
      simp only [plain.2, Bool.false_eq_true, ↓reduceIte]
      trivial
  | @flush due here =>
      have plain := flags (by simp [here])
      rw [here] at phase
      cases due with
      | false => exact ⟨fun _ => plain, phase.1.ge⟩
      | true => exact ⟨fun _ => plain, phase.1.ge⟩
  | rest here =>
      have plain := flags (by simp [here])
      rw [here] at settled
      rw [Daemon.rest]
      simp only [plain.1, Bool.false_and, Bool.false_eq_true, ↓reduceIte]
      split
      · exact ⟨fun _ => plain, trivial⟩
      · exact ⟨fun _ => plain, settled⟩
  | create here | launch here _ | synced here _ _ _ =>
      exact ⟨fun _ => flags (by simp [here]), trivial⟩
  | sync here _ _ _ =>
      refine ⟨fun _ => flags (by simp [here]), ?_⟩
      simp only [here]
      trivial
  | syncFails | close | createFails | noWorkers | searchFails | keepSnap | signal | kill =>
      exact ⟨fun up => absurd rfl up, trivial⟩

theorem quiet_invariant : (pollMachine tokenize capacity).Invariant fromZero Quiet where
  initial := by
    rintro _ ⟨disk, rfl⟩
    exact ⟨fun up => absurd rfl up, trivial⟩
  preserved _ _ _ reachable quiet allowed taken :=
    quiet.of_move (phase_of_reachable reachable rfl) allowed (moves_of_step taken)

/-- The two assignments of `update` set the watermark to `new_rctime`, which is later. -/
theorem later_of_update {newRctime : Timespec} {after : AfterUpdate} {middle : Daemon}
    (quiet : daemon.Quiet) (phase : daemon.Phase daemon.control)
    (here : daemon.control = .update newRctime after)
    (first : daemon.step tokenize capacity .assign = some middle)
    (second : middle.step tokenize capacity .assign = some next) :
    daemon.crawler.lastRctime < next.crawler.lastRctime ∧
      next.crawler.lastRctime = daemon.newRctime := by
  have plain := quiet.flags (by simp [here])
  simp only [step, here] at first
  rw [← Option.some.inj first] at second
  simp only [step] at second
  rw [← Option.some.inj second]
  rw [here] at phase
  obtain ⟨rfl, rfl⟩ := flush_of_phase plain.1 (.inl phase)
  obtain ⟨_, ahead, _⟩ := phase
  exact ⟨ahead.1 ▸ ahead.2, rfl⟩

/-- `check_for_change` entered with `new_rctime` not past the watermark returns true if
and only if some entry is newer; then `new_rctime` is the maximum of the times of the
entries, later than the watermark, and after the update the same entries are no change;
otherwise `new_rctime` is what it was. Between two iterations the condition on entry
holds, and each update moves the watermark forward. -/
theorem quiescence_of_reachable
    (reachable : (pollMachine tokenize capacity).Reachable fromZero daemon) :
    (∀ entries (lastRctime newRctime : Timespec), newRctime ≤ lastRctime →
      ((∃ result, checkForChange lastRctime entries (false, newRctime) = .ok result) ↔
        ∀ entry ∈ entries, ∃ rctime, getRctime entry = .ok rctime) ∧
      ∀ change final,
        checkForChange lastRctime entries (false, newRctime) = .ok (change, final) →
        (change = true ↔ ∃ rctime ∈ rctimes entries, lastRctime < rctime) ∧
        (change = true → IsGreatest (rctimes entries) final ∧ lastRctime < final ∧
          checkForChange final entries (false, final) = .ok (false, final)) ∧
        (change = false → final = newRctime)) ∧
    (daemon.control = .checking → daemon.newRctime ≤ daemon.crawler.lastRctime) ∧
    (∀ newRctime after middle next, daemon.control = .update newRctime after →
      daemon.step tokenize capacity .assign = some middle →
      middle.step tokenize capacity .assign = some next →
      daemon.crawler.lastRctime < next.crawler.lastRctime ∧
        next.crawler.lastRctime = daemon.newRctime) := by
  have quiet := quiet_invariant.of_reachable reachable
  refine ⟨?_, ?_, ?_⟩
  · intro entries lastRctime newRctime entry
    refine ⟨checkForChange_returns_iff _, fun change final returned => ?_⟩
    have readable := (checkForChange_returns_iff _).mp ⟨_, returned⟩
    have changed := checkForChange_change returned
    refine ⟨changed, fun change => ?_, fun unchanged => ?_⟩
    · rw [change] at returned
      obtain ⟨greatest, later⟩ := checkForChange_greatest entry returned
      exact ⟨greatest, later, checkForChange_again greatest readable⟩
    · rw [unchanged] at returned
      exact (checkForChange_false returned).2
  · intro here
    have settled := quiet.settled
    rw [here] at settled
    exact settled
  · intro newRctime after middle next here first second
    exact later_of_update quiet (phase_of_reachable reachable rfl) here first second

/-- The update at the end of an iteration over a small tree. -/
theorem quiescence_of_polledRun : ∃ daemon : Daemon,
    daemon.control = .update ⟨7, 0⟩ .flush ∧ ∀ middle next,
      daemon.step plainTokens 4 .assign = some middle →
      middle.step plainTokens 4 .assign = some next →
      daemon.crawler.lastRctime < next.crawler.lastRctime := by
  have executed : ((pollMachine plainTokens 4).run fromZero (.initial none)
      (polledRun.take (polledRun.length - 2))).any
        (fun daemon => decide (daemon.control = .update ⟨7, 0⟩ .flush)) = true := by
    decide +kernel
  obtain ⟨daemon, reachable, ended⟩ := Machine.exists_of_run (initial_valid _) executed
  have here := of_decide_eq_true ended
  exact ⟨daemon, here, fun middle next first second =>
    ((quiescence_of_reachable reachable).2.2 _ _ middle next here first second).1⟩

end Daemon

end CephGeoRep
