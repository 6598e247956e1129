import CephGeoRep.Crawler.Watermark

/-!
# The snapshots that daemons leave behind

`create_snap` makes a directory in `.snap`, and `delete_snap` removes it at the end of
the iteration, from `l::exit` or from the signal handler. A process that is killed, or
that cannot remove its snapshot, leaves it there for good. `Snapshots` follows the
directories over any number of processes: there is never more than one beside those
left behind, and where no pid comes twice no name does either, so `create_snap`, which
takes an existing directory for a new one, never finds an old snapshot in its place.
-/

namespace CephGeoRep

open Semantics

/-- The names of snapshots under one base directory differ. -/
theorem createSnapPath_injective {basePath : CString} {pid other : Nat} {rctime time : Timespec}
    (same : createSnapPath basePath pid rctime = createSnapPath basePath other time) :
    pid = other ∧ rctime = time := by
  have noLetter : ∀ number, 's' ∉ Nat.toDigits 10 number := fun number member =>
    absurd (isDigit_toDigits number _ member) (by decide)
  have noPoint : ∀ value, '.' ∉ showInt value := fun value =>
    not_mem_showInt value (by decide) (by decide)
  have names : Nat.toDigits 10 pid ++ 's' ::
        ("napshot".toList ++ (showInt rctime.tvSec ++ '.' :: showInt rctime.tvNsec)) =
      Nat.toDigits 10 other ++ 's' ::
        ("napshot".toList ++ (showInt time.tvSec ++ '.' :: showInt time.tvNsec)) := by
    unfold createSnapPath fsAppend at same
    split at same
    · simpa using same
    · simpa using same
  have pids := congrArg (List.takeWhile (· ≠ 's')) names
  rw [Support.takeWhile_ne_append (noLetter pid), Support.takeWhile_ne_append (noLetter other)]
    at pids
  rw [pids, List.append_cancel_left_eq, List.cons.injEq, List.append_cancel_left_eq] at names
  have seconds := congrArg (List.takeWhile (· ≠ '.')) names.2
  rw [Support.takeWhile_ne_append (noPoint _), Support.takeWhile_ne_append (noPoint _)] at seconds
  have nanoseconds := names.2
  rw [seconds, List.append_cancel_left_eq, List.cons.injEq] at nanoseconds
  have numbers := congrArg (Nat.ofDigitChars 10 · 0) pids
  simp only [Nat.ofDigitChars_ten_toDigits] at numbers
  exact ⟨numbers, congrArg₂ Timespec.mk (showInt_injective seconds)
    (showInt_injective nanoseconds.2)⟩

/-- The snapshots of all processes. -/
structure Snapshots where
  /-- The directories that exist. -/
  existing : List CString
  /-- `snap_path_` of the process that runs, empty before its first snapshot. -/
  snapPath : CString
  /-- Whose snapshots, and what for, the latest first. -/
  made : List (Nat × Timespec)
  pids : List Nat
  /-- Whether `fs::remove` succeeds when a process ends with `delete_snap`. -/
  removable : Bool
  /-- The processes that have ended without removing their snapshot. -/
  leftBehind : Nat

/-- Between `create_snap` and the end of `delete_snap`. -/
def PollControl.works : PollControl → Bool
  | .searching | .launching | .syncing | .deleting => true
  | .stopped | .update .. | .updateNsec .. | .checking | .creating | .flushing | .resting
  | .closing => false

namespace Snapshots

/-- `fs::remove` succeeds, also where there is nothing to remove. -/
def remove (record : Snapshots) : Snapshots :=
  { record with existing := record.existing.erase record.snapPath }

/-- The process ends and does not remove its snapshot. -/
def leave (record : Snapshots) (control : PollControl) : Snapshots :=
  { record with leftBehind := record.leftBehind + if control.works then 1 else 0 }

/-- The process ends behind a call of `delete_snap`. -/
def cleanup (record : Snapshots) (control : PollControl) : Snapshots :=
  if record.removable then record.remove else record.leave control

/-- A step that may lead to `l::exit`. -/
def mayExit (record : Snapshots) (control after : PollControl) : Snapshots :=
  if after = .stopped then record.cleanup control else record

/-- A child in `sig_hdlr` removes the snapshot as well. -/
def syncer (record : Snapshots) (control after : PollControl) : Choice → Snapshots
  | .child _ (.handle true) => record.remove
  | _ => record.mayExit control after

end Snapshots

/-- Follows the snapshots; the event changes what can be removed. -/
def snapshots : Observer Daemon PollChoice Snapshots Bool where
  start _ := ⟨[], [], [], [], true, 0⟩
  note daemon choice next record :=
    match choice with
    | .start pid .. => { record with snapPath := [], pids := pid :: record.pids }
    | .create _ =>
      { record with
        existing := record.existing.insert next.snapPath
        snapPath := next.snapPath
        made := (daemon.pid, daemon.newRctime) :: record.made }
    | .deleteSnap true => record.remove
    | .deleteSnap false | .kill => record.leave daemon.control
    | .searchFails | .signal => record.cleanup daemon.control
    | .search _ => record.mayExit daemon.control next.control
    | .syncer call => record.syncer daemon.control next.control call
    | .assign | .check _ | .createFails | .launch _ | .flush _ | .rest | .close => record
  see _ removable record := some { record with removable := removable }

variable {tokenize : CString → CString → List CString} {capacity : Nat} {daemon next : Daemon}
  {choice : PollChoice} {record : Snapshots} {control after : PollControl}

/-! ## How many there are -/

namespace Snapshots

/-- All but the snapshot of the running iteration have been left behind. -/
structure Counted (control : PollControl) (record : Snapshots) : Prop where
  once : record.existing.Nodup
  others : (record.existing.erase record.snapPath).length ≤ record.leftBehind
  all : control.works = false → record.existing.length ≤ record.leftBehind

/-- There is at most one more. -/
theorem Counted.length_le (counted : record.Counted control) :
    record.existing.length ≤ record.leftBehind + 1 := by
  have others := counted.others
  rw [List.length_erase] at others
  split at others <;> omega

/-- The daemon goes on, and the snapshots stay as they are. -/
theorem Counted.keep (counted : record.Counted control) (works : after.works = control.works) :
    record.Counted after :=
  ⟨counted.once, counted.others, fun idle => counted.all (works ▸ idle)⟩

theorem Counted.remove (counted : record.Counted control) : record.remove.Counted after where
  once := counted.once.erase _
  others := (List.length_erase_le).trans counted.others
  all _ := counted.others

theorem Counted.leave (counted : record.Counted control) :
    (record.leave control).Counted after where
  once := counted.once
  others := counted.others.trans (Nat.le_add_right ..)
  all _ := by
    show record.existing.length ≤ record.leftBehind + if control.works then 1 else 0
    split
    · exact counted.length_le
    · next idle => exact counted.all (Bool.eq_false_iff.mpr idle)

theorem Counted.cleanup (counted : record.Counted control) :
    (record.cleanup control).Counted after := by
  rw [Snapshots.cleanup]
  split
  · exact counted.remove
  · exact counted.leave

/-- A new snapshot, or an old one in its place. -/
theorem Counted.create (counted : record.Counted .creating) (snapPath : CString)
    (made : List (Nat × Timespec)) :
    Snapshots.Counted .searching { record with
      existing := record.existing.insert snapPath, snapPath := snapPath, made := made } where
  once := counted.once.insert
  others := by
    have all := counted.all rfl
    show ((record.existing.insert snapPath).erase snapPath).length ≤ record.leftBehind
    by_cases member : snapPath ∈ record.existing
    · rw [List.insert_of_mem member]
      exact (List.length_erase_le).trans all
    · rw [List.insert_of_not_mem member, List.erase_cons_head]
      exact all
  all works := by cases works

/-- A new process has no snapshot yet. -/
theorem Counted.start (counted : record.Counted .stopped) (pids : List Nat) :
    Snapshots.Counted control { record with snapPath := [], pids := pids } where
  once := counted.once
  others := (List.length_erase_le).trans (counted.all rfl)
  all _ := counted.all rfl

theorem Counted.mayExit (counted : record.Counted control)
    (leads : after = .stopped ∨ after.works = control.works) :
    (record.mayExit control after).Counted after := by
  rw [Snapshots.mayExit]
  split
  · exact counted.cleanup
  · next running => exact counted.keep (leads.resolve_left running)

theorem Counted.syncer (counted : record.Counted control)
    (leads : after = .stopped ∨ after.works = control.works) (call : Choice) :
    (record.syncer control after call).Counted after := by
  unfold Snapshots.syncer
  split
  · exact counted.remove
  · exact counted.mayExit leads

/-- Every step of a daemon keeps the count. -/
theorem Counted.of_move (counted : record.Counted daemon.control)
    (move : Daemon.Move tokenize capacity daemon choice next) :
    (snapshots.note daemon choice next record).Counted next.control := by
  cases move with
  | start stopped => exact (stopped ▸ counted).start _
  | create here => exact (here ▸ counted).create _ _
  | deleteSnap => exact counted.remove
  | keepSnap | kill => exact counted.leave
  | searchFails | signal => exact counted.cleanup
  | noWorkers => exact counted.mayExit (.inl rfl)
  | @search schedule result here =>
      refine counted.mayExit (.inr ?_)
      rcases daemon.afterSearch_control result.1 with control | control
      · rw [control, here]
        rfl
      · rw [control, here]
        rfl
  | sync => exact counted.syncer (.inr rfl) _
  | synced here => exact counted.syncer (.inr (by rw [here]; rfl)) _
  | syncFails => exact counted.syncer (.inl rfl) _
  | @check base here =>
      apply counted.keep
      rw [Daemon.check, here]
      split
      · next change _ _ => cases change <;> rfl
      · rfl
  | rest here =>
      apply counted.keep
      rw [Daemon.rest, here]
      split
      · split <;> rfl
      · rfl
  | @assignNsec newRctime after here =>
      apply counted.keep
      rw [here]
      cases after <;> rfl
  | assignSec here | launch here | flush here | close here | createFails here =>
      exact counted.keep (by rw [here]; rfl)

theorem counted_invariant {guard : Machine.Guard (Observed Daemon Snapshots) (PollChoice ⊕ Bool)} :
    (snapshots.watch (pollMachine tokenize capacity)).Invariant guard
      fun both => both.record.Counted both.state.control := by
  apply Observer.invariant
  · rintro _ ⟨disk, rfl⟩
    exact ⟨List.nodup_nil, Nat.le_refl 0, fun _ => Nat.le_refl 0⟩
  · rintro ⟨daemon, record⟩ choice next - counted - taken
    exact counted.of_move (Daemon.moves_of_step taken)
  · rintro ⟨daemon, record⟩ removable seen - counted - noted
    rw [← Option.some.inj noted]
    exact ⟨counted.once, counted.others, counted.all⟩

end Snapshots

/-- However often daemons have been started and ended, at most one snapshot exists beside
those that processes have left behind, and none between two iterations; it is the one of
the process that runs. -/
theorem leftBehind_of_reachable
    {guard : Machine.Guard (Observed Daemon Snapshots) (PollChoice ⊕ Bool)}
    {both : Observed Daemon Snapshots}
    (reachable : (snapshots.watch (pollMachine tokenize capacity)).Reachable guard both) :
    both.record.existing.Nodup ∧
    both.record.existing.length ≤
      both.record.leftBehind + (if both.state.control.works then 1 else 0) ∧
    (both.record.existing.erase both.record.snapPath).length ≤ both.record.leftBehind := by
  have counted := Snapshots.counted_invariant.of_reachable reachable
  refine ⟨counted.once, ?_, counted.others⟩
  split
  · exact counted.length_le
  · next idle => exact counted.all (Bool.eq_false_iff.mpr idle)

/-! ## How they are named -/

namespace Daemon

/-- How the time of an earlier snapshot of the process relates to the iteration. -/
def Recent (daemon : Daemon) (rctime : Timespec) : PollControl → Prop
  | .checking | .creating => rctime ≤ daemon.crawler.lastRctime
  | .searching | .launching | .syncing | .deleting | .flushing | .update _ .flush
  | .updateNsec _ .flush => rctime ≤ daemon.newRctime
  | .resting => daemon.flags.dryRun = false → rctime ≤ daemon.crawler.lastRctime
  | .update _ .loop | .updateNsec _ .loop => False
  | .update _ .close | .updateNsec _ .close | .closing | .stopped => True

theorem recent_of_check {rctime : Timespec} (recent : daemon.Recent rctime .checking)
    (base : Listing) : (daemon.check base).Recent rctime (daemon.check base).control := by
  rw [check]
  split
  · next change _ _ =>
    cases change with
    | true => exact recent
    | false => exact fun _ => recent
  · trivial

theorem recent_of_rest {rctime : Timespec} (recent : daemon.Recent rctime .resting) :
    daemon.rest.Recent rctime daemon.rest.control := by
  rw [rest]
  split
  · split
    · trivial
    · trivial
  · next goesOn =>
    apply recent
    simp only [Bool.or_eq_true, not_or] at goesOn
    exact Bool.eq_false_iff.mpr goesOn.1.2

/-- The watermark has got past the snapshots of the process at every check. -/
theorem Recent.of_move {rctime : Timespec} (recent : daemon.Recent rctime daemon.control)
    (phase : daemon.Phase daemon.control) (move : Move tokenize capacity daemon choice next)
    (running : daemon.control ≠ .stopped) : next.Recent rctime next.control := by
  cases move with
  | start stopped => exact absurd stopped running
  | @assignSec newRctime after here =>
      rw [here] at recent
      cases after <;> exact recent
  | @assignNsec newRctime after here =>
      rw [here] at recent
      cases after with
      | loop => exact recent.elim
      | flush => exact recent
      | close => trivial
  | check here => exact recent_of_check (here ▸ recent) _
  | create here =>
      rw [here] at recent phase
      exact recent.trans (phase.1 ▸ phase.2.le)
  | @search schedule result here =>
      rw [here] at recent
      rcases daemon.afterSearch_control result.1 with control | control
      · rw [control]
        exact recent
      · rw [control]
        exact recent
  | launch here | synced here =>
      rw [here] at recent
      exact recent
  | sync here =>
      rw [here] at recent
      simp only [here]
      exact recent
  | deleteSnap here =>
      rw [here] at recent
      simp only
      split
      · next dry => exact fun wet => absurd (dry.symm.trans wet) (by simp)
      · exact recent
  | @flush due here =>
      rw [here] at recent phase
      intro _
      cases due <;> exact phase.1 ▸ recent
  | rest here => exact recent_of_rest (here ▸ recent)
  | close | createFails | noWorkers | searchFails | keepSnap | signal | kill | syncFails =>
      trivial

/-- No step but the start of a process changes its pid and its configuration. -/
theorem identity_of_move (move : Move tokenize capacity daemon choice next)
    (running : daemon.control ≠ .stopped) :
    next.pid = daemon.pid ∧ next.crawler.config = daemon.crawler.config := by
  cases move with
  | start stopped => exact absurd stopped running
  | check here =>
      rw [check]
      split <;> exact ⟨rfl, rfl⟩
  | rest here =>
      obtain ⟨control, equal⟩ := daemon.rest_eq
      rw [equal]
      exact ⟨rfl, rfl⟩
  | @flush due here => cases due <;> exact ⟨rfl, rfl⟩
  | _ => exact ⟨rfl, rfl⟩

end Daemon

/-- No pid comes twice, and all processes watch the same directory. -/
def distinctPids (basePath : CString) (both : Observed Daemon Snapshots) :
    PollChoice ⊕ Bool → Prop
  | .inl (.start pid config ..) => pid ∉ both.record.pids ∧ config.basePath = basePath
  | _ => True

instance (basePath : CString) (both : Observed Daemon Snapshots) :
    ∀ choice, Decidable (distinctPids basePath both choice)
  | .inl (.start pid config ..) =>
      inferInstanceAs (Decidable (pid ∉ both.record.pids ∧ config.basePath = basePath))
  | .inl .assign | .inl (.check _) | .inl (.create _) | .inl .createFails | .inl (.search _)
  | .inl .searchFails | .inl (.launch _) | .inl (.syncer _) | .inl (.deleteSnap _)
  | .inl (.flush _) | .inl .rest | .inl .close | .inl .signal | .inl .kill
  | .inr _ => .isTrue trivial

namespace Snapshots

/-- Who made the snapshots, and which of them exist. -/
structure Named (basePath : CString) (daemon : Daemon) (record : Snapshots) : Prop where
  once : record.made.Nodup
  owned : ∀ entry ∈ record.made, entry.1 ∈ record.pids
  recent : ∀ rctime, (daemon.pid, rctime) ∈ record.made → daemon.Recent rctime daemon.control
  running : daemon.control ≠ .stopped →
    daemon.pid ∈ record.pids ∧ daemon.crawler.config.basePath = basePath
  listed : ∀ path ∈ record.existing,
    ∃ entry ∈ record.made, createSnapPath basePath entry.1 entry.2 = path

/-- At most some snapshots have been removed. -/
structure Keeps (record other : Snapshots) : Prop where
  made : other.made = record.made
  pids : other.pids = record.pids
  existing : other.existing ⊆ record.existing

theorem keeps_refl (record : Snapshots) : record.Keeps record := ⟨rfl, rfl, List.Subset.refl _⟩

theorem keeps_remove (record : Snapshots) : record.Keeps record.remove :=
  ⟨rfl, rfl, List.erase_subset⟩

theorem keeps_leave (record : Snapshots) (control : PollControl) :
    record.Keeps (record.leave control) :=
  ⟨rfl, rfl, List.Subset.refl _⟩

theorem keeps_cleanup (record : Snapshots) (control : PollControl) :
    record.Keeps (record.cleanup control) := by
  rw [cleanup]
  split
  · exact record.keeps_remove
  · exact record.keeps_leave control

theorem keeps_mayExit (record : Snapshots) (control after : PollControl) :
    record.Keeps (record.mayExit control after) := by
  rw [mayExit]
  split
  · exact record.keeps_cleanup control
  · exact record.keeps_refl

theorem keeps_syncer (record : Snapshots) (control after : PollControl) (call : Choice) :
    record.Keeps (record.syncer control after call) := by
  unfold syncer
  split
  · exact record.keeps_remove
  · exact record.keeps_mayExit control after

variable {basePath : CString} {other : Snapshots}

/-- A step that makes no snapshot and starts no process. -/
theorem Named.keep (named : record.Named basePath daemon) (keeps : record.Keeps other)
    (phase : daemon.Phase daemon.control) (move : Daemon.Move tokenize capacity daemon choice next)
    (running : daemon.control ≠ .stopped) : other.Named basePath next := by
  obtain ⟨pid, config⟩ := Daemon.identity_of_move move running
  refine ⟨keeps.made ▸ named.once, ?_, ?_, fun _ => ?_, ?_⟩
  · rw [keeps.made, keeps.pids]
    exact named.owned
  · rw [keeps.made, pid]
    exact fun rctime member => (named.recent rctime member).of_move phase move running
  · rw [keeps.pids, pid, config]
    exact named.running running
  · rw [keeps.made]
    exact fun path member => named.listed path (keeps.existing member)

/-- `new_rctime` is later than the times of all snapshots that the process has made. -/
theorem Named.fresh (named : record.Named basePath daemon) (phase : daemon.Phase daemon.control)
    (here : daemon.control = .creating) : (daemon.pid, daemon.newRctime) ∉ record.made := by
  intro member
  have recent := named.recent _ member
  rw [here] at recent phase
  obtain ⟨same, later⟩ := phase
  exact absurd (lt_of_le_of_lt recent (same ▸ later)) (lt_irrefl _)

/-- A new snapshot has a new name. -/
theorem Named.create (named : record.Named basePath daemon)
    (phase : daemon.Phase daemon.control) (here : daemon.control = .creating)
    (move : Daemon.Move tokenize capacity daemon choice next)
    (snapPath : next.snapPath = createSnapPath basePath daemon.pid daemon.newRctime)
    (searching : next.control = .searching) (newRctime : next.newRctime = daemon.newRctime) :
    Snapshots.Named basePath next { record with
      existing := record.existing.insert next.snapPath
      snapPath := next.snapPath
      made := (daemon.pid, daemon.newRctime) :: record.made } := by
  have running : daemon.control ≠ .stopped := by simp [here]
  obtain ⟨pid, config⟩ := Daemon.identity_of_move move running
  obtain ⟨ours, base⟩ := named.running running
  refine ⟨List.nodup_cons.mpr ⟨named.fresh phase here, named.once⟩, ?_, ?_, fun _ => ?_, ?_⟩
  · intro entry member
    rcases List.mem_cons.mp member with rfl | earlier
    · exact ours
    · exact named.owned entry earlier
  · intro rctime member
    rw [pid] at member
    rcases List.mem_cons.mp member with same | earlier
    · rw [searching, (Prod.mk.inj same).2]
      exact newRctime.ge
    · exact (named.recent rctime earlier).of_move phase move running
  · rw [pid, config]
    exact ⟨ours, base⟩
  · intro path member
    rcases List.mem_insert_iff.mp member with rfl | earlier
    · exact ⟨_, List.mem_cons_self, snapPath.symm⟩
    · obtain ⟨entry, listed, same⟩ := named.listed path earlier
      exact ⟨entry, List.mem_cons_of_mem _ listed, same⟩

/-- Only a start and `create_snap` add to the record. -/
theorem keeps_note (record : Snapshots) (daemon next : Daemon) :
    ∀ choice, (∃ pid config flags argMax envpSize,
        choice = .start pid config flags argMax envpSize) ∨
      (∃ snapshot, choice = .create snapshot) ∨
      record.Keeps (snapshots.note daemon choice next record)
  | .start .. => .inl ⟨_, _, _, _, _, rfl⟩
  | .create _ => .inr (.inl ⟨_, rfl⟩)
  | .deleteSnap true => .inr (.inr record.keeps_remove)
  | .deleteSnap false | .kill => .inr (.inr (record.keeps_leave _))
  | .searchFails | .signal => .inr (.inr (record.keeps_cleanup _))
  | .search _ => .inr (.inr (record.keeps_mayExit _ _))
  | .syncer call => .inr (.inr (record.keeps_syncer _ _ call))
  | .assign | .check _ | .createFails | .launch _ | .flush _ | .rest | .close =>
    .inr (.inr record.keeps_refl)

/-- A new process has a pid of its own. -/
theorem Named.start (named : record.Named basePath daemon) {pid : Nat} {config : Config}
    {flags : Flags} {argMax : Int} {envpSize : Nat} (fresh : pid ∉ record.pids)
    (base : config.basePath = basePath)
    (begun : daemon.begin tokenize pid config flags argMax envpSize = some next) :
    Snapshots.Named basePath next { record with snapPath := [], pids := pid :: record.pids } := by
  obtain ⟨_, _, _, rfl⟩ := Daemon.eq_of_begin begun
  refine ⟨named.once, ?_, ?_, fun _ => ⟨List.mem_cons_self, base⟩, named.listed⟩
  · exact fun entry member => List.mem_cons_of_mem _ (named.owned entry member)
  · exact fun rctime member => absurd (named.owned _ member) fresh

/-- Every step of daemons with different pids keeps the names apart. -/
theorem Named.of_move (named : record.Named basePath daemon)
    (phase : daemon.Phase daemon.control)
    (allowed : distinctPids basePath ⟨daemon, record⟩ (.inl choice))
    (move : Daemon.Move tokenize capacity daemon choice next) :
    (snapshots.note daemon choice next record).Named basePath next := by
  by_cases stopped : daemon.control = .stopped
  · cases move with
    | start _ begun => exact named.start allowed.1 allowed.2 begun
    | _ => simp_all
  · have taken := move
    rcases record.keeps_note daemon next choice with
      ⟨_, _, _, _, _, rfl⟩ | ⟨snapshot, rfl⟩ | keeps
    · cases move with
      | start here => exact absurd here stopped
    · cases move with
      | create here =>
          exact named.create phase here taken (by rw [← (named.running stopped).2]) rfl rfl
    · exact named.keep keeps phase move stopped

theorem named_invariant : (snapshots.watch (pollMachine tokenize capacity)).Invariant
    (distinctPids basePath) fun both => both.record.Named basePath both.state := by
  apply Observer.invariant
  · rintro _ ⟨disk, rfl⟩
    refine ⟨List.nodup_nil, ?_, ?_, fun running => absurd rfl running, ?_⟩ <;> simp [snapshots]
  · rintro ⟨daemon, record⟩ choice next reachable named allowed taken
    exact named.of_move (Daemon.phase_of_observed reachable rfl) allowed
      (Daemon.moves_of_step taken)
  · rintro ⟨daemon, record⟩ removable seen - named - noted
    rw [← Option.some.inj noted]
    exact ⟨named.once, named.owned, named.recent, named.running, named.listed⟩

end Snapshots

/-- As long as no pid comes twice, all snapshots that daemons ever make of a directory have
different names, and `create_snap` finds none of the existing ones under the name of a
new one, whatever has been left behind. -/
theorem names_of_reachable {basePath : CString} {both : Observed Daemon Snapshots}
    (reachable : (snapshots.watch (pollMachine tokenize capacity)).Reachable
      (distinctPids basePath) both) :
    (both.record.made.map fun entry => createSnapPath basePath entry.1 entry.2).Nodup ∧
    (both.state.control = .creating →
      createSnapPath both.state.crawler.config.basePath both.state.pid both.state.newRctime ∉
        both.record.existing) := by
  have named := Snapshots.named_invariant.of_reachable reachable
  constructor
  · apply named.once.map
    intro entry other same
    obtain ⟨pid, rctime⟩ := createSnapPath_injective same
    exact Prod.ext pid rctime
  · intro creating member
    have fresh := named.fresh (Daemon.phase_of_observed reachable rfl) creating
    rw [(named.running (by simp [creating])).2] at member
    obtain ⟨entry, made, same⟩ := named.listed _ member
    obtain ⟨pid, rctime⟩ := createSnapPath_injective same
    rw [← pid, ← rctime] at fresh
    exact fresh made

/-- A daemon is killed while it searches, and another one gets as far as `create_snap`. -/
def killedRun (pid other : Nat) : List (PollChoice ⊕ Bool) :=
  let flags : Flags := ⟨false, false, false, false⟩
  ([.start pid Daemon.polledConfig flags 2097152 1024, .check Search.smallTree,
    .create Search.smallTree, .kill, .start other Daemon.polledConfig flags 2097152 1024,
    .check Search.smallTree] : List PollChoice).map .inl

theorem leftBehind_of_killedRun : ∃ both : Observed Daemon Snapshots,
    both.record.existing.length = 1 ∧ both.record.existing.Nodup ∧
    (both.record.existing.erase both.record.snapPath).length ≤ 1 := by
  have executed : ((snapshots.watch (pollMachine plainTokens 4)).run Machine.unguarded
      ⟨.initial none, snapshots.start (.initial none)⟩ (killedRun 42 43)).any (fun both =>
        decide (both.record.existing.length = 1 ∧ both.record.leftBehind = 1)) = true := by
    decide +kernel
  obtain ⟨both, reachable, passed⟩ :=
    Machine.exists_of_run (by exact ⟨Daemon.initial_valid _, rfl⟩) executed
  obtain ⟨one, left⟩ := of_decide_eq_true passed
  obtain ⟨once, _, others⟩ := leftBehind_of_reachable reachable
  exact ⟨both, one, once, left ▸ others⟩

theorem names_of_killedRun : ∃ both : Observed Daemon Snapshots,
    both.record.existing.length = 1 ∧
    createSnapPath both.state.crawler.config.basePath both.state.pid both.state.newRctime ∉
      both.record.existing := by
  have executed : ((snapshots.watch (pollMachine plainTokens 4)).run
      (distinctPids Daemon.polledConfig.basePath) ⟨.initial none, snapshots.start (.initial none)⟩
      (killedRun 42 43)).any (fun both =>
        decide (both.record.existing.length = 1 ∧ both.state.control = .creating)) = true := by
    decide +kernel
  obtain ⟨both, reachable, passed⟩ :=
    Machine.exists_of_run (by exact ⟨Daemon.initial_valid _, rfl⟩) executed
  obtain ⟨one, creating⟩ := of_decide_eq_true passed
  exact ⟨both, one, (names_of_reachable reachable).2 creating⟩

end CephGeoRep
