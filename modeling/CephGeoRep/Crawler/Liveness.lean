import CephGeoRep.Crawler.Exhaustive

/-!
# The workers do not deadlock

A worker waits only while the queue is empty and `done_` is not set, and until then a
worker that is counted in `threads_running` is on its way to a `pop`, in which the last
of them sets `done_`. Apart from spurious wake-ups every step spends effort, of which
there is a limited amount, so the search cannot go on for ever without an end either.
-/

namespace CephGeoRep

open Semantics Support

/-- Has incremented `threads_running` and is outside of `pop`. -/
def Worker.running : Worker → Bool
  | .popping | .iterating .. | .enqueuing _ | .appending .. => true
  | _ => false

/-- Wakes a worker up for no reason. -/
def Schedule.isWake : Schedule → Bool
  | .run _ => false
  | .wake _ => true

namespace Search

variable {crawler : Crawler} {snapRoot snapPath : CString} {listing : Listing} {threads : Nat}
  {search next : Search} {index : Nat}

/-! ## Progress -/

/-- Why the search is not stuck. The critical section of `mutex_` is exclusive. -/
structure Alive (search : Search) : Prop where
  waiting : .waiting ∈ search.workers → search.queue = [] ∧ search.done = false
  pending : search.done = true ∨ search.queue ≠ [] ∨ 0 < search.threadsRunning ∨
    .checking ∈ search.workers
  exclusive : search.workers.countP Worker.locks ≤ 1

theorem locks_notify (worker : Worker) : worker.notify.locks = worker.locks := by
  cases worker <;> rfl

theorem mutexFree_iff : search.mutexFree = true ↔ search.workers.countP Worker.locks = 0 := by
  simp [mutexFree, List.countP_eq_zero]

theorem countP_notify (workers : List Worker) :
    (workers.map Worker.notify).countP Worker.locks = workers.countP Worker.locks := by
  rw [List.countP_map]
  exact List.countP_congr fun worker _ => by rw [Function.comp_apply, locks_notify]

theorem not_waiting_notify (workers : List Worker) : .waiting ∉ workers.map Worker.notify := by
  intro member
  obtain ⟨worker, _, same⟩ := List.mem_map.mp member
  cases worker <;> cases same

/-- Who holds `mutex_` after a worker went on. -/
theorem exclusive_set {workers : List Worker} {before after : Worker}
    (exclusive : workers.countP Worker.locks ≤ 1) (found : workers[index]? = some before)
    (locks : after.locks = true → before.locks = true ∨ workers.countP Worker.locks = 0) :
    (workers.set index after).countP Worker.locks ≤ 1 := by
  obtain ⟨inside, here⟩ := List.getElem?_eq_some_iff.mp found
  rw [List.countP_set inside, here]
  cases locked : after.locks with
  | false =>
      simp only [Bool.false_eq_true, ↓reduceIte, Nat.add_zero]
      omega
  | true =>
      simp only [↓reduceIte]
      rcases locks locked with held | free
      · rw [if_pos held]
        omega
      · omega

/-- A worker goes on while the queue and `done_` stay what they are. -/
theorem Alive.goOn (alive : search.Alive) {before after : Worker}
    (found : search.workers[index]? = some before)
    (workers : next.workers = search.workers.set index after)
    (queue : next.queue = search.queue) (done : next.done = search.done)
    (waits : after = .waiting → search.queue = [] ∧ search.done = false)
    (pending : search.done = true ∨ search.queue ≠ [] ∨ 0 < next.threadsRunning ∨
      .checking ∈ next.workers)
    (locks : after.locks = true → before.locks = true ∨ search.mutexFree = true) :
    next.Alive where
  waiting member := by
    rw [queue, done]
    rw [workers] at member
    rcases List.mem_or_eq_of_mem_set member with old | same
    · exact alive.waiting old
    · exact waits same.symm
  pending := by rwa [queue, done]
  exclusive := workers ▸ exclusive_set alive.exclusive found fun locked =>
    (locks locked).imp_right mutexFree_iff.mp

/-- A worker goes on after the others have been woken up. -/
theorem Alive.notified (alive : search.Alive) {before after : Worker}
    (found : search.workers[index]? = some before) (awake : before.notify = before)
    (workers : next.workers = (search.workers.map Worker.notify).set index after)
    (rests : after ≠ .waiting) (pending : next.done = true ∨ next.queue ≠ [])
    (locks : after.locks = true → before.locks = true) : next.Alive where
  waiting member := by
    rw [workers] at member
    rcases List.mem_or_eq_of_mem_set member with old | same
    · exact absurd old (not_waiting_notify search.workers)
    · exact absurd same.symm rests
  pending := pending.elim .inl fun left => .inr (.inl left)
  exclusive := by
    rw [workers]
    refine exclusive_set ?_ (Ledger.found_notify found awake) fun locked => .inl (locks locked)
    rw [countP_notify]
    exact alive.exclusive

/-- A worker goes on, and nothing else changes. -/
theorem Alive.passed (alive : search.Alive) {before after : Worker}
    (found : search.workers[index]? = some before)
    (workers : next.workers = search.workers.set index after)
    (queue : next.queue = search.queue) (done : next.done = search.done)
    (running : next.threadsRunning = search.threadsRunning) (other : before ≠ .checking)
    (waits : after = .waiting → search.queue = [] ∧ search.done = false)
    (locks : after.locks = true → before.locks = true ∨ search.mutexFree = true) :
    next.Alive := by
  refine alive.goOn found workers queue done waits ?_ locks
  refine alive.pending.imp_right fun pending => pending.imp_right fun pending => ?_
  refine pending.imp (running ▸ id) fun member => ?_
  obtain ⟨place, here⟩ := List.getElem?_of_mem member
  have apart : index ≠ place := by
    rintro rfl
    rw [found, Option.some.injEq] at here
    exact other here
  refine List.mem_of_getElem? (i := place) ?_
  rw [workers, List.getElem?_set_ne apart, here]

/-- Every step keeps the search alive. -/
theorem Alive.of_move (alive : search.Alive) (counted : search.Counted)
    (move : Move crawler snapRoot search next) : next.Alive := by
  have running := counted.running ▸ shares_counted_nonneg search.workers
  cases move with
  | start found =>
      refine alive.goOn found rfl rfl rfl (by simp) ?_ (by simp [Worker.locks])
      exact .inr (.inr (.inl (Int.lt_add_one_of_le running)))
  | lock found free =>
      exact alive.passed found rfl rfl rfl rfl (by simp) (by simp) fun _ => .inr free
  | @enter index found =>
      have inside := (List.getElem?_eq_some_iff.mp found).1
      exact alive.goOn found rfl rfl rfl (by simp)
        (.inr (.inr (.inr (List.mem_set inside _)))) (by simp [Worker.locks])
  | finish found _ _ =>
      exact alive.notified found rfl rfl (by simp) (.inl rfl) (by simp [Worker.locks])
  | proceed found left =>
      refine alive.goOn found rfl rfl rfl (by simp) ?_ (by simp [Worker.locks])
      by_cases empty : search.queue = []
      · exact .inr (.inr (.inl (not_le.mp fun idle => left ⟨idle, empty⟩)))
      · exact .inr (.inl empty)
  | wait found empty unfinished =>
      exact alive.passed found rfl rfl rfl rfl (by simp) (fun _ => ⟨empty, unfinished⟩)
        (by simp [Worker.locks])
  | leave found _ _ =>
      exact alive.passed found rfl rfl rfl rfl (by simp) (by simp) (by simp [Worker.locks])
  | @take index path listing queue found front =>
      refine ⟨fun member => ?_, .inr (.inr (.inl (Int.lt_add_one_of_le running))),
        exclusive_set alive.exclusive found (by simp [Worker.locks])⟩
      rcases List.mem_or_eq_of_mem_set member with old | same
      · have empty := (alive.waiting old).1
        rw [front] at empty
        cases empty
      · cases same
  | relock found free =>
      exact alive.passed found rfl rfl rfl rfl (by simp) (by simp) fun _ => .inr free
  | descend found _ _ =>
      exact alive.notified found rfl rfl (by simp) (.inr (by simp [push, Search.goOn]))
        (by simp [Worker.locks])
  | wake found | skip found _ _ | collect found _ _ | exhaust found | add found | append found
  | again found =>
      exact alive.passed found rfl rfl rfl rfl (by simp) (by simp) (by simp [Worker.locks])

/-- The search is never stuck. -/
theorem alive_invariant : (searchMachine crawler snapPath listing threads).Invariant
    Machine.unguarded Alive where
  initial := by
    rintro search rfl
    refine ⟨fun member => ?_, .inr (.inl (by simp [start])), ?_⟩
    · cases List.eq_of_mem_replicate member
    · show (List.replicate threads Worker.created).countP Worker.locks ≤ 1
      rw [List.countP_replicate]
      exact Nat.zero_le 1
  preserved _ _ _ reachable alive _ taken :=
    alive.of_move (counted_invariant.of_reachable reachable) (moves_of_step taken)

/-- While nobody is in `pop`, the counter is the number of workers outside of it. -/
theorem Counted.eq_running (counted : search.Counted) (free : search.mutexFree = true) :
    search.threadsRunning = search.workers.countP Worker.running := by
  refine counted.running.trans (shares_eq_countP fun worker member => ?_)
  have outside := List.countP_eq_zero.mp (mutexFree_iff.mp free) worker member
  cases worker <;> first | rfl | exact absurd rfl outside

/-- Nothing is blocked but by `mutex_` or in `empty_.wait`. -/
theorem step_of_free {worker : Worker} (free : search.mutexFree = true)
    (found : search.workers[index]? = some worker) (awake : worker ≠ .waiting)
    (left : worker ≠ .returned) :
    ∃ next, search.step crawler snapRoot (.run index) = some next := by
  simp only [step, found]
  cases worker with
  | waiting => exact absurd rfl awake
  | returned => exact absurd rfl left
  | popping | woken => exact ⟨_, if_pos free⟩
  | iterating path entries files =>
      cases entries with
      | nil => exact ⟨_, rfl⟩
      | entry name attributes children rest =>
          simp only [runWorker, iterate, free, ↓reduceIte]
          split
          · exact ⟨_, rfl⟩
          · split <;> exact ⟨_, rfl⟩
  | enqueuing files => cases files <;> exact ⟨_, rfl⟩
  | created | entered | checking | looping | appending => exact ⟨_, rfl⟩

/-- Worker `index` was woken up and has nothing to find, neither a node nor `done_`, so
it is on its way back into `empty_.wait`. -/
def Fruitless (search : Search) (index : Nat) : Prop :=
  (search.workers[index]? = some .woken ∨ search.workers[index]? = some .looping) ∧
    search.queue = [] ∧ search.done = false

/-- Some worker can take a step that is no part of a fruitless wake-up. -/
def Advances (crawler : Crawler) (snapRoot : CString) (search : Search) : Prop :=
  ∃ index next, search.step crawler snapRoot (.run index) = some next ∧ ¬ search.Fruitless index

theorem Alive.advances_of_free (alive : search.Alive) (counted : search.Counted)
    (free : search.mutexFree = true) (left : ∃ worker ∈ search.workers, worker ≠ .returned) :
    search.Advances crawler snapRoot := by
  by_cases nothing : search.queue = [] ∧ search.done = false
  · have unlocked := List.countP_eq_zero.mp (mutexFree_iff.mp free)
    have positive : 0 < search.threadsRunning := by
      rcases alive.pending with finished | some | positive | checking
      · exact absurd finished (by simp [nothing.2])
      · exact absurd nothing.1 some
      · exact positive
      · exact absurd rfl (unlocked _ checking)
    rw [counted.eq_running free, Int.natCast_pos, List.countP_pos_iff] at positive
    obtain ⟨worker, member, running⟩ := positive
    obtain ⟨index, found⟩ := List.getElem?_of_mem member
    have steps : ∃ next, search.step crawler snapRoot (.run index) = some next :=
      step_of_free free found (by rintro rfl; cases running) (by rintro rfl; cases running)
    obtain ⟨next, taken⟩ := steps
    refine ⟨index, next, taken, fun fruitless => ?_⟩
    rcases fruitless.1 with woken | looping
    · rw [found, Option.some.injEq] at woken
      rw [woken] at running
      cases running
    · rw [found, Option.some.injEq] at looping
      rw [looping] at running
      cases running
  · obtain ⟨worker, member, left⟩ := left
    obtain ⟨index, found⟩ := List.getElem?_of_mem member
    have awake : worker ≠ .waiting := by
      rintro rfl
      exact nothing (alive.waiting member)
    have steps : ∃ next, search.step crawler snapRoot (.run index) = some next :=
      step_of_free free found awake left
    obtain ⟨next, taken⟩ := steps
    exact ⟨index, next, taken, fun fruitless => nothing fruitless.2⟩

/-- A worker that holds `mutex_` goes on. -/
theorem step_of_locks {worker : Worker} (found : search.workers[index]? = some worker)
    (locks : worker.locks = true) :
    ∃ next, search.step crawler snapRoot (.run index) = some next := by
  simp only [step, found]
  cases worker with
  | entered | checking | looping => exact ⟨_, rfl⟩
  | _ => cases locks

/-- As long as a worker has not returned, some worker can go on, be it after the one that
holds `mutex_` has gone back into `empty_.wait`. -/
theorem advances_of_left (reachable : (searchMachine crawler snapPath listing threads).Reachable
    Machine.unguarded search) (left : ∃ worker ∈ search.workers, worker ≠ .returned) :
    search.Advances crawler snapPath ∨
      ∃ index next, search.workers[index]? = some .looping ∧
        search.step crawler snapPath (.run index) = some next ∧ next.Advances crawler snapPath := by
  have alive := alive_invariant.of_reachable reachable
  have counted := counted_invariant.of_reachable reachable
  by_cases free : search.mutexFree = true
  · exact .inl (alive.advances_of_free counted free left)
  rw [mutexFree_iff, ← ne_eq, ← Nat.pos_iff_ne_zero, List.countP_pos_iff] at free
  obtain ⟨worker, member, locks⟩ := free
  obtain ⟨index, found⟩ := List.getElem?_of_mem member
  have steps : ∃ next, search.step crawler snapPath (.run index) = some next :=
    step_of_locks found locks
  obtain ⟨next, taken⟩ := steps
  by_cases fruitless : search.Fruitless index
  swap
  · exact .inl ⟨index, next, taken, fruitless⟩
  obtain ⟨here, empty, unfinished⟩ := fruitless
  have looping : search.workers[index]? = some .looping := by
    refine here.resolve_left fun woken => ?_
    rw [found, Option.some.injEq] at woken
    rw [woken] at locks
    cases locks
  have waits : next = search.goOn index .waiting := by
    simp only [step, looping, runWorker, loop, empty, unfinished, Bool.false_eq_true,
      ↓reduceIte, Option.some.injEq] at taken
    exact taken.symm
  obtain ⟨inside, same⟩ := List.getElem?_eq_some_iff.mp looping
  have stepped : (searchMachine crawler snapPath listing threads).step search (.run index) =
      some next := taken
  have later := reachable.next trivial stepped
  refine .inr ⟨index, next, looping, taken, (alive_invariant.of_reachable later).advances_of_free
    (counted_invariant.of_reachable later) ?_ ⟨.waiting, ?_, by simp⟩⟩
  · have exclusive := alive.exclusive
    rw [mutexFree_iff, waits]
    show (search.workers.set index .waiting).countP Worker.locks = 0
    rw [List.countP_set inside, same]
    simp only [Worker.locks, Bool.false_eq_true, ↓reduceIte]
    omega
  · rw [waits]
    exact List.mem_set inside _

/-! ## Effort -/

end Search

/-- What it takes to search a tree: a directory is pushed and expanded, and wakes up to
all workers; a file is appended in two steps. -/
def Listing.effort (threads : Nat) : Listing → Nat
  | .nil => 0
  | .entry _ _ children rest =>
    children.effort threads + rest.effort threads + (2 * threads + 9)

/-- What is left to do for a worker before it waits or returns. -/
def Worker.effort (threads : Nat) : Worker → Nat
  | .created => 5
  | .popping => 4
  | .entered => 3
  | .checking | .woken => 2
  | .looping => 1
  | .waiting | .returned => 0
  | .iterating _ entries files => entries.effort threads + 2 * files.length + 6
  | .enqueuing files => 2 * files.length + 5
  | .appending _ files => 2 * files.length + 6

namespace Search

/-- What is left to do for the search, the last wake-up of all workers included. -/
def effort (search : Search) : Nat :=
  shares (Worker.effort search.workers.length) search.workers +
    shares (fun node : Node => node.2.effort search.workers.length + 6) search.queue +
    if search.done then 0 else 2 * search.workers.length

variable {crawler : Crawler} {snapRoot snapPath : CString} {listing : Listing} {threads : Nat}
  {search next : Search} {index : Nat}

theorem effort_notify (threads : Nat) (workers : List Worker) :
    shares (Worker.effort threads) (workers.map Worker.notify) ≤
      shares (Worker.effort threads) workers + 2 * workers.length := by
  induction workers with
  | nil => simp
  | cons first rest ih =>
      have most : first.notify.effort threads ≤ first.effort threads + 2 := by
        cases first <;> simp [Worker.notify, Worker.effort]
      rw [List.map_cons, shares_cons, shares_cons, List.length_cons]
      omega

/-- A worker that goes on spends effort. -/
theorem effort_goOn {before after : Worker} (found : search.workers[index]? = some before)
    (workers : next.workers = search.workers.set index after)
    (queue : next.queue = search.queue) (done : next.done = search.done)
    (less : after.effort search.workers.length < before.effort search.workers.length) :
    next.effort < search.effort := by
  obtain ⟨others, held, kept⟩ := shares_set (Worker.effort search.workers.length) found
  simp only [effort, workers, queue, done, List.length_set]
  rw [held, kept]
  omega

/-- The first check that finds everything done wakes up all workers. -/
theorem effort_check (alive : search.Alive) (found : search.workers[index]? = some .checking) :
    (search.check.goOn index .looping).effort < search.effort := by
  rw [check]
  split
  swap
  · exact effort_goOn found rfl rfl rfl (by simp [Worker.effort])
  have notified := effort_notify search.workers.length search.workers
  obtain ⟨others, held, kept⟩ :=
    shares_set (Worker.effort search.workers.length) (Ledger.found_notify found rfl)
  simp only [effort, Search.goOn, List.length_set, List.length_map, ↓reduceIte]
  rw [kept]
  simp only [Worker.effort] at held ⊢
  cases finished : search.done with
  | false =>
      simp only [Bool.false_eq_true, ↓reduceIte]
      omega
  | true =>
      -- `done_` was set before, so nobody waits
      have same : search.workers.map Worker.notify = search.workers := by
        refine (List.map_congr_left fun worker member => ?_).trans (List.map_id _)
        cases worker with
        | waiting => exact absurd (alive.waiting member).2 (by simp [finished])
        | _ => rfl
      rw [same] at held
      simp only [↓reduceIte]
      omega

/-- Every step of a worker spends effort. -/
theorem effort_of_run (alive : search.Alive)
    (taken : search.step crawler snapRoot (.run index) = some next) :
    next.effort < search.effort := by
  simp only [step] at taken
  split at taken
  swap
  · cases taken
  next worker found =>
  cases worker with
  | created | entered =>
      cases taken
      exact effort_goOn found rfl rfl rfl (by simp [Worker.effort])
  | popping | woken =>
      simp only [runWorker, Option.ite_none_right_eq_some, Option.some.injEq] at taken
      obtain ⟨_, rfl⟩ := taken
      exact effort_goOn found rfl rfl rfl (by simp [Worker.effort])
  | checking =>
      cases taken
      exact effort_check alive found
  | looping =>
      cases taken
      rw [loop]
      split
      · split <;> exact effort_goOn found rfl rfl rfl (by simp [Worker.effort])
      · next path listing queue front =>
        obtain ⟨others, held, kept⟩ := shares_set (Worker.effort search.workers.length) found
        simp only [effort, Search.goOn, List.length_set, front, shares_cons]
        rw [held, kept]
        simp only [Worker.effort, List.length_nil]
        omega
  | waiting | returned => cases taken
  | iterating path entries files =>
      cases entries with
      | nil =>
          cases taken
          exact effort_goOn found rfl rfl rfl (by simp [Worker.effort])
      | entry name attributes children rest =>
          simp only [runWorker, iterate] at taken
          split at taken
          · cases taken
            exact effort_goOn found rfl rfl rfl
              (by simp only [Worker.effort, Listing.effort]; omega)
          · split at taken
            · simp only [Option.ite_none_right_eq_some, Option.some.injEq] at taken
              obtain ⟨_, rfl⟩ := taken
              have notified := effort_notify search.workers.length search.workers
              obtain ⟨others, held, kept⟩ :=
                shares_set (Worker.effort search.workers.length) (Ledger.found_notify found rfl)
              simp only [effort, push, Search.goOn, List.length_set, List.length_map,
                shares_append, shares_cons, shares_nil]
              rw [kept]
              simp only [Worker.effort, Listing.effort] at held ⊢
              omega
            · cases taken
              exact effort_goOn found rfl rfl rfl
                (by simp only [Worker.effort, Listing.effort, List.length_append,
                      List.length_singleton]; omega)
  | enqueuing files =>
      cases files with
      | nil =>
          cases taken
          exact effort_goOn found rfl rfl rfl (by simp [Worker.effort])
      | cons file files =>
          cases taken
          exact effort_goOn found rfl rfl rfl (by simp [Worker.effort]; omega)
  | appending file files =>
      cases taken
      exact effort_goOn found rfl rfl rfl (by simp [Worker.effort])

/-- A spurious wake-up costs two steps. -/
theorem effort_of_wake (taken : search.step crawler snapRoot (.wake index) = some next) :
    next.effort = search.effort + 2 := by
  simp only [step] at taken
  split at taken
  · next found =>
    cases taken
    obtain ⟨others, held, kept⟩ := shares_set (Worker.effort search.workers.length) found
    simp only [effort, Search.goOn, List.length_set]
    rw [held, kept]
    simp only [Worker.effort]
    omega
  · cases taken

/-- A run is no longer than the effort it starts with and three steps for each spurious
wake-up. -/
theorem length_le_effort (reachable : (searchMachine crawler snapPath listing threads).Reachable
    Machine.unguarded search) {schedules : List Schedule} {final : Search}
    (steps : (searchMachine crawler snapPath listing threads).Steps Machine.unguarded search
      schedules final) :
    schedules.length + final.effort ≤ search.effort + 3 * schedules.countP Schedule.isWake := by
  have spent : ∀ state schedule next,
      (searchMachine crawler snapPath listing threads).Reachable Machine.unguarded state →
      Machine.unguarded state schedule →
      (searchMachine crawler snapPath listing threads).step state schedule = some next →
      next.effort < state.effort + if schedule.isWake then 3 else 0 := by
    intro state schedule next here _ taken
    have taken : state.step crawler snapPath schedule = some next := taken
    cases schedule with
    | run index => exact effort_of_run (alive_invariant.of_reachable here) taken
    | wake index =>
        have raised := effort_of_wake taken
        rw [Schedule.isWake, if_pos rfl]
        omega
  exact steps.length_le_add Schedule.isWake 3
    (fun _ _ _ here allowed taken => here.next allowed taken) spent reachable

/-- Every search can be completed, without any spurious wake-up. -/
theorem exists_completion (reachable : (searchMachine crawler snapPath listing threads).Reachable
    Machine.unguarded search) :
    ∃ schedules final, (searchMachine crawler snapPath listing threads).Steps Machine.unguarded
      search schedules final ∧ ∀ worker ∈ final.workers, worker = .returned := by
  induction spent : search.effort using Nat.strong_induction_on generalizing search with
  | h effort ih =>
      by_cases left : ∃ worker ∈ search.workers, worker ≠ .returned
      · have steps : ∃ index next, search.step crawler snapPath (.run index) = some next := by
          rcases advances_of_left reachable left with ⟨index, next, taken, _⟩ |
            ⟨index, next, _, taken, _⟩
          · exact ⟨index, next, taken⟩
          · exact ⟨index, next, taken⟩
        obtain ⟨index, next, taken⟩ := steps
        have less := effort_of_run (alive_invariant.of_reachable reachable) taken
        have step : (searchMachine crawler snapPath listing threads).Steps Machine.unguarded
            search [.run index] next := .single trivial taken
        obtain ⟨schedules, final, steps, returned⟩ :=
          ih _ (spent ▸ less) (reachable.steps step) rfl
        exact ⟨_, final, step.trans steps, returned⟩
      · push Not at left
        exact ⟨[], search, .refl, left⟩

/-- Once `done_` is set, nothing is pushed any more. -/
theorem finished_of_steps (reachable : (searchMachine crawler snapPath listing threads).Reachable
    Machine.unguarded search) (finished : search.done = true) {schedules : List Schedule}
    {final : Search} (steps : (searchMachine crawler snapPath listing threads).Steps
      Machine.unguarded search schedules final) :
    final.done = true ∧ final.queue = [] := by
  have kept : ∀ state schedule next, state.done = true → Machine.unguarded state schedule →
      (searchMachine crawler snapPath listing threads).step state schedule = some next →
      next.done = true := by
    intro state schedule next done _ taken
    have taken : state.step crawler snapPath schedule = some next := taken
    cases moves_of_step taken <;> first | rfl | exact done
  have ended := steps.preserves kept finished
  exact ⟨ended, ((counted_invariant.of_reachable (reachable.steps steps)).finished ended).1⟩

/-- As long as a worker has not returned, some worker can take a step that is no part of a
fruitless wake-up, be it after the worker that holds `mutex_` has gone back to waiting; and
without spurious wake-ups a run comes to an end. While nobody is in `pop`, the counter
is the number of workers that have been counted and are outside of it, it is never
negative, and once `done_` is set, the queue is empty and stays so. -/
theorem liveness_of_reachable
    (reachable : (searchMachine crawler snapPath listing threads).Reachable
      Machine.unguarded search) :
    ((∃ worker ∈ search.workers, worker ≠ .returned) →
      search.Advances crawler snapPath ∨
        ∃ index next, search.workers[index]? = some .looping ∧
          search.step crawler snapPath (.run index) = some next ∧
          next.Advances crawler snapPath) ∧
    (∀ schedules final, (searchMachine crawler snapPath listing threads).Steps Machine.unguarded
        search schedules final →
      schedules.length + final.effort ≤ search.effort + 3 * schedules.countP Schedule.isWake) ∧
    (search.mutexFree = true →
      search.threadsRunning = search.workers.countP Worker.running) ∧
    0 ≤ search.threadsRunning ∧
    (search.done = true → ∀ schedules final,
      (searchMachine crawler snapPath listing threads).Steps Machine.unguarded
        search schedules final → final.done = true ∧ final.queue = []) := by
  have counted := counted_invariant.of_reachable reachable
  exact ⟨advances_of_left reachable, fun _ _ steps => length_le_effort reachable steps,
    counted.eq_running, counted.running ▸ shares_counted_nonneg _,
    fun finished _ _ steps => finished_of_steps reachable finished steps⟩

/-- One of two workers waits, the other one is about to call `pop` again. -/
theorem liveness_of_sharedSchedule : ∃ search : Search,
    (∃ worker ∈ search.workers, worker = .waiting) ∧
    0 ≤ search.threadsRunning ∧
    (search.Advances smallCrawler "/s".toList ∨
      ∃ index next, search.workers[index]? = some .looping ∧
        search.step smallCrawler "/s".toList (.run index) = some next ∧
        next.Advances smallCrawler "/s".toList) := by
  have executed : ((searchMachine smallCrawler "/s".toList smallTree 2).run Machine.unguarded
      (.start "/s".toList smallTree 2) (sharedSchedule.take 27)).any
      (fun search => decide (∃ worker ∈ search.workers, worker = .waiting)) = true := by
    decide +kernel
  obtain ⟨search, reachable, waits⟩ := Machine.exists_of_run rfl executed
  obtain ⟨worker, member, waiting⟩ := of_decide_eq_true waits
  have alive := liveness_of_reachable reachable
  exact ⟨search, ⟨worker, member, waiting⟩, alive.2.2.2.1,
    alive.1 ⟨worker, member, by simp [waiting]⟩⟩

end Search

end CephGeoRep
