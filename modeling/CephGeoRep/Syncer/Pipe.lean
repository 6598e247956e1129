import CephGeoRep.Syncer.Bookkeeping

/-!
# The output pipe

The parent reads a child's pipe in `log_errors` only, after the child has ended.
A program that prints more than its pipe holds therefore blocks, and when only such
programs are left at a `wait`, parent and children can wait for each other.
-/

namespace CephGeoRep

open Semantics

/-- Running a program that is going to print more than the pipe has room for. -/
def Child.oversized (capacity : Nat) (child : Child) : Bool :=
  match child.phase with
  | .program unwritten => decide (capacity - child.pipe.length < unwritten.length)
  | _ => false

/-- Nothing printed before the program runs, and no more than fits afterwards. -/
def Child.fits (capacity : Nat) (child : Child) : Bool :=
  match child.phase with
  | .forked | .reset => child.pipe.isEmpty
  | .program unwritten => decide (child.pipe.length + unwritten.length ≤ capacity)
  | _ => true

/-- No program prints more than its pipe holds. -/
def smallOutputs (capacity : Nat) (_ : State) : Choice → Prop
  | .child _ (.exec output) => output.length ≤ capacity
  | _ => True

namespace State

/-- The parent is at one of its two `wait` calls, with a child to wait for. -/
structure Waits (state : State) : Prop where
  control : state.control = .waiting ∨ state.control = .reaping
  outstanding : state.outstanding ≠ []

/-- The parent is blocked in `wait` and all its children in a write. -/
structure Deadlocked (capacity : Nat) (state : State) : Prop extends state.Waits where
  blocked : ∀ child ∈ state.outstanding, child.blocked capacity = true

/-- The parent waits for nothing but programs whose output does not fit. -/
structure Overfull (capacity : Nat) (state : State) : Prop extends state.Waits where
  oversized : ∀ child ∈ state.outstanding, child.oversized capacity = true

variable {capacity : Nat} {state next : State} {child : Child} {index : Nat}
  {guard : Machine.Guard State Choice}

theorem oversized_of_blocked (blocked : child.blocked capacity = true) :
    child.oversized capacity = true := by
  cases phase : child.phase with
  | program unwritten =>
      simp only [Child.blocked, phase, Bool.and_eq_true, Bool.not_eq_true',
        List.isEmpty_eq_false_iff, decide_eq_true_eq] at blocked
      simp only [Child.oversized, phase, decide_eq_true_eq]
      have left := List.length_pos_iff.mpr blocked.1
      omega
  | _ => simp [Child.blocked, phase] at blocked

/-- The programs of a deadlock print more than fits. -/
theorem Deadlocked.overfull (deadlocked : state.Deadlocked capacity) :
    state.Overfull capacity :=
  { deadlocked with
    oversized := fun child member => oversized_of_blocked (deadlocked.blocked child member) }

/-- A program whose output does not fit fills its pipe with its next write. -/
theorem fill_step (oversized : child.oversized capacity = true)
    (free : child.blocked capacity = false) :
    ∃ count next, child.step capacity (.write count) = some next ∧
      next.blocked capacity = true ∧ next.oversized capacity = true := by
  rw [Child.oversized] at oversized
  rw [Child.blocked] at free
  split at oversized
  · next unwritten phase =>
    rw [phase] at free
    simp only [decide_eq_true_eq] at oversized
    have room : child.pipe.length < capacity := by
      by_contra full
      have left : unwritten ≠ [] := List.length_pos_iff.mp (by omega)
      simp [left, Nat.le_of_not_lt full] at free
    set count := capacity - child.pipe.length with countDef
    refine ⟨count, { child with
      phase := .program (unwritten.drop count), pipe := child.pipe ++ unwritten.take count },
      ?_, ?_, ?_⟩
    · have fits : 0 < count ∧ count ≤ unwritten.length ∧
          child.pipe.length + count ≤ capacity := by omega
      simp [Child.step, phase, fits]
    · simp only [Child.blocked, Bool.and_eq_true, Bool.not_eq_true', List.isEmpty_eq_false_iff,
        decide_eq_true_eq, List.length_append, List.length_take]
      refine ⟨List.length_pos_iff.mp ?_, by omega⟩
      rw [List.length_drop]
      omega
    · simp only [Child.oversized, decide_eq_true_eq, List.length_append, List.length_take,
        List.length_drop]
      omega
  · cases oversized

/-- How many children are neither reaped nor blocked. -/
def freeCount (capacity : Nat) (state : State) : Nat :=
  state.children.countP fun child => child.outstanding && !child.blocked capacity

/-- Filling one pipe keeps the others waiting and leaves one child less to block. -/
theorem Overfull.fill (overfull : state.Overfull capacity)
    (positive : 0 < state.freeCount capacity) :
    ∃ index count next, state.step capacity (.child index (.write count)) = some next ∧
      next.Overfull capacity ∧ next.freeCount capacity < state.freeCount capacity := by
  obtain ⟨child, listed, free⟩ := List.countP_pos_iff.mp positive
  rw [Bool.and_eq_true, Bool.not_eq_true'] at free
  have member : child ∈ state.outstanding := List.mem_filter.mpr ⟨listed, free.1⟩
  obtain ⟨index, found⟩ := List.mem_iff_getElem?.mp listed
  obtain ⟨bound, here⟩ := List.getElem?_eq_some_iff.mp found
  obtain ⟨count, after, taken, blocked, oversized⟩ :=
    fill_step (overfull.oversized child member) free.2
  have held : after.outstanding = true := by
    rw [(Child.continues_of_step taken).outstanding, free.1]
  refine ⟨index, count, { state with children := state.children.set index after }, ?_, ?_, ?_⟩
  · simp [step, found, taken]
  · refine ⟨⟨overfull.control, ?_⟩, ?_⟩
    · refine List.ne_nil_of_mem (List.mem_filter.mpr ⟨?_, held⟩)
      exact List.mem_set bound after
    · intro other inside
      obtain ⟨there, held'⟩ := List.mem_filter.mp inside
      rcases List.mem_or_eq_of_mem_set there with old | rfl
      · exact overfull.oversized other (List.mem_filter.mpr ⟨old, held'⟩)
      · exact oversized
  · unfold freeCount at positive ⊢
    rw [List.countP_set bound, here]
    simp only [free, held, blocked]
    simp only [Bool.not_false, Bool.and_self, ↓reduceIte, Bool.not_true, Bool.and_false,
      Bool.false_eq_true]
    omega

/-- Programs that are left alone with too much output run into a deadlock. -/
theorem deadlock_of_overfull (writes : ∀ state index count,
      guard state (.child index (.write count)))
    (reachable : (syncMachine capacity).Reachable guard state)
    (overfull : state.Overfull capacity) :
    ∃ final, (syncMachine capacity).Reachable guard final ∧ final.Deadlocked capacity := by
  induction free : state.freeCount capacity using Nat.strongRecOn generalizing state with
  | ind count ih =>
      by_cases none : count = 0
      · refine ⟨state, reachable, { overfull with blocked := fun child member => ?_ }⟩
        obtain ⟨listed, held⟩ := List.mem_filter.mp member
        rw [none] at free
        have busy := List.countP_eq_zero.mp free child listed
        simpa [held] using busy
      · obtain ⟨index, written, next, taken, after, fewer⟩ :=
          overfull.fill (by omega)
        exact ih _ (free ▸ fewer) (reachable_step reachable (writes _ _ _) taken) after rfl

/-- Small outputs fit at every step of a child. -/
theorem fits_of_step {after : Child} {choice : ChildChoice} (fits : child.fits capacity = true)
    (small : ∀ output, choice = .exec output → output.length ≤ capacity)
    (taken : child.step capacity choice = some after) : after.fits capacity = true := by
  unfold Child.step at taken
  cases choice with
  | resetSigint =>
      simp only [Option.ite_none_right_eq_some, Option.some.injEq] at taken
      obtain ⟨phase, rfl⟩ := taken
      simpa [Child.fits, phase] using fits
  | exec output =>
      simp only [Option.ite_none_right_eq_some, Option.some.injEq] at taken
      obtain ⟨phase, rfl⟩ := taken
      have empty : child.pipe = [] := by simpa [Child.fits, phase] using fits
      simpa [Child.fits, empty] using small output rfl
  | write count =>
      cases phase : child.phase <;> simp only [phase, reduceCtorEq] at taken
      simp only [Option.ite_none_right_eq_some, Option.some.injEq] at taken
      obtain ⟨_, rfl⟩ := taken
      simp only [Child.fits, phase, decide_eq_true_eq] at fits
      simp only [Child.fits, List.length_append, List.length_take, List.length_drop,
        decide_eq_true_eq]
      omega
  | leave =>
      cases phase : child.phase <;>
        simp only [phase, reduceCtorEq, Option.some.injEq] at taken <;> subst taken <;> rfl
  | deliver signal fatal =>
      simp only [Option.ite_none_right_eq_some, Option.some.injEq] at taken
      obtain ⟨_, rfl⟩ := taken
      unfold Child.fits at fits ⊢
      cases phase : child.phase <;> rw [phase] at fits <;> cases signal <;> cases fatal <;>
        simp_all [ChildPhase.deliver]
  | _ =>
      simp only [Option.ite_none_right_eq_some, Option.some.injEq] at taken
      obtain ⟨_, rfl⟩ := taken
      rfl

/-- All output fits in every state of a run with small outputs. -/
theorem fits_invariant : (syncMachine capacity).Invariant (smallOutputs capacity)
    fun state => ∀ child ∈ state.children, child.fits capacity = true where
  initial := by
    rintro state ⟨tokenize, argMax, envpSize, config, rfl⟩ child member
    cases member
  preserved state choice next _ fits small taken child member := by
    cases origin_of_move (moves_of_step taken) member with
    | kept listed => exact fits _ listed
    | forked => rfl
    | reaped _ _ => rfl
    | signaled listed _ _ =>
        have before := fits _ listed
        exact before
    | stepped same found moved =>
        refine fits_of_step (fits _ (List.mem_of_getElem? found)) (fun output exec => ?_) moved
        subst same exec
        exact small

/-- A program whose output fits is not oversized. -/
theorem not_overfull_of_smallOutputs
    (reachable : (syncMachine capacity).Reachable (smallOutputs capacity) state) :
    ¬ state.Overfull capacity := by
  intro overfull
  obtain ⟨child, member⟩ := List.exists_mem_of_ne_nil _ overfull.outstanding
  have oversized := overfull.oversized child member
  have fits := fits_invariant.of_reachable reachable child (List.mem_of_mem_filter member)
  rw [Child.oversized] at oversized
  rw [Child.fits] at fits
  split at oversized
  · next unwritten phase =>
    simp only [phase, decide_eq_true_eq] at oversized fits
    omega
  · cases oversized

/-- Programs that print no more than a pipe holds cause no deadlock. And whatever the
environment does, as long as it lets the children write: a deadlock can be reached if
and only if the parent can come to wait for nothing but programs whose output does
not fit their pipes. -/
theorem deadlock_iff (capacity : Nat) (guard : Machine.Guard State Choice)
    (writes : ∀ state index count, guard state (.child index (.write count))) :
    (∀ state, (syncMachine capacity).Reachable (smallOutputs capacity) state →
      ¬ state.Deadlocked capacity) ∧
    ((∃ state, (syncMachine capacity).Reachable guard state ∧ state.Deadlocked capacity) ↔
      ∃ state, (syncMachine capacity).Reachable guard state ∧ state.Overfull capacity) := by
  refine ⟨?_, ?_, ?_⟩
  · intro state reachable deadlocked
    exact not_overfull_of_smallOutputs reachable deadlocked.overfull
  · rintro ⟨state, reachable, deadlocked⟩
    exact ⟨state, reachable, deadlocked.overfull⟩
  · rintro ⟨state, reachable, overfull⟩
    exact deadlock_of_overfull writes reachable overfull

theorem deadlock_of_anything :
    (∃ state, (syncMachine 4).Reachable Machine.unguarded state ∧ state.Deadlocked 4) ↔
      ∃ state, (syncMachine 4).Reachable Machine.unguarded state ∧ state.Overfull 4 :=
  (deadlock_iff 4 Machine.unguarded fun _ _ _ => trivial).2

/-- The only child prints one character more than its pipe holds. -/
def verboseRun : List Choice :=
  let files := [plainFile "/s/./a".toList 1]
  [.sync files files, .fork 11, .child 0 .resetSigint, .child 0 (.exec "12345".toList),
    .child 0 (.write 4)]

theorem deadlocked_of_verboseRun :
    ∃ state, (syncMachine 4).Reachable freshPids state ∧ state.Deadlocked 4 := by
  have executed : ((syncMachine 4).run freshPids (rsyncDaemon 1 "a:b".toList) verboseRun).any
      (fun state => decide (state.control = .waiting ∧ state.outstanding ≠ [] ∧
        ∀ child ∈ state.outstanding, child.blocked 4 = true)) = true := by
    decide +kernel
  obtain ⟨state, reachable, ended⟩ := Machine.exists_of_run (rsyncDaemon_initial 1 _) executed
  obtain ⟨waiting, outstanding, blocked⟩ := of_decide_eq_true ended
  exact ⟨state, reachable, ⟨⟨.inl waiting, outstanding⟩, blocked⟩⟩

end State

end CephGeoRep
