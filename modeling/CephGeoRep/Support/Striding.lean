import CephGeoRep.Support.Stride
import Mathlib.Data.List.Nodup
import Mathlib.Data.List.Pairwise
import Mathlib.Logic.Function.Basic
import Mathlib.Logic.Relation

/-!
# Workers that stride through one interval

`step` workers share the positions below `total`: worker `id` visits the residue
class of `id`, cuts it into batches one after another and retires each of them.
Whatever the lengths of the batches and the order in which the workers move, the
batches partition what has been visited, and once every worker has left, the
retired batches partition the interval.
-/

namespace CephGeoRep.Support

/-- `next` is the position a worker has not visited yet, `held` the batch it works
on; `formed` and `retired` list all batches, each with its worker. -/
@[ext]
structure Work where
  next : Nat → Option Nat
  held : Nat → Option (List Nat)
  formed : List (Nat × List Nat)
  retired : List (Nat × List Nat)

namespace Work

/-- Workers below `step`, none of which has started. -/
def initial (step : Nat) : Work where
  next := fun id => if id < step then some id else none
  held := fun _ => none
  formed := []
  retired := []

/-- Worker `id` cuts the next `count` positions of its class into a batch. -/
def form (work : Work) (step id start count : Nat) : Work where
  next := Function.update work.next id (some (start + count * step))
  held := Function.update work.held id (some (stride start step count))
  formed := work.formed ++ [(id, stride start step count)]
  retired := work.retired

/-- Worker `id` is through with its batch. -/
def retire (work : Work) (id : Nat) (batch : List Nat) : Work :=
  { work with
    held := Function.update work.held id none
    retired := work.retired ++ [(id, batch)] }

/-- Worker `id` has nothing left to visit. -/
def leave (work : Work) (id : Nat) : Work :=
  { work with next := Function.update work.next id none }

/-- What a worker may do. -/
inductive Moves (total step : Nat) : Work → Work → Prop where
  | form {work id start count} (next : work.next id = some start) (free : work.held id = none)
      (inside : ∀ position ∈ stride start step count, position < total) :
      Moves total step work (work.form step id start count)
  | retire {work id batch} (held : work.held id = some batch) :
      Moves total step work (work.retire id batch)
  | leave {work id start} (next : work.next id = some start) (free : work.held id = none)
      (done : total ≤ start) : Moves total step work (work.leave id)

/-- The batch a worker formed last. -/
def latest (formed : List (Nat × List Nat)) (id : Nat) : Option (List Nat) :=
  ((formed.filter fun entry => entry.1 == id).getLast?).map Prod.snd

@[simp]
theorem latest_append_self (formed : List (Nat × List Nat)) (id : Nat) (batch : List Nat) :
    latest (formed ++ [(id, batch)]) id = some batch := by
  simp [latest]

theorem latest_append_of_ne {formed : List (Nat × List Nat)} {id other : Nat}
    (differs : other ≠ id) (batch : List Nat) :
    latest (formed ++ [(other, batch)]) id = latest formed id := by
  simp [latest, differs]

/-- Everything visited is in exactly one batch, and every batch is either held or
retired. -/
structure Partitioned (total step : Nat) (work : Work) : Prop where
  residue : ∀ id start, work.next id = some start → start % step = id
  alive : ∀ id batch, work.held id = some batch → ∃ start, work.next id = some start
  inside : ∀ entry ∈ work.formed, ∀ position ∈ entry.2,
    position < total ∧ position % step = entry.1
  behind : ∀ entry ∈ work.formed, ∀ position ∈ entry.2, ∀ start,
    work.next entry.1 = some start → position < start
  disjoint : (work.formed.flatMap Prod.snd).Nodup
  covered : ∀ position < total, position ∈ work.formed.flatMap Prod.snd ∨
    ∃ start ≤ position, work.next (position % step) = some start
  kept : ∀ entry ∈ work.formed, entry ∈ work.retired ∨ work.held entry.1 = some entry.2
  retired_formed : ∀ entry ∈ work.retired, entry ∈ work.formed
  retired_once : (work.retired.flatMap Prod.snd).Nodup
  current : ∀ id batch, work.held id = some batch → latest work.formed id = some batch
  held_formed : ∀ id batch, work.held id = some batch → (id, batch) ∈ work.formed
  held_apart : ∀ id batch, work.held id = some batch → ∀ position ∈ batch,
    position ∉ work.retired.flatMap Prod.snd

variable {total step : Nat} {work after : Work} {id start count : Nat} {batch : List Nat}

/-! ### What the tables say after a move -/

theorem form_next_iff {other position : Nat} :
    (work.form step id start count).next other = some position ↔
      other = id ∧ start + count * step = position ∨
        other ≠ id ∧ work.next other = some position := by
  simp only [form, Function.update_apply, ite_eq_iff, Option.some.injEq]

theorem form_held_iff {other : Nat} {kept : List Nat} :
    (work.form step id start count).held other = some kept ↔
      other = id ∧ stride start step count = kept ∨
        other ≠ id ∧ work.held other = some kept := by
  simp only [form, Function.update_apply, ite_eq_iff, Option.some.injEq]

theorem retire_held_iff {other : Nat} {kept : List Nat} :
    (work.retire id batch).held other = some kept ↔
      other ≠ id ∧ work.held other = some kept := by
  simp [retire, Function.update_apply]

theorem leave_next_iff {other position : Nat} :
    (work.leave id).next other = some position ↔
      other ≠ id ∧ work.next other = some position := by
  simp [leave, Function.update_apply]

/-! ### Moves keep the partition -/

/-- Two listed batches that share a position are the same entry. -/
theorem eq_of_shared {entries : List (Nat × List Nat)} {first second : Nat × List Nat}
    {position : Nat} (disjoint : (entries.flatMap Prod.snd).Nodup) (left : first ∈ entries)
    (right : second ∈ entries) (inFirst : position ∈ first.2) (inSecond : position ∈ second.2) :
    first = second := by
  induction entries with
  | nil => cases left
  | cons entry rest ih =>
      rw [List.flatMap_cons, List.nodup_append] at disjoint
      have apart : ∀ other ∈ rest, position ∈ entry.2 → position ∉ other.2 :=
        fun other member here there =>
          disjoint.2.2 position here position (List.mem_flatMap.mpr ⟨other, member, there⟩) rfl
      rcases List.mem_cons.mp left with here | later <;>
        rcases List.mem_cons.mp right with here' | later'
      · rw [here, here']
      · exact absurd inSecond (apart second later' (here ▸ inFirst))
      · exact absurd inFirst (apart first later (here' ▸ inSecond))
      · exact ih disjoint.2.1 later later'

/-- The initial work is partitioned. -/
theorem partitioned_initial (pos : 0 < step) : (initial step).Partitioned total step where
  residue id start next := by
    simp only [initial, Option.ite_none_right_eq_some, Option.some.injEq] at next
    obtain ⟨below, rfl⟩ := next
    exact Nat.mod_eq_of_lt below
  alive id batch held := by cases held
  inside entry member := by cases member
  behind entry member := by cases member
  disjoint := List.nodup_nil
  covered position _ := by
    right
    refine ⟨position % step, Nat.mod_le _ _, ?_⟩
    simp [initial, Nat.mod_lt _ pos]
  kept entry member := by cases member
  retired_formed entry member := by cases member
  retired_once := List.nodup_nil
  current id batch held := by cases held
  held_formed id batch held := by cases held
  held_apart id batch held := by cases held

/-- A new batch is disjoint from all earlier ones: those of the same class lie
behind the worker, the others have another residue. -/
theorem Partitioned.new_apart (parted : work.Partitioned total step)
    (next : work.next id = some start) {position : Nat}
    (visited : position ∈ stride start step count) :
    position ∉ work.formed.flatMap Prod.snd := by
  intro earlier
  obtain ⟨entry, member, inEntry⟩ := List.mem_flatMap.mp earlier
  have same : entry.1 = id := by
    rw [← (parted.inside entry member position inEntry).2, mod_of_mem_stride visited,
      parted.residue id start next]
  have before := parted.behind entry member position inEntry start (same ▸ next)
  have after := le_of_mem_stride visited
  omega

theorem Partitioned.form (parted : work.Partitioned total step) (pos : 0 < step)
    (next : work.next id = some start) (free : work.held id = none)
    (inside : ∀ position ∈ stride start step count, position < total) :
    (work.form step id start count).Partitioned total step where
  residue other position found := by
    rcases form_next_iff.mp found with ⟨rfl, rfl⟩ | ⟨_, found⟩
    · rw [Nat.add_mul_mod_self_right]
      exact parted.residue other start next
    · exact parted.residue other position found
  alive other batch found := by
    rcases form_held_iff.mp found with ⟨same, _⟩ | ⟨differs, found⟩
    · exact ⟨_, form_next_iff.mpr (.inl ⟨same, rfl⟩)⟩
    · obtain ⟨position, there⟩ := parted.alive other batch found
      exact ⟨position, form_next_iff.mpr (.inr ⟨differs, there⟩)⟩
  inside entry member position inEntry := by
    rcases List.mem_append.mp member with old | new
    · exact parted.inside entry old position inEntry
    · rw [List.mem_singleton.mp new] at inEntry ⊢
      exact ⟨inside position inEntry,
        (mod_of_mem_stride inEntry).trans (parted.residue id start next)⟩
  behind entry member position inEntry limit found := by
    rcases form_next_iff.mp found with ⟨same, rfl⟩ | ⟨differs, found⟩
    · rcases List.mem_append.mp member with old | new
      · have before := parted.behind entry old position inEntry start (same ▸ next)
        omega
      · rw [List.mem_singleton.mp new] at inEntry
        exact lt_of_mem_stride pos inEntry
    · rcases List.mem_append.mp member with old | new
      · exact parted.behind entry old position inEntry limit found
      · exact absurd (by rw [List.mem_singleton.mp new]) differs
  disjoint := by
    simp only [Work.form, List.flatMap_append, List.flatMap_singleton]
    refine List.nodup_append.mpr ⟨parted.disjoint, stride_nodup pos, ?_⟩
    intro earlier inFormed later inNew equal
    exact parted.new_apart next inNew (equal ▸ inFormed)
  covered position below := by
    have listed : (work.form step id start count).formed.flatMap Prod.snd =
        work.formed.flatMap Prod.snd ++ stride start step count := by
      simp only [Work.form, List.flatMap_append, List.flatMap_singleton]
    rw [listed, List.mem_append]
    rcases parted.covered position below with earlier | ⟨limit, reached, found⟩
    · exact .inl (.inl earlier)
    · by_cases same : position % step = id
      · rw [same, next, Option.some.injEq] at found
        subst found
        by_cases taken : position < start + count * step
        · refine .inl (.inr (mem_stride_of_mod reached taken ?_))
          rw [same, parted.residue id start next]
        · exact .inr ⟨start + count * step, by omega, form_next_iff.mpr (.inl ⟨same, rfl⟩)⟩
      · exact .inr ⟨limit, reached, form_next_iff.mpr (.inr ⟨same, found⟩)⟩
  kept entry member := by
    rcases List.mem_append.mp member with old | new
    · rcases parted.kept entry old with gone | held
      · exact .inl gone
      · refine .inr (form_held_iff.mpr (.inr ⟨?_, held⟩))
        rintro same
        rw [same, free] at held
        cases held
    · rw [List.mem_singleton.mp new]
      exact .inr (form_held_iff.mpr (.inl ⟨rfl, rfl⟩))
  retired_formed entry member := List.mem_append_left _ (parted.retired_formed entry member)
  retired_once := parted.retired_once
  current other batch found := by
    rcases form_held_iff.mp found with ⟨rfl, rfl⟩ | ⟨differs, found⟩
    · exact latest_append_self _ _ _
    · rw [Work.form, latest_append_of_ne differs.symm]
      exact parted.current other batch found
  held_formed other batch found := by
    rcases form_held_iff.mp found with ⟨rfl, rfl⟩ | ⟨_, found⟩
    · exact List.mem_append_right _ (List.mem_singleton_self _)
    · exact List.mem_append_left _ (parted.held_formed other batch found)
  held_apart other batch found position inBatch := by
    rcases form_held_iff.mp found with ⟨_, rfl⟩ | ⟨_, found⟩
    · intro gone
      obtain ⟨entry, member, inEntry⟩ := List.mem_flatMap.mp gone
      exact parted.new_apart next inBatch
        (List.mem_flatMap.mpr ⟨entry, parted.retired_formed entry member, inEntry⟩)
    · exact parted.held_apart other batch found position inBatch

theorem Partitioned.retire (parted : work.Partitioned total step)
    (held : work.held id = some batch) : (work.retire id batch).Partitioned total step where
  residue := parted.residue
  alive other kept found := parted.alive other kept (retire_held_iff.mp found).2
  inside := parted.inside
  behind := parted.behind
  disjoint := parted.disjoint
  covered := parted.covered
  kept entry member := by
    rcases parted.kept entry member with gone | found
    · exact .inl (List.mem_append_left _ gone)
    · by_cases same : entry.1 = id
      · rw [same, held, Option.some.injEq] at found
        left
        apply List.mem_append_right
        rw [List.mem_singleton, ← same, found]
      · exact .inr (retire_held_iff.mpr ⟨same, found⟩)
  retired_formed entry member := by
    rcases List.mem_append.mp member with old | new
    · exact parted.retired_formed entry old
    · rw [List.mem_singleton.mp new]
      exact parted.held_formed id batch held
  retired_once := by
    simp only [Work.retire, List.flatMap_append, List.flatMap_singleton]
    refine List.nodup_append.mpr ⟨parted.retired_once, ?_, ?_⟩
    · exact (List.nodup_flatMap.mp parted.disjoint).1 _ (parted.held_formed id batch held)
    · intro earlier gone later inBatch equal
      exact parted.held_apart id batch held later inBatch (equal ▸ gone)
  current other kept found := parted.current other kept (retire_held_iff.mp found).2
  held_formed other kept found := parted.held_formed other kept (retire_held_iff.mp found).2
  held_apart other kept found position inKept := by
    obtain ⟨differs, found⟩ := retire_held_iff.mp found
    simp only [Work.retire, List.flatMap_append, List.flatMap_singleton, List.mem_append]
    rintro (gone | inBatch)
    · exact parted.held_apart other kept found position inKept gone
    · -- Two held batches that share a position belong to one worker.
      have equal := eq_of_shared parted.disjoint (parted.held_formed other kept found)
        (parted.held_formed id batch held) inKept inBatch
      exact differs (congrArg Prod.fst equal)

theorem Partitioned.leave (parted : work.Partitioned total step)
    (next : work.next id = some start) (free : work.held id = none) (done : total ≤ start) :
    (work.leave id).Partitioned total step where
  residue other position found := parted.residue other position (leave_next_iff.mp found).2
  alive other batch found := by
    obtain ⟨position, there⟩ := parted.alive other batch found
    refine ⟨position, leave_next_iff.mpr ⟨?_, there⟩⟩
    rintro rfl
    have held : work.held other = some batch := found
    rw [held] at free
    cases free
  inside := parted.inside
  behind entry member position inEntry limit found :=
    parted.behind entry member position inEntry limit (leave_next_iff.mp found).2
  disjoint := parted.disjoint
  covered position below := by
    rcases parted.covered position below with listed | ⟨limit, reached, found⟩
    · exact .inl listed
    · refine .inr ⟨limit, reached, leave_next_iff.mpr ⟨?_, found⟩⟩
      intro same
      rw [same, next, Option.some.injEq] at found
      omega
  kept := parted.kept
  retired_formed := parted.retired_formed
  retired_once := parted.retired_once
  current := parted.current
  held_formed := parted.held_formed
  held_apart := parted.held_apart

/-- Every move keeps the partition. -/
theorem Partitioned.of_moves (parted : work.Partitioned total step) (pos : 0 < step)
    (moves : Relation.ReflTransGen (Moves total step) work after) :
    after.Partitioned total step := by
  induction moves with
  | refl => exact parted
  | tail _ move ih =>
      cases move with
      | form next free inside => exact ih.form pos next free inside
      | retire held => exact ih.retire held
      | leave next free done => exact ih.leave next free done

/-- Once all workers have left, every position is in exactly one retired batch. -/
theorem Partitioned.complete (parted : work.Partitioned total step)
    (left : ∀ id, work.next id = none) {position : Nat} (below : position < total) :
    (work.retired.flatMap Prod.snd).count position = 1 := by
  have retired : position ∈ work.retired.flatMap Prod.snd := by
    rcases parted.covered position below with listed | ⟨start, _, found⟩
    · obtain ⟨entry, member, inEntry⟩ := List.mem_flatMap.mp listed
      rcases parted.kept entry member with gone | held
      · exact List.mem_flatMap.mpr ⟨entry, gone, inEntry⟩
      · obtain ⟨start, found⟩ := parted.alive _ _ held
        rw [left] at found
        cases found
    · rw [left] at found
      cases found
  exact List.count_eq_one_of_mem parted.retired_once retired

end Work

end CephGeoRep.Support
