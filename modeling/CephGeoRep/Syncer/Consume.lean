import CephGeoRep.Support.Stride
import CephGeoRep.Syncer.SyncProcess

/-!
# What `consume` takes

`Fills queue before after count` says everything the loop of `consume` does when
it adds `count` files. The other modules use it instead of the loop.
-/

namespace CephGeoRep

open Support

/-- The argument `add` pushes for a queue position. -/
def pathAt (queue : List File) (position : Nat) : Arg :=
  queue[position]?.map File.path

namespace SyncProcess

/-- `after` is `before` with the next `count` files of its stride added. -/
structure Fills (queue : List File) (before after : SyncProcess) (count : Nat) : Prop where
  id : after.id = before.id
  inc : after.inc = before.inc
  pid : after.pid = before.pid
  lastChild : after.lastChild = before.lastChild
  sendingTo : after.sendingTo = before.sendingTo
  startPayloadSz : after.startPayloadSz = before.startPayloadSz
  startMemUsage : after.startMemUsage = before.startMemUsage
  maxMemUsage : after.maxMemUsage = before.maxMemUsage
  fileItr : after.fileItr = before.fileItr + count * before.inc
  batch : after.batch = before.batch ++ stride before.fileItr before.inc count
  payload : after.payload =
    before.payload ++ (stride before.fileItr before.inc count).map (pathAt queue)
  inside : ∀ position ∈ stride before.fileItr before.inc count, position < queue.length

variable {queue : List File}

theorem Fills.refl (process : SyncProcess) : Fills queue process process 0 where
  id := rfl
  inc := rfl
  pid := rfl
  lastChild := rfl
  sendingTo := rfl
  startPayloadSz := rfl
  startMemUsage := rfl
  maxMemUsage := rfl
  fileItr := by simp
  batch := by simp
  payload := by simp
  inside := by simp

/-- Adding the file under the iterator and then `count` more. -/
theorem Fills.cons {before after : SyncProcess} {file : File} {count : Nat}
    (found : queue[before.fileItr]? = some file)
    (rest : Fills queue { before.add file with fileItr := before.fileItr + before.inc }
      after count) :
    Fills queue before after (count + 1) where
  id := rest.id
  inc := rest.inc
  pid := rest.pid
  lastChild := rest.lastChild
  sendingTo := rest.sendingTo
  startPayloadSz := rest.startPayloadSz
  startMemUsage := rest.startMemUsage
  maxMemUsage := rest.maxMemUsage
  fileItr := by
    rw [rest.fileItr, Nat.succ_mul]
    simp only [add]
    omega
  batch := by simp [rest.batch, add, stride_succ]
  payload := by simp [rest.payload, add, stride_succ, pathAt, found]
  inside := by
    intro position visited
    rcases List.mem_cons.mp visited with rfl | later
    · exact (List.getElem?_eq_some_iff.mp found).1
    · exact rest.inside position later

/-- The loop of `consume` adds some number of files. -/
theorem fill_fills (queue : List File) (rounds : Nat) (process : SyncProcess) :
    ∃ count, Fills queue process (process.fill queue rounds) count := by
  induction rounds generalizing process with
  | zero => exact ⟨0, .refl process⟩
  | succ rounds ih =>
      rw [fill]
      split
      · exact ⟨0, .refl process⟩
      · next file found =>
        split
        · exact ⟨0, .refl process⟩
        · obtain ⟨count, rest⟩ :=
            ih { process.add file with fileItr := process.fileItr + process.inc }
          exact ⟨count + 1, .cons found rest⟩

/-- `consume` adds some number of files and then the trailer. -/
theorem consume_fills (process : SyncProcess) (queue : List File) (destination : CString) :
    ∃ filled count, Fills queue process filled count ∧
      process.consume queue destination =
        { filled with
          sendingTo := if destination.isEmpty then process.sendingTo else destination
          payload := filled.payload ++ trailer destination } := by
  obtain ⟨count, fills⟩ := fill_fills queue queue.length process
  refine ⟨process.fill queue queue.length, count, fills, ?_⟩
  simp [consume, fills.sendingTo]

/-- On a process without files the batch of `consume` is a stride. -/
theorem consume_takes {process : SyncProcess} (empty : process.batch = [])
    (queue : List File) (destination : CString) :
    ∃ count, (process.consume queue destination).fileItr =
        process.fileItr + count * process.inc ∧
      (process.consume queue destination).batch = stride process.fileItr process.inc count ∧
      ∀ position ∈ stride process.fileItr process.inc count, position < queue.length := by
  obtain ⟨filled, count, fills, equal⟩ := process.consume_fills queue destination
  rw [equal]
  refine ⟨count, fills.fileItr, ?_, fills.inside⟩
  simpa [empty] using fills.batch

/-- The loop of `consume` takes the file under the iterator if it fits. -/
theorem fill_ne_nil {process : SyncProcess} {file : File}
    (found : queue[process.fileItr]? = some file) (fits : process.fullTest file = false)
    (rounds : Nat) : (process.fill queue (rounds + 1)).batch ≠ [] := by
  rw [fill, found]
  simp only [fits, Bool.false_eq_true, ↓reduceIte]
  obtain ⟨count, fills⟩ := fill_fills queue rounds
    { process.add file with fileItr := process.fileItr + process.inc }
  rw [fills.batch]
  simp [add]

/-- `consume` takes at least one file when the next one fits. -/
theorem consume_ne_nil {process : SyncProcess} {file : File}
    (found : queue[process.fileItr]? = some file) (fits : process.fullTest file = false)
    (destination : CString) : (process.consume queue destination).batch ≠ [] := by
  obtain ⟨rounds, length⟩ : ∃ rounds, queue.length = rounds + 1 := by
    obtain ⟨bound, _⟩ := List.getElem?_eq_some_iff.mp found
    exact ⟨queue.length - 1, by omega⟩
  have taken := fill_ne_nil found fits rounds
  rw [← length] at taken
  exact taken

/-- The memory that the first files of a queue need on a payload. -/
def memOf (queue : List File) (count : Nat) : Nat :=
  ((queue.take count).map fun file => file.pathLen + 1 + sizeofPtr).sum

theorem memOf_succ {file : File} {position : Nat} (found : queue[position]? = some file) :
    memOf queue (position + 1) = memOf queue position + (file.pathLen + 1 + sizeofPtr) := by
  obtain ⟨bound, rfl⟩ := List.getElem?_eq_some_iff.mp found
  rw [memOf, List.take_succ_eq_append_getElem bound, List.map_append, List.sum_append,
    List.map_singleton, List.sum_singleton, memOf]

theorem memOf_mono (queue : List File) {first second : Nat} (order : first ≤ second) :
    memOf queue first ≤ memOf queue second := by
  obtain ⟨distance, rfl⟩ := Nat.exists_eq_add_of_le order
  rw [memOf, memOf, List.take_add, List.map_append, List.sum_append]
  omega

theorem memOf_le_length (queue : List File) (count : Nat) :
    memOf queue count ≤ memOf queue queue.length := by
  by_cases inside : count ≤ queue.length
  · exact memOf_mono queue inside
  · rw [memOf, memOf, List.take_of_length_le (by omega), List.take_length]

/-- The loop of `consume` does not get past a file that does not fit on a fresh
payload, as long as the memory it accounts for does not wrap. -/
theorem fill_le {limit : Nat} {file : File} (blocking : queue[limit]? = some file)
    {startMem maxMem : Nat} (full : maxMem ≤ startMem + file.pathLen + 1 + sizeofPtr)
    (small : startMem + memOf queue queue.length < 2 ^ 64) (rounds : Nat)
    (process : SyncProcess) (before : process.fileItr ≤ limit)
    (residue : process.fileItr % process.inc = limit % process.inc)
    (most : process.maxMemUsage = maxMem) (least : startMem ≤ process.currMemUsage)
    (used : process.currMemUsage ≤ startMem + memOf queue process.fileItr) :
    (process.fill queue rounds).fileItr ≤ limit := by
  induction rounds generalizing process with
  | zero => exact before
  | succ rounds ih =>
      rw [fill]
      split
      · exact before
      · next next found =>
        have total := memOf_le_length queue (process.fileItr + 1)
        rw [memOf_succ found] at total
        have unwrapped : sizeT (process.currMemUsage + next.pathLen + 1 + sizeofPtr) =
            process.currMemUsage + next.pathLen + 1 + sizeofPtr :=
          Nat.mod_eq_of_lt (by omega)
        split
        · exact before
        · next fits =>
          have differs : process.fileItr ≠ limit := by
            rintro same
            rw [same, blocking, Option.some.injEq] at found
            subst found
            simp only [fullTest, unwrapped, most, ge_iff_le, decide_eq_true_eq] at fits
            omega
          apply ih
          · simp only
            -- The next position of the same residue is not beyond the limit.
            obtain ⟨distance, equal⟩ := Nat.exists_eq_add_of_le before
            have divides : process.inc ∣ distance := by
              have zero := Nat.sub_mod_eq_zero_of_mod_eq residue.symm
              rw [equal, Nat.add_sub_cancel_left] at zero
              exact Nat.dvd_of_mod_eq_zero zero
            have far := Nat.le_of_dvd (by omega) divides
            omega
          · simp only [add, Nat.add_mod_right]
            exact residue
          · exact most
          · simp only [add, unwrapped]
            omega
          · simp only [add, unwrapped]
            have after := memOf_mono queue
              (show process.fileItr + 1 ≤ process.fileItr + process.inc by
                have := process.inc_pos
                omega)
            rw [memOf_succ found] at after
            omega

section Frame

variable (process : SyncProcess) {destination : CString}

@[simp] theorem consume_id : (process.consume queue destination).id = process.id := by
  obtain ⟨filled, count, fills, equal⟩ := process.consume_fills queue destination
  rw [equal]
  exact fills.id

@[simp] theorem consume_inc : (process.consume queue destination).inc = process.inc := by
  obtain ⟨filled, count, fills, equal⟩ := process.consume_fills queue destination
  rw [equal]
  exact fills.inc

@[simp] theorem consume_pid : (process.consume queue destination).pid = process.pid := by
  obtain ⟨filled, count, fills, equal⟩ := process.consume_fills queue destination
  rw [equal]
  exact fills.pid

end Frame

end SyncProcess

end CephGeoRep
