import CephGeoRep.Support.Balance
import CephGeoRep.Syncer.Memory

/-!
# The load of the processes

In a round that succeeds the batches of a process are, all together, the positions of
its residue class, whatever the memory limit made of them. The queue is sorted by size,
so the strides of two processes are interleaved with growing files.
-/

namespace CephGeoRep

open Semantics Support

/-- The size of the file at a position of the queue. -/
def sizeAt (queue : List File) (position : Nat) : Nat :=
  (queue[position]?.map File.size).getD 0

/-- The size of the largest file of a queue. -/
def largestFile (queue : List File) : Nat := (queue.map File.size).max?.getD 0

theorem sizeAt_le_largestFile (queue : List File) (position : Nat) :
    sizeAt queue position ≤ largestFile queue := by
  rw [sizeAt, largestFile]
  cases found : queue[position]? with
  | none => exact Nat.zero_le _
  | some file =>
      have member : file.size ∈ queue.map File.size :=
        List.mem_map_of_mem (List.mem_of_getElem? found)
      exact List.le_max?_getD_of_mem member

/-- The sizes grow along a sorted queue. -/
theorem sizeAt_mono {queue : List File}
    (ordered : queue.Pairwise fun first second => first.size ≤ second.size) {left right : Nat}
    (order : left ≤ right) (inside : right < queue.length) :
    sizeAt queue left ≤ sizeAt queue right := by
  rcases Nat.eq_or_lt_of_le order with rfl | before
  · exact le_rfl
  · have sizes := List.pairwise_iff_getElem.mp ordered left right (by omega) inside before
    simpa [sizeAt, List.getElem?_eq_getElem (show left < queue.length by omega),
      List.getElem?_eq_getElem inside] using sizes

namespace State

variable {capacity : Nat} {state : State} {id : Nat}

/-- The queue positions in the batches of a process that have left through the
exit-code-0 branch. -/
def handledBy (state : State) (id : Nat) : List Nat :=
  (state.retired.filter fun entry => entry.1 == id).flatMap Prod.snd

/-- The bytes in them. -/
def bytesBy (state : State) (id : Nat) : Nat :=
  ((state.handledBy id).map (sizeAt state.queue)).sum

/-- The queue of a round is sorted. -/
theorem sorted_invariant {guard : Machine.Guard State Choice} :
    (syncMachine capacity).Invariant guard
      fun state => state.queue.Pairwise fun first second => first.size ≤ second.size where
  initial := by
    rintro state ⟨tokenize, argMax, envpSize, config, rfl⟩
    exact List.Pairwise.nil
  preserved state choice next _ before _ taken := by
    rcases queue_of_move (moves_of_step taken) with same | ⟨_, sorted, _, _, ordered, same⟩
    · rw [same]
      exact before
    · rw [same]
      exact ordered

/-- Behind a round that succeeded a process has handled its residue class. -/
theorem handledBy_perm (reachable : (syncMachine capacity).Reachable Machine.unguarded state)
    (success : state.control = .returned .syncSuccess) (below : id < state.numSshFailsToInc) :
    (state.handledBy id).Perm (stride id state.numSshFailsToInc
      (visits state.queue.length state.numSshFailsToInc id)) := by
  obtain ⟨pos, parted⟩ := (batched_invariant.of_reachable reachable).parted (by rw [success]; rfl)
  obtain ⟨retired, once⟩ := (batches_of_reachable reachable).2.2.2 success
  have distinct : (state.handledBy id).Nodup :=
    parted.retired_once.sublist (List.filter_sublist.flatMap Prod.snd)
  refine (List.perm_ext_iff_of_nodup distinct (stride_nodup pos)).mpr fun position => ?_
  rw [mem_stride_visits pos below, handledBy, List.mem_flatMap]
  constructor
  · rintro ⟨entry, member, visited⟩
    obtain ⟨listed, same⟩ := List.mem_filter.mp member
    rw [← beq_iff_eq.mp same]
    exact parted.inside entry (retired entry listed) position visited
  · rintro ⟨inside, residue⟩
    have visited : position ∈ state.retired.flatMap Prod.snd :=
      List.count_pos_iff.mp (by rw [once position inside]; exact Nat.one_pos)
    obtain ⟨entry, listed, visited⟩ := List.mem_flatMap.mp visited
    have owner := (parted.inside entry (retired entry listed) position visited).2
    exact ⟨entry, List.mem_filter.mpr ⟨listed, beq_iff_eq.mpr (owner.symm.trans residue)⟩, visited⟩

/-- In a round that succeeds the numbers of files that two processes have handled differ by
at most one, and the bytes by at most the size of the largest file. -/
theorem balance_of_reachable
    (reachable : (syncMachine capacity).Reachable Machine.unguarded state)
    (success : state.control = .returned .syncSuccess) {first second : Nat}
    (inFirst : first < state.numSshFailsToInc) (inSecond : second < state.numSshFailsToInc) :
    (state.handledBy first).length ≤ (state.handledBy second).length + 1 ∧
      state.bytesBy first ≤ state.bytesBy second + largestFile state.queue := by
  have permFirst := handledBy_perm reachable success inFirst
  have permSecond := handledBy_perm reachable success inSecond
  constructor
  · rw [permFirst.length_eq, permSecond.length_eq, length_stride, length_stride]
    exact visits_le_succ (Nat.zero_lt_of_lt inSecond) inSecond
  · rw [bytesBy, bytesBy, (permFirst.map _).sum_eq, (permSecond.map _).sum_eq]
    apply sum_stride_le inFirst inSecond
    · intro left right order inside
      exact sizeAt_mono (sorted_invariant.of_reachable reachable) order inside
    · intro position _
      exact sizeAt_le_largestFile state.queue position

/-- Two processes with three files, the first of which is parked in between. -/
theorem balance_after_retry : ∃ state : State,
    state.control = .returned .syncSuccess ∧ state.handledBy 0 = [0, 2] ∧
    state.handledBy 1 = [1] ∧
    (state.handledBy 0).length ≤ (state.handledBy 1).length + 1 ∧
    state.bytesBy 0 ≤ state.bytesBy 1 + largestFile state.queue := by
  have executed : ((syncMachine 4).run Machine.unguarded
      (rsyncDaemon 2 "a:b".toList) retryRun).any (fun state =>
        decide (state.control = .returned .syncSuccess ∧ state.handledBy 0 = [0, 2] ∧
          state.handledBy 1 = [1] ∧ state.numSshFailsToInc = 2)) = true := by
    decide +kernel
  obtain ⟨state, reachable, ended⟩ := Machine.exists_of_run (rsyncDaemon_initial 2 _) executed
  obtain ⟨success, zero, one, two⟩ := of_decide_eq_true ended
  have balance := balance_of_reachable reachable success
    (show 0 < state.numSshFailsToInc by omega) (show 1 < state.numSshFailsToInc by omega)
  exact ⟨state, success, zero, one, balance⟩

end State

end CephGeoRep
