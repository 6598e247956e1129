import Mathlib.Order.Defs.LinearOrder
import Mathlib.Data.Set.Basic
import CephGeoRep.Semantics.Machine

/-!
# Replication by a watermark

A source holds versions under keys, each with a stamp, and replicas at several places are
to hold the wanted ones. Only what is newer than a watermark is looked at, so the watermark
may move once that has been copied, and a new source must not differ from the old one
behind it. It may be lost and start again from an older one.
-/

namespace CephGeoRep.Semantics

universe u v w x

/-- What is to be replicated, where to, and how old it is. -/
structure Policy (Place : Type u) (Key : Type v) (Version : Type w) (Time : Type x) where
  wanted : Key → Version → Prop
  places : Set Place
  stamp : Version → Time

namespace Replication

variable {Place : Type u} {Key : Type v} {Version : Type w} {Time : Type x}

/-- The source as it was last looked at, the replicas, the watermark, and the watermark
that replication began with. -/
@[ext]
structure State (Place : Type u) (Key : Type v) (Version : Type w) (Time : Type x) where
  source : Key → Option Version
  replica : Place → Key → Option Version
  floor : Time
  mark : Time

inductive Choice (Place : Type u) (Key : Type v) (Version : Type w) (Time : Type x) where
  /-- Look at the source again. -/
  | take (source : Key → Option Version)
  | copy (place : Place) (key : Key)
  /-- The watermark moves behind a complete copy. -/
  | advance (mark : Time)
  /-- The watermark is lost. -/
  | retreat (mark : Time)

section Machine

variable [DecidableEq Place] [DecidableEq Key]

/-- The replicas with a version under a key at one place. -/
def put (replica : Place → Key → Option Version) (place : Place) (key : Key)
    (version : Version) : Place → Key → Option Version :=
  fun place' key' => if place' = place ∧ key' = key then some version else replica place' key'

def State.step (state : State Place Key Version Time) :
    Choice Place Key Version Time → Option (State Place Key Version Time)
  | .take source => some { state with source := source }
  | .copy place key =>
    (state.source key).map fun version =>
      { state with replica := put state.replica place key version }
  | .advance mark | .retreat mark => some { state with mark := mark }

/-- Replication starts with nothing at either end. -/
def machine : Machine (State Place Key Version Time) (Choice Place Key Version Time) where
  Initial state := state.source = (fun _ => none) ∧ state.replica = (fun _ _ => none) ∧
    state.mark = state.floor
  step := State.step

end Machine

section Held

variable {policy : Policy Place Key Version Time}
  {state : State Place Key Version Time} {key key' : Key} {version version' : Version}

/-- Some replica has the version. -/
def State.Held (policy : Policy Place Key Version Time) (state : State Place Key Version Time)
    (key : Key) (version : Version) : Prop :=
  ∃ place ∈ policy.places, state.replica place key = some version

/-- A copy of the present source takes nothing away. -/
theorem State.Held.put [DecidableEq Place] [DecidableEq Key]
    (held : state.Held policy key version)
    (here : state.source key = some version) (found : state.source key' = some version')
    (place : Place) :
    ({ state with replica := put state.replica place key' version' } :
      State Place Key Version Time).Held policy key version := by
  obtain ⟨place', known, has⟩ := held
  refine ⟨place', known, ?_⟩
  show (if place' = place ∧ key = key' then some version' else state.replica place' key) = _
  split
  · next same => rw [← found, ← same.2, here]
  · exact has

end Held

section Rules

variable [LinearOrder Time] (policy : Policy Place Key Version Time)
  (state : State Place Key Version Time)

namespace State

/-- What has changed in a new source is newer than the watermark. -/
def Settled (source : Key → Option Version) : Prop :=
  ∀ key version, source key = some version → policy.wanted key version →
    state.floor < policy.stamp version → policy.stamp version ≤ state.mark →
    state.source key = some version

/-- Everything wanted that is newer than the watermark has been copied. -/
def Copied : Prop :=
  ∀ key version, state.source key = some version → policy.wanted key version →
    state.mark < policy.stamp version → state.Held policy key version

/-- Everything wanted that is not newer than the watermark, and newer than the first one,
has been copied. -/
def Complete : Prop :=
  ∀ key version, state.source key = some version → policy.wanted key version →
    state.floor < policy.stamp version → policy.stamp version ≤ state.mark →
    state.Held policy key version

end State

/-- The rules of replication by a watermark. -/
def rules : Choice Place Key Version Time → Prop
  | .take source => state.Settled policy source
  | .copy _ _ => True
  | .advance _ => state.Copied policy
  | .retreat mark => mark ≤ state.mark

end Rules

section Invariant

variable [LinearOrder Time] {policy : Policy Place Key Version Time}
  {state : State Place Key Version Time}

/-- Behind a complete copy the watermark does not matter. -/
theorem State.Complete.held (complete : state.Complete policy) (copied : state.Copied policy)
    {key : Key} {version : Version} (here : state.source key = some version)
    (wanted : policy.wanted key version) (newer : state.floor < policy.stamp version) :
    state.Held policy key version := by
  rcases le_or_gt (policy.stamp version) state.mark with before | behind
  · exact complete key version here wanted newer before
  · exact copied key version here wanted behind

variable [DecidableEq Place] [DecidableEq Key]

/-- In every run by the rules the replicas are complete up to the watermark. -/
theorem complete_invariant :
    (machine : Machine (State Place Key Version Time) _).Invariant (rules policy)
      (State.Complete policy) where
  initial := by
    rintro state ⟨empty, _, _⟩ key version here
    rw [empty] at here
    cases here
  preserved state choice next _ complete allowed taken := by
    cases choice with
    | take source =>
        cases taken
        intro key version here wanted newer before
        have settled := allowed key version here wanted newer before
        exact complete key version settled wanted newer before
    | copy place key' =>
        obtain ⟨version', found, rfl⟩ := Option.map_eq_some_iff.mp taken
        intro key version here wanted newer before
        exact (complete key version here wanted newer before).put here found place
    | advance mark =>
        cases taken
        intro key version here wanted newer _
        exact complete.held allowed here wanted newer
    | retreat mark =>
        cases taken
        intro key version here wanted newer before
        exact complete key version here wanted newer (before.trans allowed)

end Invariant

end Replication

end CephGeoRep.Semantics
