import CephGeoRep.Semantics.Machine

/-!
# Refinement

A machine refines another one if each of its steps is matched by a run of the other
one, which may be empty. What holds in the reachable states of the upper machine then
holds of the reachable states of the lower one, as far as the relation shows it.
-/

namespace CephGeoRep.Semantics.Machine

universe u v w x

variable {Lower : Type u} {LowerChoice : Type v} {Upper : Type w} {UpperChoice : Type x}
  {lower : Machine Lower LowerChoice} {guard : Guard Lower LowerChoice}
  {upper : Machine Upper UpperChoice} {allowed : Guard Upper UpperChoice}
  {related : Lower → Upper → Prop}

/-- A forward simulation. The obligation for a step may use that both states are
reachable. -/
structure Refines (lower : Machine Lower LowerChoice) (guard : Guard Lower LowerChoice)
    (upper : Machine Upper UpperChoice) (allowed : Guard Upper UpperChoice)
    (related : Lower → Upper → Prop) : Prop where
  initial : ∀ state, lower.Initial state → ∃ image, upper.Initial image ∧ related state image
  matched : ∀ state choice next image, lower.Reachable guard state →
    upper.Reachable allowed image → related state image → guard state choice →
    lower.step state choice = some next →
    ∃ choices final, upper.Steps allowed image choices final ∧ related next final

/-- Every run is matched by a run. -/
theorem Refines.steps (refines : Refines lower guard upper allowed related)
    {origin final : Lower} {choices : List LowerChoice} {image : Upper}
    (steps : lower.Steps guard origin choices final) (reachable : lower.Reachable guard origin)
    (reachable' : upper.Reachable allowed image) (start : related origin image) :
    ∃ choices' final', upper.Steps allowed image choices' final' ∧ related final final' := by
  induction steps with
  | refl => exact ⟨[], image, .refl, start⟩
  | step prior permitted taken ih =>
      obtain ⟨before, middle, run, here⟩ := ih
      obtain ⟨after, last, more, there⟩ := refines.matched _ _ _ _ (reachable.steps prior)
        (reachable'.steps run) here permitted taken
      exact ⟨before ++ after, last, run.trans more, there⟩

/-- Every reachable state is related to a reachable one. -/
theorem Refines.of_reachable (refines : Refines lower guard upper allowed related)
    {state : Lower} (reachable : lower.Reachable guard state) :
    ∃ image, upper.Reachable allowed image ∧ related state image := by
  obtain ⟨start, choices, valid, run⟩ := reachable
  obtain ⟨first, valid', here⟩ := refines.initial start valid
  obtain ⟨_, image, run', there⟩ :=
    refines.steps run (.initial valid) (.initial valid') here
  exact ⟨image, .steps (.initial valid') run', there⟩

/-- An invariant of the upper machine holds of what the lower one is related to. -/
theorem Refines.invariant {holds : Upper → Prop}
    (refines : Refines lower guard upper allowed related)
    (invariant : upper.Invariant allowed holds) {state : Lower}
    (reachable : lower.Reachable guard state) :
    ∃ image, related state image ∧ holds image := by
  obtain ⟨image, reachable', here⟩ := refines.of_reachable reachable
  exact ⟨image, here, invariant.of_reachable reachable'⟩

end CephGeoRep.Semantics.Machine
