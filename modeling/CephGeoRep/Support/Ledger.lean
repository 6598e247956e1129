/-!
# Ledgers of resources

A resource is obtained by an owner and released once. The ledger lists what each owner
has obtained and not released since, and what was released without being owned. As long
as nothing is obtained that somebody owns, a release by the owner takes the resource
from nobody else.
-/

namespace CephGeoRep.Support

universe u v

/-- Who owns what, and which releases were none of the releaser's business. -/
structure Ledger (Owner : Type u) (Resource : Type v) where
  owned : List (Owner × Resource)
  misused : List (Owner × Resource)

namespace Ledger

variable {Owner : Type u} {Resource : Type v} {ledger : Ledger Owner Resource}
  {owner other : Owner} {resource another : Resource}

/-- Nothing has happened yet. -/
def empty : Ledger Owner Resource := ⟨[], []⟩

def obtain (ledger : Ledger Owner Resource) (owner : Owner) (resource : Resource) :
    Ledger Owner Resource :=
  { ledger with owned := ledger.owned ++ [(owner, resource)] }

/-- No release was wrong, and no resource has two owners. -/
structure Clean (ledger : Ledger Owner Resource) : Prop where
  misused : ledger.misused = []
  apart : (ledger.owned.map Prod.snd).Nodup

theorem clean_empty : (empty : Ledger Owner Resource).Clean where
  misused := rfl
  apart := List.nodup_nil

theorem mem_obtain : (owner, resource) ∈ (ledger.obtain other another).owned ↔
    (owner, resource) ∈ ledger.owned ∨ owner = other ∧ resource = another := by
  simp [obtain]

/-- Obtaining what nobody owns. -/
theorem Clean.obtain (clean : ledger.Clean) (fresh : resource ∉ ledger.owned.map Prod.snd)
    (owner : Owner) : (ledger.obtain owner resource).Clean where
  misused := clean.misused
  apart := by
    simp only [Ledger.obtain, List.map_append, List.map_cons, List.map_nil]
    refine List.nodup_append.mpr ⟨clean.apart, by simp, ?_⟩
    rintro old member _ last rfl
    have equal : old = resource := List.mem_singleton.mp last
    exact fresh (equal ▸ member)

variable [DecidableEq Owner] [DecidableEq Resource]

/-- A release of what the owner does not own is noted. -/
def release (ledger : Ledger Owner Resource) (owner : Owner) (resource : Resource) :
    Ledger Owner Resource :=
  if (owner, resource) ∈ ledger.owned then
    { ledger with owned := ledger.owned.erase (owner, resource) }
  else { ledger with misused := ledger.misused ++ [(owner, resource)] }

theorem release_of_mem (owned : (owner, resource) ∈ ledger.owned) :
    ledger.release owner resource =
      { ledger with owned := ledger.owned.erase (owner, resource) } := if_pos owned

/-- Releasing what one owns. -/
theorem Clean.release (clean : ledger.Clean) (owned : (owner, resource) ∈ ledger.owned) :
    (ledger.release owner resource).Clean := by
  rw [release_of_mem owned]
  exact ⟨clean.misused, clean.apart.sublist (List.erase_sublist.map _)⟩

/-- A released resource has no owner left. -/
theorem Clean.not_mem_release (clean : ledger.Clean) (owned : (owner, resource) ∈ ledger.owned) :
    resource ∉ (ledger.release owner resource).owned.map Prod.snd := by
  obtain ⟨front, back, split⟩ := List.append_of_mem owned
  have apart := clean.apart
  have absent : (owner, resource) ∉ front := by
    intro inside
    rw [split, List.map_append, List.map_cons] at apart
    exact (List.nodup_append.mp apart).2.2 resource (List.mem_map_of_mem inside) resource
      List.mem_cons_self rfl
  rw [release_of_mem owned]
  simp only [split, List.erase_append_right _ absent, List.erase_cons_head]
  rw [split] at apart
  simp only [List.map_append, List.map_cons] at apart ⊢
  have middle := List.perm_middle.nodup_iff.mp apart
  exact (List.nodup_cons.mp middle).1

/-- A release adds nothing to what is owned. -/
theorem release_sublist (ledger : Ledger Owner Resource) (owner : Owner) (resource : Resource) :
    (ledger.release owner resource).owned.Sublist ledger.owned := by
  rw [release]
  split
  · exact List.erase_sublist
  · exact List.Sublist.refl _

/-- What others own stays theirs. -/
theorem mem_release_of_ne (differs : (other, another) ≠ (owner, resource))
    (owned : (other, another) ∈ ledger.owned) :
    (other, another) ∈ (ledger.release owner resource).owned := by
  rw [release]
  split
  · exact (List.mem_erase_of_ne differs).mpr owned
  · exact owned

/-- A wrong release is never forgotten. -/
theorem misused_release (ledger : Ledger Owner Resource) (owner : Owner) (resource : Resource) :
    ledger.misused <+: (ledger.release owner resource).misused := by
  rw [release]
  split
  · exact List.prefix_refl _
  · exact List.prefix_append ..

/-- Releasing what one does not own. -/
theorem misused_ne_nil_of_not_mem (foreign : (owner, resource) ∉ ledger.owned) :
    (ledger.release owner resource).misused ≠ [] := by
  rw [release, if_neg foreign]
  simp

end Ledger

end CephGeoRep.Support
