import Mathlib.Data.Set.Card
import Mathlib.Logic.Relation
import Mathlib.Tactic.Common

/-!
# Counting connected classes

How many classes of a graph meet a set of its vertices. A search that lists the classes as pieces
finds as many pieces.
-/

namespace Hynergy.Lib

open Relation

variable {V : Type*} {R : V → V → Prop} {s : Set V} {pieces : List (List V)}

/-- How many classes the vertices of the set are in. -/
noncomputable def classCount (R : V → V → Prop) (s : Set V) : Nat :=
  ((fun u => {v | ReflTransGen R u v}) '' s).ncard

/-- The pieces are the classes of the vertices of the set. -/
structure ClassPieces (R : V → V → Prop) (s : Set V) (pieces : List (List V)) : Prop where
  covers : ∀ u ∈ s, ∃ piece ∈ pieces, u ∈ piece
  inside : ∀ piece ∈ pieces, ∀ u ∈ piece, u ∈ s
  nonempty : ∀ piece ∈ pieces, piece ≠ []
  together : ∀ piece ∈ pieces, ∀ u ∈ piece, ∀ v ∈ s, v ∈ piece ↔ ReflTransGen R u v
  disjoint : pieces.Pairwise fun p q => ∀ u ∈ p, u ∉ q

theorem ClassPieces.count (h : ClassPieces R s pieces) : classCount R s = pieces.length := by
  classical
  let classOf : List V → Set V := fun piece => {v | ∃ u ∈ piece, ReflTransGen R u v}
  have same : ∀ piece ∈ pieces, ∀ u ∈ piece, {v | ReflTransGen R u v} = classOf piece := by
    intro piece member u hu
    ext v
    constructor
    · exact fun path => ⟨u, hu, path⟩
    · rintro ⟨w, hw, path⟩
      exact ((h.together piece member u hu w (h.inside piece member w hw)).mp hw).trans path
  have image : (fun u => {v | ReflTransGen R u v}) '' s = ((pieces.map classOf).toFinset : Set (Set V)) := by
    ext c
    rw [Set.mem_image, Finset.mem_coe, List.mem_toFinset, List.mem_map]
    constructor
    · rintro ⟨u, hu, rfl⟩
      obtain ⟨piece, member, here⟩ := h.covers u hu
      exact ⟨piece, member, (same piece member u here).symm⟩
    · rintro ⟨piece, member, rfl⟩
      obtain ⟨u, hu⟩ := List.exists_mem_of_ne_nil piece (h.nonempty piece member)
      exact ⟨u, h.inside piece member u hu, same piece member u hu⟩
  have nodup : (pieces.map classOf).Nodup := by
    rw [List.Nodup, List.pairwise_map]
    refine h.disjoint.imp_of_mem fun {p q} hp hq apart equal => ?_
    obtain ⟨u, hu⟩ := List.exists_mem_of_ne_nil p (h.nonempty p hp)
    obtain ⟨w, hw, path⟩ : u ∈ classOf q := equal ▸ ⟨u, hu, .refl⟩
    exact apart u hu ((h.together q hq w hw u (h.inside p hp u hu)).mpr path)
  rw [classCount, image, Set.ncard_coe_finset, List.toFinset_card_of_nodup nodup, List.length_map]

end Hynergy.Lib
