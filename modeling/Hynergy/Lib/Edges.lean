import Mathlib.Tactic.Common

/-!
# Edits of a symmetric relation

Both directions of one edge are added or taken away, or every edge at some vertices is.
-/

namespace Hynergy.Lib

variable {V : Type*} {R : V → V → Prop} {x y : V} {gone : V → Prop}

def Link (R : V → V → Prop) (x y : V) : V → V → Prop :=
  fun u v => R u v ∨ (u = x ∧ v = y) ∨ (u = y ∧ v = x)

def Unlink (R : V → V → Prop) (x y : V) : V → V → Prop :=
  fun u v => R u v ∧ ¬ (u = x ∧ v = y) ∧ ¬ (u = y ∧ v = x)

/-- Every edge at a vertex that is gone is taken away. -/
def Isolate (R : V → V → Prop) (gone : V → Prop) : V → V → Prop :=
  fun u v => R u v ∧ ¬ gone u ∧ ¬ gone v

/-- Symmetric, and no vertex has an edge to itself. -/
structure SimpleEdges (R : V → V → Prop) : Prop where
  symm : ∀ u v, R u v → R v u
  irrefl : ∀ u, ¬ R u u

namespace SimpleEdges

theorem congr {R' : V → V → Prop} (h : SimpleEdges R) (same : ∀ u v, R' u v ↔ R u v) :
    SimpleEdges R' :=
  ⟨fun u v edge => (same v u).mpr (h.symm u v ((same u v).mp edge)),
    fun u loop => h.irrefl u ((same u u).mp loop)⟩

theorem link (h : SimpleEdges R) (different : x ≠ y) : SimpleEdges (Link R x y) := by
  constructor
  · rintro u v (old | ⟨rfl, rfl⟩ | ⟨rfl, rfl⟩)
    · exact Or.inl (h.symm u v old)
    · exact Or.inr (Or.inr ⟨rfl, rfl⟩)
    · exact Or.inr (Or.inl ⟨rfl, rfl⟩)
  · rintro u (old | ⟨rfl, same⟩ | ⟨rfl, same⟩)
    · exact h.irrefl u old
    · exact different same
    · exact different same.symm

theorem unlink (h : SimpleEdges R) (x y : V) : SimpleEdges (Unlink R x y) :=
  ⟨fun u v ⟨edge, forth, back⟩ =>
      ⟨h.symm u v edge, fun same => back ⟨same.2, same.1⟩, fun same => forth ⟨same.2, same.1⟩⟩,
    fun u ⟨loop, _⟩ => h.irrefl u loop⟩

theorem isolate (h : SimpleEdges R) (gone : V → Prop) : SimpleEdges (Isolate R gone) :=
  ⟨fun u v ⟨edge, left, right⟩ => ⟨h.symm u v edge, right, left⟩,
    fun u ⟨loop, _⟩ => h.irrefl u loop⟩

end SimpleEdges

end Hynergy.Lib
