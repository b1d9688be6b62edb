import Mathlib.Order.Basic

/-!
# Pools of dense ids

A pool has slots for the ids up to a number and hands them out one slot after the other; an id is
live or vacant.
-/

namespace Hynergy.Lib

/-- Ids count from one. -/
structure IdPool where
  slots : Nat
  live : Nat → Prop

/-- What is done with an id. -/
inductive IdUse where
  | add (id : Nat)
  | remove (id : Nat)
  | use (id : Nat)

namespace IdPool

/-- An id is added at most one slot beyond the last, where none lives; others are used and removed
while they live. -/
def Accepts (limit : Nat) (self : IdPool) : IdUse → Prop
  | .add id => 0 < id ∧ id ≤ limit ∧ id ≤ self.slots + 1 ∧ ¬ self.live id
  | .remove id | .use id => self.live id

def apply (self : IdPool) : IdUse → IdPool
  | .add id => ⟨max self.slots id, fun other => other = id ∨ self.live other⟩
  | .remove id => ⟨self.slots, fun other => other ≠ id ∧ self.live other⟩
  | .use _ => self

/-- The same ids live in as many slots. -/
structure Same (p q : IdPool) : Prop where
  slots : q.slots = p.slots
  live : ∀ id, q.live id ↔ p.live id

namespace Same

variable {p q r : IdPool} {limit : Nat} {use : IdUse}

theorem refl (p : IdPool) : Same p p := ⟨rfl, fun _ => Iff.rfl⟩

theorem symm (h : Same p q) : Same q p := ⟨h.slots.symm, fun id => (h.live id).symm⟩

theorem trans (h : Same p q) (h' : Same q r) : Same p r :=
  ⟨h'.slots.trans h.slots, fun id => (h'.live id).trans (h.live id)⟩

theorem accepts (h : Same p q) : q.Accepts limit use ↔ p.Accepts limit use := by
  cases use <;> simp only [Accepts, h.slots, h.live]

theorem apply (h : Same p q) (use : IdUse) : Same (p.apply use) (q.apply use) := by
  cases use with
  | add id => exact ⟨by simp only [IdPool.apply, h.slots], fun other => by simp only [IdPool.apply, h.live]⟩
  | remove id => exact ⟨h.slots, fun other => by simp only [IdPool.apply, h.live]⟩
  | use id => exact h

theorem foldl (h : Same p q) (uses : List IdUse) : Same (uses.foldl IdPool.apply p) (uses.foldl IdPool.apply q) := by
  induction uses generalizing p q with
  | nil => exact h
  | cons use uses ih => exact ih (h.apply use)

end Same

/-- Uses that are accepted one after the other lead from pool to pool. -/
inductive Runs (limit : Nat) : IdPool → List IdUse → IdPool → Prop
  | nil {p q : IdPool} (same : Same p q) : Runs limit p [] q
  | cons {p q : IdPool} {use : IdUse} {uses : List IdUse} (accepts : p.Accepts limit use)
      (rest : Runs limit (p.apply use) uses q) : Runs limit p (use :: uses) q

namespace Runs

variable {p q r : IdPool} {limit : Nat} {use : IdUse} {uses others : List IdUse}

theorem congr_left (h : Runs limit p uses q) (same : Same r p) : Runs limit r uses q := by
  induction h generalizing r with
  | nil same' => exact .nil (same.trans same')
  | cons accepts _ ih => exact .cons (same.accepts.mp accepts) (ih (same.apply _))

theorem congr_right (h : Runs limit p uses q) (same : Same q r) : Runs limit p uses r := by
  induction h with
  | nil same' => exact .nil (same'.trans same)
  | cons accepts _ ih => exact .cons accepts (ih same)

theorem append (h : Runs limit p uses q) (h' : Runs limit q others r) : Runs limit p (uses ++ others) r := by
  induction h with
  | nil same => exact h'.congr_left same
  | cons accepts _ ih => exact .cons accepts (ih h')

theorem head (h : Runs limit p (use :: uses) q) : p.Accepts limit use ∧ Runs limit (p.apply use) uses q := by
  cases h with
  | cons accepts rest => exact ⟨accepts, rest⟩

theorem foldl (h : Runs limit p uses q) : Same (uses.foldl IdPool.apply p) q := by
  induction h with
  | nil same => exact same
  | cons _ _ ih => exact ih

theorem single (accepts : p.Accepts limit use) (same : Same (p.apply use) q) : Runs limit p [use] q :=
  .cons accepts (.nil same)

theorem split (h : Runs limit p (uses ++ others) r) : ∃ q, Runs limit p uses q ∧ Runs limit q others r := by
  induction uses generalizing p with
  | nil => exact ⟨p, .nil (.refl p), h⟩
  | cons use uses ih =>
    cases h with
    | cons accepts rest =>
      obtain ⟨q, first, second⟩ := ih rest
      exact ⟨q, .cons accepts first, second⟩

end Runs

end IdPool

end Hynergy.Lib
