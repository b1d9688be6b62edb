import Mathlib.Data.Finset.Card
import Mathlib.Data.Finset.Range
import Mathlib.Data.List.Basic
import Mathlib.Logic.Relation
import Mathlib.Tactic.Common

/-!
# Forests of parents

A list in which every entry names a parent, a root naming itself. Ranks that grow towards the root
keep the paths short; pointing an entry at its root changes no root, and pointing a root at
another joins two classes.
-/

namespace Hynergy.Lib

open Relation

/-- Parents are entries, and ranks grow from an entry to its parent. -/
structure Ranked (rank : Nat → Nat) (parents : List Nat) : Prop where
  inside : ∀ (i p : Nat), parents[i]? = some p → p < parents.length
  grows : ∀ (i p : Nat), parents[i]? = some p → p ≠ i → rank i < rank p

/-- The root of an entry. -/
inductive RootOf (parents : List Nat) : Nat → Nat → Prop
  | root {r : Nat} (self : parents[r]? = some r) : RootOf parents r r
  | step {i p r : Nat} (parent : parents[i]? = some p) (away : p ≠ i) (rest : RootOf parents p r) : RootOf parents i r

/-- Two entries have one root. -/
def SameRoot (parents : List Nat) (i j : Nat) : Prop := ∃ r, RootOf parents i r ∧ RootOf parents j r

variable {rank : Nat → Nat} {parents : List Nat} {i j p r s : Nat}

namespace RootOf

theorem isRoot (h : RootOf parents i r) : parents[r]? = some r := by
  induction h with
  | root self => exact self
  | step _ _ _ ih => exact ih

theorem lt_length (h : RootOf parents i r) : i < parents.length := by
  cases h with
  | root self => exact (List.getElem?_eq_some_iff.mp self).1
  | step parent _ _ => exact (List.getElem?_eq_some_iff.mp parent).1

theorem unique (h : RootOf parents i r) (h' : RootOf parents i s) : r = s := by
  induction h with
  | root self =>
    cases h' with
    | root => rfl
    | step parent away _ => exact absurd (Option.some.inj (parent.symm.trans self)) away
  | step parent away _ ih =>
    cases h' with
    | root self => exact absurd (Option.some.inj (parent.symm.trans self)) away
    | step parent' _ rest =>
      obtain rfl := Option.some.inj (parent.symm.trans parent')
      exact ih rest

theorem rank_le (ranked : Ranked rank parents) (h : RootOf parents i r) : i = r ∨ rank i < rank r := by
  induction h with
  | root => exact Or.inl rfl
  | step parent away _ ih =>
    have grows := ranked.grows _ _ parent away
    rcases ih with rfl | less
    · exact Or.inr grows
    · exact Or.inr (grows.trans less)

end RootOf

/-! ### Paths -/

/-- How many of the first `n` entries rank higher. -/
def above (rank : Nat → Nat) (n i : Nat) : Nat := ((Finset.range n).filter fun j => rank i < rank j).card

theorem above_lt {n : Nat} (inside : i < n) : above rank n i < n := by
  have sub : ((Finset.range n).filter fun j => rank i < rank j) ⊂ Finset.range n := by
    refine (Finset.filter_subset _ _).ssubset_of_mem_notMem (Finset.mem_range.mpr inside) fun member => ?_
    exact lt_irrefl _ (Finset.mem_filter.mp member).2
  have := Finset.card_lt_card sub
  rwa [Finset.card_range] at this

theorem above_parent {n : Nat} (inside : p < n) (grows : rank i < rank p) : above rank n p < above rank n i := by
  refine Finset.card_lt_card (Finset.ssubset_iff_of_subset ?_ |>.mpr ⟨p, ?_, ?_⟩)
  · intro j member
    obtain ⟨below, higher⟩ := Finset.mem_filter.mp member
    exact Finset.mem_filter.mpr ⟨below, grows.trans higher⟩
  · exact Finset.mem_filter.mpr ⟨Finset.mem_range.mpr inside, grows⟩
  · exact fun member => lt_irrefl _ (Finset.mem_filter.mp member).2

/-- The way to the root, by the number of entries that rank higher. -/
theorem Ranked.path_induction (ranked : Ranked rank parents) {motive : Nat → Prop}
    (root : ∀ i, parents[i]? = some i → motive i)
    (step : ∀ i p, parents[i]? = some p → p ≠ i → motive p → motive i) (inside : i < parents.length) : motive i := by
  induction high : above rank parents.length i using Nat.strong_induction_on generalizing i with
  | _ n ih =>
    have parent := List.getElem?_eq_getElem inside
    by_cases same : parents[i] = i
    · exact root i (parent.trans (congrArg some same))
    · have within := ranked.inside i _ parent
      exact step i _ parent same
        (ih _ (high ▸ above_parent within (ranked.grows i _ parent same)) within rfl)

theorem Ranked.exists_root (ranked : Ranked rank parents) (inside : i < parents.length) : ∃ r, RootOf parents i r := by
  refine ranked.path_induction (motive := fun i => ∃ r, RootOf parents i r) (fun i self => ⟨i, .root self⟩) ?_ inside
  rintro i p parent away ⟨r, rest⟩
  exact ⟨r, .step parent away rest⟩

/-! ### Pointing at the root -/

section Compress

variable {node : Nat} (ranked : Ranked rank parents) (here : RootOf parents node r) (away : node ≠ r)

include ranked here

theorem Ranked.compress : Ranked rank (parents.set node r) := by
  constructor
  · intro i p parent
    rw [List.length_set]
    rw [List.getElem?_set] at parent
    split at parent
    · split at parent
      · obtain rfl := Option.some.inj parent
        exact (List.getElem?_eq_some_iff.mp here.isRoot).1
      · cases parent
    · exact ranked.inside i p parent
  · intro i p parent different
    rw [List.getElem?_set] at parent
    split at parent
    · rename_i same
      split at parent
      · obtain rfl := Option.some.inj parent
        rcases here.rank_le ranked with same' | less
        · exact absurd (same'.symm.trans same) different
        · exact same ▸ less
      · cases parent
    · exact ranked.grows i p parent different

omit ranked in
include away in
theorem RootOf.compress {i s : Nat} (h : RootOf parents i s) : RootOf (parents.set node r) i s := by
  have inside := here.lt_length
  have atNode : (parents.set node r)[node]? = some r := by
    rw [List.getElem?_set, if_pos rfl, if_pos inside]
  have atRoot : (parents.set node r)[r]? = some r := by
    rw [List.getElem?_set, if_neg away]
    exact here.isRoot
  induction h with
  | @root s self =>
    have different : node ≠ s := by
      rintro rfl
      exact away (here.unique (.root self)).symm
    exact .root (by rw [List.getElem?_set, if_neg different, self])
  | @step i p s parent apart rest ih =>
    by_cases same : node = i
    · subst same
      obtain rfl := here.unique (.step parent apart rest)
      exact .step atNode away.symm (.root atRoot)
    · exact .step (by rw [List.getElem?_set, if_neg same, parent]) apart ih

include away in
theorem RootOf.compress_iff {i s : Nat} : RootOf (parents.set node r) i s ↔ RootOf parents i s := by
  constructor
  · intro h
    have inside : i < parents.length := by
      have := h.lt_length
      rwa [List.length_set] at this
    obtain ⟨t, root⟩ := ranked.exists_root inside
    exact (RootOf.compress here away root).unique h ▸ root
  · exact RootOf.compress here away

end Compress

/-! ### Linking two roots -/

section Link

variable {a b : Nat} (ranked : Ranked rank parents) (rootA : parents[a]? = some a) (rootB : parents[b]? = some b)
  (apart : a ≠ b)

include rootA rootB apart

theorem RootOf.link (h : RootOf parents i r) : RootOf (parents.set b a) i (if r = b then a else r) := by
  have inside := (List.getElem?_eq_some_iff.mp rootB).1
  have atB : (parents.set b a)[b]? = some a := by
    rw [List.getElem?_set, if_pos rfl, if_pos inside]
  have atA : (parents.set b a)[a]? = some a := by
    rw [List.getElem?_set, if_neg apart.symm, rootA]
  induction h with
  | @root r self =>
    by_cases same : r = b
    · rw [if_pos same, same]
      exact .step atB apart (.root atA)
    · rw [if_neg same]
      exact .root (by rw [List.getElem?_set, if_neg (Ne.symm same), self])
  | @step i p r parent away rest ih =>
    refine .step ?_ away ih
    have different : b ≠ i := by
      rintro rfl
      exact away (Option.some.inj (parent.symm.trans rootB))
    rw [List.getElem?_set, if_neg different, parent]

include ranked

/-- The class of the new root rises above the other. -/
theorem Ranked.link : ∃ rank', Ranked rank' (parents.set b a) := by
  classical
  refine ⟨fun i => if RootOf parents i a then rank i + rank b + 1 else rank i, ?_, ?_⟩
  · intro i p parent
    rw [List.length_set]
    rw [List.getElem?_set] at parent
    split at parent
    · split at parent
      · obtain rfl := Option.some.inj parent
        exact (List.getElem?_eq_some_iff.mp rootA).1
      · cases parent
    · exact ranked.inside i p parent
  · intro i p parent different
    rw [List.getElem?_set] at parent
    split at parent
    · rename_i same
      subst same
      split at parent
      · obtain rfl := Option.some.inj parent
        rw [if_neg fun h => apart (h.unique (.root rootB)), if_pos (.root rootA)]
        omega
      · cases parent
    · have grows := ranked.grows i p parent different
      have within := ranked.inside i p parent
      have same : RootOf parents i a ↔ RootOf parents p a := by
        refine ⟨fun h => ?_, fun h => .step parent different h⟩
        cases h with
        | root self => exact absurd (Option.some.inj (parent.symm.trans self)) different
        | step parent' _ rest =>
          obtain rfl := Option.some.inj (parent.symm.trans parent')
          exact rest
      simp only [same]
      split <;> omega

/-- Two classes become one. -/
theorem SameRoot.link_iff (insideI : i < parents.length) (insideJ : j < parents.length) :
    SameRoot (parents.set b a) i j ↔
      SameRoot parents i j ∨ (RootOf parents i a ∧ RootOf parents j b) ∨ (RootOf parents i b ∧ RootOf parents j a) := by
  obtain ⟨r, rootI⟩ := ranked.exists_root insideI
  obtain ⟨s, rootJ⟩ := ranked.exists_root insideJ
  have linkI := rootI.link rootA rootB apart
  have linkJ := rootJ.link rootA rootB apart
  constructor
  · rintro ⟨t, hi, hj⟩
    have same := (linkI.unique hi).trans (linkJ.unique hj).symm
    by_cases isB : r = b
    · by_cases isB' : s = b
      · exact Or.inl ⟨b, isB ▸ rootI, isB' ▸ rootJ⟩
      · rw [if_pos isB, if_neg isB'] at same
        exact Or.inr (Or.inr ⟨isB ▸ rootI, same ▸ rootJ⟩)
    · by_cases isB' : s = b
      · rw [if_neg isB, if_pos isB'] at same
        exact Or.inr (Or.inl ⟨same ▸ rootI, isB' ▸ rootJ⟩)
      · rw [if_neg isB, if_neg isB'] at same
        exact Or.inl ⟨r, rootI, same ▸ rootJ⟩
  · rintro (⟨t, hi, hj⟩ | ⟨hi, hj⟩ | ⟨hi, hj⟩)
    · exact ⟨_, hi.link rootA rootB apart, hj.link rootA rootB apart⟩
    · have first := hi.link rootA rootB apart
      have second := hj.link rootA rootB apart
      rw [if_neg apart] at first
      rw [if_pos rfl] at second
      exact ⟨a, first, second⟩
    · have first := hi.link rootA rootB apart
      have second := hj.link rootA rootB apart
      rw [if_pos rfl] at first
      rw [if_neg apart] at second
      exact ⟨a, first, second⟩

end Link

/-! ### Classes of a relation -/

/-- The classes of the first `n` entries are those the relation generates. -/
def Classes (parents : List Nat) (R : Nat → Nat → Prop) : Prop :=
  ∀ i j, i < parents.length → j < parents.length → (SameRoot parents i j ↔ EqvGen R i j)

theorem eqvGen_of_subset {R S : Nat → Nat → Prop} (sub : ∀ i j, R i j → EqvGen S i j) (h : EqvGen R i j) : EqvGen S i j := by
  induction h with
  | rel _ _ related => exact sub _ _ related
  | refl => exact .refl _
  | symm _ _ _ ih => exact .symm _ _ ih
  | trans _ _ _ _ _ ih ih' => exact .trans _ _ _ ih ih'

/-- Outside of a relation's field there is nothing but reflexivity. -/
theorem EqvGen.inside {R : Nat → Nat → Prop} {n : Nat} (bounded : ∀ i j, R i j → i < n ∧ j < n) (h : EqvGen R i j) :
    i = j ∨ (i < n ∧ j < n) := by
  induction h with
  | rel _ _ related => exact Or.inr (bounded _ _ related)
  | refl => exact Or.inl rfl
  | symm _ _ _ ih => exact ih.imp Eq.symm And.symm
  | trans _ _ _ _ _ ih ih' =>
    rcases ih with rfl | ⟨first, middle⟩
    · exact ih'
    · rcases ih' with rfl | ⟨-, last⟩
      · exact Or.inr ⟨first, middle⟩
      · exact Or.inr ⟨first, last⟩

theorem Classes.congr {R S : Nat → Nat → Prop} (h : Classes parents R) (sub : ∀ i j, R i j → EqvGen S i j)
    (sub' : ∀ i j, S i j → EqvGen R i j) : Classes parents S := fun i j insideI insideJ =>
  (h i j insideI insideJ).trans ⟨eqvGen_of_subset sub, eqvGen_of_subset sub'⟩

/-- Linking the roots of two entries adds the pair to the relation. -/
theorem Classes.link {R : Nat → Nat → Prop} {a b x y : Nat} (h : Classes parents R) (ranked : Ranked rank parents)
    (bounded : ∀ i j, R i j → i < parents.length ∧ j < parents.length) (rootX : RootOf parents x a)
    (rootY : RootOf parents y b) (apart : a ≠ b) :
    Classes (parents.set b a) fun i j => R i j ∨ (i = x ∧ j = y) := by
  have linked := fun {i j : Nat} => @SameRoot.link_iff rank parents i j a b ranked rootX.isRoot rootY.isRoot apart
  have inX := rootX.lt_length
  have inY := rootY.lt_length
  have more : ∀ i j, R i j → EqvGen (fun i j => R i j ∨ (i = x ∧ j = y)) i j := fun i j related => .rel _ _ (Or.inl related)
  have pair : EqvGen (fun i j => R i j ∨ (i = x ∧ j = y)) x y := .rel _ _ (Or.inr ⟨rfl, rfl⟩)
  intro i j insideI insideJ
  rw [List.length_set] at insideI insideJ
  have joins : ∀ {k z c : Nat}, k < parents.length → z < parents.length → RootOf parents k c → RootOf parents z c →
      EqvGen (fun i j => R i j ∨ (i = x ∧ j = y)) k z := fun insideK insideZ rootK rootZ =>
    eqvGen_of_subset more ((h _ _ insideK insideZ).mp ⟨_, rootK, rootZ⟩)
  constructor
  · intro same
    rcases (linked insideI insideJ).mp same with same | ⟨hi, hj⟩ | ⟨hi, hj⟩
    · exact eqvGen_of_subset more ((h i j insideI insideJ).mp same)
    · exact ((joins insideI inX hi rootX).trans _ _ _ pair).trans _ _ _ (joins inY insideJ rootY hj)
    · exact ((joins insideI inY hi rootY).trans _ _ _ (pair.symm _ _)).trans _ _ _ (joins inX insideJ rootX hj)
  · intro generated
    have bounded' : ∀ i j, (R i j ∨ (i = x ∧ j = y)) → i < parents.length ∧ j < parents.length := by
      rintro i j (related | ⟨rfl, rfl⟩)
      · exact bounded i j related
      · exact ⟨inX, inY⟩
    induction generated with
    | rel i j related =>
      refine (linked insideI insideJ).mpr ?_
      rcases related with related | ⟨rfl, rfl⟩
      · exact Or.inl ((h i j insideI insideJ).mpr (.rel _ _ related))
      · exact Or.inr (Or.inl ⟨rootX, rootY⟩)
    | refl i =>
      obtain ⟨r, root⟩ := ranked.exists_root insideI
      exact (linked insideI insideI).mpr (Or.inl ⟨r, root, root⟩)
    | symm i j _ ih =>
      obtain ⟨r, first, second⟩ := ih insideJ insideI
      exact ⟨r, second, first⟩
    | trans i k j before after ih ih' =>
      have insideK : k < parents.length := by
        rcases EqvGen.inside bounded' before with rfl | ⟨-, inside⟩
        · exact insideI
        · exact inside
      obtain ⟨r, first, second⟩ := ih insideI insideK
      obtain ⟨s, third, fourth⟩ := ih' insideK insideJ
      exact ⟨r, first, second.unique third ▸ fourth⟩

end Hynergy.Lib
