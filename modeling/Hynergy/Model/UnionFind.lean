import Hynergy.Lib.Forest
import Hynergy.Model.Building

/-!
# The union-find of the builder

`find` returns the root of a node and changes no root; `union` joins two classes. Neither runs out
of fuel.
-/

namespace Hynergy

open Lib Relation

namespace UnionFind

/-- Parents and ranks of `n` nodes; the `u8` ranks only choose which root stays. -/
structure Sound (n : Nat) (unionFind : UnionFind) : Prop where
  parents : unionFind.parents.length = n
  ranks : unionFind.ranks.length = n
  ranked : ∃ rank, Ranked rank unionFind.parents

/-- The roots are the same. -/
structure SameRoots (before after : UnionFind) : Prop where
  length : after.parents.length = before.parents.length
  roots : ∀ i r, RootOf after.parents i r ↔ RootOf before.parents i r

theorem SameRoots.refl (self : UnionFind) : SameRoots self self := ⟨rfl, fun _ _ => Iff.rfl⟩

theorem SameRoots.trans {first second third : UnionFind} (h : SameRoots first second) (h' : SameRoots second third) :
    SameRoots first third :=
  ⟨h'.length.trans h.length, fun i r => (h'.roots i r).trans (h.roots i r)⟩

theorem SameRoots.sameRoot {before after : UnionFind} (h : SameRoots before after) {i j : Nat} :
    SameRoot after.parents i j ↔ SameRoot before.parents i j := by
  unfold SameRoot
  simp only [h.roots]

theorem SameRoots.classes {before after : UnionFind} (h : SameRoots before after) {R : Nat → Nat → Prop}
    (classes : Classes before.parents R) : Classes after.parents R := by
  intro i j insideI insideJ
  rw [h.length] at insideI insideJ
  exact h.sameRoot.trans (classes i j insideI insideJ)

variable {n : Nat} {self : UnionFind} {rank : Nat → Nat} {parents : List Nat} {node : Nat}

theorem parents_new {n i p : Nat} (read : (UnionFind.new n).parents[i]? = some p) : i < n ∧ p = i := by
  obtain ⟨inside, same⟩ := List.getElem?_eq_some_iff.mp (show (List.range n)[i]? = some p from read)
  rw [List.getElem_range] at same
  exact ⟨by rwa [List.length_range] at inside, same.symm⟩

theorem sound_new (n : Nat) : Sound n (.new n) := by
  refine ⟨List.length_range, List.length_replicate, fun _ => 0, ?_, ?_⟩
  · intro i p read
    obtain ⟨inside, rfl⟩ := parents_new read
    rwa [UnionFind.new, List.length_range]
  · intro i p read different
    exact absurd (parents_new read).2 different

theorem classes_new (n : Nat) : Classes (UnionFind.new n).parents fun _ _ => False := by
  have root : ∀ {i r : Nat}, RootOf (UnionFind.new n).parents i r → i = r := by
    intro i r h
    cases h with
    | root => rfl
    | step parent away _ => exact absurd (parents_new parent).2 away
  intro i j insideI insideJ
  constructor
  · rintro ⟨r, first, second⟩
    obtain rfl := root first
    obtain rfl := root second
    exact .refl _
  · intro generated
    have same : i = j := by
      induction generated with
      | rel _ _ impossible => exact impossible.elim
      | refl => rfl
      | symm _ _ _ ih => exact (ih insideJ insideI).symm
      | trans _ k _ before _ ih ih' =>
        rcases EqvGen.inside (fun _ _ impossible => (impossible : False).elim) before with rfl | ⟨-, inside⟩
        · exact ih' insideI insideJ
        · exact (ih insideI inside).trans (ih' inside insideJ)
    subst same
    obtain ⟨rank, ranked⟩ := (sound_new n).ranked
    obtain ⟨r, h⟩ := ranked.exists_root insideI
    exact ⟨r, h, h⟩

/-- The loop up to the root ends: every step passes one of the entries that rank higher. -/
theorem rootOf_spec (ranked : Ranked rank parents) {fuel : Nat} (inside : node < parents.length)
    (enough : above rank parents.length node < fuel) :
    ∃ root, rootOf parents fuel node = some root ∧ RootOf parents node root := by
  induction fuel generalizing node with
  | zero => omega
  | succ fuel ih =>
    have parent := List.getElem?_eq_getElem inside
    unfold rootOf
    rw [parent]
    by_cases same : parents[node] = node
    · refine ⟨node, ?_, .root (parent.trans (congrArg some same))⟩
      show (if parents[node] = node then some node else _) = _
      rw [if_pos same]
    · have within := ranked.inside _ _ parent
      have nearer := above_parent within (ranked.grows _ _ parent same)
      obtain ⟨root, run, rest⟩ := ih within (by omega)
      refine ⟨root, ?_, .step parent same rest⟩
      show (if parents[node] = node then some node else _) = _
      rw [if_neg same]
      exact run

/-- The loop that points the nodes on the way at the root. -/
theorem compress_spec (ranked : Ranked rank parents) {fuel root : Nat} (here : RootOf parents node root)
    (enough : above rank parents.length node < fuel) :
    ∃ after, compress root fuel parents node = some after ∧ after.length = parents.length ∧ Ranked rank after ∧
      ∀ i r, RootOf after i r ↔ RootOf parents i r := by
  induction fuel generalizing parents node with
  | zero => omega
  | succ fuel ih =>
    unfold compress
    cases here with
    | root self =>
      rw [self]
      refine ⟨parents, ?_, rfl, ranked, fun _ _ => Iff.rfl⟩
      show (if _ then some parents else _) = _
      rw [if_pos rfl]
    | @step _ parent _ read away rest =>
      have here : RootOf parents node root := .step read away rest
      have inside := here.lt_length
      have apart : node ≠ root := by
        rintro rfl
        exact away (Option.some.inj (read.symm.trans here.isRoot))
      have pointed := @RootOf.compress_iff rank parents root node ranked here apart
      have nearer := above_parent (ranked.inside _ _ read) (ranked.grows _ _ read away)
      obtain ⟨after, run, length, ranked', roots⟩ := ih (ranked.compress here) (pointed.mpr rest)
        (by rw [List.length_set]; omega)
      rw [List.length_set] at length
      refine ⟨after, ?_, length, ranked', fun i r => (roots i r).trans pointed⟩
      rw [read]
      show (if parent = node then some parents else _) = _
      rw [if_neg away, assign_of_lt inside]
      exact run

theorem find_spec (h : Sound n self) (inside : node < n) : ∃ root after, self.find node = some (root, after) ∧
    RootOf self.parents node root ∧ Sound n after ∧ SameRoots self after := by
  obtain ⟨rank, ranked⟩ := h.ranked
  have within : node < self.parents.length := h.parents ▸ inside
  obtain ⟨root, found, here⟩ := rootOf_spec ranked within (above_lt within)
  obtain ⟨parents, compressed, length, ranked', roots⟩ := compress_spec ranked here (above_lt within)
  refine ⟨root, { self with parents }, ?_, here, ⟨length.trans h.parents, h.ranks, rank, ranked'⟩, length, roots⟩
  unfold find
  rw [found]
  show (compress root self.parents.length self.parents node).bind _ = _
  rw [compressed]
  rfl

/-- One of two roots becomes the parent of the other. -/
theorem link_spec {R : Nat → Nat → Prop} {a b x y : Nat} (h : Sound n self) (rootX : RootOf self.parents x a)
    (rootY : RootOf self.parents y b) (apart : a ≠ b) (bounded : ∀ i j, R i j → i < n ∧ j < n)
    (classes : Classes self.parents R) {tied : Prop} [Decidable tied] :
    ∃ after, (do
        let parents ← assign self.parents b a
        let rank ← self.ranks[a]?
        let ranks ← if tied then assign self.ranks a ((rank + 1) % 2 ^ 8) else some self.ranks
        some { parents, ranks } : Option UnionFind) = some after ∧
      Sound n after ∧ Classes after.parents fun i j => R i j ∨ (i = x ∧ j = y) := by
  have inA : a < self.ranks.length := by
    have := (List.getElem?_eq_some_iff.mp rootX.isRoot).1
    rwa [h.parents, ← h.ranks] at this
  have inB : b < self.parents.length := (List.getElem?_eq_some_iff.mp rootY.isRoot).1
  obtain ⟨rank, ranked⟩ := h.ranked
  have linked := classes.link ranked (h.parents.symm ▸ bounded) rootX rootY apart
  have ranked' := ranked.link rootX.isRoot rootY.isRoot apart
  rw [assign_of_lt inB, List.getElem?_eq_getElem inA]
  by_cases equal : tied
  · refine ⟨⟨self.parents.set b a, self.ranks.set a ((self.ranks[a] + 1) % 2 ^ 8)⟩, ?_,
      ⟨List.length_set.trans h.parents, List.length_set.trans h.ranks, ranked'⟩, linked⟩
    simp only [Option.bind_eq_bind, Option.bind_some, if_pos equal, assign_of_lt inA]
  · refine ⟨⟨self.parents.set b a, self.ranks⟩, ?_, ⟨List.length_set.trans h.parents, h.ranks, ranked'⟩, linked⟩
    simp only [Option.bind_eq_bind, Option.bind_some, if_neg equal]

/-- The classes of the two nodes are joined. -/
theorem union_spec {R : Nat → Nat → Prop} {a b : Nat} (h : Sound n self) (insideA : a < n) (insideB : b < n)
    (bounded : ∀ i j, R i j → i < n ∧ j < n) (classes : Classes self.parents R) :
    ∃ after, self.union a b = some after ∧ Sound n after ∧
      Classes after.parents fun i j => R i j ∨ (i = a ∧ j = b) := by
  obtain ⟨rootA, first, foundA, hereA, sound, roots⟩ := find_spec h insideA
  obtain ⟨rootB, second, foundB, hereB, sound', roots'⟩ := find_spec sound insideB
  have rootA' : RootOf second.parents a rootA := (roots'.roots _ _).mpr ((roots.roots _ _).mpr hereA)
  have rootB' : RootOf second.parents b rootB := (roots'.roots _ _).mpr hereB
  have classes' : Classes second.parents R := roots'.classes (roots.classes classes)
  unfold union
  rw [foundA]
  show ∃ after, (first.find b).bind _ = _ ∧ _
  rw [foundB]
  show ∃ after, (if rootA = rootB then some second else _) = some after ∧ _
  by_cases same : rootA = rootB
  · rw [if_pos same]
    refine ⟨second, rfl, sound', classes'.congr (fun i j related => .rel _ _ (Or.inl related)) ?_⟩
    rintro i j (related | ⟨rfl, rfl⟩)
    · exact .rel _ _ related
    · exact (classes' _ _ rootA'.lt_length rootB'.lt_length).mp ⟨rootA, rootA', same ▸ rootB'⟩
  rw [if_neg same]
  have inA : rootA < second.ranks.length := by
    have := (List.getElem?_eq_some_iff.mp rootA'.isRoot).1
    rwa [sound'.parents, ← sound'.ranks] at this
  have inB : rootB < second.ranks.length := by
    have := (List.getElem?_eq_some_iff.mp rootB'.isRoot).1
    rwa [sound'.parents, ← sound'.ranks] at this
  rw [List.getElem?_eq_getElem inA, List.getElem?_eq_getElem inB]
  by_cases less : second.ranks[rootA] < second.ranks[rootB]
  · have linked := @link_spec n second R rootB rootA b a sound' rootB' rootA' (Ne.symm same) bounded classes'
      (second.ranks[rootA] = second.ranks[rootB]) _
    obtain ⟨after, run, sound'', classes''⟩ := linked
    refine ⟨after, ?_, sound'', classes''.congr ?_ ?_⟩
    · rw [← run]
      simp only [Option.bind_eq_bind, Option.bind_some, if_pos less]
    · rintro i j (related | ⟨rfl, rfl⟩)
      · exact .rel _ _ (Or.inl related)
      · exact .symm _ _ (.rel _ _ (Or.inr ⟨rfl, rfl⟩))
    · rintro i j (related | ⟨rfl, rfl⟩)
      · exact .rel _ _ (Or.inl related)
      · exact .symm _ _ (.rel _ _ (Or.inr ⟨rfl, rfl⟩))
  · have linked := @link_spec n second R rootA rootB a b sound' rootA' rootB' same bounded classes'
      (second.ranks[rootA] = second.ranks[rootB]) _
    obtain ⟨after, run, sound'', classes''⟩ := linked
    refine ⟨after, ?_, sound'', classes''⟩
    rw [← run]
    simp only [Option.bind_eq_bind, Option.bind_some, if_neg less]

end UnionFind

end Hynergy
