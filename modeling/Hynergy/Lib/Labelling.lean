import Hynergy.Lib.Edges
import Mathlib.Data.List.Nodup
import Mathlib.Logic.Relation
import Mathlib.Tactic.Common

/-!
# Labels of connected classes

A labelling of the vertices of an undirected graph is `Coarse` when an edge never leaves a
label, and `Exact` at a label when that label's vertices are connected to each other. A
labelling that is coarse and everywhere exact names the connected components. Vertices come
and go, edges are added (two labels merge) and taken away (a label splits); each rule says
what must be relabelled.
-/

namespace Hynergy.Lib

open Relation

variable {V L : Type*}

/-- An edge relation of an undirected graph on the vertices `dom`. -/
structure Undirected (dom : V → Prop) (R : V → V → Prop) : Prop where
  symm : ∀ {u v}, R u v → R v u
  left : ∀ {u v}, R u v → dom u

theorem Undirected.right {dom : V → Prop} {R : V → V → Prop} (g : Undirected dom R) {u v : V}
    (h : R u v) : dom v := g.left (g.symm h)

theorem Undirected.reach_symm {dom : V → Prop} {R : V → V → Prop} (g : Undirected dom R) {u v : V}
    (h : ReflTransGen R u v) : ReflTransGen R v u := by
  induction h with
  | refl => exact .refl
  | tail _ step ih => exact ih.head (g.symm step)

/-- No edge leaves a label. -/
def Coarse (R : V → V → Prop) (lab : V → L) : Prop := ∀ u v, R u v → lab u = lab v

/-- The vertices of label `i` are connected to each other. -/
def Exact (dom : V → Prop) (R : V → V → Prop) (lab : V → L) (i : L) : Prop :=
  ∀ u v, dom u → dom v → lab u = i → lab v = i → ReflTransGen R u v

/-- The labels name the connected components. -/
structure Labels (dom : V → Prop) (R : V → V → Prop) (lab : V → L) : Prop where
  coarse : Coarse R lab
  exact : ∀ i, Exact dom R lab i

variable {dom dom' : V → Prop} {R R' : V → V → Prop} {lab lab' : V → L}

theorem Coarse.reach (h : Coarse R lab) {u v : V} (path : ReflTransGen R u v) : lab u = lab v := by
  induction path with
  | refl => rfl
  | tail _ step ih => exact ih.trans (h _ _ step)

theorem Labels.same_iff (h : Labels dom R lab) {u v : V} (hu : dom u) (hv : dom v) :
    lab u = lab v ↔ ReflTransGen R u v :=
  ⟨fun same => h.exact (lab v) u v hu hv same rfl, h.coarse.reach⟩

/-- A label none of whose vertices and edges changed stays exact. -/
theorem Exact.congr (h : Exact dom R lab i) (coarse : Coarse R lab)
    (back : ∀ u, dom' u → lab u = i → dom u)
    (kept : ∀ u v, R u v → lab u = i → R' u v) : Exact dom' R' lab i := by
  intro u v hu hv hui hvi
  have path := h u v (back u hu hui) (back v hv hvi) hui hvi
  clear hv hvi
  induction path with
  | refl => exact .refl
  | tail before step ih =>
    exact ih.tail (kept _ _ step ((coarse.reach before).symm.trans hui))

theorem Labels.congr (h : Labels dom R lab) (edges : ∀ u v, R' u v ↔ R u v)
    (vertices : ∀ u, dom' u ↔ dom u) (left : ∀ u v, R u v → dom u ∧ dom v)
    (same : ∀ u, dom u → lab' u = lab u) : Labels dom' R' lab' := by
  have rel : R' = R := by
    funext u v
    exact propext (edges u v)
  have at' : dom' = dom := by
    funext u
    exact propext (vertices u)
  subst rel at'
  constructor
  · intro u v step
    obtain ⟨hu, hv⟩ := left u v step
    rw [same u hu, same v hv]
    exact h.coarse u v step
  · intro i u v hu hv hui hvi
    exact h.exact i u v hu hv ((same u hu).symm.trans hui) ((same v hv).symm.trans hvi)

/-- A new vertex without edges, under a label no vertex has. -/
theorem Labels.insert (h : Labels dom R lab) (g : Undirected dom R) {w : V}
    (vertices : ∀ u, dom' u ↔ dom u ∨ u = w) (absent : ¬ dom w)
    (kept : ∀ u, dom u → lab' u = lab u) (fresh : ∀ u, dom u → lab' w ≠ lab u) :
    Labels dom' R lab' := by
  constructor
  · intro u v step
    rw [kept u (g.left step), kept v (g.right step)]
    exact h.coarse u v step
  · intro i u v hu hv hui hvi
    rcases (vertices u).mp hu with old | rfl
    · rcases (vertices v).mp hv with old' | rfl
      · exact h.exact i u v old old' ((kept u old).symm.trans hui) ((kept v old').symm.trans hvi)
      · exact absurd (hvi.trans (hui.symm.trans (kept u old))) (fresh u old)
    · rcases (vertices v).mp hv with old' | rfl
      · exact absurd (hui.trans (hvi.symm.trans (kept v old'))) (fresh v old')
      · exact .refl

/-- A new vertex with one edge, under the label of the vertex it is attached to. -/
theorem Labels.attach (h : Labels dom R lab) (g : Undirected dom R) {w x : V}
    (vertices : ∀ u, dom' u ↔ dom u ∨ u = w) (absent : ¬ dom w) (there : dom x)
    (edges : ∀ u v, R' u v ↔ Link R w x u v) (kept : ∀ u, dom u → lab' u = lab u)
    (same : lab' w = lab x) : Labels dom' R' lab' := by
  have lift : ∀ {u v}, ReflTransGen R u v → ReflTransGen R' u v := fun path =>
    ReflTransGen.mono (fun u v old => (edges u v).mpr (Or.inl old)) _ _ path
  have forth : R' w x := (edges w x).mpr (Or.inr (Or.inl ⟨rfl, rfl⟩))
  have back : R' x w := (edges x w).mpr (Or.inr (Or.inr ⟨rfl, rfl⟩))
  constructor
  · intro u v step
    rcases (edges u v).mp step with old | ⟨rfl, rfl⟩ | ⟨rfl, rfl⟩
    · rw [kept u (g.left old), kept v (g.right old)]
      exact h.coarse u v old
    · rw [same, kept _ there]
    · rw [same, kept _ there]
  · intro i u v hu hv hui hvi
    rcases (vertices u).mp hu with old | rfl
    · rcases (vertices v).mp hv with old' | rfl
      · exact lift (h.exact i u v old old' ((kept u old).symm.trans hui) ((kept v old').symm.trans hvi))
      · exact (lift (h.exact i u x old there ((kept u old).symm.trans hui) (same.symm.trans hvi))).tail back
    · rcases (vertices v).mp hv with old' | rfl
      · exact .head forth (lift (h.exact i x v there old' (same.symm.trans hui) ((kept v old').symm.trans hvi)))
      · exact .refl

/-- New edges between the labels `i` and `j`, at least one path of them joining the two:
`j` becomes `i`. -/
theorem Labels.merge [DecidableEq L] (h : Labels dom R lab) (g' : Undirected dom R')
    (sub : ∀ u v, R u v → R' u v) (i j : L)
    (new : ∀ u v, R' u v → lab u = lab v ∨ ((lab u = i ∨ lab u = j) ∧ (lab v = i ∨ lab v = j)))
    (joined : ∀ u v, dom u → dom v → lab u = i → lab v = j → ReflTransGen R' u v)
    (relabel : ∀ u, dom u → lab' u = if lab u = j then i else lab u) : Labels dom R' lab' := by
  have lift : ∀ {u v}, ReflTransGen R u v → ReflTransGen R' u v := fun path => ReflTransGen.mono sub _ _ path
  constructor
  · intro u v step
    rw [relabel u (g'.left step), relabel v (g'.right step)]
    rcases new u v step with same | ⟨hu, hv⟩
    · rw [same]
    · split <;> split <;> simp_all
  · intro k u v hu hv huk hvk
    rw [relabel u hu] at huk
    rw [relabel v hv] at hvk
    by_cases hui : lab u = j
    · by_cases hvi : lab v = j
      · exact lift (h.exact j u v hu hv hui hvi)
      · rw [if_pos hui] at huk
        rw [if_neg hvi] at hvk
        exact g'.reach_symm (joined v u hv hu (hvk.trans huk.symm) hui)
    · by_cases hvi : lab v = j
      · rw [if_neg hui] at huk
        rw [if_pos hvi] at hvk
        exact joined u v hu hv (huk.trans hvk.symm) hvi
      · rw [if_neg hui] at huk
        rw [if_neg hvi] at hvk
        exact lift (h.exact k u v hu hv huk hvk)

section Split

variable {i : L}

/-- The vertices of label `i` get one label for each connected piece, none of them in use
elsewhere: the labelling stays coarse. -/
theorem Coarse.split (h : Coarse R lab) (g : Undirected dom R)
    (outside : ∀ u, dom u → lab u ≠ i → lab' u = lab u)
    (inside : ∀ u v, dom u → dom v → lab u = i → lab v = i →
      (lab' u = lab' v ↔ ReflTransGen R u v)) : Coarse R lab' := by
  intro u v step
  have same := h u v step
  by_cases hi : lab u = i
  · exact (inside u v (g.left step) (g.right step) hi (same ▸ hi)).mpr (.single step)
  · rw [outside u (g.left step) hi, outside v (g.right step) (same ▸ hi), same]

/-- After the split every label of a vertex that had label `i` is exact. -/
theorem Exact.split (outside : ∀ u, dom u → lab u ≠ i → lab' u = lab u)
    (inside : ∀ u v, dom u → dom v → lab u = i → lab v = i →
      (lab' u = lab' v ↔ ReflTransGen R u v))
    (apart : ∀ u v, dom u → dom v → lab u = i → lab v ≠ i → lab' u ≠ lab v)
    {w : V} (hw : dom w) (hwi : lab w = i) : Exact dom R lab' (lab' w) := by
  have back : ∀ u, dom u → lab' u = lab' w → lab u = i := by
    intro u hu same
    by_contra other
    exact apart w u hw hu hwi other (same.symm.trans (outside u hu other))
  intro u v hu hv hui hvi
  exact (inside u v hu hv (back u hu hui) (back v hv hvi)).mp (hui.trans hvi.symm)

/-- A label is split: each of its connected pieces has a label of its own, which is the old one
or one that no vertex had. Of the labels that are `bad` nothing is known. -/
theorem labels_of_pieces {bad : L → Prop} {pairs : List (L × List V)}
    (nodup : (pairs.map Prod.fst).Nodup) (g : Undirected dom R) (coarse : Coarse R lab)
    (exact : ∀ k, k ≠ i → ¬ bad k → Exact dom R lab k)
    (component : ∀ p ∈ pairs, ∃ v, ∀ u, u ∈ p.2 ↔ ReflTransGen R v u)
    (covers : ∀ u, dom u → lab u = i → ∃ p ∈ pairs, u ∈ p.2)
    (inside : ∀ p ∈ pairs, ∀ u ∈ p.2, lab' u = p.1)
    (outside : ∀ u, dom u → lab u ≠ i → lab' u = lab u)
    (fresh : ∀ p ∈ pairs, p.1 = i ∨ ∀ u, dom u → lab u ≠ p.1) :
    Coarse R lab' ∧ ∀ k, ¬ (bad k ∧ k ≠ i) → Exact dom R lab' k := by
  have joins : ∀ u v, dom u → dom v → lab u = i → lab v = i →
      (lab' u = lab' v ↔ ReflTransGen R u v) := by
    intro u v hu hv hui hvi
    obtain ⟨p, hp, hup⟩ := covers u hu hui
    obtain ⟨q, hq, hvq⟩ := covers v hv hvi
    obtain ⟨s, reach⟩ := component p hp
    constructor
    · intro same
      rw [inside p hp u hup, inside q hq v hvq] at same
      obtain rfl := List.inj_on_of_nodup_map nodup hp hq same
      exact (g.reach_symm ((reach u).mp hup)).trans ((reach v).mp hvq)
    · intro path
      rw [inside p hp u hup, inside p hp v ((reach v).mpr (((reach u).mp hup).trans path))]
  have apart : ∀ u v, dom u → dom v → lab u = i → lab v ≠ i → lab' u ≠ lab v := by
    intro u v hu hv hui hvi same
    obtain ⟨p, hp, hup⟩ := covers u hu hui
    rw [inside p hp u hup] at same
    rcases fresh p hp with old | new
    · exact hvi (same.symm.trans old)
    · exact new v hv same.symm
  refine ⟨coarse.split g outside joins, fun k fine u v hu hv hk hk' => ?_⟩
  by_cases hui : lab u = i
  · exact Exact.split outside joins apart hu hui u v hu hv rfl (hk'.trans hk.symm)
  · have hvi : lab v ≠ i := by
      intro hvi
      exact apart v u hv hu hvi hui (hk'.trans (hk.symm.trans (outside u hu hui)))
    rw [outside u hu hui] at hk
    rw [outside v hv hvi] at hk'
    have different : k ≠ i := fun same => hui (hk.trans same)
    exact exact k different (fun b => fine ⟨b, different⟩) u v hu hv hk hk'

end Split

/-- Vertices are identified along `f`; what joined them becomes a path. -/
theorem Labels.quotient {f : V → V} (h : Labels dom R lab) (into : ∀ u, dom' u → dom u ∧ f u = u)
    (coarse : Coarse R' lab) (map : ∀ u v, R u v → ReflTransGen R' (f u) (f v)) :
    Labels dom' R' lab := by
  refine ⟨coarse, fun i u v hu hv hui hvi => ?_⟩
  obtain ⟨oldU, fixedU⟩ := into u hu
  obtain ⟨oldV, fixedV⟩ := into v hv
  have path := h.exact i u v oldU oldV hui hvi
  rw [← fixedU, ← fixedV]
  clear hv hvi oldV fixedV
  induction path with
  | refl => exact .refl
  | tail _ step ih => exact ih.trans (map _ _ step)

end Hynergy.Lib
