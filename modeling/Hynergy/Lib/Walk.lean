import Hynergy.Lib.Labelling
import Mathlib.Data.List.Basic
import Mathlib.Data.List.Nodup
import Mathlib.Data.List.Perm.Subperm

/-!
# Marked graph walks

An explicit stack and a store of marks: a vertex is pushed when it is first marked, popped
once, and its unmarked neighbours are pushed. `walk` empties the stack, `components` starts
a walk from every start vertex that is still unmarked. `none` is a mark or a neighbour list
that cannot be read, or fuel that ran out; `components_spec` shows that fuel for every
vertex is enough, and that each walk is exactly one connected component. `components_follows`
shows that a store that answers every mark as another does is walked as the other is.
-/

namespace Hynergy.Lib

open Relation

universe u

variable {V σ : Type u}

section Loops

variable (visit : σ → V → Option (Bool × σ)) (neighbours : V → Option (List V))

/-- Mark the listed vertices and push the ones marked for the first time. -/
def pushUnseen : σ → List V → List V → Option (σ × List V)
  | s, stack, [] => some (s, stack)
  | s, stack, v :: vs => do
    let (isNew, s) ← visit s v
    pushUnseen s (if isNew then v :: stack else stack) vs

/-- Pop until the stack is empty; the popped vertices in order. -/
def walk : Nat → σ → List V → List V → Option (σ × List V)
  | _, s, [], out => some (s, out)
  | 0, _, _ :: _, _ => none
  | fuel + 1, s, v :: stack, out => do
    let ns ← neighbours v
    let (s, stack) ← pushUnseen visit s stack ns
    walk fuel s stack (out ++ [v])

/-- One walk from each start vertex that no earlier walk reached. -/
def components (fuel : Nat) : σ → List V → Option (σ × List (List V))
  | s, [] => some (s, [])
  | s, v :: starts => do
    let (isNew, s) ← visit s v
    if isNew then
      let (s, piece) ← walk visit neighbours fuel s [v] []
      let (s, pieces) ← components fuel s starts
      return (s, piece :: pieces)
    else
      components fuel s starts

end Loops

section Follows

variable {visit : σ → V → Option (Bool × σ)} {neighbours : V → Option (List V)} {related : σ → σ → Prop}

/-- Every visit of the first store can be made of the second, with the same answer. -/
def Follows (visit : σ → V → Option (Bool × σ)) (related : σ → σ → Prop) : Prop :=
  ∀ {s t : σ} {v : V} {isNew : Bool} {s' : σ}, related s t → visit s v = some (isNew, s') →
    ∃ t', visit t v = some (isNew, t') ∧ related s' t'

theorem pushUnseen_follows (follows : Follows visit related) {ns stack stack' : List V} {s t s' : σ}
    (h : related s t) (run : pushUnseen visit s stack ns = some (s', stack')) :
    ∃ t', pushUnseen visit t stack ns = some (t', stack') ∧ related s' t' := by
  induction ns generalizing s t stack with
  | nil =>
    obtain ⟨rfl, rfl⟩ := Prod.mk.inj (Option.some.inj run)
    exact ⟨t, rfl, h⟩
  | cons v ns ih =>
    obtain ⟨⟨isNew, s₁⟩, visited, run⟩ := Option.bind_eq_some_iff.mp run
    obtain ⟨t₁, visited', h₁⟩ := follows h visited
    obtain ⟨t', run', h'⟩ := ih h₁ run
    exact ⟨t', Option.bind_eq_some_iff.mpr ⟨_, visited', run'⟩, h'⟩

theorem walk_follows (follows : Follows visit related) (fuel : Nat) {stack out out' : List V} {s t s' : σ}
    (h : related s t) (run : walk visit neighbours fuel s stack out = some (s', out')) :
    ∃ t', walk visit neighbours fuel t stack out = some (t', out') ∧ related s' t' := by
  induction fuel generalizing s t stack out with
  | zero =>
    cases stack with
    | nil =>
      obtain ⟨rfl, rfl⟩ := Prod.mk.inj (Option.some.inj run)
      exact ⟨t, rfl, h⟩
    | cons v stack => cases run
  | succ fuel ih =>
    cases stack with
    | nil =>
      obtain ⟨rfl, rfl⟩ := Prod.mk.inj (Option.some.inj run)
      exact ⟨t, rfl, h⟩
    | cons v stack =>
      obtain ⟨ns, read, run⟩ := Option.bind_eq_some_iff.mp run
      obtain ⟨⟨s₁, stack₁⟩, pushes, run⟩ := Option.bind_eq_some_iff.mp run
      obtain ⟨t₁, pushes', h₁⟩ := pushUnseen_follows follows h pushes
      obtain ⟨t', run', h'⟩ := ih h₁ run
      exact ⟨t', Option.bind_eq_some_iff.mpr ⟨ns, read, Option.bind_eq_some_iff.mpr ⟨_, pushes', run'⟩⟩, h'⟩

/-- The walks of the first store are the walks of the second. -/
theorem components_follows (follows : Follows visit related) (fuel : Nat) {starts : List V}
    {pieces : List (List V)} {s t s' : σ} (h : related s t)
    (run : components visit neighbours fuel s starts = some (s', pieces)) :
    ∃ t', components visit neighbours fuel t starts = some (t', pieces) ∧ related s' t' := by
  induction starts generalizing s t pieces with
  | nil =>
    obtain ⟨rfl, rfl⟩ := Prod.mk.inj (Option.some.inj run)
    exact ⟨t, rfl, h⟩
  | cons v starts ih =>
    obtain ⟨⟨isNew, s₁⟩, visited, run⟩ := Option.bind_eq_some_iff.mp run
    obtain ⟨t₁, visited', h₁⟩ := follows h visited
    cases isNew with
    | false =>
      obtain ⟨t', run', h'⟩ := ih h₁ run
      exact ⟨t', Option.bind_eq_some_iff.mpr ⟨_, visited', run'⟩, h'⟩
    | true =>
      obtain ⟨⟨s₂, piece⟩, walks, run⟩ := Option.bind_eq_some_iff.mp run
      obtain ⟨⟨s₃, others⟩, goes, run⟩ := Option.bind_eq_some_iff.mp run
      obtain ⟨rfl, rfl⟩ := Prod.mk.inj (Option.some.inj run)
      obtain ⟨t₂, walks', h₂⟩ := walk_follows follows fuel h₁ walks
      obtain ⟨t', goes', h'⟩ := ih h₂ goes
      exact ⟨t', Option.bind_eq_some_iff.mpr ⟨_, visited', Option.bind_eq_some_iff.mpr ⟨_, walks',
        Option.bind_eq_some_iff.mpr ⟨_, goes', rfl⟩⟩⟩, h'⟩

end Follows

/-- What marking a vertex of `dom` does to the store. -/
structure Marking (visit : σ → V → Option (Bool × σ)) (dom : V → Prop) (valid : σ → Prop)
    (seen : σ → V → Prop) : Prop where
  fresh : ∀ {s v}, valid s → dom v → ¬ seen s v →
    ∃ s', visit s v = some (true, s') ∧ valid s' ∧ ∀ u, seen s' u ↔ u = v ∨ seen s u
  again : ∀ {s v}, valid s → dom v → seen s v → visit s v = some (false, s)

/-- The edges the neighbour lists give. -/
def Adjacent (neighbours : V → Option (List V)) (dom : V → Prop) (u v : V) : Prop :=
  dom u ∧ ∃ ns, neighbours u = some ns ∧ v ∈ ns

open Classical in
/-- How many of the listed vertices are unmarked. -/
noncomputable def unseen (seen : V → Prop) (vertices : List V) : Nat :=
  vertices.countP fun v => ¬ seen v

theorem unseen_le_length (seen : V → Prop) (vertices : List V) :
    unseen seen vertices ≤ vertices.length := List.countP_le_length

theorem unseen_mark {seen seen' : V → Prop} {vertices : List V} {v : V} (member : v ∈ vertices)
    (new : ¬ seen v) (marked : ∀ u, seen' u ↔ u = v ∨ seen u) :
    unseen seen' vertices + 1 ≤ unseen seen vertices := by
  classical
  have le : ∀ l : List V, unseen seen' l ≤ unseen seen l := by
    intro l
    apply List.countP_mono_left
    intro u _ hu
    simp only [marked, decide_eq_true_eq, not_or] at hu ⊢
    exact hu.2
  obtain ⟨before, after, rfl⟩ := List.append_of_mem member
  have hb := le before
  have ha := le after
  simp only [unseen, List.countP_append, List.countP_cons, marked] at hb ha ⊢
  simp only [true_or, not_true_eq_false, decide_false, new, not_false_eq_true, decide_true]
  simp only [Bool.false_eq_true, if_false, if_true]
  omega

section Spec

variable {visit : σ → V → Option (Bool × σ)} {neighbours : V → Option (List V)}
  {dom : V → Prop} {valid : σ → Prop} {seen : σ → V → Prop} {vertices : List V}

theorem pushUnseen_spec (marking : Marking visit dom valid seen)
    (listed : ∀ v, dom v → v ∈ vertices) {ns : List V} (inside : ∀ v ∈ ns, dom v) {s : σ}
    (ok : valid s) (stack : List V) :
    ∃ s' pushed, pushUnseen visit s stack ns = some (s', pushed ++ stack) ∧ valid s' ∧
      (∀ u, seen s' u ↔ seen s u ∨ u ∈ pushed) ∧ (∀ u ∈ pushed, u ∈ ns ∧ ¬ seen s u) ∧
      pushed.Nodup ∧ (∀ u ∈ ns, seen s' u) ∧
      unseen (seen s') vertices + pushed.length ≤ unseen (seen s) vertices := by
  induction ns generalizing s stack with
  | nil => exact ⟨s, [], rfl, ok, by simp, by simp, List.nodup_nil, by simp, by simp⟩
  | cons v ns ih =>
    have hv : dom v := inside v List.mem_cons_self
    have rest : ∀ u ∈ ns, dom u := fun u hu => inside u (List.mem_cons_of_mem _ hu)
    by_cases old : seen s v
    · obtain ⟨s', pushed, run, ok', marks, from', nodup, all, count⟩ := ih rest ok stack
      refine ⟨s', pushed, ?_, ok', marks, ?_, nodup, ?_, count⟩
      · simp [pushUnseen, marking.again ok hv old, run]
      · exact fun u hu => ⟨List.mem_cons_of_mem _ (from' u hu).1, (from' u hu).2⟩
      · intro u hu
        rcases List.mem_cons.mp hu with rfl | hu
        · exact (marks u).mpr (Or.inl old)
        · exact all u hu
    · obtain ⟨s₁, visited, ok₁, marks₁⟩ := marking.fresh ok hv old
      obtain ⟨s', pushed, run, ok', marks, from', nodup, all, count⟩ := ih rest ok₁ (v :: stack)
      have less := unseen_mark (listed v hv) old marks₁
      refine ⟨s', pushed ++ [v], ?_, ok', ?_, ?_, ?_, ?_, ?_⟩
      · simp [pushUnseen, visited, run]
      · intro u
        rw [marks, marks₁, List.mem_append, List.mem_singleton]
        tauto
      · intro u hu
        rcases List.mem_append.mp hu with hu | hu
        · exact ⟨List.mem_cons_of_mem _ (from' u hu).1,
            fun h => (from' u hu).2 ((marks₁ u).mpr (Or.inr h))⟩
        · obtain rfl := List.mem_singleton.mp hu
          exact ⟨List.mem_cons_self, old⟩
      · refine List.Nodup.append nodup (List.nodup_singleton v) ?_
        intro u hu hu'
        obtain rfl := List.mem_singleton.mp hu'
        exact (from' u hu).2 ((marks₁ u).mpr (Or.inl rfl))
      · intro u hu
        rcases List.mem_cons.mp hu with rfl | hu
        · exact (marks u).mpr (Or.inl ((marks₁ u).mpr (Or.inl rfl)))
        · exact all u hu
      · simp only [List.length_append, List.length_singleton]
        omega

/-- What holds between two pops: `before` was marked before the walk, everything marked
since is popped or on the stack, and the popped vertices' neighbours are marked. -/
structure WalkInv (neighbours : V → Option (List V)) (dom : V → Prop) (seen : σ → V → Prop)
    (before : V → Prop) (start : V) (s : σ) (stack out : List V) : Prop where
  marks : ∀ u, seen s u ↔ before u ∨ u ∈ out ∨ u ∈ stack
  nodup : (out ++ stack).Nodup
  apart : ∀ u, u ∈ out ∨ u ∈ stack → ¬ before u
  closed : ∀ u ∈ out, ∀ v, Adjacent neighbours dom u v → seen s v
  reached : ∀ u, u ∈ out ∨ u ∈ stack → ReflTransGen (Adjacent neighbours dom) start u
  inside : ∀ u ∈ stack, dom u

theorem walk_run (marking : Marking visit dom valid seen)
    (listed : ∀ v, dom v → v ∈ vertices)
    (readable : ∀ v, dom v → ∃ ns, neighbours v = some ns ∧ ∀ u ∈ ns, dom u)
    {before : V → Prop} {start : V} (fuel : Nat) {s : σ} {stack out : List V} (ok : valid s)
    (inv : WalkInv neighbours dom seen before start s stack out)
    (enough : unseen (seen s) vertices + stack.length ≤ fuel) :
    ∃ s' out', walk visit neighbours fuel s stack out = some (s', out') ∧ valid s' ∧
      WalkInv neighbours dom seen before start s' [] out' ∧ (∃ more, out' = out ++ more) ∧
      (∀ v ∈ stack, v ∈ out') := by
  induction fuel generalizing s stack out with
  | zero =>
    cases stack with
    | nil => exact ⟨s, out, by simp [walk], ok, inv, ⟨[], by simp⟩, by simp⟩
    | cons v stack => simp at enough
  | succ fuel ih =>
    cases stack with
    | nil => exact ⟨s, out, by simp [walk], ok, inv, ⟨[], by simp⟩, by simp⟩
    | cons v stack =>
      have hv : dom v := inv.inside v List.mem_cons_self
      obtain ⟨ns, read, hns⟩ := readable v hv
      obtain ⟨s₁, pushed, run, ok₁, marks₁, from₁, nodup₁, all₁, count₁⟩ :=
        pushUnseen_spec marking listed hns ok stack
      have next : WalkInv neighbours dom seen before start s₁ (pushed ++ stack) (out ++ [v]) := by
        constructor
        · intro u
          rw [marks₁, inv.marks]
          simp only [List.mem_append, List.mem_cons, List.not_mem_nil, or_false]
          tauto
        · have old : (out ++ [v] ++ stack).Nodup := by simpa using inv.nodup
          have : (pushed ++ (out ++ [v] ++ stack)).Nodup := by
            refine List.Nodup.append nodup₁ old ?_
            intro u hu hu'
            apply (from₁ u hu).2
            rw [inv.marks]
            simp only [List.mem_append, List.mem_singleton] at hu'
            simp only [List.mem_cons]
            tauto
          refine (List.Perm.nodup_iff ?_).mp this
          exact List.perm_append_comm_assoc _ _ _
        · intro u hu
          by_cases new : u ∈ pushed
          · exact fun h => (from₁ u new).2 ((inv.marks u).mpr (Or.inl h))
          · refine inv.apart u ?_
            simp only [List.mem_append, List.mem_singleton] at hu
            simp only [List.mem_cons]
            tauto
        · intro u hu w step
          rw [marks₁]
          rcases List.mem_append.mp hu with hu | hu
          · exact Or.inl (inv.closed u hu w step)
          · obtain rfl := List.mem_singleton.mp hu
            obtain ⟨_, ms, readm, hw⟩ := step
            obtain rfl := Option.some.inj (read.symm.trans readm)
            exact (marks₁ w).mp (all₁ w hw)
        · intro u hu
          by_cases new : u ∈ pushed
          · have reach := inv.reached v (Or.inr List.mem_cons_self)
            exact reach.tail ⟨hv, ns, read, (from₁ u new).1⟩
          · refine inv.reached u ?_
            simp only [List.mem_append, List.mem_singleton] at hu
            simp only [List.mem_cons]
            tauto
        · intro u hu
          rcases List.mem_append.mp hu with hu | hu
          · exact hns u (from₁ u hu).1
          · exact inv.inside u (List.mem_cons_of_mem _ hu)
      obtain ⟨s', out', run', ok', inv', ⟨more, grown⟩, popped⟩ := ih ok₁ next (by
        simp only [List.length_append, List.length_cons] at enough ⊢
        omega)
      refine ⟨s', out', ?_, ok', inv', ⟨v :: more, by simp [grown]⟩, ?_⟩
      · simp [walk, read, run, run']
      · intro u hu
        rcases List.mem_cons.mp hu with rfl | hu
        · simp [grown]
        · exact popped u (List.mem_append_right _ hu)

/-- A walk from an unmarked vertex is the vertex's component. -/
theorem walk_spec (marking : Marking visit dom valid seen) (listed : ∀ v, dom v → v ∈ vertices)
    (readable : ∀ v, dom v → ∃ ns, neighbours v = some ns ∧ ∀ u ∈ ns, dom u)
    (symm : ∀ u v, Adjacent neighbours dom u v → Adjacent neighbours dom v u)
    {before : V → Prop} {start : V} {s : σ} (ok : valid s) (hstart : dom start)
    (marks : ∀ u, seen s u ↔ u = start ∨ before u) (new : ¬ before start)
    (closed : ∀ u v, before u → Adjacent neighbours dom u v → before v)
    {fuel : Nat} (enough : unseen (seen s) vertices + 1 ≤ fuel) :
    ∃ s' piece, walk visit neighbours fuel s [start] [] = some (s', piece) ∧ valid s' ∧
      (∀ u, seen s' u ↔ before u ∨ u ∈ piece) ∧ piece.Nodup ∧ (∀ u ∈ piece, ¬ before u) ∧
      (∀ u, u ∈ piece ↔ ReflTransGen (Adjacent neighbours dom) start u) := by
  have inv : WalkInv neighbours dom seen before start s [start] [] := by
    constructor
    · intro u
      rw [marks]
      simp [or_comm]
    · simp
    · intro u hu
      obtain rfl : u = start := by simpa using hu
      exact new
    · simp
    · intro u hu
      obtain rfl : u = start := by simpa using hu
      exact .refl
    · intro u hu
      obtain rfl : u = start := by simpa using hu
      exact hstart
  obtain ⟨s', piece, run, ok', inv', -, popped⟩ :=
    walk_run marking listed readable fuel ok inv (by simpa using enough)
  have marks' : ∀ u, seen s' u ↔ before u ∨ u ∈ piece := by
    intro u
    rw [inv'.marks]
    simp
  refine ⟨s', piece, run, ok', marks', by simpa using inv'.nodup,
    fun u hu => inv'.apart u (Or.inl hu), ?_⟩
  intro u
  constructor
  · exact fun hu => inv'.reached u (Or.inl hu)
  · intro path
    induction path with
    | refl => exact popped start List.mem_cons_self
    | tail _ step ih =>
      rcases (marks' _).mp (inv'.closed _ ih _ step) with old | found
      · exact absurd (closed _ _ old (symm _ _ step)) (inv'.apart _ (Or.inl ih))
      · exact found

/-- The walks started from a list of vertices: disjoint components that cover the list. -/
structure Pieces (R : V → V → Prop) (before : V → Prop) (starts : List V)
    (pieces : List (List V)) : Prop where
  component : ∀ piece ∈ pieces, ∃ v ∈ starts, ∀ u, u ∈ piece ↔ ReflTransGen R v u
  nodup : ∀ piece ∈ pieces, piece.Nodup
  disjoint : pieces.Pairwise fun p q => ∀ u, u ∈ p → u ∉ q
  apart : ∀ piece ∈ pieces, ∀ u ∈ piece, ¬ before u
  covers : ∀ v ∈ starts, before v ∨ ∃ piece ∈ pieces, v ∈ piece

theorem components_spec (marking : Marking visit dom valid seen)
    (listed : ∀ v, dom v → v ∈ vertices)
    (readable : ∀ v, dom v → ∃ ns, neighbours v = some ns ∧ ∀ u ∈ ns, dom u)
    (symm : ∀ u v, Adjacent neighbours dom u v → Adjacent neighbours dom v u)
    {fuel : Nat} (enough : vertices.length ≤ fuel) {starts : List V} (inside : ∀ v ∈ starts, dom v)
    {s : σ} (ok : valid s)
    (closed : ∀ u v, seen s u → Adjacent neighbours dom u v → seen s v) :
    ∃ s' pieces, components visit neighbours fuel s starts = some (s', pieces) ∧ valid s' ∧
      Pieces (Adjacent neighbours dom) (seen s) starts pieces ∧
      (∀ u, seen s' u ↔ seen s u ∨ ∃ piece ∈ pieces, u ∈ piece) := by
  induction starts generalizing s with
  | nil =>
    exact ⟨s, [], rfl, ok, ⟨by simp, by simp, .nil, by simp, by simp⟩, by simp⟩
  | cons v starts ih =>
    have hv : dom v := inside v List.mem_cons_self
    have rest : ∀ u ∈ starts, dom u := fun u hu => inside u (List.mem_cons_of_mem _ hu)
    by_cases old : seen s v
    · obtain ⟨s', pieces, run, ok', found, marks⟩ := ih rest ok closed
      refine ⟨s', pieces, ?_, ok', ⟨?_, found.nodup, found.disjoint, found.apart, ?_⟩, marks⟩
      · simp [components, marking.again ok hv old, run]
      · intro piece hp
        obtain ⟨w, hw, reach⟩ := found.component piece hp
        exact ⟨w, List.mem_cons_of_mem _ hw, reach⟩
      · intro u hu
        rcases List.mem_cons.mp hu with rfl | hu
        · exact Or.inl old
        · exact found.covers u hu
    · obtain ⟨s₁, visited, ok₁, marks₁⟩ := marking.fresh ok hv old
      have budget : unseen (seen s₁) vertices + 1 ≤ fuel :=
        Nat.le_trans (unseen_mark (listed v hv) old marks₁)
          (Nat.le_trans (unseen_le_length _ _) enough)
      obtain ⟨s₂, piece, run₂, ok₂, marks₂, nodup₂, apart₂, reach₂⟩ :=
        walk_spec marking listed readable symm ok₁ hv marks₁ old closed
          budget
      have closed₂ : ∀ u w, seen s₂ u → Adjacent neighbours dom u w → seen s₂ w := by
        intro u w hu step
        rcases (marks₂ u).mp hu with hu | hu
        · exact (marks₂ w).mpr (Or.inl (closed u w hu step))
        · exact (marks₂ w).mpr (Or.inr ((reach₂ w).mpr (((reach₂ u).mp hu).tail step)))
      obtain ⟨s', pieces, run, ok', found, marks⟩ := ih rest ok₂ closed₂
      refine ⟨s', piece :: pieces, ?_, ok', ⟨?_, ?_, ?_, ?_, ?_⟩, ?_⟩
      · simp [components, visited, run₂, run]
      · intro p hp
        rcases List.mem_cons.mp hp with rfl | hp
        · exact ⟨v, List.mem_cons_self, reach₂⟩
        · obtain ⟨w, hw, reach⟩ := found.component p hp
          exact ⟨w, List.mem_cons_of_mem _ hw, reach⟩
      · intro p hp
        rcases List.mem_cons.mp hp with rfl | hp
        · exact nodup₂
        · exact found.nodup p hp
      · refine List.Pairwise.cons ?_ found.disjoint
        intro p hp u hu hup
        exact found.apart p hp u hup ((marks₂ u).mpr (Or.inr hu))
      · intro p hp u hu
        rcases List.mem_cons.mp hp with rfl | hp
        · exact apart₂ u hu
        · exact fun h => found.apart p hp u hu ((marks₂ u).mpr (Or.inl h))
      · intro u hu
        rcases List.mem_cons.mp hu with rfl | hu
        · exact Or.inr ⟨piece, List.mem_cons_self, (reach₂ u).mpr .refl⟩
        · rcases found.covers u hu with h | ⟨p, hp, hup⟩
          · rcases (marks₂ u).mp h with h | h
            · exact Or.inl h
            · exact Or.inr ⟨piece, List.mem_cons_self, h⟩
          · exact Or.inr ⟨p, List.mem_cons_of_mem _ hp, hup⟩
      · intro u
        rw [marks, marks₂]
        simp only [List.mem_cons, exists_eq_or_imp]
        tauto

end Spec

/-- Reaching along the neighbour lists is reaching along the edges they give. -/
theorem Adjacent.reach_iff {V : Type*} {neighbours : V → Option (List V)} {dom : V → Prop}
    {R : V → V → Prop} (edges : ∀ u v, dom u → (Adjacent neighbours dom u v ↔ R u v))
    (closed : ∀ u v, dom u → R u v → dom v) {s : V} (hs : dom s) (u : V) :
    ReflTransGen (Adjacent neighbours dom) s u ↔ ReflTransGen R s u := by
  constructor
  · intro path
    induction path with
    | refl => exact .refl
    | tail _ step ih => exact ih.tail ((edges _ _ step.1).mp step)
  · intro path
    suffices ReflTransGen (Adjacent neighbours dom) s u ∧ dom u from this.1
    induction path with
    | refl => exact ⟨.refl, hs⟩
    | tail _ step ih => exact ⟨ih.1.tail ((edges _ _ ih.2).mpr step), closed _ _ ih.2 step⟩

/-- Pieces along the neighbour lists are pieces along the edges they give. -/
theorem Pieces.of_edges {V : Type*} {neighbours : V → Option (List V)} {dom : V → Prop} {R : V → V → Prop}
    {before : V → Prop} {starts : List V} {pieces : List (List V)}
    (h : Pieces (Adjacent neighbours dom) before starts pieces)
    (edges : ∀ u v, dom u → (Adjacent neighbours dom u v ↔ R u v)) (closed : ∀ u v, dom u → R u v → dom v)
    (inside : ∀ v ∈ starts, dom v) : Pieces R before starts pieces := by
  refine ⟨fun piece member => ?_, h.nodup, h.disjoint, h.apart, h.covers⟩
  obtain ⟨v, start, reach⟩ := h.component piece member
  exact ⟨v, start, fun u => (reach u).trans (Adjacent.reach_iff edges closed (inside v start) u)⟩

/-- Along neighbour lists that give the edges `R`, a store without marks is walked to what the starts
reach along `R`. -/
theorem components_of_edges {V σ : Type u} {visit : σ → V → Option (Bool × σ)} {neighbours : V → Option (List V)}
    {dom : V → Prop} {valid : σ → Prop} {seen : σ → V → Prop} {R : V → V → Prop} {vertices : List V}
    (marking : Marking visit dom valid seen) (listed : ∀ v, dom v → v ∈ vertices)
    (lists : ∀ u, dom u → ∃ ns, neighbours u = some ns ∧ ∀ v, v ∈ ns ↔ R u v)
    (closed : ∀ u v, dom u → R u v → dom v) (symm : ∀ u v, dom u → R u v → R v u)
    {fuel : Nat} (enough : vertices.length ≤ fuel) {starts : List V} (inside : ∀ v ∈ starts, dom v)
    {s : σ} (ok : valid s) (blank : ∀ v, ¬ seen s v) :
    ∃ s' pieces, components visit neighbours fuel s starts = some (s', pieces) ∧
      Pieces R (fun _ => False) starts pieces := by
  have edges : ∀ u v, dom u → (Adjacent neighbours dom u v ↔ R u v) := by
    intro u v hu
    obtain ⟨ns, read, member⟩ := lists u hu
    constructor
    · intro step
      obtain ⟨-, ns', read', there⟩ := step
      obtain rfl := Option.some.inj (read.symm.trans read')
      exact (member v).mp there
    · exact fun edge => ⟨hu, ns, read, (member v).mpr edge⟩
  have readable : ∀ v, dom v → ∃ ns, neighbours v = some ns ∧ ∀ u ∈ ns, dom u := by
    intro v hv
    obtain ⟨ns, read, member⟩ := lists v hv
    exact ⟨ns, read, fun u there => closed v u hv ((member u).mp there)⟩
  have back : ∀ u v, Adjacent neighbours dom u v → Adjacent neighbours dom v u := by
    intro u v step
    have edge := (edges u v step.1).mp step
    exact (edges v u (closed u v step.1 edge)).mpr (symm u v step.1 edge)
  obtain ⟨s', pieces, run, -, found, -⟩ := components_spec marking listed readable back enough inside ok
    fun u v old => absurd old (blank u)
  have none : seen s = fun _ => False := funext fun v => eq_false (blank v)
  rw [none] at found
  exact ⟨s', pieces, run, found.of_edges edges closed inside⟩

/-- Pieces stay pieces when each is listed another way. -/
theorem Pieces.relisted {V : Type*} {R : V → V → Prop} {before : V → Prop} {starts : List V}
    {pieces : List (List V)} (h : Pieces R before starts pieces) {list : List V → List V}
    (same : ∀ piece v, v ∈ list piece ↔ v ∈ piece) (nodup : ∀ piece ∈ pieces, (list piece).Nodup) :
    Pieces R before starts (pieces.map list) := by
  refine ⟨fun p member => ?_, fun p member => ?_, ?_, fun p member u hu => ?_, fun v start => ?_⟩
  · obtain ⟨piece, hp, rfl⟩ := List.mem_map.mp member
    obtain ⟨v, start, reach⟩ := h.component piece hp
    exact ⟨v, start, fun u => (same piece u).trans (reach u)⟩
  · obtain ⟨piece, hp, rfl⟩ := List.mem_map.mp member
    exact nodup piece hp
  · rw [List.pairwise_map]
    refine h.disjoint.imp fun {p q} apart u hu hu' => ?_
    exact apart u ((same p u).mp hu) ((same q u).mp hu')
  · obtain ⟨piece, hp, rfl⟩ := List.mem_map.mp member
    exact h.apart piece hp u ((same piece u).mp hu)
  · refine (h.covers v start).imp_right fun there => ?_
    obtain ⟨piece, hp, hv⟩ := there
    exact ⟨list piece, List.mem_map.mpr ⟨piece, hp, rfl⟩, (same piece v).mpr hv⟩

end Hynergy.Lib
