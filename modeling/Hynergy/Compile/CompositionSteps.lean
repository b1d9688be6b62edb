import Hynergy.Compile.CompositionLaw

/-!
# Steps of a composition

What the calls that compose a partition leave behind: unknowns for its nodes, values for the parameters that are passed
on, slots for the states, and the parts so far.
-/

namespace Hynergy

open Lib DefinitionTemplateBuilder

variable {F : Type}

theorem hasBit_setBit (words : List (BitVec 64)) (index i : Nat) :
    hasBit (setBit words index) i = (hasBit words i || decide (i = index)) := by
  have padded : ∀ n, marked (words ++ List.replicate n 0) i = marked words i := by
    intro n
    unfold marked
    by_cases inside : i / 64 < words.length
    · rw [List.getElem?_append_left inside]
    · rw [List.getElem?_append_right (Nat.le_of_not_lt inside), List.getElem?_eq_none (Nat.le_of_not_lt inside),
        List.getElem?_replicate]
      by_cases more : i / 64 - words.length < n
      · rw [if_pos more]
        simp
      · rw [if_neg more]
  have inside : index / 64 < (words ++ List.replicate (index / 64 + 1 - words.length) (0 : BitVec 64)).length := by
    rw [List.length_append, List.length_replicate]
    omega
  unfold setBit
  dsimp only
  rw [hasBit_eq_marked, hasBit_eq_marked, List.getElem?_eq_getElem inside, Option.getD_some,
    marked_or (List.getElem?_eq_getElem inside), padded]

namespace Composition

/-- A call on the builder changes nothing else. -/
theorem onBuilder_meets {α : Type} {call : Build F α} {self : Composition F} {ok : α → DefinitionTemplateBuilder F → Prop}
    {err : DefinitionTemplateBuildError → Prop} (h : (call self.builder).Meets False ok fun error _ => err error)
    {post : α → Composition F → Prop} (rest : ∀ value builder, ok value builder → post value { self with builder }) :
    (onBuilder call self).Meets False post fun error _ => err error := by
  unfold onBuilder
  cases run : call self.builder with
  | ok value builder =>
    rw [run] at h
    exact .of_ok (Call.zoom_ok run) (rest value builder h)
  | err error builder =>
    rw [run] at h
    exact .of_err (Call.zoom_err run) h
  | panic =>
    rw [run] at h
    exact h.elim

/-! ### Nodes -/

/-- A node more gets the next unknown. -/
theorem NodesPlaced.push {terminalNodes terminalNodes' : List Nat} {nodeCount : Nat} {before after : Composition F}
    {nodes : List Nat} (h : NodesPlaced terminalNodes nodeCount before nodes) {n : Nat} {info : LocalUnknownInfo}
    (free : before.nodeUnknowns[n]? = some none) (unknowns : after.builder.unknowns = before.builder.unknowns ++ [info])
    (isAfter : after.nodeUnknowns = before.nodeUnknowns.set n (some ⟨before.builder.unknowns.length⟩))
    (bound : ∀ t : Nat, info.terminal? = some t ↔ terminalNodes'[t]? = some n)
    (others : ∀ t m : Nat, m ≠ n → (terminalNodes'[t]? = some m ↔ terminalNodes[t]? = some m))
    (exposed : ∀ t : Nat, terminalNodes'[t]? = some n → t = before.builder.unknowns.length) :
    NodesPlaced terminalNodes' nodeCount after (nodes ++ [before.builder.unknowns.length]) := by
  have inside := (List.getElem?_eq_some_iff.mp free).1
  have read : ∀ m, after.nodeUnknowns[m]? = if n = m then some (some ⟨before.builder.unknowns.length⟩) else before.nodeUnknowns[m]? := by
    intro m
    rw [isAfter, List.getElem?_set]
    by_cases same : n = m
    · rw [if_pos same, if_pos same, if_pos inside]
    · rw [if_neg same, if_neg same]
  have below : ∀ (m : Nat) (u : LocalUnknownId), before.nodeUnknowns[m]? = some (some u) → u.index < before.builder.unknowns.length := by
    intro m u there
    obtain ⟨info, read, -⟩ := h.bound m u there
    exact (List.getElem?_eq_some_iff.mp read).1
  refine ⟨by rw [isAfter, List.length_set, h.length], fun u => ?_, fun m m' u atM atM' => ?_, fun t m isTerminal => ?_,
    fun m u atM => ?_⟩
  · rw [List.mem_append, List.mem_singleton, h.mem]
    constructor
    · rintro (⟨m, there⟩ | rfl)
      · refine ⟨m, ?_⟩
        rw [read, if_neg, there]
        rintro rfl
        cases free.symm.trans there
      · exact ⟨n, by rw [read, if_pos rfl]⟩
    · rintro ⟨m, there⟩
      rw [read] at there
      split at there
      · exact Or.inr (congrArg UnknownIndex.index (Option.some.inj (Option.some.inj there))).symm
      · exact Or.inl ⟨m, there⟩
  · rw [read] at atM atM'
    split at atM <;> split at atM'
    · rename_i same same'
      exact same.symm.trans same'
    · obtain rfl := Option.some.inj (Option.some.inj atM)
      exact absurd (below m' _ atM') (Nat.lt_irrefl _)
    · obtain rfl := Option.some.inj (Option.some.inj atM')
      exact absurd (below m _ atM) (Nat.lt_irrefl _)
    · exact h.distinct m m' u atM atM'
  · rw [read]
    split
    · rename_i same
      rw [exposed t (same ▸ isTerminal)]
    · rename_i other
      exact h.exposed t m ((others t m (Ne.symm other)).mp isTerminal)
  · rw [read] at atM
    split at atM
    · rename_i same
      obtain rfl := Option.some.inj (Option.some.inj atM)
      subst same
      exact ⟨info, by rw [unknowns, List.getElem?_concat_length], bound⟩
    · rename_i other
      obtain ⟨there, atU, isBound⟩ := h.bound m u atM
      refine ⟨there, ?_, fun t => (isBound t).trans (others t m (Ne.symm other)).symm⟩
      rw [unknowns, List.getElem?_append_left (List.getElem?_eq_some_iff.mp atU).1, atU]

/-- What stays when values are made. -/
theorem NodesPlaced.congr {terminalNodes : List Nat} {nodeCount : Nat} {before after : Composition F} {nodes : List Nat}
    (h : NodesPlaced terminalNodes nodeCount before nodes) (same : after.nodeUnknowns = before.nodeUnknowns)
    (unknowns : before.builder.unknowns <+: after.builder.unknowns) : NodesPlaced terminalNodes nodeCount after nodes := by
  refine ⟨by rw [same]; exact h.length, by rw [same]; exact h.mem, by rw [same]; exact h.distinct,
    by rw [same]; exact h.exposed, fun n u there => ?_⟩
  rw [same] at there
  obtain ⟨info, read, bound⟩ := h.bound n u there
  obtain ⟨more, grown⟩ := unknowns
  exact ⟨info, by rw [← grown, List.getElem?_append_left (List.getElem?_eq_some_iff.mp read).1, read], bound⟩

end Composition

end Hynergy
