import Mathlib.Data.List.Infix
import Mathlib.Tactic.ByContra

/-!
# Calls that return

A call that may panic is an `Option`. `Returns excuse call post` says that it returns a value
of `post`, unless `excuse` holds: with a false excuse this is total correctness, from a
result alone it gives partial correctness.
-/

namespace Hynergy.Lib

universe u

variable {α β σ : Type u} {excuse : Prop} {call : Option α} {post : α → Prop}

/-- A call that returns is replaced by its result. -/
theorem bind_of_eq_some {f : α → Option β} {a : α} (run : call = some a) : (call >>= f) = f a := by
  rw [run]
  rfl

theorem mapM_eq_some {f : α → Option β} {g : α → β} {l : List α}
    (h : ∀ a ∈ l, f a = some (g a)) : l.mapM f = some (l.map g) := by
  induction l with
  | nil => rfl
  | cons a l ih =>
    rw [List.mapM_cons, bind_of_eq_some (h a List.mem_cons_self),
      bind_of_eq_some (ih fun b member => h b (List.mem_cons_of_mem _ member))]
    rfl

theorem filterM_eq_some {γ : Type} {f : γ → Option Bool} {p : γ → Bool} {l : List γ}
    (h : ∀ a ∈ l, f a = some (p a)) : l.filterM f = some (l.filter p) := by
  have aux : ∀ acc, List.filterAuxM f l acc = some ((l.filter p).reverse ++ acc) := by
    induction l with
    | nil => exact fun _ => rfl
    | cons a l ih =>
      intro acc
      rw [List.filterAuxM, bind_of_eq_some (h a List.mem_cons_self),
        ih fun b member => h b (List.mem_cons_of_mem _ member)]
      cases here : p a <;> simp [here]
  rw [List.filterM, bind_of_eq_some (aux []), List.append_nil, List.reverse_reverse]
  rfl

def Returns (excuse : Prop) (call : Option α) (post : α → Prop) : Prop :=
  match call with
  | none => excuse
  | some a => post a

namespace Returns

theorem of_eq_some {a : α} (run : call = some a) (h : post a) : Returns excuse call post := by
  rw [run]
  exact h

/-- Termination and correctness apart. -/
theorem of_parts (total : ¬ excuse → ∃ a, call = some a) (correct : ∀ a, call = some a → post a) :
    Returns excuse call post := by
  cases call with
  | none =>
    by_contra fine
    obtain ⟨a, run⟩ := total fine
    simp at run
  | some a => exact correct a rfl

/-- Partial correctness. -/
theorem of_run (h : Returns excuse call post) {a : α} (run : call = some a) : post a := by
  rw [run] at h
  exact h

/-- Total correctness. -/
theorem returned (h : Returns excuse call post) (fine : ¬ excuse) : ∃ a, call = some a ∧ post a := by
  cases run : call with
  | none =>
    rw [run] at h
    exact absurd h fine
  | some a => exact ⟨a, rfl, h.of_run run⟩

theorem mono {excuse' : Prop} {post' : α → Prop} (h : Returns excuse call post)
    (worse : excuse → excuse') (weaker : ∀ a, post a → post' a) : Returns excuse' call post' := by
  cases call with
  | none => exact worse h
  | some a => exact weaker a h

theorem bind {f : α → Option β} {post' : β → Prop} (h : Returns excuse call post)
    (next : ∀ a, post a → Returns excuse (f a) post') : Returns excuse (call >>= f) post' := by
  cases call with
  | none => exact h
  | some a => exact next a h

theorem bind_some {f : α → Option β} {post' : β → Prop} {a : α} (run : call = some a)
    (next : Returns excuse (f a) post') : Returns excuse (call >>= f) post' := by
  rw [run]
  exact next

/-- The loop rule: `inv` holds of the processed part of the list and the state. -/
theorem foldlM {f : σ → β → Option σ} (inv : List β → σ → Prop) {list : List β} {s : σ}
    (start : inv [] s)
    (step : ∀ done b rest s, list = done ++ b :: rest → inv done s →
      Returns excuse (f s b) (inv (done ++ [b]))) :
    Returns excuse (list.foldlM f s) (inv list) := by
  suffices ∀ rest done s, list = done ++ rest → inv done s →
      Returns excuse (rest.foldlM f s) (inv list) from this list [] s rfl start
  intro rest
  induction rest with
  | nil =>
    intro done s split holds
    rw [List.append_nil] at split
    subst split
    exact holds
  | cons b rest ih =>
    intro done s split holds
    rw [List.foldlM_cons]
    refine (step done b rest s split holds).bind fun s' holds' => ?_
    exact ih (done ++ [b]) s' (by rw [split, List.append_assoc, List.singleton_append]) holds'

end Returns

end Hynergy.Lib
