import Mathlib.Data.List.Nodup
import Mathlib.Logic.Function.Basic

/-!
# Places

The places of the items of a list that pass a test, and functions given by what they are at places that are
distinct.
-/

namespace Hynergy.Lib

variable {α β : Type}

/-- Where the items are that pass. -/
def places (passes : α → Bool) (items : List α) : List Nat :=
  (items.zipIdx.filter fun entry => passes entry.1).map Prod.snd

variable {passes : α → Bool}

theorem mem_places {items : List α} {i : Nat} :
    i ∈ places passes items ↔ ∃ item, items[i]? = some item ∧ passes item = true := by
  simp [places, List.mem_zipIdx_iff_getElem?]

theorem places_nodup (passes : α → Bool) (items : List α) : (places passes items).Nodup := by
  refine List.Nodup.sublist ((List.filter_sublist).map _) ?_
  rw [List.zipIdx_map_snd]
  exact List.nodup_range'

theorem places_append (items : List α) (item : α) :
    places passes (items ++ [item]) = places passes items ++ if passes item = true then [items.length] else [] := by
  unfold places
  rw [List.zipIdx_append, List.filter_append, List.map_append, Nat.zero_add, List.zipIdx_singleton]
  cases pass : passes item <;> simp [pass]

/-- An item of a list with one more is one of the list, or the last. -/
theorem read_concat {items : List α} {last item : α} {i : Nat} (read : (items ++ [last])[i]? = some item) :
    items[i]? = some item ∧ i < items.length ∨ i = items.length ∧ item = last := by
  by_cases earlier : i < items.length
  · rw [List.getElem?_append_left earlier] at read
    exact Or.inl ⟨read, earlier⟩
  · have here : i = items.length := by
      have := (List.getElem?_eq_some_iff.mp read).1
      rw [List.length_append, List.length_singleton] at this
      omega
    subst here
    rw [List.getElem?_concat_length] at read
    exact Or.inr ⟨rfl, (Option.some.inj read).symm⟩

/-- What occurs once among the images has one place. -/
theorem place_unique {f : α → Option β} {items : List α} (distinct : (items.filterMap f).Nodup) {i j : Nat}
    {a b : α} {image : β} (atI : items[i]? = some a) (imageI : f a = some image) (atJ : items[j]? = some b)
    (imageJ : f b = some image) : i = j := by
  induction items generalizing i j with
  | nil => cases atI
  | cons first rest ih =>
    have later : ∀ (n : Nat) (other : α), rest[n]? = some other → f other = some image → f first ≠ some image := by
      intro n other read same here
      rw [List.filterMap_cons_some here] at distinct
      exact (List.nodup_cons.mp distinct).1 (List.mem_filterMap.mpr ⟨other, List.mem_of_getElem? read, same⟩)
    have tail : (rest.filterMap f).Nodup :=
      List.Nodup.sublist ((List.sublist_cons_self first rest).filterMap _) distinct
    cases i with
    | zero =>
      obtain rfl := Option.some.inj atI
      cases j with
      | zero => rfl
      | succ j => exact absurd imageI (later j b atJ imageJ)
    | succ i =>
      cases j with
      | zero =>
        obtain rfl := Option.some.inj atJ
        exact absurd imageJ (later i a atI imageI)
      | succ j => rw [ih tail atI atJ]

/-! ### Gluing -/

theorem exists_function [Inhabited β] {pairs : List (Nat × β)} (distinct : (pairs.map Prod.fst).Nodup) :
    ∃ f : Nat → β, ∀ pair ∈ pairs, f pair.1 = pair.2 := by
  induction pairs with
  | nil => exact ⟨fun _ => default, by simp⟩
  | cons pair pairs ih =>
    obtain ⟨absent, distinct⟩ := List.nodup_cons.mp distinct
    obtain ⟨f, extends'⟩ := ih distinct
    refine ⟨Function.update f pair.1 pair.2, fun other member => ?_⟩
    rcases List.mem_cons.mp member with rfl | later
    · exact Function.update_self ..
    · have apart : other.1 ≠ pair.1 := fun same => absent (same ▸ List.mem_map_of_mem later)
      rw [Function.update_of_ne apart]
      exact extends' other later

/-- What parts have at places of their own and what they share is had by one function. -/
theorem exists_gluing [Inhabited β] (parts : List α) (local' : α → List Nat) (rename : α → Nat → Nat)
    (inside : Nat → Nat → β) (nodes : List Nat) (shared : Nat → β)
    (distinct : (nodes ++ parts.flatMap fun part => (local' part).map (rename part)).Nodup) :
    ∃ f : Nat → β, (∀ u ∈ nodes, f u = shared u) ∧
      ∀ (k : Nat) part, parts[k]? = some part → ∀ i ∈ local' part, f (rename part i) = inside k i := by
  have names : ((nodes.map fun u => (u, shared u)) ++ parts.zipIdx.flatMap fun entry =>
      (local' entry.1).map fun i => (rename entry.1 i, inside entry.2 i)).map Prod.fst =
      nodes ++ parts.flatMap fun part => (local' part).map (rename part) := by
    have numbered : parts.zipIdx.flatMap (fun entry => (local' entry.1).map (rename entry.1)) =
        parts.flatMap fun part => (local' part).map (rename part) := by
      conv_rhs => rw [← List.zipIdx_map_fst 0 parts, List.flatMap_map]
    rw [← numbered, List.map_append, List.map_flatMap, List.map_map]
    simp only [List.map_map, Function.comp_def, List.map_id']
  obtain ⟨f, extends'⟩ := exists_function (names ▸ distinct)
  refine ⟨f, fun u member => ?_, fun k part read i member => ?_⟩
  · exact extends' (u, shared u) (List.mem_append_left _ (List.mem_map_of_mem member))
  · refine extends' (rename part i, inside k i) (List.mem_append_right _ (List.mem_flatMap.mpr ⟨(part, k), ?_, ?_⟩))
    · exact List.mem_zipIdx_iff_getElem?.mpr read
    · exact List.mem_map.mpr ⟨i, member, rfl⟩

end Hynergy.Lib
