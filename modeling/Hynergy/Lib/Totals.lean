import Mathlib.Algebra.BigOperators.Group.List.Basic
import Mathlib.Algebra.Ring.Defs
import Mathlib.Tactic.Ring

/-!
# Totals

Items that each put an amount at a place, and what they put at a set of places together. Renaming the places of the
items is the same as asking for the places whose new name is in the set; a total is the sum of the totals of the
single places.
-/

namespace Hynergy.Lib

variable {α β ι κ M : Type*}

section Monoid

variable [AddCommMonoid M]

def total (items : List α) (place : α → ι) (amount : α → M) (inside : ι → Bool) : M :=
  (items.map fun item => if inside (place item) = true then amount item else 0).sum

variable {place : α → ι} {amount : α → M} {inside : ι → Bool} {items : List α}

@[simp] theorem total_nil : total ([] : List α) place amount inside = 0 := rfl

@[simp] theorem total_cons (item : α) : total (item :: items) place amount inside =
    (if inside (place item) = true then amount item else 0) + total items place amount inside := by
  simp [total]

@[simp] theorem total_append (more : List α) :
    total (items ++ more) place amount inside = total items place amount inside + total more place amount inside := by
  simp [total]

theorem total_map (f : β → α) (items : List β) :
    total (items.map f) place amount inside = total items (place ∘ f) (amount ∘ f) inside := by
  simp [total, Function.comp_def]

theorem total_congr {place' : α → κ} {amount' : α → M} {inside' : κ → Bool}
    (same : ∀ item ∈ items, inside (place item) = inside' (place' item) ∧ amount item = amount' item) :
    total items place amount inside = total items place' amount' inside' := by
  unfold total
  congr 1
  refine List.map_congr_left fun item member => ?_
  rw [(same item member).1, (same item member).2]

theorem total_eq_zero (outside : ∀ item ∈ items, inside (place item) = true → amount item = 0) :
    total items place amount inside = 0 := by
  induction items with
  | nil => rfl
  | cons item items ih =>
    rw [total_cons, ih fun other member => outside other (List.mem_cons_of_mem _ member), add_zero]
    split
    · exact outside item List.mem_cons_self ‹_›
    · rfl

theorem total_flatMap (groups : List β) (f : β → List α) :
    total (groups.flatMap f) place amount inside = (groups.map fun group => total (f group) place amount inside).sum := by
  induction groups with
  | nil => rfl
  | cons group groups ih => simp [ih]

/-- The places of the set, one by one. -/
theorem total_places [DecidableEq ι] (places : List ι) (distinct : places.Nodup)
    (covers : ∀ item ∈ items, place item ∈ places) :
    total items place amount inside =
      (places.map fun p => if inside p = true then total items place amount (fun q => decide (q = p)) else 0).sum := by
  induction items with
  | nil =>
    rw [total_nil]
    symm
    apply List.sum_eq_zero
    intro x member
    obtain ⟨p, -, rfl⟩ := List.mem_map.mp member
    split <;> rfl
  | cons item items ih =>
    have one : (places.map fun p => if inside p = true then
        (if decide (place item = p) = true then amount item else 0) else 0).sum =
        if inside (place item) = true then amount item else 0 := by
      have here := covers item List.mem_cons_self
      clear ih covers
      induction places with
      | nil => cases here
      | cons p places ih =>
        obtain ⟨absent, distinct⟩ := List.nodup_cons.mp distinct
        rw [List.map_cons, List.sum_cons]
        rcases List.mem_cons.mp here with same | later
        · subst same
          have rest : (places.map fun p => if inside p = true then
              (if decide (place item = p) = true then amount item else 0) else 0).sum = 0 := by
            apply List.sum_eq_zero
            intro x member
            obtain ⟨p, there, rfl⟩ := List.mem_map.mp member
            have apart : place item ≠ p := fun same => absent (same ▸ there)
            simp [apart]
          rw [rest, add_zero]
          simp
        · have apart : place item ≠ p := fun same => absent (same ▸ later)
          rw [ih distinct later]
          simp [apart]
    rw [total_cons, ih fun other member => covers other (List.mem_cons_of_mem _ member), ← one, ← List.sum_map_add]
    congr 1
    refine List.map_congr_left fun p _ => ?_
    rw [total_cons]
    by_cases chosen : inside p = true <;> simp [chosen]

/-- The items of a list but one add nothing. -/
theorem sum_map_single {f : α → M} {items : List α} {k : Nat} {item : α} (read : items[k]? = some item)
    (others : ∀ (j : Nat) other, items[j]? = some other → j ≠ k → f other = 0) : (items.map f).sum = f item := by
  induction items generalizing k with
  | nil => cases read
  | cons first items ih =>
    rw [List.map_cons, List.sum_cons]
    cases k with
    | zero =>
      obtain rfl := Option.some.inj read
      have rest : (items.map f).sum = 0 := by
        apply List.sum_eq_zero
        intro x member
        obtain ⟨other, there, rfl⟩ := List.mem_map.mp member
        obtain ⟨j, at'⟩ := List.mem_iff_getElem?.mp there
        exact others (j + 1) other at' (Nat.succ_ne_zero j)
      rw [rest, add_zero]
    | succ k =>
      rw [others 0 first rfl (Nat.succ_ne_zero k).symm, zero_add]
      exact ih read fun j other at' apart => others (j + 1) other at' fun same => apart (Nat.succ.inj same)

/-- The images of a list, added up place by place. -/
theorem sum_range_filterMap {f : α → Option β} {amount : β → M} (items : List α) :
    ((List.range items.length).map fun i => ((items[i]?.bind f).map amount).getD 0).sum =
      ((items.filterMap f).map amount).sum := by
  induction items with
  | nil => rfl
  | cons item items ih =>
    have shifted : (fun i => (((item :: items)[i]?.bind f).map amount).getD 0) ∘ Nat.succ =
        fun i => ((items[i]?.bind f).map amount).getD 0 := rfl
    rw [List.length_cons, List.range_succ_eq_map, List.map_cons, List.map_map, shifted, List.sum_cons, ih]
    cases image : f item with
    | none =>
      rw [List.filterMap_cons_none image]
      simp [image]
    | some b =>
      rw [List.filterMap_cons_some image]
      simp [image]

end Monoid

section Group

variable [AddCommGroup M]

theorem sum_map_sub (items : List α) (f g : α → M) :
    (items.map fun item => f item - g item).sum = (items.map f).sum - (items.map g).sum := by
  induction items with
  | nil => simp
  | cons item items ih =>
    rw [List.map_cons, List.sum_cons, ih, List.map_cons, List.sum_cons, List.map_cons, List.sum_cons, add_sub_add_comm]

end Group

end Hynergy.Lib
