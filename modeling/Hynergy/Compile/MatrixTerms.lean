import Mathlib.Algebra.BigOperators.Group.List.Basic
import Hynergy.Compile.Discrete

/-!
# Sums of terms

Sorting the terms of a stamp and adding up those of one key keeps what they sum up to.
-/

namespace Hynergy

open Lib

section Keys

variable {α : Type} {key : α → List Nat}

theorem keyLe_total : ∀ a b : List Nat, keyLe a b = true ∨ keyLe b a = true
  | [], _ => Or.inl rfl
  | _ :: _, [] => Or.inr rfl
  | a :: as, b :: bs => by
    have rest := keyLe_total as bs
    simp only [keyLe, Bool.or_eq_true, Bool.and_eq_true, decide_eq_true_eq]
    rcases Nat.lt_trichotomy a b with lower | same | higher
    · exact Or.inl (Or.inl lower)
    · exact rest.imp (fun le => Or.inr ⟨same, le⟩) fun le => Or.inr ⟨same.symm, le⟩
    · exact Or.inr (Or.inl higher)

theorem keyLe_trans : ∀ {a b c : List Nat}, keyLe a b = true → keyLe b c = true → keyLe a c = true
  | [], _, _, _, _ => rfl
  | _ :: _, [], _, h, _ => by cases h
  | _ :: _, _ :: _, [], _, h => by cases h
  | a :: as, b :: bs, c :: cs, h, h' => by
    simp only [keyLe, Bool.or_eq_true, Bool.and_eq_true, decide_eq_true_eq] at h h' ⊢
    rcases h with lower | ⟨rfl, le⟩
    · rcases h' with lower' | ⟨rfl, -⟩
      · exact Or.inl (lower.trans lower')
      · exact Or.inl lower
    · rcases h' with lower' | ⟨rfl, le'⟩
      · exact Or.inl lower'
      · exact Or.inr ⟨rfl, keyLe_trans le le'⟩

theorem sortByKey_perm (l : List α) : (sortByKey key l).Perm l := List.perm_insertionSort _ _

theorem sortByKey_sorted (key : α → List Nat) (l : List α) : (sortByKey key l).Pairwise fun a b => keyLe (key a) (key b) = true := by
  have : Std.Total fun a b : α => keyLe (key a) (key b) = true := ⟨fun a b => keyLe_total _ _⟩
  have : IsTrans α fun a b : α => keyLe (key a) (key b) = true := ⟨fun _ _ _ => keyLe_trans⟩
  exact List.pairwise_insertionSort _ l

/-- In a list sorted by a leading number the items with that number are together. -/
theorem dropWhile_takeWhile_eq_filter {lead : α → Nat} {l : List α} (sorted : l.Pairwise fun a b => lead a ≤ lead b)
    (n : Nat) : (l.dropWhile fun a => decide (lead a < n)).takeWhile (fun a => decide (lead a = n)) =
      l.filter fun a => decide (lead a = n) := by
  induction l with
  | nil => rfl
  | cons a l ih =>
    obtain ⟨first, rest⟩ := List.pairwise_cons.mp sorted
    rcases Nat.lt_trichotomy (lead a) n with lower | same | higher
    · rw [List.dropWhile_cons_of_pos (by simpa using lower), ih rest,
        List.filter_cons_of_neg (by simpa using Nat.ne_of_lt lower)]
    · rw [List.dropWhile_cons_of_neg (by simp [same]), List.takeWhile_cons_of_pos (by simpa using same),
        List.filter_cons_of_pos (by simpa using same), ← ih rest]
      congr 1
      cases l with
      | nil => rfl
      | cons b l =>
        have := first b List.mem_cons_self
        rw [List.dropWhile_cons_of_neg (by simp; omega)]
    · rw [List.dropWhile_cons_of_neg (by simp; omega), List.takeWhile_cons_of_neg (by simp; omega), eq_comm,
        List.filter_eq_nil_iff]
      intro b member
      rcases List.mem_cons.mp member with rfl | later
      · simp; omega
      · have := first b later
        simp; omega

variable {M : Type} [AddCommMonoid M] {value : α → M} {same : α → α → Bool} {plus : α → α → α} {isZero : α → Bool}

/-- Merging keeps a sum to which a merged term contributes what its two terms do. -/
theorem sum_mergeFrom (additive : ∀ a b, same a b = true → value (plus a b) = value a + value b) (term : α)
    (terms : List α) : ((mergeFrom same plus term terms).map value).sum = value term + (terms.map value).sum := by
  induction terms generalizing term with
  | nil => simp [mergeFrom]
  | cons next terms ih =>
    rw [mergeFrom]
    split
    · rename_i merges
      rw [ih, additive term next merges, List.map_cons, List.sum_cons, add_assoc]
    · rw [List.map_cons, List.sum_cons, ih, List.map_cons, List.sum_cons]

theorem sum_filter_zero (zero : ∀ a, isZero a = true → value a = 0) (terms : List α) :
    ((terms.filter fun a => !isZero a).map value).sum = (terms.map value).sum := by
  induction terms with
  | nil => rfl
  | cons a terms ih =>
    cases known : isZero a with
    | true =>
      rw [List.filter_cons_of_neg (by simp [known]), ih, List.map_cons, List.sum_cons, zero a known, zero_add]
    | false =>
      rw [List.filter_cons_of_pos (by simp [known]), List.map_cons, List.sum_cons, ih, List.map_cons, List.sum_cons]

theorem sum_canonicalize (zero : ∀ a, isZero a = true → value a = 0)
    (additive : ∀ a b, key a = key b → value (plus a b) = value a + value b) (terms : List α) :
    ((canonicalize isZero key plus terms).map value).sum = (terms.map value).sum := by
  have sorted : ((sortByKey key (terms.filter fun term => !isZero term)).map value).sum = (terms.map value).sum := by
    rw [((sortByKey_perm _).map value).sum_eq, sum_filter_zero zero]
  rw [← sorted, canonicalize]
  split
  · rename_i empty
    rw [empty]
  · rename_i term terms' isSorted
    rw [isSorted, sum_filter_zero zero, sum_mergeFrom fun a b same => additive a b (of_decide_eq_true same), List.map_cons,
      List.sum_cons]

/-- A merged list is sorted as the terms are. -/
theorem mergeFrom_sorted {r : α → α → Prop} (above : ∀ a b c, r c a → r c (plus a b))
    (below : ∀ a b c, same a b = true → r b c → r (plus a b) c) {term : α} {terms : List α}
    (sorted : (term :: terms).Pairwise r) : (mergeFrom same plus term terms).Pairwise r ∧
      ∀ c, (∀ a ∈ term :: terms, r c a) → ∀ a ∈ mergeFrom same plus term terms, r c a := by
  induction terms generalizing term with
  | nil => exact ⟨by simp [mergeFrom], by simp [mergeFrom]⟩
  | cons next terms ih =>
    obtain ⟨first, rest⟩ := List.pairwise_cons.mp sorted
    rw [mergeFrom]
    split
    · rename_i merges
      have sorted' : (plus term next :: terms).Pairwise r := by
        refine List.pairwise_cons.mpr ⟨fun c member => ?_, (List.pairwise_cons.mp rest).2⟩
        exact below _ _ _ merges ((List.pairwise_cons.mp rest).1 c member)
      refine ⟨(ih sorted').1, fun c all => (ih sorted').2 c fun a member => ?_⟩
      rcases List.mem_cons.mp member with rfl | later
      · exact above _ _ _ (all term List.mem_cons_self)
      · exact all a (by simp [later])
    · refine ⟨List.pairwise_cons.mpr ⟨(ih rest).2 term first, (ih rest).1⟩, fun c all a member => ?_⟩
      rcases List.mem_cons.mp member with rfl | later
      · exact all _ List.mem_cons_self
      · exact (ih rest).2 c (fun b there => all b (List.mem_cons_of_mem _ there)) a later

theorem canonicalize_sorted (keeps : ∀ a b, key (plus a b) = key a) (terms : List α) :
    (canonicalize isZero key plus terms).Pairwise fun a b => keyLe (key a) (key b) = true := by
  have sorted := sortByKey_sorted key (terms.filter fun term => !isZero term)
  rw [canonicalize]
  split
  · exact List.Pairwise.nil
  · rename_i term terms' isSorted
    rw [isSorted] at sorted
    refine ((mergeFrom_sorted (fun a b c le => ?_) (fun a b c merges le => ?_) sorted).1).filter _
    · rwa [keeps]
    · rwa [keeps, of_decide_eq_true merges]

end Keys

/-! ### Sorted programs -/

section Programs

variable {F : Type} [F64 F]

theorem rhsProgram_sorted (ops : List (RhsAdd F)) :
    (rhsProgram ops).Pairwise fun a b => a.destination.index ≤ b.destination.index := by
  have sorted : (rhsProgram ops).Pairwise fun a b =>
      keyLe [a.destination.index, a.source.index] [b.destination.index, b.source.index] = true :=
    canonicalize_sorted (by intro _ _; rfl) ops
  refine sorted.imp fun {a b} le => ?_
  simp only [keyLe, Bool.or_eq_true, Bool.and_eq_true, decide_eq_true_eq] at le
  omega

omit [F64 F] in
/-- The search in the sorted operations finds the destination if there is one. -/
theorem rhsHasDestination_eq_false {rhs : List (RhsAdd F)}
    (sorted : rhs.Pairwise fun a b => a.destination.index ≤ b.destination.index) {destination : UnknownIndex}
    (absent : rhsHasDestination rhs destination = false) : ∀ op ∈ rhs, op.destination.index ≠ destination.index := by
  intro op member same
  have found : op ∈ rhs.filter fun op => decide (op.destination.index = destination.index) :=
    List.mem_filter.mpr ⟨member, by simpa using same⟩
  rw [← dropWhile_takeWhile_eq_filter sorted destination.index] at found
  unfold rhsHasDestination at absent
  cases rest : rhs.dropWhile fun op => decide (op.destination.index < destination.index) with
  | nil =>
    rw [rest] at found
    cases found
  | cons first later =>
    rw [rest] at found absent
    by_cases here : first.destination.index = destination.index
    · have isDestination : first.destination = destination := congrArg UnknownIndex.mk here
      simp [isDestination] at absent
    · rw [List.takeWhile_cons_of_neg (by simpa using here)] at found
      cases found

omit [F64 F] in
theorem rowTerms_sorted {terms : List (CanonicalMatrixTerm F)} (row : UnknownIndex) :
    rowTerms (sortByKey byRow terms) row = (sortByKey byRow terms).filter fun term => decide (term.row = row) := by
  have sorted : (sortByKey byRow terms).Pairwise fun a b => a.row.index ≤ b.row.index := by
    refine (sortByKey_sorted byRow terms).imp fun {a b} le => ?_
    simp only [byRow, keyLe, Bool.or_eq_true, Bool.and_eq_true, decide_eq_true_eq] at le
    omega
  have same : ∀ term : CanonicalMatrixTerm F, decide (term.row = row) = decide (term.row.index = row.index) := by
    intro term
    rw [decide_eq_decide]
    exact ⟨fun h => h ▸ rfl, fun h => congrArg UnknownIndex.mk h⟩
  unfold rowTerms
  simp only [same]
  exact dropWhile_takeWhile_eq_filter sorted row.index

end Programs

end Hynergy
