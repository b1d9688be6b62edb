import Mathlib.Tactic.ByContra

/-!
# Marks in a word

Sixty-four marks kept in one machine word.
-/

namespace Hynergy.Lib

/-- `1_u64 << i`. -/
def bit (i : Nat) : BitVec 64 := 1#64 <<< i

theorem getLsbD_bit {i : Nat} (small : i < 64) (j : Nat) : (bit i).getLsbD j = decide (j = i) := by
  simp only [bit, BitVec.getLsbD_shiftLeft, BitVec.getLsbD_one]
  by_cases same : j = i
  · subst same
    simp [small]
  · simp only [same, decide_false]
    rcases Nat.lt_or_gt_of_ne same with below | above
    · simp [below]
    · simp [show ¬ j - i = 0 by omega]

theorem getLsbD_or_bit {i : Nat} (small : i < 64) (word : BitVec 64) (j : Nat) :
    (word ||| bit i).getLsbD j = (word.getLsbD j || decide (j = i)) := by
  rw [BitVec.getLsbD_or, getLsbD_bit small]

theorem and_bit_ne_zero {i : Nat} (small : i < 64) (word : BitVec 64) :
    word &&& bit i ≠ 0 ↔ word.getLsbD i = true := by
  constructor
  · intro nonzero
    by_contra unset
    apply nonzero
    apply BitVec.eq_of_getLsbD_eq
    intro j _
    rw [BitVec.getLsbD_and, getLsbD_bit small]
    by_cases same : j = i
    · rw [same, Bool.eq_false_iff.mpr unset, Bool.false_and]
      exact BitVec.getLsbD_zero.symm
    · simp [same]
  · intro set zero
    have := congrArg (·.getLsbD i) zero
    simp [BitVec.getLsbD_and, getLsbD_bit small, set] at this

theorem getLsbD_andNot_bit {i : Nat} (small : i < 64) (word : BitVec 64) {j : Nat} (small' : j < 64) :
    (word &&& ~~~bit i).getLsbD j = (word.getLsbD j && decide (j ≠ i)) := by
  rw [BitVec.getLsbD_and, BitVec.getLsbD_not, getLsbD_bit small]
  simp [small']

/-- The lowest mark of a word. -/
theorem ctz_spec {word : BitVec 64} (nonzero : word ≠ 0) :
    word.ctz.toNat < 64 ∧ word.getLsbD word.ctz.toNat = true ∧
      ∀ j, word.getLsbD j = true → word.ctz.toNat ≤ j := by
  refine ⟨BitVec.lt_def.mp (BitVec.ctz_lt_iff_ne_zero.mpr nonzero), BitVec.getLsbD_true_ctz_of_ne_zero nonzero, ?_⟩
  intro j set
  by_contra below
  rw [BitVec.getLsbD_false_of_lt_ctz (Nat.lt_of_not_le below)] at set
  exact absurd set Bool.false_ne_true

/-! ### Lists of words -/

/-- The mark of an index, in the word that holds it. -/
def marked (words : List (BitVec 64)) (i : Nat) : Bool :=
  match words[i / 64]? with
  | some word => word.getLsbD (i % 64)
  | none => false

variable {words : List (BitVec 64)} {word : BitVec 64}

theorem marked_of_word {i : Nat} (read : words[i / 64]? = some word) : marked words i = word.getLsbD (i % 64) := by
  rw [marked, read]

theorem marked_set {w : Nat} (inside : w < words.length) (j : Nat) :
    marked (words.set w word) j = if j / 64 = w then word.getLsbD (j % 64) else marked words j := by
  unfold marked
  by_cases same : j / 64 = w
  · rw [same, List.getElem?_set_self inside, if_pos rfl]
  · rw [List.getElem?_set_ne (Ne.symm same), if_neg same]

theorem marked_or {i : Nat} (read : words[i / 64]? = some word) (j : Nat) :
    marked (words.set (i / 64) (word ||| bit (i % 64))) j = (marked words j || decide (j = i)) := by
  rw [marked_set (List.getElem?_eq_some_iff.mp read).1]
  have small : i % 64 < 64 := Nat.mod_lt _ (by decide)
  split
  · rename_i same
    rw [getLsbD_or_bit small, marked_of_word (same ▸ read)]
    congr 2
    refine propext ⟨fun h => ?_, fun h => by rw [h]⟩
    omega
  · rename_i other
    have apart : j ≠ i := fun h => other (by rw [h])
    simp [apart]

theorem marked_andNot {i : Nat} (read : words[i / 64]? = some word) (j : Nat) :
    marked (words.set (i / 64) (word &&& ~~~bit (i % 64))) j = (marked words j && decide (j ≠ i)) := by
  rw [marked_set (List.getElem?_eq_some_iff.mp read).1]
  have small : ∀ k, k % 64 < 64 := fun k => Nat.mod_lt _ (by decide)
  split
  · rename_i same
    rw [getLsbD_andNot_bit (small i) _ (small j), marked_of_word (same ▸ read)]
    congr 2
    refine propext ⟨fun h h' => h (by rw [h']), fun h h' => h ?_⟩
    omega
  · rename_i other
    have apart : j ≠ i := fun h => other (by rw [h])
    simp [apart]

/-- Words without marks are zero. -/
theorem eq_replicate_of_unmarked (none : ∀ i, marked words i = false) : words = List.replicate words.length 0 := by
  refine List.eq_replicate_iff.mpr ⟨rfl, fun word member => ?_⟩
  obtain ⟨w, inside, rfl⟩ := List.getElem_of_mem member
  apply BitVec.eq_of_getLsbD_eq
  intro j small
  have := none (w * 64 + j)
  rw [marked_of_word (by
    rw [show (w * 64 + j) / 64 = w by omega, List.getElem?_eq_getElem inside])] at this
  rw [show (w * 64 + j) % 64 = j by omega] at this
  rw [this]
  exact BitVec.getLsbD_zero.symm

theorem marked_replicate (n i : Nat) : marked (List.replicate n 0) i = false := by
  unfold marked
  rw [List.getElem?_replicate]
  split
  · rename_i read
    split at read
    · obtain rfl := Option.some.inj read
      exact BitVec.getLsbD_zero
    · exact absurd read nofun
  · rfl

end Hynergy.Lib
