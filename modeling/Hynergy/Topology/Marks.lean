import Hynergy.Lib.ChunkTable
import Hynergy.Lib.Returns
import Hynergy.Topology.Traversal

/-!
# Marks of a traversal

Between two traversals every mark is listed as touched, so a traversal starts without marks
whatever the one before it left; during a traversal a visit marks exactly its vertex.
-/

namespace Hynergy

open Lib

variable {F : Type}

namespace TraversalScratch

/-! ### Boolean marks -/

/-- Every mark is listed, every listed index is in range. -/
structure MarksOk (seen : List Bool) (touched : List Nat) : Prop where
  listed : ∀ i : Nat, seen[i]? = some true → i ∈ touched
  inside : ∀ i ∈ touched, i < seen.length

variable {seen : List Bool} {touched : List Nat}

theorem marksOk_nil : MarksOk [] [] := ⟨by simp, by simp⟩

theorem length_grow {α : Type} (l : List α) (n : Nat) (x : α) : (grow l n x).length = max l.length n := by
  unfold grow
  split
  · rw [List.length_append, List.length_replicate]
    omega
  · omega

theorem getElem?_grow {α : Type} (l : List α) (n : Nat) (x : α) (i : Nat) :
    (grow l n x)[i]? = if i < l.length then l[i]? else if i < n then some x else none := by
  unfold grow
  split
  · rw [List.getElem?_append, List.getElem?_replicate]
    split
    · rfl
    · congr 1
      simp only [eq_iff_iff]
      omega
  · split
    · rfl
    · rw [List.getElem?_eq_none (by omega), if_neg (by omega)]

/-- The loop that takes the listed marks away. -/
theorem clear_spec (touched : List Nat) {seen : List Bool} (inside : ∀ i ∈ touched, i < seen.length) :
    ∃ cleared, touched.foldlM (fun seen index => assign seen index false) seen = some cleared ∧
      cleared.length = seen.length ∧
      ∀ i : Nat, cleared[i]? = some true ↔ seen[i]? = some true ∧ i ∉ touched := by
  induction touched generalizing seen with
  | nil => exact ⟨seen, rfl, rfl, by simp⟩
  | cons t touched ih =>
    have ht := inside t List.mem_cons_self
    obtain ⟨cleared, run, length, marks⟩ := @ih (seen.set t false) fun i member => by
      rw [List.length_set]
      exact inside i (List.mem_cons_of_mem _ member)
    refine ⟨cleared, ?_, by rw [length, List.length_set], ?_⟩
    · rw [List.foldlM_cons, assign_of_lt ht, bind_of_eq_some rfl]
      exact run
    · intro i
      rw [marks, List.mem_cons, not_or]
      by_cases same : i = t
      · subst same
        simp [List.getElem?_set_self ht]
      · rw [List.getElem?_set_ne (Ne.symm same)]
        simp [same]

theorem resetMarks_spec (ok : MarksOk seen touched) (requiredLen : Nat) :
    ∃ cleared, resetMarks seen touched requiredLen = some cleared ∧ requiredLen ≤ cleared.length ∧
      ∀ i : Nat, cleared[i]? ≠ some true := by
  obtain ⟨cleared, run, length, marks⟩ := clear_spec touched ok.inside
  refine ⟨grow cleared requiredLen false, ?_, ?_, ?_⟩
  · rw [resetMarks, bind_of_eq_some run]
  · rw [length_grow]
    omega
  · intro i
    rw [getElem?_grow]
    split
    · intro marked
      obtain ⟨before, fresh⟩ := (marks i).mp marked
      exact fresh (ok.listed i before)
    · split <;> simp

theorem visitMark_fresh (ok : MarksOk seen touched) {index : Nat} (inside : index < seen.length)
    (new : seen[index]? ≠ some true) :
    ∃ seen' touched', visitMark seen touched index = some (true, seen', touched') ∧
      MarksOk seen' touched' ∧ seen'.length = seen.length ∧
      ∀ i : Nat, seen'[i]? = some true ↔ i = index ∨ seen[i]? = some true := by
  have read : seen[index]? = some false := by
    rw [List.getElem?_eq_getElem inside] at new ⊢
    simpa using new
  have marks : ∀ i : Nat, (seen.set index true)[i]? = some true ↔ i = index ∨ seen[i]? = some true := by
    intro i
    by_cases same : i = index
    · subst same
      simp [List.getElem?_set_self inside]
    · rw [List.getElem?_set_ne (Ne.symm same)]
      simp [same]
  refine ⟨seen.set index true, touched ++ [index], ?_, ⟨?_, ?_⟩, List.length_set .., marks⟩
  · rw [visitMark, bind_of_eq_some read]
    rfl
  · intro i marked
    rcases (marks i).mp marked with rfl | before
    · simp
    · exact List.mem_append_left _ (ok.listed i before)
  · intro i member
    rw [List.length_set]
    rcases List.mem_append.mp member with member | member
    · exact ok.inside i member
    · rwa [List.mem_singleton.mp member]

theorem visitMark_again {index : Nat} (old : seen[index]? = some true) :
    visitMark seen touched index = some (false, seen, touched) := by
  rw [visitMark, bind_of_eq_some old]
  rfl

/-! ### Marks in words -/

abbrev Words := ChunkTable (BitVec 64)

/-- Every word with a mark is listed, every listed word is there. -/
structure WordsOk (seen : Words) (touched : List (Nat × Nat)) : Prop where
  listed : ∀ place word, seen.rowAt place = some word → word ≠ 0 → place ∈ touched
  inside : ∀ place ∈ touched, ∃ word, seen.rowAt place = some word

/-- Slot `index` of a chunk is marked. -/
def Marked (seen : Words) (chunkIndex index : Nat) : Prop :=
  ∃ word, seen.rowAt (chunkIndex, index / 64) = some word ∧ word.getLsbD (index % 64) = true

/-- There is a word for every slot of every chunk. -/
def Holds (seen : Words) (slots : List Nat) : Prop :=
  ∀ (c n : Nat), slots[c]? = some n → ∀ i < n, ∃ word, seen.rowAt (c, i / 64) = some word

theorem clearWord_eq {seen : Words} {place : Nat × Nat} {word : BitVec 64}
    (read : seen.rowAt place = some word) : clearWord seen place = some (seen.setRow place 0) := by
  obtain ⟨words, hw, hr⟩ := ChunkTable.rowAt_eq_some.mp read
  rw [clearWord, bind_of_eq_some hw, assign_of_lt (List.getElem?_eq_some_iff.mp hr).1,
    bind_of_eq_some rfl, ChunkTable.setRow_eq_set hw]

theorem clearWords_spec (touched : List (Nat × Nat)) {seen : Words}
    (inside : ∀ place ∈ touched, ∃ word, seen.rowAt place = some word) :
    ∃ cleared : Words, touched.foldlM clearWord seen = some cleared ∧
      ∀ place, cleared.rowAt place =
        if place ∈ touched then some 0 else seen.rowAt place := by
  induction touched generalizing seen with
  | nil => exact ⟨seen, rfl, by simp⟩
  | cons t touched ih =>
    obtain ⟨word, read⟩ := inside t List.mem_cons_self
    have rows : ∀ place, ChunkTable.rowAt (seen.setRow t 0) place =
        if place = t then some 0 else seen.rowAt place := by
      intro place
      rw [ChunkTable.rowAt_setRow, read, Option.map_some]
    obtain ⟨cleared, run, found⟩ := @ih (seen.setRow t 0) fun place member => by
      rw [rows]
      split
      · exact ⟨0, rfl⟩
      · exact inside place (List.mem_cons_of_mem _ member)
    refine ⟨cleared, ?_, ?_⟩
    · rw [List.foldlM_cons, clearWord_eq read, bind_of_eq_some rfl]
      exact run
    · intro place
      rw [found, rows]
      by_cases here : place = t
      · simp [here]
      · simp [here]

/-- One chunk is grown to `words` words. -/
theorem rowAt_growOne (seen : Words) (first words : Nat) (place : Nat × Nat) :
    ChunkTable.rowAt ((grow seen (first + 1) []).modify first (grow · words 0)) place =
      if place.1 = first then (grow ((seen[first]?).getD []) words 0)[place.2]?
      else seen.rowAt place := by
  obtain ⟨c, w⟩ := place
  rw [ChunkTable.rowAt, ChunkTable.rowAt, List.getElem?_modify, getElem?_grow]
  dsimp only
  by_cases here : c = first
  · subst here
    simp only [if_true]
    by_cases old : c < seen.length
    · rw [if_pos old, List.getElem?_eq_getElem old]
      rfl
    · rw [if_neg old, if_pos (Nat.lt_succ_self c), List.getElem?_eq_none (Nat.not_lt.mp old)]
      rfl
  · simp only [here, Ne.symm here, if_false]
    by_cases old : c < seen.length
    · rw [if_pos old]
      simp
    · rw [if_neg old, List.getElem?_eq_none (Nat.not_lt.mp old)]
      split <;> simp

/-- Growing keeps every word and adds only empty ones, until there is one for every slot. -/
theorem growWords_spec (slots : List Nat) (first : Nat) (seen : Words) :
    (∀ place word, seen.rowAt place = some word →
      ChunkTable.rowAt (growWords first slots seen) place = some word) ∧
    (∀ place word, ChunkTable.rowAt (growWords first slots seen) place = some word →
      seen.rowAt place = some word ∨ word = 0) ∧
    ∀ (c n : Nat), slots[c]? = some n → ∀ i < n,
      ∃ word, ChunkTable.rowAt (growWords first slots seen) (first + c, i / 64) = some word := by
  induction slots generalizing first seen with
  | nil => exact ⟨fun _ _ h => h, fun _ _ h => Or.inl h, by simp⟩
  | cons slotCount slots ih =>
    let grown : Words := (grow seen (first + 1) []).modify first
      (grow · ((slotCount + 63) / 64) 0)
    have at' := rowAt_growOne seen first ((slotCount + 63) / 64)
    have at' : ∀ place, grown.rowAt place = _ := at'
    have keeps : ∀ place word, seen.rowAt place = some word → grown.rowAt place = some word := by
      intro place word read
      rw [at']
      split
      · rename_i here
        obtain ⟨words, hw, hr⟩ := ChunkTable.rowAt_eq_some.mp read
        rw [here] at hw
        rw [hw, Option.getD_some, getElem?_grow, if_pos (List.getElem?_eq_some_iff.mp hr).1, hr]
      · exact read
    have adds : ∀ place word, grown.rowAt place = some word → seen.rowAt place = some word ∨ word = 0 := by
      intro place word read
      rw [at'] at read
      split at read
      · rename_i here
        rw [getElem?_grow] at read
        split at read
        · refine Or.inl ?_
          rw [ChunkTable.rowAt, here]
          cases found : seen[first]? with
          | none =>
            rw [found] at read
            simp at read
          | some words =>
            rw [found, Option.getD_some] at read
            exact read
        · split at read
          · exact Or.inr (Option.some.inj read).symm
          · simp at read
      · exact Or.inl read
    obtain ⟨keeps', adds', holds'⟩ := ih (first + 1) grown
    refine ⟨fun place word read => keeps' place word (keeps place word read), ?_, ?_⟩
    · intro place word read
      rcases adds' place word read with read | empty
      · exact adds place word read
      · exact Or.inr empty
    · intro c n read i inside
      cases c with
      | zero =>
        obtain rfl := Option.some.inj read
        have : ∃ word, grown.rowAt (first, i / 64) = some word := by
          rw [at', if_pos rfl]
          refine ⟨_, List.getElem?_eq_getElem ?_⟩
          rw [length_grow]
          omega
        obtain ⟨word, read⟩ := this
        exact ⟨word, keeps' _ _ read⟩
      | succ c =>
        obtain ⟨word, read⟩ := holds' c n read i inside
        rw [Nat.add_right_comm, Nat.add_assoc] at read
        exact ⟨word, read⟩

/-! ### The scratch -/

structure Sound (scratch : TraversalScratch) : Prop where
  wires : MarksOk scratch.wireSeen scratch.touchedWires
  nets : MarksOk scratch.netSeen scratch.touchedNets
  words : WordsOk scratch.componentSeen scratch.touchedComponentWords

variable {self : TraversalScratch}

theorem sound_empty : Sound {} :=
  ⟨marksOk_nil, marksOk_nil, ⟨by simp [ChunkTable.rowAt], by simp⟩⟩

theorem beginWireTraversal_spec (h : Sound self) (wireSlots : Nat) :
    ∃ next, self.beginWireTraversal wireSlots = some next ∧ Sound next ∧
      wireSlots ≤ next.wireSeen.length ∧ ∀ i : Nat, next.wireSeen[i]? ≠ some true := by
  obtain ⟨cleared, run, length, clear⟩ := resetMarks_spec h.wires wireSlots
  refine ⟨{ self with wireSeen := cleared, touchedWires := [] }, ?_, ⟨⟨?_, by simp⟩, h.nets, h.words⟩,
    length, clear⟩
  · rw [beginWireTraversal, bind_of_eq_some run]
  · intro i marked
    exact absurd marked (clear i)

theorem beginIslandTraversal_spec (h : Sound self) (netSlots : Nat) (slots : List Nat) :
    ∃ next, self.beginIslandTraversal netSlots slots = some next ∧ Sound next ∧
      netSlots ≤ next.netSeen.length ∧ Holds next.componentSeen slots ∧
      (∀ i : Nat, next.netSeen[i]? ≠ some true) ∧ ∀ c i, ¬ Marked next.componentSeen c i := by
  obtain ⟨cleared, run, length, clear⟩ := resetMarks_spec h.nets netSlots
  obtain ⟨words, runWords, found⟩ := clearWords_spec self.touchedComponentWords h.words.inside
  obtain ⟨-, adds, holds⟩ := growWords_spec slots 0 words
  have empty : ∀ place word, ChunkTable.rowAt (growWords 0 slots words) place = some word → word = 0 := by
    intro place word read
    rcases adds place word read with old | zero
    · rw [found] at old
      split at old
      · exact (Option.some.inj old).symm
      · rename_i untouched
        by_contra marked
        exact untouched (h.words.listed place word old marked)
    · exact zero
  refine ⟨{ self with
      netSeen := cleared, touchedNets := []
      componentSeen := growWords 0 slots words, touchedComponentWords := [] },
    ?_, ⟨h.wires, ⟨?_, by simp⟩, ⟨?_, by simp⟩⟩, length, ?_, clear, ?_⟩
  · rw [beginIslandTraversal, bind_of_eq_some run, bind_of_eq_some runWords]
  · intro i marked
    exact absurd marked (clear i)
  · intro place word read marked
    exact absurd (empty place word read) marked
  · intro c n read i inside
    have := holds c n read i inside
    rwa [Nat.zero_add] at this
  · rintro c i ⟨word, read, set⟩
    rw [empty _ word read] at set
    simp at set

theorem visitComponent_fresh (h : Sound self) {chunkIndex index : Nat} {word : BitVec 64}
    (read : ChunkTable.rowAt self.componentSeen (chunkIndex, index / 64) = some word)
    (new : ¬ Marked self.componentSeen chunkIndex index) :
    ∃ next, self.visitComponent chunkIndex index = some (true, next) ∧ Sound next ∧
      next.netSeen = self.netSeen ∧
      (∀ place, (ChunkTable.rowAt next.componentSeen place).isSome =
        (ChunkTable.rowAt self.componentSeen place).isSome) ∧
      ∀ c i, Marked next.componentSeen c i ↔
        (c = chunkIndex ∧ i = index) ∨ Marked self.componentSeen c i := by
  have small : index % 64 < 64 := Nat.mod_lt _ (by decide)
  have unset : ¬ word &&& bit (index % 64) ≠ 0 := by
    rw [and_bit_ne_zero small]
    exact fun set => new ⟨word, read, set⟩
  obtain ⟨words, hw, hr⟩ := ChunkTable.rowAt_eq_some.mp read
  let place : Nat × Nat := (chunkIndex, index / 64)
  let seen := ChunkTable.setRow self.componentSeen place (word ||| bit (index % 64))
  have rows : ∀ p, seen.rowAt p =
      if p = place then some (word ||| bit (index % 64)) else ChunkTable.rowAt self.componentSeen p := by
    intro p
    rw [ChunkTable.rowAt_setRow, read, Option.map_some]
  have run : self.visitComponent chunkIndex index = some (true, { self with
      touchedComponentWords :=
        if word = 0 then self.touchedComponentWords ++ [place] else self.touchedComponentWords
      componentSeen := seen }) := by
    rw [visitComponent]
    dsimp only
    rw [bind_of_eq_some hw, bind_of_eq_some hr, if_neg unset]
    simp only [seen, ChunkTable.setRow_eq_set (show self.componentSeen[place.1]? = some words from hw), place]
  refine ⟨_, run, ⟨h.wires, h.nets, ⟨?_, ?_⟩⟩, rfl, ?_, ?_⟩
  · intro p marked read' nonzero
    dsimp only at read' ⊢
    rw [rows] at read'
    split at read'
    · rename_i here
      subst here
      split
      · simp
      · rename_i before
        exact h.words.listed place word read before
    · have old := h.words.listed p marked read' nonzero
      split
      · exact List.mem_append_left _ old
      · exact old
  · intro p member
    dsimp only at member ⊢
    rw [rows]
    split
    · exact ⟨_, rfl⟩
    · rename_i other
      split at member
      · rcases List.mem_append.mp member with member | member
        · exact h.words.inside p member
        · exact absurd (List.mem_singleton.mp member) other
      · exact h.words.inside p member
  · intro p
    dsimp only
    rw [rows]
    split
    · rename_i here
      rw [here, read]
      rfl
    · rfl
  · intro c i
    dsimp only [Marked]
    simp only [rows, place, Prod.mk.injEq]
    by_cases here : c = chunkIndex ∧ i / 64 = index / 64
    · obtain ⟨rfl, sameWord⟩ := here
      simp only [sameWord, and_self, if_true, Option.some.injEq, exists_eq_left', true_and]
      rw [getLsbD_or_bit small, Bool.or_eq_true, decide_eq_true_eq]
      have position : i % 64 = index % 64 ↔ i = index := by
        constructor
        · intro same
          have := Nat.div_add_mod i 64
          have := Nat.div_add_mod index 64
          omega
        · rintro rfl
          rfl
      rw [position, or_comm]
      constructor
      · rintro (same | set)
        · exact Or.inl same
        · exact Or.inr ⟨word, read, set⟩
      · rintro (same | ⟨word', read', set⟩)
        · exact Or.inl same
        · obtain rfl := Option.some.inj (read.symm.trans read')
          exact Or.inr set
    · rw [if_neg here]
      constructor
      · exact Or.inr
      · rintro (⟨rfl, rfl⟩ | marked)
        · exact absurd ⟨rfl, rfl⟩ here
        · exact marked

theorem visitComponent_again {chunkIndex index : Nat} (old : Marked self.componentSeen chunkIndex index) :
    self.visitComponent chunkIndex index = some (false, self) := by
  obtain ⟨word, read, set⟩ := old
  obtain ⟨words, hw, hr⟩ := ChunkTable.rowAt_eq_some.mp read
  have small : index % 64 < 64 := Nat.mod_lt _ (by decide)
  rw [visitComponent]
  dsimp only
  rw [bind_of_eq_some hw, bind_of_eq_some hr, if_pos ((and_bit_ne_zero small word).mpr set)]

end TraversalScratch

end Hynergy
