import Hynergy.Lib.Walk
import Hynergy.Topology.Marks
import Hynergy.Topology.Operations

/-!
# Reusing the marks

A scratch that was used before has room for more than one that was not, and a traversal begins with
the marks cleared in both: whatever a traversal, or a repair, does with the one, it does with the other.
-/

namespace Hynergy

open Lib

variable {F : Type}

namespace TraversalScratch

/-! ### A larger scratch -/

variable {seen other : List Bool} {touched touched' : List Nat}

/-- Every entry of the first list is an entry of the second. -/
def Within {α : Type} (l m : List α) : Prop := ∀ (i : Nat) (x : α), l[i]? = some x → m[i]? = some x

theorem Within.length_le {α : Type} {l m : List α} (h : Within l m) : l.length ≤ m.length := by
  by_contra shorter
  have inside : m.length < l.length := Nat.not_le.mp shorter
  have there := h m.length l[m.length] (List.getElem?_eq_getElem inside)
  rw [List.getElem?_eq_none (Nat.le_refl _)] at there
  cases there

theorem Within.set {α : Type} {l m : List α} (h : Within l m) (i : Nat) (x : α) : Within (l.set i x) (m.set i x) := by
  intro j y read
  rw [List.getElem?_set] at read ⊢
  split
  · rename_i same
    rw [if_pos same] at read
    split at read
    · rename_i inside
      rw [if_pos (Nat.lt_of_lt_of_le inside h.length_le)]
      exact read
    · cases read
  · rename_i different
    rw [if_neg different] at read
    exact h j y read

theorem resetMarks_length {cleared : List Bool} {requiredLen : Nat} (ok : MarksOk seen touched)
    (run : resetMarks seen touched requiredLen = some cleared) : cleared.length = max seen.length requiredLen := by
  obtain ⟨taken, run', length, -⟩ := clear_spec touched ok.inside
  rw [resetMarks, bind_of_eq_some run'] at run
  obtain rfl := Option.some.inj run
  rw [length_grow, length]

/-- Cleared, the longer list of marks has the entries of the shorter. -/
theorem resetMarks_within (ok : MarksOk seen touched) (ok' : MarksOk other touched')
    (room : seen.length ≤ other.length) (requiredLen : Nat) :
    ∃ cleared cleared', resetMarks seen touched requiredLen = some cleared ∧
      resetMarks other touched' requiredLen = some cleared' ∧ Within cleared cleared' := by
  obtain ⟨cleared, run, -, clear⟩ := resetMarks_spec ok requiredLen
  obtain ⟨cleared', run', -, clear'⟩ := resetMarks_spec ok' requiredLen
  have length := resetMarks_length ok run
  have length' := resetMarks_length ok' run'
  refine ⟨cleared, cleared', run, run', fun i marked read => ?_⟩
  have inside : i < cleared'.length := by
    have := (List.getElem?_eq_some_iff.mp read).1
    omega
  have here := List.getElem?_eq_getElem inside
  cases marked with
  | true => exact absurd read (clear i)
  | false =>
    cases there : cleared'[i] with
    | true => exact absurd (here.trans (congrArg some there)) (clear' i)
    | false => exact here.trans (congrArg some there)

theorem visitMark_within (ok : MarksOk seen touched) (ok' : MarksOk other touched') (h : Within seen other)
    {index : Nat} {isNew : Bool} {next : List Bool} {list : List Nat}
    (run : visitMark seen touched index = some (isNew, next, list)) :
    ∃ next' list', visitMark other touched' index = some (isNew, next', list') ∧ Within next next' ∧
      MarksOk next list ∧ MarksOk next' list' := by
  obtain ⟨marked, read, -⟩ := Option.bind_eq_some_iff.mp run
  have read' := h index marked read
  cases marked with
  | true =>
    rw [visitMark_again read] at run
    obtain ⟨rfl, pair⟩ := Prod.mk.inj (Option.some.inj run)
    obtain ⟨rfl, rfl⟩ := Prod.mk.inj pair
    exact ⟨other, touched', visitMark_again read', h, ok, ok'⟩
  | false =>
    have new {marks : List Bool} (at' : marks[index]? = some false) : marks[index]? ≠ some true := by
      rw [at']
      nofun
    have direct {marks : List Bool} {list : List Nat} (at' : marks[index]? = some false) :
        visitMark marks list index = some (true, marks.set index true, list ++ [index]) := by
      rw [visitMark, bind_of_eq_some at']
      rfl
    obtain ⟨_, _, fresh, kept, -⟩ := visitMark_fresh ok (List.getElem?_eq_some_iff.mp read).1 (new read)
    obtain ⟨_, _, fresh', kept', -⟩ := visitMark_fresh ok' (List.getElem?_eq_some_iff.mp read').1 (new read')
    rw [direct read] at run fresh
    rw [direct read'] at fresh'
    obtain ⟨rfl, pair⟩ := Prod.mk.inj (Option.some.inj run)
    obtain ⟨rfl, rfl⟩ := Prod.mk.inj pair
    obtain ⟨-, pair⟩ := Prod.mk.inj (Option.some.inj fresh)
    obtain ⟨rfl, rfl⟩ := Prod.mk.inj pair
    obtain ⟨-, pair⟩ := Prod.mk.inj (Option.some.inj fresh')
    obtain ⟨rfl, rfl⟩ := Prod.mk.inj pair
    exact ⟨_, _, direct read', h.set index true, kept, kept'⟩

/-- There is a word wherever the other table has one. -/
def Covers (large small : Words) : Prop :=
  ∀ place word, small.rowAt place = some word → ∃ word', large.rowAt place = some word'

theorem growWords_covers (slots : List Nat) (first : Nat) {small large : Words} (h : Covers large small) :
    Covers (growWords first slots large) (growWords first slots small) := by
  induction slots generalizing first small large with
  | nil => exact h
  | cons slotCount slots ih =>
    refine ih (first + 1) fun place word read => ?_
    rw [rowAt_growOne] at read
    rw [rowAt_growOne]
    split
    · rename_i here
      rw [if_pos here, getElem?_grow] at read
      rw [getElem?_grow]
      split at read
      · rename_i inside
        have old : small.rowAt (first, place.2) = some word := by
          cases chunk : small[first]? with
          | none =>
            rw [chunk] at inside
            exact absurd inside (Nat.not_lt_zero _)
          | some words =>
            rw [chunk, Option.getD_some] at read
            exact ChunkTable.rowAt_eq_some.mpr ⟨words, chunk, read⟩
        obtain ⟨word', there⟩ := h _ _ old
        obtain ⟨words, chunk, there⟩ := ChunkTable.rowAt_eq_some.mp there
        rw [chunk, Option.getD_some, if_pos (List.getElem?_eq_some_iff.mp there).1]
        exact ⟨word', there⟩
      · split at read
        · split
          · exact ⟨_, List.getElem?_eq_getElem ‹_›⟩
          · exact ⟨0, rfl⟩
        · cases read
    · rename_i elsewhere
      rw [if_neg elsewhere] at read
      exact h place word read

/-- The second scratch has room for all that the first has room for; marks are of no account. -/
structure Roomier (small large : TraversalScratch) : Prop where
  left : Sound small
  right : Sound large
  wires : small.wireSeen.length ≤ large.wireSeen.length
  nets : small.netSeen.length ≤ large.netSeen.length
  words : Covers large.componentSeen small.componentSeen

variable {small large next : TraversalScratch}

theorem Sound.roomier_empty (h : Sound large) : Roomier {} large :=
  ⟨sound_empty, h, Nat.zero_le _, Nat.zero_le _, fun place word read => by simp [ChunkTable.rowAt] at read⟩

theorem Sound.roomier (h : Sound large) : Roomier large large :=
  ⟨h, h, Nat.le_refl _, Nat.le_refl _, fun _ word read => ⟨word, read⟩⟩

/-- During a walk over wires: the marks are those of the first scratch as well. -/
structure SameWires (small large : TraversalScratch) : Prop extends Roomier small large where
  marks : Within small.wireSeen large.wireSeen

/-- During a walk over nets and components. -/
structure SameVertices (small large : TraversalScratch) : Prop extends Roomier small large where
  netMarks : Within small.netSeen large.netSeen
  wordMarks : ∀ place word, ChunkTable.rowAt small.componentSeen place = some word →
    ChunkTable.rowAt large.componentSeen place = some word

theorem beginWireTraversal_follows (h : Roomier small large) {slots : Nat}
    (run : small.beginWireTraversal slots = some next) :
    ∃ next', large.beginWireTraversal slots = some next' ∧ SameWires next next' := by
  obtain ⟨cleared, cleared', reset, reset', within⟩ := resetMarks_within h.left.wires h.right.wires h.wires slots
  obtain ⟨begun, begin', sound, -⟩ := beginWireTraversal_spec h.left slots
  obtain ⟨begun', begin'', sound', -⟩ := beginWireTraversal_spec h.right slots
  obtain rfl := Option.some.inj (run.symm.trans begin')
  refine ⟨begun', begin'', ?_⟩
  rw [beginWireTraversal, bind_of_eq_some reset] at begin'
  rw [beginWireTraversal, bind_of_eq_some reset'] at begin''
  obtain rfl := Option.some.inj begin'
  obtain rfl := Option.some.inj begin''
  exact ⟨⟨sound, sound', within.length_le, h.nets, h.words⟩, within⟩

theorem visitWire_follows : Follows (fun (scratch : TraversalScratch) (wire : WireId) => scratch.visitWire wire.index)
    SameWires := by
  intro s t wire isNew s' h run
  obtain ⟨⟨_, seen, touched⟩, visited, run⟩ := Option.bind_eq_some_iff.mp run
  obtain ⟨rfl, rfl⟩ := Prod.mk.inj (Option.some.inj run)
  obtain ⟨seen', touched', visited', within, ok, ok'⟩ := visitMark_within h.left.wires h.right.wires h.marks visited
  refine ⟨{ t with wireSeen := seen', touchedWires := touched' }, ?_,
    ⟨⟨⟨ok, h.left.nets, h.left.words⟩, ⟨ok', h.right.nets, h.right.words⟩, within.length_le, h.nets, h.words⟩, within⟩⟩
  dsimp only
  rw [visitWire, bind_of_eq_some visited']

/-- What beginning a walk over an island does: nets are unmarked, and every word is there and empty. -/
theorem beginIslandTraversal_eq (h : Sound small) {netSlots : Nat} {slots : List Nat}
    (run : small.beginIslandTraversal netSlots slots = some next) :
    next.wireSeen = small.wireSeen ∧ resetMarks small.netSeen small.touchedNets netSlots = some next.netSeen ∧
      (∃ words, Covers small.componentSeen words ∧ Covers words small.componentSeen ∧
        next.componentSeen = growWords 0 slots words) ∧
      ∀ place word, ChunkTable.rowAt next.componentSeen place = some word → word = 0 := by
  obtain ⟨begun, begin', -, -, -, -, clear⟩ := beginIslandTraversal_spec h netSlots slots
  obtain rfl := Option.some.inj (run.symm.trans begin')
  obtain ⟨cleared, reset, -⟩ := resetMarks_spec h.nets netSlots
  obtain ⟨words, runWords, found⟩ := clearWords_spec small.touchedComponentWords h.words.inside
  rw [beginIslandTraversal, bind_of_eq_some reset, bind_of_eq_some runWords] at begin'
  obtain rfl := Option.some.inj begin'
  refine ⟨rfl, reset, ⟨words, fun place word read => ?_, fun place word read => ?_, rfl⟩, fun place word read => ?_⟩
  · rw [found] at read
    split at read
    · exact h.words.inside place ‹_›
    · exact ⟨word, read⟩
  · rw [found]
    split
    · exact ⟨0, rfl⟩
    · exact ⟨word, read⟩
  · -- a bit of the word would be a mark
    apply BitVec.eq_of_getLsbD_eq
    intro i inside
    rw [show (0 : BitVec 64).getLsbD i = false from BitVec.getLsbD_zero]
    by_contra set
    refine clear place.1 (place.2 * 64 + i) ⟨word, ?_, ?_⟩
    · rw [show (place.2 * 64 + i) / 64 = place.2 by omega]
      exact read
    · rw [show (place.2 * 64 + i) % 64 = i by omega]
      exact Bool.eq_true_of_not_eq_false set

theorem beginIslandTraversal_follows (h : Roomier small large) {netSlots : Nat} {slots : List Nat}
    (run : small.beginIslandTraversal netSlots slots = some next) :
    ∃ next', large.beginIslandTraversal netSlots slots = some next' ∧ SameVertices next next' := by
  obtain ⟨begun, begin', sound, -⟩ := beginIslandTraversal_spec h.left netSlots slots
  obtain ⟨begun', begin'', sound', -⟩ := beginIslandTraversal_spec h.right netSlots slots
  obtain rfl := Option.some.inj (run.symm.trans begin')
  obtain ⟨wires, reset, ⟨words, into, -, grown⟩, empty⟩ := beginIslandTraversal_eq h.left begin'
  obtain ⟨wires', reset', ⟨words', -, from', grown'⟩, empty'⟩ := beginIslandTraversal_eq h.right begin''
  obtain ⟨cleared, cleared', run₁, run₂, within⟩ := resetMarks_within h.left.nets h.right.nets h.nets netSlots
  obtain rfl := Option.some.inj (reset.symm.trans run₁)
  obtain rfl := Option.some.inj (reset'.symm.trans run₂)
  have covers : Covers begun'.componentSeen next.componentSeen := by
    rw [grown, grown']
    refine growWords_covers slots 0 fun place word read => ?_
    obtain ⟨_, read⟩ := into place word read
    obtain ⟨_, read⟩ := h.words place _ read
    exact from' place _ read
  refine ⟨begun', begin'', ⟨⟨sound, sound', ?_, within.length_le, covers⟩, within, fun place word read => ?_⟩⟩
  · rw [wires, wires']
    exact h.wires
  · obtain ⟨word', read'⟩ := covers place word read
    rw [read', empty place word read, empty' place word' read']

theorem visitNet_follows (h : SameVertices small large) {index : Nat} {isNew : Bool}
    (run : small.visitNet index = some (isNew, next)) :
    ∃ next', large.visitNet index = some (isNew, next') ∧ SameVertices next next' := by
  obtain ⟨⟨_, seen, touched⟩, visited, run⟩ := Option.bind_eq_some_iff.mp run
  obtain ⟨rfl, rfl⟩ := Prod.mk.inj (Option.some.inj run)
  obtain ⟨seen', touched', visited', within, ok, ok'⟩ :=
    visitMark_within h.left.nets h.right.nets h.netMarks visited
  refine ⟨{ large with netSeen := seen', touchedNets := touched' }, ?_,
    ⟨⟨⟨h.left.wires, ok, h.left.words⟩, ⟨h.right.wires, ok', h.right.words⟩, h.wires, within.length_le, h.words⟩,
      within, h.wordMarks⟩⟩
  rw [visitNet, bind_of_eq_some visited']

theorem visitComponent_eq {chunkIndex index : Nat} {word : BitVec 64}
    (read : ChunkTable.rowAt small.componentSeen (chunkIndex, index / 64) = some word)
    (unset : ¬ word &&& bit (index % 64) ≠ 0) :
    small.visitComponent chunkIndex index = some (true, { small with
      touchedComponentWords :=
        if word = 0 then small.touchedComponentWords ++ [(chunkIndex, index / 64)] else small.touchedComponentWords
      componentSeen := ChunkTable.setRow small.componentSeen (chunkIndex, index / 64) (word ||| bit (index % 64)) }) := by
  obtain ⟨words, hw, hr⟩ := ChunkTable.rowAt_eq_some.mp read
  rw [visitComponent]
  dsimp only
  rw [bind_of_eq_some hw, bind_of_eq_some hr, if_neg unset]
  simp only [ChunkTable.setRow_eq_set (show small.componentSeen[(chunkIndex, index / 64).1]? = some words from hw)]

theorem visitComponent_follows (h : SameVertices small large) {chunkIndex index : Nat} {isNew : Bool}
    (run : small.visitComponent chunkIndex index = some (isNew, next)) :
    ∃ next', large.visitComponent chunkIndex index = some (isNew, next') ∧ SameVertices next next' := by
  have small' : index % 64 < 64 := Nat.mod_lt _ (by decide)
  obtain ⟨words, hw, rest⟩ := Option.bind_eq_some_iff.mp run
  obtain ⟨word, hr, -⟩ := Option.bind_eq_some_iff.mp rest
  have read : ChunkTable.rowAt small.componentSeen (chunkIndex, index / 64) = some word :=
    ChunkTable.rowAt_eq_some.mpr ⟨words, hw, hr⟩
  have read' := h.wordMarks _ _ read
  by_cases set : word &&& bit (index % 64) ≠ 0
  · have marked {scratch : TraversalScratch}
        (at' : ChunkTable.rowAt scratch.componentSeen (chunkIndex, index / 64) = some word) :
        Marked scratch.componentSeen chunkIndex index := ⟨word, at', (and_bit_ne_zero small' word).mp set⟩
    rw [visitComponent_again (marked read)] at run
    obtain ⟨rfl, rfl⟩ := Prod.mk.inj (Option.some.inj run)
    exact ⟨large, visitComponent_again (marked read'), h⟩
  · have unmarked {scratch : TraversalScratch}
        (at' : ChunkTable.rowAt scratch.componentSeen (chunkIndex, index / 64) = some word) :
        ¬ Marked scratch.componentSeen chunkIndex index := by
      intro marked
      obtain ⟨other, there, bit⟩ := marked
      obtain rfl := Option.some.inj (at'.symm.trans there)
      exact set ((and_bit_ne_zero small' word).mpr bit)
    obtain ⟨_, fresh, sound, -⟩ := visitComponent_fresh h.left read (unmarked read)
    obtain ⟨_, fresh', sound', -⟩ := visitComponent_fresh h.right read' (unmarked read')
    obtain ⟨rfl, rfl⟩ := Prod.mk.inj (Option.some.inj (run.symm.trans fresh))
    have visited := visitComponent_eq read set
    have visited' := visitComponent_eq read' set
    obtain ⟨-, rfl⟩ := Prod.mk.inj (Option.some.inj (visited.symm.trans fresh))
    obtain ⟨-, rfl⟩ := Prod.mk.inj (Option.some.inj (visited'.symm.trans fresh'))
    have same : ∀ place marks, ChunkTable.rowAt (ChunkTable.setRow small.componentSeen (chunkIndex, index / 64)
        (word ||| bit (index % 64))) place = some marks →
        ChunkTable.rowAt (ChunkTable.setRow large.componentSeen (chunkIndex, index / 64)
          (word ||| bit (index % 64))) place = some marks := by
      intro place marks there
      rw [ChunkTable.rowAt_setRow, read] at there
      rw [ChunkTable.rowAt_setRow, read']
      split
      · rename_i here
        rw [if_pos here] at there
        exact there
      · rename_i elsewhere
        rw [if_neg elsewhere] at there
        exact h.wordMarks place marks there
    exact ⟨_, visited', ⟨sound, sound', h.wires, h.nets, fun place marks there => ⟨marks, same place marks there⟩⟩,
      h.netMarks, same⟩

/-! ### Traversals -/

variable {definitions : DefinitionRegistry F} {network : Network F} {topology after : DerivedTopology}

theorem visitVertex_follows : Follows (visitVertex topology network) SameVertices := by
  intro s t v isNew s' h run
  cases v with
  | net id => exact visitNet_follows h run
  | component c =>
    obtain ⟨place, located, run⟩ := Option.bind_eq_some_iff.mp run
    obtain ⟨t', visited, after⟩ := visitComponent_follows h run
    exact ⟨t', Option.bind_eq_some_iff.mpr ⟨place, located, visited⟩, after⟩

variable [F64 F]

/-- A walk over a net does with a larger scratch what it does with a smaller. -/
theorem wireComponents_follows (h : Roomier small large) {netId : NetId} {pieces : List WireComponent}
    (run : wireComponents topology definitions network netId small = some (pieces, next)) :
    ∃ next', wireComponents topology definitions network netId large = some (pieces, next') ∧ Roomier next next' := by
  obtain ⟨begun, begins, run⟩ := Option.bind_eq_some_iff.mp run
  obtain ⟨net, found, run⟩ := Option.bind_eq_some_iff.mp run
  obtain ⟨starts, read, run⟩ := Option.bind_eq_some_iff.mp run
  obtain ⟨⟨done, walked⟩, walks, run⟩ := Option.bind_eq_some_iff.mp run
  obtain ⟨collected, collects, run⟩ := Option.bind_eq_some_iff.mp run
  obtain ⟨rfl, rfl⟩ := Prod.mk.inj (Option.some.inj run)
  obtain ⟨begun', begins', same⟩ := beginWireTraversal_follows h begins
  obtain ⟨done', walks', after⟩ := components_follows visitWire_follows _ same walks
  refine ⟨done', ?_, after.toRoomier⟩
  unfold wireComponents
  rw [bind_of_eq_some begins', bind_of_eq_some found]
  dsimp only
  rw [bind_of_eq_some read, bind_of_eq_some walks']
  dsimp only
  rw [bind_of_eq_some collects]

/-- So does a walk over an island. -/
theorem islandComponents_follows (h : Roomier small large) {islandId : IslandId} {affectedNets : List NetId}
    {pieces : List IslandComponent}
    (run : islandComponents topology definitions network small islandId affectedNets = some (pieces, next)) :
    ∃ next', islandComponents topology definitions network large islandId affectedNets = some (pieces, next') ∧
      Roomier next next' := by
  obtain ⟨begun, begins, run⟩ := Option.bind_eq_some_iff.mp run
  obtain ⟨island, found, run⟩ := Option.bind_eq_some_iff.mp run
  obtain ⟨⟨done, walked⟩, walks, run⟩ := Option.bind_eq_some_iff.mp run
  obtain ⟨rfl, rfl⟩ := Prod.mk.inj (Option.some.inj run)
  obtain ⟨begun', begins', same⟩ := beginIslandTraversal_follows h begins
  obtain ⟨done', walks', after⟩ := components_follows visitVertex_follows _ same walks
  refine ⟨done', ?_, after.toRoomier⟩
  unfold islandComponents
  rw [bind_of_eq_some begins', bind_of_eq_some found, bind_of_eq_some walks']

/-! ### Repairs -/

theorem repairIsland_follows (h : Roomier small large) {islandId : IslandId} {affectedNets : List NetId}
    (run : topology.repairIsland definitions network small islandId affectedNets = some (after, next)) :
    ∃ next', topology.repairIsland definitions network large islandId affectedNets = some (after, next') ∧
      Roomier next next' := by
  unfold DerivedTopology.repairIsland at run ⊢
  cases held : topology.islands.get islandId with
  | none =>
    rw [held] at run
    obtain ⟨rfl, rfl⟩ := Prod.mk.inj (Option.some.inj run)
    exact ⟨large, rfl, h⟩
  | some island =>
    rw [held] at run
    obtain ⟨⟨pieces, walked⟩, walks, run⟩ := Option.bind_eq_some_iff.mp run
    obtain ⟨walked', walks', roomier⟩ := islandComponents_follows h walks
    obtain ⟨⟨kept, dropped⟩, drops, run⟩ := Option.bind_eq_some_iff.mp run
    dsimp only at run ⊢
    rw [bind_of_eq_some walks']
    dsimp only
    rw [bind_of_eq_some drops]
    dsimp only
    split at run
    · rename_i empty
      obtain ⟨removed, removes, run⟩ := Option.bind_eq_some_iff.mp run
      obtain ⟨rfl, rfl⟩ := Prod.mk.inj (Option.some.inj run)
      rw [if_pos empty, bind_of_eq_some removes]
      exact ⟨walked', rfl, roomier⟩
    · rename_i filled
      obtain ⟨keepIndex, largest, run⟩ := Option.bind_eq_some_iff.mp run
      obtain ⟨keptPiece, read, run⟩ := Option.bind_eq_some_iff.mp run
      rw [if_neg filled, bind_of_eq_some largest, bind_of_eq_some read]
      split at run
      · rename_i fits
        obtain ⟨revision, bumps, run⟩ := Option.bind_eq_some_iff.mp run
        obtain ⟨modified, modifies, run⟩ := Option.bind_eq_some_iff.mp run
        obtain ⟨split', splits, run⟩ := Option.bind_eq_some_iff.mp run
        obtain ⟨rfl, rfl⟩ := Prod.mk.inj (Option.some.inj run)
        rw [if_pos fits, bind_of_eq_some bumps, bind_of_eq_some modifies, bind_of_eq_some splits]
        exact ⟨walked', rfl, roomier⟩
      · cases run

theorem repairNet_follows (h : Roomier small large) {netId : NetId} {ids : List NetId}
    (run : topology.repairNet definitions network small netId = some (ids, after, next)) :
    ∃ next', topology.repairNet definitions network large netId = some (ids, after, next') ∧ Roomier next next' := by
  unfold DerivedTopology.repairNet at run ⊢
  obtain ⟨oldIsland, label, run⟩ := Option.bind_eq_some_iff.mp run
  obtain ⟨⟨components, walked⟩, walks, run⟩ := Option.bind_eq_some_iff.mp run
  obtain ⟨walked', walks', roomier⟩ := wireComponents_follows h walks
  rw [bind_of_eq_some label, bind_of_eq_some walks']
  dsimp only at run ⊢
  split at run
  · rename_i empty
    obtain ⟨removed, removes, run⟩ := Option.bind_eq_some_iff.mp run
    obtain ⟨relabelled, relabels, run⟩ := Option.bind_eq_some_iff.mp run
    obtain ⟨rfl, pair⟩ := Prod.mk.inj (Option.some.inj run)
    obtain ⟨rfl, rfl⟩ := Prod.mk.inj pair
    rw [if_pos empty, bind_of_eq_some removes, bind_of_eq_some relabels]
    exact ⟨walked', rfl, roomier⟩
  · rename_i filled
    obtain ⟨keepIndex, largest, run⟩ := Option.bind_eq_some_iff.mp run
    obtain ⟨kept, read, run⟩ := Option.bind_eq_some_iff.mp run
    obtain ⟨mapped, maps, run⟩ := Option.bind_eq_some_iff.mp run
    obtain ⟨modified, modifies, run⟩ := Option.bind_eq_some_iff.mp run
    obtain ⟨split', splits, run⟩ := Option.bind_eq_some_iff.mp run
    obtain ⟨rfl, pair⟩ := Prod.mk.inj (Option.some.inj run)
    obtain ⟨rfl, rfl⟩ := Prod.mk.inj pair
    rw [if_neg filled, bind_of_eq_some largest, bind_of_eq_some read, bind_of_eq_some maps,
      bind_of_eq_some modifies, bind_of_eq_some splits]
    exact ⟨walked', rfl, roomier⟩

theorem disconnectWires_follows (h : Roomier small large) {wireA wireB : WireId}
    (run : topology.disconnectWires definitions network small wireA wireB = some (after, next)) :
    ∃ next', topology.disconnectWires definitions network large wireA wireB = some (after, next') ∧
      Roomier next next' := by
  unfold DerivedTopology.disconnectWires at run ⊢
  obtain ⟨netA, onA, run⟩ := Option.bind_eq_some_iff.mp run
  obtain ⟨netB, onB, run⟩ := Option.bind_eq_some_iff.mp run
  rw [bind_of_eq_some onA, bind_of_eq_some onB]
  split at run
  · rename_i apart
    obtain ⟨rfl, rfl⟩ := Prod.mk.inj (Option.some.inj run)
    rw [if_pos apart]
    exact ⟨large, rfl, h⟩
  · rename_i same
    obtain ⟨label, labels, run⟩ := Option.bind_eq_some_iff.mp run
    obtain ⟨⟨ids, mid, repaired⟩, repairs, run⟩ := Option.bind_eq_some_iff.mp run
    obtain ⟨repaired', repairs', roomier⟩ := repairNet_follows h repairs
    rw [if_neg same, bind_of_eq_some labels, bind_of_eq_some repairs']
    cases label with
    | none =>
      obtain ⟨rfl, rfl⟩ := Prod.mk.inj (Option.some.inj run)
      exact ⟨repaired', rfl, roomier⟩
    | some islandId =>
      dsimp only at run ⊢
      split at run
      · rename_i several
        rw [if_pos several]
        exact repairIsland_follows roomier run
      · rename_i single
        obtain ⟨rfl, rfl⟩ := Prod.mk.inj (Option.some.inj run)
        rw [if_neg single]
        exact ⟨repaired', rfl, roomier⟩

theorem removeWire_follows (h : Roomier small large) {wire : WireId}
    (run : topology.removeWire definitions network small wire = some (after, next)) :
    ∃ next', topology.removeWire definitions network large wire = some (after, next') ∧ Roomier next next' := by
  unfold DerivedTopology.removeWire at run ⊢
  obtain ⟨netId, on, run⟩ := Option.bind_eq_some_iff.mp run
  obtain ⟨unmapped, unmaps, run⟩ := Option.bind_eq_some_iff.mp run
  obtain ⟨label, labels, run⟩ := Option.bind_eq_some_iff.mp run
  obtain ⟨⟨ids, mid, repaired⟩, repairs, run⟩ := Option.bind_eq_some_iff.mp run
  obtain ⟨repaired', repairs', roomier⟩ := repairNet_follows h repairs
  rw [bind_of_eq_some on, bind_of_eq_some unmaps, bind_of_eq_some labels, bind_of_eq_some repairs']
  cases label with
  | none =>
    obtain ⟨rfl, rfl⟩ := Prod.mk.inj (Option.some.inj run)
    exact ⟨repaired', rfl, roomier⟩
  | some islandId =>
    dsimp only at run ⊢
    split at run
    · rename_i live
      rw [if_pos live]
      exact repairIsland_follows roomier run
    · rename_i gone
      obtain ⟨rfl, rfl⟩ := Prod.mk.inj (Option.some.inj run)
      rw [if_neg gone]
      exact ⟨repaired', rfl, roomier⟩

theorem detachTerminal_follows (h : Roomier small large) {wire : WireId} {device : DeviceId} {terminal : TerminalId}
    (run : topology.detachTerminal definitions network small wire device terminal = some (after, next)) :
    ∃ next', topology.detachTerminal definitions network large wire device terminal = some (after, next') ∧
      Roomier next next' := by
  unfold DerivedTopology.detachTerminal at run ⊢
  obtain ⟨netId, on, run⟩ := Option.bind_eq_some_iff.mp run
  obtain ⟨component, owns, run⟩ := Option.bind_eq_some_iff.mp run
  obtain ⟨islandId, label, run⟩ := Option.bind_eq_some_iff.mp run
  obtain ⟨edited, edits, run⟩ := Option.bind_eq_some_iff.mp run
  rw [bind_of_eq_some on, bind_of_eq_some owns, bind_of_eq_some label, bind_of_eq_some edits]
  exact repairIsland_follows h run

/-- One repair after the other. -/
theorem repairIslands_follows (islands : List IslandId) {affectedNets : List NetId} (h : Roomier small large)
    (run : islands.foldlM (fun (state : DerivedTopology × TraversalScratch) islandId => do
      let islandNets ← state.1.netsOfIsland affectedNets islandId
      state.1.repairIsland definitions network state.2 islandId islandNets) (topology, small) = some (after, next)) :
    ∃ next', islands.foldlM (fun (state : DerivedTopology × TraversalScratch) islandId => do
      let islandNets ← state.1.netsOfIsland affectedNets islandId
      state.1.repairIsland definitions network state.2 islandId islandNets) (topology, large) = some (after, next') ∧
        Roomier next next' := by
  induction islands generalizing topology small large with
  | nil =>
    obtain ⟨rfl, rfl⟩ := Prod.mk.inj (Option.some.inj run)
    exact ⟨large, rfl, h⟩
  | cons islandId islands ih =>
    rw [List.foldlM_cons] at run ⊢
    obtain ⟨⟨mid, repaired⟩, repairs, run⟩ := Option.bind_eq_some_iff.mp run
    obtain ⟨nets, lists, repairs⟩ := Option.bind_eq_some_iff.mp repairs
    obtain ⟨repaired', repairs', roomier⟩ := repairIsland_follows h repairs
    obtain ⟨next', run', roomier'⟩ := ih roomier run
    refine ⟨next', ?_, roomier'⟩
    dsimp only
    rw [bind_of_eq_some lists, bind_of_eq_some repairs']
    exact run'

theorem removeDevice_follows (h : Roomier small large) {device : DeviceId} {prepared : PreparedDeviceTopologyRemoval}
    {removal : DeviceRemoveResult}
    (run : topology.removeDevice definitions network small device prepared removal = some (after, next)) :
    ∃ next', topology.removeDevice definitions network large device prepared removal = some (after, next') ∧
      Roomier next next' := by
  unfold DerivedTopology.removeDevice at run ⊢
  obtain ⟨stripped, strips, run⟩ := Option.bind_eq_some_iff.mp run
  obtain ⟨filtered, filters, run⟩ := Option.bind_eq_some_iff.mp run
  obtain ⟨removed, removes, run⟩ := Option.bind_eq_some_iff.mp run
  rw [bind_of_eq_some strips, bind_of_eq_some filters, bind_of_eq_some removes]
  exact repairIslands_follows prepared.affectedIslands h run

end TraversalScratch

end Hynergy
