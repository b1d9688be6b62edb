import Hynergy.Compile.CompositionRun

/-!
# The states of a composition

The children's partitions mark the states of a partition, and each marked state gets a slot.
-/

namespace Hynergy

open Lib DefinitionTemplateBuilder

variable {F : Type}

/-! ### StatesMarked -/

/-- What is marked among some states. -/
def StatesMarked (marks : List Bool) (count : Nat) (marked : Nat → Prop) : Prop :=
  marks.length = count ∧ ∀ i : Nat, marks[i]? = some true ↔ marked i

theorem markStates_marks {marks : List Bool} {count offset : Nat} {marked : Nat → Prop} (h : StatesMarked marks count marked)
    {states : List DefinitionStateId} (below : ∀ state ∈ states, offset + Id.index state < count) :
    ∃ after, markStates offset states marks = some after ∧
      StatesMarked after count fun i => marked i ∨ ∃ state ∈ states, i = offset + Id.index state := by
  induction states generalizing marks marked with
  | nil => exact ⟨marks, rfl, h.1, fun i => (h.2 i).trans (by simp)⟩
  | cons state states ih =>
    have inside : offset + state.index < marks.length := h.1 ▸ below state List.mem_cons_self
    have one : StatesMarked (marks.set (offset + state.index) true) count fun i => marked i ∨ i = offset + state.index := by
      refine ⟨by rw [List.length_set, h.1], fun i => ?_⟩
      rw [List.getElem?_set]
      by_cases same : offset + state.index = i
      · rw [if_pos same, if_pos inside]
        exact iff_of_true rfl (Or.inr same.symm)
      · rw [if_neg same, h.2]
        exact ⟨Or.inl, fun either => either.resolve_right (Ne.symm same)⟩
    obtain ⟨after, run, marksAfter⟩ := ih one fun other member => below other (List.mem_cons_of_mem _ member)
    refine ⟨after, ?_, marksAfter.1, fun i => ?_⟩
    · rw [markStates, List.foldlM_cons, assign_of_lt inside]
      exact run
    · refine (marksAfter.2 i).trans ?_
      simp [or_assoc]

/-- A state of a partition of a child, as the composite numbers it. -/
def StateAmong (children : List (CompiledDefinition F)) (offsets : List Nat) (places : List (Nat × Nat))
    (select : CompiledPartitionTemplate F → List DefinitionStateId) (i : Nat) : Prop :=
  ∃ place ∈ places, ∃ compiled offset, childPartition children offsets place = some (compiled, offset) ∧
    ∃ state ∈ select compiled, i = offset + Id.index state

def mappedPlaces (elementPartitions : List DevicePartitionId) (partition : Nat) (entries : List ((Nat × Nat) × Nat)) :
    List (Nat × Nat) :=
  (entries.filter fun entry => decide (elementPartitions[entry.2]?.map Id.index = some partition)).map Prod.fst

section Places

variable {elementPartitions : List DevicePartitionId} {partition : Nat} {entries : List ((Nat × Nat) × Nat)}
  {entry : (Nat × Nat) × Nat}

theorem mappedPlaces_append (others : List ((Nat × Nat) × Nat)) : mappedPlaces elementPartitions partition (entries ++ others) =
    mappedPlaces elementPartitions partition entries ++ mappedPlaces elementPartitions partition others := by
  simp [mappedPlaces]

theorem mappedPlaces_here (here : elementPartitions[entry.2]?.map Id.index = some partition) :
    mappedPlaces elementPartitions partition (entry :: entries) = entry.1 :: mappedPlaces elementPartitions partition entries := by
  rw [mappedPlaces, List.filter_cons, if_pos (decide_eq_true here)]
  rfl

theorem mappedPlaces_elsewhere (elsewhere : elementPartitions[entry.2]?.map Id.index ≠ some partition) :
    mappedPlaces elementPartitions partition (entry :: entries) = mappedPlaces elementPartitions partition entries := by
  rw [mappedPlaces, List.filter_cons, if_neg fun yes => elsewhere (of_decide_eq_true yes)]
  rfl

end Places

structure StateUses.Mark (uses : StateUses) (count : Nat) (used reads writes : Nat → Prop) : Prop where
  used : StatesMarked uses.used count used
  reads : StatesMarked uses.reads count reads
  writes : StatesMarked uses.writes count writes

/-- What a partition of a child needs of the states of the composite. -/
def StatesWithin (compiled : CompiledPartitionTemplate F) (offset count : Nat) : Prop :=
  (∀ state ∈ compiled.definitionStates, offset + Id.index state < count) ∧
    (∀ state ∈ compiled.definitionStateReads, offset + Id.index state < count) ∧
    ∀ state ∈ compiled.definitionStateWrites, offset + Id.index state < count

/-- The partitions that are mapped to the parent mark their states. -/
theorem useStates_marks {elementPartitions : List DevicePartitionId} {partition : DevicePartitionId}
    {children : List (CompiledDefinition F)} {offsets : List Nat} {count : Nat} {entries : List ((Nat × Nat) × Nat)}
    (mapped : ∀ entry ∈ entries, entry.2 < elementPartitions.length)
    (given : ∀ place ∈ mappedPlaces elementPartitions partition.index entries, ∃ compiled offset,
      childPartition children offsets place = some (compiled, offset) ∧ StatesWithin compiled offset count)
    {uses : StateUses} {used reads writes : Nat → Prop} (h : uses.Mark count used reads writes) :
    ∃ after, entries.foldlM (useStates elementPartitions partition children offsets) uses = some after ∧
      after.Mark count
        (fun i => used i ∨ StateAmong children offsets (mappedPlaces elementPartitions partition.index entries)
          CompiledPartitionTemplate.definitionStates i)
        (fun i => reads i ∨ StateAmong children offsets (mappedPlaces elementPartitions partition.index entries)
          CompiledPartitionTemplate.definitionStateReads i)
        fun i => writes i ∨ StateAmong children offsets (mappedPlaces elementPartitions partition.index entries)
          CompiledPartitionTemplate.definitionStateWrites i := by
  induction entries generalizing uses used reads writes with
  | nil =>
    refine ⟨uses, rfl, ?_⟩
    have none : ∀ (select : CompiledPartitionTemplate F → List DefinitionStateId) (marked : Nat → Prop) i,
        (marked i ∨ StateAmong children offsets (mappedPlaces elementPartitions partition.index []) select i) = marked i := by
      intro select marked i
      simp [StateAmong, mappedPlaces]
    simp only [none]
    exact h
  | cons entry entries ih =>
    have inside := mapped entry List.mem_cons_self
    have later : ∀ entry ∈ entries, entry.2 < elementPartitions.length := fun other member =>
      mapped other (List.mem_cons_of_mem _ member)
    rw [List.foldlM_cons]
    by_cases here : elementPartitions[entry.2] = partition
    · have places : mappedPlaces elementPartitions partition.index (entry :: entries) =
          entry.1 :: mappedPlaces elementPartitions partition.index entries := by
        refine mappedPlaces_here ?_
        rw [List.getElem?_eq_getElem inside, here]
        rfl
      rw [places] at given ⊢
      obtain ⟨compiled, offset, isChild, states, readStates, writeStates⟩ := given entry.1 List.mem_cons_self
      obtain ⟨used', runUsed, marksUsed⟩ := markStates_marks h.used states
      obtain ⟨reads', runReads, marksReads⟩ := markStates_marks h.reads readStates
      obtain ⟨writes', runWrites, marksWrites⟩ := markStates_marks h.writes writeStates
      have step : useStates elementPartitions partition children offsets uses entry = some ⟨used', reads', writes'⟩ := by
        rw [useStates, List.getElem?_eq_getElem inside, here]
        simp [isChild, runUsed, runReads, runWrites]
      have one : StateUses.Mark ⟨used', reads', writes'⟩ count _ _ _ := ⟨marksUsed, marksReads, marksWrites⟩
      rw [step]
      obtain ⟨after, run, marks⟩ := ih later (fun place member => given place (List.mem_cons_of_mem _ member)) one
      refine ⟨after, run, ?_⟩
      have spread : ∀ (select : CompiledPartitionTemplate F → List DefinitionStateId) (marked : Nat → Prop) i,
          ((marked i ∨ ∃ state ∈ select compiled, i = offset + Id.index state) ∨
            StateAmong children offsets (mappedPlaces elementPartitions partition.index entries) select i) =
          (marked i ∨ StateAmong children offsets
            (entry.1 :: mappedPlaces elementPartitions partition.index entries) select i) := by
        intro select marked i
        rw [or_assoc]
        simp [StateAmong, isChild]
      simp only [spread] at marks
      exact marks
    · have places : mappedPlaces elementPartitions partition.index (entry :: entries) =
          mappedPlaces elementPartitions partition.index entries := by
        refine mappedPlaces_elsewhere fun same => here (Id.ext' ?_)
        rw [List.getElem?_eq_getElem inside] at same
        exact Option.some.inj same
      rw [places] at given ⊢
      have step : useStates elementPartitions partition children offsets uses entry = some uses := by
        rw [useStates, List.getElem?_eq_getElem inside]
        simp [here]
      rw [step]
      exact ih later given h

/-! ### Slots -/

namespace Composition

/-- The states so far have slots, in their order. -/
structure Slotted (uses : StateUses) (count seen : Nat) (made : Composition F) : Prop where
  length : made.localStates.length = count
  placed : ∀ i < seen, uses.used[i]? = some true → ∃ slot, made.localStates[i]? = some (some slot)
  unwritten : ∀ slot ∈ made.builder.stateWrites, slot = none
  ordered : (made.definitionStates.map Id.index).Pairwise (· < ·)
  below : ∀ state ∈ made.definitionStates, state.index < seen
  reads : ∀ state ∈ made.definitionStateReads, state.index < seen
  writes : ∀ state, state ∈ made.definitionStateWrites ↔
    state.index < seen ∧ uses.used[state.index]? = some true ∧ uses.writes[state.index]? = some true
  requires : ∀ slot : Nat, hasBit made.builder.stateRequiresWrite slot = true ↔
    ∃ state, made.definitionStates[slot]? = some state ∧ uses.writes[state.index]? = some true

section Slots

variable [F64 F] {registry : DefinitionRegistry F} {circuit : Circuit F} {children : List (CompiledDefinition F)}
  {parameterCount : Nat} {inside : Nat → Prop} {terminalNodes : List Nat} {made : Composition F} {nodes : List Nat}
  {uses : StateUses} {count seen : Nat} {used reads writes : Nat → Prop}

/-- A state that is used gets the next slot. -/
theorem stateSlot_meets (h : Composing registry circuit children parameterCount inside terminalNodes made [] nodes)
    (slotted : made.Slotted uses count seen) (marks : uses.Mark count used reads writes) (below : seen < count)
    (bounded : count ≤ IdKind.state.bound) :
    (stateSlot uses seen made).Meets False
      (fun _ after => Composing registry circuit children parameterCount inside terminalNodes after [] nodes ∧
        after.Slotted uses count (seen + 1) ∧ after.builder.outputs = made.builder.outputs ∧
        after.forwardedObserverValues = made.forwardedObserverValues)
      fun error _ => error = .idExhausted := by
  have inUsed : seen < uses.used.length := marks.used.1 ▸ below
  have inReads : seen < uses.reads.length := marks.reads.1 ▸ below
  have inWrites : seen < uses.writes.length := marks.writes.1 ▸ below
  unfold stateSlot
  rw [List.getElem?_eq_getElem inUsed, Call.expect_some_bind]
  by_cases isUsed : uses.used[seen] = true
  · rw [if_pos isUsed]
    have isState : (Id.ofIndex? seen : Option DefinitionStateId) = some ⟨seen, below.trans_le bounded⟩ := Id.ofIndex?_eq_some.mpr rfl
    rw [isState, Call.expect_some_bind, List.getElem?_eq_getElem inWrites, Call.expect_some_bind]
    refine Call.meets_bind (onBuilder_meets (allocateStateSlot_meets h.assembled.sound uses.writes[seen]) ?_)
    rintro slot builder ⟨rfl, sound, isBuilder⟩
    rw [List.getElem?_eq_getElem inReads, Call.expect_some_bind, Call.modify_apply]
    have counted := h.counted
    have writes' : builder.stateWrites = made.builder.stateWrites ++ [none] := by rw [isBuilder]
    have within : seen < made.localStates.length := slotted.length ▸ below
    have values : builder.values = made.builder.values := by rw [isBuilder]
    have unknowns : builder.unknowns = made.builder.unknowns := by rw [isBuilder]
    have unwritten : ∀ slot ∈ builder.stateWrites, slot = none := by
      intro slot member
      rw [writes'] at member
      rcases List.mem_append.mp member with earlier | last
      · exact slotted.unwritten slot earlier
      · exact List.mem_singleton.mp last
    refine ⟨⟨?_, h.onNodes.congr rfl (unknowns ▸ List.prefix_rfl), h.within, ?_, ?_, ?_, by simp, ?_⟩, ?_, ?_, rfl⟩
    · refine ⟨sound, by simp, by simp, by simp, ?_, ?_, ?_, ?_, by simp, by simp, fun s value => ?_⟩
      · rw [isBuilder]
        exact h.assembled.matrix
      · rw [isBuilder]
        exact h.assembled.rhs
      · rw [isBuilder]
        exact h.assembled.latches
      · rw [unknowns]
        exact h.assembled.unknowns
      · refine iff_of_false (fun read => ?_) (by simp)
        cases unwritten _ (List.mem_of_getElem? read)
    · refine ⟨h.parameters.length, ?_, h.parameters.inside, fun p id read => ?_⟩
      · rw [← h.parameters.count, isBuilder]
      · obtain ⟨j, isParameter, there⟩ := h.parameters.placed p id read
        exact ⟨j, isParameter, read_grown (values ▸ List.prefix_rfl) there⟩
    · intro i slot read
      replace read : (made.localStates.set seen (some ⟨made.builder.stateWrites.length⟩))[i]? = some (some slot) := read
      rw [List.getElem?_set] at read
      split at read
      · rename_i same
        subst same
        obtain rfl := Option.some.inj (Option.some.inj read)
        rw [← counted, List.getElem?_concat_length]
        rfl
      · have there := h.states i slot read
        obtain ⟨state, isThere, -⟩ := Option.map_eq_some_iff.mp there
        rwa [List.getElem?_append_left (List.getElem?_eq_some_iff.mp isThere).1]
    · rw [writes', List.length_append, List.length_append, counted]
      rfl
    · rw [isBuilder]
      exact h.terminalCount
    · have fresh : ∀ state ∈ made.definitionStates, state.index ≠ seen := fun state member =>
        (slotted.below state member).ne
      refine ⟨by rw [List.length_set, slotted.length], fun i before isMarked => ?_, unwritten, ?_, fun state member => ?_,
        fun state member => ?_, fun state => ?_, fun slot => ?_⟩
      · by_cases same : seen = i
        · subst same
          exact ⟨_, List.getElem?_set_self within⟩
        · obtain ⟨slot, read⟩ := slotted.placed i (by omega) isMarked
          exact ⟨slot, by rw [List.getElem?_set_ne same, read]⟩
      · rw [List.map_append, List.pairwise_append]
        refine ⟨slotted.ordered, List.pairwise_singleton _ _, fun a inA b inB => ?_⟩
        obtain ⟨state, member, rfl⟩ := List.mem_map.mp inA
        obtain rfl := List.mem_singleton.mp inB
        exact slotted.below state member
      · rcases List.mem_append.mp member with earlier | last
        · exact (slotted.below state earlier).trans (Nat.lt_succ_self _)
        · rw [List.mem_singleton.mp last]
          exact Nat.lt_succ_self _
      · have member : state ∈ made.definitionStateReads ∨ state.index = seen := by
          by_cases isRead : uses.reads[seen] = true
          · rw [if_pos isRead] at member
            exact (List.mem_append.mp member).imp id fun last => by rw [List.mem_singleton.mp last]
          · rw [if_neg isRead] at member
            exact Or.inl member
        rcases member with earlier | rfl
        · exact (slotted.reads state earlier).trans (Nat.lt_succ_self _)
        · exact Nat.lt_succ_self _
      · have usedHere : uses.used[seen]? = some true := by rw [List.getElem?_eq_getElem inUsed, isUsed]
        have member : (state ∈ if uses.writes[seen] = true then made.definitionStateWrites ++ [⟨seen, below.trans_le bounded⟩]
            else made.definitionStateWrites) ↔
            state ∈ made.definitionStateWrites ∨ state.index = seen ∧ uses.writes[seen]? = some true := by
          rw [List.getElem?_eq_getElem inWrites]
          by_cases isWritten : uses.writes[seen] = true
          · rw [if_pos isWritten, List.mem_append, List.mem_singleton, isWritten]
            refine or_congr Iff.rfl ⟨fun same => ⟨by rw [same], rfl⟩, fun same => Id.ext' same.1⟩
          · rw [if_neg isWritten]
            simp [isWritten]
        refine member.trans ?_
        rw [slotted.writes]
        constructor
        · rintro (⟨before, marked⟩ | ⟨rfl, isWritten⟩)
          · exact ⟨before.trans (Nat.lt_succ_self _), marked⟩
          · exact ⟨Nat.lt_succ_self _, usedHere, isWritten⟩
        · rintro ⟨before, isMarked, isWritten⟩
          rcases Nat.lt_succ_iff_lt_or_eq.mp before with earlier | same
          · exact Or.inl ⟨earlier, isMarked, isWritten⟩
          · exact Or.inr ⟨same, same ▸ isWritten⟩
      · have requires : hasBit builder.stateRequiresWrite slot =
            (hasBit made.builder.stateRequiresWrite slot ||
              decide (slot = made.builder.stateWrites.length ∧ uses.writes[seen] = true)) := by
          rw [isBuilder]
          dsimp only
          by_cases isWritten : uses.writes[seen] = true
          · rw [if_pos isWritten, hasBit_setBit]
            simp [isWritten]
          · rw [if_neg isWritten]
            simp [isWritten]
        rw [requires, Bool.or_eq_true, slotted.requires, decide_eq_true_eq, ← counted]
        constructor
        · rintro (⟨state, read, isWritten⟩ | ⟨rfl, isWritten⟩)
          · exact ⟨state, by rw [List.getElem?_append_left (List.getElem?_eq_some_iff.mp read).1, read], isWritten⟩
          · exact ⟨_, List.getElem?_concat_length, by rw [List.getElem?_eq_getElem inWrites, isWritten]⟩
        · rintro ⟨state, read, isWritten⟩
          rcases read_concat read with ⟨earlier, -⟩ | ⟨last, rfl⟩
          · exact Or.inl ⟨state, earlier, isWritten⟩
          · rw [List.getElem?_eq_getElem inWrites] at isWritten
            exact Or.inr ⟨last, Option.some.inj isWritten⟩
    · rw [isBuilder]
  · rw [if_neg isUsed]
    have unused : uses.used[seen]? ≠ some true := by
      rw [List.getElem?_eq_getElem inUsed]
      simpa using isUsed
    refine ⟨h, ⟨slotted.length, fun i before isMarked => ?_, slotted.unwritten, slotted.ordered,
      fun state member => (slotted.below state member).trans (Nat.lt_succ_self _),
      fun state member => (slotted.reads state member).trans (Nat.lt_succ_self _), fun state => ?_, slotted.requires⟩, rfl, rfl⟩
    · rcases Nat.lt_succ_iff_lt_or_eq.mp before with earlier | rfl
      · exact slotted.placed i earlier isMarked
      · exact absurd isMarked unused
    · rw [slotted.writes]
      constructor
      · rintro ⟨before, marked⟩
        exact ⟨before.trans (Nat.lt_succ_self _), marked⟩
      · rintro ⟨before, isMarked, isWritten⟩
        rcases Nat.lt_succ_iff_lt_or_eq.mp before with earlier | same
        · exact ⟨earlier, isMarked, isWritten⟩
        · exact absurd (same ▸ isMarked) unused

/-- Every state that is used gets a slot. -/
theorem stateSlots_meets (h : Composing registry circuit children parameterCount inside terminalNodes made [] nodes)
    (slotted : made.Slotted uses count 0) (marks : uses.Mark count used reads writes) (bounded : count ≤ IdKind.state.bound) :
    ((List.range count).forM (stateSlot uses) made).Meets False
      (fun _ after => Composing registry circuit children parameterCount inside terminalNodes after [] nodes ∧
        after.Slotted uses count count ∧ after.builder.outputs = made.builder.outputs ∧
        after.forwardedObserverValues = made.forwardedObserverValues)
      fun error _ => error = .idExhausted := by
  suffices run : ((List.range count).forM (stateSlot uses) made).Meets False
      (fun _ after => Composing registry circuit children parameterCount inside terminalNodes after [] nodes ∧
        after.Slotted uses count (List.range count).length ∧ after.builder.outputs = made.builder.outputs ∧
        after.forwardedObserverValues = made.forwardedObserverValues)
      fun error _ => error = .idExhausted by rwa [List.length_range] at run
  refine Call.forM_meets (fun seen state => Composing registry circuit children parameterCount inside terminalNodes state []
    nodes ∧ state.Slotted uses count seen.length ∧ state.builder.outputs = made.builder.outputs ∧
    state.forwardedObserverValues = made.forwardedObserverValues) ?_ ⟨h, slotted, rfl, rfl⟩
  · rintro seen item rest state split ⟨composing, slots, outputs, forwarded⟩
    have below : seen.length < count := by
      have length := congrArg List.length split
      rw [List.length_append, List.length_cons, List.length_range] at length
      omega
    have isItem : item = seen.length := by
      have read : (List.range count)[seen.length]? = some item := by
        rw [← split, List.getElem?_append_right le_rfl, Nat.sub_self]
        rfl
      rw [List.getElem?_range below] at read
      exact (Option.some.inj read).symm
    subst isItem
    refine (stateSlot_meets composing slots marks below bounded).mono id ?_ fun _ _ failed => failed
    rintro _ after ⟨composing', slots', outputs', forwarded'⟩
    rw [List.length_append]
    exact ⟨composing', slots', outputs'.trans outputs, forwarded'.trans forwarded⟩

end Slots

end Composition

end Hynergy
