import Hynergy.Compile.CompositionSteps

/-!
# A composition under way

What every round of the loops that compose a partition keeps: the parts so far lie on the unknowns of their nodes, the
values of their parameters and the slots of their states.
-/

namespace Hynergy

open Lib DefinitionTemplateBuilder

variable {F : Type}

/-! ### Differences -/

section Differences

variable [F64 F] {self : DefinitionTemplateBuilder F}

/-- The difference of two unknowns is not folded. -/
theorem voltageDifference_meets (sound : self.Sound) {positive negative : LocalUnknownId}
    (left : positive.index < self.unknowns.length) (right : negative.index < self.unknowns.length) :
    (voltageDifference positive negative self).Meets False
      (fun value after => after.Sound ∧ after.frame = self.frame ∧ after.iterationLatches = self.iterationLatches ∧
        self.values <+: after.values ∧ value.index < after.values.length ∧ ∃ minuend subtrahend : LocalValueId,
          after.stamps.nodes[value.index]? = some (.binary .sub minuend subtrahend) ∧
          after.stamps.nodes[minuend.index]? = some (.unknown positive) ∧
          after.stamps.nodes[subtrahend.index]? = some (.unknown negative))
      fun error _ => error = .idExhausted := by
  unfold voltageDifference
  refine Call.meets_bind ((unknownValue_meets sound left).mono id ?_ fun _ _ failed => failed)
  rintro minuend s₁ ⟨first, atMinuend⟩
  have same : s₁.unknowns = self.unknowns := by
    show s₁.frame.unknowns = self.frame.unknowns
    rw [first.frame]
  have right' : negative.index < s₁.unknowns.length := by rwa [same]
  refine Call.meets_bind ((unknownValue_meets first.sound right').mono id ?_ fun _ _ failed => failed)
  rintro subtrahend s₂ ⟨second, atSubtrahend⟩
  have inside : minuend.index < s₂.values.length := first.inside.trans_le second.grown.length_le
  refine (binary_meets second.sound .sub inside second.inside).mono id ?_ fun _ _ failed => failed
  rintro value s₃ ⟨third, node⟩
  have unfolded : s₂.values[minuend.index].constant = none := by
    cases isConstant : s₂.values[minuend.index].constant with
    | none => rfl
    | some c =>
      have folded := second.sound.constants _ _ c (List.getElem?_eq_getElem inside) isConstant
      have read := read_grown second.grown atMinuend
      rw [stamps_nodes, List.getElem?_map, List.getElem?_eq_getElem inside, Option.map_some, folded] at read
      cases read
  exact ⟨third.sound, third.frame.trans (second.frame.trans first.frame), third.latches.trans (second.latches.trans first.latches),
    first.grown.trans (second.grown.trans third.grown), third.inside, minuend, subtrahend, node unfolded,
    read_grown (second.grown.trans third.grown) atMinuend, read_grown third.grown atSubtrahend⟩

end Differences

namespace Composition

/-! ### What stays -/

/-- The slots of the states, with what is noted of them. -/
def slots (made : Composition F) : List (Option LocalStateId) × List DefinitionStateId × List DefinitionStateId ×
    List DefinitionStateId × List (BitVec 64) × Nat :=
  (made.localStates, made.definitionStates, made.definitionStateReads, made.definitionStateWrites,
    made.builder.stateRequiresWrite, made.builder.stateWrites.length)

/-- What was made is kept. -/
structure Extends (before after : Composition F) : Prop where
  nodes : ∀ (n : Nat) u, before.nodeUnknowns[n]? = some (some u) → after.nodeUnknowns[n]? = some (some u)
  parameters : ∀ (p : Nat) id, before.parameterValues[p]? = some (some id) → after.parameterValues[p]? = some (some id)
  slots : after.slots = before.slots
  values : before.builder.values <+: after.builder.values

variable {before middle after made : Composition F}

theorem Extends.refl (made : Composition F) : Extends made made :=
  ⟨fun _ _ read => read, fun _ _ read => read, rfl, List.prefix_rfl⟩

theorem Extends.trans (first : Extends before middle) (second : Extends middle after) : Extends before after :=
  ⟨fun n u read => second.nodes n u (first.nodes n u read), fun p id read => second.parameters p id (first.parameters p id read),
    second.slots.trans first.slots, first.values.trans second.values⟩

theorem Extends.localStates (h : Extends before after) : after.localStates = before.localStates :=
  congrArg (fun slots => slots.1) h.slots

theorem Stands.extend {id : LocalValueId} {value : ValueRef F} (stands : before.Stands id value) (h : Extends before after) :
    after.Stands id value := by
  cases value with
  | literal c => exact read_grown h.values stands
  | parameter parameter => exact h.parameters _ _ stands

end Composition

theorem PlacedChild.Fits.extend {registry : DefinitionRegistry F} {circuit : Circuit F} {children : List (CompiledDefinition F)}
    {before after : Composition F} {item : PlacedChild F} (fits : item.Fits registry circuit children before)
    (h : before.Extends after) : item.Fits registry circuit children after where
  element := fits.element
  child := fits.child
  compiled := fits.compiled
  stamps := fits.stamps
  terminals := fits.terminals.imp fun _ _ ⟨node, given, here⟩ => ⟨node, given, h.nodes _ _ here⟩
  parameters := fits.parameters.imp fun _ _ ⟨value, given, stands⟩ => ⟨value, given, stands.extend h⟩
  states := by
    rw [h.localStates]
    exact fits.states

/-- A composition under way: `inside` says which nodes are in the partition. -/
structure Composing [F64 F] (registry : DefinitionRegistry F) (circuit : Circuit F) (children : List (CompiledDefinition F))
    (parameterCount : Nat) (inside : Nat → Prop) (terminalNodes : List Nat) (made : Composition F)
    (items : List (PlacedChild F)) (nodes : List Nat) : Prop where
  assembled : Assembled made.builder (items.map PlacedChild.part) nodes
  onNodes : made.NodesPlaced terminalNodes circuit.nodeCount nodes
  within : ∀ (n : Nat) u, made.nodeUnknowns[n]? = some (some u) → inside n
  parameters : made.ParametersPlaced parameterCount
  states : made.StatesPlaced
  counted : made.definitionStates.length = made.builder.stateWrites.length
  fits : ∀ item ∈ items, item.Fits registry circuit children made
  terminalCount : made.builder.terminalCount = terminalNodes.length

namespace Composition

variable [F64 F] {registry : DefinitionRegistry F} {circuit : Circuit F} {children : List (CompiledDefinition F)}
  {parameterCount : Nat} {inside : Nat → Prop} {terminalNodes : List Nat} {made : Composition F}
  {items : List (PlacedChild F)} {nodes : List Nat}

/-- A node has its unknown, or gets the next one. -/
theorem nodeUnknown_meets (h : Composing registry circuit children parameterCount inside terminalNodes made items nodes)
    {node : NodeId} (below : node.index < circuit.nodeCount) (isInside : inside node.index) :
    (nodeUnknown node made).Meets False
      (fun unknown after => ∃ nodes', Composing registry circuit children parameterCount inside terminalNodes after items nodes' ∧
        made.Extends after ∧ after.builder.outputs = made.builder.outputs ∧
        after.forwardedObserverValues = made.forwardedObserverValues ∧
        after.nodeUnknowns[node.index]? = some (some unknown))
      fun error _ => error = .idExhausted := by
  have within : node.index < made.nodeUnknowns.length := h.onNodes.length ▸ below
  unfold nodeUnknown
  rw [Call.get_bind, List.getElem?_eq_getElem within, Call.expect_some_bind]
  cases isKnown : made.nodeUnknowns[node.index] with
  | some unknown =>
    refine ⟨nodes, h, .refl made, rfl, rfl, ?_⟩
    rw [List.getElem?_eq_getElem within, isKnown]
  | none =>
    have free : made.nodeUnknowns[node.index]? = some none := by rw [List.getElem?_eq_getElem within, isKnown]
    refine Call.meets_bind (onBuilder_meets (allocatedUnknown_meets .voltage made.builder) ?_)
    rintro unknown builder ⟨rfl, info, isFree, -, isBuilder⟩
    rw [Call.modify_bind]
    have unknowns : builder.unknowns = made.builder.unknowns ++ [info] := by rw [isBuilder]
    have values : builder.values = made.builder.values := by rw [isBuilder]
    have kept : ∀ (n : Nat) u, made.nodeUnknowns[n]? = some (some u) →
        (made.nodeUnknowns.set node.index (some ⟨made.builder.unknowns.length⟩))[n]? = some (some u) := by
      intro n u read
      rw [List.getElem?_set_ne, read]
      rintro rfl
      cases free.symm.trans read
    have sound : builder.Sound := by
      rw [isBuilder]
      refine h.assembled.sound.withUnknowns [info] (made.builder.allocatedUnknownCount + 1) ?_
      rw [List.filterMap_append, List.filterMap_cons_none isFree, List.filterMap_nil, List.append_nil]
      exact h.assembled.sound.stamps.terminals
    have extends' : made.Extends { made with
        builder, nodeUnknowns := made.nodeUnknowns.set node.index (some ⟨made.builder.unknowns.length⟩) } := by
      refine ⟨kept, fun _ _ read => read, ?_, values ▸ List.prefix_rfl⟩
      simp only [slots, isBuilder]
    refine ⟨nodes ++ [made.builder.unknowns.length], ⟨?_, ?_, ?_, ?_, h.states, ?_, fun item member =>
      (h.fits item member).extend extends', ?_⟩, extends', ?_, rfl, List.getElem?_set_self within⟩
    · refine h.assembled.grow sound ?_ unknowns ?_
      · exact values ▸ List.prefix_rfl
      · rw [isBuilder]
        exact ⟨rfl, rfl, rfl, rfl⟩
    · refine h.onNodes.push free unknowns rfl (fun t => ?_) (fun _ _ _ => Iff.rfl) fun t isTerminal => ?_
      · rw [isFree]
        refine iff_of_false (by simp) fun isTerminal => ?_
        cases free.symm.trans (h.onNodes.exposed t _ isTerminal)
      · cases free.symm.trans (h.onNodes.exposed t _ isTerminal)
    · intro n u read
      by_cases same : node.index = n
      · exact same ▸ isInside
      · exact h.within n u (by rwa [List.getElem?_set_ne same] at read)
    · refine ⟨h.parameters.length, ?_, h.parameters.inside, fun p id read => ?_⟩
      · rw [← h.parameters.count, isBuilder]
      · obtain ⟨j, isParameter, there⟩ := h.parameters.placed p id read
        exact ⟨j, isParameter, read_grown (values ▸ List.prefix_rfl) there⟩
    · rw [isBuilder]
      exact h.counted
    · rw [isBuilder]
      exact h.terminalCount
    · rw [isBuilder]

omit [F64 F] in
/-- Values more extend a composition. -/
theorem extends_values {builder : DefinitionTemplateBuilder F} (frame : builder.frame = made.builder.frame)
    (grown : made.builder.values <+: builder.values) : made.Extends { made with builder } := by
  have requires : builder.stateRequiresWrite = made.builder.stateRequiresWrite := by
    show builder.frame.stateRequiresWrite = made.builder.frame.stateRequiresWrite
    rw [frame]
  have writes : builder.stateWrites = made.builder.stateWrites := by
    show builder.frame.stateWrites = made.builder.frame.stateWrites
    rw [frame]
  refine ⟨fun _ _ read => read, fun _ _ read => read, ?_, grown⟩
  simp only [slots, requires, writes]

end Composition

section Values

variable [F64 F] {registry : DefinitionRegistry F} {circuit : Circuit F} {children : List (CompiledDefinition F)}
  {parameterCount : Nat} {inside : Nat → Prop} {terminalNodes : List Nat} {made : Composition F}
  {items : List (PlacedChild F)} {nodes : List Nat}

/-- Values more keep what is under way. -/
theorem Composing.values (h : Composing registry circuit children parameterCount inside terminalNodes made items nodes)
    {builder : DefinitionTemplateBuilder F} (sound : builder.Sound) (frame : builder.frame = made.builder.frame)
    (latches : builder.iterationLatches = made.builder.iterationLatches) (grown : made.builder.values <+: builder.values) :
    Composing registry circuit children parameterCount inside terminalNodes { made with builder } items nodes := by
  have same : builder.unknowns = made.builder.unknowns ∧ builder.matrixTerms = made.builder.matrixTerms ∧
      builder.rhsTerms = made.builder.rhsTerms ∧ builder.stateWrites = made.builder.stateWrites ∧
      builder.parameterCount = made.builder.parameterCount ∧ builder.terminalCount = made.builder.terminalCount := by
    show builder.frame.unknowns = made.builder.frame.unknowns ∧ builder.frame.matrixTerms = made.builder.frame.matrixTerms ∧
      builder.frame.rhsTerms = made.builder.frame.rhsTerms ∧ builder.frame.stateWrites = made.builder.frame.stateWrites ∧
      builder.frame.parameterCount = made.builder.frame.parameterCount ∧
      builder.frame.terminalCount = made.builder.frame.terminalCount
    rw [frame]
    exact ⟨rfl, rfl, rfl, rfl, rfl, rfl⟩
  obtain ⟨unknowns, matrix, rhs, writes, parameters, terminals⟩ := same
  have extends' := made.extends_values frame grown
  have assembled := h.assembled.grow sound grown (unknowns.trans (List.append_nil _).symm) ⟨matrix, rhs, latches, writes⟩
  rw [List.length_nil, List.range'_zero, List.append_nil] at assembled
  refine ⟨assembled, h.onNodes.congr rfl (unknowns ▸ List.prefix_rfl), h.within, ⟨h.parameters.length, ?_, h.parameters.inside,
    fun p id read => ?_⟩, h.states, ?_, fun item member => (h.fits item member).extend extends', ?_⟩
  · rw [← h.parameters.count]
    exact parameters
  · obtain ⟨j, isParameter, there⟩ := h.parameters.placed p id read
    exact ⟨j, isParameter, read_grown grown there⟩
  · show made.definitionStates.length = builder.stateWrites.length
    rw [writes]
    exact h.counted
  · show builder.terminalCount = terminalNodes.length
    rw [terminals]
    exact h.terminalCount

namespace Composition

/-- A literal is made; a parameter is passed on once. -/
theorem parameterValue_meets (h : Composing registry circuit children parameterCount inside terminalNodes made items nodes)
    {value : ValueRef F} (below : ∀ parameter, value = .parameter parameter → parameter.index < parameterCount) :
    (parameterValue value made).Meets False
      (fun id after => Composing registry circuit children parameterCount inside terminalNodes after items nodes ∧
        made.Extends after ∧ after.builder.outputs = made.builder.outputs ∧
        after.forwardedObserverValues = made.forwardedObserverValues ∧ after.Stands id value)
      fun error _ => error = .idExhausted := by
  cases value with
  | literal c =>
    refine onBuilder_meets (constant_meets h.assembled.sound c) ?_
    rintro id builder ⟨computes, read⟩
    refine ⟨h.values computes.sound computes.frame computes.latches computes.grown,
      extends_values computes.frame computes.grown, ?_, rfl, read⟩
    show builder.frame.outputs = made.builder.frame.outputs
    rw [computes.frame]
  | parameter parameter =>
    have within : parameter.index < made.parameterValues.length := h.parameters.length ▸ below parameter rfl
    show ((Call.get >>= _) made).Meets _ _ _
    rw [Call.get_bind, List.getElem?_eq_getElem within, Call.expect_some_bind]
    cases isKnown : made.parameterValues[parameter.index] with
    | some id =>
      refine ⟨h, .refl made, rfl, rfl, ?_⟩
      show made.parameterValues[parameter.index]? = _
      rw [List.getElem?_eq_getElem within, isKnown]
    | none =>
      have free : made.parameterValues[parameter.index]? = some none := by rw [List.getElem?_eq_getElem within, isKnown]
      refine Call.meets_bind (onBuilder_meets (parameter_meets h.assembled.sound) ?_)
      rintro id builder ⟨sound, rfl, isBuilder⟩
      rw [Call.modify_bind]
      have values : made.builder.values <+: builder.values := by
        rw [isBuilder]
        exact List.prefix_append _ _
      have extends' : made.Extends { made with
          builder
          parameterValues := made.parameterValues.set parameter.index (some ⟨made.builder.values.length⟩)
          definitionParameters := made.definitionParameters ++ [parameter] } := by
        refine ⟨fun _ _ read => read, fun p id read => ?_, ?_, values⟩
        · show (made.parameterValues.set _ _)[p]? = _
          rw [List.getElem?_set_ne, read]
          rintro rfl
          cases free.symm.trans read
        · rw [isBuilder]
          rfl
      have assembled := h.assembled.grow sound values (by rw [isBuilder]; exact (List.append_nil _).symm)
        (by rw [isBuilder]; exact ⟨rfl, rfl, rfl, rfl⟩)
      rw [List.length_nil, List.range'_zero, List.append_nil] at assembled
      refine ⟨⟨assembled, h.onNodes.congr rfl ?_, h.within, ⟨?_, ?_, fun other member => ?_, fun p id read => ?_⟩, h.states, ?_,
        fun item member => (h.fits item member).extend extends', ?_⟩, extends', ?_, rfl, List.getElem?_set_self within⟩
      · rw [isBuilder]
        exact List.prefix_rfl
      · rw [List.length_set, h.parameters.length]
      · rw [isBuilder, List.length_append, List.length_singleton, ← h.parameters.count]
      · rcases List.mem_append.mp member with earlier | last
        · exact h.parameters.inside other earlier
        · exact List.mem_singleton.mp last ▸ below parameter rfl
      · by_cases same : parameter.index = p
        · subst same
          rw [List.getElem?_set_self within] at read
          obtain rfl := Option.some.inj (Option.some.inj read)
          refine ⟨made.definitionParameters.length, ?_, ?_⟩
          · rw [List.getElem?_concat_length]
            rfl
          · rw [isBuilder, ← h.parameters.count]
            exact push_read _
        · rw [List.getElem?_set_ne same] at read
          obtain ⟨j, isParameter, there⟩ := h.parameters.placed p id read
          obtain ⟨found, isFound, -⟩ := Option.map_eq_some_iff.mp isParameter
          refine ⟨j, ?_, read_grown values there⟩
          rw [List.getElem?_append_left (List.getElem?_eq_some_iff.mp isFound).1, isParameter]
      · rw [isBuilder]
        exact h.counted
      · rw [isBuilder]
        exact h.terminalCount
      · rw [isBuilder]
        rfl

/-! ### The arguments of a child -/

variable {element : Element F} {compiled : CompiledPartitionTemplate F} {offset : Nat}

/-- The terminals of a child lie on unknowns of their nodes. -/
theorem terminals_meets (h : Composing registry circuit children parameterCount inside terminalNodes made items nodes)
    {terminals : List TerminalId} (given : ∀ terminal ∈ terminals, ∃ node, element.terminals[Id.index terminal]? = some node ∧
      node.index < circuit.nodeCount ∧ inside node.index) :
    (Call.pushEach (fun _ terminal => do
      let node ← Call.expect element.terminals[Id.index terminal]?
      nodeUnknown node) [] terminals made).Meets False
      (fun unknowns after => ∃ nodes', Composing registry circuit children parameterCount inside terminalNodes after items nodes' ∧
        made.Extends after ∧ after.builder.outputs = made.builder.outputs ∧
        after.forwardedObserverValues = made.forwardedObserverValues ∧
        List.Forall₂ (fun terminal unknown => ∃ node, element.terminals[Id.index terminal]? = some node ∧
          after.nodeUnknowns[node.index]? = some (some unknown)) terminals unknowns)
      fun error _ => error = .idExhausted := by
  refine Call.pushEach_meets (fun seen done state => ∃ nodes', Composing registry circuit children parameterCount inside
    terminalNodes state items nodes' ∧ made.Extends state ∧ state.builder.outputs = made.builder.outputs ∧
    state.forwardedObserverValues = made.forwardedObserverValues ∧
    List.Forall₂ (fun terminal unknown => ∃ node, element.terminals[Id.index terminal]? = some node ∧
      state.nodeUnknowns[node.index]? = some (some unknown)) seen done) ?_ ⟨nodes, h, .refl made, rfl, rfl, .nil⟩
  rintro seen terminal rest done state split ⟨nodes', composing, extends', outputs, forwarded, related⟩
  obtain ⟨node, isNode, below, isInside⟩ := given terminal (split ▸ List.mem_append_right _ List.mem_cons_self)
  rw [isNode, Call.expect_some_bind]
  refine (nodeUnknown_meets composing below isInside).mono id ?_ fun _ _ failed => failed
  rintro unknown after ⟨nodes'', composing', further, outputs', forwarded', known⟩
  refine ⟨nodes'', composing', extends'.trans further, outputs'.trans outputs, forwarded'.trans forwarded, ?_⟩
  refine List.rel_append (related.imp fun _ _ ⟨other, isOther, there⟩ => ⟨other, isOther, further.nodes _ _ there⟩) ?_
  exact .cons ⟨node, isNode, known⟩ .nil

/-- The parameters of a child have values. -/
theorem parameters_meets (h : Composing registry circuit children parameterCount inside terminalNodes made items nodes)
    {parameters : List ParameterId} (given : ∀ parameter ∈ parameters, ∃ value,
      element.parameters[Id.index parameter]? = some value ∧ ∀ id, value = .parameter id → id.index < parameterCount) :
    (Call.pushEach (fun _ parameter => do
      let value ← Call.expect element.parameters[Id.index parameter]?
      parameterValue value) [] parameters made).Meets False
      (fun values after => Composing registry circuit children parameterCount inside terminalNodes after items nodes ∧
        made.Extends after ∧ after.builder.outputs = made.builder.outputs ∧
        after.forwardedObserverValues = made.forwardedObserverValues ∧
        List.Forall₂ (fun parameter id => ∃ value, element.parameters[Id.index parameter]? = some value ∧
          after.Stands id value) parameters values)
      fun error _ => error = .idExhausted := by
  refine Call.pushEach_meets (fun seen done state => Composing registry circuit children parameterCount inside terminalNodes
    state items nodes ∧ made.Extends state ∧ state.builder.outputs = made.builder.outputs ∧
    state.forwardedObserverValues = made.forwardedObserverValues ∧
    List.Forall₂ (fun parameter id => ∃ value, element.parameters[Id.index parameter]? = some value ∧ state.Stands id value)
      seen done) ?_ ⟨h, .refl made, rfl, rfl, .nil⟩
  rintro seen parameter rest done state split ⟨composing, extends', outputs, forwarded, related⟩
  obtain ⟨value, isValue, below⟩ := given parameter (split ▸ List.mem_append_right _ List.mem_cons_self)
  rw [isValue, Call.expect_some_bind]
  refine (parameterValue_meets composing below).mono id ?_ fun _ _ failed => failed
  rintro id after ⟨composing', further, outputs', forwarded', stands⟩
  refine ⟨composing', extends'.trans further, outputs'.trans outputs, forwarded'.trans forwarded, ?_⟩
  refine List.rel_append (related.imp fun _ _ ⟨other, isOther, there⟩ => ⟨other, isOther, there.extend further⟩) ?_
  exact .cons ⟨value, isValue, stands⟩ .nil

omit [F64 F] in
/-- The states of a child have slots. -/
theorem states_read {states : List DefinitionStateId} (given : ∀ state ∈ states, ∃ slot,
    made.localStates[offset + Id.index state]? = some (some slot)) :
    ∃ slots, (states.mapM fun state => made.localStates[offset + Id.index state]?.join) = some slots ∧
      List.Forall₂ (fun state slot => made.localStates[offset + Id.index state]? = some (some slot)) states slots := by
  induction states with
  | nil => exact ⟨[], rfl, .nil⟩
  | cons state states ih =>
    obtain ⟨slot, read⟩ := given state List.mem_cons_self
    obtain ⟨slots, run, related⟩ := ih fun other member => given other (List.mem_cons_of_mem _ member)
    refine ⟨slot :: slots, ?_, .cons read related⟩
    rw [List.mapM_cons, read, run]
    rfl

end Composition

/-! ### The part of a child -/

section Part

variable [Field F] {latch : F → F → F → Prop} {item : PlacedChild F}

/-- The arguments of a child's template are there. -/
theorem PlacedChild.Fits.placeable (h : Composing registry circuit children parameterCount inside terminalNodes made items nodes)
    (fits : item.Fits registry circuit children made)
    (compiles : item.compiled.Compiles registry latch item.child item.place.2)
    (unwritten : ∀ state ∈ item.compiled.definitionStateWrites, ∀ slot,
      made.localStates[registry.stateOffset (circuit.elements.take item.place.1) + Id.index state]? = some (some slot) →
        made.builder.stateWrites[slot.index]? = some none) :
    Placeable made.builder item.compiled.template item.part.placement.terminals item.part.placement.parameters
      item.part.placement.states := by
  obtain ⟨terminalCount, parameterCount', stateCount, -⟩ := compiles.counts
  have written : ∀ entry ∈ item.compiled.template.stateWrites, ∃ state slot,
      item.compiled.definitionStates[entry.1.index]? = some state ∧
      item.part.placement.states[entry.1.index]? = some slot ∧
      made.localStates[registry.stateOffset (circuit.elements.take item.place.1) + Id.index state]? = some (some slot) := by
    intro entry member
    have below : entry.1.index < item.part.placement.states.length := by
      rw [← fits.states.length_eq, ← stateCount]
      exact (compiles.sound.stamps.writes entry member).1
    obtain ⟨state, slot, isState, isSlot, here⟩ := related_read fits.states below
    exact ⟨state, slot, isState, isSlot, here⟩
  refine ⟨?_, ?_, ?_, fun id member => ?_, fun id member => ?_, fun id member => ?_, ?_, fun entry member => ?_⟩
  · rw [terminalCount, fits.terminals.length_eq]
  · rw [parameterCount', fits.parameters.length_eq]
  · rw [stateCount, fits.states.length_eq]
  · obtain ⟨i, below, isId⟩ := List.getElem_of_mem member
    obtain ⟨terminal, unknown, -, isUnknown, node, -, here⟩ := related_read fits.terminals below
    obtain rfl := (List.getElem?_eq_some_iff.mp isUnknown).2.symm.trans isId
    obtain ⟨info, read, -⟩ := h.onNodes.bound _ _ here
    exact (List.getElem?_eq_some_iff.mp read).1
  · obtain ⟨i, below, isId⟩ := List.getElem_of_mem member
    obtain ⟨parameter, value, -, isValue, given, -, stands⟩ := related_read fits.parameters below
    obtain rfl := (List.getElem?_eq_some_iff.mp isValue).2.symm.trans isId
    have read : ∃ node, made.builder.stamps.nodes[value.index]? = some node := by
      cases given with
      | literal c => exact ⟨_, stands⟩
      | parameter source =>
        obtain ⟨j, -, read⟩ := h.parameters.placed _ _ stands
        exact ⟨_, read⟩
    obtain ⟨node, read⟩ := read
    have length : made.builder.stamps.nodes.length = made.builder.values.length := nodes_length
    exact length ▸ (List.getElem?_eq_some_iff.mp read).1
  · obtain ⟨i, below, isId⟩ := List.getElem_of_mem member
    obtain ⟨state, slot, -, isSlot, here⟩ := related_read fits.states below
    obtain rfl := (List.getElem?_eq_some_iff.mp isSlot).2.symm.trans isId
    obtain ⟨global, read, -⟩ := Option.map_eq_some_iff.mp (h.states _ _ here)
    exact h.counted ▸ (List.getElem?_eq_some_iff.mp read).1
  · -- the slots of distinct states are distinct
    have images : (item.compiled.template.stateWrites.map (·.1.index)).map
        (fun s => (item.part.placement.states[s]?.map StateSlot.index).getD 0) =
        item.compiled.template.stateWrites.map fun entry =>
          (item.part.placement.states[entry.1.index]?.map StateSlot.index).getD 0 := by
      rw [List.map_map]
      rfl
    rw [← images]
    refine compiles.written.map_on fun a inA b inB same => ?_
    obtain ⟨entry, member, rfl⟩ := List.mem_map.mp inA
    obtain ⟨entry', member', rfl⟩ := List.mem_map.mp inB
    obtain ⟨state, ⟨slot⟩, isState, isSlot, here⟩ := written entry member
    obtain ⟨state', ⟨slot'⟩, isState', isSlot', here'⟩ := written entry' member'
    rw [isSlot, isSlot'] at same
    obtain rfl : slot = slot' := same
    have sameState := Option.some.inj ((h.states _ _ here).symm.trans (h.states _ _ here'))
    have below := (List.getElem?_eq_some_iff.mp isState).1
    refine (List.getElem?_inj (by rwa [List.length_map]) compiles.states.1).mp ?_
    rw [List.getElem?_map, List.getElem?_map, isState, isState', Option.map_some, Option.map_some]
    congr 1
    omega
  · obtain ⟨state, slot, isState, isSlot, here⟩ := written entry member
    rw [isSlot]
    exact unwritten state ((compiles.writes state).mpr ⟨entry, member, isState⟩) slot here

/-- The template of a child is a part more. -/
theorem Composing.instantiate_meets
    (h : Composing registry circuit children parameterCount inside terminalNodes made items nodes)
    {place : Nat × Nat} {element : Element F} {child : DeviceDefinition F} {compiled : CompiledPartitionTemplate F}
    {terminals : List LocalUnknownId} {parameters : List LocalValueId} {states : List LocalStateId}
    (fits : ∀ unknowns values, PlacedChild.Fits registry circuit children made
      ⟨place, element, child, compiled, ⟨compiled.template.stamps, ⟨terminals, parameters, states, unknowns, values⟩⟩⟩)
    (compiles : compiled.Compiles registry latch child place.2)
    (unwritten : ∀ state ∈ compiled.definitionStateWrites, ∀ slot,
      made.localStates[registry.stateOffset (circuit.elements.take place.1) + Id.index state]? = some (some slot) →
        made.builder.stateWrites[slot.index]? = some none) :
    (Composition.onBuilder (compiled.template.instantiateInto terminals parameters states) made).Meets False
      (fun outputs after => ∃ part : Part F, part.stamps = compiled.template.stamps ∧
        Composing registry circuit children parameterCount inside terminalNodes after
          (items ++ [⟨place, element, child, compiled, part⟩]) nodes ∧ made.Extends after ∧
        after.builder.outputs = made.builder.outputs ∧
        after.forwardedObserverValues = made.forwardedObserverValues ∧
        outputs = compiled.template.outputs.map fun output => ⟨part.placement.value output.index⟩)
      fun error _ => error = .idExhausted := by
  have placeable := (fits [] []).placeable h compiles unwritten
  refine Composition.onBuilder_meets (instantiateInto_meets h.assembled.sound compiles.sound placeable) ?_
  rintro outputs builder ⟨unknowns, values, there, rfl⟩
  obtain ⟨new, isUnknowns, -, -⟩ := there.unknowns
  obtain ⟨parameterCount', terminalCount', requires, outputs'⟩ := there.counts
  have here := fits unknowns values
  have extends' : made.Extends { made with builder } := by
    refine ⟨fun _ _ read => read, fun _ _ read => read, ?_, there.grown⟩
    simp only [Composition.slots, requires, there.writes, writeAll_length]
  have assembled := h.assembled.instantiate there (fun id member => ?_) (fun unknown member => ?_) ?_ fun entry member => ?_
  · refine ⟨⟨compiled.template.stamps, ⟨terminals, parameters, states, unknowns, values⟩⟩, rfl, ⟨?_, h.onNodes.congr rfl ⟨new, isUnknowns.symm⟩, h.within, ⟨h.parameters.length, ?_, h.parameters.inside,
      fun p id read => ?_⟩, h.states, ?_, fun item member => ?_, ?_⟩, extends', outputs', rfl, rfl⟩
    · rw [List.map_append]
      exact assembled
    · rw [← h.parameters.count]
      exact parameterCount'
    · obtain ⟨j, isParameter, atId⟩ := h.parameters.placed p id read
      exact ⟨j, isParameter, read_grown there.grown atId⟩
    · show made.definitionStates.length = builder.stateWrites.length
      rw [there.writes, writeAll_length, h.counted]
    · rcases List.mem_append.mp member with earlier | last
      · exact (h.fits item earlier).extend extends'
      · rw [List.mem_singleton.mp last]
        exact here.extend extends'
    · rw [← h.terminalCount]
      exact terminalCount'
  · obtain ⟨i, below, isId⟩ := List.getElem_of_mem member
    obtain ⟨parameter, value, -, isValue, given, -, stands⟩ := related_read here.parameters below
    obtain rfl := (List.getElem?_eq_some_iff.mp isValue).2.symm.trans isId
    cases given with
    | literal c => exact Or.inl ⟨c, stands⟩
    | parameter source =>
      obtain ⟨j, -, read⟩ := h.parameters.placed _ _ stands
      exact Or.inr ⟨_, read⟩
  · obtain ⟨i, below, isId⟩ := List.getElem_of_mem member
    obtain ⟨terminal, unknown', -, isUnknown, node, -, known⟩ := related_read here.terminals below
    obtain rfl := (List.getElem?_eq_some_iff.mp isUnknown).2.symm.trans isId
    exact (h.onNodes.mem _).mpr ⟨_, known⟩
  · rw [Part.writes, List.map_map]
    exact placeable.distinct
  · obtain ⟨source, member', rfl⟩ := List.mem_map.mp member
    exact placeable.unwritten source member'

end Part

end Values

end Hynergy
