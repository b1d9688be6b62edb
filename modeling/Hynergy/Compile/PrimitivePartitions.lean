import Hynergy.Compile.StateWriters

/-!
# Partitions of primitives

A primitive is compiled, partition by partition, to what its law says.
-/

namespace Hynergy

open Lib DefinitionTemplateBuilder

variable {F : Type} [Field F] [F64 F] {registry : DefinitionRegistry F} {latch : F → F → F → Prop}
  {kind : PrimitiveElementKind} {ports : Ports F}

/-! ### What the built-in definitions expose -/

section Layout

omit [Field F]

theorem PrimitiveElementKind.terminalsOf_first (kind : PrimitiveElementKind) :
    (kind.definition : DeviceDefinition F).terminalsOf 0 = List.range kind.firstTerminals := by
  show places (fun part => decide (Id.index part = 0)) kind.partitionLayout.2.terminalPartitions = _
  cases kind <;> decide

theorem PrimitiveElementKind.observersOf_first (kind : PrimitiveElementKind) :
    (kind.definition : DeviceDefinition F).observersOf 0 =
      List.range (kind.stamps : Stamps F).outputs.length := by
  show places (fun observer => decide (observer.partition.index = 0)) kind.observers = _
  cases kind <;> rfl

theorem PrimitiveElementKind.stamps_writes (kind : PrimitiveElementKind) :
    (kind.stamps : Stamps F).writes.map (·.1.index) = List.range kind.stateCount := by
  cases kind <;> rfl

theorem PrimitiveElementKind.partitionCount_single (single : kind ≠ .tickDelay) :
    (kind.definition : DeviceDefinition F).partitionCount = 1 := by
  show kind.partitionLayout.2.partitionCount = 1
  cases kind
  case tickDelay => exact absurd rfl single
  all_goals decide

theorem PrimitiveElementKind.parameters_length (kind : PrimitiveElementKind) :
    (kind.definition : DeviceDefinition F).parameters.length = kind.parameterCount := by
  cases kind <;> rfl

end Layout

/-! ### Laws -/

omit [Field F] [F64 F] in
/-- The ports in order are the ports. -/
theorem Ports.restrict_range (ports : Ports F) (parameters states terminals outputs : Nat) :
    (ports.restrict (List.range terminals) (List.range parameters) (List.range states) (List.range outputs)).Agree ports
      parameters states terminals outputs where
  timestep := rfl
  parameter p below := by simp [Ports.restrict, below]
  state s below := by simp [Ports.restrict, below]
  terminal t below := by simp [Ports.restrict, below]
  observed o below := by simp [Ports.restrict, below]

omit [Field F] in
theorem PrimitiveElementKind.definition_body (kind : PrimitiveElementKind) :
    (kind.definition : DeviceDefinition F).body = .primitive kind := rfl

/-- The law of the first partition is that of the primitive. -/
theorem PrimitiveElementKind.partitionLaw_iff (kind : PrimitiveElementKind) :
    (kind.definition : DeviceDefinition F).PartitionLaw registry latch 0 ports ↔ kind.Law latch ports := by
  constructor
  · intro law
    cases law with
    | primitive body law => exact DeviceBody.primitive.inj body ▸ law
    | composite body linked children => cases body
  · exact .primitive rfl

theorem PrimitiveElementKind.delayedLaw_iff :
    (tickDelay.definition : DeviceDefinition F).PartitionLaw registry latch 1 ports ↔
      TickDelayOutputLaw (ports.restrict [2, 3] [] [0] [1, 2]) := by
  constructor
  · intro law
    cases law with
    | delayed body law => exact law
    | composite body linked children => cases body
  · exact .delayed rfl

/-! ### The first partition -/

omit [Field F] [F64 F] in
theorem definitionObservers_read {definition : DeviceDefinition F} (partition : DevicePartitionId)
    (bounded : definition.observers.length ≤ IdKind.observer.bound) :
    ∃ observers, definitionObserversForPartition definition partition = some observers ∧
      observers.map Id.index = definition.observersOf partition.index := by
  obtain ⟨observers, run, same⟩ := mapM_ofIndex (fun entry member =>
    (List.getElem?_eq_some_iff.mp (List.mem_zipIdx_iff_getElem?.mp (List.mem_filter.mp member).1)).1.trans_le bounded)
  exact ⟨observers, run, same.trans (observersOf_eq definition partition)⟩

/-- The first partition of a primitive has the ports in order. -/
theorem PrimitiveElementKind.first_compiles (exact : F64.ExactArithmetic F) (kind : PrimitiveElementKind)
    {template : CompiledDefinitionTemplate F} (sound : template.Sound) (same : template.stamps.Same kind.stamps)
    (counts : template.parameterCount = kind.parameterCount ∧ template.stateCount = kind.stateCount ∧
      template.terminalCount = kind.firstTerminals) {terminals : List TerminalId}
    (isTerminals : terminals.map Id.index = List.range kind.firstTerminals) {parameters : List ParameterId}
    (isParameters : parameters.map Id.index = List.range kind.parameterCount) {states : List DefinitionStateId}
    (isStates : states.map Id.index = List.range kind.stateCount) {reads : List DefinitionStateId}
    (readsStates : ∀ state ∈ reads, state ∈ states) {observers : List DefinitionObserverId}
    (isObservers : observers.map Id.index = List.range (kind.stamps : Stamps F).outputs.length) :
    CompiledPartitionTemplate.Compiles registry latch kind.definition 0
      ⟨terminals, parameters, states, reads, states, observers, template⟩ := by
  have lengths : ∀ {kind : IdKind} {ids : List (Id kind)} {n : Nat}, ids.map Id.index = List.range n → ids.length = n := by
    intro kind ids n same
    have length := congrArg List.length same
    rwa [List.length_map, List.length_range] at length
  have below : ∀ state ∈ states, Id.index state < kind.stateCount := fun state member =>
    List.mem_range.mp (isStates ▸ List.mem_map_of_mem member)
  have writes : template.stateWrites.map (·.1.index) = List.range kind.stateCount := by
    rw [← kind.stamps_writes (F := F), ← same.writes]
    rfl
  have outputs : template.outputs = (kind.stamps : Stamps F).outputs := same.outputs
  refine ⟨sound, by rw [isTerminals, kind.terminalsOf_first], by rw [isObservers, kind.observersOf_first], ?_, ⟨?_, below⟩,
    fun state member => below state (readsStates state member), fun state => ?_, ?_, ⟨?_, ?_, ?_, ?_⟩, fun ports => ?_⟩
  · intro parameter member
    rw [kind.parameters_length]
    exact List.mem_range.mp (isParameters ▸ List.mem_map_of_mem member)
  · rw [isStates]
    exact List.nodup_range
  · have atIndex : ∀ i < kind.stateCount, states[i]?.map Id.index = some i := by
      intro i inside
      rw [← List.getElem?_map, isStates, List.getElem?_range inside]
    constructor
    · intro member
      have number : Id.index state ∈ template.stateWrites.map (·.1.index) := by
        rw [writes]
        exact List.mem_range.mpr (below state member)
      obtain ⟨entry, isEntry, same⟩ := List.mem_map.mp number
      obtain ⟨other, isOther, index⟩ := Option.map_eq_some_iff.mp (atIndex _ (below state member))
      refine ⟨entry, isEntry, ?_⟩
      rw [same, isOther, Id.ext' index]
    · rintro ⟨entry, -, read⟩
      exact List.mem_of_getElem? read
  · rw [writes]
    exact List.nodup_range
  · rw [counts.2.2, lengths isTerminals]
  · rw [counts.1, lengths isParameters]
  · rw [counts.2.1, lengths isStates]
  · rw [outputs, lengths isObservers]
  · have seen : CompiledPartitionTemplate.ports ⟨terminals, parameters, states, reads, states, observers, template⟩ ports =
        ports.restrict (List.range template.terminalCount) (List.range template.parameterCount)
          (List.range template.stateCount) (List.range template.stamps.outputs.length) := by
      rw [CompiledPartitionTemplate.ports, isTerminals, isParameters, isStates, isObservers, same.outputs, counts.1, counts.2.1,
        counts.2.2]
    have agree := ports.restrict_range template.parameterCount template.stateCount template.terminalCount
      template.stamps.outputs.length
    rw [seen, kind.partitionLaw_iff, ← kind.stamps_behaves exact, ← same.behaves]
    exact ⟨sound.stamps.behaves_congr agree, sound.stamps.behaves_congr agree.symm⟩

theorem range_read {kind : IdKind} {n : Nat} (bounded : n ≤ kind.bound) :
    ∃ ids : List (Id kind), ((List.range n).mapM fun index => Id.ofIndex? index) = some ids ∧ ids.map Id.index = List.range n := by
  obtain ⟨ids, run, same⟩ : ∃ ids : List (Id kind), (List.range n).mapM (fun index => Id.ofIndex? index) = some ids ∧
      ids.map Id.index = (List.range n).map fun index => index :=
    mapM_ofIndex fun index member => (List.mem_range.mp member).trans_le bounded
  exact ⟨ids, run, same.trans (List.map_id' _)⟩

/-- A primitive that is no tick delay has one partition. -/
theorem compilePrimitivePartition_returns (exact : F64.ExactArithmetic F) (single : kind ≠ .tickDelay) :
    ∃ compiled, compilePrimitivePartition (kind.definition : DeviceDefinition F) kind () = .ok compiled () ∧
      compiled.Compiles registry latch kind.definition 0 ∧
      compiled.definitionStateWrites.map Id.index = List.range kind.stateCount := by
  obtain ⟨template, run, sound, same, parameterCount, stateCount, terminalCount, -⟩ :=
    compilePrimitive_returns exact.toExactField single
  have few : kind.parameterCount ≤ IdKind.parameter.bound ∧ kind.stateCount ≤ IdKind.state.bound ∧
      kind.observers.length ≤ IdKind.observer.bound ∧ kind.partitionLayout.2.terminalPartitions.length ≤ IdKind.terminal.bound := by
    cases kind <;> decide
  have first : (Id.ofIndex? 0 : Option DevicePartitionId) = some ⟨0, by decide⟩ := rfl
  obtain ⟨parameters, isParameters, parameterNumbers⟩ := range_read few.1
  obtain ⟨states, isStates, stateNumbers⟩ := range_read few.2.1
  have fewObservers : (kind.definition : DeviceDefinition F).observers.length ≤ IdKind.observer.bound := few.2.2.1
  have fewTerminals : (kind.definition : DeviceDefinition F).terminalPartitions.length ≤ IdKind.terminal.bound := few.2.2.2
  obtain ⟨observers, isObservers, observerNumbers⟩ := definitionObservers_read ⟨0, by decide⟩ fewObservers
  obtain ⟨terminals, isTerminals, terminalNumbers⟩ := definitionTerminals_read ⟨0, by decide⟩ fewTerminals
  have parametersRead : definitionParameters (kind.definition : DeviceDefinition F) = some parameters := by
    rw [definitionParameters, kind.parameters_length]
    exact isParameters
  have statesRead : definitionStates (kind.definition : DeviceDefinition F) = some states := isStates
  refine ⟨⟨terminals, parameters, states, states, states, observers, template⟩, ?_, ?_, stateNumbers⟩
  · unfold compilePrimitivePartition
    rw [Call.bind_ok run, first, Call.expect_some_bind, parametersRead, Call.expect_some_bind, statesRead, Call.expect_some_bind,
      isObservers, Call.expect_some_bind, isTerminals, Call.expect_some_bind]
    rfl
  · refine kind.first_compiles exact sound same ⟨parameterCount, stateCount, ?_⟩ ?_ parameterNumbers stateNumbers
      (fun state member => member) ?_
    · rw [terminalCount, PrimitiveElementKind.firstTerminals, if_neg single]
    · rw [terminalNumbers, kind.terminalsOf_first]
    · rw [observerNumbers, kind.observersOf_first]

/-! ### The tick delay -/

omit [Field F] in
/-- A partition of a tick delay is compiled as its stamps are. -/
theorem compileTickDelayPartition_returns {partitionIndex : Nat} (below : partitionIndex < 2) {stamps : Build F Unit}
    {reads writes : List DefinitionStateId}
    (isStamps : tickDelayStamps ⟨0, by decide⟩ partitionIndex = some (stamps, reads, writes))
    {template : CompiledDefinitionTemplate F} (run : withBuilder (do stamps; finish) () = .ok template ()) :
    ∃ terminals observers, compileTickDelayPartition (PrimitiveElementKind.tickDelay.definition : DeviceDefinition F)
        partitionIndex () = .ok ⟨terminals, [], [⟨0, by decide⟩], reads, writes, observers, template⟩ () ∧
      terminals.map Id.index =
        (PrimitiveElementKind.tickDelay.definition : DeviceDefinition F).terminalsOf partitionIndex ∧
      observers.map Id.index =
        (PrimitiveElementKind.tickDelay.definition : DeviceDefinition F).observersOf partitionIndex := by
  have fits : partitionIndex < IdKind.partition.bound := below.trans (by decide)
  have isState : (Id.ofIndex? 0 : Option DefinitionStateId) = some ⟨0, by decide⟩ := rfl
  have isPartition : (Id.ofIndex? partitionIndex : Option DevicePartitionId) = some ⟨partitionIndex, fits⟩ :=
    Id.ofIndex?_eq_some.mpr rfl
  have fewObservers : (PrimitiveElementKind.tickDelay.definition : DeviceDefinition F).observers.length ≤
      IdKind.observer.bound := by
    show PrimitiveElementKind.tickDelay.observers.length ≤ _
    decide
  have fewTerminals : (PrimitiveElementKind.tickDelay.definition : DeviceDefinition F).terminalPartitions.length ≤
      IdKind.terminal.bound := by
    show PrimitiveElementKind.tickDelay.partitionLayout.2.terminalPartitions.length ≤ _
    decide
  obtain ⟨observers, isObservers, observerNumbers⟩ := definitionObservers_read ⟨partitionIndex, fits⟩ fewObservers
  obtain ⟨terminals, isTerminals, terminalNumbers⟩ := definitionTerminals_read ⟨partitionIndex, fits⟩ fewTerminals
  refine ⟨terminals, observers, ?_, terminalNumbers, observerNumbers⟩
  unfold compileTickDelayPartition
  rw [isState, Call.expect_some_bind, isPartition, Call.expect_some_bind, isTerminals, Call.expect_some_bind, isObservers,
    Call.expect_some_bind, isStamps, Call.expect_some_bind]
  show (withBuilder _ >>= _) () = _
  rw [Call.bind_ok run]
  rfl

/-- The two partitions of a tick delay. -/
theorem compileTickDelayPartitions_returns (exact : F64.ExactArithmetic F) :
    ∃ first second, compileTickDelayPartitions (PrimitiveElementKind.tickDelay.definition : DeviceDefinition F) () =
        .ok [first, second] () ∧
      first.Compiles registry latch PrimitiveElementKind.tickDelay.definition 0 ∧
      second.Compiles registry latch PrimitiveElementKind.tickDelay.definition 1 ∧
      first.definitionStateWrites.map Id.index = [0] ∧ second.definitionStateWrites = [] := by
  obtain ⟨input, runInput, soundInput, sameInput, countsInput⟩ := (compileTickDelayInput_leaves (F := F)).compiles
    exact.toExactField (PrimitiveElementKind.stamps_sound .tickDelay) (Nat.zero_le _)
  obtain ⟨output, runOutput, soundOutput, sameOutput, countsOutput⟩ := (compileTickDelayOutput_leaves (F := F)).compiles
    exact.toExactField tickDelayOutputStamps_sound ((stampedMatrix_length_le _).trans (by cbv))
  obtain ⟨terminals, observers, runFirst, isTerminals, isObservers⟩ :=
    compileTickDelayPartition_returns (show 0 < 2 by decide) rfl runInput
  obtain ⟨terminals', observers', runSecond, isTerminals', isObservers'⟩ :=
    compileTickDelayPartition_returns (show 1 < 2 by decide) rfl runOutput
  have terminalsSecond : (PrimitiveElementKind.tickDelay.definition : DeviceDefinition F).terminalsOf 1 = [2, 3] := by
    show places (fun part => decide (Id.index part = 1)) PrimitiveElementKind.tickDelay.partitionLayout.2.terminalPartitions = _
    decide
  have observersSecond : (PrimitiveElementKind.tickDelay.definition : DeviceDefinition F).observersOf 1 = [1, 2] := by
    show places (fun observer => decide (observer.partition.index = 1)) PrimitiveElementKind.tickDelay.observers = _
    decide
  have writes : output.stateWrites = [] := sameOutput.writes
  have outputs : output.outputs.length = 2 := congrArg List.length sameOutput.outputs
  rw [terminalsSecond] at isTerminals'
  rw [observersSecond] at isObservers'
  refine ⟨⟨terminals, [], [⟨0, by decide⟩], [], [⟨0, by decide⟩], observers, input⟩,
    ⟨terminals', [], [⟨0, by decide⟩], [⟨0, by decide⟩], [], observers', output⟩, ?_, ?_, ?_, rfl, rfl⟩
  · unfold compileTickDelayPartitions
    have two : List.range (PrimitiveElementKind.tickDelay.definition : DeviceDefinition F).partitionCount = [0, 1] := by
      show List.range PrimitiveElementKind.tickDelay.partitionLayout.2.partitionCount = _
      decide
    rw [two, Call.pushEach, Call.bind_ok runFirst, Call.pushEach, Call.bind_ok runSecond]
    rfl
  · refine PrimitiveElementKind.first_compiles exact .tickDelay soundInput sameInput countsInput ?_ rfl rfl (by simp) ?_
    · rw [isTerminals, PrimitiveElementKind.terminalsOf_first]
    · rw [isObservers, PrimitiveElementKind.observersOf_first]
  · refine ⟨soundOutput, isTerminals'.trans terminalsSecond.symm, isObservers'.trans observersSecond.symm, by simp, ⟨by simp, ?_⟩,
      ?_, fun state => ?_, ?_, ⟨?_, countsOutput.1, countsOutput.2.1, ?_⟩, fun ports => ?_⟩
    · intro state member
      rw [List.mem_singleton.mp member]
      exact Nat.one_pos
    · intro state member
      rw [List.mem_singleton.mp member]
      exact Nat.one_pos
    · rw [writes]
      simp
    · rw [writes]
      exact List.nodup_nil
    · rw [countsOutput.2.2]
      exact (congrArg List.length isTerminals').symm.trans (List.length_map _)
    · rw [outputs]
      exact (congrArg List.length isObservers').symm.trans (List.length_map _)
    · have seen : CompiledPartitionTemplate.ports ⟨terminals', [], [⟨0, by decide⟩], [⟨0, by decide⟩], [], observers', output⟩
          ports = ports.restrict [2, 3] [] [0] [1, 2] := by
        rw [CompiledPartitionTemplate.ports, isTerminals', isObservers']
        rfl
      rw [seen, sameOutput.behaves, tickDelayOutput_behaves exact, PrimitiveElementKind.delayedLaw_iff]

end Hynergy
