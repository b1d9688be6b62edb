import Hynergy.Compile.PrimitivePartitions

/-!
# Compiled definitions

Every definition of a registry is compiled, its children first: each of its partitions then says what its law does.
-/

namespace Hynergy

open Lib DefinitionTemplateBuilder

variable {F : Type} [Field F] [F64 F] {registry : DefinitionRegistry F} {latch : F → F → F → Prop}
  {definition : DeviceDefinition F} {circuit : Circuit F} {children : List (CompiledDefinition F)}

/-- A composite as the builder makes it, over a registry. -/
structure Shaped (registry : DefinitionRegistry F) (definition : DeviceDefinition F) (circuit : Circuit F) : Prop where
  body : definition.body = .composite circuit
  paired : definition.terminalPartitions.length = definition.terminals.length
  distinct : (definition.terminals.map Id.index).Nodup
  within : ∀ node ∈ definition.terminals, Id.index node < circuit.nodeCount
  layout : definition.elementPartitions.length = (circuit.places registry).length
  states : definition.stateCount = registry.stateOffset circuit.elements
  bounded : definition.stateCount ≤ IdKind.state.bound ∧ definition.terminals.length ≤ IdKind.terminal.bound ∧
    definition.observers.length ≤ IdKind.observer.bound
  partitions : definition.partitionCount ≤ IdKind.partition.bound
  mapped : ∀ part ∈ definition.elementPartitions, Id.index part < definition.partitionCount
  elements : ∀ element ∈ circuit.elements, ∃ child, registry.get (Element.definition element) = some child ∧
    element.parameters.length = child.parameters.length
  parameters : ∀ element ∈ circuit.elements, ∀ parameter, .parameter parameter ∈ element.parameters →
    Id.index parameter < definition.parameters.length
  terminals : ∀ partition, ∀ place ∈ definition.childPlaces registry circuit partition, ∀ element child,
    circuit.elements[place.1]? = some element → registry.get element.definition = some child →
      ∀ t ∈ child.terminalsOf place.2, ∃ node, element.terminals[t]? = some node ∧ node.index < circuit.nodeCount ∧
        definition.Inside partition node.index
  observers : ∀ (j : Nat) observer, definition.observers[j]? = some observer →
    definition.Observes registry circuit observer.partition.index observer.source

/-- The children of a composite as they were compiled. -/
abbrev ChildrenCompiled (registry : DefinitionRegistry F) (latch : F → F → F → Prop) (elements : List (Element F))
    (children : List (CompiledDefinition F)) : Prop :=
  List.Forall₂ (fun element compiled => ∃ child, registry.get (Element.definition element) = some child ∧
    CompiledDefinition.Compiles registry latch child compiled ∧
    element.parameters.length = child.parameters.length) elements children

namespace Shaped

omit [Field F] [F64 F] in
theorem composable [Field F] [F64 F] (shaped : Shaped registry definition circuit)
    (compiled : ChildrenCompiled registry latch circuit.elements children) (partition : Nat) :
    Composable registry latch definition circuit children partition where
  body := shaped.body
  paired := shaped.paired
  distinct := shaped.distinct
  within := shaped.within
  layout := shaped.layout
  states := shaped.states
  bounded := shaped.bounded
  children := compiled
  parameters := shaped.parameters
  terminals := shaped.terminals partition
  observers j observer isObserver here := here ▸ shaped.observers j observer isObserver

end Shaped

/-! ### States -/

omit [Field F] [F64 F] in
theorem elementStateOffsets_returns (small : (children.map CompiledDefinition.stateCount).sum < 2 ^ 64) :
    ∃ offsets total, elementStateOffsets children = some (offsets, total) := by
  have general : ∀ (step : List Nat × Nat → CompiledDefinition F → Option (List Nat × Nat)),
      (∀ offsets next child, step (offsets, next) child = if next + child.stateCount < 2 ^ 64 then
        some (offsets ++ [next], next + child.stateCount) else none) →
      ∀ (children : List (CompiledDefinition F)) (offsets : List Nat) (next : Nat),
        next + (children.map CompiledDefinition.stateCount).sum < 2 ^ 64 →
        ∃ offsets' total, children.foldlM step (offsets, next) = some (offsets', total) := by
    intro step isStep children
    induction children with
    | nil => exact fun offsets next _ => ⟨offsets, next, rfl⟩
    | cons child children ih =>
      intro offsets next small
      rw [List.map_cons, List.sum_cons] at small
      rw [List.foldlM_cons, isStep, if_pos (by omega)]
      exact ih _ _ (by omega)
  exact general _ (fun _ _ _ => rfl) children [] 0 (by omega)

omit [Field F] [F64 F] in
/-- Every state of a composite is one of a child. -/
theorem stateOffset_covers {elements : List (Element F)} {s : Nat} (below : s < registry.stateOffset elements) :
    ∃ (e : Nat) (element : Element F) (t : Nat), elements[e]? = some element ∧ t < registry.statesOf element ∧
      s = registry.stateOffset (elements.take e) + t := by
  induction elements generalizing s with
  | nil => exact absurd below (Nat.not_lt_zero s)
  | cons element elements ih =>
    have split : registry.stateOffset (element :: elements) = registry.statesOf element + registry.stateOffset elements := by
      simp [DefinitionRegistry.stateOffset, DefinitionRegistry.statesOf]
    by_cases first : s < registry.statesOf element
    · exact ⟨0, element, s, rfl, first, by simp [DefinitionRegistry.stateOffset]⟩
    · obtain ⟨e, other, t, isOther, inside, same⟩ := ih (show s - registry.statesOf element < _ by omega)
      refine ⟨e + 1, other, t, isOther, inside, ?_⟩
      have next : registry.stateOffset ((element :: elements).take (e + 1)) =
          registry.statesOf element + registry.stateOffset (elements.take e) := by
        simp [DefinitionRegistry.stateOffset, DefinitionRegistry.statesOf]
      omega

/-! ### Composites -/

section Composites

variable {partitions : List (CompiledPartitionTemplate F)} {offsets : List Nat} {total : Nat}

/-- A partition of a composite was compiled from those of its children. -/
structure PartitionCompiled (registry : DefinitionRegistry F) (latch : F → F → F → Prop) (definition : DeviceDefinition F)
    (circuit : Circuit F) (children : List (CompiledDefinition F)) (offsets : List Nat) (p : Nat)
    (compiled : CompiledPartitionTemplate F) : Prop where
  compiles : compiled.Compiles registry latch definition p
  writes : ∃ partition : DevicePartitionId, partition.index = p ∧
    compiled.Writes registry definition circuit children offsets partition
  composed : compiled.ComposedOf registry definition circuit children p

/-- A state that a child's partition writes is one of an element, and of the partition that it is mapped to. -/
theorem Composable.among_read {p : Nat} (plan : Composable registry latch definition circuit children p)
    (run : elementStateOffsets children = some (offsets, total)) {i : Nat}
    (among : StateAmong children offsets (definition.childPlaces registry circuit p)
      CompiledPartitionTemplate.definitionStateWrites i) :
    ∃ place ∈ definition.childPlaces registry circuit p, ∃ element child whole template,
      circuit.elements[place.1]? = some element ∧ registry.get element.definition = some child ∧
      children[place.1]? = some whole ∧ whole.partitions[place.2]? = some template ∧
      ∃ state ∈ template.definitionStateWrites, Id.index state < registry.statesOf element ∧
        i = registry.stateOffset (circuit.elements.take place.1) + Id.index state := by
  obtain ⟨place, member, compiled, offset, isPlace, state, inWrites, rfl⟩ := among
  obtain ⟨element, child, template, isElement, isChild, isTemplate, compiles, -, isPlace'⟩ :=
    plan.place_read run (DeviceDefinition.mem_places member)
  obtain ⟨rfl, rfl⟩ := Prod.mk.inj (Option.some.inj (isPlace.symm.trans isPlace'))
  obtain ⟨whole, isWhole, isPartition⟩ := Option.bind_eq_some_iff.mp isTemplate
  obtain ⟨entry, -, isState⟩ := (compiles.writes state).mp inWrites
  refine ⟨place, member, element, child, whole, compiled, isElement, isChild, isWhole, isPartition, state, inWrites, ?_, rfl⟩
  rw [DefinitionRegistry.statesOf, isChild]
  exact compiles.states.2 state (List.mem_of_getElem? isState)

/-- The partitions of a composite write every state, each its own. -/
theorem Shaped.compiled (shaped : Shaped registry definition circuit)
    (children' : ChildrenCompiled registry latch circuit.elements children)
    (run : elementStateOffsets children = some (offsets, total)) (counted : partitions.length = definition.partitionCount)
    (each : ∀ (p : Nat) compiled, partitions[p]? = some compiled →
      PartitionCompiled registry latch definition circuit children offsets p compiled)
    {initializers : List (DefinitionStateInitializer F)} (stateCount : initializers.length = definition.stateCount)
    (transitions : List (FailedTickStateTransition F)) :
    CompiledDefinition.Compiles registry latch definition ⟨partitions, initializers, transitions⟩ where
  counted := counted
  bounded := counted ▸ shaped.partitions
  stateCount := stateCount
  partitions p compiled read := (each p compiled read).compiles
  writers p q template other isTemplate isOther state inTemplate inOther := by
    obtain ⟨partition, rfl, writes⟩ := (each p template isTemplate).writes
    obtain ⟨partition', rfl, writes'⟩ := (each q other isOther).writes
    obtain ⟨place, member, element, child, whole, inner, isElement, isChild, isWhole, isInner, s, inInner, below, same⟩ :=
      (shaped.composable children' partition.index).among_read run ((writes state).mp inTemplate).2.2
    obtain ⟨place', member', element', child', whole', inner', isElement', isChild', isWhole', isInner', s', inInner', below',
      same'⟩ := (shaped.composable children' partition'.index).among_read run ((writes' state).mp inOther).2.2
    obtain ⟨sameElement, sameState⟩ := stateOffset_unique isElement isElement' below below' (same.symm.trans same')
    obtain rfl : s = s' := Id.ext' sameState
    rw [← sameElement] at isWhole'
    obtain rfl := Option.some.inj (isWhole.symm.trans isWhole')
    obtain ⟨_, _, _, atWhole, _, _, compiles, _⟩ := related_read children' (List.getElem?_eq_some_iff.mp isWhole).1
    obtain rfl := Option.some.inj (isWhole.symm.trans atWhole)
    have samePlace : place = place' :=
      Prod.ext sameElement (compiles.writers _ _ _ _ isInner isInner' s inInner inInner')
    -- one place has one partition of the layout
    obtain ⟨k, atK, mapped⟩ := DeviceDefinition.mem_childPlaces.mp member
    obtain ⟨k', atK', mapped'⟩ := DeviceDefinition.mem_childPlaces.mp member'
    have sameIndex : k = k' := (List.getElem?_inj (List.getElem?_eq_some_iff.mp atK).1
      (circuit.places_nodup registry)).mp (by rw [atK, atK', samePlace])
    rw [sameIndex, mapped'] at mapped
    exact (Option.some.inj mapped).symm
  covered s below := by
    rw [shaped.states] at below
    obtain ⟨e, element, t, isElement, inside, rfl⟩ := stateOffset_covers below
    have inChildren : e < children.length := by
      rw [← children'.length_eq]
      exact (List.getElem?_eq_some_iff.mp isElement).1
    obtain ⟨element', whole, isElement', isWhole, child, isChild, compiles, -⟩ := related_read children' inChildren
    obtain rfl := Option.some.inj (isElement.symm.trans isElement')
    rw [DefinitionRegistry.statesOf, isChild] at inside
    obtain ⟨inner, isInner, state, inInner, rfl⟩ := compiles.covered t inside
    obtain ⟨p, isPartition⟩ := List.mem_iff_getElem?.mp isInner
    have listed : (e, p) ∈ (circuit.places registry).map Prod.fst :=
      Circuit.mem_places.mpr ⟨element, child, isElement, isChild, compiles.counted ▸ (List.getElem?_eq_some_iff.mp isPartition).1⟩
    obtain ⟨k, atK⟩ := List.mem_iff_getElem?.mp listed
    have inLayout : k < definition.elementPartitions.length := by
      rw [shaped.layout, ← List.length_map]
      exact (List.getElem?_eq_some_iff.mp atK).1
    have isPart := List.getElem?_eq_getElem inLayout
    have inPartitions : (Id.index definition.elementPartitions[k]) < partitions.length :=
      counted ▸ shaped.mapped _ (List.getElem_mem inLayout)
    have isCompiled := List.getElem?_eq_getElem inPartitions
    obtain ⟨partition, samePartition, writes⟩ := (each _ _ isCompiled).writes
    have member : (e, p) ∈ definition.childPlaces registry circuit partition.index :=
      DeviceDefinition.mem_childPlaces.mpr ⟨k, atK, by rw [isPart, samePartition, Option.map_some]⟩
    obtain ⟨_, _, template, -, -, isTemplate, -, -, isPlace⟩ :=
      (shaped.composable children' partition.index).place_read run listed
    rw [isWhole] at isTemplate
    obtain rfl := Option.some.inj (isPartition.symm.trans isTemplate)
    obtain ⟨entry, -, isState⟩ := ((compiles.partitions p inner isPartition).writes state).mp inInner
    rw [← shaped.states] at below
    refine ⟨_, List.getElem_mem inPartitions, ⟨registry.stateOffset (circuit.elements.take e) + Id.index state,
      below.trans_le shaped.bounded.1⟩, (writes _).mpr ⟨below, ?_, ?_⟩, rfl⟩
    · exact ⟨(e, p), member, inner, _, isPlace, state, List.mem_of_getElem? isState, rfl⟩
    · exact ⟨(e, p), member, inner, _, isPlace, state, inInner, rfl⟩

/-- The partitions of a composite are compiled one after another. -/
theorem compilePartitions_meets (exact : F64.ExactField F) (shaped : Shaped registry definition circuit)
    (children' : ChildrenCompiled registry latch circuit.elements children)
    (run : elementStateOffsets children = some (offsets, total)) :
    (Call.pushEach (fun _ parentPartitionIndex => do
      let parentPartition ← Call.expect (Id.ofIndex? parentPartitionIndex)
      compileCompositePartition definition circuit parentPartition children offsets) []
      (List.range definition.partitionCount) ()).Meets False
      (fun partitions _ => partitions.length = definition.partitionCount ∧ ∀ (p : Nat) compiled,
        partitions[p]? = some compiled → PartitionCompiled registry latch definition circuit children offsets p compiled)
      fun error _ => error = .template .idExhausted := by
  suffices run : (Call.pushEach (fun _ parentPartitionIndex => do
      let parentPartition ← Call.expect (Id.ofIndex? parentPartitionIndex)
      compileCompositePartition definition circuit parentPartition children offsets) []
      (List.range definition.partitionCount) ()).Meets False
      (fun partitions _ => partitions.length = (List.range definition.partitionCount).length ∧ ∀ (p : Nat) compiled,
        partitions[p]? = some compiled → PartitionCompiled registry latch definition circuit children offsets p compiled)
      fun error _ => error = .template .idExhausted by rwa [List.length_range] at run
  refine Call.pushEach_meets (fun seen done _ => done.length = seen.length ∧ ∀ (p : Nat) compiled,
    done[p]? = some compiled → PartitionCompiled registry latch definition circuit children offsets p compiled) ?_
    ⟨rfl, by simp⟩
  rintro seen p rest done _ split ⟨length, each⟩
  have read : (List.range definition.partitionCount)[seen.length]? = some p := by
    rw [← split, List.getElem?_append_right le_rfl, Nat.sub_self]
    rfl
  obtain ⟨below, same⟩ := List.getElem?_eq_some_iff.mp read
  rw [List.length_range] at below
  rw [List.getElem_range] at same
  subst same
  have isPartition : (Id.ofIndex? seen.length : Option DevicePartitionId) =
      some ⟨seen.length, below.trans_le shaped.partitions⟩ := Id.ofIndex?_eq_some.mpr rfl
  rw [isPartition, Call.expect_some_bind]
  refine (compileCompositePartition_meets exact (shaped.composable children' _) run).mono id ?_ fun _ _ failed => failed
  rintro compiled _ ⟨compiles, writes, composed⟩
  refine ⟨by rw [List.length_append, List.length_append, length]; rfl, fun q other isOther => ?_⟩
  rcases read_concat isOther with ⟨earlier, -⟩ | ⟨rfl, rfl⟩
  · exact each q other earlier
  · rw [length]
    exact ⟨compiles, ⟨_, rfl, writes⟩, composed⟩

/-- A composite is compiled where its children are. -/
theorem compileComposite_meets (exact : F64.ExactField F) (shaped : Shaped registry definition circuit)
    {compile : DeviceDefinition F → Compile (CompiledDefinition F)}
    (compiles : ∀ element ∈ circuit.elements, ∀ child, registry.get (Element.definition element) = some child →
      (compile child ()).Meets False (fun compiled _ => CompiledDefinition.Compiles registry latch child compiled)
        fun error _ => error = .template .idExhausted) :
    (compileComposite compile registry definition circuit ()).Meets False
      (fun made _ => CompiledDefinition.Compiles registry latch definition ⟨made.1, made.2.1, made.2.2⟩)
      fun error _ => error = .template .idExhausted := by
  have each : (Call.pushEach (fun _ element => do
      let childDefinition ← Call.expect (registry.get (Element.definition element))
      compile childDefinition) [] circuit.elements ()).Meets False
      (fun children _ => ChildrenCompiled registry latch circuit.elements children)
      fun error _ => error = .template .idExhausted := by
    refine Call.pushEach_meets (fun seen done _ => ChildrenCompiled registry latch seen done) ?_ .nil
    rintro seen element rest done _ split compiled
    have member : element ∈ circuit.elements := split ▸ List.mem_append_right _ List.mem_cons_self
    obtain ⟨child, isChild, parameters⟩ := shaped.elements element member
    rw [isChild, Call.expect_some_bind]
    refine (compiles element member child isChild).mono id ?_ fun _ _ failed => failed
    rintro inner _ isCompiled
    exact List.rel_append compiled (.cons ⟨child, isChild, isCompiled, parameters⟩ .nil)
  unfold compileComposite
  refine Call.meets_bind (each.mono id ?_ fun _ _ failed => failed)
  rintro children _ children'
  have counts : (children.map CompiledDefinition.stateCount).sum = definition.stateCount := by
    rw [(shaped.composable children' 0).stateCounts, shaped.states]
    rfl
  have small : (children.map CompiledDefinition.stateCount).sum < 2 ^ 64 := by
    rw [counts]
    exact shaped.bounded.1.trans_lt (by decide)
  obtain ⟨offsets, total, run⟩ := elementStateOffsets_returns small
  rw [run, Call.expect_some_bind]
  refine Call.meets_bind ((compilePartitions_meets exact shaped children' run).mono id ?_ fun _ _ failed => failed)
  rintro partitions _ ⟨counted, each⟩
  refine shaped.compiled children' run counted each ?_ _
  rw [List.length_flatMap, ← counts]
  rfl

end Composites

/-! ### Definitions -/

/-- What is compiled can be made into a definition. -/
theorem CompiledDefinition.Compiles.new_returns {compiled : CompiledDefinition F}
    (compiles : CompiledDefinition.Compiles registry latch definition compiled) :
    CompiledDefinition.new compiled.partitions compiled.stateInitializers compiled.failedTickTransitions () = .ok compiled () := by
  have stateCount : compiled.stateInitializers.length = definition.stateCount := compiles.stateCount
  refine CompiledDefinition.new_returns _ compiles.bounded (fun template member state inWrites => ?_) compiles.writers
    fun s below => compiles.covered s (stateCount ▸ below)
  obtain ⟨p, read⟩ := List.mem_iff_getElem?.mp member
  have partition := compiles.partitions p template read
  obtain ⟨entry, -, isState⟩ := (partition.writes state).mp inWrites
  exact stateCount ▸ partition.states.2 state (List.mem_of_getElem? isState)

theorem PrimitiveElementKind.compiles (exact : F64.ExactArithmetic F) (kind : PrimitiveElementKind) (fuel : Nat) :
    ∃ compiled, CompiledDefinition.compile registry (fuel + 1) kind.definition () = .ok compiled () ∧
      CompiledDefinition.Compiles registry latch kind.definition compiled := by
  have initializers : (primitiveStateInitializers kind : List (DefinitionStateInitializer F)).length = kind.stateCount := by
    cases kind <;> rfl
  by_cases single : kind = .tickDelay
  · subst single
    obtain ⟨first, second, run, isFirst, isSecond, writesFirst, writesSecond⟩ : ∃ first second,
        compileTickDelayPartitions (tickDelay.definition : DeviceDefinition F) () = .ok [first, second] () ∧
        CompiledPartitionTemplate.Compiles registry latch tickDelay.definition 0 first ∧
        CompiledPartitionTemplate.Compiles registry latch tickDelay.definition 1 second ∧
        first.definitionStateWrites.map Id.index = [0] ∧ second.definitionStateWrites = [] :=
      compileTickDelayPartitions_returns exact
    have pair : ∀ (p : Nat) template, [first, second][p]? = some template →
        p = 0 ∧ template = first ∨ p = 1 ∧ template = second := by
      intro p template read
      rcases p with _ | _ | p
      · exact Or.inl ⟨rfl, (Option.some.inj read).symm⟩
      · exact Or.inr ⟨rfl, (Option.some.inj read).symm⟩
      · cases read
    have made : CompiledDefinition.Compiles registry latch tickDelay.definition
        ⟨[first, second], primitiveStateInitializers tickDelay, primitiveFailedTickTransitions tickDelay⟩ := by
      refine ⟨?_, Nat.le_of_ble_eq_true rfl, initializers, fun p template read => ?_,
        fun p q template other isTemplate isOther state inTemplate inOther => ?_, fun s below => ?_⟩
      · show 2 = tickDelay.partitionLayout.2.partitionCount
        decide
      · rcases pair p template read with ⟨rfl, rfl⟩ | ⟨rfl, rfl⟩
        · exact isFirst
        · exact isSecond
      · have own : ∀ (p : Nat) template, [first, second][p]? = some template → ∀ state ∈ template.definitionStateWrites, p = 0 := by
          intro p template read state member
          rcases pair p template read with ⟨rfl, -⟩ | ⟨-, rfl⟩
          · rfl
          · rw [writesSecond] at member
            cases member
        exact (own p template isTemplate state inTemplate).trans (own q other isOther state inOther).symm
      · have zero : s ∈ first.definitionStateWrites.map Id.index := by
          rw [writesFirst]
          exact List.mem_singleton.mpr (Nat.lt_one_iff.mp below)
        obtain ⟨state, member, number⟩ := List.mem_map.mp zero
        exact ⟨first, List.mem_cons_self, state, member, number⟩
    refine ⟨_, ?_, made⟩
    unfold CompiledDefinition.compile
    rw [definition_body]
    dsimp only
    rw [if_pos rfl, Call.bind_ok run]
    exact made.new_returns
  · obtain ⟨partition, run, compiles, writes⟩ : ∃ partition,
        compilePrimitivePartition (kind.definition : DeviceDefinition F) kind () = .ok partition () ∧
        CompiledPartitionTemplate.Compiles registry latch kind.definition 0 partition ∧
        partition.definitionStateWrites.map Id.index = List.range kind.stateCount :=
      compilePrimitivePartition_returns exact single
    have only : ∀ (p : Nat) template, [partition][p]? = some template → p = 0 ∧ partition = template := by
      intro p template read
      have here : p = 0 := Nat.lt_one_iff.mp (List.getElem?_eq_some_iff.mp read).1
      subst here
      exact ⟨rfl, Option.some.inj read⟩
    have made : CompiledDefinition.Compiles registry latch kind.definition
        ⟨[partition], primitiveStateInitializers kind, primitiveFailedTickTransitions kind⟩ := by
      refine ⟨(kind.partitionCount_single single).symm, Nat.le_of_ble_eq_true rfl, initializers, fun p template read => ?_,
        fun p q template other isTemplate isOther _ _ _ => ?_, fun s below => ?_⟩
      · obtain ⟨rfl, rfl⟩ := only p template read
        exact compiles
      · exact (only p template isTemplate).1.trans (only q other isOther).1.symm
      · have listed : s ∈ partition.definitionStateWrites.map Id.index := writes ▸ List.mem_range.mpr below
        obtain ⟨state, member, number⟩ := List.mem_map.mp listed
        exact ⟨partition, List.mem_singleton_self _, state, member, number⟩
    refine ⟨_, ?_, made⟩
    unfold CompiledDefinition.compile
    rw [kind.definition_body]
    dsimp only
    rw [if_neg single, Call.bind_ok run]
    exact made.new_returns

/-- A registry of primitives and of composites of earlier definitions. -/
def DefinitionRegistry.Layered (registry : DefinitionRegistry F) : Prop :=
  ∀ id definition, registry.get id = some definition → (∃ kind : PrimitiveElementKind, definition = kind.definition) ∨
    ∃ circuit, Shaped registry definition circuit ∧
      ∀ element ∈ circuit.elements, (Element.definition element).index < id.index

/-- Every definition of a registry is compiled to what its laws say, where only numbers can be exhausted. -/
theorem CompiledDefinition.compile_meets (exact : F64.ExactArithmetic F) (layered : registry.Layered) (fuel : Nat)
    {id : DefinitionId} (found : registry.get id = some definition) (enough : id.index < fuel) :
    (CompiledDefinition.compile registry fuel definition ()).Meets False
      (fun compiled _ => CompiledDefinition.Compiles registry latch definition compiled)
      fun error _ => error = .template .idExhausted := by
  induction fuel generalizing id definition with
  | zero => exact absurd enough (Nat.not_lt_zero _)
  | succ fuel ih =>
    rcases layered id definition found with ⟨kind, rfl⟩ | ⟨circuit, shaped, earlier⟩
    · obtain ⟨compiled, run, compiles⟩ := kind.compiles exact fuel
      exact .of_ok run compiles
    · have composite := compileComposite_meets exact.toExactField shaped fun element member child isChild =>
        ih isChild ((earlier element member).trans_le (Nat.lt_succ_iff.mp enough))
      unfold CompiledDefinition.compile
      rw [shaped.body]
      dsimp only
      refine Call.meets_bind (composite.mono (fun failed => failed) ?_ fun _ _ failed => failed)
      rintro ⟨partitions, initializers, transitions⟩ _ compiles
      exact .of_ok compiles.new_returns compiles

end Hynergy
