import Hynergy.Compile.CompiledRuns

/-!
# Flattened composites

The template of a composite's partition is made of those of its elements' partitions: their matrices and their
right-hand sides add up, and their writes, latches and outputs are its own, where what they read is renamed.
-/

namespace Hynergy

open Lib

variable {F : Type} [Field F] [F64 F]

/-! ### The substitution -/

/-- What stands in a partition of a composite for what an element's partition is given: the unknowns of the nodes for
its terminals, literals and forwarded parameters for its parameters, and its states after those of the elements before. -/
structure PlacedChild.Substituted (registry : DefinitionRegistry F) (circuit : Circuit F) (whole : CompiledPartitionTemplate F)
    (unknownAt : Nat → Option Nat) (item : PlacedChild F) : Prop where
  element : circuit.elements[item.place.1]? = some item.element
  child : registry.get item.element.definition = some item.child
  stamps : item.part.stamps = item.compiled.template.stamps
  terminals : ∀ (u : Nat) info (t : Nat), item.part.stamps.unknowns[u]? = some info → info.terminal? = some t →
    ∃ terminal node, item.compiled.definitionTerminals[t]? = some terminal ∧
      item.element.terminals[Id.index terminal]? = some node ∧ unknownAt node.index = some (item.part.placement.unknown u)
  parameters : ∀ (i : Nat) parameter, item.compiled.definitionParameters[i]? = some parameter →
    ∃ value, item.element.parameters[Id.index parameter]? = some value ∧ ∀ (parameters : Nat → F) reading values,
      Evaluates whole.template.stamps.nodes reading values →
      (∀ (j : Nat) forwarded, whole.definitionParameters[j]? = some forwarded →
        reading.parameter j = parameters (Id.index forwarded)) →
      values (item.part.placement.parameter i) = value.valueIn parameters
  states : ∀ (i : Nat) state, item.compiled.definitionStates[i]? = some state →
    whole.definitionStates[item.part.placement.state i]?.map Id.index =
      some (registry.stateOffset (circuit.elements.take item.place.1) + Id.index state)

/-- A partition of a composite is the sum of the partitions of its elements that are mapped to it. -/
structure CompiledPartitionTemplate.Flattens (whole : CompiledPartitionTemplate F) (registry : DefinitionRegistry F)
    (definition : DeviceDefinition F) (circuit : Circuit F) (children : List (CompiledDefinition F)) (partition : Nat)
    (unknownAt : Nat → Option Nat) (items : List (PlacedChild F)) : Prop where
  places : items.map PlacedChild.place = definition.childPlaces registry circuit partition
  compiled : ∀ item ∈ items,
    (children[item.place.1]?.bind fun child => child.partitions[item.place.2]?) = some item.compiled
  substituted : ∀ item ∈ items, item.Substituted registry circuit whole unknownAt
  -- different nodes have different unknowns, and the rest are the elements' own
  distinct : ∀ n n' u : Nat, unknownAt n = some u → unknownAt n' = some u → n = n'
  exposed : ∀ (t i : Nat) node, (definition.terminalsOf partition)[t]? = some i → definition.terminals[i]? = some node →
    unknownAt (Id.index node) = some t
  unknowns : ∃ nodes : List Nat, (∀ u, u ∈ nodes ↔ ∃ n, unknownAt n = some u) ∧
    (nodes ++ items.flatMap fun item => item.part.own).Perm (List.range whole.template.stamps.unknowns.length)
  values : ∀ reading values, Evaluates whole.template.stamps.nodes reading values → ∀ item ∈ items,
    Evaluates item.part.stamps.nodes (item.part.placement.reading reading values)
      fun i => values (item.part.placement.value i)
  -- at the indicators of a column and of a row, a total is an entry
  matrix : ∀ values unknown rows, whole.template.stamps.matrixTotal values unknown rows =
    (items.map fun item => item.part.stamps.matrixTotal (fun i => values (item.part.placement.value i))
      (fun u => unknown (item.part.placement.unknown u)) fun row => rows (item.part.placement.unknown row)).sum
  rhs : ∀ values rows, whole.template.stamps.rhsTotal values rows =
    (items.map fun item => item.part.stamps.rhsTotal (fun i => values (item.part.placement.value i))
      fun row => rows (item.part.placement.unknown row)).sum
  latched : latchPlaces whole.template.stamps.nodes = items.flatMap fun item => item.part.latchPlaces
  latches : whole.template.stamps.latches = items.flatMap fun item => item.part.latches
  writes : ∀ entry, entry ∈ whole.template.stamps.writes ↔ ∃ item ∈ items, entry ∈ item.part.writes
  counted : whole.template.stamps.outputs.length = (definition.observersOf partition).length
  voltages : ∀ (o j : Nat) observer value positive negative, (definition.observersOf partition)[o]? = some j →
    definition.observers[j]? = some observer → whole.template.stamps.outputs[o]? = some value →
    observer.source = .voltage positive negative → ∃ left right, unknownAt positive.index = some left ∧
      unknownAt negative.index = some right ∧ ∀ reading values, Evaluates whole.template.stamps.nodes reading values →
        values value.index = F64.sub (reading.unknown left) (reading.unknown right)
  forwarded : ∀ (o j : Nat) observer value element inner, (definition.observersOf partition)[o]? = some j →
    definition.observers[j]? = some observer → whole.template.stamps.outputs[o]? = some value →
    observer.source = .child element inner → ∃ item ∈ items, ∃ observed, ∃ output : Nat, ∃ id,
      item.child.observer inner = some observed ∧ item.place = (element.index, observed.partition.index) ∧
      item.compiled.definitionObservers[output]? = some inner ∧ item.part.stamps.outputs[output]? = some id ∧
      value.index = item.part.placement.value id.index

section Parts

variable {whole : Stamps F} {parts : List (Part F)} {nodes : List Nat} {sources : List OutputSource}

omit [F64 F] in
theorem Stamps.matrixTotal_zero (stamps : Stamps F) (values : Nat → F) (rows : Nat → Bool) :
    stamps.matrixTotal values (fun _ => 0) rows = 0 :=
  total_eq_zero fun _ _ _ => mul_zero _

omit [F64 F] in
theorem Stamps.rhsTotal_eq (stamps : Stamps F) (values : Nat → F) (rows : Nat → Bool) :
    stamps.rhsTotal values rows = -stamps.residual values (fun _ => 0) rows := by
  rw [residual, matrixTotal_zero, zero_sub, neg_neg]

/-- Without unknowns the residuals are the right-hand sides. -/
theorem Stamps.MadeOf.rhs_parts (exact : F64.ExactField F) (made : whole.MadeOf parts nodes sources) (values : Nat → F)
    (rows : Nat → Bool) : whole.rhsTotal values rows =
      (parts.map fun part => part.stamps.rhsTotal (fun i => values (part.placement.value i))
        fun row => rows (part.placement.unknown row)).sum := by
  rw [rhsTotal_eq, made.residual_parts exact, ← neg_one_mul, ← List.sum_map_mul_left]
  simp only [rhsTotal_eq, neg_one_mul]

theorem Stamps.MadeOf.matrix_parts (exact : F64.ExactField F) (made : whole.MadeOf parts nodes sources)
    (values unknown : Nat → F) (rows : Nat → Bool) : whole.matrixTotal values unknown rows =
      (parts.map fun part => part.stamps.matrixTotal (fun i => values (part.placement.value i))
        (fun u => unknown (part.placement.unknown u)) fun row => rows (part.placement.unknown row)).sum := by
  have split := made.residual_parts exact values unknown rows
  simp only [residual] at split
  rw [sum_map_sub, made.rhs_parts exact] at split
  exact sub_left_inj.mp split

end Parts

section Composed

variable {registry : DefinitionRegistry F} {definition : DeviceDefinition F} {circuit : Circuit F}
  {children : List (CompiledDefinition F)} {partition : Nat} {made : Composition F} {items : List (PlacedChild F)}
  {nodes : List Nat} {sources : List OutputSource} {whole : CompiledPartitionTemplate F}

/-- The unknown of a node in a composition. -/
def Composition.unknownAt (made : Composition F) (n : Nat) : Option Nat := made.nodeUnknowns[n]?.join.map UnknownIndex.index

omit [Field F] [F64 F] in
theorem Composition.unknownAt_eq {n u : Nat} : made.unknownAt n = some u ↔ made.nodeUnknowns[n]? = some (some ⟨u⟩) := by
  rw [unknownAt, Option.map_eq_some_iff]
  constructor
  · rintro ⟨unknown, there, rfl⟩
    exact Option.join_eq_some_iff.mp there
  · exact fun there => ⟨⟨u⟩, Option.join_eq_some_iff.mpr there, rfl⟩

theorem Composed.substituted (composed : Composed registry circuit children definition partition made items nodes sources)
    (madeOf : made.builder.stamps.MadeOf (items.map PlacedChild.part) nodes sources)
    (same : whole.template.stamps.Same made.builder.stamps) (parameters : whole.definitionParameters = made.definitionParameters)
    (states : whole.definitionStates = made.definitionStates) {item : PlacedChild F} (member : item ∈ items) :
    item.Substituted registry circuit whole made.unknownAt := by
  have fits := composed.fits item member
  have sound := madeOf.sound item.part (List.mem_map_of_mem member)
  refine ⟨fits.element, fits.child, fits.stamps, fun u info t isUnknown isTerminal => ?_, fun i parameter isParameter => ?_,
    fun i state isState => ?_⟩
  · have listed : t ∈ List.range item.part.placement.terminals.length := by
      rw [← sound.stamps.terminals]
      exact List.mem_filterMap.mpr ⟨info, List.mem_of_getElem? isUnknown, isTerminal⟩
    obtain ⟨terminal, unknown, isBound, isPlaced, node, isNode, there⟩ := related_read fits.terminals (List.mem_range.mp listed)
    have place : item.part.placement.terminal t = unknown.index := by simp [Placement.terminal, isPlaced]
    exact ⟨terminal, node, isBound, isNode, Composition.unknownAt_eq.mpr
      (by rw [sound.terminals u info t isUnknown isTerminal, place]; exact there)⟩
  · have inside : i < item.part.placement.parameters.length :=
      fits.parameters.length_eq ▸ (List.getElem?_eq_some_iff.mp isParameter).1
    obtain ⟨parameter', id, isParameter', isPlaced, value, isValue, stands⟩ := related_read fits.parameters inside
    obtain rfl := Option.some.inj (isParameter.symm.trans isParameter')
    have place : item.part.placement.parameter i = id.index := by simp [Placement.parameter, isPlaced]
    refine ⟨value, isValue, fun given reading values evaluates forwarded => ?_⟩
    rw [same.nodes] at evaluates
    rw [place]
    cases value with
    | literal c =>
      have read : made.builder.stamps.nodes[id.index]? = some (.constant c) := stands
      exact evaluates.read read
    | parameter outer =>
      obtain ⟨j, isOuter, read⟩ := composed.parameters.placed _ id stands
      obtain ⟨outer', isForwarded, number⟩ := Option.map_eq_some_iff.mp isOuter
      have value := forwarded j outer' (parameters ▸ isForwarded)
      rw [number] at value
      exact (evaluates.read read).trans value
  · have inside : i < item.part.placement.states.length := fits.states.length_eq ▸ (List.getElem?_eq_some_iff.mp isState).1
    obtain ⟨state', slot, isState', isSlot, there⟩ := related_read fits.states inside
    obtain rfl := Option.some.inj (isState.symm.trans isState')
    have place : item.part.placement.state i = slot.index := by simp [Placement.state, isSlot]
    rw [place, states]
    exact composed.states _ slot there

/-- What was composed is the sum of its parts. -/
theorem Composed.flattens (exact : F64.ExactField F)
    (composed : Composed registry circuit children definition partition made items nodes sources)
    (madeOf : made.builder.stamps.MadeOf (items.map PlacedChild.part) nodes sources)
    (same : whole.template.stamps.Same made.builder.stamps) (parameters : whole.definitionParameters = made.definitionParameters)
    (states : whole.definitionStates = made.definitionStates) :
    whole.Flattens registry definition circuit children partition made.unknownAt items where
  places := composed.places
  compiled item member := (composed.fits item member).compiled
  substituted _ member := composed.substituted madeOf same parameters states member
  distinct n n' u here there :=
    composed.onNodes.distinct n n' ⟨u⟩ (Composition.unknownAt_eq.mp here) (Composition.unknownAt_eq.mp there)
  exposed t i node isTerminal isNode := by
    refine Composition.unknownAt_eq.mpr (composed.onNodes.exposed t (Id.index node) ?_)
    rw [List.getElem?_map, isTerminal, Option.map_some, DeviceDefinition.nodeAt_eq isNode]
  unknowns := by
    refine ⟨nodes, fun u => (composed.onNodes.mem u).trans (exists_congr fun n => Composition.unknownAt_eq.symm), ?_⟩
    have placed := madeOf.unknowns
    rw [List.flatMap_map] at placed
    rw [same.unknowns]
    exact placed
  values reading values evaluates item member :=
    (madeOf.holds item.part (List.mem_map_of_mem member)).evaluates reading values (same.nodes ▸ evaluates)
  matrix values unknown rows := by
    rw [same.matrix, madeOf.matrix_parts exact, List.map_map]
    rfl
  rhs values rows := by
    rw [same.rhs, madeOf.rhs_parts exact, List.map_map]
    rfl
  latched := by
    rw [same.nodes, madeOf.latched, List.flatMap_map]
  latches := by
    rw [same.latches, madeOf.latches, List.flatMap_map]
  writes entry := by
    rw [same.writes, madeOf.writes]
    simp only [List.mem_map, exists_exists_and_eq_and]
  counted := by
    rw [same.outputs, madeOf.counted, composed.counted]
  voltages o j observer value positive negative isO isObserver isValue isSource := by
    rw [same.outputs] at isValue
    have inside : o < sources.length := madeOf.counted ▸ (List.getElem?_eq_some_iff.mp isValue).1
    have isShown := composed.shown o j observer _ isO isObserver (List.getElem?_eq_getElem inside)
    have shows := madeOf.outputs o value _ isValue (List.getElem?_eq_getElem inside)
    rw [isSource] at isShown
    cases shown : sources[o] with
    | part k output =>
      rw [shown] at isShown
      exact isShown.elim
    | difference left right =>
      rw [shown] at isShown shows
      obtain ⟨atLeft, atRight⟩ := isShown
      obtain ⟨-, -, minuend, subtrahend, isDifference, isMinuend, isSubtrahend⟩ := shows
      refine ⟨left, right, Composition.unknownAt_eq.mpr atLeft, Composition.unknownAt_eq.mpr atRight,
        fun reading values evaluates => ?_⟩
      rw [same.nodes] at evaluates
      have first : values minuend.index = reading.unknown left := evaluates.read isMinuend
      have second : values subtrahend.index = reading.unknown right := evaluates.read isSubtrahend
      rw [← first, ← second]
      exact evaluates.read isDifference
  forwarded o j observer value element inner isO isObserver isValue isSource := by
    rw [same.outputs] at isValue
    have inside : o < sources.length := madeOf.counted ▸ (List.getElem?_eq_some_iff.mp isValue).1
    have isShown := composed.shown o j observer _ isO isObserver (List.getElem?_eq_getElem inside)
    have shows := madeOf.outputs o value _ isValue (List.getElem?_eq_getElem inside)
    rw [isSource] at isShown
    cases shown : sources[o] with
    | part k output =>
      rw [shown] at isShown shows
      obtain ⟨item, observed, atK, isObserved, isPlace, isListed⟩ := isShown
      obtain ⟨part, id, atPart, isOutput, isPlaced⟩ := shows
      rw [List.getElem?_map, atK, Option.map_some] at atPart
      obtain rfl := Option.some.inj atPart
      exact ⟨item, List.mem_of_getElem? atK, observed, output, id, isObserved, isPlace, isListed, isOutput, isPlaced⟩
    | difference left right =>
      rw [shown] at isShown
      exact isShown.elim

end Composed

/-! ### Registered composites -/

section Registered

variable {registry : DefinitionRegistry F} {definition : DeviceDefinition F} {circuit : Circuit F}

/-- Whatever a registered composite is compiled to, every partition of it is the sum of those of its elements that are
mapped to it. Where the states of every definition can be numbered, compiling does not panic, and only the numbers of a
template can be exhausted. -/
theorem CompiledDefinition.compile_flattens (exact : F64.ExactArithmetic F) (reached : registry.Reached) {id : DefinitionId}
    (found : registry.get id = some definition) (body : definition.body = .composite circuit) {fuel : Nat}
    (enough : id.index ≤ fuel) :
    (CompiledDefinition.compile registry (fuel + 1) definition ()).Meets (¬ registry.Numerable)
      (fun compiled _ => compiled.partitions.length = definition.partitionCount ∧ ∃ children,
        List.Forall₂ (fun element inner => ∃ child, registry.get (Element.definition element) = some child ∧
          CompiledDefinition.compile registry fuel child () = .ok inner ()) circuit.elements children ∧
        ∀ (p : Nat) whole, compiled.partitions[p]? = some whole →
          ∃ unknownAt items, whole.Flattens registry definition circuit children p unknownAt items)
      fun error _ => registry.Numerable → error = .template .idExhausted := by
  have meets : registry.Numerable → (CompiledDefinition.compile registry (fuel + 1) definition ()).Meets False
      (fun compiled _ => CompiledDefinition.Compiles registry (fun _ _ _ => True) definition compiled)
      fun error _ => error = .template .idExhausted := fun numerable =>
    compile_meets exact (reached.layered numerable) (fuel + 1) found (Nat.lt_succ_of_le enough)
  have inner : ∀ other child made, registry.get other = some child →
      CompiledDefinition.compile registry fuel child () = .ok made () →
      CompiledDefinition.Compiles registry (fun _ _ _ => True) child made :=
    fun _ _ _ known made => compile_ok exact reached fuel known made
  cases run : CompiledDefinition.compile registry (fuel + 1) definition () with
  | ok compiled _ =>
    obtain ⟨compiles, children, each, composed⟩ := compile_composite exact reached inner found body run
    refine ⟨compiles.counted, children, each, fun p whole isWhole => ?_⟩
    obtain ⟨made, items, nodes, sources, composed, madeOf, same, parameters, states⟩ := composed p whole isWhole
    exact ⟨_, items, composed.flattens exact.toExactField madeOf same parameters states⟩
  | err error _ =>
    rw [run] at meets
    exact meets
  | panic =>
    rw [run] at meets
    exact meets

/-- The partitions of a chain of two delays and a load are the sums of those of its elements, which are composites. -/
theorem CompiledDefinition.compile_flattens_delayedChain : ∃ (registry : DefinitionRegistry ℚ) (definition : DeviceDefinition ℚ)
    (circuit : Circuit ℚ), definition.body = .composite circuit ∧ circuit.elements.length = 3 ∧
      definition.partitionCount = 3 ∧ (CompiledDefinition.compile registry 32 definition ()).Meets False
        (fun compiled _ => compiled.partitions.length = definition.partitionCount ∧ ∃ children,
          List.Forall₂ (fun element inner => ∃ child, registry.get (Element.definition element) = some child ∧
            CompiledDefinition.compile registry 31 child () = .ok inner ()) circuit.elements children ∧
          ∀ (p : Nat) whole, compiled.partitions[p]? = some whole →
            ∃ unknownAt items, whole.Flattens registry definition circuit children p unknownAt items)
        fun error _ => error = .template .idExhausted := by
  obtain ⟨registry, id, definition, circuit, reached, numerable, found, enough, three, body, elements⟩ :=
    DefinitionRegistry.reached_delayedChain
  refine ⟨registry, definition, circuit, body, elements, three, ?_⟩
  exact (compile_flattens exactArithmetic_rat reached found body (Nat.le_of_lt_succ enough)).mono
    (fun unnumbered => unnumbered numerable) (fun _ _ flattened => flattened) fun _ _ failed => failed numerable

end Registered

end Hynergy
