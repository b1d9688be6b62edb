import Hynergy.Compile.CompositionSlots

/-!
# The children of a composition

Every partition of a child that is mapped to the parent becomes a part, at its place in the layout, and its outputs are
kept for the observers that forward them.
-/

namespace Hynergy

open Lib DefinitionTemplateBuilder

variable {F : Type}

/-! ### What is composed -/

/-- A definition was compiled, and every state has one partition that writes it. -/
structure CompiledDefinition.Compiles [Field F] [F64 F] (registry : DefinitionRegistry F) (latch : F → F → F → Prop)
    (definition : DeviceDefinition F) (compiled : CompiledDefinition F) : Prop where
  counted : compiled.partitions.length = definition.partitionCount
  bounded : compiled.partitions.length ≤ IdKind.partition.bound
  stateCount : compiled.stateCount = definition.stateCount
  partitions : ∀ (p : Nat) template, compiled.partitions[p]? = some template → template.Compiles registry latch definition p
  writers : ∀ (p q : Nat) template other, compiled.partitions[p]? = some template → compiled.partitions[q]? = some other →
    ∀ state ∈ template.definitionStateWrites, state ∈ other.definitionStateWrites → p = q
  covered : ∀ s < definition.stateCount, ∃ template ∈ compiled.partitions, ∃ state ∈ template.definitionStateWrites,
    Id.index state = s

namespace DeviceDefinition

/-- The terminals on the node are of the partition. -/
def Inside (definition : DeviceDefinition F) (partition node : Nat) : Prop :=
  ∀ (i : Nat) there part, definition.terminals[i]? = some there → Id.index there = node →
    definition.terminalPartitions[i]? = some part → Id.index part = partition

/-- The node is that of a terminal of the partition, or of an element's in it. -/
def Touches (registry : DefinitionRegistry F) (definition : DeviceDefinition F) (circuit : Circuit F) (partition : Nat)
    (node : NodeId) : Prop :=
  (∃ i ∈ definition.terminalsOf partition, definition.terminals[i]? = some node) ∨
    ∃ place ∈ definition.childPlaces registry circuit partition, ∃ element child, circuit.elements[place.1]? = some element ∧
      registry.get element.definition = some child ∧ ∃ t ∈ child.terminalsOf place.2, element.terminals[t]? = some node

/-- What an observer shows is in the partition. -/
def Observes (registry : DefinitionRegistry F) (definition : DeviceDefinition F) (circuit : Circuit F) (partition : Nat) :
    DefinitionObserverSource → Prop
  | .voltage positive negative => definition.Touches registry circuit partition positive ∧
      definition.Touches registry circuit partition negative
  | .current _ _ => False
  | .child element observer => ∃ there child observed, circuit.elements[element.index]? = some there ∧
      registry.get there.definition = some child ∧ child.observer observer = some observed ∧
      (element.index, observed.partition.index) ∈ definition.childPlaces registry circuit partition

section Places

variable {registry : DefinitionRegistry F} {definition : DeviceDefinition F} {circuit : Circuit F} {partition : Nat}
  {place : Nat × Nat}

theorem mem_childPlaces : place ∈ definition.childPlaces registry circuit partition ↔ ∃ k : Nat,
    ((circuit.places registry).map Prod.fst)[k]? = some place ∧
      definition.elementPartitions[k]?.map Id.index = some partition := by
  rw [Circuit.places, List.zipIdx_map_fst]
  constructor
  · intro member
    obtain ⟨⟨_, k⟩, there, rfl⟩ := List.mem_map.mp member
    obtain ⟨listed, here⟩ := List.mem_filter.mp there
    exact ⟨k, List.mem_zipIdx_iff_getElem?.mp listed, of_decide_eq_true here⟩
  · rintro ⟨k, read, here⟩
    exact List.mem_map.mpr ⟨(place, k), List.mem_filter.mpr ⟨List.mem_zipIdx_iff_getElem?.mpr read, decide_eq_true here⟩, rfl⟩

theorem mem_places (member : place ∈ definition.childPlaces registry circuit partition) :
    place ∈ (circuit.places registry).map Prod.fst := by
  obtain ⟨k, read, -⟩ := mem_childPlaces.mp member
  exact List.mem_of_getElem? read

end Places

end DeviceDefinition

/-- What the registry checked of a composite, whose children were compiled. -/
structure Composable [Field F] [F64 F] (registry : DefinitionRegistry F) (latch : F → F → F → Prop)
    (definition : DeviceDefinition F) (circuit : Circuit F) (children : List (CompiledDefinition F)) (partition : Nat) :
    Prop where
  body : definition.body = .composite circuit
  paired : definition.terminalPartitions.length = definition.terminals.length
  distinct : (definition.terminals.map Id.index).Nodup
  within : ∀ node ∈ definition.terminals, Id.index node < circuit.nodeCount
  layout : definition.elementPartitions.length = (circuit.places registry).length
  states : definition.stateCount = registry.stateOffset circuit.elements
  bounded : definition.stateCount ≤ IdKind.state.bound ∧ definition.terminals.length ≤ IdKind.terminal.bound ∧
    definition.observers.length ≤ IdKind.observer.bound
  children : List.Forall₂ (fun element compiled => ∃ child, registry.get (Element.definition element) = some child ∧
    CompiledDefinition.Compiles registry latch child compiled ∧
    element.parameters.length = child.parameters.length) circuit.elements children
  parameters : ∀ element ∈ circuit.elements, ∀ parameter, .parameter parameter ∈ element.parameters →
    Id.index parameter < definition.parameters.length
  terminals : ∀ place ∈ definition.childPlaces registry circuit partition, ∀ element child,
    circuit.elements[place.1]? = some element → registry.get element.definition = some child →
      ∀ t ∈ child.terminalsOf place.2, ∃ node, element.terminals[t]? = some node ∧ node.index < circuit.nodeCount ∧
        definition.Inside partition node.index
  observers : ∀ (j : Nat) observer, definition.observers[j]? = some observer → observer.partition.index = partition →
    definition.Observes registry circuit partition observer.source

/-- The places are those of the partitions of the elements. -/
theorem Circuit.mem_places {registry : DefinitionRegistry F} {circuit : Circuit F} {place : Nat × Nat} :
    place ∈ (circuit.places registry).map Prod.fst ↔ ∃ element child, circuit.elements[place.1]? = some element ∧
      registry.get (Element.definition element) = some child ∧ place.2 < child.partitionCount := by
  rw [Circuit.places, List.zipIdx_map_fst]
  constructor
  · intro member
    obtain ⟨⟨element, e⟩, listed, inside⟩ := List.mem_flatMap.mp member
    obtain ⟨p, below, rfl⟩ := List.mem_map.mp inside
    rw [List.mem_range] at below
    cases isChild : registry.get element.definition with
    | none =>
      rw [isChild] at below
      exact absurd below (Nat.not_lt_zero p)
    | some child =>
      rw [isChild] at below
      exact ⟨element, child, List.mem_zipIdx_iff_getElem?.mp listed, isChild, below⟩
  · rintro ⟨element, child, isElement, isChild, below⟩
    refine List.mem_flatMap.mpr ⟨(element, place.1), List.mem_zipIdx_iff_getElem?.mpr isElement, List.mem_map.mpr
      ⟨place.2, ?_, rfl⟩⟩
    rw [List.mem_range, isChild]
    exact below

/-! ### Where the states of the children start -/

section Offsets

/-- The states of an element start where those of the elements before it end. -/
theorem elementStateOffsets_read {children : List (CompiledDefinition F)} {offsets : List Nat} {total : Nat}
    (run : elementStateOffsets children = some (offsets, total)) {i : Nat} (below : i < children.length) :
    offsets[i]? = some ((children.take i).map CompiledDefinition.stateCount).sum := by
  have general : ∀ (step : List Nat × Nat → CompiledDefinition F → Option (List Nat × Nat)),
      (∀ offsets next child, step (offsets, next) child = if next + child.stateCount < 2 ^ 64 then
        some (offsets ++ [next], next + child.stateCount) else none) →
      ∀ (children : List (CompiledDefinition F)) (offsets offsets' : List Nat) (next total : Nat),
        children.foldlM step (offsets, next) = some (offsets', total) →
        offsets' = offsets ++ (List.range children.length).map fun i =>
          next + ((children.take i).map CompiledDefinition.stateCount).sum := by
    intro step isStep children
    induction children with
    | nil =>
      intro offsets offsets' next total run
      obtain ⟨rfl, -⟩ := Prod.mk.inj (Option.some.inj run)
      simp
    | cons child children ih =>
      intro offsets offsets' next total run
      rw [List.foldlM_cons, isStep] at run
      split at run
      · rw [ih _ _ _ _ run, List.length_cons, List.range_succ_eq_map, List.map_cons, List.map_map, List.append_assoc]
        simp [Function.comp_def, Nat.add_assoc]
      · cases run
  rw [general _ (fun _ _ _ => rfl) children [] offsets 0 total run]
  simp [below]

variable {registry : DefinitionRegistry F} {elements : List (Element F)}

/-- How many states the child of an element has. -/
def DefinitionRegistry.statesOf (registry : DefinitionRegistry F) (element : Element F) : Nat :=
  ((registry.get element.definition).map DeviceDefinition.stateCount).getD 0

theorem stateOffset_le {i j : Nat} {element : Element F} (read : elements[i]? = some element) (before : i < j) :
    registry.stateOffset (elements.take i) + registry.statesOf element ≤ registry.stateOffset (elements.take j) := by
  obtain ⟨inside, rfl⟩ := List.getElem?_eq_some_iff.mp read
  have parts : elements.take j = elements.take i ++ elements[i] :: (elements.take j).drop (i + 1) := by
    have inTake : i < (elements.take j).length := by
      rw [List.length_take]
      omega
    have here : (elements.take j)[i] = elements[i] := List.getElem_take
    rw [← here, List.cons_getElem_drop_succ]
    have first : elements.take i = (elements.take j).take i := by rw [List.take_take, Nat.min_eq_left before.le]
    rw [first, List.take_append_drop]
  rw [parts]
  simp only [DefinitionRegistry.stateOffset, DefinitionRegistry.statesOf, List.map_append, List.map_cons, List.sum_append,
    List.sum_cons]
  omega

/-- A state of the composite is that of one child. -/
theorem stateOffset_unique {i j s t : Nat} {element other : Element F} (atI : elements[i]? = some element)
    (atJ : elements[j]? = some other) (inS : s < registry.statesOf element) (inT : t < registry.statesOf other)
    (same : registry.stateOffset (elements.take i) + s = registry.stateOffset (elements.take j) + t) : i = j ∧ s = t := by
  rcases Nat.lt_trichotomy i j with before | rfl | after
  · have : registry.stateOffset (elements.take i) + registry.statesOf element ≤ registry.stateOffset (elements.take j) :=
      stateOffset_le atI before
    omega
  · exact ⟨rfl, by omega⟩
  · have : registry.stateOffset (elements.take j) + registry.statesOf other ≤ registry.stateOffset (elements.take i) :=
      stateOffset_le atJ after
    omega

end Offsets

/-! ### The partitions of the children -/

namespace Composable

variable [Field F] [F64 F] {registry : DefinitionRegistry F} {latch : F → F → F → Prop} {definition : DeviceDefinition F}
  {circuit : Circuit F} {children : List (CompiledDefinition F)} {partition : Nat}

/-- The children's partitions are those of the elements. -/
theorem childPartitions_eq (h : Composable registry latch definition circuit children partition) :
    childPartitions children = circuit.places registry := by
  have general : ∀ (n : Nat), (children.zipIdx n).flatMap (fun entry => (List.range entry.1.partitionCount).map fun partition =>
      (entry.2, partition)) = (circuit.elements.zipIdx n).flatMap fun entry =>
        (List.range (((registry.get entry.1.definition).map DeviceDefinition.partitionCount).getD 0)).map fun partition =>
          (entry.2, partition) := by
    have related := h.children
    clear h
    generalize circuit.elements = elements at related
    induction related with
    | nil => exact fun _ => rfl
    | cons here _ ih =>
      intro n
      obtain ⟨child, isChild, compiles, -⟩ := here
      rw [List.zipIdx_cons, List.zipIdx_cons, List.flatMap_cons, List.flatMap_cons, ih]
      simp only [CompiledDefinition.partitionCount, isChild, compiles.counted, Option.map_some, Option.getD_some]
  rw [childPartitions, Circuit.places, general 0]

theorem stateCounts (h : Composable registry latch definition circuit children partition) :
    children.map CompiledDefinition.stateCount = circuit.elements.map registry.statesOf := by
  refine ((congrFun (congrFun List.forall₂_eq_eq_eq _) _).mp ?_).symm
  rw [List.forall₂_map_left_iff, List.forall₂_map_right_iff]
  refine h.children.imp fun element compiled ⟨child, isChild, compiles, _⟩ => ?_
  rw [DefinitionRegistry.statesOf, isChild, compiles.stateCount]
  rfl

/-- A place has its element, and a partition of the element's child. -/
theorem place_read (h : Composable registry latch definition circuit children partition) {offsets : List Nat} {total : Nat}
    (run : elementStateOffsets children = some (offsets, total)) {place : Nat × Nat}
    (member : place ∈ (circuit.places registry).map Prod.fst) :
    ∃ element child compiled, circuit.elements[place.1]? = some element ∧ registry.get element.definition = some child ∧
      (children[place.1]?.bind fun child => child.partitions[place.2]?) = some compiled ∧
      compiled.Compiles registry latch child place.2 ∧ element.parameters.length = child.parameters.length ∧
      childPartition children offsets place = some (compiled, registry.stateOffset (circuit.elements.take place.1)) := by
  obtain ⟨e, p⟩ := place
  obtain ⟨element, there, isElement, isThere, count⟩ := Circuit.mem_places.mp member
  have inElements := (List.getElem?_eq_some_iff.mp isElement).1
  have inChildren : e < children.length := h.children.length_eq ▸ inElements
  obtain ⟨element', compiled, atElement, atChild, child, isChild, compiles, parameters⟩ := related_read h.children inChildren
  obtain rfl := Option.some.inj (isElement.symm.trans atElement)
  obtain rfl := Option.some.inj (isChild.symm.trans isThere)
  rw [← compiles.counted] at count
  have isTemplate := List.getElem?_eq_getElem count
  have isPartition : (Id.ofIndex? p : Option DevicePartitionId) = some ⟨p, count.trans_le compiles.bounded⟩ :=
    Id.ofIndex?_eq_some.mpr rfl
  have offset : offsets[e]? = some (registry.stateOffset (circuit.elements.take e)) := by
    rw [elementStateOffsets_read run inChildren, DefinitionRegistry.stateOffset, List.map_take, List.map_take, h.stateCounts]
    rfl
  refine ⟨element, child, _, isElement, isChild, ?_, compiles.partitions p _ isTemplate, parameters, ?_⟩
  · rw [atChild]
    exact isTemplate
  · rw [childPartition, atChild, offset, isPartition]
    show (compiled.partitions[p]?.bind fun template => some (template, _)) = _
    rw [isTemplate]
    rfl

end Composable

/-! ### Observers that forward -/

/-- The observer shows what an observer of a child shows. -/
def DefinitionObserver.Forwards (parent : DefinitionObserver) (partition : DevicePartitionId) (element : Nat)
    (observer : DefinitionObserverId) : Prop :=
  parent.partition = partition ∧ ∃ there, parent.source = .child there observer ∧ there.index = element

namespace Composition

variable {made : Composition F} {partition : DevicePartitionId} {element : Nat}
  {output : DefinitionObserverId × LocalValueId} {parent : DefinitionObserver} {j : Nat}

theorem forward_ok (forwards : parent.Forwards partition element output.1) :
    forward partition element output (parent, j) made =
      .ok () { made with forwardedObserverValues := made.forwardedObserverValues.set j (some output.2) } := by
  obtain ⟨rfl, there, isSource, rfl⟩ := forwards
  unfold forward
  rw [if_neg (not_not.mpr rfl), isSource]
  dsimp only
  rw [if_neg (by simp)]
  rfl

theorem forward_other (other : ¬ parent.Forwards partition element output.1) :
    forward partition element output (parent, j) made = .ok () made := by
  unfold forward
  by_cases elsewhere : parent.partition ≠ partition
  · rw [if_pos elsewhere]
    rfl
  · rw [if_neg elsewhere]
    cases isSource : parent.source with
    | voltage positive negative => rfl
    | current positive negative => rfl
    | child there observer =>
      dsimp only
      rw [if_pos]
      · rfl
      · refine or_iff_not_imp_left.mpr fun here same => other ⟨not_not.mp elsewhere, there, ?_, not_not.mp here⟩
        rw [isSource, same]

/-- The values that are forwarded become others. -/
structure Forwarded (observers : List DefinitionObserver) (made : Composition F) (forwards : Nat → LocalValueId → Prop)
    (after : Composition F) : Prop where
  same : after = { made with forwardedObserverValues := after.forwardedObserverValues }
  length : after.forwardedObserverValues.length = made.forwardedObserverValues.length
  set : ∀ j < observers.length, ∀ value, forwards j value → after.forwardedObserverValues[j]? = some (some value)
  kept : ∀ j : Nat, (∀ value, ¬ forwards j value) → after.forwardedObserverValues[j]? = made.forwardedObserverValues[j]?

theorem zipIdx_split {α : Type} {items : List α} {seen rest : List (α × Nat)} {item : α} {i : Nat}
    (split : seen ++ (item, i) :: rest = items.zipIdx) : i = seen.length ∧ items[i]? = some item := by
  have read : items.zipIdx[seen.length]? = some (item, i) := by
    rw [← split, List.getElem?_append_right le_rfl, Nat.sub_self]
    rfl
  rw [List.getElem?_zipIdx, Nat.zero_add] at read
  obtain ⟨there, isThere, same⟩ := Option.map_eq_some_iff.mp read
  obtain ⟨rfl, rfl⟩ := Prod.mk.inj same
  exact ⟨rfl, isThere⟩

/-- One output goes to the observers that forward it. -/
theorem forwardOne_meets {observers : List DefinitionObserver} (length : made.forwardedObserverValues.length = observers.length) :
    (observers.zipIdx.forM (forward partition element output) made).Meets False
      (fun _ after => Forwarded observers made (fun j value => value = output.2 ∧ ∃ parent, observers[j]? = some parent ∧
        parent.Forwards partition element output.1) after)
      fun error _ => error = .idExhausted := by
  suffices run : (observers.zipIdx.forM (forward partition element output) made).Meets False
      (fun _ after => Forwarded observers made (fun j value => j < observers.zipIdx.length ∧ value = output.2 ∧
        ∃ parent, observers[j]? = some parent ∧ parent.Forwards partition element output.1) after)
      fun error _ => error = .idExhausted by
    refine run.mono id ?_ fun _ _ failed => failed
    rintro _ after forwarded
    rw [List.length_zipIdx] at forwarded
    exact ⟨forwarded.same, forwarded.length, fun j below value forwards => forwarded.set j below value ⟨below, forwards⟩,
      fun j none => forwarded.kept j fun value forwards => none value forwards.2⟩
  refine Call.forM_meets (fun seen after => Forwarded observers made (fun j value => j < seen.length ∧ value = output.2 ∧
    ∃ parent, observers[j]? = some parent ∧ parent.Forwards partition element output.1) after) ?_ ?_
  · rintro seen ⟨parent, i⟩ rest state split forwarded
    obtain ⟨rfl, isParent⟩ := zipIdx_split split
    have below := (List.getElem?_eq_some_iff.mp isParent).1
    have inside : seen.length < state.forwardedObserverValues.length := by rw [forwarded.length, length]; exact below
    rw [List.length_append, List.length_singleton]
    by_cases forwards : parent.Forwards partition element output.1
    · rw [forward_ok forwards]
      refine ⟨?_, ?_, fun j within value ⟨before, isValue, other⟩ => ?_, fun j none => ?_⟩
      · rw [forwarded.same]
      · rw [← forwarded.length]
        exact List.length_set
      · by_cases same : seen.length = j
        · subst same
          rw [isValue]
          exact List.getElem?_set_self inside
        · exact (List.getElem?_set_ne same).trans (forwarded.set j within value ⟨by omega, isValue, other⟩)
      · have apart : seen.length ≠ j := by
          rintro rfl
          exact none output.2 ⟨Nat.lt_succ_self _, rfl, parent, isParent, forwards⟩
        refine (List.getElem?_set_ne apart).trans (forwarded.kept j fun value ⟨before, other⟩ => none value ⟨by omega, other⟩)
    · rw [forward_other forwards]
      refine ⟨forwarded.same, forwarded.length, fun j within value ⟨before, isValue, other⟩ => ?_, fun j none => ?_⟩
      · rcases Nat.lt_succ_iff_lt_or_eq.mp before with earlier | rfl
        · exact forwarded.set j within value ⟨earlier, isValue, other⟩
        · obtain ⟨parent', isParent', forwards'⟩ := other
          obtain rfl := Option.some.inj (isParent.symm.trans isParent')
          exact absurd forwards' forwards
      · exact forwarded.kept j fun value ⟨before, other⟩ => none value ⟨by omega, other⟩
  · exact ⟨rfl, rfl, fun j _ value forwards => absurd forwards.1 (Nat.not_lt_zero j), fun _ _ => rfl⟩

/-- The outputs of a child go to the observers that forward them. -/
theorem forward_meets {observers : List DefinitionObserver} {outputs : List (DefinitionObserverId × LocalValueId)}
    (length : made.forwardedObserverValues.length = observers.length) (distinct : (outputs.map Prod.fst).Nodup) :
    (outputs.forM (fun output => observers.zipIdx.forM (forward partition element output)) made).Meets False
      (fun _ after => Forwarded observers made (fun j value => ∃ output ∈ outputs, value = output.2 ∧
        ∃ parent, observers[j]? = some parent ∧ parent.Forwards partition element output.1) after)
      fun error _ => error = .idExhausted := by
  refine Call.forM_meets (fun (seen : List (DefinitionObserverId × LocalValueId)) after =>
    Forwarded observers made (fun j value => ∃ output ∈ seen, value = output.2 ∧
    ∃ parent, observers[j]? = some parent ∧ parent.Forwards partition element output.1) after) ?_ ?_
  · rintro seen output rest state split forwarded
    refine (forwardOne_meets (forwarded.length.trans length)).mono id ?_ fun _ _ failed => failed
    rintro _ after next
    refine ⟨?_, next.length.trans forwarded.length, fun j within value ⟨other, member, isValue, parent, isParent, forwards⟩ => ?_,
      fun j none => ?_⟩
    · rw [next.same, forwarded.same]
    · rcases List.mem_append.mp member with earlier | last
      · rw [next.kept j]
        · exact forwarded.set j within value ⟨other, earlier, isValue, parent, isParent, forwards⟩
        · -- no other output is of the same observer
          rintro _ ⟨-, parent', isParent', forwards'⟩
          obtain rfl := Option.some.inj (isParent.symm.trans isParent')
          obtain ⟨-, there, isSource, -⟩ := forwards
          obtain ⟨-, there', isSource', -⟩ := forwards'
          obtain ⟨-, same⟩ := DefinitionObserverSource.child.inj (isSource.symm.trans isSource')
          rw [← split, List.map_append, List.nodup_append] at distinct
          exact distinct.2.2 _ (List.mem_map_of_mem earlier) _ (List.mem_map_of_mem List.mem_cons_self) same
      · obtain rfl := List.mem_singleton.mp last
        exact next.set j within value ⟨isValue, parent, isParent, forwards⟩
    · rw [next.kept j fun value ⟨isValue, other⟩ => none value ⟨output, by simp, isValue, other⟩]
      exact forwarded.kept j fun value ⟨other, member, rest⟩ => none value ⟨other, List.mem_append_left _ member, rest⟩
  · exact ⟨rfl, rfl, fun j _ value ⟨_, member, _⟩ => absurd member (by simp), fun _ _ => rfl⟩

end Composition

end Hynergy
