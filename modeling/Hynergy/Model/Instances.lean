import Hynergy.Model.Building
import Hynergy.Model.CallInversion
import Hynergy.Model.ParameterSubset
import Hynergy.Model.PartitionLayout

/-!
# Parameters of primitive instances

A composite passes literals and its own parameters on to its elements. What the builder checks at
every element makes the parameters of every primitive inside a definition obey the primitive's
constraints.
-/

namespace Hynergy

variable {F : Type}

/-! ### What the builder checks -/

section Checks

variable [F64 F]

/-- The value of an element's parameter against its constraints, in a definition with such parameters. -/
def Passes (own : List (ParameterConstraints F)) (constraints : ParameterConstraints F) : ValueRef F → Prop
  | .literal value => constraints.validate value = .ok ()
  | .parameter parameter => ∃ provided, own[parameter.index]? = some provided ∧ provided.isSubsetOf constraints = true

theorem Passes.append {own more : List (ParameterConstraints F)} {constraints : ParameterConstraints F}
    {value : ValueRef F} (h : Passes own constraints value) : Passes (own ++ more) constraints value := by
  cases value with
  | literal value => exact h
  | parameter parameter =>
    obtain ⟨provided, read, subset⟩ := h
    refine ⟨provided, ?_, subset⟩
    rw [List.getElem?_append_left (List.getElem?_eq_some_iff.mp read).1, read]

/-- An element that `validate_element` accepts. -/
structure ElementChecked (registry : DefinitionRegistry F) (own : List (ParameterConstraints F))
    (element : Element F) (child : DeviceDefinition F) : Prop where
  known : registry.get element.definition = some child
  count : element.parameters.length = child.parameters.length
  passes : ∀ entry ∈ element.parameters.zip child.parameters, Passes own entry.2 entry.1
  relations : ∀ kind values, child.body = .primitive kind →
    DeviceDefinitionBuilder.literals? element.parameters = some values →
    kind.validateParameterRelations values = .ok ()

theorem ElementChecked.append {registry : DefinitionRegistry F} {own more : List (ParameterConstraints F)}
    {element : Element F} {child : DeviceDefinition F} (h : ElementChecked registry own element child) :
    ElementChecked registry (own ++ more) element child :=
  ⟨h.known, h.count, fun entry member => (h.passes entry member).append, h.relations⟩

theorem ElementChecked.extend {registry next : DefinitionRegistry F} {own : List (ParameterConstraints F)}
    {element : Element F} {child : DeviceDefinition F} (h : ElementChecked registry own element child)
    (grown : next.Extends registry) : ElementChecked next own element child :=
  ⟨grown _ _ h.known, h.count, h.passes, h.relations⟩

namespace DeviceDefinitionBuilder

theorem validateParameter_ok {definitionId : DefinitionId} {index : Nat} {reference : ValueRef F}
    {constraint : ParameterConstraints F} {self after : DeviceDefinitionBuilder F} {value : Unit}
    (run : validateParameter definitionId index reference constraint self = .ok value after) :
    after = self ∧ Passes self.paramConstraints constraint reference := by
  have run : (Call.get >>= _) self = .ok value after := run
  rw [Call.get_bind] at run
  cases reference with
  | literal literal => exact (Call.ofExcept_eq_ok run).symm
  | parameter id =>
    obtain ⟨provided, mid, found, rest⟩ := Call.bind_eq_ok run
    obtain ⟨read, same⟩ := Call.okOr_eq_ok found
    subst mid
    obtain ⟨subset, same⟩ := Call.rejectIf_eq_ok rest
    exact ⟨same, provided, read, by simpa using subset⟩

theorem validateElement_ok {element : Element F} {self after : DeviceDefinitionBuilder F} {value : Unit}
    (run : validateElement element self = .ok value after) :
    after = self ∧ ∃ child, ElementChecked self.registry self.paramConstraints element child := by
  unfold validateElement at run
  rw [Call.get_bind] at run
  obtain ⟨child, s₁, found, run⟩ := Call.bind_eq_ok run
  obtain ⟨known, same⟩ := Call.okOr_eq_ok found
  subst s₁
  obtain ⟨_, s₂, terminals, run⟩ := Call.bind_eq_ok run
  obtain ⟨-, same⟩ := Call.rejectIf_eq_ok terminals
  subst s₂
  obtain ⟨_, s₃, counted, run⟩ := Call.bind_eq_ok run
  obtain ⟨count, same⟩ := Call.rejectIf_eq_ok counted
  subst s₃
  obtain ⟨_, s₄, nodes, run⟩ := Call.bind_eq_ok run
  obtain ⟨same, -⟩ := Call.forM_eq_ok (P := fun _ => True)
    (fun item v after ok => ⟨(Call.rejectIf_eq_ok ok).2, trivial⟩) nodes
  subst s₄
  obtain ⟨_, s₅, parameters, run⟩ := Call.bind_eq_ok run
  obtain ⟨same, passes⟩ := Call.forM_eq_ok
    (P := fun item : (ValueRef F × ParameterConstraints F) × Nat => Passes self.paramConstraints item.1.2 item.1.1)
    (fun item v after ok => validateParameter_ok ok) parameters
  subst s₅
  have checked : ∀ entry ∈ element.parameters.zip child.parameters, Passes self.paramConstraints entry.2 entry.1 := by
    intro entry member
    obtain ⟨index, read⟩ := List.mem_iff_getElem?.mp member
    exact passes (entry, index) (List.mem_zipIdx_iff_getElem?.mpr read)
  cases body : child.body with
  | composite circuit =>
    rw [body] at run
    refine ⟨(Outcome.ok.inj run).2.symm, child, known, by simpa using count, checked, fun kind values is => ?_⟩
    rw [body] at is
    cases is
  | primitive kind =>
    rw [body] at run
    dsimp only at run
    cases literal : literals? element.parameters with
    | none =>
      rw [literal] at run
      refine ⟨(Outcome.ok.inj run).2.symm, child, known, by simpa using count, checked, fun _ values _ literal' => ?_⟩
      rw [literal] at literal'
      cases literal'
    | some values =>
      rw [literal] at run
      obtain ⟨holds, same⟩ := Call.ofExcept_eq_ok run
      refine ⟨same, child, known, by simpa using count, checked, fun kind' values' is literal' => ?_⟩
      obtain rfl := DeviceBody.primitive.inj (body.symm.trans is)
      obtain rfl := Option.some.inj (literal.symm.trans literal')
      exact holds

/-- Validating keeps any property of the state. -/
theorem validateElement_keeps {P : DeviceDefinitionBuilder F → Prop} (element : Element F) :
    Call.Preserves P (validateElement element) := by
  refine .get_bind fun self _ => (Call.Preserves.okOr _ _).bind fun definition => (Call.Preserves.rejectIf _ _).bind
    fun _ => (Call.Preserves.rejectIf _ _).bind fun _ => (Call.Preserves.forM fun _ => .rejectIf _ _).bind fun _ =>
    (Call.Preserves.forM fun _ => ?_).bind fun _ => ?_
  · refine .get_bind fun _ _ => ?_
    split
    · exact .ofExcept _ _
    · exact (Call.Preserves.okOr _ _).bind fun _ => .rejectIf _ _
  · split
    · exact .pure _
    · split
      · exact .pure _
      · exact .ofExcept _ _

/-- Every element was checked. -/
def Checked (builder : DeviceDefinitionBuilder F) : Prop :=
  ∀ element ∈ builder.elements, ∃ child, ElementChecked builder.registry builder.paramConstraints element child

theorem addElement_checked (element : Element F) : Call.Preserves Checked (addElement element) := by
  intro self checked
  refine Call.meets_bind ?_
  have keeps := @validateElement_keeps F _ Checked element self checked
  cases run : validateElement element self with
  | ok value after =>
    obtain ⟨rfl, child, here⟩ := validateElement_ok run
    show ((Call.get >>= _) after).Meets True _ _
    rw [Call.get_bind]
    cases (Id.ofIndex? after.elements.length : Option (Id .element)) with
    | none => exact checked
    | some id =>
      rw [Call.okOr_some_bind, Call.set_bind]
      intro other member
      rcases List.mem_append.mp member with earlier | last
      · exact checked other earlier
      · obtain rfl := List.mem_singleton.mp last
        exact ⟨child, here⟩
  | err error after =>
    rw [run] at keeps
    exact keeps
  | panic => exact trivial

theorem Checked.congr {self next : DeviceDefinitionBuilder F} (h : self.Checked) (registry : next.registry = self.registry)
    (elements : next.elements = self.elements) {more : List (ParameterConstraints F)}
    (parameters : next.paramConstraints = self.paramConstraints ++ more) : next.Checked := by
  intro element member
  rw [elements] at member
  rw [registry, parameters]
  obtain ⟨child, here⟩ := h element member
  exact ⟨child, here.append⟩

theorem allocateNode_checked : Call.Preserves Checked (allocateNode : Build F NodeId) := by
  refine .get_bind fun self checked => ?_
  split
  · exact .throw _
  · exact (Call.Preserves.rejectIf _ _).bind fun _ =>
      .bind (.set (checked.congr rfl rfl (List.append_nil _).symm)) fun _ => .pure _

theorem pushObserver_checked (observer : PendingDefinitionObserver) :
    Call.Preserves Checked (pushObserver observer : Build F DefinitionObserverId) :=
  .get_bind fun _ checked => (Call.Preserves.okOr _ _).bind fun _ =>
    .bind (.set (checked.congr rfl rfl (List.append_nil _).symm)) fun _ => .pure _

theorem Operation.apply_checked (operation : Operation F) : Call.Preserves Checked operation.apply := by
  cases operation with
  | addNode => exact allocateNode_checked.bind fun _ => .pure _
  | addTerminal =>
    refine .bind (allocateNode_checked.bind fun node => ?_) fun _ => .pure _
    exact .bind (.modify fun self checked => checked.congr rfl rfl (List.append_nil _).symm) fun _ => .pure _
  | addParameter parameter =>
    refine .bind ?_ fun _ => .pure _
    exact .get_bind fun _ checked => (Call.Preserves.okOr _ _).bind fun _ =>
      .bind (.set (checked.congr rfl rfl rfl)) fun _ => .pure _
  | addElement element => exact (addElement_checked element).bind fun _ => .pure _
  | addVoltageObserver positive negative =>
    refine .bind ?_ fun _ => .pure _
    exact .bind (.get_bind fun _ _ => .rejectIf _ _) fun _ => .bind (.get_bind fun _ _ => .rejectIf _ _) fun _ =>
      pushObserver_checked _
  | addChildObserver element observer =>
    refine .bind ?_ fun _ => .pure _
    exact .get_bind fun _ _ => (Call.Preserves.okOr _ _).bind fun _ => (Call.Preserves.expect _).bind fun _ =>
      (Call.Preserves.okOr _ _).bind fun _ => pushObserver_checked _

theorem Reached.checked {base : DefinitionRegistry F} {builder : DeviceDefinitionBuilder F}
    (reached : Reached base builder) : builder.Checked := by
  induction reached with
  | new => exact fun element member => absurd member List.not_mem_nil
  | call _ operation leaves ih => exact operation.apply_checked.leaves ih leaves

end DeviceDefinitionBuilder

/-! ### Registered definitions -/

/-- A registered definition is a primitive's, or its elements were checked. -/
inductive DefinitionChecked (registry : DefinitionRegistry F) : DeviceDefinition F → Prop
  | primitive (kind : PrimitiveElementKind) : DefinitionChecked registry kind.definition
  | composite {definition : DeviceDefinition F} {circuit : Circuit F} (body : definition.body = .composite circuit)
      (elements : ∀ element ∈ circuit.elements, ∃ child,
        ElementChecked registry definition.paramConstraints element child) : DefinitionChecked registry definition

theorem DefinitionChecked.extend {registry next : DefinitionRegistry F} {definition : DeviceDefinition F}
    (h : DefinitionChecked registry definition) (grown : next.Extends registry) : DefinitionChecked next definition := by
  cases h with
  | primitive kind => exact .primitive kind
  | composite body elements =>
    refine .composite body fun element member => ?_
    obtain ⟨child, here⟩ := elements element member
    exact ⟨child, here.extend grown⟩

theorem DefinitionRegistry.Reached.checked {registry : DefinitionRegistry F} (reached : registry.Reached) :
    ∀ id definition, registry.get id = some definition → DefinitionChecked registry definition := by
  induction reached with
  | new =>
    intro id definition found
    obtain ⟨kind, rfl⟩ := DefinitionRegistry.get_new found
    exact .primitive kind
  | register _ built extends' calls build registered ih _ =>
    intro id definition found
    have grown := DefinitionRegistry.register_extends registered
    rcases DefinitionRegistry.get_registered registered found with earlier | ⟨-, rfl⟩
    · exact (ih id definition earlier).extend grown
    · obtain ⟨-, -, -, -, body, -, parameters⟩ := DeviceDefinitionBuilder.buildDefinition_ok build
      obtain rfl := calls.registry_eq
      refine .composite body fun element member => ?_
      obtain ⟨child, here⟩ := calls.checked element member
      exact ⟨child, parameters ▸ here.extend (grown.trans extends')⟩

/-! ### Instances -/

omit [F64 F] in
/-- The value passed for a parameter, where the parameters have such values. -/
def ValueRef.resolve (values : List F) (reference : ValueRef F) : Option F :=
  match reference with
  | .literal value => some value
  | .parameter id => values[id.index]?

/-- A primitive inside a definition whose parameters have such values, with the values of its own. -/
inductive Instance (registry : DefinitionRegistry F) :
    DeviceDefinition F → List F → PrimitiveElementKind → List F → Prop
  | primitive {definition : DeviceDefinition F} {values : List F} {kind : PrimitiveElementKind}
      (body : definition.body = .primitive kind) : Instance registry definition values kind values
  | element {definition child : DeviceDefinition F} {circuit : Circuit F} {element : Element F}
      {values inner leaf : List F} {kind : PrimitiveElementKind} (body : definition.body = .composite circuit)
      (member : element ∈ circuit.elements) (known : registry.get element.definition = some child)
      (resolved : element.parameters.mapM (ValueRef.resolve values) = some inner)
      (inside : Instance registry child inner kind leaf) : Instance registry definition values kind leaf

/-- A value is accepted by constraints from which the given ones follow. -/
def Backed (constraints : ParameterConstraints F) (value : F) : Prop :=
  ∃ own : ParameterConstraints F, own.Accepts value ∧ (own = constraints ∨ own.Within constraints)

theorem Backed.within (ordered : F64.Ordered F) {provided required : ParameterConstraints F} {value : F}
    (h : Backed provided value) (within : provided.Within required) : Backed required value := by
  obtain ⟨own, accepts, rfl | implied⟩ := h
  · exact ⟨own, accepts, Or.inr within⟩
  · exact ⟨own, accepts, Or.inr (implied.trans ordered within)⟩

/-- Without a range for the reciprocal, what is backed is accepted. -/
theorem Backed.accepts (ordered : F64.Ordered F) {constraints : ParameterConstraints F} {value : F}
    (h : Backed constraints value) (plain : constraints.reciprocalRange = none) : constraints.Accepts value := by
  obtain ⟨own, accepts, rfl | within⟩ := h
  · exact accepts
  · refine (within.accepts_iff ordered accepts).mpr fun is => ?_
    rw [plain] at is
    cases is

theorem PrimitiveElementKind.no_reciprocalRange (kind : PrimitiveElementKind) :
    ∀ constraints ∈ (kind.parameterConstraints : List (ParameterConstraints F)), constraints.reciprocalRange = none := by
  cases kind <;> simp [PrimitiveElementKind.parameterConstraints]

/-- Values that are as many as the constraints, each backed by its own. -/
structure AllBacked (constraints : List (ParameterConstraints F)) (values : List F) : Prop where
  length : values.length = constraints.length
  backed : ∀ (i : Nat) c v, constraints[i]? = some c → values[i]? = some v → Backed c v

/-- What an element passes on is backed. -/
theorem ElementChecked.backed (ordered : F64.Ordered F) {registry : DefinitionRegistry F}
    {own : List (ParameterConstraints F)} {element : Element F} {child : DeviceDefinition F}
    (h : ElementChecked registry own element child) {values inner : List F} (all : AllBacked own values)
    (resolved : element.parameters.mapM (ValueRef.resolve values) = some inner) : AllBacked child.parameters inner := by
  have each : ∀ (references : List (ValueRef F)) (inner : List F),
      references.mapM (ValueRef.resolve values) = some inner → inner.length = references.length ∧
        ∀ (i : Nat) r v, references[i]? = some r → inner[i]? = some v → r.resolve values = some v := by
    intro references
    induction references with
    | nil =>
      intro inner run
      obtain rfl := Option.some.inj run
      exact ⟨rfl, by simp⟩
    | cons reference references ih =>
      intro inner run
      rw [List.mapM_cons] at run
      obtain ⟨value, first, run⟩ := Option.bind_eq_some_iff.mp run
      obtain ⟨rest, others, run⟩ := Option.bind_eq_some_iff.mp run
      obtain rfl := Option.some.inj run
      obtain ⟨length, same⟩ := ih rest others
      refine ⟨by rw [List.length_cons, List.length_cons, length], fun i r v readR readV => ?_⟩
      cases i with
      | zero =>
        obtain rfl := Option.some.inj readR
        obtain rfl := Option.some.inj readV
        exact first
      | succ i => exact same i r v readR readV
  obtain ⟨length, same⟩ := each element.parameters inner resolved
  refine ⟨length.trans h.count, fun i c v readC readV => ?_⟩
  have inside : i < element.parameters.length := length ▸ (List.getElem?_eq_some_iff.mp readV).1
  have readR := List.getElem?_eq_getElem inside
  have passes := h.passes (element.parameters[i], c) (by
    refine List.mem_iff_getElem?.mpr ⟨i, ?_⟩
    rw [List.getElem?_zip_eq_some]
    exact ⟨readR, readC⟩)
  have value := same i _ v readR readV
  generalize element.parameters[i] = reference at passes value
  cases reference with
  | literal literal =>
    obtain rfl := Option.some.inj value
    exact ⟨c, ParameterConstraints.validate_iff.mp passes, Or.inl rfl⟩
  | parameter parameter =>
    obtain ⟨provided, read, subset⟩ := passes
    exact (all.backed parameter.index provided v read value).within ordered (ParameterConstraints.isSubsetOf_iff.mp subset)

theorem PrimitiveElementKind.constraints_length (self : PrimitiveElementKind) :
    (self.parameterConstraints : List (ParameterConstraints F)).length = self.parameterCount := by
  cases self <;> rfl

/-- The values of a primitive inside a definition obey the primitive's constraints. -/
theorem Instance.accepts (ordered : F64.Ordered F) {registry : DefinitionRegistry F} (reached : registry.Reached)
    {definition : DeviceDefinition F} {values leaf : List F} {kind : PrimitiveElementKind}
    (h : Instance registry definition values kind leaf) (checked : DefinitionChecked registry definition)
    (all : AllBacked definition.parameters values) :
    leaf.length = kind.parameterCount ∧ ∀ k v, leaf[k]? = some v →
      ∃ c : ParameterConstraints F, kind.parameterConstraint k = some c ∧ c.validate v = .ok () := by
  induction h with
  | primitive body =>
    cases checked with
    | composite body' elements =>
      rw [body] at body'
      cases body'
    | primitive kind' =>
      obtain rfl := DeviceBody.primitive.inj body
      refine ⟨all.length.trans kind'.constraints_length, fun k v read => ?_⟩
      have inside : k < (kind'.parameterConstraints : List (ParameterConstraints F)).length :=
        all.length ▸ (List.getElem?_eq_some_iff.mp read).1
      have readC := List.getElem?_eq_getElem inside
      refine ⟨_, readC, ParameterConstraints.validate_iff.mpr ?_⟩
      exact (all.backed k _ v readC read).accepts ordered (kind'.no_reciprocalRange _ (List.getElem_mem _))
  | element body member known resolved inside ih =>
    cases checked with
    | primitive kind' => cases body
    | composite body' elements =>
      obtain rfl := DeviceBody.composite.inj (body.symm.trans body')
      obtain ⟨child, here⟩ := elements _ member
      obtain rfl := Option.some.inj (here.known.symm.trans known)
      exact ih (reached.checked _ _ known) (here.backed ordered all resolved)

end Checks

end Hynergy
