import Hynergy.Model.ForwardedParameters

/-!
# Relations between parameters

The builder checks a relation between two parameters of a primitive where an element gives all of
them as literals. Every other primitive inside a definition is loose: what its parameters become is
known only when a device has its values.
-/

namespace Hynergy

variable {F : Type} [F64 F]

namespace PrimitiveElementKind

/-- `validate_parameters`. The second option is the panic of a parameter without a constraint. -/
def validateParameters (self : PrimitiveElementKind) (parameters : List F) :
    Option (Except PrimitiveParameterError Unit) :=
  if parameters.length ≠ self.parameterCount then
    some (.error (.wrongParameterCount self.parameterCount parameters.length))
  else
    validateFrom 0 parameters
where
  validateFrom (index : Nat) : List F → Option (Except PrimitiveParameterError Unit)
    | [] => some (self.validateParameterRelations parameters)
    | value :: rest =>
      match self.parameterConstraint index with
      | none => none
      | some constraints =>
        match constraints.validate value with
        | .error source => some (.error (.invalidParameter index source))
        | .ok () => validateFrom (index + 1) rest

theorem validateFrom_ok {self : PrimitiveElementKind} {parameters : List F} {index : Nat} {rest : List F} :
    validateParameters.validateFrom self parameters index rest = some (.ok ()) ↔
      (∀ i v, rest[i]? = some v → ∃ c : ParameterConstraints F,
        self.parameterConstraint (index + i) = some c ∧ c.validate v = .ok ()) ∧
      self.validateParameterRelations parameters = .ok () := by
  induction rest generalizing index with
  | nil => simp [validateParameters.validateFrom]
  | cons value rest ih =>
    rw [validateParameters.validateFrom]
    constructor
    · intro run
      cases known : (self.parameterConstraint index : Option (ParameterConstraints F)) with
      | none => simp [known] at run
      | some constraints =>
        rw [known] at run
        dsimp only at run
        cases valid : constraints.validate value with
        | error source => simp [valid] at run
        | ok _ =>
          rw [valid] at run
          obtain ⟨others, related⟩ := ih.mp run
          refine ⟨fun i v read => ?_, related⟩
          cases i with
          | zero =>
            obtain rfl := Option.some.inj read
            exact ⟨constraints, known, valid⟩
          | succ i =>
            rw [show index + (i + 1) = index + 1 + i by omega]
            exact others i v read
    · rintro ⟨each, related⟩
      obtain ⟨constraints, known, valid⟩ := each 0 value rfl
      rw [Nat.add_zero] at known
      rw [known]
      dsimp only
      rw [valid]
      refine ih.mpr ⟨fun i v read => ?_, related⟩
      have later := each (i + 1) v read
      rwa [show index + (i + 1) = index + 1 + i by omega] at later

/-- The relation between two parameters holds. -/
def Related (self : PrimitiveElementKind) (parameters : List F) : Prop :=
  ∀ greater lesser g l, self.parameterRelation = some (greater, lesser) → parameters[greater]? = some g →
    parameters[lesser]? = some l → F64.le g l = false

theorem validateParameterRelations_ok {self : PrimitiveElementKind} {parameters : List F} :
    self.validateParameterRelations parameters = .ok () ↔
      parameters.length = self.parameterCount ∧ self.Related parameters := by
  unfold validateParameterRelations
  by_cases count : parameters.length = self.parameterCount
  · rw [if_neg (not_not.mpr count), and_iff_right count]
    constructor
    · intro run greater lesser g l relation readG readL
      rw [relation] at run
      dsimp only at run
      rw [readG, readL] at run
      cases less : F64.le g l with
      | false => rfl
      | true => simp [less] at run
    · intro related
      split
      · rfl
      · rename_i greater lesser relation
        split
        · rename_i g l readG readL
          rw [related greater lesser g l relation readG readL]
          rfl
        · rfl
  · simp [count]

/-- Values validate when each is accepted and the relation between them holds. -/
theorem validateParameters_ok {self : PrimitiveElementKind} {parameters : List F} :
    self.validateParameters parameters = some (.ok ()) ↔
      AllAccepted self.parameterConstraints parameters ∧ self.Related parameters := by
  unfold validateParameters
  by_cases count : parameters.length = self.parameterCount
  · rw [if_neg (not_not.mpr count), validateFrom_ok, validateParameterRelations_ok]
    constructor
    · rintro ⟨each, -, related⟩
      refine ⟨⟨count.trans self.constraints_length.symm, fun i c v readC readV => ?_⟩, related⟩
      obtain ⟨c', readC', valid⟩ := each i v readV
      rw [Nat.zero_add] at readC'
      obtain rfl := Option.some.inj (readC.symm.trans readC')
      exact valid
    · rintro ⟨accepted, related⟩
      refine ⟨fun i v readV => ?_, count, related⟩
      have inside : i < (self.parameterConstraints : List (ParameterConstraints F)).length :=
        accepted.length ▸ (List.getElem?_eq_some_iff.mp readV).1
      have readC := List.getElem?_eq_getElem inside
      exact ⟨_, by rw [Nat.zero_add]; exact readC, accepted.valid i _ v readC readV⟩
  · rw [if_pos count]
    constructor
    · rintro ⟨⟩
    · rintro ⟨accepted, -⟩
      exact absurd (accepted.length.trans self.constraints_length) count

end PrimitiveElementKind

/-! ### Loose primitives -/

/-- A primitive inside a definition whose relation the builder does not check: the definition is the
primitive's, or an element forwards a parameter to it. -/
inductive Loose (registry : DefinitionRegistry F) :
    DeviceDefinition F → List F → PrimitiveElementKind → List F → Prop
  | device {definition : DeviceDefinition F} {values : List F} {kind : PrimitiveElementKind}
      (body : definition.body = .primitive kind) : Loose registry definition values kind values
  | element {definition child : DeviceDefinition F} {circuit : Circuit F} {element : Element F}
      {values leaf : List F} {kind : PrimitiveElementKind} (body : definition.body = .composite circuit)
      (member : element ∈ circuit.elements) (known : registry.get element.definition = some child)
      (primitive : child.body = .primitive kind)
      (forwards : DeviceDefinitionBuilder.literals? element.parameters = none)
      (resolved : element.parameters.mapM (ValueRef.resolve values) = some leaf) :
      Loose registry definition values kind leaf
  | inside {definition child : DeviceDefinition F} {circuit nested : Circuit F} {element : Element F}
      {values inner leaf : List F} {kind : PrimitiveElementKind} (body : definition.body = .composite circuit)
      (member : element ∈ circuit.elements) (known : registry.get element.definition = some child)
      (composite : child.body = .composite nested)
      (resolved : element.parameters.mapM (ValueRef.resolve values) = some inner)
      (loose : Loose registry child inner kind leaf) : Loose registry definition values kind leaf

omit [F64 F] in
theorem Loose.instance {registry : DefinitionRegistry F} {definition : DeviceDefinition F} {values leaf : List F}
    {kind : PrimitiveElementKind} (h : Loose registry definition values kind leaf) :
    Instance registry definition values kind leaf := by
  induction h with
  | device body => exact .primitive body
  | element body member known primitive _ resolved => exact .element body member known resolved (.primitive primitive)
  | inside body member known _ resolved _ ih => exact .element body member known resolved ih

omit [F64 F] in
theorem literals_resolve {references : List (ValueRef F)} {values literal inner : List F}
    (read : DeviceDefinitionBuilder.literals? references = some literal)
    (resolved : references.mapM (ValueRef.resolve values) = some inner) : inner = literal := by
  induction references generalizing literal inner with
  | nil =>
    obtain rfl := Option.some.inj read
    obtain rfl := Option.some.inj resolved
    rfl
  | cons reference references ih =>
    rw [List.mapM_cons] at resolved
    obtain ⟨value, first, resolved⟩ := Option.bind_eq_some_iff.mp resolved
    obtain ⟨rest, others, resolved⟩ := Option.bind_eq_some_iff.mp resolved
    obtain rfl := Option.some.inj resolved
    cases reference with
    | parameter id => cases read
    | literal given =>
      rw [DeviceDefinitionBuilder.literals?] at read
      obtain ⟨tail, readRest, rfl⟩ := Option.map_eq_some_iff.mp read
      obtain rfl := Option.some.inj first
      rw [ih readRest others]

/-- What is not loose was checked. -/
theorem Instance.loose_or_related {registry : DefinitionRegistry F} (reached : registry.Reached)
    {definition : DeviceDefinition F} {values leaf : List F} {kind : PrimitiveElementKind}
    (h : Instance registry definition values kind leaf) (checked : DefinitionChecked registry definition) :
    Loose registry definition values kind leaf ∨ kind.Related leaf := by
  induction h with
  | primitive body => exact Or.inl (.device body)
  | @element definition child circuit element values inner leaf kind body member known resolved inside ih =>
    cases checked with
    | primitive kind' => cases body
    | composite body' elements =>
      obtain rfl := DeviceBody.composite.inj (body.symm.trans body')
      obtain ⟨child', here⟩ := elements element member
      obtain rfl := Option.some.inj (here.known.symm.trans known)
      cases childBody : child'.body with
      | composite nested =>
        exact (ih (reached.checked _ _ known)).imp_left fun loose =>
          .inside body member known childBody resolved loose
      | primitive kind' =>
        cases inside with
        | element body'' => cases childBody.symm.trans body''
        | primitive body'' =>
          obtain rfl := DeviceBody.primitive.inj (childBody.symm.trans body'')
          cases literal : DeviceDefinitionBuilder.literals? element.parameters with
          | none => exact Or.inl (.element body member known childBody literal resolved)
          | some given =>
            obtain rfl := literals_resolve literal resolved
            exact Or.inr (PrimitiveElementKind.validateParameterRelations_ok.mp
              (here.relations _ _ childBody literal)).2

/-- Later registrations add no primitive to a definition. -/
theorem Loose.restrict {registry next : DefinitionRegistry F} (reached : registry.Reached)
    (grown : next.Extends registry) {definition : DeviceDefinition F} {values leaf : List F}
    {kind : PrimitiveElementKind} (h : Loose next definition values kind leaf)
    (checked : DefinitionChecked registry definition) : Loose registry definition values kind leaf := by
  have before : ∀ {definition : DeviceDefinition F} {circuit : Circuit F} {element : Element F}
      {child : DeviceDefinition F}, DefinitionChecked registry definition → definition.body = .composite circuit →
      element ∈ circuit.elements → next.get element.definition = some child →
      registry.get element.definition = some child := by
    intro definition circuit element child checked body member known
    cases checked with
    | primitive kind => cases body
    | composite body' elements =>
      obtain rfl := DeviceBody.composite.inj (body.symm.trans body')
      obtain ⟨child', here⟩ := elements element member
      rw [here.known, ← known]
      exact (grown _ _ here.known).symm
  induction h with
  | device body => exact .device body
  | element body member known primitive forwards resolved =>
    exact .element body member (before checked body member known) primitive forwards resolved
  | inside body member known composite resolved _ ih =>
    have here := before checked body member known
    exact .inside body member here composite resolved (ih (reached.checked _ _ here))

end Hynergy
