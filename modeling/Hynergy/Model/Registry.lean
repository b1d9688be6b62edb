import Hynergy.Model.Definition

/-!
# The definition registry

Definitions are appended and never changed: an id once registered keeps its definition.
-/

namespace Hynergy

variable {F : Type}

inductive RegisterDeviceError where
  | definitionIdExhausted
  | primitiveRegistrationForbidden (kind : PrimitiveElementKind)
  | terminalCountExceedsNodeCount (terminalCount nodeCount : Nat)
  | unknownDefinition (definition : DefinitionId)
  deriving DecidableEq

structure DefinitionRegistry (F : Type) where
  definitions : List (DeviceDefinition F)

namespace DefinitionRegistry

def new [F64 F] : DefinitionRegistry F where
  definitions := PrimitiveElementKind.all.map PrimitiveElementKind.definition

def get (self : DefinitionRegistry F) (id : DefinitionId) : Option (DeviceDefinition F) :=
  self.definitions[id.index]?

def register (self : DefinitionRegistry F) (definition : DeviceDefinition F) :
    Except RegisterDeviceError (DefinitionId × DefinitionRegistry F) :=
  match NonZeroId.ofIndex? self.definitions.length with
  | none => .error .definitionIdExhausted
  | some id =>
    match definition.body with
    | .primitive kind => .error (.primitiveRegistrationForbidden kind)
    | .composite circuit =>
      -- `terminals().len() as u32`
      let terminalCount := definition.terminals.length % 2 ^ 32
      if terminalCount > circuit.nodeCount then
        .error (.terminalCountExceedsNodeCount terminalCount circuit.nodeCount)
      else
        match circuit.elements.find? fun element => (self.get element.definition).isNone with
        | some element => .error (.unknownDefinition element.definition)
        | none => .ok (id, { definitions := self.definitions ++ [definition] })

/-- `next` keeps every definition of `self`. -/
def Extends (next self : DefinitionRegistry F) : Prop :=
  ∀ id definition, self.get id = some definition → next.get id = some definition

theorem Extends.refl (self : DefinitionRegistry F) : self.Extends self := fun _ _ h => h

theorem Extends.trans {a b c : DefinitionRegistry F} (h : c.Extends b) (h' : b.Extends a) :
    c.Extends a := fun id definition found => h id definition (h' id definition found)

theorem register_ok {self next : DefinitionRegistry F} {definition : DeviceDefinition F}
    {id : DefinitionId} (h : self.register definition = .ok (id, next)) :
    id.index = self.definitions.length ∧ next.definitions = self.definitions ++ [definition] ∧
      ∃ circuit, definition.body = .composite circuit ∧
        ∀ element ∈ circuit.elements, ∃ child, self.get element.definition = some child := by
  unfold register at h
  split at h
  · simp at h
  · rename_i newId fits
    split at h
    · simp at h
    · rename_i circuit body
      dsimp only at h
      split at h
      · simp at h
      · split at h
        · simp at h
        · rename_i known
          obtain ⟨rfl, rfl⟩ := Prod.mk.inj (Except.ok.inj h)
          refine ⟨NonZeroId.ofIndex?_eq_some.mp fits, rfl, circuit, body, ?_⟩
          intro element member
          have := List.find?_eq_none.mp known element member
          exact Option.ne_none_iff_exists'.mp (by simpa using this)

theorem register_extends {self next : DefinitionRegistry F} {definition : DeviceDefinition F}
    {id : DefinitionId} (h : self.register definition = .ok (id, next)) : next.Extends self := by
  obtain ⟨-, grown, -⟩ := register_ok h
  intro other found read
  have bound := (List.getElem?_eq_some_iff.mp read).1
  simpa only [get, grown, List.getElem?_append_left bound] using read

/-- A new registry holds exactly the primitives. -/
theorem get_new_definitionId [F64 F] (kind : PrimitiveElementKind) :
    (new : DefinitionRegistry F).get kind.definitionId = some kind.definition := by
  simp only [get, new, PrimitiveElementKind.definitionId, NonZeroId.index_ofIndex,
    List.getElem?_map, PrimitiveElementKind.all_discriminant, Option.map_some]

/-- The terminals of every definition are partitioned. -/
def Partitioned (registry : DefinitionRegistry F) : Prop :=
  ∀ id definition, registry.get id = some definition → definition.Partitioned

end DefinitionRegistry

end Hynergy
