import Mathlib.Logic.Function.Basic
import Hynergy.Protocol.DefinitionGrowth
import Hynergy.World.WorldRun

/-!
# The definition store of an engine

Registrations decode against a snapshot and register under a lock; operations on worlds take a snapshot
of their own. The sections under the lock are the steps, in any order.
-/

namespace Hynergy

open Lib Relation

variable {F : Type} [F64 F]

structure DefinitionStore (F : Type) where
  published : DefinitionRegistry F

namespace DefinitionStore

def new : DefinitionStore F := { published := .new }

omit [F64 F] in
def snapshot (self : DefinitionStore F) : DefinitionRegistry F := self.published

omit [F64 F] in
/-- `register`: the section under the registration lock. -/
def register (self : DefinitionStore F) (definition : DeviceDefinition F) :
    Except DefinitionRegistrationError (DefinitionId × DefinitionStore F) :=
  match DefinitionCommands.registerDecodedDefinition self.snapshot definition with
  | .error error => .error error
  | .ok (id, next) => .ok (id, { published := next })

end DefinitionStore

/-- An engine: the store, the registrations between their snapshot and the lock, and the worlds, each with
the snapshot of the operation under way. What was published and accepted so far is kept beside. -/
structure Engine (F : Type) where
  definitions : DefinitionStore F
  registrations : Nat → Option (DefinitionRegistry F × List Byte) := fun _ => none
  worlds : Nat → Stores F × Option (DefinitionRegistry F) := fun _ => ({}, none)
  published : List (DefinitionRegistry F)
  accepted : List (DefinitionId × DeviceDefinition F) := []

namespace Engine

def new : Engine F where
  definitions := .new
  published := [.new]

variable (fromBits : BitVec 64 → F)

inductive Step : Engine F → Engine F → Prop
  /-- `hynergy_engine_register_definition`, up to the decoding. -/
  | decode {self : Engine F} (call : Nat) (input : List Byte) (idle : self.registrations call = none) :
      Step self { self with
        registrations := Function.update self.registrations call (some (self.definitions.snapshot, input)) }
  /-- The buffer is refused, or decoding it panics. -/
  | refuse {self : Engine F} (call : Nat) {snapshot : DefinitionRegistry F} {input : List Byte}
      (pending : self.registrations call = some (snapshot, input))
      (refused : ∀ definition, DefinitionCommands.decodeDefinitionBuffer snapshot fromBits input ≠ some (.ok definition)) :
      Step self { self with registrations := Function.update self.registrations call none }
  /-- The definition is published. -/
  | publish {self : Engine F} (call : Nat) {snapshot : DefinitionRegistry F} {input : List Byte}
      {definition : DeviceDefinition F} {id : DefinitionId} {definitions : DefinitionStore F}
      (pending : self.registrations call = some (snapshot, input))
      (decoded : DefinitionCommands.decodeDefinitionBuffer snapshot fromBits input = some (.ok definition))
      (registered : self.definitions.register definition = .ok (id, definitions)) :
      Step self { self with
        definitions, registrations := Function.update self.registrations call none
        published := definitions.published :: self.published, accepted := (id, definition) :: self.accepted }
  /-- The registry refuses the definition. -/
  | reject {self : Engine F} (call : Nat) {snapshot : DefinitionRegistry F} {input : List Byte}
      {definition : DeviceDefinition F} {error : DefinitionRegistrationError}
      (pending : self.registrations call = some (snapshot, input))
      (decoded : DefinitionCommands.decodeDefinitionBuffer snapshot fromBits input = some (.ok definition))
      (rejected : self.definitions.register definition = .error error) :
      Step self { self with registrations := Function.update self.registrations call none }
  /-- A world is created in the place of one without an operation. -/
  | create {self : Engine F} (world : Nat) (idle : (self.worlds world).2 = none) :
      Step self { self with worlds := Function.update self.worlds world ({}, none) }
  /-- An operation on a world takes its snapshot. -/
  | begin {self : Engine F} (world : Nat) (idle : (self.worlds world).2 = none) :
      Step self { self with
        worlds := Function.update self.worlds world ((self.worlds world).1, some self.definitions.snapshot) }
  /-- What the operation does: a command, a tick, a subscription or its end. -/
  | operate {self : Engine F} (world : Nat) {stores after : Stores F} {snapshot : DefinitionRegistry F}
      (busy : self.worlds world = (stores, some snapshot))
      (operation : Stores.WorldStep (snapshot, stores) (snapshot, after)) :
      Step self { self with worlds := Function.update self.worlds world (after, some snapshot) }
  | finish {self : Engine F} (world : Nat) :
      Step self { self with worlds := Function.update self.worlds world ((self.worlds world).1, none) }

variable {fromBits} {self next : Engine F}

/-! ### What every step keeps -/

/-- A registry that was published, of which the current one is an extension. -/
structure Snapshot (engine : Engine F) (registry : DefinitionRegistry F) : Prop where
  published : registry ∈ engine.published
  reached : registry.Reached
  grown : engine.definitions.published.Extends registry

/-- The publications of an engine grow one from another, its accepted definitions are published, and its
worlds have followed them. -/
structure Published (engine : Engine F) : Prop where
  first : Snapshot engine .new
  current : Snapshot engine engine.definitions.published
  snapshots : ∀ registry ∈ engine.published, Snapshot engine registry
  ordered : engine.published.Pairwise fun later earlier => later.Extends earlier
  pending : ∀ call snapshot input, engine.registrations call = some (snapshot, input) → Snapshot engine snapshot
  accepted : ∀ entry ∈ engine.accepted, engine.definitions.published.get entry.1 = some entry.2
  fresh : ∀ kind : PrimitiveElementKind, ∀ entry ∈ engine.accepted, entry.1 ≠ kind.definitionId
  distinct : (engine.accepted.map Prod.fst).Nodup
  busy : ∀ world stores snapshot, engine.worlds world = (stores, some snapshot) →
    Snapshot engine snapshot ∧ Stores.WorldReached snapshot stores
  idle : ∀ world stores, engine.worlds world = (stores, none) →
    ∃ registry, Snapshot engine registry ∧ Stores.WorldReached registry stores

theorem published_new : Published (new : Engine F) := by
  have current : Snapshot (new : Engine F) .new := ⟨List.mem_singleton_self _, .new, .refl _⟩
  refine ⟨current, current, fun registry member => List.mem_singleton.mp member ▸ current, List.pairwise_singleton _ _,
    fun _ _ _ pending => (by cases pending), fun _ member => (by cases member), fun _ _ member => (by cases member), List.nodup_nil,
    fun _ _ _ busy => (by cases busy), fun world stores same => ?_⟩
  obtain ⟨rfl, -⟩ := Prod.mk.inj same
  exact ⟨.new, current, .new, .new, .refl⟩

/-- Only registrations differ. -/
theorem Published.registrations (h : Published self) {registrations : Nat → Option (DefinitionRegistry F × List Byte)}
    (pending : ∀ call snapshot input, registrations call = some (snapshot, input) → Snapshot self snapshot) :
    Published { self with registrations } := by
  have same : ∀ {registry}, Snapshot self registry → Snapshot { self with registrations } registry :=
    fun h => ⟨h.published, h.reached, h.grown⟩
  refine ⟨same h.first, same h.current, fun registry member => same (h.snapshots registry member), h.ordered,
    fun call snapshot input found => same (pending call snapshot input found), h.accepted, h.fresh, h.distinct, ?_, ?_⟩
  · intro world stores snapshot busy
    obtain ⟨published, reached⟩ := h.busy world stores snapshot busy
    exact ⟨same published, reached⟩
  · intro world stores idle
    obtain ⟨registry, published, reached⟩ := h.idle world stores idle
    exact ⟨registry, same published, reached⟩

theorem Published.endRegistration (h : Published self) (call : Nat) :
    Published { self with registrations := Function.update self.registrations call none } := by
  refine h.registrations fun other snapshot input found => ?_
  by_cases same : other = call
  · rw [same, Function.update_self] at found
    cases found
  · rw [Function.update_of_ne same] at found
    exact h.pending other snapshot input found

/-- Only one world differs. -/
theorem Published.world (h : Published self) {world : Nat} {stores : Stores F} {operation : Option (DefinitionRegistry F)}
    (busy : ∀ snapshot, operation = some snapshot → Snapshot self snapshot ∧ Stores.WorldReached snapshot stores)
    (idle : operation = none → ∃ registry, Snapshot self registry ∧ Stores.WorldReached registry stores) :
    Published { self with worlds := Function.update self.worlds world (stores, operation) } := by
  have same : ∀ {registry}, Snapshot self registry →
      Snapshot { self with worlds := Function.update self.worlds world (stores, operation) } registry :=
    fun h => ⟨h.published, h.reached, h.grown⟩
  refine ⟨same h.first, same h.current, fun registry member => same (h.snapshots registry member), h.ordered,
    fun call snapshot input found => same (h.pending call snapshot input found), h.accepted, h.fresh, h.distinct, ?_, ?_⟩
  · intro other stores' snapshot found
    have found : Function.update self.worlds world (stores, operation) other = (stores', some snapshot) := found
    by_cases here : other = world
    · rw [here, Function.update_self] at found
      obtain ⟨rfl, rfl⟩ := Prod.mk.inj found
      obtain ⟨published, reached⟩ := busy snapshot rfl
      exact ⟨same published, reached⟩
    · rw [Function.update_of_ne here] at found
      obtain ⟨published, reached⟩ := h.busy other stores' snapshot found
      exact ⟨same published, reached⟩
  · intro other stores' found
    have found : Function.update self.worlds world (stores, operation) other = (stores', none) := found
    by_cases here : other = world
    · rw [here, Function.update_self] at found
      obtain ⟨rfl, rfl⟩ := Prod.mk.inj found
      obtain ⟨registry, published, reached⟩ := idle rfl
      exact ⟨registry, same published, reached⟩
    · rw [Function.update_of_ne here] at found
      obtain ⟨registry, published, reached⟩ := h.idle other stores' found
      exact ⟨registry, same published, reached⟩

/-- A world between operations, or in one, has followed some registry that was published. -/
theorem Published.followed (h : Published self) (world : Nat) :
    ∃ registry, Snapshot self registry ∧ Stores.WorldReached registry (self.worlds world).1 := by
  cases found : (self.worlds world).2 with
  | none => exact h.idle world _ (Prod.ext rfl found)
  | some snapshot => exact ⟨snapshot, h.busy world _ snapshot (Prod.ext rfl found)⟩

omit [F64 F] in
theorem register_ok {definitions definitions' : DefinitionStore F} {definition : DeviceDefinition F} {id : DefinitionId}
    (registered : definitions.register definition = .ok (id, definitions')) :
    definitions.published.register definition = .ok (id, definitions'.published) := by
  unfold DefinitionStore.register DefinitionCommands.registerDecodedDefinition at registered
  cases run : definitions.snapshot.register definition with
  | error error =>
    rw [run] at registered
    cases registered
  | ok result =>
    rw [run] at registered
    obtain ⟨rfl, rfl⟩ := Prod.mk.inj (Except.ok.inj registered)
    exact run

theorem Published.publish (h : Published self) {call : Nat} {snapshot : DefinitionRegistry F} {input : List Byte}
    {definition : DeviceDefinition F} {id : DefinitionId} {definitions : DefinitionStore F}
    (pending : self.registrations call = some (snapshot, input))
    (decoded : DefinitionCommands.decodeDefinitionBuffer snapshot fromBits input = some (.ok definition))
    (registered : self.definitions.register definition = .ok (id, definitions)) :
    Published { self with
      definitions, registrations := Function.update self.registrations call none
      published := definitions.published :: self.published, accepted := (id, definition) :: self.accepted } := by
  have registered := register_ok registered
  have grown := DefinitionRegistry.register_extends registered
  obtain ⟨-, -, builder, -, calls, build⟩ := DefinitionCommands.decodeDefinitionBuffer_ok decoded
  have from' := h.pending call snapshot input pending
  have reached : definitions.published.Reached :=
    .register h.current.reached from'.reached from'.grown calls build registered
  have same : ∀ {registry}, Snapshot self registry → Snapshot { self with
      definitions, registrations := Function.update self.registrations call none
      published := definitions.published :: self.published, accepted := (id, definition) :: self.accepted } registry :=
    fun h => ⟨List.mem_cons_of_mem _ h.published, h.reached, grown.trans h.grown⟩
  obtain ⟨position, length, -⟩ := DefinitionRegistry.register_ok registered
  have there : definitions.published.get id = some definition := by
    rw [DefinitionRegistry.get, length, position, List.getElem?_concat_length]
  have unknown : self.definitions.published.get id = none := by
    rw [DefinitionRegistry.get, position]
    exact List.getElem?_eq_none (Nat.le_refl _)
  refine ⟨same h.first, ⟨List.mem_cons_self, reached, .refl _⟩, fun registry member => ?_,
    List.pairwise_cons.mpr ⟨fun registry member => grown.trans (h.snapshots registry member).grown, h.ordered⟩,
    fun other snapshot' input' found => ?_, fun entry member => ?_, fun kind entry member => ?_,
    List.nodup_cons.mpr ⟨fun member => ?_, h.distinct⟩, fun world stores snapshot' busy => ?_, fun world stores idle => ?_⟩
  · rcases List.mem_cons.mp member with rfl | earlier
    · exact ⟨List.mem_cons_self, reached, .refl _⟩
    · exact same (h.snapshots registry earlier)
  · have found : Function.update self.registrations call none other = some (snapshot', input') := found
    by_cases here : other = call
    · rw [here, Function.update_self] at found
      cases found
    · rw [Function.update_of_ne here] at found
      exact same (h.pending other snapshot' input' found)
  · rcases List.mem_cons.mp member with rfl | earlier
    · exact there
    · exact grown _ _ (h.accepted entry earlier)
  · rcases List.mem_cons.mp member with rfl | earlier
    · rintro rfl
      have primitive := h.first.grown _ _ (DefinitionRegistry.get_new_definitionId kind)
      rw [unknown] at primitive
      cases primitive
    · exact h.fresh kind entry earlier
  · obtain ⟨entry, earlier, rfl⟩ := List.mem_map.mp member
    rw [h.accepted entry earlier] at unknown
    cases unknown
  · obtain ⟨published, reached⟩ := h.busy world stores snapshot' busy
    exact ⟨same published, reached⟩
  · obtain ⟨registry, published, reached⟩ := h.idle world stores idle
    exact ⟨registry, same published, reached⟩

theorem Step.published (h : Published self) (step : Step fromBits self next) : Published next := by
  cases step with
  | decode call input idle =>
    refine h.registrations fun other snapshot input' found => ?_
    by_cases same : other = call
    · rw [same, Function.update_self] at found
      obtain ⟨rfl, -⟩ := Prod.mk.inj (Option.some.inj found)
      exact h.current
    · rw [Function.update_of_ne same] at found
      exact h.pending other snapshot input' found
  | refuse call pending refused => exact h.endRegistration call
  | publish call pending decoded registered => exact h.publish pending decoded registered
  | reject call pending decoded rejected => exact h.endRegistration call
  | create world idle =>
    exact h.world (fun _ wrong => by cases wrong) fun _ => ⟨.new, h.first, .new, .new, .refl⟩
  | begin world idle =>
    refine h.world (fun snapshot same => ?_) fun wrong => by cases wrong
    obtain rfl := Option.some.inj same
    obtain ⟨registry, published, start, reached, run⟩ := h.followed world
    exact ⟨h.current, start, reached, run.tail (.register published.grown h.current.reached)⟩
  | operate world busy operation =>
    refine h.world (fun snapshot' same => ?_) fun wrong => by cases wrong
    obtain rfl := Option.some.inj same
    obtain ⟨published, start, reached, run⟩ := h.busy world _ _ busy
    exact ⟨published, start, reached, run.tail operation⟩
  | finish world => exact h.world (fun _ wrong => by cases wrong) fun _ => h.followed world

theorem published_of_run (run : ReflTransGen (Step fromBits) new self) : Published self := by
  induction run with
  | refl => exact published_new
  | tail _ step ih => exact step.published ih

/-! ### Publication -/

omit [F64 F] in
/-- The definition of a resident device is registered. -/
theorem definition_known {registry : DefinitionRegistry F} {network : Network F} (h : network.Consistent registry)
    {device : DeviceId} {row : DeviceRow F} (found : network.record device = some row) :
    ∃ definition, registry.get row.definitionId = some definition := by
  obtain ⟨loc, -, placed, -⟩ := h.arena.record_eq_some.mp found
  obtain ⟨chunk, _, held, -, rfl⟩ := DeviceArena.rowAt_table.mp placed
  obtain ⟨definition, known, -⟩ := (h.arena.chunks chunk (List.mem_iff_getElem?.mpr ⟨_, held⟩)).definition
  exact ⟨definition, known⟩

/-- In every interleaving of registrations and operations on worlds: publications grow one from another,
accepted definitions stay under ids of their own, what decoded against an older snapshot decodes alike
against the current registry and is accepted while ids last, and an operation on a world knows the
definitions of its devices and of the children of definitions. -/
theorem definitions_published (run : ReflTransGen (Step fromBits) new self) :
    (self.definitions.published ∈ self.published ∧
      (∀ registry ∈ self.published, self.definitions.published.Extends registry) ∧
      self.published.Pairwise fun later earlier => later.Extends earlier) ∧
    ((self.accepted.map Prod.fst).Nodup ∧
      (∀ kind : PrimitiveElementKind, ∀ entry ∈ self.accepted, entry.1 ≠ kind.definitionId) ∧
      ∀ entry ∈ self.accepted, self.definitions.snapshot.get entry.1 = some entry.2) ∧
    (∀ call snapshot input definition, self.registrations call = some (snapshot, input) →
      DefinitionCommands.decodeDefinitionBuffer snapshot fromBits input = some (.ok definition) →
      DefinitionCommands.decodeDefinitionBuffer self.definitions.snapshot fromBits input = some (.ok definition) ∧
        (self.definitions.published.definitions.length + 1 < 2 ^ 32 →
          ∃ id definitions, self.definitions.register definition = .ok (id, definitions))) ∧
    ∀ world stores snapshot, self.worlds world = (stores, some snapshot) →
      (∀ device row, stores.network.record device = some row →
        ∃ definition, snapshot.get row.definitionId = some definition) ∧
      ∀ id definition circuit, snapshot.get id = some definition → definition.body = .composite circuit →
        ∀ element ∈ circuit.elements, ∃ child, snapshot.get element.definition = some child := by
  have h := published_of_run run
  refine ⟨⟨h.current.published, fun registry member => (h.snapshots registry member).grown, h.ordered⟩,
    ⟨h.distinct, h.fresh, h.accepted⟩, fun call snapshot input definition pending decoded => ?_,
    fun world stores snapshot busy => ?_⟩
  · have from' := h.pending call snapshot input pending
    refine ⟨DefinitionCommands.decodeDefinitionBuffer_grown from'.reached from'.grown decoded, fun room => ?_⟩
    obtain ⟨-, -, builder, -, calls, build⟩ := DefinitionCommands.decodeDefinitionBuffer_ok decoded
    obtain ⟨id, after, registered⟩ := calls.accepted from'.reached build from'.grown room
    refine ⟨id, { published := after }, ?_⟩
    unfold DefinitionStore.register DefinitionCommands.registerDecodedDefinition DefinitionStore.snapshot
    rw [registered]
    rfl
  · obtain ⟨published, reached⟩ := h.busy world stores snapshot busy
    obtain ⟨-, sound⟩ := reached.sound
    refine ⟨fun device row found => definition_known sound.consistent found, fun id definition circuit found body => ?_⟩
    exact (published.reached.flattens id definition found).known circuit body

/-- Two definitions decoded against one snapshot get ids of their own. -/
theorem definitions_published_pair : ∃ engine : Engine Float,
    engine.accepted.length = 2 ∧ (engine.accepted.map Prod.fst).Nodup := by
  have run : ReflTransGen (Step fun bits => Float.ofBits ⟨bits⟩) new _ :=
    .tail (.tail (.tail (.single (.decode 0 [0x48, 0x59, 0x44, 0x46, 1, 0, 0, 0, 0, 0, 0, 0, 0, 0, 0, 0] rfl))
      (.decode 1 [0x48, 0x59, 0x44, 0x46, 1, 0, 0, 0, 0, 0, 0, 0, 0, 0, 0, 0] rfl))
      (.publish 0 rfl rfl rfl)) (.publish 1 rfl rfl rfl)
  exact ⟨_, rfl, (definitions_published run).2.1.1⟩

end Engine

end Hynergy
