import Hynergy.Model.BuilderGrowth
import Hynergy.Protocol.Definition

/-!
# Buffers decoded against an earlier registry

A buffer that decodes against a registry decodes to the same definition against one that grew from it,
and the definition can be registered there.
-/

namespace Hynergy

variable {F : Type} [F64 F]

open Call (Preserves Simulates)

namespace DeviceDefinitionBuilder

variable {builder : DeviceDefinitionBuilder F} {base next : DefinitionRegistry F}

/-! ### Terminals are nodes -/

omit [F64 F] in
theorem allocateNode_meets (self : DeviceDefinitionBuilder F) : (allocateNode self).Meets True
    (fun node after => node.index = self.nodeCount ∧ after = { self with nodeCount := self.nodeCount + 1 })
    fun _ after => after = self := by
  unfold allocateNode
  rw [Call.get_bind]
  cases found : (Id.ofIndex? self.nodeCount : Option NodeId) with
  | none => exact rfl
  | some node =>
    dsimp only
    by_cases full : 2 ^ 32 ≤ self.nodeCount + 1
    · rw [Call.rejectIf_bind_pos full]
      exact rfl
    · rw [Call.rejectIf_bind_neg full, Call.set_bind]
      exact ⟨Id.ofIndex?_eq_some.mp found, rfl⟩

/-- Every terminal has a node. -/
def TerminalsFit (builder : DeviceDefinitionBuilder F) : Prop := builder.terminals.length ≤ builder.nodeCount

omit [F64 F] in
theorem addNode_fits : Preserves TerminalsFit (addNode : Build F NodeId) := by
  intro self fits
  refine (allocateNode_meets self).mono id ?_ ?_
  · rintro node _ ⟨-, rfl⟩
    exact Nat.le_succ_of_le fits
  · rintro error _ rfl
    exact fits

omit [F64 F] in
theorem addTerminal_fits : Preserves TerminalsFit (addTerminal : Build F NodeId) := by
  intro self fits
  refine Call.meets_bind ((allocateNode_meets self).mono id ?_ ?_)
  · rintro node _ ⟨-, rfl⟩
    show (self.terminals ++ [node]).length ≤ self.nodeCount + 1
    rw [List.length_append, List.length_singleton]
    exact Nat.succ_le_succ fits
  · rintro error _ rfl
    exact fits

theorem validateElement_fits (element : Element F) : Preserves TerminalsFit (validateElement element) := by
  refine .get_bind fun self _ => (Preserves.okOr _ _).bind fun definition => (Preserves.rejectIf _ _).bind fun _ =>
    (Preserves.rejectIf _ _).bind fun _ => (Preserves.forM fun _ => .rejectIf _ _).bind fun _ =>
    (Preserves.forM fun _ => ?_).bind fun _ => ?_
  · refine .get_bind fun _ _ => ?_
    split
    · exact .ofExcept _ _
    · exact (Preserves.okOr _ _).bind fun _ => .rejectIf _ _
  · split
    · exact .pure _
    · split
      · exact .pure _
      · exact .ofExcept _ _

omit [F64 F] in
theorem pushObserver_fits (observer : PendingDefinitionObserver) :
    Preserves TerminalsFit (pushObserver observer : Build F DefinitionObserverId) :=
  .get_bind fun _ fits => (Preserves.okOr _ _).bind fun _ => .bind (.set fits) fun _ => .pure _

theorem Operation.apply_fits (operation : Operation F) : Preserves TerminalsFit operation.apply := by
  cases operation with
  | addNode => exact addNode_fits.bind fun _ => .pure _
  | addTerminal => exact addTerminal_fits.bind fun _ => .pure _
  | addParameter parameter =>
    refine .bind ?_ fun _ => .pure _
    exact .get_bind fun _ fits => (Preserves.okOr _ _).bind fun _ => .bind (.set fits) fun _ => .pure _
  | addElement element =>
    refine .bind ?_ fun _ => .pure _
    exact (validateElement_fits element).bind fun _ => .get_bind fun _ fits =>
      (Preserves.okOr _ _).bind fun _ => .bind (.set fits) fun _ => .pure _
  | addVoltageObserver positive negative =>
    refine .bind ?_ fun _ => .pure _
    exact .bind (.get_bind fun _ _ => .rejectIf _ _) fun _ => .bind (.get_bind fun _ _ => .rejectIf _ _) fun _ =>
      pushObserver_fits _
  | addChildObserver element observer =>
    refine .bind ?_ fun _ => .pure _
    exact .get_bind fun _ _ => (Preserves.okOr _ _).bind fun _ => (Preserves.expect _).bind fun _ =>
      (Preserves.okOr _ _).bind fun _ => pushObserver_fits _

theorem Reached.terminalsFit (reached : Reached base builder) : builder.TerminalsFit := by
  induction reached with
  | new => exact Nat.le_refl _
  | call _ operation leaves ih => exact operation.apply_fits.leaves ih leaves

/-! ### Registering what was built -/

/-- The elements of a definition that was built are registered. -/
theorem Reached.known (reached : Reached base builder) (built : base.Reached) {definition : DeviceDefinition F}
    (build : builder.buildDefinition = some (.ok definition)) :
    ∀ element ∈ builder.elements, ∃ child, base.get element.definition = some child := by
  obtain ⟨nodePartitions, -, run, -⟩ := buildDefinition_ok build
  obtain rfl := reached.registry_eq
  exact (derivePartitionLayout_laidOut (fun element child found => built.partitioned _ _ found) run).known

/-- A definition is accepted as long as ids last. -/
theorem Reached.accepted (reached : Reached base builder) (built : base.Reached) {definition : DeviceDefinition F}
    (build : builder.buildDefinition = some (.ok definition)) (grown : next.Extends base)
    (room : next.definitions.length + 1 < 2 ^ 32) : ∃ id after, next.register definition = .ok (id, after) := by
  have known := reached.known built build
  obtain ⟨-, -, -, -, body, terminals, -⟩ := buildDefinition_ok build
  have fits : builder.terminals.length ≤ builder.nodeCount := reached.terminalsFit
  have few : ¬ builder.terminals.length % 2 ^ 32 > builder.nodeCount := by
    have := Nat.mod_le builder.terminals.length (2 ^ 32)
    omega
  have all : builder.elements.find? (fun element => (next.get element.definition).isNone) = none := by
    refine List.find?_eq_none.mpr fun element member => ?_
    obtain ⟨child, found⟩ := known element member
    rw [grown _ _ found]
    exact Bool.false_ne_true
  unfold DefinitionRegistry.register
  rw [NonZeroId.ofIndex?, dif_pos room, body, terminals]
  dsimp only
  rw [if_neg few, all]
  exact ⟨_, _, rfl⟩

end DeviceDefinitionBuilder

namespace DefinitionCommands

open DeviceDefinitionBuilder

variable {base next : DefinitionRegistry F} {fromBits : BitVec 64 → F} {input : List Lib.Byte} {definition : DeviceDefinition F}

/-- The decoders are at the same place, the registry has grown. -/
def GrownAt (next : DefinitionRegistry F) (state other : Decoder × DeviceDefinitionBuilder F) : Prop :=
  other.1 = state.1 ∧ Grown next state.2 other.2

omit [F64 F] in
theorem decoding_grown {α : Type} (call : Decode α) :
    Simulates (GrownAt next) (decoding call : Building F α) (decoding call) := by
  refine .zoom ?_
  rintro ⟨decoder, builder⟩ ⟨_, other⟩ ⟨rfl, grown⟩ value inner run
  exact ⟨inner, run, rfl, grown⟩

theorem buildCommands_grown (remaining commandIndex : Nat) :
    Simulates (GrownAt next) (buildCommands fromBits remaining commandIndex) (buildCommands fromBits remaining commandIndex) := by
  induction remaining generalizing commandIndex with
  | zero => exact .pure _
  | succ remaining ih =>
    refine .bind (decoding_grown _) fun (operation, commandOffset) => .bind (.zoom ?_) fun _ => ih _
    rintro ⟨decoder, builder⟩ ⟨_, other⟩ ⟨rfl, grown⟩ value inner run
    obtain ⟨inner', run', grown'⟩ := operation.apply_grown builder other grown value inner run
    exact ⟨inner', run', rfl, grown'⟩

theorem buildBuffer_grown : Simulates (GrownAt next) (buildBuffer (F := F) fromBits) (buildBuffer fromBits) := by
  refine .bind (decoding_grown _) fun commandCount => .bind (buildCommands_grown _ _) fun _ => .get_bind ?_
  rintro ⟨decoder, builder⟩ ⟨_, other⟩ ⟨rfl, grown⟩
  exact .bind (.expect fun _ => id) fun _ => .bind (.rejectIf id) fun _ => .pure _

omit [F64 F] in
theorem decoding_preserves {P : DeviceDefinitionBuilder F → Prop} {α : Type} (call : Decode α) :
    Preserves (fun state : Decoder × DeviceDefinitionBuilder F => P state.2) (decoding call) := by
  refine .zoom fun state holds => ?_
  cases call state.1 with
  | ok value inner => exact holds
  | err error inner => exact holds
  | panic => exact trivial

/-- The builder of a buffer is one that calls lead to. -/
theorem buildCommands_reached (remaining commandIndex : Nat) :
    Preserves (fun state => Reached base state.2) (buildCommands fromBits remaining commandIndex) := by
  induction remaining generalizing commandIndex with
  | zero => exact .pure _
  | succ remaining ih =>
    refine .bind (decoding_preserves _) fun (operation, commandOffset) => .bind (.zoom fun state reached => ?_) fun _ => ih _
    dsimp only
    cases run : operation.apply state.2 with
    | ok value inner => exact .call reached operation (Or.inl ⟨value, run⟩)
    | err error inner => exact .call reached operation (Or.inr ⟨error, run⟩)
    | panic => exact trivial

theorem buildBuffer_reached : Preserves (fun state => Reached base state.2) (buildBuffer fromBits) :=
  .bind (decoding_preserves _) fun _ => .bind (buildCommands_reached _ _) fun _ => .get_bind fun _ _ =>
    .bind (.expect _) fun _ => .bind (.rejectIf _ _) fun _ => .pure _

/-- What a buffer that decodes was built from. -/
theorem decodeDefinitionBuffer_ok (run : decodeDefinitionBuffer base fromBits input = some (.ok definition)) :
    ∃ commandCount decoder builder,
      buildBuffer fromBits (Decoder.new input 0, { registry := base }) = .ok commandCount (decoder, builder) ∧
      Reached base builder ∧ builder.buildDefinition = some (.ok definition) := by
  unfold decodeDefinitionBuffer at run
  split at run
  · cases run
  · cases run
  · rename_i commandCount decoder builder built
    refine ⟨commandCount, decoder, builder, built, ?_, ?_⟩
    · exact buildBuffer_reached.leaves (P := fun state => Reached base state.2) .new (Or.inl ⟨_, built⟩)
    · obtain ⟨result, found, mapped⟩ := Option.map_eq_some_iff.mp run
      cases result with
      | error error => cases mapped
      | ok found' =>
        obtain rfl := Except.ok.inj mapped
        exact found

/-- A buffer decodes against a registry that grew to the same definition. -/
theorem decodeDefinitionBuffer_grown (built : base.Reached) (grown : next.Extends base)
    (run : decodeDefinitionBuffer base fromBits input = some (.ok definition)) :
    decodeDefinitionBuffer next fromBits input = some (.ok definition) := by
  obtain ⟨commandCount, decoder, builder, decoded, reached, build⟩ := decodeDefinitionBuffer_ok run
  have start : GrownAt next (Decoder.new input 0, { registry := base }) (Decoder.new input 0, { registry := next }) :=
    ⟨rfl, rfl, grown⟩
  obtain ⟨⟨_, other⟩, decoded', rfl, same⟩ := buildBuffer_grown _ _ start _ _ decoded
  have known := reached.known built build
  obtain rfl := reached.registry_eq
  unfold decodeDefinitionBuffer
  rw [decoded']
  dsimp only
  rw [same.buildDefinition known, build]
  rfl

end DefinitionCommands

end Hynergy
