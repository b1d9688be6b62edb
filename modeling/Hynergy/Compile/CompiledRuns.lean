import Hynergy.Compile.RegisteredComposites

/-!
# Definitions that were compiled

What is known of a definition that was compiled, whatever its size: its children were compiled, it has no more states
than there are numbers, and each of its partitions was composed of those of the children.
-/

namespace Hynergy

open Lib DefinitionTemplateBuilder

variable {F : Type}

/-! ### Runs that return -/

namespace CompiledDefinition

variable {partitions : List (CompiledPartitionTemplate F)} {initializers : List (DefinitionStateInitializer F)}
  {transitions : List (FailedTickStateTransition F)} {compiled : CompiledDefinition F}

/-- The states with writers are numbered. -/
def WritersNumbered (count : Nat) (writers : List (Option DevicePartitionId)) : Prop :=
  writers.length = count ∧ ∀ (s : Nat) q, writers[s]? = some (some q) → s < IdKind.state.bound

theorem recordWriter_numbered {count : Nat} (partition : DevicePartitionId) {writers : List (Option DevicePartitionId)}
    (numbered : WritersNumbered count writers) (state : DefinitionStateId) :
    (recordWriter partition writers state ()).Meets True (fun after _ => WritersNumbered count after) fun _ _ => True := by
  unfold recordWriter
  cases read : writers[state.index]? with
  | none => exact trivial
  | some owner =>
    rw [Call.expect_some_bind]
    cases owner with
    | none =>
      refine ⟨by rw [List.length_set, numbered.1], fun s q read' => ?_⟩
      by_cases same : state.index = s
      · exact same ▸ state.fits
      · rw [List.getElem?_set_ne same] at read'
        exact numbered.2 s q read'
    | some first =>
      dsimp only
      split
      · exact numbered
      · exact trivial

/-- A definition that was made has no more states than there are numbers. -/
theorem new_ok (run : new partitions initializers transitions () = .ok compiled ()) :
    compiled = ⟨partitions, initializers, transitions⟩ ∧ initializers.length ≤ IdKind.state.bound := by
  unfold new at run
  obtain ⟨writers, _, recorded, run⟩ := Call.bind_eq_ok run
  have numbered : (partitions.zipIdx.foldlM recordWriters (List.replicate initializers.length none) ()).Meets True
      (fun after _ => WritersNumbered initializers.length after) fun _ _ => True := by
    refine Call.foldlM_meets (fun _ after _ => WritersNumbered initializers.length after) ?_
      ⟨List.length_replicate, fun s q read => ?_⟩
    · rintro seen entry rest before _ - numbered
      unfold recordWriters
      cases (Id.ofIndex? entry.2 : Option DevicePartitionId) with
      | none => exact trivial
      | some partition =>
        rw [Call.expect_some_bind]
        exact Call.foldlM_meets (fun _ after _ => WritersNumbered initializers.length after)
          (fun _ state _ _ _ _ holds => recordWriter_numbered partition holds state) numbered
    · cases List.eq_of_mem_replicate (List.mem_of_getElem? read)
  rw [recorded] at numbered
  obtain ⟨length, known⟩ := numbered
  cases all : writers.findIdx? Option.isNone with
  | some index =>
    rw [all] at run
    obtain ⟨_, _, -, run⟩ := Call.bind_eq_ok run
    cases run
  | none =>
    rw [all] at run
    refine ⟨(Outcome.ok.inj run).1.symm, not_lt.mp fun many => ?_⟩
    have inside : IdKind.state.bound < writers.length := length ▸ many
    have written := List.findIdx?_eq_none_iff.mp all _ (List.getElem_mem inside)
    cases owner : writers[IdKind.state.bound] with
    | none =>
      rw [owner] at written
      cases written
    | some q =>
      refine Nat.lt_irrefl _ (known IdKind.state.bound q ?_)
      rw [List.getElem?_eq_getElem inside, owner]

end CompiledDefinition

section Composites

variable [F64 F] {registry : DefinitionRegistry F} {definition : DeviceDefinition F} {circuit : Circuit F}

/-- A composite that was compiled has the states of its compiled children, and its partitions were compiled in turn. -/
theorem compileComposite_ok {compile : DeviceDefinition F → Compile (CompiledDefinition F)}
    {made : List (CompiledPartitionTemplate F) × List (DefinitionStateInitializer F) × List (FailedTickStateTransition F)}
    (run : compileComposite compile registry definition circuit () = .ok made ()) :
    ∃ children offsets total, List.Forall₂ (fun element inner => element ∈ circuit.elements ∧
        ∃ child, registry.get (Element.definition element) = some child ∧ compile child () = .ok inner ())
        circuit.elements children ∧
      elementStateOffsets children = some (offsets, total) ∧
      Call.pushEach (fun _ parentPartitionIndex => do
        let parentPartition ← Call.expect (Id.ofIndex? parentPartitionIndex)
        compileCompositePartition definition circuit parentPartition children offsets) []
        (List.range definition.partitionCount) () = .ok made.1 () ∧
      made.2.1 = children.flatMap CompiledDefinition.stateInitializers := by
  unfold compileComposite at run
  obtain ⟨children, _, childrenRun, run⟩ := Call.bind_eq_ok run
  obtain ⟨⟨offsets, total⟩, _, offsetsRun, run⟩ := Call.bind_eq_ok run
  obtain ⟨partitions, _, partitionsRun, run⟩ := Call.bind_eq_ok run
  obtain ⟨rfl, -⟩ := Outcome.ok.inj run
  refine ⟨children, offsets, total, ?_, (Call.expect_eq_ok offsetsRun).1, partitionsRun, rfl⟩
  have each : (Call.pushEach (fun _ element => do
      let childDefinition ← Call.expect (registry.get (Element.definition element))
      compile childDefinition) [] circuit.elements ()).Meets True
      (fun children _ => List.Forall₂ (fun element inner => element ∈ circuit.elements ∧
        ∃ child, registry.get (Element.definition element) = some child ∧ compile child () = .ok inner ())
        circuit.elements children) fun _ _ => True := by
    refine Call.pushEach_meets (fun seen done _ => List.Forall₂ (fun element inner => element ∈ circuit.elements ∧
      ∃ child, registry.get (Element.definition element) = some child ∧ compile child () = .ok inner ()) seen done) ?_ .nil
    rintro seen element rest done ⟨⟩ split compiled
    have member : element ∈ circuit.elements := split ▸ List.mem_append_right _ List.mem_cons_self
    cases isChild : registry.get element.definition with
    | none => exact trivial
    | some child =>
      rw [Call.expect_some_bind]
      cases isInner : compile child () with
      | ok inner _ => exact List.rel_append compiled (.cons ⟨member, child, isChild, isInner⟩ .nil)
      | err => exact trivial
      | panic => exact trivial
  rw [childrenRun] at each
  exact each

end Composites

section Compiled

variable [Field F] [F64 F] {registry : DefinitionRegistry F} {latch : F → F → F → Prop} {definition : DeviceDefinition F}
  {circuit : Circuit F} {compiled : CompiledDefinition F}

namespace CompiledDefinition

/-- A registered composite that was compiled where its children are. -/
theorem compile_composite (exact : F64.ExactArithmetic F) (reached : registry.Reached) {fuel : Nat}
    (inner : ∀ other child made, registry.get other = some child → compile registry fuel child () = .ok made () →
      Compiles registry latch child made)
    {id : DefinitionId} (found : registry.get id = some definition) (body : definition.body = .composite circuit)
    (run : compile registry (fuel + 1) definition () = .ok compiled ()) :
    Compiles registry latch definition compiled ∧ ∃ children,
      List.Forall₂ (fun element made => ∃ child, registry.get (Element.definition element) = some child ∧
        compile registry fuel child () = .ok made ()) circuit.elements children ∧
      ∀ (p : Nat) whole, compiled.partitions[p]? = some whole →
        whole.ComposedOf registry definition circuit children p := by
  unfold compile at run
  rw [body] at run
  obtain ⟨⟨partitions, initializers, transitions⟩, _, composite, run⟩ := Call.bind_eq_ok run
  obtain ⟨rfl, few⟩ := new_ok run
  obtain ⟨children, offsets, total, each, offsetsRun, partitionsRun, same⟩ := compileComposite_ok composite
  dsimp only at partitionsRun same
  subst same
  rcases reached.built id definition found with ⟨kind, rfl⟩ | ⟨base, builder, built, calls, build, grown, -⟩
  · cases body
  obtain ⟨-, -, -, -, body', -⟩ := DeviceDefinitionBuilder.buildDefinition_ok build
  obtain rfl := DeviceBody.composite.inj (body'.symm.trans body)
  have children' : ChildrenCompiled registry latch builder.elements children := by
    refine each.imp fun element made => ?_
    rintro ⟨member, child, isChild, isMade⟩
    obtain ⟨other, checked⟩ := calls.checked element member
    obtain rfl := Option.some.inj ((grown _ _ (calls.registry_eq ▸ checked.known)).symm.trans isChild)
    exact ⟨other, isChild, inner _ _ _ isChild isMade, checked.count⟩
  have counts : (children.flatMap stateInitializers).length = definition.stateCount := by
    have states : children.map stateCount = builder.elements.map registry.statesOf := by
      refine ((congrFun (congrFun List.forall₂_eq_eq_eq _) _).mp ?_).symm
      rw [List.forall₂_map_left_iff, List.forall₂_map_right_iff]
      refine children'.imp fun element made => ?_
      rintro ⟨child, isChild, compiles, -⟩
      rw [DefinitionRegistry.statesOf, isChild, compiles.stateCount]
      rfl
    rw [DeviceDefinitionBuilder.buildDefinition_states calls build grown, List.length_flatMap]
    exact congrArg List.sum states
  have shaped := DeviceDefinitionBuilder.buildDefinition_shaped built calls build grown (counts ▸ few)
  have compiledEach := compilePartitions_meets exact.toExactField shaped children' offsetsRun
  rw [partitionsRun] at compiledEach
  obtain ⟨counted, compiledEach⟩ := compiledEach
  refine ⟨shaped.compiled children' offsetsRun counted compiledEach counts _, children, ?_, fun p whole isWhole =>
    (compiledEach p whole isWhole).composed⟩
  exact each.imp fun element made here => here.2

/-- What a registered definition was compiled to is what its laws say. -/
theorem compile_ok (exact : F64.ExactArithmetic F) (reached : registry.Reached) (fuel : Nat) {id : DefinitionId}
    (found : registry.get id = some definition) (run : compile registry fuel definition () = .ok compiled ()) :
    Compiles registry latch definition compiled := by
  induction fuel generalizing id definition compiled with
  | zero => cases run
  | succ fuel ih =>
    rcases reached.built id definition found with ⟨kind, rfl⟩ | ⟨base, builder, -, -, build, -, -⟩
    · obtain ⟨made, isMade, compiles⟩ := kind.compiles exact fuel
      obtain ⟨rfl, -⟩ := Outcome.ok.inj (isMade.symm.trans run)
      exact compiles
    · obtain ⟨-, -, -, -, body, -⟩ := DeviceDefinitionBuilder.buildDefinition_ok build
      exact (compile_composite exact reached (fun _ _ _ known made => ih known made) found body run).1

end CompiledDefinition

end Compiled

end Hynergy
