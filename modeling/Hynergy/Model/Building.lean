import Hynergy.Model.Builder
import Hynergy.Model.CallInversion

/-!
# Registries of built definitions

A registry starts with the primitives and grows by definitions built against what it held
before. The terminals of all of them are partitioned.
-/

namespace Hynergy

variable {F : Type}

namespace DeviceDefinitionBuilder

/-! ### Derivations that succeed -/

section Derive

variable {α β : Type}

theorem Derive.bind_ok {step : Derive α} {next : α → Derive β} {b : β} :
    Derive.bind step next = some (.ok b) ↔ ∃ a, step = some (.ok a) ∧ next a = some (.ok b) := by
  cases step with
  | none => simp [Derive.bind]
  | some result => cases result <;> simp [Derive.bind]

/-- The loop rule, with the place in the list. -/
theorem Derive.fold_split_ok {f : β → α → Derive β} (inv : List α → β → Prop) {list : List α} {s t : β}
    (start : inv [] s)
    (step : ∀ done a rest s t, list = done ++ a :: rest → inv done s → f s a = some (.ok t) → inv (done ++ [a]) t)
    (run : Derive.fold f s list = some (.ok t)) : inv list t := by
  suffices ∀ rest done s, list = done ++ rest → inv done s → Derive.fold f s rest = some (.ok t) → inv list t from
    this list [] s rfl start run
  intro rest
  induction rest with
  | nil =>
    intro done s split holds run
    obtain rfl := Except.ok.inj (Option.some.inj run)
    rw [List.append_nil] at split
    rwa [split]
  | cons a rest ih =>
    intro done s split holds run
    obtain ⟨s', taken, run⟩ := Derive.bind_ok.mp run
    exact ih (done ++ [a]) s' (by rw [split, List.append_assoc, List.singleton_append])
      (step done a rest s s' split holds taken) run

/-- The loop rule. -/
theorem Derive.fold_ok {f : β → α → Derive β} (inv : List α → β → Prop) {list : List α} {s t : β}
    (start : inv [] s)
    (step : ∀ done a s t, inv done s → f s a = some (.ok t) → inv (done ++ [a]) t)
    (run : Derive.fold f s list = some (.ok t)) : inv list t :=
  Derive.fold_split_ok inv start (fun done a _ s t _ holds taken => step done a s t holds taken) run

end Derive

theorem allocatePartition_ok {next after : Nat} {partition : DevicePartitionId}
    (h : allocatePartition next = .ok (partition, after)) : partition.index = next ∧ after = next + 1 := by
  unfold allocatePartition at h
  split at h
  · simp at h
  · rename_i found
    obtain ⟨rfl, rfl⟩ := Prod.mk.inj (Except.ok.inj h)
    exact ⟨Id.ofIndex?_eq_some.mp found, rfl⟩

/-- The partitions handed out so far are the ones below the next. -/
structure Allocated (rootPartitions : List (Option DevicePartitionId)) (nextPartition : Nat) : Prop where
  below : ∀ (root : Nat) (partition : DevicePartitionId), rootPartitions[root]? = some (some partition) →
    partition.index < nextPartition
  bounded : nextPartition ≤ 2 ^ 16

theorem allocated_step {next after : Nat} {partition : DevicePartitionId}
    (h : allocatePartition next = .ok (partition, after)) :
    next < after ∧ partition.index < after ∧ after ≤ 2 ^ 16 := by
  obtain ⟨same, rfl⟩ := allocatePartition_ok h
  have fits : partition.index < 2 ^ 16 := partition.fits
  omega

theorem partitionOf_ok {unionFind unionFind' : UnionFind} {roots roots' : List (Option DevicePartitionId)}
    {next next' node : Nat} {partition : DevicePartitionId} (h : Allocated roots next)
    (run : partitionOf (unionFind, roots, next) node = some (.ok (partition, unionFind', roots', next'))) :
    Allocated roots' next' ∧ partition.index < next' ∧ next ≤ next' := by
  unfold partitionOf at run
  dsimp only at run
  split at run
  · simp at run
  · rename_i root found there
    split at run
    · simp at run
    · rename_i known read
      simp only [Option.some.injEq, Except.ok.injEq, Prod.mk.injEq] at run
      obtain ⟨rfl, -, rfl, rfl⟩ := run
      exact ⟨h, h.below _ _ read, Nat.le_refl _⟩
    · rename_i read
      split at run
      · simp at run
      · rename_i fresh after allocated
        simp only [Option.some.injEq, Except.ok.injEq, Prod.mk.injEq] at run
        obtain ⟨rfl, -, rfl, rfl⟩ := run
        obtain ⟨grown, inside, bounded⟩ := allocated_step allocated
        refine ⟨⟨fun other partition read' => ?_, bounded⟩, inside, grown.le⟩
        rw [List.getElem?_set] at read'
        split at read'
        · split at read'
          · obtain rfl := Option.some.inj (Option.some.inj read')
            exact inside
          · simp at read'
        · exact (h.below other partition read').trans grown

theorem deriveTerminalPartitions_ok {terminals : List NodeId} {partitions : List DevicePartitionId}
    {unionFind unionFind' : UnionFind} {roots roots' : List (Option DevicePartitionId)} {next next' : Nat}
    (h : Allocated roots next)
    (run : deriveTerminalPartitions terminals (unionFind, roots, next) =
      some (.ok (partitions, unionFind', roots', next'))) :
    Allocated roots' next' ∧ partitions.length = terminals.length ∧
      ∀ partition ∈ partitions, partition.index < next' := by
  refine Derive.fold_ok (fun done (state : List DevicePartitionId × UnionFind × _ × _) =>
    Allocated state.2.2.1 state.2.2.2 ∧ state.1.length = done.length ∧
      ∀ partition ∈ state.1, partition.index < state.2.2.2) ?_ ?_ run
  · exact ⟨h, rfl, by simp⟩
  · intro done terminal state state' holds taken
    obtain ⟨partitions, unionFind, roots, next⟩ := state
    obtain ⟨allocated, length, below⟩ := holds
    obtain ⟨⟨partition, unionFind', roots', next'⟩, found, taken⟩ := Derive.bind_ok.mp taken
    obtain rfl := Except.ok.inj (Option.some.inj taken)
    obtain ⟨allocated', inside, grown⟩ := partitionOf_ok allocated found
    refine ⟨allocated', by simp [length], fun other member => ?_⟩
    rcases List.mem_append.mp member with earlier | new
    · exact (below other earlier).trans_le grown
    · exact List.mem_singleton.mp new ▸ inside

theorem deriveInternalPartitions_ok {referenced : List Bool} {unionFind unionFind' : UnionFind}
    {roots roots' : List (Option DevicePartitionId)} {next next' : Nat} (h : Allocated roots next)
    (run : deriveInternalPartitions referenced (unionFind, roots, next) =
      some (.ok (unionFind', roots', next'))) : Allocated roots' next' ∧ next ≤ next' := by
  refine Derive.fold_ok (fun _ (state : UnionFind × _ × _) =>
    Allocated state.2.1 state.2.2 ∧ next ≤ state.2.2) ⟨h, Nat.le_refl _⟩ ?_ run
  intro done node state state' holds taken
  obtain ⟨unionFind, roots, now⟩ := state
  dsimp only at taken
  split at taken
  · obtain ⟨⟨partition, unionFind', roots', now'⟩, found, taken⟩ := Derive.bind_ok.mp taken
    obtain rfl := Except.ok.inj (Option.some.inj taken)
    obtain ⟨allocated, -, grown⟩ := partitionOf_ok holds.1 found
    exact ⟨allocated, holds.2.trans grown⟩
  · obtain rfl := Except.ok.inj (Option.some.inj taken)
    exact holds

theorem childPartition_ok {exposed : Nat} {anchors : List (Option Nat)}
    {roots : List (Option DevicePartitionId)} {state state' : List DevicePartitionId × UnionFind × Nat}
    {child : Nat} (run : childPartition exposed anchors roots state child = some (.ok state'))
    (bounded : state.2.2 ≤ 2 ^ 16) : state'.2.2 ≤ 2 ^ 16 ∧ state.2.2 ≤ state'.2.2 := by
  obtain ⟨partitions, unionFind, next⟩ := state
  unfold childPartition at run
  dsimp only at run
  split at run
  · obtain ⟨found, there, same⟩ := Option.map_eq_some_iff.mp run
    obtain rfl := Except.ok.inj same
    obtain ⟨node, -, there⟩ := Option.bind_eq_some_iff.mp there
    obtain ⟨root, -, there⟩ := Option.bind_eq_some_iff.mp there
    obtain ⟨partition, -, there⟩ := Option.bind_eq_some_iff.mp there
    obtain rfl := Option.some.inj there
    exact ⟨bounded, Nat.le_refl _⟩
  · split at run
    · simp at run
    · rename_i partition after allocated
      obtain rfl := Except.ok.inj (Option.some.inj run)
      obtain ⟨grown, -, bounded'⟩ := allocated_step allocated
      exact ⟨bounded', grown.le⟩

theorem derivePartitionLayout_ok {self : DeviceDefinitionBuilder F} {layout : DevicePartitionLayout}
    {nodePartitions : List DevicePartitionId}
    (run : self.derivePartitionLayout = some (.ok (layout, nodePartitions))) :
    layout.terminalPartitions.length = self.terminals.length ∧
      (∀ partition ∈ layout.terminalPartitions, partition.index < layout.partitionCount) ∧
      layout.partitionCount ≤ 2 ^ 16 := by
  unfold derivePartitionLayout at run
  dsimp only at run
  split at run
  · simp at run
  · rename_i unionFind referenced joined
    split at run
    · simp at run
    · split at run
      · split at run <;> simp at run
      · obtain ⟨⟨partitions, unionFind₁, roots₁, next₁⟩, terminals, run⟩ := Derive.bind_ok.mp run
        obtain ⟨⟨unionFind₂, roots₂, next₂⟩, internal, run⟩ := Derive.bind_ok.mp run
        obtain ⟨total, -, run⟩ := Derive.bind_ok.mp run
        obtain ⟨⟨elements, unionFind₃, next₃⟩, children, run⟩ := Derive.bind_ok.mp run
        dsimp only at internal children run
        split at run
        · simp at run
        · simp only [Option.some.injEq, Except.ok.injEq, Prod.mk.injEq] at run
          obtain ⟨rfl, -⟩ := run
          have fresh : Allocated (List.replicate self.nodeCount none) 0 := by
            refine ⟨fun root partition read => ?_, Nat.zero_le _⟩
            rw [List.getElem?_replicate] at read
            split at read <;> simp at read
          obtain ⟨allocated₁, length, below⟩ := deriveTerminalPartitions_ok fresh terminals
          obtain ⟨allocated₂, grown₂⟩ := deriveInternalPartitions_ok allocated₁ internal
          have grown₃ : next₃ ≤ 2 ^ 16 ∧ next₂ ≤ next₃ := by
            refine Derive.fold_ok (fun _ (state : List DevicePartitionId × UnionFind × Nat) =>
              state.2.2 ≤ 2 ^ 16 ∧ next₂ ≤ state.2.2) ⟨allocated₂.bounded, Nat.le_refl _⟩ ?_ children
            intro done element state state' holds taken
            unfold elementPartitionsOf at taken
            split at taken
            · simp at taken
            · split at taken
              · simp at taken
              · refine Derive.fold_ok (fun _ (state : List DevicePartitionId × UnionFind × Nat) =>
                  state.2.2 ≤ 2 ^ 16 ∧ next₂ ≤ state.2.2) holds ?_ taken
                intro done child state state' holds taken
                obtain ⟨bounded, grown⟩ := childPartition_ok taken holds.1
                exact ⟨bounded, holds.2.trans grown⟩
          exact ⟨length, fun partition member => (below partition member).trans_le (grown₂.trans grown₃.2),
            grown₃.1⟩

theorem buildDefinition_ok {self : DeviceDefinitionBuilder F} {definition : DeviceDefinition F}
    (run : self.buildDefinition = some (.ok definition)) :
    ∃ nodePartitions, self.deriveStateCount = some (.ok definition.stateCount) ∧
      self.derivePartitionLayout = some (.ok (definition.partitionLayout, nodePartitions)) ∧
      self.deriveObservers definition.partitionLayout nodePartitions = some (.ok definition.observers) ∧
      definition.body = .composite { nodeCount := self.nodeCount, elements := self.elements } ∧
      definition.terminals = self.terminals ∧ definition.paramConstraints = self.paramConstraints := by
  unfold buildDefinition at run
  obtain ⟨-, -, run⟩ := Derive.bind_ok.mp run
  obtain ⟨stateCount, counted, run⟩ := Derive.bind_ok.mp run
  obtain ⟨⟨layout, nodePartitions⟩, laidOut, run⟩ := Derive.bind_ok.mp run
  obtain ⟨observers, observed, run⟩ := Derive.bind_ok.mp run
  obtain rfl := Except.ok.inj (Option.some.inj run)
  exact ⟨nodePartitions, counted, laidOut, observed, rfl, rfl, rfl⟩

theorem buildDefinition_partitioned {self : DeviceDefinitionBuilder F} {definition : DeviceDefinition F}
    (run : self.buildDefinition = some (.ok definition)) : definition.Partitioned := by
  obtain ⟨nodePartitions, -, laidOut, -, -, terminals, -⟩ := buildDefinition_ok run
  obtain ⟨length, below, bounded⟩ := derivePartitionLayout_ok laidOut
  exact ⟨terminals ▸ length, below, bounded⟩

/-! ### Builders -/

section Reached

variable [F64 F]

inductive Operation (F : Type) where
  | addNode
  | addTerminal
  | addParameter (parameter : ParameterConstraints F)
  | addElement (element : Element F)
  | addVoltageObserver (positive negative : NodeId)
  | addChildObserver (element : ElementId) (observer : DefinitionObserverId)

def Operation.apply : Operation F → Build F Unit
  | .addNode => do let _node ← DeviceDefinitionBuilder.addNode
  | .addTerminal => do let _node ← DeviceDefinitionBuilder.addTerminal
  | .addParameter parameter => do let _id ← DeviceDefinitionBuilder.addParameter parameter
  | .addElement element => do let _id ← DeviceDefinitionBuilder.addElement element
  | .addVoltageObserver positive negative => do
    let _id ← DeviceDefinitionBuilder.addVoltageObserver positive negative
  | .addChildObserver element observer => do
    let _id ← DeviceDefinitionBuilder.addChildObserver element observer

/-- What calls on a new builder leave. -/
inductive Reached (registry : DefinitionRegistry F) : DeviceDefinitionBuilder F → Prop
  | new : Reached registry { registry }
  | call {self next : DeviceDefinitionBuilder F} (reached : Reached registry self)
      (operation : Operation F) (leaves : (operation.apply self).Leaves next) : Reached registry next

/-- Calls that all return leave a builder that they reach. -/
theorem Reached.forM {registry : DefinitionRegistry F} {operations : List (Operation F)}
    {builder next : DeviceDefinitionBuilder F} {value : PUnit} (reached : Reached registry builder)
    (run : operations.forM Operation.apply builder = .ok value next) : Reached registry next := by
  induction operations generalizing builder with
  | nil =>
    obtain ⟨-, rfl⟩ := Outcome.ok.inj run
    exact reached
  | cons operation operations ih =>
    obtain ⟨_, mid, first, rest⟩ := Call.bind_eq_ok run
    exact ih (.call reached operation (Or.inl ⟨_, first⟩)) rest

end Reached

end DeviceDefinitionBuilder

/-! ### Registries -/

namespace DefinitionRegistry

variable [F64 F]

/-- A registry that grew from the new one by built definitions. -/
inductive Reached : DefinitionRegistry F → Prop
  | new : Reached new
  | register {self base next : DefinitionRegistry F} {builder : DeviceDefinitionBuilder F}
      {definition : DeviceDefinition F} {id : DefinitionId} (reached : Reached self)
      (built : Reached base) (extends' : self.Extends base)
      (calls : DeviceDefinitionBuilder.Reached base builder)
      (build : builder.buildDefinition = some (.ok definition))
      (registered : self.register definition = .ok (id, next)) : Reached next

theorem get_new {id : DefinitionId} {definition : DeviceDefinition F}
    (found : (new : DefinitionRegistry F).get id = some definition) :
    ∃ kind : PrimitiveElementKind, definition = kind.definition := by
  rw [get, new, List.getElem?_map] at found
  obtain ⟨kind, -, rfl⟩ := Option.map_eq_some_iff.mp found
  exact ⟨kind, rfl⟩

omit [F64 F] in
/-- A registered definition is an earlier one or the new one. -/
theorem get_registered {self next : DefinitionRegistry F} {definition found : DeviceDefinition F}
    {id other : DefinitionId} (registered : self.register definition = .ok (id, next))
    (there : next.get other = some found) : self.get other = some found ∨ other = id ∧ found = definition := by
  obtain ⟨index, grown, -⟩ := register_ok registered
  rw [get, grown, List.getElem?_append] at there
  split at there
  · exact Or.inl there
  · have last := (List.getElem?_eq_some_iff.mp there).1
    rw [List.length_singleton] at last
    have same : other.index = self.definitions.length := by omega
    rw [same, Nat.sub_self] at there
    exact Or.inr ⟨NonZeroId.index_inj.mp (same.trans index.symm), (Option.some.inj there).symm⟩

theorem Reached.partitioned {registry : DefinitionRegistry F} (reached : Reached registry) :
    registry.Partitioned := by
  induction reached with
  | new =>
    intro id definition found
    obtain ⟨kind, rfl⟩ := get_new found
    exact kind.definition_partitioned
  | register _ _ _ _ build registered ih _ =>
    intro id definition found
    rcases get_registered registered found with earlier | ⟨-, rfl⟩
    · exact ih id definition earlier
    · exact DeviceDefinitionBuilder.buildDefinition_partitioned build

/-- Calls on a new builder that all return, and what they build registered. -/
def define (self : DefinitionRegistry F) (operations : List (DeviceDefinitionBuilder.Operation F)) :
    Option (DefinitionId × DeviceDefinition F × DeviceDefinitionBuilder F × DefinitionRegistry F) := do
  let (_, builder) ← Outcome.returned (operations.forM DeviceDefinitionBuilder.Operation.apply { registry := self })
  let built ← builder.buildDefinition
  let definition ← built.toOption
  let (id, next) ← (self.register definition).toOption
  some (id, definition, builder, next)

/-- What is defined is registered last, over calls on a builder. -/
theorem Reached.define {self next : DefinitionRegistry F} (reached : self.Reached) {operations : List (DeviceDefinitionBuilder.Operation F)}
    {id : DefinitionId} {definition : DeviceDefinition F} {builder : DeviceDefinitionBuilder F}
    (run : self.define operations = some (id, definition, builder, next)) :
    next.Reached ∧ self.register definition = .ok (id, next) ∧ next.get id = some definition ∧
      definition.body = .composite ⟨builder.nodeCount, builder.elements⟩ := by
  obtain ⟨⟨_, calls⟩, returned, run⟩ := Option.bind_eq_some_iff.mp run
  obtain ⟨built, build, run⟩ := Option.bind_eq_some_iff.mp run
  obtain ⟨made, isMade, run⟩ := Option.bind_eq_some_iff.mp run
  obtain ⟨⟨newId, grown⟩, registered, run⟩ := Option.bind_eq_some_iff.mp run
  cases built with
  | error error => cases isMade
  | ok value =>
    obtain rfl := Option.some.inj isMade
    cases registers : self.register value with
    | error error =>
      rw [registers] at registered
      cases registered
    | ok pair =>
      rw [registers] at registered
      obtain rfl := Option.some.inj registered
      have run : some (newId, value, calls, grown) = some (id, definition, builder, next) := run
      cases run
      have reachedBuilder := DeviceDefinitionBuilder.Reached.forM .new (Outcome.of_returned returned)
      obtain ⟨-, -, -, -, body, -⟩ := DeviceDefinitionBuilder.buildDefinition_ok build
      refine ⟨.register reached reached (Extends.refl _) reachedBuilder build registers, registers, ?_, body⟩
      obtain ⟨index, definitions, -⟩ := register_ok registers
      rw [get, definitions, index, List.getElem?_append_right (le_refl _), Nat.sub_self]
      rfl

end DefinitionRegistry

end Hynergy
