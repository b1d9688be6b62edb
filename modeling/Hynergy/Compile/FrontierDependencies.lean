import Hynergy.Compile.DriverDependencies

/-!
# What the first frontier depends on

The search for the first frontier stops at stability values, whose drivers it lists, and at
solution values, which make a driver a conservative seed.
-/

namespace Hynergy

open Lib

variable {F : Type}

/-- What the pulls of a driver are computed from ends at stability values with an edge to it, and at
solution values if it is a conservative seed. -/
def Seeded (stabilityValues : List ValueSlot) (dependencies : List (List ValueSlot)) (solutionValues : List Bool)
    (edge : Nat → Prop) (conservative : Prop) (driver : QualifiedComplementaryDriver) : Prop :=
  ∃ C : Nat → Prop, C driver.pullUp.index ∧ C driver.pullDown.index ∧ ∀ v, C v →
    (∃ index, stabilityIndexOf stabilityValues v = some index ∧ edge index) ∨
    (solutionValues[v]?.getD false = true ∧ conservative) ∨
    (solutionValues[v]?.getD false = false ∧ ∃ sources, dependencies[v]? = some sources ∧
      ∀ source ∈ sources, C source.index)

section Frontier

variable {stabilityValues : List ValueSlot} {dependencies : List (List ValueSlot)} {solutionValues : List Bool}

theorem Seeded.mono {edge edge' : Nat → Prop} {conservative conservative' : Prop} {driver : QualifiedComplementaryDriver}
    (h : Seeded stabilityValues dependencies solutionValues edge conservative driver) (more : ∀ k, edge k → edge' k)
    (more' : conservative → conservative') :
    Seeded stabilityValues dependencies solutionValues edge' conservative' driver := by
  obtain ⟨C, up, down, closed⟩ := h
  refine ⟨C, up, down, fun v inside => ?_⟩
  rcases closed v inside with ⟨index, named, there⟩ | ⟨isSolution, there⟩ | rest
  · exact Or.inl ⟨index, named, more _ there⟩
  · exact Or.inr (Or.inl ⟨isSolution, more' there⟩)
  · exact Or.inr (Or.inr rest)

/-- Between two drivers the marks are up to the generation. -/
structure FrontierSearch.Ready (state : FrontierSearch) : Prop where
  small : state.generation < 2 ^ 32
  below : ∀ mark ∈ state.visited, mark ≤ state.generation

theorem frontierEdges_spec {state next : FrontierSearch} (ready : state.Ready) {driver : QualifiedComplementaryDriver}
    {i : Nat} (run : frontierEdges stabilityValues dependencies solutionValues state (driver, i) = some next) :
    next.Ready ∧ (∀ k j, EdgeIn state.stabilityAdjacency k j → EdgeIn next.stabilityAdjacency k j) ∧
      (∀ j ∈ state.conservativeSeedDrivers, j ∈ next.conservativeSeedDrivers) ∧
      Seeded stabilityValues dependencies solutionValues (fun k => EdgeIn next.stabilityAdjacency k i)
        (i ∈ next.conservativeSeedDrivers) driver := by
  unfold frontierEdges at run
  obtain ⟨⟨visited, found⟩, searches, run⟩ := Option.bind_eq_some_iff.mp run
  obtain ⟨adjacency, pushes, run⟩ := Option.bind_eq_some_iff.mp run
  obtain rfl := Option.some.inj run
  obtain ⟨small, -, fresh⟩ := nextGeneration_spec ready.small ready.below
  generalize nextGeneration state.generation state.visited = marks at small fresh searches ⊢
  have search := searchValues_spec searches
  obtain ⟨edges, -, kept⟩ := pushAll_spec (stabilityIndexOf stabilityValues) pushes
    fun before after v _ step => by
      cases named : stabilityIndexOf stabilityValues v with
      | none =>
        rw [named] at step
        exact Or.inl ⟨rfl, (Option.some.inj step).symm⟩
      | some index =>
        rw [named] at step
        exact Or.inr ⟨index, rfl, step⟩
  refine ⟨⟨small, fun mark member => ?_⟩, kept, fun j member => List.mem_append_left _ member,
    fun v => visited[v]? = some marks.1, search.stacked driver.pullUp (by simp), search.stacked driver.pullDown (by simp),
    fun v marked => ?_⟩
  · rcases search.marks mark member with old | rfl
    · exact Nat.le_of_lt (fresh mark old)
    · exact Nat.le_refl _
  · rcases search.closed v marked with old | ⟨stop, there⟩ | ⟨open', closed⟩
    · exact absurd (fresh _ (List.mem_of_getElem? old)) (Nat.lt_irrefl _)
    · cases named : stabilityIndexOf stabilityValues v with
      | some index => exact Or.inl ⟨index, rfl, edges v there index named⟩
      | none =>
        rw [named] at stop
        have isSeed : (found.any fun value => (stabilityIndexOf stabilityValues value).isNone) = true :=
          List.any_eq_true.mpr ⟨v, there, by rw [named]; rfl⟩
        refine Or.inr (Or.inl ⟨by simpa using stop, List.mem_append_right _ ?_⟩)
        rw [if_pos isSeed]
        exact List.mem_singleton.mpr rfl
    · rw [Bool.or_eq_false_iff] at open'
      exact Or.inr (Or.inr ⟨open'.2, closed⟩)

theorem frontiersEdges_spec {entries : List (QualifiedComplementaryDriver × Nat)} {state last : FrontierSearch}
    (ready : state.Ready)
    (run : entries.foldlM (frontierEdges stabilityValues dependencies solutionValues) state = some last) :
    (∀ k j, EdgeIn state.stabilityAdjacency k j → EdgeIn last.stabilityAdjacency k j) ∧
      (∀ j ∈ state.conservativeSeedDrivers, j ∈ last.conservativeSeedDrivers) ∧
      ∀ entry ∈ entries, Seeded stabilityValues dependencies solutionValues
        (fun k => EdgeIn last.stabilityAdjacency k entry.2) (entry.2 ∈ last.conservativeSeedDrivers) entry.1 := by
  induction entries generalizing state with
  | nil =>
    obtain rfl := Option.some.inj run
    exact ⟨fun _ _ h => h, fun _ h => h, by simp⟩
  | cons entry entries ih =>
    obtain ⟨mid, first, run⟩ := Option.bind_eq_some_iff.mp run
    obtain ⟨ready', kept, seeds, seeded⟩ := frontierEdges_spec ready first
    obtain ⟨kept', seeds', rest⟩ := ih ready' run
    refine ⟨fun k j there => kept' k j (kept k j there), fun j member => seeds' j (seeds j member), fun other member => ?_⟩
    rcases List.mem_cons.mp member with rfl | later
    · exact seeded.mono (fun k there => kept' k _ there) (seeds' _)
    · exact rest other later

end Frontier

/-- A value that is not marked as a solution value is no solution input. -/
theorem solutionValues_spec {inputs : List (UnknownIndex × InputSlot)} {table table' : List Bool}
    (run : inputs.foldlM (fun table entry => assign table entry.2.index true) table = some table') :
    (∀ v : Nat, table[v]? = some true → table'[v]? = some true) ∧
      ∀ entry ∈ inputs, table'[entry.2.index]? = some true := by
  induction inputs generalizing table with
  | nil =>
    obtain rfl := Option.some.inj run
    exact ⟨fun _ h => h, by simp⟩
  | cons entry inputs ih =>
    obtain ⟨mid, first, run⟩ := Option.bind_eq_some_iff.mp run
    obtain ⟨kept, rest⟩ := ih run
    unfold assign at first
    dsimp only at first
    split at first
    · rename_i inside
      obtain rfl := Option.some.inj first
      have here : (table.set entry.2.index true)[entry.2.index]? = some true := List.getElem?_set_self inside
      refine ⟨fun v there => kept v ?_, fun other member => ?_⟩
      · by_cases same : v = entry.2.index
        · rw [same]
          exact here
        · rw [List.getElem?_set_ne (Ne.symm same), there]
      · rcases List.mem_cons.mp member with rfl | later
        · exact kept _ here
        · exact rest other later
    · cases first

/-- Every driver is seeded by the stability values that list it and by the list of conservative seeds. -/
structure CompiledDiscretePlan.Seeds (ir : CompiledIslandIr F) (plan : CompiledDiscretePlan) : Prop where
  seeded : ∃ dependencies solutionValues, valueDependencies ir.valueProgram = some dependencies ∧
    (∀ entry ∈ ir.solutionInputs, solutionValues[entry.2.index]?.getD false = true) ∧
    ∀ i driver, plan.drivers[i]? = some driver → Seeded ir.iterationStabilityValues dependencies solutionValues
      (fun k => ∃ row, plan.stabilityDependentsFor k = some row ∧ i ∈ row) (i ∈ plan.conservativeSeedDrivers) driver

theorem compileInitialFrontierDependencies_spec {ir : CompiledIslandIr F} {drivers : List QualifiedComplementaryDriver}
    {offsets items seeds : List Nat}
    (run : compileInitialFrontierDependencies ir drivers = some (offsets, items, seeds)) :
    ∃ dependencies solutionValues, valueDependencies ir.valueProgram = some dependencies ∧
      (∀ entry ∈ ir.solutionInputs, solutionValues[entry.2.index]?.getD false = true) ∧
      ∀ i driver, drivers[i]? = some driver → Seeded ir.iterationStabilityValues dependencies solutionValues
        (fun k => ∃ row, rowOf offsets items k = some row ∧ i ∈ row) (i ∈ seeds) driver := by
  unfold compileInitialFrontierDependencies at run
  obtain ⟨dependencies, hd, run⟩ := Option.bind_eq_some_iff.mp run
  obtain ⟨solutionValues, hs, run⟩ := Option.bind_eq_some_iff.mp run
  refine ⟨dependencies, solutionValues, hd, fun entry member => ?_, fun i driver read => ?_⟩
  · rw [(solutionValues_spec hs).2 entry member]
    rfl
  · split at run
    · obtain ⟨state, edges, run⟩ := Option.bind_eq_some_iff.mp run
      obtain ⟨⟨offsets', items'⟩, flattens, run⟩ := Option.bind_eq_some_iff.mp run
      obtain ⟨isOffsets, isRest⟩ := Prod.mk.inj (Option.some.inj run)
      obtain ⟨isItems, isSeeds⟩ := Prod.mk.inj isRest
      subst isOffsets isItems isSeeds
      have ready : FrontierSearch.Ready ⟨0, List.replicate ir.valueProgram.valueCount 0,
          List.replicate ir.iterationStabilityValues.length [], []⟩ :=
        ⟨by norm_num, fun mark member => Nat.le_of_eq (List.eq_of_mem_replicate member)⟩
      have seeded := (frontiersEdges_spec ready edges).2.2 (driver, i) (List.mem_zipIdx_iff_getElem?.mpr read)
      refine seeded.mono (fun k edge => ?_) mem_sortDedup.mpr
      obtain ⟨row, there, member⟩ := edge
      exact ⟨_, flattenEdges_spec flattens there, mem_sortDedup.mpr member⟩
    · cases run

theorem compileDiscretePlan_seeds [F64 F] {pattern : MnaPattern} {ir : CompiledIslandIr F}
    {metadata : BoundDiscreteMetadata} {plan : CompiledDiscretePlan}
    (run : compileDiscretePlan pattern ir metadata = some (some plan)) : plan.Seeds ir := by
  unfold compileDiscretePlan at run
  split at run
  · cases run
  · split at run
    · cases run
    · obtain ⟨terms, -, run⟩ := Option.bind_eq_some_iff.mp run
      dsimp only at run
      split at run
      · cases run
      · obtain ⟨barriers, -, run⟩ := Option.bind_eq_some_iff.mp run
        obtain ⟨edges, -, run⟩ := Option.bind_eq_some_iff.mp run
        obtain ⟨frontier, depends, run⟩ := Option.bind_eq_some_iff.mp run
        obtain ⟨iteration, -, run⟩ := Option.bind_eq_some_iff.mp run
        obtain rfl := Option.some.inj (Option.some.inj run)
        exact ⟨compileInitialFrontierDependencies_spec depends⟩

end Hynergy
