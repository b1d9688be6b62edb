import Hynergy.Compile.IslandIr
import Hynergy.Lib.SwapRemove

/-!
# Discrete plans

Where an output is driven by a pull to a high rail and a pull to a low rail and nothing else
enters its equation, its voltage follows from the pulls and the rails. The plan of an island
lists these drivers, and for each the drivers that depend on its output.
-/

namespace Hynergy

open Lib

variable {F : Type}

structure BoundComplementaryDriver where
  mode : ValueSlot
  output : Option UnknownIndex
  highRail : Option UnknownIndex
  lowRail : Option UnknownIndex
  pullUp : ValueSlot
  pullDown : ValueSlot

structure BoundDiscreteMetadata where
  modes : List ValueSlot
  complementaryDrivers : List BoundComplementaryDriver

structure QualifiedComplementaryDriver where
  output : UnknownIndex
  highRail : Option UnknownIndex
  lowRail : Option UnknownIndex
  pullUp : ValueSlot
  pullDown : ValueSlot

structure MatrixBarrierSource where
  source : ValueSlot
  factorizedSourceIndex : Nat

structure CompiledDiscretePlan where
  drivers : List QualifiedComplementaryDriver
  driverOutputInputs : List (Option InputSlot)
  iterationDependencies : IterationDependencyPlan
  dependentOffsets : List Nat
  dependents : List Nat
  stabilityDependentOffsets : List Nat
  stabilityDependents : List Nat
  conservativeSeedDrivers : List Nat
  matrixBarriers : List MatrixBarrierSource
  rhsBarriers : List ValueSlot

/-- `&items[offsets[row]..offsets[row + 1]]`. -/
def rowOf (offsets items : List Nat) (row : Nat) : Option (List Nat) := do
  let start ← offsets[row]?
  let stop ← offsets[row + 1]?
  if start ≤ stop ∧ stop ≤ items.length then some ((items.take stop).drop start) else none

namespace CompiledDiscretePlan

def dependentsFor (self : CompiledDiscretePlan) (producer : Nat) : Option (List Nat) :=
  rowOf self.dependentOffsets self.dependents producer

def stabilityDependentsFor (self : CompiledDiscretePlan) (stabilityIndex : Nat) : Option (List Nat) :=
  rowOf self.stabilityDependentOffsets self.stabilityDependents stabilityIndex

end CompiledDiscretePlan

/-! ### Matrix terms -/

structure MnaPattern where
  columnPtrs : List Nat
  rowIndices : List Nat

/-- The binary search finds the first column that ends after the slot. -/
def MnaPattern.coordinate (self : MnaPattern) (slot : MatrixSlot) : Option (UnknownIndex × UnknownIndex) := do
  let row ← self.rowIndices[slot.index]?
  some (⟨row⟩, ⟨(self.columnPtrs.drop 1).findIdx fun stop => decide (slot.index < stop)⟩)

structure CanonicalMatrixTerm (F : Type) where
  row : UnknownIndex
  column : UnknownIndex
  source : ValueSlot
  scale : F

section Terms

variable [F64 F]

/-- `==` on slices of terms. -/
def sameTerms : List (CanonicalMatrixTerm F) → List (CanonicalMatrixTerm F) → Bool
  | [], [] => true
  | a :: as, b :: bs =>
    decide (a.row = b.row ∧ a.column = b.column ∧ a.source = b.source) && F64.beq a.scale b.scale && sameTerms as bs
  | _, _ => false

omit [F64 F] in
def bySource (term : CanonicalMatrixTerm F) : List Nat := [term.source.index, term.column.index, term.row.index]

omit [F64 F] in
def byRow (term : CanonicalMatrixTerm F) : List Nat := [term.row.index, term.column.index, term.source.index]

def canonicalizeMatrixTerms : List (CanonicalMatrixTerm F) → List (CanonicalMatrixTerm F) :=
  canonicalize (fun term => F64.beq term.scale F64.zero) bySource
    fun a b => { a with scale := F64.add a.scale b.scale }

omit [F64 F] in
/-- The terms by row are those of a candidate's output; a destination outside the pattern panics. -/
def collectMatrixTerms (pattern : MnaPattern) (matrix : List (MatrixAdd F)) (candidateOutputs : List Nat) :
    Option (List (CanonicalMatrixTerm F) × List (CanonicalMatrixTerm F)) := do
  let terms ← matrix.mapM fun op => (pattern.coordinate op.destination).map fun place =>
    (⟨place.1, place.2, op.source, op.scale⟩ : CanonicalMatrixTerm F)
  some (terms.filter fun term => decide (term.row.index ∈ candidateOutputs), terms)

omit [F64 F] in
def matrixTerm (row column : Option UnknownIndex) (source : ValueSlot) (scale : F) : List (CanonicalMatrixTerm F) :=
  match row, column with
  | some row, some column => [⟨row, column, source, scale⟩]
  | _, _ => []

def conductanceFootprint (a b : Option UnknownIndex) (source : ValueSlot) : List (CanonicalMatrixTerm F) :=
  matrixTerm a a source F64.one ++ matrixTerm b a source (F64.neg F64.one) ++
    matrixTerm a b source (F64.neg F64.one) ++ matrixTerm b b source F64.one

omit [F64 F] in
/-- The terms of a row, from terms sorted by row. -/
def rowTerms (terms : List (CanonicalMatrixTerm F)) (row : UnknownIndex) : List (CanonicalMatrixTerm F) :=
  (terms.dropWhile fun term => decide (term.row.index < row.index)).takeWhile fun term => decide (term.row = row)

omit [F64 F] in
/-- The terms of a source, from terms sorted by source. -/
def sourceTerms (terms : List (CanonicalMatrixTerm F)) (source : ValueSlot) : List (CanonicalMatrixTerm F) :=
  (terms.dropWhile fun term => decide (term.source.index < source.index)).takeWhile
    fun term => decide (term.source = source)

omit [F64 F] in
/-- The operations are sorted by destination. -/
def rhsHasDestination (rhs : List (RhsAdd F)) (destination : UnknownIndex) : Bool :=
  (rhs.dropWhile fun op => decide (op.destination.index < destination.index)).head?.any
    fun op => decide (op.destination = destination)

end Terms

/-! ### Dependencies -/

/-- For every value the sources of the iteration operations that compute it. -/
def valueDependencies (program : ValueProgram F) : Option (List (List ValueSlot)) :=
  if program.iterationOps.all fun op => decide (op.destination.index < program.valueCount) then
    some ((List.range program.valueCount).map fun value =>
      (program.iterationOps.filter fun op => decide (op.destination.index = value)).flatMap ValueOp.dependencies)
  else none

/-- The next generation of marks; where the counter wraps the marks are cleared. -/
def nextGeneration (generation : Nat) (marks : List Nat) : Nat × List Nat :=
  if (generation + 1) % 2 ^ 32 = 0 then (1, List.replicate marks.length 0) else ((generation + 1) % 2 ^ 32, marks)

/-- `while let Some(value) = stack.pop()`: the values that are stopped at, in the order they are
found, and the marks. The fuel bounds the values popped. -/
def searchValues (dependencies : List (List ValueSlot)) (stops : Nat → Bool) (generation : Nat) :
    Nat → List ValueSlot → List Nat → List Nat → Option (List Nat × List Nat)
  | _, [], visited, reached => some (visited, reached)
  | 0, _ :: _, _, _ => none
  | fuel + 1, value :: stack, visited, reached => do
    let mark ← visited[value.index]?
    if mark = generation then searchValues dependencies stops generation fuel stack visited reached
    else if stops value.index then
      searchValues dependencies stops generation fuel stack (visited.set value.index generation)
        (reached ++ [value.index])
    else do
      let sources ← dependencies[value.index]?
      searchValues dependencies stops generation fuel (sources.reverse ++ stack)
        (visited.set value.index generation) reached

/-- Every value is expanded once. -/
def searchFuel (dependencies : List (List ValueSlot)) : Nat := dependencies.flatten.length + 2

/-- `adjacency[row].push(item)`. -/
def pushAt (adjacency : List (List Nat)) (row item : Nat) : Option (List (List Nat)) := do
  let items ← adjacency[row]?
  some (adjacency.set row (items ++ [item]))

/-- The rows sorted and without repetitions, one after the other, and their offsets as `u32`. -/
def flattenEdges (adjacency : List (List Nat)) : Option (List Nat × List Nat) :=
  let rows := adjacency.map sortDedup
  if rows.flatten.length < 2 ^ 32 then
    some ((List.range (rows.length + 1)).map fun i => ((rows.map List.length).take i).sum, rows.flatten)
  else none

/-- The binary search in the drivers sorted by output, which are distinct. -/
def producerOf (drivers : List QualifiedComplementaryDriver) (unknown : UnknownIndex) : Option Nat :=
  drivers.findIdx? fun driver => decide (driver.output = unknown)

/-- For every value the driver whose output it is. -/
def producerBySolutionValue (ir : CompiledIslandIr F) (drivers : List QualifiedComplementaryDriver) :
    Option (List (Option Nat)) :=
  ir.solutionInputs.foldlM (fun table entry =>
    match producerOf drivers entry.1 with
    | none => some table
    | some producer => assign table entry.2.index (some producer)) (List.replicate ir.valueProgram.valueCount none)

structure DriverSearch where
  generation : Nat
  visited : List Nat
  adjacency : List (List Nat)

/-- The producers of a driver's rails and of what its pulls are computed from get an edge to it. -/
def driverEdges (drivers : List QualifiedComplementaryDriver) (dependencies : List (List ValueSlot))
    (producers : List (Option Nat)) (state : DriverSearch) (entry : QualifiedComplementaryDriver × Nat) :
    Option DriverSearch := do
  let adjacency ← (entry.1.highRail.toList ++ entry.1.lowRail.toList).foldlM (fun adjacency rail =>
    match producerOf drivers rail with
    | none => some adjacency
    | some producer => pushAt adjacency producer entry.2) state.adjacency
  let marks := nextGeneration state.generation state.visited
  let result ← searchValues dependencies (fun value => producers[value]?.join.isSome) marks.1
    (searchFuel dependencies) [entry.1.pullDown, entry.1.pullUp] marks.2 []
  let adjacency ← result.2.foldlM (fun adjacency value => do
    let producer ← producers[value]?.join
    pushAt adjacency producer entry.2) adjacency
  some ⟨marks.1, result.1, adjacency⟩

/-- Driver indices are `u32`. -/
def compileDriverDependencies (ir : CompiledIslandIr F) (drivers : List QualifiedComplementaryDriver) :
    Option (List Nat × List Nat) := do
  let dependencies ← valueDependencies ir.valueProgram
  let producers ← producerBySolutionValue ir drivers
  if drivers.length ≤ 2 ^ 32 then do
    let state ← drivers.zipIdx.foldlM (driverEdges drivers dependencies producers)
      ⟨0, List.replicate ir.valueProgram.valueCount 0, List.replicate drivers.length []⟩
    flattenEdges state.adjacency
  else none

structure FrontierSearch where
  generation : Nat
  visited : List Nat
  stabilityAdjacency : List (List Nat)
  conservativeSeedDrivers : List Nat

/-- The binary search in the stability values. -/
def stabilityIndexOf (stabilityValues : List ValueSlot) (value : Nat) : Option Nat :=
  stabilityValues.findIdx? fun slot => decide (slot.index = value)

/-- A driver depends on the stability values its pulls are computed from; one that also depends on
a solution value in another way is a conservative seed. -/
def frontierEdges (stabilityValues : List ValueSlot) (dependencies : List (List ValueSlot))
    (solutionValues : List Bool) (state : FrontierSearch) (entry : QualifiedComplementaryDriver × Nat) :
    Option FrontierSearch := do
  let marks := nextGeneration state.generation state.visited
  let result ← searchValues dependencies
    (fun value => (stabilityIndexOf stabilityValues value).isSome || solutionValues[value]?.getD false) marks.1
    (searchFuel dependencies) [entry.1.pullDown, entry.1.pullUp] marks.2 []
  let adjacency ← result.2.foldlM (fun adjacency value =>
    match stabilityIndexOf stabilityValues value with
    | none => some adjacency
    | some index => pushAt adjacency index entry.2) state.stabilityAdjacency
  some
    { generation := marks.1
      visited := result.1
      stabilityAdjacency := adjacency
      conservativeSeedDrivers := state.conservativeSeedDrivers ++
        if result.2.any fun value => (stabilityIndexOf stabilityValues value).isNone then [entry.2] else [] }

def compileInitialFrontierDependencies (ir : CompiledIslandIr F) (drivers : List QualifiedComplementaryDriver) :
    Option (List Nat × List Nat × List Nat) := do
  let dependencies ← valueDependencies ir.valueProgram
  let solutionValues ← ir.solutionInputs.foldlM (fun table entry => assign table entry.2.index true)
    (List.replicate ir.valueProgram.valueCount false)
  if drivers.length ≤ 2 ^ 32 then do
    let state ← drivers.zipIdx.foldlM (frontierEdges ir.iterationStabilityValues dependencies solutionValues)
      ⟨0, List.replicate ir.valueProgram.valueCount 0, List.replicate ir.iterationStabilityValues.length [], []⟩
    let edges ← flattenEdges state.stabilityAdjacency
    some (edges.1, edges.2, sortDedup state.conservativeSeedDrivers)
  else none

/-! ### The plan -/

section Plan

variable [F64 F]

/-- Neighbours that are equal. -/
def repeatedNeighbours : List Nat → List Nat
  | a :: b :: rest => if a = b then a :: repeatedNeighbours (b :: rest) else repeatedNeighbours (b :: rest)
  | _ => []

def candidateOutputs (candidates : List BoundComplementaryDriver) : List Nat :=
  (candidates.filterMap fun candidate => candidate.output.map (·.index)).insertionSort (· ≤ ·)

/-- The driver qualifies when the equation of its output is that of its two pulls. -/
def qualify (ir : CompiledIslandIr F) (termsByRow : List (CanonicalMatrixTerm F)) (duplicateOutputs : List Nat)
    (candidate : BoundComplementaryDriver) : Option QualifiedComplementaryDriver := do
  let output ← candidate.output
  if candidate.highRail = some output ∨ candidate.lowRail = some output then none
  else if output.index ∈ duplicateOutputs then none
  else if rhsHasDestination ir.rhsProgram output then none
  else
    let footprint : List (CanonicalMatrixTerm F) :=
      conductanceFootprint candidate.highRail (some output) candidate.pullUp ++
        conductanceFootprint (some output) candidate.lowRail candidate.pullDown
    let expectedRow := sortByKey byRow
      ((canonicalizeMatrixTerms footprint).filter fun term => decide (term.row = output))
    if sameTerms (rowTerms termsByRow output) expectedRow then
      some ⟨output, candidate.highRail, candidate.lowRail, candidate.pullUp, candidate.pullDown⟩
    else none

/-- `compile_discrete_plan`; an outer `none` is a panic. -/
def compileDiscretePlan (pattern : MnaPattern) (ir : CompiledIslandIr F) (metadata : BoundDiscreteMetadata) :
    Option (Option CompiledDiscretePlan) :=
  if !ir.iterationLatches.isEmpty then some none
  else if metadata.complementaryDrivers.isEmpty then some none
  else do
    let outputs := candidateOutputs metadata.complementaryDrivers
    let duplicateOutputs := (repeatedNeighbours outputs).dedup
    let terms ← collectMatrixTerms pattern ir.matrixProgram outputs.dedup
    let termsByRow := sortByKey byRow terms.1
    let termsBySource := sortByKey bySource terms.2
    let qualified := metadata.complementaryDrivers.filterMap (qualify ir termsByRow duplicateOutputs)
    if qualified.isEmpty then some none
    else do
      let expectedFootprints := sortByKey bySource <| canonicalizeMatrixTerms <| qualified.flatMap fun driver =>
        (conductanceFootprint driver.highRail (some driver.output) driver.pullUp ++
          conductanceFootprint (some driver.output) driver.lowRail driver.pullDown : List (CanonicalMatrixTerm F))
      let matrixBarriers ← (ir.iterationMatrixSources.zipIdx.filter fun entry =>
          !sameTerms (sourceTerms termsBySource entry.1) (sourceTerms expectedFootprints entry.1)).mapM
        fun entry => if entry.2 < 2 ^ 32 then some (⟨entry.1, entry.2⟩ : MatrixBarrierSource) else none
      let edges ← compileDriverDependencies ir qualified
      let frontier ← compileInitialFrontierDependencies ir qualified
      let iterationDependencies ← ir.valueProgram.compileIterationDependencies
      some (some
        { drivers := qualified
          driverOutputInputs := qualified.map fun driver => getByKey driver.output ir.solutionInputs
          iterationDependencies
          dependentOffsets := edges.1
          dependents := edges.2
          stabilityDependentOffsets := frontier.1
          stabilityDependents := frontier.2.1
          conservativeSeedDrivers := frontier.2.2
          matrixBarriers
          rhsBarriers := (sortDedup (ir.rhsProgram.map fun op => op.source.index)).map ValueSlot.mk })

end Plan

end Hynergy
