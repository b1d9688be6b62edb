import Hynergy.Compile.CanonicalTerms
import Hynergy.Compile.Pattern
import Hynergy.Lib.Word
import Hynergy.Model.CallLoops

/-!
# Definition templates

A partition of a definition is compiled once, into a template: local unknowns, values computed from
parameters, states and unknowns, and what is stamped into the matrix and the right-hand side. A template is
instantiated into the builder of an enclosing one.
-/

namespace Hynergy

open Lib

variable {F : Type}

/-! ### Local numbers -/

/-- The local numbers of a template are of the types of the numbers they are bound to. -/
abbrev LocalUnknownId := UnknownIndex

abbrev LocalValueId := ValueSlot

abbrev LocalStateId := StateSlot

abbrev LocalMatrixSlot := MatrixSlot

structure LocalParameterId where
  index : Nat
  deriving DecidableEq

structure LocalOutputId where
  index : Nat
  deriving DecidableEq

structure LocalState where
  id : LocalStateId
  value : LocalValueId

inductive LocalUnknownKind where
  | voltage | branchCurrent
  deriving DecidableEq

inductive LocalUnknownBinding where
  | terminal (index : Nat)
  | allocated (index : Nat)
  deriving DecidableEq

structure LocalUnknownInfo where
  kind : LocalUnknownKind
  binding : LocalUnknownBinding
  deriving DecidableEq

/-- `Add`, `Sub`, `Mul`, `Div` and `LessEqual` are `binary` with their operation. -/
inductive LocalValueNode (F : Type) where
  | parameter (parameter : LocalParameterId)
  | constant (value : F)
  | timestep
  | state (state : LocalStateId)
  | unknown (unknown : LocalUnknownId)
  | binary (op : BinaryOp) (lhs rhs : LocalValueId)
  | iterationLatch (initial : LocalValueId)
  | neg (operand : LocalValueId)

structure LocalValueInfo (F : Type) where
  node : LocalValueNode F
  constant : Option F

structure LocalMatrixEntry where
  row : LocalUnknownId
  column : LocalUnknownId

structure LocalMatrixTerm (F : Type) where
  destination : LocalMatrixSlot
  source : LocalValueId
  scale : F

structure LocalIterationLatch where
  value : LocalValueId

structure LocalDiscreteMode where
  value : LocalValueId

structure LocalComplementaryDriver where
  mode : LocalDiscreteMode
  output : LocalUnknownId
  highRail : LocalUnknownId
  lowRail : LocalUnknownId
  pullUp : LocalValueId
  pullDown : LocalValueId

inductive DefinitionTemplateBuildError where
  | idExhausted
  | duplicateStateProducer (state : Nat)
  | missingStateProducer (state : Nat)
  deriving DecidableEq

/-! ### Bits -/

/-- `while words.len() <= word { words.push(0); } words[word] |= 1 << bit`. -/
def setBit (words : List (BitVec 64)) (index : Nat) : List (BitVec 64) :=
  let words := words ++ List.replicate (index / 64 + 1 - words.length) 0
  words.set (index / 64) (words[index / 64]?.getD 0 ||| bit (index % 64))

/-- `words.get(word).is_some_and(|word| word & (1 << bit) != 0)`. -/
def hasBit (words : List (BitVec 64)) (index : Nat) : Bool :=
  match words[index / 64]? with
  | some word => decide (word &&& bit (index % 64) ≠ 0)
  | none => false

/-! ### The builder -/

structure DefinitionTemplateBuilder (F : Type) where
  unknowns : List LocalUnknownInfo := []
  unknownValues : List (Option LocalValueId) := []
  allocatedUnknownCount : Nat := 0
  values : List (LocalValueInfo F) := []
  terminalCount : Nat := 0
  parameterCount : Nat := 0
  timestepValue : Option LocalValueId := none
  stateWrites : List (Option LocalValueId) := []
  stateRequiresWrite : List (BitVec 64) := []
  matrixTerms : List (PendingMatrixTerm F) := []
  rhsTerms : List (LocalRhsTerm F) := []
  iterationStabilityValues : List LocalValueId := []
  iterationLatches : List (LocalValueId × Option LocalValueId) := []
  discreteModes : List LocalValueId := []
  complementaryDrivers : List LocalComplementaryDriver := []
  outputs : List LocalValueId := []

structure CompiledDefinitionTemplate (F : Type) where
  unknowns : List LocalUnknownInfo
  values : List (LocalValueInfo F)
  matrixEntries : List LocalMatrixEntry
  matrixTerms : List (LocalMatrixTerm F)
  rhsTerms : List (LocalRhsTerm F)
  stateWrites : List (LocalStateId × LocalValueId)
  stateCount : Nat
  matrixParameterDependencies : List (BitVec 64)
  timestepAffectsMatrix : Bool
  parameterCount : Nat
  terminalCount : Nat
  allocatedUnknownCount : Nat
  iterationStabilityValues : List LocalValueId
  iterationLatches : List (LocalValueId × LocalValueId)
  discreteModes : List LocalValueId
  complementaryDrivers : List LocalComplementaryDriver
  outputs : List LocalValueId

namespace DefinitionTemplateBuilder

/-- A call on the builder. -/
abbrev Build (F α : Type) := Call (DefinitionTemplateBuilder F) DefinitionTemplateBuildError α

def output (value : LocalValueId) : Build F LocalOutputId := do
  let self ← Call.get
  Call.rejectIf (2 ^ 32 ≤ self.outputs.length) .idExhausted
  Call.set { self with outputs := self.outputs ++ [value] }
  pure ⟨self.outputs.length⟩

/-- Raw value ids start at one. -/
def allocateValue (info : LocalValueInfo F) : Build F LocalValueId := do
  let self ← Call.get
  Call.rejectIf (2 ^ 32 ≤ self.values.length + 1) .idExhausted
  Call.set { self with values := self.values ++ [info] }
  pure ⟨self.values.length⟩

def allocateUnknown (info : LocalUnknownInfo) : Build F LocalUnknownId := do
  let self ← Call.get
  Call.rejectIf (2 ^ 32 ≤ self.unknowns.length) .idExhausted
  Call.set { self with unknowns := self.unknowns ++ [info], unknownValues := self.unknownValues ++ [none] }
  pure ⟨self.unknowns.length⟩

def iterationLatch (initial : LocalValueId) : Build F LocalIterationLatch := do
  let value ← allocateValue ⟨.iterationLatch initial, none⟩
  Call.modify fun self => { self with iterationLatches := self.iterationLatches ++ [(value, none)] }
  pure ⟨value⟩

/-- The latch must be one of the builder's, without an update. -/
def updateIterationLatch (latch : LocalIterationLatch) (update : LocalValueId) : Build F Unit := do
  let self ← Call.get
  let index ← Call.expect (self.iterationLatches.findIdx? fun candidate => decide (candidate.1 = latch.value))
  let entry ← Call.expect self.iterationLatches[index]?
  Call.assert (entry.2 = none)
  Call.set { self with iterationLatches := self.iterationLatches.set index (entry.1, some update) }

def timestep : Build F LocalValueId := do
  let self ← Call.get
  match self.timestepValue with
  | some value => pure value
  | none => do
    let value ← allocateValue ⟨.timestep, none⟩
    Call.modify fun self => { self with timestepValue := some value }
    pure value

def unknownValue (unknown : LocalUnknownId) : Build F LocalValueId := do
  let self ← Call.get
  let known ← Call.expect self.unknownValues[unknown.index]?
  match known with
  | some value => pure value
  | none => do
    let value ← allocateValue ⟨.unknown unknown, none⟩
    Call.modify fun self => { self with unknownValues := self.unknownValues.set unknown.index (some value) }
    pure value

def allocateStateSlot (requiresWrite : Bool) : Build F LocalStateId := do
  let self ← Call.get
  Call.rejectIf (2 ^ 32 ≤ self.stateWrites.length) .idExhausted
  Call.set { self with
    stateWrites := self.stateWrites ++ [none]
    stateRequiresWrite :=
      if requiresWrite = true then setBit self.stateRequiresWrite self.stateWrites.length else self.stateRequiresWrite }
  pure ⟨self.stateWrites.length⟩

def allocateReadState (requiresWrite : Bool) : Build F LocalState := do
  let id ← allocateStateSlot requiresWrite
  let value ← allocateValue ⟨.state id, none⟩
  pure ⟨id, value⟩

def state : Build F LocalState := allocateReadState true

def readState : Build F LocalState := allocateReadState false

def writeOnlyState : Build F LocalStateId := allocateStateSlot true

def writeStateId (state : LocalStateId) (source : LocalValueId) : Build F Unit := do
  let self ← Call.get
  let destination ← Call.expect self.stateWrites[state.index]?
  Call.rejectIf (destination ≠ none) (.duplicateStateProducer state.index)
  Call.set { self with stateWrites := self.stateWrites.set state.index (some source) }

def writeState (state : LocalState) (source : LocalValueId) : Build F Unit := writeStateId state.id source

def terminalVoltage : Build F LocalUnknownId := do
  let self ← Call.get
  Call.rejectIf (2 ^ 32 ≤ self.terminalCount) .idExhausted
  Call.set { self with terminalCount := self.terminalCount + 1 }
  allocateUnknown ⟨.voltage, .terminal self.terminalCount⟩

def allocatedUnknown (kind : LocalUnknownKind) : Build F LocalUnknownId := do
  let self ← Call.get
  Call.rejectIf (2 ^ 32 ≤ self.allocatedUnknownCount) .idExhausted
  Call.set { self with allocatedUnknownCount := self.allocatedUnknownCount + 1 }
  allocateUnknown ⟨kind, .allocated self.allocatedUnknownCount⟩

def allocatedVoltageUnknown : Build F LocalUnknownId := allocatedUnknown .voltage

def branchCurrentUnknown : Build F LocalUnknownId := allocatedUnknown .branchCurrent

def parameter : Build F LocalValueId := do
  let self ← Call.get
  Call.rejectIf (2 ^ 32 ≤ self.parameterCount) .idExhausted
  Call.set { self with parameterCount := self.parameterCount + 1 }
  allocateValue ⟨.parameter ⟨self.parameterCount⟩, none⟩

def constant (value : F) : Build F LocalValueId := allocateValue ⟨.constant value, some value⟩

def requireIterationStability (value : LocalValueId) : Build F Unit :=
  Call.modify fun self => { self with iterationStabilityValues := self.iterationStabilityValues ++ [value] }

def discreteMode (value : LocalValueId) : Build F LocalDiscreteMode := do
  requireIterationStability value
  Call.modify fun self => { self with discreteModes := self.discreteModes ++ [value] }
  pure ⟨value⟩

def registerComplementaryDriver (mode : LocalDiscreteMode) (output highRail lowRail : LocalUnknownId)
    (pullUp pullDown : LocalValueId) : Build F Unit :=
  Call.modify fun self => { self with
    complementaryDrivers := self.complementaryDrivers ++ [⟨mode, output, highRail, lowRail, pullUp, pullDown⟩] }

variable [F64 F]

/-- `add`, `sub`, `mul`, `div` and `less_equal`: what is constant is folded. -/
def binary (op : BinaryOp) (lhs rhs : LocalValueId) : Build F LocalValueId := do
  let self ← Call.get
  let lhsInfo ← Call.expect self.values[lhs.index]?
  let rhsInfo ← Call.expect self.values[rhs.index]?
  match lhsInfo.constant, rhsInfo.constant with
  | some l, some r => constant (op.apply l r)
  | _, _ => allocateValue ⟨.binary op lhs rhs, none⟩

def add (lhs rhs : LocalValueId) : Build F LocalValueId := binary .add lhs rhs

def sub (lhs rhs : LocalValueId) : Build F LocalValueId := binary .sub lhs rhs

def mul (lhs rhs : LocalValueId) : Build F LocalValueId := binary .mul lhs rhs

def div (lhs rhs : LocalValueId) : Build F LocalValueId := binary .div lhs rhs

def lessEqual (lhs rhs : LocalValueId) : Build F LocalValueId := binary .lessEqual lhs rhs

def neg (operand : LocalValueId) : Build F LocalValueId := do
  let self ← Call.get
  let info ← Call.expect self.values[operand.index]?
  match info.constant with
  | some value => constant (F64.neg value)
  | none => allocateValue ⟨.neg operand, none⟩

/-- `if scale == 0.0 { return; }`: else the term is pushed. -/
def unlessZero {α : Type} (scale : F) (term : α) : List α := if F64.beq scale F64.zero = true then [] else [term]

def addMatrix (row column : LocalUnknownId) (source : LocalValueId) (scale : F) : Build F Unit :=
  Call.modify fun self => { self with
    matrixTerms := self.matrixTerms ++ unlessZero scale ⟨row, column, source, scale⟩ }

def addRhs (destination : LocalUnknownId) (source : LocalValueId) (scale : F) : Build F Unit :=
  Call.modify fun self => { self with
    rhsTerms := self.rhsTerms ++ unlessZero scale ⟨destination, source, scale⟩ }

end DefinitionTemplateBuilder

/-! ### What the matrix depends on -/

/-- A round of `matrix_static_dependencies`; the head of `pending` is popped. The fuel bounds the rounds. -/
def staticDependencies (values : List (LocalValueInfo F)) : Nat → List LocalValueId → List Bool →
    List (BitVec 64) → Bool → Option (List (BitVec 64) × Bool)
  | 0, _, _, _, _ => none
  | _ + 1, [], _, parameters, timestep => some (parameters, timestep)
  | fuel + 1, value :: pending, visited, parameters, timestep => do
    let seen ← visited[value.index]?
    if seen = true then staticDependencies values fuel pending visited parameters timestep
    else do
      let visited := visited.set value.index true
      let info ← values[value.index]?
      match info.node with
      | .parameter parameter => do
        let word ← parameters[parameter.index / 64]?
        staticDependencies values fuel pending visited
          (parameters.set (parameter.index / 64) (word ||| bit (parameter.index % 64))) timestep
      | .timestep => staticDependencies values fuel pending visited parameters true
      | .binary _ lhs rhs => staticDependencies values fuel (rhs :: lhs :: pending) visited parameters timestep
      | .iterationLatch initial => staticDependencies values fuel (initial :: pending) visited parameters timestep
      | .neg operand => staticDependencies values fuel (operand :: pending) visited parameters timestep
      | .constant _ | .state _ | .unknown _ => staticDependencies values fuel pending visited parameters timestep

/-- `matrix_static_dependencies`: every value is expanded once, into at most two. -/
def matrixStaticDependencies (values : List (LocalValueInfo F)) (matrixTerms : List (PendingMatrixTerm F))
    (parameterCount : Nat) : Option (List (BitVec 64) × Bool) :=
  let wordCount := parameterCount / 64 + if parameterCount % 64 = 0 then 0 else 1
  staticDependencies values (matrixTerms.length + 2 * values.length + 1)
    (matrixTerms.map PendingMatrixTerm.source).reverse (List.replicate values.length false)
    (List.replicate wordCount 0) false

/-! ### Finishing -/

namespace DefinitionTemplateBuilder

/-- The write of one state; a state that requires one must have it. -/
def finishStateWrite (requiresWrite : List (BitVec 64)) (written : List (LocalStateId × LocalValueId))
    (entry : Option LocalValueId × Nat) : Except DefinitionTemplateBuildError (List (LocalStateId × LocalValueId)) :=
  match entry.1 with
  | some source => .ok (written ++ [(⟨entry.2⟩, source)])
  | none =>
    if hasBit requiresWrite entry.2 = true then .error (.missingStateProducer entry.2) else .ok written

def matrixCoordinate (term : PendingMatrixTerm F) : Nat × Nat := (term.column.index, term.row.index)

/-- `coordinates.sort_unstable(); coordinates.dedup()`. -/
def matrixCoordinates (terms : List (PendingMatrixTerm F)) : List (Nat × Nat) :=
  PatternBuilder.dedup ((terms.map matrixCoordinate).mergeSort PatternBuilder.coordinateLe)

/-- The destination is found by binary search of the coordinate. -/
def localMatrixTerm (coordinates : List (Nat × Nat)) (term : PendingMatrixTerm F) : Build F (LocalMatrixTerm F) := do
  let index ← Call.expect (coordinates.findIdx? fun coordinate => decide (coordinate = matrixCoordinate term))
  Call.rejectIf (2 ^ 32 ≤ index) .idExhausted
  pure ⟨⟨index⟩, term.source, term.scale⟩

/-- The entry of a coordinate of column and row. -/
def matrixEntry (coordinate : Nat × Nat) : LocalMatrixEntry := ⟨⟨coordinate.2⟩, ⟨coordinate.1⟩⟩

def finishLatch (latch : LocalValueId × Option LocalValueId) : Option (LocalValueId × LocalValueId) :=
  latch.2.map fun update => (latch.1, update)

variable [F64 F]

def finish : Build F (CompiledDefinitionTemplate F) := do
  let self ← Call.get
  let matrixTerms ← Call.expect (canonicalizePendingMatrixTerms self.matrixTerms)
  let rhsTerms ← Call.expect (canonicalizeRhsTerms self.rhsTerms)
  let dependencies ← Call.expect (matrixStaticDependencies self.values matrixTerms self.parameterCount)
  let stateWrites ← Call.ofExcept id (self.stateWrites.zipIdx.foldlM (finishStateWrite self.stateRequiresWrite) [])
  let coordinates := matrixCoordinates matrixTerms
  let localTerms ← Call.pushEach (fun _ term => localMatrixTerm coordinates term) [] matrixTerms
  let iterationLatches ← Call.expect (self.iterationLatches.mapM finishLatch)
  pure
    { unknowns := self.unknowns
      values := self.values
      matrixEntries := coordinates.map matrixEntry
      matrixTerms := localTerms
      rhsTerms
      stateWrites
      stateCount := self.stateWrites.length
      matrixParameterDependencies := dependencies.1
      timestepAffectsMatrix := dependencies.2
      parameterCount := self.parameterCount
      terminalCount := self.terminalCount
      allocatedUnknownCount := self.allocatedUnknownCount
      iterationStabilityValues := (sortDedup (self.iterationStabilityValues.map (·.index))).map ValueSlot.mk
      iterationLatches
      discreteModes := (sortDedup (self.discreteModes.map (·.index))).map ValueSlot.mk
      complementaryDrivers := self.complementaryDrivers
      outputs := self.outputs }

end DefinitionTemplateBuilder

/-! ### Instantiation -/

namespace CompiledDefinitionTemplate

open DefinitionTemplateBuilder

def outputCount (self : CompiledDefinitionTemplate F) : Nat := self.outputs.length

def parameterAffectsMatrix (self : CompiledDefinitionTemplate F) (parameter : LocalParameterId) : Bool :=
  hasBit self.matrixParameterDependencies parameter.index

def instantiateUnknown (terminals : List LocalUnknownId) (info : LocalUnknownInfo) : Build F LocalUnknownId :=
  match info.binding with
  | .terminal index => Call.expect terminals[index]?
  | .allocated _ =>
    match info.kind with
    | .voltage => allocatedVoltageUnknown
    | .branchCurrent => branchCurrentUnknown

variable [F64 F]

/-- `values` holds the instantiated values so far. -/
def instantiateValue (parameters : List LocalValueId) (states : List LocalStateId) (unknowns : List LocalUnknownId)
    (values : List LocalValueId) (info : LocalValueInfo F) : Build F LocalValueId :=
  match info.node with
  | .parameter parameter => Call.expect parameters[parameter.index]?
  | .constant value => constant value
  | .timestep => timestep
  | .state state => do
    let state ← Call.expect states[state.index]?
    allocateValue ⟨.state state, none⟩
  | .unknown unknown => do
    let unknown ← Call.expect unknowns[unknown.index]?
    unknownValue unknown
  | .binary op lhs rhs => do
    let lhs ← Call.expect values[lhs.index]?
    let rhs ← Call.expect values[rhs.index]?
    binary op lhs rhs
  | .iterationLatch initial => do
    let initial ← Call.expect values[initial.index]?
    let latch ← iterationLatch initial
    pure latch.value
  | .neg operand => do
    let operand ← Call.expect values[operand.index]?
    neg operand

def instantiateLatch (values : List LocalValueId) (latch : LocalValueId × LocalValueId) : Build F Unit := do
  let value ← Call.expect values[latch.1.index]?
  let update ← Call.expect values[latch.2.index]?
  updateIterationLatch ⟨value⟩ update

def instantiateStability (values : List LocalValueId) (value : LocalValueId) : Build F Unit := do
  let value ← Call.expect values[value.index]?
  requireIterationStability value

def instantiateMode (values : List LocalValueId) (mode : LocalValueId) : Build F Unit := do
  let mode ← Call.expect values[mode.index]?
  let _ ← discreteMode mode

def instantiateDriver (unknowns : List LocalUnknownId) (values : List LocalValueId) (driver : LocalComplementaryDriver) :
    Build F Unit := do
  let mode ← Call.expect values[driver.mode.value.index]?
  let output ← Call.expect unknowns[driver.output.index]?
  let highRail ← Call.expect unknowns[driver.highRail.index]?
  let lowRail ← Call.expect unknowns[driver.lowRail.index]?
  let pullUp ← Call.expect values[driver.pullUp.index]?
  let pullDown ← Call.expect values[driver.pullDown.index]?
  registerComplementaryDriver ⟨mode⟩ output highRail lowRail pullUp pullDown

def instantiateMatrixTerm (entries : List LocalMatrixEntry) (unknowns : List LocalUnknownId) (values : List LocalValueId)
    (term : LocalMatrixTerm F) : Build F Unit := do
  let entry ← Call.expect entries[term.destination.index]?
  let row ← Call.expect unknowns[entry.row.index]?
  let column ← Call.expect unknowns[entry.column.index]?
  let source ← Call.expect values[term.source.index]?
  addMatrix row column source term.scale

def instantiateRhsTerm (unknowns : List LocalUnknownId) (values : List LocalValueId) (term : LocalRhsTerm F) :
    Build F Unit := do
  let destination ← Call.expect unknowns[term.destination.index]?
  let source ← Call.expect values[term.source.index]?
  addRhs destination source term.scale

def instantiateWrite (states : List LocalStateId) (values : List LocalValueId) (write : LocalStateId × LocalValueId) :
    Build F Unit := do
  let state ← Call.expect states[write.1.index]?
  let source ← Call.expect values[write.2.index]?
  writeStateId state source

/-- The loops of `instantiate_into` over what is not computed, by their bodies. -/
def instantiateStamps (self : CompiledDefinitionTemplate F) (states : List LocalStateId) (unknowns : List LocalUnknownId)
    (values : List LocalValueId) : Build F Unit := do
  self.iterationLatches.forM (instantiateLatch values)
  self.iterationStabilityValues.forM (instantiateStability values)
  self.discreteModes.forM (instantiateMode values)
  self.complementaryDrivers.forM (instantiateDriver unknowns values)
  self.matrixTerms.forM (instantiateMatrixTerm self.matrixEntries unknowns values)
  self.rhsTerms.forM (instantiateRhsTerm unknowns values)
  self.stateWrites.forM (instantiateWrite states values)

def instantiateInto (self : CompiledDefinitionTemplate F) (terminals : List LocalUnknownId)
    (parameters : List LocalValueId) (states : List LocalStateId) : Build F (List LocalValueId) := do
  Call.assert (terminals.length = self.terminalCount)
  Call.assert (parameters.length = self.parameterCount)
  Call.assert (states.length = self.stateCount)
  let unknowns ← Call.pushEach (fun _ info => instantiateUnknown terminals info) [] self.unknowns
  let values ← Call.pushEach (instantiateValue parameters states unknowns) [] self.values
  instantiateStamps self states unknowns values
  Call.expect (self.outputs.mapM fun output => values[output.index]?)

end CompiledDefinitionTemplate

end Hynergy
