import Mathlib.Data.List.Sort
import Hynergy.Ir.Incremental

/-!
# The IR of an island

The components of an island are compiled into one value program, with what is added to the
matrix and the right-hand side, what is written to the state, and the values an iteration has
to leave stable. Every unknown that is read has one solution input.
-/

namespace Hynergy

open Lib

variable {F : Type}

/-- An unknown of the system of equations. -/
structure UnknownIndex where
  index : Nat
  deriving DecidableEq

structure MatrixSlot where
  index : Nat
  deriving DecidableEq

structure StateSlot where
  index : Nat
  deriving DecidableEq

/-! ### Sorted lists -/

/-- The lexicographic order of keys. -/
def keyLe : List Nat → List Nat → Bool
  | [], _ => true
  | _ :: _, [] => false
  | a :: as, b :: bs => decide (a < b) || decide (a = b) && keyLe as bs

def sortByKey {α : Type} (key : α → List Nat) (l : List α) : List α :=
  l.insertionSort fun a b => keyLe (key a) (key b) = true

/-- `sort_unstable(); dedup()` on indices. -/
def sortDedup (l : List Nat) : List Nat := (l.insertionSort (· ≤ ·)).dedup

/-- The read index runs over `terms`, `term` is at the write index. -/
def mergeFrom {α : Type} (same : α → α → Bool) (plus : α → α → α) (term : α) : List α → List α
  | [] => [term]
  | next :: terms =>
    if same term next then mergeFrom same plus (plus term next) terms else term :: mergeFrom same plus next terms

/-- Terms of one key are added up; what is or becomes zero is left out. -/
def canonicalize {α : Type} (isZero : α → Bool) (key : α → List Nat) (plus : α → α → α) (terms : List α) : List α :=
  match sortByKey key (terms.filter fun term => !isZero term) with
  | [] => []
  | term :: terms => (mergeFrom (fun a b => decide (key a = key b)) plus term terms).filter fun term => !isZero term

/-! ### Programs of the stamps -/

structure MatrixAdd (F : Type) where
  destination : MatrixSlot
  source : ValueSlot
  scale : F
  deriving DecidableEq

structure RhsAdd (F : Type) where
  destination : UnknownIndex
  source : ValueSlot
  scale : F
  deriving DecidableEq

structure StateWrite where
  destination : StateSlot
  source : ValueSlot
  deriving DecidableEq

/-- The operations of `MatrixProgram::new`. -/
def matrixProgram [F64 F] : List (MatrixAdd F) → List (MatrixAdd F) :=
  canonicalize (fun op => F64.beq op.scale F64.zero) (fun op => [op.destination.index, op.source.index])
    fun a b => { a with scale := F64.add a.scale b.scale }

/-- The operations of `RhsProgram::new`. -/
def rhsProgram [F64 F] : List (RhsAdd F) → List (RhsAdd F) :=
  canonicalize (fun op => F64.beq op.scale F64.zero) (fun op => [op.destination.index, op.source.index])
    fun a b => { a with scale := F64.add a.scale b.scale }

inductive StateProgramError where
  | duplicateDestination (destination : StateSlot)
  deriving DecidableEq

/-- The first of two neighbours with one destination. -/
def duplicateDestination : List StateWrite → Option StateSlot
  | first :: second :: writes =>
    if first.destination = second.destination then some first.destination else duplicateDestination (second :: writes)
  | _ => none

/-- The writes of `StateTransitionProgram::new`. -/
def stateTransition (writes : List StateWrite) : Except StateProgramError (List StateWrite) :=
  let writes := sortByKey (fun write => [write.destination.index]) writes
  match duplicateDestination writes with
  | some destination => .error (.duplicateDestination destination)
  | none => .ok writes

/-! ### The builder -/

inductive IterationStampDependency where
  | none | rhs | matrix
  deriving DecidableEq

structure PendingIterationLatch where
  input : InputSlot
  initial : ValueSlot
  update : Option ValueSlot

structure IterationLatch where
  input : InputSlot
  initial : ValueSlot
  update : ValueSlot
  deriving DecidableEq

/-- A map is the list of its entries, the keys ascending. -/
structure IslandIrBuilder (F : Type) where
  values : ValueProgramBuilder F := {}
  matrixStaticInputs : List InputSlot := []
  matrixOps : List (MatrixAdd F) := []
  rhsOps : List (RhsAdd F) := []
  stateWrites : List StateWrite := []
  timestepInput : Option InputSlot := none
  zeroValue : Option ValueSlot := none
  solutionInputs : List (UnknownIndex × InputSlot) := []
  stateInputs : List (StateSlot × InputSlot) := []
  iterationStampDependency : IterationStampDependency := .none
  iterationStabilityValues : List ValueSlot := []
  iterationLatches : List PendingIterationLatch := []

structure CompiledIslandIr (F : Type) where
  valueProgram : ValueProgram F
  matrixProgram : List (MatrixAdd F)
  rhsProgram : List (RhsAdd F)
  stateTransition : List StateWrite
  matrixStaticInputs : List InputSlot
  iterationMatrixSources : List ValueSlot
  iterationStampDependency : IterationStampDependency
  iterationStabilityValues : List ValueSlot
  iterationLatches : List IterationLatch
  timestepInput : Option InputSlot
  solutionInputs : List (UnknownIndex × InputSlot)
  stateInputs : List (StateSlot × InputSlot)

/-- `BTreeMap::insert` of a key that is not there. -/
def insertByKey {κ α : Type} (index : κ → Nat) (key : κ) (value : α) (entries : List (κ × α)) : List (κ × α) :=
  entries.takeWhile (fun entry => decide (index entry.1 < index key)) ++
    (key, value) :: entries.dropWhile fun entry => decide (index entry.1 < index key)

/-- `BTreeMap::get`, and the binary search in the entries of a map. -/
def getByKey {κ α : Type} [DecidableEq κ] (key : κ) (entries : List (κ × α)) : Option α :=
  (entries.find? fun entry => decide (entry.1 = key)).map Prod.snd

namespace IslandIrBuilder

/-- A call on the builder. -/
abbrev Build (F α : Type) := Call (IslandIrBuilder F) ValueBuildError α

def onValues {α : Type} (call : ValueProgramBuilder.Build F α) : Build F α :=
  Call.zoom (·.values) (fun builder values => { builder with values }) (fun error => error) call

def markMatrixStaticInput (input : InputSlot) : Build F Unit :=
  Call.modify fun builder => { builder with matrixStaticInputs := builder.matrixStaticInputs ++ [input] }

def constantValue (value : F) : Build F ValueSlot := onValues (ValueProgramBuilder.constant value)

/-- `record_iteration_stamp_dependency`; the source must be known. -/
def recordIterationStampDependency (source : ValueSlot) (affectsMatrix : Bool) : Build F Unit := do
  let rate ← Call.expectOk (onValues (ValueProgramBuilder.rate source))
  if rate = .iteration then
    Call.modify fun builder => { builder with
      iterationStampDependency :=
        if affectsMatrix = true then .matrix
        else if builder.iterationStampDependency = .none then .rhs
        else builder.iterationStampDependency }

def addMatrix (destination : MatrixSlot) (source : ValueSlot) (scale : F) : Build F Unit := do
  recordIterationStampDependency source true
  Call.modify fun builder => { builder with matrixOps := builder.matrixOps ++ [⟨destination, source, scale⟩] }

def addRhs (destination : UnknownIndex) (source : ValueSlot) (scale : F) : Build F Unit := do
  recordIterationStampDependency source false
  Call.modify fun builder => { builder with rhsOps := builder.rhsOps ++ [⟨destination, source, scale⟩] }

def writeState (destination : StateSlot) (source : ValueSlot) : Build F Unit :=
  Call.modify fun builder => { builder with stateWrites := builder.stateWrites ++ [⟨destination, source⟩] }

def requireIterationStability (value : ValueSlot) : Build F Unit :=
  Call.modify fun builder => { builder with
    iterationStabilityValues := builder.iterationStabilityValues ++ [value] }

/-- The latch must be one of the builder's, without an update. -/
def updateIterationLatch (latch update : ValueSlot) : Build F Unit := do
  let builder ← Call.get
  let index ← Call.expect (builder.iterationLatches.findIdx? fun candidate => decide (candidate.input.value = latch))
  let pending ← Call.expect builder.iterationLatches[index]?
  Call.assert (pending.update = none)
  Call.set { builder with
    iterationLatches := builder.iterationLatches.set index { pending with update := some update } }

variable [F64 F]

def iterationLatch (initial : ValueSlot) : Build F ValueSlot := do
  let _ ← onValues (ValueProgramBuilder.rate initial)
  let input ← onValues ValueProgramBuilder.iterationInput
  Call.modify fun builder => { builder with
    iterationLatches := builder.iterationLatches ++ [⟨input, initial, none⟩] }
  pure input.value

def parameterInput (affectsMatrix : Bool) : Build F InputSlot := do
  let input ← onValues ValueProgramBuilder.staticInput
  if affectsMatrix = true then markMatrixStaticInput input
  pure input

def timestepValue (affectsMatrix : Bool) : Build F ValueSlot := do
  let builder ← Call.get
  match builder.timestepInput with
  | some input => do
    if affectsMatrix = true then markMatrixStaticInput input
    pure input.value
  | none => do
    let input ← onValues ValueProgramBuilder.staticInput
    Call.modify fun builder => { builder with timestepInput := some input }
    if affectsMatrix = true then markMatrixStaticInput input
    pure input.value

def stateValue (state : StateSlot) : Build F ValueSlot := do
  let builder ← Call.get
  match getByKey state builder.stateInputs with
  | some input => pure input.value
  | none => do
    let input ← onValues ValueProgramBuilder.tickInput
    Call.modify fun builder => { builder with
      stateInputs := insertByKey StateSlot.index state input builder.stateInputs }
    pure input.value

def referenceValue : Build F ValueSlot := do
  let builder ← Call.get
  match builder.zeroValue with
  | some value => pure value
  | none => do
    let value ← constantValue F64.zero
    Call.modify fun builder => { builder with zeroValue := some value }
    pure value

def unknownValue (unknown : Option UnknownIndex) : Build F ValueSlot :=
  match unknown with
  | none => referenceValue
  | some unknown => do
    let builder ← Call.get
    match getByKey unknown builder.solutionInputs with
    | some input => pure input.value
    | none => do
      let input ← onValues ValueProgramBuilder.iterationInput
      Call.modify fun builder => { builder with
        solutionInputs := insertByKey UnknownIndex.index unknown input builder.solutionInputs }
      pure input.value

/-- `add_value`, `sub_value`, `mul_value`, `div_value` and `less_equal_value`. -/
def binaryValue (op : BinaryOp) (lhs rhs : ValueSlot) : Build F ValueSlot :=
  onValues (ValueProgramBuilder.binary op lhs rhs)

def negValue (operand : ValueSlot) : Build F ValueSlot := onValues (ValueProgramBuilder.neg operand)

/-- `finish`; an outer `none` is a panic: a latch without an update, or a matrix source that is not known. -/
def finish (self : IslandIrBuilder F) : Option (Except StateProgramError (CompiledIslandIr F)) :=
  match Hynergy.stateTransition self.stateWrites with
  | .error error => some (.error error)
  | .ok stateTransition => do
    let iterationLatches ← self.iterationLatches.mapM fun latch =>
      latch.update.map fun update => (⟨latch.input, latch.initial, update⟩ : IterationLatch)
    let matrixProgram := Hynergy.matrixProgram self.matrixOps
    let iterationMatrixSources ← (matrixProgram.map MatrixAdd.source).filterM fun source =>
      self.values.slots[source.index]?.map fun info => decide (info.rate = .iteration)
    some (.ok
      { valueProgram := self.values.finish
        matrixProgram
        rhsProgram := Hynergy.rhsProgram self.rhsOps
        stateTransition
        matrixStaticInputs := (sortDedup (self.matrixStaticInputs.map (·.index))).map InputSlot.mk
        iterationMatrixSources := (sortDedup (iterationMatrixSources.map (·.index))).map ValueSlot.mk
        iterationStampDependency := self.iterationStampDependency
        iterationStabilityValues := (sortDedup (self.iterationStabilityValues.map (·.index))).map ValueSlot.mk
        iterationLatches
        timestepInput := self.timestepInput
        solutionInputs := self.solutionInputs
        stateInputs := self.stateInputs })

end IslandIrBuilder

/-- A call on the builder of an island's IR. -/
inductive IslandIrCall (F : Type) where
  | iterationLatch (initial : ValueSlot)
  | updateIterationLatch (latch update : ValueSlot)
  | parameterInput (affectsMatrix : Bool)
  | constantValue (value : F)
  | timestepValue (affectsMatrix : Bool)
  | stateValue (state : StateSlot)
  | unknownValue (unknown : Option UnknownIndex)
  | binaryValue (op : BinaryOp) (lhs rhs : ValueSlot)
  | negValue (operand : ValueSlot)
  | addMatrix (destination : MatrixSlot) (source : ValueSlot) (scale : F)
  | addRhs (destination : UnknownIndex) (source : ValueSlot) (scale : F)
  | writeState (destination : StateSlot) (source : ValueSlot)
  | requireIterationStability (value : ValueSlot)

namespace IslandIrCall

variable [F64 F]

/-- The call, its result dropped. -/
def apply : IslandIrCall F → IslandIrBuilder.Build F Unit
  | .iterationLatch initial => do let _ ← IslandIrBuilder.iterationLatch initial
  | .updateIterationLatch latch update => IslandIrBuilder.updateIterationLatch latch update
  | .parameterInput affectsMatrix => do let _ ← IslandIrBuilder.parameterInput affectsMatrix
  | .constantValue value => do let _ ← IslandIrBuilder.constantValue value
  | .timestepValue affectsMatrix => do let _ ← IslandIrBuilder.timestepValue affectsMatrix
  | .stateValue state => do let _ ← IslandIrBuilder.stateValue state
  | .unknownValue unknown => do let _ ← IslandIrBuilder.unknownValue unknown
  | .binaryValue op lhs rhs => do let _ ← IslandIrBuilder.binaryValue op lhs rhs
  | .negValue operand => do let _ ← IslandIrBuilder.negValue operand
  | .addMatrix destination source scale => IslandIrBuilder.addMatrix destination source scale
  | .addRhs destination source scale => IslandIrBuilder.addRhs destination source scale
  | .writeState destination source => IslandIrBuilder.writeState destination source
  | .requireIterationStability value => IslandIrBuilder.requireIterationStability value

/-- A sequence of calls; a call that fails is passed over, `none` is a panic. -/
def applyAll (builder : IslandIrBuilder F) : List (IslandIrCall F) → Option (IslandIrBuilder F)
  | [] => some builder
  | call :: calls =>
    match call.apply builder with
    | .ok _ builder => applyAll builder calls
    | .err _ builder => applyAll builder calls
    | .panic => none

end IslandIrCall

end Hynergy
