import Hynergy.Compile.Discrete

/-!
# The discrete closure

From a solution the outputs of the drivers are predicted: in every round the drivers of the
frontier are recomputed, and the dependents of those whose output changed are the next frontier.
-/

namespace Hynergy

open Lib

variable {F : Type}

def discreteClosureMaxRounds : Nat := 128

inductive ClosureOutcome where
  | settled | barrier | budgetExceeded | invalidPrediction
  deriving DecidableEq

structure DiscreteScratch (F : Type) where
  iteration : IterationScratch
  driverOutputs : List F
  currentFrontier : List Nat
  nextFrontier : List Nat
  queuedGeneration : List Nat
  generation : Nat

namespace DiscreteScratch

def new [F64 F] (plan : CompiledDiscretePlan) : DiscreteScratch F :=
  { iteration := plan.iterationDependencies.newScratch
    driverOutputs := List.replicate plan.drivers.length F64.zero
    currentFrontier := []
    nextFrontier := []
    queuedGeneration := List.replicate plan.drivers.length 0
    generation := 0 }

/-- Driver indices are `u32`. -/
def seedAll (self : DiscreteScratch F) (driverCount : Nat) : Option (DiscreteScratch F) :=
  if driverCount ≤ 2 ^ 32 then some { self with currentFrontier := List.range driverCount, nextFrontier := [] }
  else none

def beginNextFrontier (self : DiscreteScratch F) : DiscreteScratch F :=
  { self with
    nextFrontier := []
    generation := (nextGeneration self.generation self.queuedGeneration).1
    queuedGeneration := (nextGeneration self.generation self.queuedGeneration).2 }

def queueDependent (self : DiscreteScratch F) (driver : Nat) : Option (DiscreteScratch F) := do
  let queued ← self.queuedGeneration[driver]?
  if queued = self.generation then some self
  else some { self with
    queuedGeneration := self.queuedGeneration.set driver self.generation
    nextFrontier := self.nextFrontier ++ [driver] }

end DiscreteScratch

/-- What the closure is run with. -/
structure DiscreteClosureContext (F : Type) where
  plan : CompiledDiscretePlan
  ir : CompiledIslandIr F
  factorizedIterationMatrixSources : List F
  rhsBarrierReference : List F

/-- What a run of the closure changes. -/
structure ClosureState (F : Type) where
  workspace : ValueWorkspace F
  predicted : List F
  scratch : DiscreteScratch F

/-- What the outputs of a round change. -/
structure OutputUpdate (F : Type) where
  predicted : List F
  scratch : DiscreteScratch F
  changed : Bool

section Closure

variable [F64 F]

/-- The reference node is at zero. -/
def unknownVoltage (solution : List F) (unknown : Option UnknownIndex) : Option F :=
  match unknown with
  | none => some F64.zero
  | some unknown => solution[unknown.index]?

def evaluateIteration (ir : CompiledIslandIr F) (workspace : ValueWorkspace F) (solution : List F) :
    Option (ValueWorkspace F) := do
  let workspace ← ir.solutionInputs.foldlM (fun workspace entry => do
    let value ← solution[entry.1.index]?
    ValueWorkspace.setInput workspace entry.2 value) workspace
  ir.valueProgram.executeIteration workspace

/-- The output a driver is predicted to have; an inner `none` is an invalid prediction. -/
def predictedOutput (workspace : ValueWorkspace F) (predicted : List F) (driver : QualifiedComplementaryDriver) :
    Option (Option F) := do
  let pullUp ← workspace.value driver.pullUp
  let pullDown ← workspace.value driver.pullDown
  let high ← unknownVoltage predicted driver.highRail
  let low ← unknownVoltage predicted driver.lowRail
  let denominator := F64.add pullUp pullDown
  let output := F64.div (F64.add (F64.mul pullUp high) (F64.mul pullDown low)) denominator
  if !F64.isFinite pullUp || !F64.isFinite pullDown || !F64.isFinite high || !F64.isFinite low ||
      !F64.isFinite denominator || F64.beq denominator F64.zero then some none
  else if !F64.isFinite output then some none
  else some (some output)

/-- The outputs of the drivers, up to the first invalid prediction. -/
def scanDrivers (plan : CompiledDiscretePlan) (workspace : ValueWorkspace F) (predicted : List F) :
    List Nat → List F → Option (Bool × List F)
  | [], outputs => some (true, outputs)
  | index :: frontier, outputs => do
    let driver ← plan.drivers[index]?
    let prediction ← predictedOutput workspace predicted driver
    match prediction with
    | none => some (false, outputs)
    | some output => do
      let outputs ← assign outputs index output
      scanDrivers plan workspace predicted frontier outputs

/-- A driver's output is taken over; where it changed its dependents are queued. -/
def updateOutput (plan : CompiledDiscretePlan) (state : OutputUpdate F) (index : Nat) : Option (OutputUpdate F) := do
  let driver ← plan.drivers[index]?
  let output ← state.scratch.driverOutputs[index]?
  let before ← state.predicted[driver.output.index]?
  let predicted ← assign state.predicted driver.output.index output
  if F64.beq before output then some { state with predicted }
  else do
    let dependents ← plan.dependentsFor index
    let scratch ← dependents.foldlM DiscreteScratch.queueDependent state.scratch
    some { predicted, scratch, changed := true }

/-- The input of a driver's output is set and marked unless it holds the bits of the prediction. -/
def refreshInput (plan : CompiledDiscretePlan) (predicted : List F) (state : ValueWorkspace F × IterationScratch)
    (index : Nat) : Option (ValueWorkspace F × IterationScratch) := do
  let input ← plan.driverOutputInputs[index]?
  match input with
  | none => some state
  | some input => do
    let driver ← plan.drivers[index]?
    let value ← predicted[driver.output.index]?
    let held ← state.1.value input.value
    if F64.toBits held = F64.toBits value then some state
    else do
      let workspace ← state.1.setInput input value
      let scratch ← plan.iterationDependencies.markInput input state.2
      some (workspace, scratch)

def evaluateChangedIteration (plan : CompiledDiscretePlan) (ir : CompiledIslandIr F) (state : ClosureState F) :
    Option (ClosureState F) := do
  let prepared ← state.scratch.currentFrontier.foldlM (refreshInput plan state.predicted)
    (state.workspace, state.scratch.iteration)
  let result ← ir.valueProgram.executeIterationIncremental plan.iterationDependencies prepared.1 prepared.2
  some { state with workspace := result.1, scratch := { state.scratch with iteration := result.2.1 } }

/-- The conservative seeds are queued with the first stability value that changed. -/
def queueConservativeSeeds (plan : CompiledDiscretePlan) (state : Bool × DiscreteScratch F) :
    Option (DiscreteScratch F) :=
  if state.1 then some state.2 else plan.conservativeSeedDrivers.foldlM DiscreteScratch.queueDependent state.2

/-- A stability value that differs from the expected one queues its dependents. -/
def seedStability (plan : CompiledDiscretePlan) (workspace : ValueWorkspace F) (state : Bool × DiscreteScratch F)
    (entry : (ValueSlot × F) × Nat) : Option (Bool × DiscreteScratch F) := do
  let value ← workspace.value entry.1.1
  if F64.beq value entry.1.2 then some state
  else do
    let scratch ← queueConservativeSeeds plan state
    let dependents ← plan.stabilityDependentsFor entry.2
    let scratch ← dependents.foldlM DiscreteScratch.queueDependent scratch
    some (true, scratch)

/-- Whether a stability value changed, and the frontier of the drivers that may depend on it. -/
def prepareDiscreteClosureFrontier (plan : CompiledDiscretePlan) (ir : CompiledIslandIr F)
    (workspace : ValueWorkspace F) (expectedStability : List F) (scratch : DiscreteScratch F) :
    Option (Bool × DiscreteScratch F) := do
  let result ← (ir.iterationStabilityValues.zip expectedStability).zipIdx.foldlM (seedStability plan workspace)
    (false, { scratch with currentFrontier := [] }.beginNextFrontier)
  if result.1 then
    some (true, { result.2 with
      currentFrontier := result.2.nextFrontier
      nextFrontier := result.2.currentFrontier })
  else some (false, { result.2 with nextFrontier := [] })

namespace DiscreteClosureContext

/-- `barriers_changed`. -/
def barriersChanged (self : DiscreteClosureContext F) (workspace : ValueWorkspace F) : Option Bool := do
  let matrix ← self.plan.matrixBarriers.anyM fun barrier => do
    let value ← workspace.value barrier.source
    let factorized ← self.factorizedIterationMatrixSources[barrier.factorizedSourceIndex]?
    some (!F64.beq value factorized)
  if matrix then some true
  else (self.plan.rhsBarriers.zip self.rhsBarrierReference).anyM fun barrier => do
    let value ← workspace.value barrier.1
    some (!F64.beq value barrier.2)

/-- Settled, unless a barrier changed. -/
def settle (self : DiscreteClosureContext F) (state : ClosureState F) : Option (ClosureOutcome × ClosureState F) := do
  let changed ← self.barriersChanged state.workspace
  some (if changed then .barrier else .settled, state)

/-- At most so many rounds. -/
def runRounds (self : DiscreteClosureContext F) : Nat → ClosureState F → Option (ClosureOutcome × ClosureState F)
  | 0, state => some (.budgetExceeded, state)
  | rounds + 1, state => do
    let blocked ← self.barriersChanged state.workspace
    if blocked then some (.barrier, state)
    else do
      let scan ← scanDrivers self.plan state.workspace state.predicted state.scratch.currentFrontier
        state.scratch.driverOutputs
      let scratch := { state.scratch with driverOutputs := scan.2 }
      if !scan.1 then some (.invalidPrediction, { state with scratch })
      else do
        let update ← state.scratch.currentFrontier.foldlM (updateOutput self.plan)
          ⟨state.predicted, scratch.beginNextFrontier, false⟩
        let updated : ClosureState F := ⟨state.workspace, update.predicted, update.scratch⟩
        if !update.changed then some (.settled, updated)
        else do
          let evaluated ← evaluateChangedIteration self.plan self.ir updated
          if evaluated.scratch.nextFrontier.isEmpty then self.settle evaluated
          else self.runRounds rounds { evaluated with
            scratch := { evaluated.scratch with
              currentFrontier := evaluated.scratch.nextFrontier
              nextFrontier := evaluated.scratch.currentFrontier } }

def runSeededEvaluatedWithLimit (self : DiscreteClosureContext F) (maxRounds : Nat) (state : ClosureState F) :
    Option (ClosureOutcome × ClosureState F) :=
  if state.scratch.currentFrontier.isEmpty then self.settle state else self.runRounds maxRounds state

/-- With every driver in the frontier. -/
def runEvaluatedWithLimit (self : DiscreteClosureContext F) (maxRounds : Nat) (state : ClosureState F) :
    Option (ClosureOutcome × ClosureState F) := do
  let scratch ← state.scratch.seedAll self.plan.drivers.length
  self.runSeededEvaluatedWithLimit maxRounds { state with scratch }

end DiscreteClosureContext

end Closure

end Hynergy
