import Hynergy.Compile.Template
import Hynergy.Model.Definition

/-!
# Compiling primitives

How each built-in primitive is stamped. The tick delay has a partition for each of its ports, the others have
one partition.
-/

namespace Hynergy

open DefinitionTemplateBuilder

variable {F : Type}

inductive DefinitionCompileError where
  | unsupportedPrimitive (kind : PrimitiveElementKind)
  | compositeNotYetSupported
  | template (error : DefinitionTemplateBuildError)
  | multipleStateWriterPartitions (state : DefinitionStateId) (first second : DevicePartitionId)
  | missingStateWriter (state : DefinitionStateId)
  deriving DecidableEq

/-- A call of the compiler: there is no state. -/
abbrev Compile (α : Type) := Call Unit DefinitionCompileError α

section Stamps

variable [F64 F]

/-- `-1.0`. -/
abbrev minusOne : F := F64.neg F64.one

def voltageDifference (positive negative : LocalUnknownId) : Build F LocalValueId := do
  let positive ← unknownValue positive
  let negative ← unknownValue negative
  sub positive negative

def stampConductance (a b : LocalUnknownId) (conductance : LocalValueId) : Build F Unit := do
  addMatrix a a conductance F64.one
  addMatrix b a conductance minusOne
  addMatrix a b conductance minusOne
  addMatrix b b conductance F64.one

def stampComplementaryOutputStage (mode : LocalDiscreteMode) (output highRail lowRail : LocalUnknownId)
    (pullUp pullDown : LocalValueId) : Build F Unit := do
  stampConductance highRail output pullUp
  stampConductance output lowRail pullDown
  registerComplementaryDriver mode output highRail lowRail pullUp pullDown

def switchedConductance (mode gMin gMax : LocalValueId) : Build F LocalValueId := do
  let conductanceRange ← sub gMax gMin
  let modeConductance ← mul mode conductanceRange
  add gMin modeConductance

def stampCurrentSource (source sink : LocalUnknownId) (current : LocalValueId) : Build F Unit := do
  addRhs source current minusOne
  addRhs sink current F64.one

def stampVoltageSource (positive negative branchCurrent : LocalUnknownId) (voltage : LocalValueId) : Build F Unit := do
  let one ← constant F64.one
  addMatrix positive branchCurrent one F64.one
  addMatrix negative branchCurrent one minusOne
  addMatrix branchCurrent positive one F64.one
  addMatrix branchCurrent negative one minusOne
  addRhs branchCurrent voltage F64.one

def stampVccs (outputPositive outputNegative controlPositive controlNegative : LocalUnknownId)
    (transconductance : LocalValueId) : Build F Unit := do
  addMatrix outputPositive controlPositive transconductance F64.one
  addMatrix outputPositive controlNegative transconductance minusOne
  addMatrix outputNegative controlPositive transconductance minusOne
  addMatrix outputNegative controlNegative transconductance F64.one

def stampVcvs (outputPositive outputNegative controlPositive controlNegative branchCurrent : LocalUnknownId)
    (gain : LocalValueId) : Build F Unit := do
  let one ← constant F64.one
  addMatrix outputPositive branchCurrent one F64.one
  addMatrix outputNegative branchCurrent one minusOne
  addMatrix branchCurrent outputPositive one F64.one
  addMatrix branchCurrent outputNegative one minusOne
  addMatrix branchCurrent controlPositive gain minusOne
  addMatrix branchCurrent controlNegative gain F64.one

structure ControlledConductanceValues where
  outputVoltage : LocalValueId
  controlVoltage : LocalValueId
  outputCurrent : LocalValueId

structure ControlledSwitchValues where
  outputVoltage : LocalValueId
  controlVoltage : LocalValueId
  outputCurrent : LocalValueId

structure ControlledSwitchParameters where
  threshold : LocalValueId
  gMax : LocalValueId
  gMin : LocalValueId

structure ControlledConductanceParameters where
  threshold : LocalValueId
  transition : LocalValueId
  gMin : LocalValueId
  gMax : LocalValueId

def stampVoltageControlledConductance (outputPositive outputNegative control : LocalUnknownId)
    (parameters : ControlledConductanceParameters) : Build F ControlledConductanceValues := do
  let half ← constant F64.half
  let one ← constant F64.one
  let halfTransition ← mul parameters.transition half
  let low ← sub parameters.threshold halfTransition
  let high ← add parameters.threshold halfTransition
  let conductanceRange ← sub parameters.gMax parameters.gMin
  let transitionSlope ← div conductanceRange parameters.transition
  let outputPositiveVoltage ← unknownValue outputPositive
  let outputNegativeVoltage ← unknownValue outputNegative
  let controlNodeVoltage ← unknownValue control
  let outputVoltage ← sub outputPositiveVoltage outputNegativeVoltage
  let controlVoltage ← sub controlNodeVoltage outputNegativeVoltage
  let below ← lessEqual controlVoltage low
  let above ← lessEqual high controlVoltage
  let inside ← sub one below
  let inside ← sub inside above
  let activeSlope ← mul transitionSlope inside
  let controlOffset ← sub controlVoltage low
  let transitionDelta ← mul activeSlope controlOffset
  let aboveDelta ← mul conductanceRange above
  let conductance ← add parameters.gMin aboveDelta
  let conductance ← add conductance transitionDelta
  let transconductance ← mul activeSlope outputVoltage
  let correction ← mul transconductance controlVoltage
  stampConductance outputPositive outputNegative conductance
  stampVccs outputPositive outputNegative control outputNegative transconductance
  addRhs outputPositive correction F64.one
  addRhs outputNegative correction minusOne
  let outputCurrent ← mul conductance outputVoltage
  pure ⟨outputVoltage, controlVoltage, outputCurrent⟩

def stampVoltageControlledSwitch (outputPositive outputNegative controlPositive controlNegative : LocalUnknownId)
    (parameters : ControlledSwitchParameters) : Build F ControlledSwitchValues := do
  let controlPositiveVoltage ← unknownValue controlPositive
  let controlNegativeVoltage ← unknownValue controlNegative
  let controlVoltage ← sub controlPositiveVoltage controlNegativeVoltage
  let mode ← lessEqual parameters.threshold controlVoltage
  let _ ← discreteMode mode
  let conductance ← switchedConductance mode parameters.gMin parameters.gMax
  stampConductance outputPositive outputNegative conductance
  let outputVoltage ← voltageDifference outputPositive outputNegative
  let outputCurrent ← mul conductance outputVoltage
  pure ⟨outputVoltage, controlVoltage, outputCurrent⟩

def hystereticBinaryMode (inputVoltage initialMode threshold hysteresis : LocalValueId) : Build F LocalValueId := do
  let zero ← constant F64.zero
  let half ← constant F64.half
  let one ← constant F64.one
  let halfHysteresis ← mul hysteresis half
  let lower ← sub threshold halfHysteresis
  let upper ← add threshold halfHysteresis
  let mode ← iterationLatch initialMode
  let currentMode := mode.value
  let turnOn ← lessEqual upper inputVoltage
  let turnOff ← lessEqual inputVoltage lower
  let off ← sub one currentMode
  let remainOn ← sub one turnOff
  let offToOn ← mul off turnOn
  let onToOn ← mul currentMode remainOn
  let hystereticMode ← add offToOn onToOn
  let zeroHysteresis ← lessEqual hysteresis zero
  let directMode ← lessEqual threshold inputVoltage
  let useHysteresis ← sub one zeroHysteresis
  let hystereticPart ← mul useHysteresis hystereticMode
  let directPart ← mul zeroHysteresis directMode
  let nextMode ← add hystereticPart directPart
  updateIterationLatch mode nextMode
  requireIterationStability nextMode
  pure nextMode

end Stamps

/-! ### The primitives -/

section Primitives

variable [F64 F]

def compileConductance : Build F Unit := do
  let positive ← terminalVoltage
  let negative ← terminalVoltage
  let conductance ← parameter
  stampConductance positive negative conductance
  let voltage ← voltageDifference positive negative
  let current ← mul conductance voltage
  let _ ← output voltage
  let _ ← output current

def compileDiode : Build F Unit := do
  let anode ← terminalVoltage
  let cathode ← terminalVoltage
  let gMax ← parameter
  let gMin ← parameter
  let voltage ← voltageDifference anode cathode
  let zero ← constant F64.zero
  let one ← constant F64.one
  let reverseOrZero ← lessEqual voltage zero
  let forward ← sub one reverseOrZero
  requireIterationStability forward
  let conductance ← switchedConductance forward gMin gMax
  stampConductance anode cathode conductance
  let current ← mul conductance voltage
  let _ ← output voltage
  let _ ← output current

def compileSchmittBuffer : Build F Unit := do
  let output' ← terminalVoltage
  let vdd ← terminalVoltage
  let vss ← terminalVoltage
  let input ← terminalVoltage
  let threshold ← parameter
  let hysteresis ← parameter
  let gMax ← parameter
  let gMin ← parameter
  let state ← state
  let inputVoltage ← voltageDifference input vss
  let outputHigh ← hystereticBinaryMode inputVoltage state.value threshold hysteresis
  writeState state outputHigh
  let conductanceRange ← sub gMax gMin
  let highDelta ← mul outputHigh conductanceRange
  let pullUp ← add gMin highDelta
  let pullDown ← sub gMax highDelta
  stampConductance vdd output' pullUp
  stampConductance output' vss pullDown
  let outputVoltage ← voltageDifference output' vss
  let supplyBranchVoltage ← voltageDifference vdd output'
  let supplyCurrent ← mul pullUp supplyBranchVoltage
  let _ ← output outputVoltage
  let _ ← output inputVoltage
  let _ ← output supplyCurrent

/-- The value that is one where the gate's output is high; `inputBHigh` is there for a gate of two inputs. -/
def gateOutput (kind : PrimitiveElementKind) (one inputAHigh : LocalValueId) (inputBHigh : Option LocalValueId) :
    Build F LocalValueId :=
  match kind with
  | .not => sub one inputAHigh
  | .and => do
    let inputBHigh ← Call.expect inputBHigh
    mul inputAHigh inputBHigh
  | .nand => do
    let inputBHigh ← Call.expect inputBHigh
    let both ← mul inputAHigh inputBHigh
    sub one both
  | .or => do
    let inputBHigh ← Call.expect inputBHigh
    let eitherSum ← add inputAHigh inputBHigh
    let both ← mul inputAHigh inputBHigh
    sub eitherSum both
  | .nor => do
    let inputBHigh ← Call.expect inputBHigh
    let inputALow ← sub one inputAHigh
    let inputBLow ← sub one inputBHigh
    mul inputALow inputBLow
  -- `unreachable!`
  | _ => Call.expect none

/-- The second input of a gate. -/
def gateInputB (kind : PrimitiveElementKind) : Build F (Option LocalUnknownId) :=
  match kind with
  | .not => pure none
  | .and | .nand | .or | .nor => do
    let inputB ← terminalVoltage
    pure (some inputB)
  -- `unreachable!`
  | _ => Call.expect none

/-- The voltage of the second input and whether it is high. -/
def gateInputBHigh (inputB : Option LocalUnknownId) (vss : LocalUnknownId) (threshold : LocalValueId) :
    Build F (Option LocalValueId × Option LocalValueId) :=
  match inputB with
  | some inputB => do
    let voltage ← voltageDifference inputB vss
    let high ← lessEqual threshold voltage
    pure (some voltage, some high)
  | none => pure (none, none)

def compileLogicGate (kind : PrimitiveElementKind) : Build F Unit := do
  let output' ← terminalVoltage
  let vdd ← terminalVoltage
  let vss ← terminalVoltage
  let inputA ← terminalVoltage
  let inputB ← gateInputB kind
  let threshold ← parameter
  let gMax ← parameter
  let gMin ← parameter
  let one ← constant F64.one
  let inputAVoltage ← voltageDifference inputA vss
  let inputAHigh ← lessEqual threshold inputAVoltage
  let (inputBVoltage, inputBHigh) ← gateInputBHigh inputB vss threshold
  let outputHigh ← gateOutput kind one inputAHigh inputBHigh
  let outputMode ← discreteMode outputHigh
  -- high: the pull up conducts `G_max` and the pull down `G_min`; low: the other way round
  let conductanceRange ← sub gMax gMin
  let highDelta ← mul outputHigh conductanceRange
  let pullUp ← add gMin highDelta
  let pullDown ← sub gMax highDelta
  stampComplementaryOutputStage outputMode output' vdd vss pullUp pullDown
  let outputVoltage ← voltageDifference output' vss
  let supplyBranchVoltage ← voltageDifference vdd output'
  let supplyCurrent ← mul pullUp supplyBranchVoltage
  let _ ← output outputVoltage
  let _ ← output inputAVoltage
  match inputBVoltage with
  | some inputBVoltage => do
    let _ ← output inputBVoltage
  | none => pure ()
  let _ ← output supplyCurrent

def compileResistance : Build F Unit := do
  let positive ← terminalVoltage
  let negative ← terminalVoltage
  let resistance ← parameter
  let one ← constant F64.one
  let conductance ← div one resistance
  stampConductance positive negative conductance
  let voltage ← voltageDifference positive negative
  let current ← mul conductance voltage
  let _ ← output voltage
  let _ ← output current

def compileCurrentSource : Build F Unit := do
  let source ← terminalVoltage
  let sink ← terminalVoltage
  let current ← parameter
  stampCurrentSource source sink current
  let voltage ← voltageDifference source sink
  let _ ← output voltage
  let _ ← output current

def compileVoltageSource : Build F Unit := do
  let positive ← terminalVoltage
  let negative ← terminalVoltage
  let branchCurrent ← branchCurrentUnknown
  let voltageParameter ← parameter
  stampVoltageSource positive negative branchCurrent voltageParameter
  let voltage ← voltageDifference positive negative
  let current ← unknownValue branchCurrent
  let _ ← output voltage
  let _ ← output current

def compileVoltageControlledCurrentSource : Build F Unit := do
  let outputPositive ← terminalVoltage
  let outputNegative ← terminalVoltage
  let controlPositive ← terminalVoltage
  let controlNegative ← terminalVoltage
  let transconductance ← parameter
  stampVccs outputPositive outputNegative controlPositive controlNegative transconductance
  let outputVoltage ← voltageDifference outputPositive outputNegative
  let controlVoltage ← voltageDifference controlPositive controlNegative
  let outputCurrent ← mul transconductance controlVoltage
  let _ ← output outputVoltage
  let _ ← output controlVoltage
  let _ ← output outputCurrent

def compileVoltageControlledVoltageSource : Build F Unit := do
  let outputPositive ← terminalVoltage
  let outputNegative ← terminalVoltage
  let controlPositive ← terminalVoltage
  let controlNegative ← terminalVoltage
  let branchCurrent ← branchCurrentUnknown
  let gain ← parameter
  stampVcvs outputPositive outputNegative controlPositive controlNegative branchCurrent gain
  let outputVoltage ← voltageDifference outputPositive outputNegative
  let controlVoltage ← voltageDifference controlPositive controlNegative
  let outputCurrent ← unknownValue branchCurrent
  let _ ← output outputVoltage
  let _ ← output controlVoltage
  let _ ← output outputCurrent

def compileCapacitor : Build F Unit := do
  let positive ← terminalVoltage
  let negative ← terminalVoltage
  let capacitance ← parameter
  let timestep ← timestep
  let previousVoltage ← state
  let conductance ← div capacitance timestep
  stampConductance positive negative conductance
  let history ← mul conductance previousVoltage.value
  addRhs positive history F64.one
  addRhs negative history minusOne
  let voltage ← voltageDifference positive negative
  let voltageDelta ← sub voltage previousVoltage.value
  let current ← mul conductance voltageDelta
  writeState previousVoltage voltage
  let _ ← output voltage
  let _ ← output current

def compileInductor : Build F Unit := do
  let positive ← terminalVoltage
  let negative ← terminalVoltage
  let inductance ← parameter
  let timestep ← timestep
  let previousCurrent ← state
  let conductance ← div timestep inductance
  stampConductance positive negative conductance
  stampCurrentSource positive negative previousCurrent.value
  let voltage ← voltageDifference positive negative
  let currentDelta ← mul conductance voltage
  let current ← add previousCurrent.value currentDelta
  writeState previousCurrent current
  let _ ← output voltage
  let _ ← output current

def compileVoltageControlledConductance : Build F Unit := do
  let outputPositive ← terminalVoltage
  let outputNegative ← terminalVoltage
  let control ← terminalVoltage
  let threshold ← parameter
  let transition ← parameter
  let gMin ← parameter
  let gMax ← parameter
  let values ← stampVoltageControlledConductance outputPositive outputNegative control ⟨threshold, transition, gMin, gMax⟩
  let _ ← output values.outputVoltage
  let _ ← output values.controlVoltage
  let _ ← output values.outputCurrent

def compileVoltageControlledSwitch : Build F Unit := do
  let outputPositive ← terminalVoltage
  let outputNegative ← terminalVoltage
  let controlPositive ← terminalVoltage
  let controlNegative ← terminalVoltage
  let threshold ← parameter
  let gMax ← parameter
  let gMin ← parameter
  let values ← stampVoltageControlledSwitch outputPositive outputNegative controlPositive controlNegative
    ⟨threshold, gMax, gMin⟩
  let _ ← output values.outputVoltage
  let _ ← output values.controlVoltage
  let _ ← output values.outputCurrent

/-- The first partition of a tick delay: the next state is the voltage at its port. -/
def compileTickDelayInput : Build F Unit := do
  let positive ← terminalVoltage
  let negative ← terminalVoltage
  let nextState ← writeOnlyState
  let voltage ← voltageDifference positive negative
  writeStateId nextState voltage
  let _ ← output voltage

/-- The second partition: a source of the voltage of the tick before. -/
def compileTickDelayOutput : Build F Unit := do
  let positive ← terminalVoltage
  let negative ← terminalVoltage
  let branchCurrent ← branchCurrentUnknown
  let previous ← readState
  stampVoltageSource positive negative branchCurrent previous.value
  let voltage ← voltageDifference positive negative
  let current ← unknownValue branchCurrent
  let _ ← output voltage
  let _ ← output current

/-- The stamps of a primitive, in an empty builder; `none` for the tick delay. -/
def primitiveStamps : PrimitiveElementKind → Option (Build F Unit)
  | .conductance => some compileConductance
  | .diode => some compileDiode
  | .schmittBuffer => some compileSchmittBuffer
  | .not => some (compileLogicGate .not)
  | .and => some (compileLogicGate .and)
  | .nand => some (compileLogicGate .nand)
  | .or => some (compileLogicGate .or)
  | .nor => some (compileLogicGate .nor)
  | .resistance => some compileResistance
  | .currentSource => some compileCurrentSource
  | .voltageSource => some compileVoltageSource
  | .voltageControlledCurrentSource => some compileVoltageControlledCurrentSource
  | .voltageControlledVoltageSource => some compileVoltageControlledVoltageSource
  | .capacitor => some compileCapacitor
  | .inductor => some compileInductor
  | .voltageControlledConductance => some compileVoltageControlledConductance
  | .voltageControlledSwitch => some compileVoltageControlledSwitch
  | .tickDelay => none

/-- A call on a builder of its own, its errors converted. -/
def withBuilder {α : Type} (call : Build F α) : Compile α := fun _ =>
  match call {} with
  | .ok value _ => .ok value ()
  | .err error _ => .err (.template error) ()
  | .panic => .panic

def compilePrimitive (kind : PrimitiveElementKind) : Compile (CompiledDefinitionTemplate F) :=
  match primitiveStamps kind with
  | none => Call.throw (.unsupportedPrimitive kind)
  | some stamps => withBuilder (do
    stamps
    finish)

end Primitives

end Hynergy
