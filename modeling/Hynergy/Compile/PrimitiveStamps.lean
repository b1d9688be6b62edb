import Hynergy.Compile.Primitives
import Hynergy.Compile.TemplateSound
import Mathlib.Data.List.Permutation

/-!
# The stamps of the primitives

What is in the builder of each primitive when its stamps are done.
-/

namespace Hynergy

open DefinitionTemplateBuilder

variable {F : Type} [F64 F]

/-- The terms in the order they were added. -/
def stampedMatrix (terms : List (PendingMatrixTerm F)) : List (PendingMatrixTerm F) :=
  terms.foldl (fun stamped term => stamped ++ unlessZero term.scale term) []

def stampedRhs (terms : List (LocalRhsTerm F)) : List (LocalRhsTerm F) :=
  terms.foldl (fun stamped term => stamped ++ unlessZero term.scale term) []

/-- The terms of `stamp_conductance`. -/
def conductanceTerms (a b : LocalUnknownId) (conductance : LocalValueId) : List (PendingMatrixTerm F) :=
  [⟨a, a, conductance, F64.one⟩, ⟨b, a, conductance, minusOne⟩, ⟨a, b, conductance, minusOne⟩,
    ⟨b, b, conductance, F64.one⟩]

/-- The terms of `stamp_vccs`. -/
def vccsTerms (outputPositive outputNegative controlPositive controlNegative : LocalUnknownId)
    (transconductance : LocalValueId) : List (PendingMatrixTerm F) :=
  [⟨outputPositive, controlPositive, transconductance, F64.one⟩,
    ⟨outputPositive, controlNegative, transconductance, minusOne⟩,
    ⟨outputNegative, controlPositive, transconductance, minusOne⟩,
    ⟨outputNegative, controlNegative, transconductance, F64.one⟩]

/-- The terms of a source of voltage between two nodes, in its branch's row and column. -/
def branchTerms (positive negative branchCurrent : LocalUnknownId) (one : LocalValueId) : List (PendingMatrixTerm F) :=
  [⟨positive, branchCurrent, one, F64.one⟩, ⟨negative, branchCurrent, one, minusOne⟩,
    ⟨branchCurrent, positive, one, F64.one⟩, ⟨branchCurrent, negative, one, minusOne⟩]

def terminalUnknowns (count : Nat) : List LocalUnknownInfo :=
  (List.range count).map fun t => ⟨.voltage, .terminal t⟩

def branchUnknown : LocalUnknownInfo := ⟨.branchCurrent, .allocated 0⟩

/-! ### Two terminals -/

def conductanceStamps : Stamps F where
  unknowns := terminalUnknowns 2
  nodes := [.parameter ⟨0⟩, .unknown ⟨0⟩, .unknown ⟨1⟩, .binary .sub ⟨1⟩ ⟨2⟩, .binary .mul ⟨0⟩ ⟨3⟩]
  matrix := stampedMatrix (conductanceTerms ⟨0⟩ ⟨1⟩ ⟨0⟩)
  rhs := []
  writes := []
  latches := []
  outputs := [⟨3⟩, ⟨4⟩]

def resistanceStamps : Stamps F where
  unknowns := terminalUnknowns 2
  nodes := [.parameter ⟨0⟩, .constant F64.one, .binary .div ⟨1⟩ ⟨0⟩, .unknown ⟨0⟩, .unknown ⟨1⟩, .binary .sub ⟨3⟩ ⟨4⟩,
    .binary .mul ⟨2⟩ ⟨5⟩]
  matrix := stampedMatrix (conductanceTerms ⟨0⟩ ⟨1⟩ ⟨2⟩)
  rhs := []
  writes := []
  latches := []
  outputs := [⟨5⟩, ⟨6⟩]

def diodeStamps : Stamps F where
  unknowns := terminalUnknowns 2
  nodes := [.parameter ⟨0⟩, .parameter ⟨1⟩, .unknown ⟨0⟩, .unknown ⟨1⟩, .binary .sub ⟨2⟩ ⟨3⟩, .constant F64.zero,
    .constant F64.one, .binary .lessEqual ⟨4⟩ ⟨5⟩, .binary .sub ⟨6⟩ ⟨7⟩, .binary .sub ⟨0⟩ ⟨1⟩, .binary .mul ⟨8⟩ ⟨9⟩,
    .binary .add ⟨1⟩ ⟨10⟩, .binary .mul ⟨11⟩ ⟨4⟩]
  matrix := stampedMatrix (conductanceTerms ⟨0⟩ ⟨1⟩ ⟨11⟩)
  rhs := []
  writes := []
  latches := []
  outputs := [⟨4⟩, ⟨12⟩]

def currentSourceStamps : Stamps F where
  unknowns := terminalUnknowns 2
  nodes := [.parameter ⟨0⟩, .unknown ⟨0⟩, .unknown ⟨1⟩, .binary .sub ⟨1⟩ ⟨2⟩]
  matrix := []
  rhs := stampedRhs [⟨⟨0⟩, ⟨0⟩, minusOne⟩, ⟨⟨1⟩, ⟨0⟩, F64.one⟩]
  writes := []
  latches := []
  outputs := [⟨3⟩, ⟨0⟩]

def voltageSourceStamps : Stamps F where
  unknowns := terminalUnknowns 2 ++ [branchUnknown]
  nodes := [.parameter ⟨0⟩, .constant F64.one, .unknown ⟨0⟩, .unknown ⟨1⟩, .binary .sub ⟨2⟩ ⟨3⟩, .unknown ⟨2⟩]
  matrix := stampedMatrix (branchTerms ⟨0⟩ ⟨1⟩ ⟨2⟩ ⟨1⟩)
  rhs := stampedRhs [⟨⟨2⟩, ⟨0⟩, F64.one⟩]
  writes := []
  latches := []
  outputs := [⟨4⟩, ⟨5⟩]

def capacitorStamps : Stamps F where
  unknowns := terminalUnknowns 2
  nodes := [.parameter ⟨0⟩, .timestep, .state ⟨0⟩, .binary .div ⟨0⟩ ⟨1⟩, .binary .mul ⟨3⟩ ⟨2⟩, .unknown ⟨0⟩, .unknown ⟨1⟩,
    .binary .sub ⟨5⟩ ⟨6⟩, .binary .sub ⟨7⟩ ⟨2⟩, .binary .mul ⟨3⟩ ⟨8⟩]
  matrix := stampedMatrix (conductanceTerms ⟨0⟩ ⟨1⟩ ⟨3⟩)
  rhs := stampedRhs [⟨⟨0⟩, ⟨4⟩, F64.one⟩, ⟨⟨1⟩, ⟨4⟩, minusOne⟩]
  writes := [(⟨0⟩, ⟨7⟩)]
  latches := []
  outputs := [⟨7⟩, ⟨9⟩]

def inductorStamps : Stamps F where
  unknowns := terminalUnknowns 2
  nodes := [.parameter ⟨0⟩, .timestep, .state ⟨0⟩, .binary .div ⟨1⟩ ⟨0⟩, .unknown ⟨0⟩, .unknown ⟨1⟩, .binary .sub ⟨4⟩ ⟨5⟩,
    .binary .mul ⟨3⟩ ⟨6⟩, .binary .add ⟨2⟩ ⟨7⟩]
  matrix := stampedMatrix (conductanceTerms ⟨0⟩ ⟨1⟩ ⟨3⟩)
  rhs := stampedRhs [⟨⟨0⟩, ⟨2⟩, minusOne⟩, ⟨⟨1⟩, ⟨2⟩, F64.one⟩]
  writes := [(⟨0⟩, ⟨8⟩)]
  latches := []
  outputs := [⟨6⟩, ⟨8⟩]

/-! ### Controlled -/

def vccsStamps : Stamps F where
  unknowns := terminalUnknowns 4
  nodes := [.parameter ⟨0⟩, .unknown ⟨0⟩, .unknown ⟨1⟩, .binary .sub ⟨1⟩ ⟨2⟩, .unknown ⟨2⟩, .unknown ⟨3⟩,
    .binary .sub ⟨4⟩ ⟨5⟩, .binary .mul ⟨0⟩ ⟨6⟩]
  matrix := stampedMatrix (vccsTerms ⟨0⟩ ⟨1⟩ ⟨2⟩ ⟨3⟩ ⟨0⟩)
  rhs := []
  writes := []
  latches := []
  outputs := [⟨3⟩, ⟨6⟩, ⟨7⟩]

def vcvsStamps : Stamps F where
  unknowns := terminalUnknowns 4 ++ [branchUnknown]
  nodes := [.parameter ⟨0⟩, .constant F64.one, .unknown ⟨0⟩, .unknown ⟨1⟩, .binary .sub ⟨2⟩ ⟨3⟩, .unknown ⟨2⟩, .unknown ⟨3⟩,
    .binary .sub ⟨5⟩ ⟨6⟩, .unknown ⟨4⟩]
  matrix := stampedMatrix (branchTerms ⟨0⟩ ⟨1⟩ ⟨4⟩ ⟨1⟩ ++ [⟨⟨4⟩, ⟨2⟩, ⟨0⟩, minusOne⟩, ⟨⟨4⟩, ⟨3⟩, ⟨0⟩, F64.one⟩])
  rhs := []
  writes := []
  latches := []
  outputs := [⟨4⟩, ⟨7⟩, ⟨8⟩]

def controlledConductanceStamps : Stamps F where
  unknowns := terminalUnknowns 3
  nodes := [.parameter ⟨0⟩, .parameter ⟨1⟩, .parameter ⟨2⟩, .parameter ⟨3⟩, .constant F64.half, .constant F64.one,
    .binary .mul ⟨1⟩ ⟨4⟩, .binary .sub ⟨0⟩ ⟨6⟩, .binary .add ⟨0⟩ ⟨6⟩, .binary .sub ⟨3⟩ ⟨2⟩, .binary .div ⟨9⟩ ⟨1⟩,
    .unknown ⟨0⟩, .unknown ⟨1⟩, .unknown ⟨2⟩, .binary .sub ⟨11⟩ ⟨12⟩, .binary .sub ⟨13⟩ ⟨12⟩, .binary .lessEqual ⟨15⟩ ⟨7⟩,
    .binary .lessEqual ⟨8⟩ ⟨15⟩, .binary .sub ⟨5⟩ ⟨16⟩, .binary .sub ⟨18⟩ ⟨17⟩, .binary .mul ⟨10⟩ ⟨19⟩,
    .binary .sub ⟨15⟩ ⟨7⟩, .binary .mul ⟨20⟩ ⟨21⟩, .binary .mul ⟨9⟩ ⟨17⟩, .binary .add ⟨2⟩ ⟨23⟩, .binary .add ⟨24⟩ ⟨22⟩,
    .binary .mul ⟨20⟩ ⟨14⟩, .binary .mul ⟨26⟩ ⟨15⟩, .binary .mul ⟨25⟩ ⟨14⟩]
  matrix := stampedMatrix (conductanceTerms ⟨0⟩ ⟨1⟩ ⟨25⟩ ++ vccsTerms ⟨0⟩ ⟨1⟩ ⟨2⟩ ⟨1⟩ ⟨26⟩)
  rhs := stampedRhs [⟨⟨0⟩, ⟨27⟩, F64.one⟩, ⟨⟨1⟩, ⟨27⟩, minusOne⟩]
  writes := []
  latches := []
  outputs := [⟨14⟩, ⟨15⟩, ⟨28⟩]

def controlledSwitchStamps : Stamps F where
  unknowns := terminalUnknowns 4
  nodes := [.parameter ⟨0⟩, .parameter ⟨1⟩, .parameter ⟨2⟩, .unknown ⟨2⟩, .unknown ⟨3⟩, .binary .sub ⟨3⟩ ⟨4⟩,
    .binary .lessEqual ⟨0⟩ ⟨5⟩, .binary .sub ⟨1⟩ ⟨2⟩, .binary .mul ⟨6⟩ ⟨7⟩, .binary .add ⟨2⟩ ⟨8⟩, .unknown ⟨0⟩, .unknown ⟨1⟩,
    .binary .sub ⟨10⟩ ⟨11⟩, .binary .mul ⟨9⟩ ⟨12⟩]
  matrix := stampedMatrix (conductanceTerms ⟨0⟩ ⟨1⟩ ⟨9⟩)
  rhs := []
  writes := []
  latches := []
  outputs := [⟨12⟩, ⟨5⟩, ⟨13⟩]

/-! ### Gates -/

/-- The output stage of a gate whose output is decided by the value `high`, numbered from `high + 1`; the first values
are the parameters threshold, `G_max` and `G_min` from `gMax`. -/
def outputStageNodes (high gMax gMin vss : Nat) : List (LocalValueNode F) :=
  [.binary .sub ⟨gMax⟩ ⟨gMin⟩, .binary .mul ⟨high⟩ ⟨high + 1⟩, .binary .add ⟨gMin⟩ ⟨high + 2⟩,
    .binary .sub ⟨gMax⟩ ⟨high + 2⟩, .unknown ⟨0⟩, .binary .sub ⟨high + 5⟩ ⟨vss⟩, .unknown ⟨1⟩,
    .binary .sub ⟨high + 7⟩ ⟨high + 5⟩, .binary .mul ⟨high + 3⟩ ⟨high + 8⟩]

def outputStageTerms (high : Nat) : List (PendingMatrixTerm F) :=
  conductanceTerms ⟨1⟩ ⟨0⟩ ⟨high + 3⟩ ++ conductanceTerms ⟨0⟩ ⟨2⟩ ⟨high + 4⟩

def notStamps : Stamps F where
  unknowns := terminalUnknowns 4
  nodes := [.parameter ⟨0⟩, .parameter ⟨1⟩, .parameter ⟨2⟩, .constant F64.one, .unknown ⟨3⟩, .unknown ⟨2⟩,
    .binary .sub ⟨4⟩ ⟨5⟩, .binary .lessEqual ⟨0⟩ ⟨6⟩, .binary .sub ⟨3⟩ ⟨7⟩] ++ outputStageNodes 8 1 2 5
  matrix := stampedMatrix (outputStageTerms 8)
  rhs := []
  writes := []
  latches := []
  outputs := [⟨14⟩, ⟨6⟩, ⟨17⟩]

/-- The values of a gate of two inputs, from number 11: `input_a_high` is value 7, `input_b_high` value 10. -/
def gateNodes : PrimitiveElementKind → List (LocalValueNode F)
  | .and => [.binary .mul ⟨7⟩ ⟨10⟩]
  | .nand => [.binary .mul ⟨7⟩ ⟨10⟩, .binary .sub ⟨3⟩ ⟨11⟩]
  | .or => [.binary .add ⟨7⟩ ⟨10⟩, .binary .mul ⟨7⟩ ⟨10⟩, .binary .sub ⟨11⟩ ⟨12⟩]
  | .nor => [.binary .sub ⟨3⟩ ⟨7⟩, .binary .sub ⟨3⟩ ⟨10⟩, .binary .mul ⟨11⟩ ⟨12⟩]
  | _ => []

/-- The number of the last value of the gate. -/
def gateHigh : PrimitiveElementKind → Nat
  | .and => 11
  | .nand => 12
  | _ => 13

def gateStamps (kind : PrimitiveElementKind) : Stamps F where
  unknowns := terminalUnknowns 5
  nodes := [.parameter ⟨0⟩, .parameter ⟨1⟩, .parameter ⟨2⟩, .constant F64.one, .unknown ⟨3⟩, .unknown ⟨2⟩,
    .binary .sub ⟨4⟩ ⟨5⟩, .binary .lessEqual ⟨0⟩ ⟨6⟩, .unknown ⟨4⟩, .binary .sub ⟨8⟩ ⟨5⟩, .binary .lessEqual ⟨0⟩ ⟨9⟩] ++
    (gateNodes kind ++ outputStageNodes (gateHigh kind) 1 2 5)
  matrix := stampedMatrix (outputStageTerms (gateHigh kind))
  rhs := []
  writes := []
  latches := []
  outputs := [⟨gateHigh kind + 6⟩, ⟨6⟩, ⟨9⟩, ⟨gateHigh kind + 9⟩]

def schmittBufferStamps : Stamps F where
  unknowns := terminalUnknowns 4
  nodes := [.parameter ⟨0⟩, .parameter ⟨1⟩, .parameter ⟨2⟩, .parameter ⟨3⟩, .state ⟨0⟩, .unknown ⟨3⟩, .unknown ⟨2⟩,
    .binary .sub ⟨5⟩ ⟨6⟩, .constant F64.zero, .constant F64.half, .constant F64.one, .binary .mul ⟨1⟩ ⟨9⟩,
    .binary .sub ⟨0⟩ ⟨11⟩, .binary .add ⟨0⟩ ⟨11⟩, .iterationLatch ⟨4⟩, .binary .lessEqual ⟨13⟩ ⟨7⟩,
    .binary .lessEqual ⟨7⟩ ⟨12⟩, .binary .sub ⟨10⟩ ⟨14⟩, .binary .sub ⟨10⟩ ⟨16⟩, .binary .mul ⟨17⟩ ⟨15⟩,
    .binary .mul ⟨14⟩ ⟨18⟩, .binary .add ⟨19⟩ ⟨20⟩, .binary .lessEqual ⟨1⟩ ⟨8⟩, .binary .lessEqual ⟨0⟩ ⟨7⟩,
    .binary .sub ⟨10⟩ ⟨22⟩, .binary .mul ⟨24⟩ ⟨21⟩, .binary .mul ⟨22⟩ ⟨23⟩, .binary .add ⟨25⟩ ⟨26⟩] ++
    outputStageNodes 27 2 3 6
  matrix := stampedMatrix (outputStageTerms 27)
  rhs := []
  writes := [(⟨0⟩, ⟨27⟩)]
  latches := [(⟨14⟩, ⟨27⟩)]
  outputs := [⟨33⟩, ⟨7⟩, ⟨36⟩]

/-! ### Tick delays -/

def tickDelayInputStamps : Stamps F where
  unknowns := terminalUnknowns 2
  nodes := [.unknown ⟨0⟩, .unknown ⟨1⟩, .binary .sub ⟨0⟩ ⟨1⟩]
  matrix := []
  rhs := []
  writes := [(⟨0⟩, ⟨2⟩)]
  latches := []
  outputs := [⟨2⟩]

def tickDelayOutputStamps : Stamps F where
  unknowns := terminalUnknowns 2 ++ [branchUnknown]
  nodes := [.state ⟨0⟩, .constant F64.one, .unknown ⟨0⟩, .unknown ⟨1⟩, .binary .sub ⟨2⟩ ⟨3⟩, .unknown ⟨2⟩]
  matrix := stampedMatrix (branchTerms ⟨0⟩ ⟨1⟩ ⟨2⟩ ⟨1⟩)
  rhs := stampedRhs [⟨⟨2⟩, ⟨0⟩, F64.one⟩]
  writes := []
  latches := []
  outputs := [⟨4⟩, ⟨5⟩]

/-- The stamps of a primitive of one partition. -/
def PrimitiveElementKind.stamps : PrimitiveElementKind → Stamps F
  | .resistance => resistanceStamps
  | .conductance => conductanceStamps
  | .voltageSource => voltageSourceStamps
  | .currentSource => currentSourceStamps
  | .voltageControlledCurrentSource => vccsStamps
  | .voltageControlledVoltageSource => vcvsStamps
  | .capacitor => capacitorStamps
  | .inductor => inductorStamps
  | .voltageControlledSwitch => controlledSwitchStamps
  | .voltageControlledConductance => controlledConductanceStamps
  | .tickDelay => tickDelayInputStamps
  | .diode => diodeStamps
  | .not => notStamps
  | .and => gateStamps .and
  | .nand => gateStamps .nand
  | .or => gateStamps .or
  | .nor => gateStamps .nor
  | .schmittBuffer => schmittBufferStamps

/-! ### What a primitive leaves -/

/-- Nothing is unfinished, and what is registered is there. -/
def DefinitionTemplateBuilder.settled (self : DefinitionTemplateBuilder F) : Bool :=
  let values := self.values.length
  let unknowns := self.unknowns.length
  (self.iterationLatches.all fun latch => latch.2.isSome) &&
    (self.iterationLatches.map (·.1.index) == latchPlaces (self.values.map LocalValueInfo.node)) &&
    (self.stateWrites.zipIdx.all fun entry => entry.1.isSome || !hasBit self.stateRequiresWrite entry.2) &&
    (self.iterationStabilityValues.all fun value => value.index < values) &&
    (self.discreteModes.all fun value => value.index < values) &&
    self.complementaryDrivers.all fun driver =>
      driver.mode.value.index < values && driver.pullUp.index < values && driver.pullDown.index < values &&
        driver.output.index < unknowns && driver.highRail.index < unknowns && driver.lowRail.index < unknowns

/-- The call leaves these stamps in an empty builder, with nothing unfinished. -/
def Leaves (call : Build F Unit) (stamps : Stamps F) (parameters states terminals : Nat) : Prop :=
  (call {}).Meets False (fun _ built => built.stamps = stamps ∧ built.parameterCount = parameters ∧
    built.stateWrites.length = states ∧ built.terminalCount = terminals ∧ built.settled = true) fun _ _ => False

theorem primitiveStamps_leaves (kind : PrimitiveElementKind) (call : Build F Unit)
    (stamped : primitiveStamps kind = some call) :
    Leaves call kind.stamps kind.parameterCount kind.stateCount kind.terminalLayout.1.length := by
  cases kind
  case tickDelay => cases stamped
  all_goals
    obtain rfl := Option.some.inj stamped
    cbv

theorem compileTickDelayInput_leaves :
    Leaves (compileTickDelayInput : Build F Unit) tickDelayInputStamps 0 1 2 := by
  cbv

theorem compileTickDelayOutput_leaves :
    Leaves (compileTickDelayOutput : Build F Unit) tickDelayOutputStamps 0 1 2 := by
  cbv

/-! ### Soundness -/

omit [F64 F] in
/-- `Inside`, decided. -/
def LocalValueNode.inside (node : LocalValueNode F) (place parameters states unknowns : Nat) : Bool :=
  (node.operands.all fun operand => operand < place) &&
    match node with
    | .parameter id => id.index < parameters
    | .state id => id.index < states
    | .unknown id => id.index < unknowns
    | _ => true

omit [F64 F] in
theorem LocalValueNode.inside_of {node : LocalValueNode F} {place parameters states unknowns : Nat}
    (h : node.inside place parameters states unknowns = true) : node.Inside place parameters states unknowns := by
  obtain ⟨operands, leaf⟩ := (Bool.and_eq_true _ _).mp h
  refine ⟨by simpa using operands, ?_, ?_, ?_⟩
  · rintro id rfl
    simpa using leaf
  · rintro id rfl
    simpa using leaf
  · rintro id rfl
    simpa using leaf

def nodesInside (parameters states unknowns : Nat) : Nat → List (LocalValueNode F) → Bool
  | _, [] => true
  | start, node :: nodes =>
    node.inside start parameters states unknowns && nodesInside parameters states unknowns (start + 1) nodes

omit [F64 F] in
theorem nodesInside_of {parameters states unknowns : Nat} {nodes : List (LocalValueNode F)} {start : Nat}
    (h : nodesInside parameters states unknowns start nodes = true) (i : Nat) (node : LocalValueNode F)
    (read : nodes[i]? = some node) : node.Inside (start + i) parameters states unknowns := by
  induction nodes generalizing start i with
  | nil => cases read
  | cons first nodes ih =>
    obtain ⟨here, rest⟩ := (Bool.and_eq_true _ _).mp h
    cases i with
    | zero =>
      obtain rfl := Option.some.inj read
      exact LocalValueNode.inside_of here
    | succ i =>
      have := ih rest i read
      rwa [Nat.add_right_comm] at this

theorem stamped_subset {α : Type} {scale : α → F} {P : α → Prop} {terms stamped : List α} (all : ∀ term ∈ terms, P term)
    (before : ∀ term ∈ stamped, P term) :
    ∀ term ∈ terms.foldl (fun stamped term => stamped ++ unlessZero (scale term) term) stamped, P term := by
  induction terms generalizing stamped with
  | nil => exact before
  | cons first terms ih =>
    refine ih (fun term member => all term (List.mem_cons_of_mem _ member)) fun term member => ?_
    rcases List.mem_append.mp member with earlier | last
    · exact before term earlier
    · unfold unlessZero at last
      split at last
      · cases last
      · exact List.mem_singleton.mp last ▸ all first List.mem_cons_self

theorem stampedMatrix_all {P : PendingMatrixTerm F → Prop} {terms : List (PendingMatrixTerm F)}
    (all : ∀ term ∈ terms, P term) : ∀ term ∈ stampedMatrix terms, P term := stamped_subset all (by simp)

theorem stampedRhs_all {P : LocalRhsTerm F → Prop} {terms : List (LocalRhsTerm F)} (all : ∀ term ∈ terms, P term) :
    ∀ term ∈ stampedRhs terms, P term := stamped_subset all (by simp)

/-- `Sound`, decided on the terms as they are added. -/
def soundCheck (unknowns : List LocalUnknownInfo) (nodes : List (LocalValueNode F)) (matrix : List (PendingMatrixTerm F))
    (rhs : List (LocalRhsTerm F)) (writes : List (LocalStateId × LocalValueId))
    (latches : List (LocalValueId × LocalValueId)) (outputs : List LocalValueId) (parameters states terminals : Nat) : Bool :=
  nodesInside parameters states unknowns.length 0 nodes &&
    (matrix.all fun term => term.row.index < unknowns.length && term.column.index < unknowns.length &&
      term.source.index < nodes.length) &&
    (rhs.all fun term => term.destination.index < unknowns.length && term.source.index < nodes.length) &&
    (writes.all fun entry => entry.1.index < states && entry.2.index < nodes.length) &&
    (latches.all fun entry => entry.2.index < nodes.length) && (outputs.all fun value => value.index < nodes.length) &&
    unknowns.filterMap LocalUnknownInfo.terminal? == List.range terminals

theorem sound_of_check {unknowns : List LocalUnknownInfo} {nodes : List (LocalValueNode F)}
    {m : List (PendingMatrixTerm F)} {r : List (LocalRhsTerm F)} {writes : List (LocalStateId × LocalValueId)}
    {latches : List (LocalValueId × LocalValueId)} {outputs : List LocalValueId} {parameters states terminals : Nat}
    (check : soundCheck unknowns nodes m r writes latches outputs parameters states terminals = true) :
    (⟨unknowns, nodes, stampedMatrix m, stampedRhs r, writes, latches, outputs⟩ : Stamps F).Sound parameters states
      terminals := by
  simp only [soundCheck, Bool.and_eq_true, List.all_eq_true, decide_eq_true_eq, beq_iff_eq] at check
  obtain ⟨⟨⟨⟨⟨⟨inside, matrix⟩, rhs⟩, writes⟩, latches⟩, outputs⟩, terminals⟩ := check
  refine ⟨fun i node read => ?_, stampedMatrix_all fun term member => ?_, stampedRhs_all rhs, writes, latches, outputs,
    terminals⟩
  · have := nodesInside_of inside i node read
    rwa [Nat.zero_add] at this
  · exact and_assoc.mp (matrix term member)

/-- The terminals of the first partition. -/
def PrimitiveElementKind.firstTerminals (kind : PrimitiveElementKind) : Nat :=
  if kind = .tickDelay then 2 else kind.terminalLayout.1.length

theorem PrimitiveElementKind.stamps_sound (kind : PrimitiveElementKind) :
    (kind.stamps : Stamps F).Sound kind.parameterCount kind.stateCount kind.firstTerminals := by
  cases kind with
  | tickDelay => exact sound_of_check (m := []) (r := []) rfl
  | currentSource => exact sound_of_check (m := []) rfl
  | capacitor | inductor | voltageSource | voltageControlledConductance => exact sound_of_check rfl
  | conductance | resistance | diode | voltageControlledCurrentSource | voltageControlledVoltageSource
  | voltageControlledSwitch | not | and | nand | or | nor | schmittBuffer => exact sound_of_check (r := []) rfl

theorem tickDelayOutputStamps_sound : (tickDelayOutputStamps : Stamps F).Sound 0 1 2 := sound_of_check rfl

omit [F64 F] in
theorem DefinitionTemplateBuilder.finishable_of_settled {built : DefinitionTemplateBuilder F} {parameters states terminals : Nat}
    (sound : built.stamps.Sound parameters states terminals) (parameterCount : built.parameterCount = parameters)
    (stateCount : built.stateWrites.length = states) (terminalCount : built.terminalCount = terminals)
    (settled : built.settled = true) : built.Finishable := by
  subst parameterCount stateCount terminalCount
  simp only [DefinitionTemplateBuilder.settled, Bool.and_eq_true, List.all_eq_true, decide_eq_true_eq, beq_iff_eq] at settled
  obtain ⟨⟨⟨⟨⟨updated, latched⟩, written⟩, stability⟩, modes⟩, drivers⟩ := settled
  refine ⟨sound, latched, fun latch member missing => ?_, fun s unwritten => ?_, stability, modes, fun driver member => ?_⟩
  · have := updated latch member
    rw [missing] at this
    cases this
  · simpa using written (none, s) (List.mem_zipIdx_iff_getElem?.mpr unwritten)
  · obtain ⟨⟨⟨⟨⟨mode, up⟩, down⟩, output⟩, high⟩, low⟩ := drivers driver member
    exact ⟨⟨mode, up, down⟩, output, high, low⟩

end Hynergy
