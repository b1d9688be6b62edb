import Mathlib.Tactic.Ring
import Hynergy.Model.Float
import Hynergy.Model.Outcome

/-!
# Value programs

The builder allocates a slot for every constant, input and computed value, folds what is constant,
and sorts the operations by how often their operands change. A program runs one list of
operations for each rate on a workspace of values.
-/

namespace Hynergy

variable {F : Type}

@[ext] structure ValueSlot where
  index : Nat
  deriving DecidableEq

@[ext] structure InputSlot where
  index : Nat
  deriving DecidableEq

def InputSlot.value (self : InputSlot) : ValueSlot := ⟨self.index⟩

inductive EvaluationRate where
  | constant | static | tick | iteration
  deriving DecidableEq

namespace EvaluationRate

/-- `self as u8`. -/
def discriminant : EvaluationRate → Nat
  | constant => 0
  | static => 1
  | tick => 2
  | iteration => 3

instance : Max EvaluationRate := ⟨fun a b => if a.discriminant ≤ b.discriminant then b else a⟩

theorem discriminant_max (a b : EvaluationRate) :
    (max a b).discriminant = max a.discriminant b.discriminant := by
  cases a <;> cases b <;> rfl

theorem eq_constant {a : EvaluationRate} : a = .constant ↔ a.discriminant = 0 := by
  cases a <;> decide

end EvaluationRate

inductive ValueBuildError where
  | slotExhausted
  | unknownValue (slot : ValueSlot)
  deriving DecidableEq

structure SlotInfo (F : Type) where
  rate : EvaluationRate
  constant : Option F

inductive BinaryOp where
  | add | sub | mul | div | lessEqual
  deriving DecidableEq

/-- The arithmetic of an operation, at build time as at run time. -/
def BinaryOp.apply [F64 F] : BinaryOp → F → F → F
  | add, lhs, rhs => F64.add lhs rhs
  | sub, lhs, rhs => F64.sub lhs rhs
  | mul, lhs, rhs => F64.mul lhs rhs
  | div, lhs, rhs => F64.div lhs rhs
  | lessEqual, lhs, rhs => if F64.le lhs rhs then F64.one else F64.zero

/-- `Add`, `Sub`, `Mul`, `Div` and `LessEqual` are `binary` with their operation. -/
inductive ValueOp where
  | binary (op : BinaryOp) (destination lhs rhs : ValueSlot)
  | neg (destination operand : ValueSlot)
  deriving DecidableEq

namespace ValueOp

def destination : ValueOp → ValueSlot
  | binary _ destination _ _ => destination
  | neg destination _ => destination

/-- `execute`; `none` where an index is out of range. -/
def execute [F64 F] (self : ValueOp) (values : List F) : Option (List F) :=
  match self with
  | binary op destination lhs rhs => do
    let l ← values[lhs.index]?
    let r ← values[rhs.index]?
    if destination.index < values.length then some (values.set destination.index (op.apply l r)) else none
  | neg destination operand => do
    let value ← values[operand.index]?
    if destination.index < values.length then some (values.set destination.index (F64.neg value)) else none

/-- What `visit_dependencies` visits, with the destination each time. -/
def dependencies : ValueOp → List ValueSlot
  | binary _ _ lhs rhs => [lhs, rhs]
  | neg _ operand => [operand]

end ValueOp

/-! ### The builder -/

structure ValueProgramBuilder (F : Type) where
  slots : List (SlotInfo F) := []
  initialValues : List F := []
  staticOps : List ValueOp := []
  tickOps : List ValueOp := []
  iterationOps : List ValueOp := []

structure ValueProgram (F : Type) where
  initialValues : List F
  staticOps : List ValueOp
  tickOps : List ValueOp
  iterationOps : List ValueOp

namespace ValueProgramBuilder

/-- A call on the builder. -/
abbrev Build (F α : Type) := Call (ValueProgramBuilder F) ValueBuildError α

def slotInfo (slot : ValueSlot) : Build F (SlotInfo F) := do
  let self ← Call.get
  Call.okOr self.slots[slot.index]? (.unknownValue slot)

def allocateSlot (info : SlotInfo F) (initialValue : F) : Build F ValueSlot := do
  let self ← Call.get
  -- `u32::try_from`
  Call.rejectIf (2 ^ 32 ≤ self.slots.length) .slotExhausted
  Call.set { self with slots := self.slots ++ [info], initialValues := self.initialValues ++ [initialValue] }
  pure ⟨self.slots.length⟩

def constant (value : F) : Build F ValueSlot := allocateSlot ⟨.constant, some value⟩ value

variable [F64 F]

def input (rate : EvaluationRate) : Build F InputSlot := do
  let value ← allocateSlot ⟨rate, none⟩ F64.zero
  pure ⟨value.index⟩

def staticInput : Build F InputSlot := input .static

def tickInput : Build F InputSlot := input .tick

def iterationInput : Build F InputSlot := input .iteration

def allocateComputed (rate : EvaluationRate) : Build F ValueSlot := allocateSlot ⟨rate, none⟩ F64.zero

omit [F64 F] in
/-- `push_op`; a constant rate is `unreachable!`. -/
def pushOp (rate : EvaluationRate) (op : ValueOp) : Build F Unit :=
  match rate with
  | .constant => Call.expect none
  | .static => Call.modify fun self => { self with staticOps := self.staticOps ++ [op] }
  | .tick => Call.modify fun self => { self with tickOps := self.tickOps ++ [op] }
  | .iteration => Call.modify fun self => { self with iterationOps := self.iterationOps ++ [op] }

def binary (op : BinaryOp) (lhs rhs : ValueSlot) : Build F ValueSlot := do
  let lhsInfo ← slotInfo lhs
  let rhsInfo ← slotInfo rhs
  match lhsInfo.constant, rhsInfo.constant with
  | some l, some r => constant (op.apply l r)
  | _, _ => do
    let rate := max lhsInfo.rate rhsInfo.rate
    let destination ← allocateComputed rate
    pushOp rate (.binary op destination lhs rhs)
    pure destination

def add (lhs rhs : ValueSlot) : Build F ValueSlot := binary .add lhs rhs

def sub (lhs rhs : ValueSlot) : Build F ValueSlot := binary .sub lhs rhs

def mul (lhs rhs : ValueSlot) : Build F ValueSlot := binary .mul lhs rhs

def div (lhs rhs : ValueSlot) : Build F ValueSlot := binary .div lhs rhs

def lessEqual (lhs rhs : ValueSlot) : Build F ValueSlot := binary .lessEqual lhs rhs

def neg (operand : ValueSlot) : Build F ValueSlot := do
  let info ← slotInfo operand
  match info.constant with
  | some value => constant (F64.neg value)
  | none => do
    let destination ← allocateComputed info.rate
    pushOp info.rate (.neg destination operand)
    pure destination

omit [F64 F] in
def rate (slot : ValueSlot) : Build F EvaluationRate := do
  let info ← slotInfo slot
  pure info.rate

omit [F64 F] in
def finish (self : ValueProgramBuilder F) : ValueProgram F :=
  { initialValues := self.initialValues, staticOps := self.staticOps, tickOps := self.tickOps
    iterationOps := self.iterationOps }

omit [F64 F] in
/-- The operations of a rate. -/
def opsOf (self : ValueProgramBuilder F) : EvaluationRate → List ValueOp
  | .constant => []
  | .static => self.staticOps
  | .tick => self.tickOps
  | .iteration => self.iterationOps

end ValueProgramBuilder

/-! ### Programs -/

structure ValueWorkspace (F : Type) where
  values : List F

namespace ValueWorkspace

def value (self : ValueWorkspace F) (slot : ValueSlot) : Option F := self.values[slot.index]?

def setInput (self : ValueWorkspace F) (slot : InputSlot) (value : F) : Option (ValueWorkspace F) :=
  if slot.index < self.values.length then some ⟨self.values.set slot.index value⟩ else none

end ValueWorkspace

def executeOps [F64 F] (ops : List ValueOp) (values : List F) : Option (List F) :=
  ops.foldlM (fun values op => op.execute values) values

namespace ValueProgram

def valueCount (self : ValueProgram F) : Nat := self.initialValues.length

def newWorkspace (self : ValueProgram F) : ValueWorkspace F := ⟨self.initialValues⟩

variable [F64 F]

/-- A stage: the workspace must fit the program. -/
def execute (self : ValueProgram F) (ops : List ValueOp) (workspace : ValueWorkspace F) :
    Option (ValueWorkspace F) :=
  if workspace.values.length = self.initialValues.length then
    (executeOps ops workspace.values).map ValueWorkspace.mk
  else none

def executeStatic (self : ValueProgram F) : ValueWorkspace F → Option (ValueWorkspace F) :=
  self.execute self.staticOps

def executeTick (self : ValueProgram F) : ValueWorkspace F → Option (ValueWorkspace F) :=
  self.execute self.tickOps

def executeIteration (self : ValueProgram F) : ValueWorkspace F → Option (ValueWorkspace F) :=
  self.execute self.iterationOps

end ValueProgram

end Hynergy
