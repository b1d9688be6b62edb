import Hynergy.Model.Float

/-!
# Parameter constraints
-/

namespace Hynergy

variable {F : Type}

structure Bound (F : Type) where
  value : F
  inclusive : Bool

structure ParameterConstraints (F : Type) where
  lower : Option (Bound F) := none
  upper : Option (Bound F) := none
  nonZero : Bool := false
  reciprocalRange : Option (Option (Bound F) × Option (Bound F)) := none

inductive ParameterConstraintError where
  | nonFinite
  | zeroNotAllowed
  | outOfRange
  | reciprocalOutOfRange
  deriving DecidableEq

variable [F64 F]

def withinBounds (value : F) (lower upper : Option (Bound F)) : Bool :=
  (lower.all fun b => if b.inclusive then F64.le b.value value else F64.lt b.value value) &&
    upper.all fun b => if b.inclusive then F64.le value b.value else F64.lt value b.value

namespace ParameterConstraints

def validate (self : ParameterConstraints F) (param : F) : Except ParameterConstraintError Unit :=
  if !F64.isFinite param then .error .nonFinite
  else if self.nonZero && F64.beq param F64.zero then .error .zeroNotAllowed
  else if !withinBounds param self.lower self.upper then .error .outOfRange
  else if !(self.reciprocalRange.all fun (lower, upper) =>
      let reciprocal := F64.div F64.one param
      F64.isFinite reciprocal && withinBounds reciprocal lower upper) then
    .error .reciprocalOutOfRange
  else .ok ()

def excludesZero (self : ParameterConstraints F) : Bool :=
  self.nonZero || self.reciprocalRange.isSome ||
    (self.lower.any fun b =>
      F64.lt F64.zero b.value || (F64.beq b.value F64.zero && !b.inclusive)) ||
    self.upper.any fun b => F64.lt b.value F64.zero || (F64.beq b.value F64.zero && !b.inclusive)

def lowerBoundImplies (provided required : Option (Bound F)) : Bool :=
  match required, provided with
  | none, _ => true
  | some _, none => false
  | some required, some provided =>
    F64.lt required.value provided.value ||
      (F64.beq provided.value required.value && (!provided.inclusive || required.inclusive))

def upperBoundImplies (provided required : Option (Bound F)) : Bool :=
  match required, provided with
  | none, _ => true
  | some _, none => false
  | some required, some provided =>
    F64.lt provided.value required.value ||
      (F64.beq provided.value required.value && (!provided.inclusive || required.inclusive))

def reciprocalRangeImplies (provided required : Option (Option (Bound F) × Option (Bound F)))
    (providedExcludesZero : Bool) : Bool :=
  match required with
  | none => true
  | some (requiredLower, requiredUpper) =>
    if requiredLower.isNone && requiredUpper.isNone then providedExcludesZero
    else
      match provided with
      | none => false
      | some (providedLower, providedUpper) =>
        lowerBoundImplies providedLower requiredLower &&
          upperBoundImplies providedUpper requiredUpper

def isSubsetOf (self required : ParameterConstraints F) : Bool :=
  if !lowerBoundImplies self.lower required.lower ||
      !upperBoundImplies self.upper required.upper then false
  else if required.nonZero && !self.excludesZero then false
  else reciprocalRangeImplies self.reciprocalRange required.reciprocalRange self.excludesZero

end ParameterConstraints

end Hynergy
