import Hynergy.Model.Instances
import Mathlib.Algebra.Order.Field.Rat
import Mathlib.Data.Nat.Pairing

/-!
# Forwarded parameters

A parameter that is passed on obeys what its constraints imply. The one exception is a tiny number
whose reciprocal is not finite, where the reciprocal may be anything.
-/

namespace Hynergy

section Sound

variable {F : Type} [F64 F]

/-- What the constraints of a definition's parameters accept. -/
structure AllAccepted (constraints : List (ParameterConstraints F)) (values : List F) : Prop where
  length : values.length = constraints.length
  valid : ∀ (i : Nat) c v, constraints[i]? = some c → values[i]? = some v → c.validate v = .ok ()

theorem AllAccepted.backed {constraints : List (ParameterConstraints F)} {values : List F}
    (h : AllAccepted constraints values) : AllBacked constraints values :=
  ⟨h.length, fun i c v readC readV => ⟨c, ParameterConstraints.validate_iff.mp (h.valid i c v readC readV), Or.inl rfl⟩⟩

/-- Values that a definition accepts give each primitive inside it values that it accepts. -/
theorem Instance.accepted (ordered : F64.Ordered F) {registry : DefinitionRegistry F} (reached : registry.Reached)
    {definition : DeviceDefinition F} {values leaf : List F} {kind : PrimitiveElementKind}
    (inside : Instance registry definition values kind leaf) (checked : DefinitionChecked registry definition)
    (accepted : AllAccepted definition.parameters values) : AllAccepted kind.parameterConstraints leaf := by
  obtain ⟨length, each⟩ := inside.accepts ordered reached checked accepted.backed
  refine ⟨length.trans kind.constraints_length.symm, fun i c v readC readV => ?_⟩
  obtain ⟨c', readC', valid⟩ := each i v readV
  obtain rfl := Option.some.inj (readC.symm.trans readC')
  exact valid

/-- A subset accepts less where the reciprocal is finite or not left unbounded, and what reaches a primitive through
composites obeys the primitive's constraints. -/
theorem ParameterConstraints.isSubsetOf_sound (ordered : F64.Ordered F) :
    (∀ (provided required : ParameterConstraints F) (value : F), provided.isSubsetOf required = true →
      provided.validate value = .ok () →
      (required.validate value = .ok () ↔
        (required.reciprocalRange = some (none, none) → provided.reciprocalRange = none →
          F64.isFinite (F64.div F64.one value) = true))) ∧
    ∀ registry : DefinitionRegistry F, registry.Reached → ∀ id definition, registry.get id = some definition →
      ∀ values, AllAccepted definition.parameters values → ∀ kind leaf, Instance registry definition values kind leaf →
        AllAccepted kind.parameterConstraints leaf := by
  refine ⟨fun provided required value subset valid => ?_, fun registry reached id definition found values accepted kind leaf inside => ?_⟩
  · rw [validate_iff]
    exact (isSubsetOf_iff.mp subset).accepts_iff ordered (validate_iff.mp valid)
  · exact inside.accepted ordered reached (reached.checked id definition found) accepted

end Sound

/-! ### Numbers with a greatest exponent -/

/-- A fraction below `2 ^ 1024`, or what is not a number. -/
structure CappedRat where
  value : Option ℚ
  deriving DecidableEq

namespace CappedRat

/-- What is too large is not a number. -/
def cap (q : ℚ) : CappedRat := ⟨if q < 2 ^ 1024 ∧ -q < 2 ^ 1024 then some q else none⟩

def lift (operation : ℚ → ℚ → ℚ) (a b : CappedRat) : CappedRat :=
  match a.value, b.value with
  | some a, some b => cap (operation a b)
  | _, _ => ⟨none⟩

def compare (relation : ℚ → ℚ → Bool) (a b : CappedRat) : Bool :=
  match a.value, b.value with
  | some a, some b => relation a b
  | _, _ => false

instance : F64 CappedRat where
  zero := ⟨some 0⟩
  half := ⟨some (1 / 2)⟩
  one := ⟨some 1⟩
  infinity := ⟨none⟩
  add := lift (· + ·)
  sub := lift (· - ·)
  mul := lift (· * ·)
  div a b := if b.value = some 0 then ⟨none⟩ else lift (· / ·) a b
  neg a := lift (· - ·) ⟨some 0⟩ a
  beq := compare fun a b => decide (a = b)
  lt := compare fun a b => decide (a < b)
  le := compare fun a b => decide (a ≤ b)
  isFinite a := a.value.isSome
  toBits a := a.value.elim 0 fun q => Nat.pair (if 0 ≤ q.num then 2 * q.num.natAbs else 2 * q.num.natAbs + 1) q.den + 1

theorem compare_eq_true {relation : ℚ → ℚ → Bool} {a b : CappedRat} :
    compare relation a b = true ↔ ∃ x y, a.value = some x ∧ b.value = some y ∧ relation x y = true := by
  unfold compare
  cases a.value <;> cases b.value <;> simp

theorem lt_iff {a b : CappedRat} : F64.lt a b = true ↔ ∃ x y, a.value = some x ∧ b.value = some y ∧ x < y := by
  simp only [F64.lt, compare_eq_true, decide_eq_true_eq]

theorem le_iff {a b : CappedRat} : F64.le a b = true ↔ ∃ x y, a.value = some x ∧ b.value = some y ∧ x ≤ y := by
  simp only [F64.le, compare_eq_true, decide_eq_true_eq]

theorem beq_iff {a b : CappedRat} : F64.beq a b = true ↔ ∃ x, a.value = some x ∧ b.value = some x := by
  simp only [F64.beq, compare_eq_true, decide_eq_true_eq]
  constructor
  · rintro ⟨x, y, hx, hy, rfl⟩
    exact ⟨x, hx, hy⟩
  · rintro ⟨x, hx, hy⟩
    exact ⟨x, x, hx, hy, rfl⟩

theorem ordered : F64.Ordered CappedRat where
  lt_trans h h' := by
    obtain ⟨x, y, hx, hy, less⟩ := lt_iff.mp h
    obtain ⟨y', z, hy', hz, less'⟩ := lt_iff.mp h'
    obtain rfl := Option.some.inj (hy.symm.trans hy')
    exact lt_iff.mpr ⟨x, z, hx, hz, less.trans less'⟩
  lt_of_lt_of_beq h h' := by
    obtain ⟨x, y, hx, hy, less⟩ := lt_iff.mp h
    obtain ⟨y', hy', hz⟩ := beq_iff.mp h'
    obtain rfl := Option.some.inj (hy.symm.trans hy')
    exact lt_iff.mpr ⟨x, y, hx, hz, less⟩
  lt_of_beq_of_lt h h' := by
    obtain ⟨x, hx, hy⟩ := beq_iff.mp h
    obtain ⟨y', z, hy', hz, less⟩ := lt_iff.mp h'
    obtain rfl := Option.some.inj (hy.symm.trans hy')
    exact lt_iff.mpr ⟨x, z, hx, hz, less⟩
  beq_symm h := by
    obtain ⟨x, hx, hy⟩ := beq_iff.mp h
    exact beq_iff.mpr ⟨x, hy, hx⟩
  beq_trans h h' := by
    obtain ⟨x, hx, hy⟩ := beq_iff.mp h
    obtain ⟨y', hy', hz⟩ := beq_iff.mp h'
    obtain rfl := Option.some.inj (hy.symm.trans hy')
    exact beq_iff.mpr ⟨x, hx, hz⟩
  le_iff := by
    intro a b
    rw [le_iff, lt_iff, beq_iff]
    constructor
    · rintro ⟨x, y, hx, hy, le⟩
      rcases le.lt_or_eq with less | rfl
      · exact Or.inl ⟨x, y, hx, hy, less⟩
      · exact Or.inr ⟨x, hx, hy⟩
    · rintro (⟨x, y, hx, hy, less⟩ | ⟨x, hx, hy⟩)
      · exact ⟨x, y, hx, hy, less.le⟩
      · exact ⟨x, x, hx, hy, le_rfl⟩
  not_beq_of_lt h h' := by
    obtain ⟨x, y, hx, hy, less⟩ := lt_iff.mp h
    obtain ⟨z, hx', hy'⟩ := beq_iff.mp h'
    obtain rfl := Option.some.inj (hx.symm.trans hx')
    obtain rfl := Option.some.inj (hy.symm.trans hy')
    exact less.false
  reciprocal_zero h := by
    obtain ⟨x, hx, hy⟩ := beq_iff.mp h
    obtain rfl := Option.some.inj hy
    simp [F64.div, F64.isFinite, hx]

/-- The smallest double above zero. -/
def tiny : CappedRat := ⟨some (1 / 2 ^ 1074)⟩

end CappedRat

/-- Excluding zero passes for an unbounded range of the reciprocal, which a tiny value has none in. -/
theorem ParameterConstraints.isSubsetOf_unsound_tiny : ¬ ∀ provided required : ParameterConstraints CappedRat, ∀ value,
    provided.isSubsetOf required = true → provided.validate value = .ok () → required.validate value = .ok () := by
  intro sound
  have accepted := sound { nonZero := true } { reciprocalRange := some (none, none) } CappedRat.tiny
    (by decide +kernel) (by decide +kernel)
  exact absurd accepted (by decide +kernel)

open PrimitiveElementKind in
/-- At one the reciprocal is finite, and the resistance inside two composites that forward its value has one. -/
theorem ParameterConstraints.isSubsetOf_sound_nested :
    ({ reciprocalRange := some (none, none) } : ParameterConstraints CappedRat).validate ⟨some 1⟩ = .ok () ∧
    ∃ (registry : DefinitionRegistry CappedRat) (outer inner : DefinitionId) (whole part : DeviceDefinition CappedRat)
      (circuit : Circuit CappedRat), registry.Reached ∧ registry.get outer = some whole ∧ registry.get inner = some part ∧
      whole.body = .composite circuit ∧ (∃ element ∈ circuit.elements, element.definition = inner) ∧
      Instance registry whole [⟨some 1⟩] resistance [⟨some 1⟩] ∧
      AllAccepted (resistance.parameterConstraints : List (ParameterConstraints CappedRat)) [⟨some 1⟩] := by
  obtain ⟨subset, leaf⟩ := ParameterConstraints.isSubsetOf_sound CappedRat.ordered
  refine ⟨(subset { nonZero := true } _ ⟨some 1⟩ (by decide +kernel) (by decide +kernel)).mpr fun _ _ => by decide +kernel, ?_⟩
  have defined : (((.new : DefinitionRegistry CappedRat).define [.addTerminal, .addTerminal,
      .addParameter { lower := some ⟨⟨some 0⟩, false⟩ },
      .addElement ⟨resistance.definitionId, [⟨0, by decide⟩, ⟨1, by decide⟩], [.parameter ⟨0, by decide⟩]⟩]).any fun inner =>
      (inner.2.2.1.elements.any fun element => decide (element.definition = resistance.definitionId) &&
        decide (element.parameters.mapM (ValueRef.resolve [⟨some 1⟩]) = some [(⟨some 1⟩ : CappedRat)])) &&
      (inner.2.2.2.define [.addTerminal, .addTerminal, .addNode, .addParameter { lower := some ⟨⟨some 0⟩, false⟩ },
        .addElement ⟨inner.1, [⟨0, by decide⟩, ⟨2, by decide⟩], [.parameter ⟨0, by decide⟩]⟩,
        .addElement ⟨inner.1, [⟨2, by decide⟩, ⟨1, by decide⟩], [.literal ⟨some 2⟩]⟩]).any fun outer =>
        (outer.2.2.1.elements.any fun element => decide (element.definition = inner.1) &&
          decide (element.parameters.mapM (ValueRef.resolve [⟨some 1⟩]) = some [(⟨some 1⟩ : CappedRat)])) &&
        (decide (outer.2.1.parameters.length = 1) &&
          outer.2.1.parameters.all fun constraints => decide (constraints.validate ⟨some 1⟩ = .ok ()))) = true := by
    decide +kernel
  obtain ⟨⟨inner, part, partBuilder, registry⟩, defines, holds⟩ := (Option.any_eq_true _ _).mp defined
  rw [Bool.and_eq_true, Option.any_eq_true] at holds
  obtain ⟨forwards, ⟨outer, whole, builder, next⟩, defines', holds⟩ := holds
  simp only [Bool.and_eq_true, decide_eq_true_eq, List.any_eq_true, List.all_eq_true] at forwards holds
  obtain ⟨element, member, isResistance, resolved⟩ := forwards
  obtain ⟨⟨element', member', isPart, resolved'⟩, length, valid⟩ := holds
  obtain ⟨reached, registered₁, partFound, partBody⟩ := DefinitionRegistry.Reached.new.define defines
  obtain ⟨reached', registered, found, body⟩ := reached.define defines'
  have grown := DefinitionRegistry.register_extends registered
  have accepted : AllAccepted whole.parameters [⟨some 1⟩] :=
    ⟨length.symm, fun i c v readC readV => by
      obtain rfl := List.mem_singleton.mp (List.mem_of_getElem? readV)
      exact valid c (List.mem_of_getElem? readC)⟩
  have inside : Instance next whole [⟨some 1⟩] resistance [⟨some 1⟩] :=
    .element body member' (grown _ _ (isPart ▸ partFound)) resolved' (.element partBody member
      (grown _ _ (DefinitionRegistry.register_extends registered₁ _ _
        (isResistance ▸ DefinitionRegistry.get_new_definitionId resistance))) resolved (.primitive rfl))
  exact ⟨next, outer, inner, whole, part, _, reached', found, grown _ _ partFound, body, ⟨element', member', isPart⟩, inside,
    leaf next reached' outer whole found _ accepted _ _ inside⟩
end Hynergy
