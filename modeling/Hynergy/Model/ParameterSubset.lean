import Hynergy.Model.Parameter

/-!
# Subsets of constraints

A parameter may be passed on where its constraints imply those of the element's parameter.
-/

namespace Hynergy

variable {F : Type} [F64 F]

/-- What comparisons and reciprocals of doubles obey, whatever is not a number included. -/
structure F64.Ordered (F : Type) [F64 F] : Prop where
  lt_trans : ∀ {a b c : F}, F64.lt a b = true → F64.lt b c = true → F64.lt a c = true
  lt_of_lt_of_beq : ∀ {a b c : F}, F64.lt a b = true → F64.beq b c = true → F64.lt a c = true
  lt_of_beq_of_lt : ∀ {a b c : F}, F64.beq a b = true → F64.lt b c = true → F64.lt a c = true
  beq_symm : ∀ {a b : F}, F64.beq a b = true → F64.beq b a = true
  beq_trans : ∀ {a b c : F}, F64.beq a b = true → F64.beq b c = true → F64.beq a c = true
  le_iff : ∀ {a b : F}, F64.le a b = true ↔ F64.lt a b = true ∨ F64.beq a b = true
  not_beq_of_lt : ∀ {a b : F}, F64.lt a b = true → ¬ F64.beq a b = true
  reciprocal_zero : ∀ {a : F}, F64.beq a F64.zero = true → F64.isFinite (F64.div F64.one a) = false

/-! ### Bounds -/

/-- A value on the right side of a bound, in one of the two directions. -/
def Beyond (before : F → F → Bool) (bound : Bound F) (value : F) : Prop :=
  before bound.value value = true ∨ bound.inclusive = true ∧ F64.beq bound.value value = true

/-- The bound implies the required one. -/
def Implies (before : F → F → Bool) (provided required : Bound F) : Prop :=
  before required.value provided.value = true ∨
    F64.beq provided.value required.value = true ∧ (provided.inclusive = false ∨ required.inclusive = true)

/-- A direction of the order. -/
structure Direction (before : F → F → Bool) : Prop where
  trans : ∀ {a b c : F}, before a b = true → before b c = true → before a c = true
  right : ∀ {a b c : F}, before a b = true → F64.beq b c = true → before a c = true
  left : ∀ {a b c : F}, F64.beq a b = true → before b c = true → before a c = true

theorem F64.Ordered.up (ordered : F64.Ordered F) : Direction (F64.lt : F → F → Bool) :=
  ⟨ordered.lt_trans, ordered.lt_of_lt_of_beq, ordered.lt_of_beq_of_lt⟩

theorem F64.Ordered.down (ordered : F64.Ordered F) : Direction fun a b : F => F64.lt b a :=
  ⟨fun h h' => ordered.lt_trans h' h, fun h same => ordered.lt_of_beq_of_lt (ordered.beq_symm same) h,
    fun same h => ordered.lt_of_lt_of_beq h (ordered.beq_symm same)⟩

section Direction

variable {before : F → F → Bool} {provided required : Bound F}

theorem Implies.beyond (ordered : F64.Ordered F) (direction : Direction before) (h : Implies before provided required)
    {value : F} (inside : Beyond before provided value) : Beyond before required value := by
  rcases h with stricter | ⟨same, edge⟩
  · rcases inside with past | ⟨-, at'⟩
    · exact Or.inl (direction.trans stricter past)
    · exact Or.inl (direction.right stricter at')
  · rcases inside with past | ⟨inclusive, at'⟩
    · exact Or.inl (direction.left (ordered.beq_symm same) past)
    · rcases edge with exclusive | inclusive'
      · rw [inclusive] at exclusive
        cases exclusive
      · exact Or.inr ⟨inclusive', ordered.beq_trans (ordered.beq_symm same) at'⟩

theorem Implies.trans (ordered : F64.Ordered F) (direction : Direction before) {middle : Bound F}
    (h : Implies before provided middle) (h' : Implies before middle required) : Implies before provided required := by
  rcases h with stricter | ⟨same, edge⟩
  · rcases h' with stricter' | ⟨same', -⟩
    · exact Or.inl (direction.trans stricter' stricter)
    · exact Or.inl (direction.left (ordered.beq_symm same') stricter)
  · rcases h' with stricter' | ⟨same', edge'⟩
    · exact Or.inl (direction.right stricter' (ordered.beq_symm same))
    · refine Or.inr ⟨ordered.beq_trans same same', ?_⟩
      rcases edge with exclusive | inclusive
      · exact Or.inl exclusive
      · refine edge'.imp_left fun exclusive => ?_
        rw [inclusive] at exclusive
        cases exclusive

end Direction

/-- Optional bounds. -/
def OptionImplies (before : F → F → Bool) (provided required : Option (Bound F)) : Prop :=
  ∀ bound, required = some bound → ∃ own, provided = some own ∧ Implies before own bound

theorem OptionImplies.trans (ordered : F64.Ordered F) {before : F → F → Bool} (direction : Direction before)
    {provided middle required : Option (Bound F)} (h : OptionImplies before provided middle)
    (h' : OptionImplies before middle required) : OptionImplies before provided required := by
  intro bound is
  obtain ⟨own, isMiddle, implies⟩ := h' bound is
  obtain ⟨first, isProvided, implies'⟩ := h own isMiddle
  exact ⟨first, isProvided, implies'.trans ordered direction implies⟩

namespace ParameterConstraints

theorem lowerBoundImplies_iff {provided required : Option (Bound F)} :
    lowerBoundImplies provided required = true ↔ OptionImplies F64.lt provided required := by
  cases required with
  | none => simp [lowerBoundImplies, OptionImplies]
  | some required =>
    cases provided with
    | none => simp [lowerBoundImplies, OptionImplies]
    | some provided => simp [lowerBoundImplies, OptionImplies, Implies]

theorem upperBoundImplies_iff {provided required : Option (Bound F)} :
    upperBoundImplies provided required = true ↔ OptionImplies (fun a b => F64.lt b a) provided required := by
  cases required with
  | none => simp [upperBoundImplies, OptionImplies]
  | some required =>
    cases provided with
    | none => simp [upperBoundImplies, OptionImplies]
    | some provided => simp [upperBoundImplies, OptionImplies, Implies]

theorem withinBounds_iff (ordered : F64.Ordered F) {value : F} {lower upper : Option (Bound F)} :
    withinBounds value lower upper = true ↔ (∀ bound, lower = some bound → Beyond F64.lt bound value) ∧
      ∀ bound, upper = some bound → Beyond (fun a b => F64.lt b a) bound value := by
  have below : ∀ bound : Bound F, (if bound.inclusive then F64.le bound.value value else F64.lt bound.value value) = true ↔
      Beyond F64.lt bound value := by
    intro bound
    cases inclusive : bound.inclusive with
    | true => simp [Beyond, inclusive, ordered.le_iff]
    | false => simp [Beyond, inclusive]
  have above : ∀ bound : Bound F, (if bound.inclusive then F64.le value bound.value else F64.lt value bound.value) = true ↔
      Beyond (fun a b => F64.lt b a) bound value := by
    intro bound
    cases inclusive : bound.inclusive with
    | true =>
      simp only [Beyond, inclusive, if_true, ordered.le_iff, true_and]
      exact or_congr_right ⟨ordered.beq_symm, ordered.beq_symm⟩
    | false => simp [Beyond, inclusive]
  unfold withinBounds
  rw [Bool.and_eq_true, Option.all_eq_true, Option.all_eq_true]
  simp only [below, above]

theorem withinBounds_of_implies (ordered : F64.Ordered F) {value : F} {lower upper lower' upper' : Option (Bound F)}
    (implies : OptionImplies F64.lt lower lower') (implies' : OptionImplies (fun a b => F64.lt b a) upper upper')
    (inside : withinBounds value lower upper = true) : withinBounds value lower' upper' = true := by
  rw [withinBounds_iff ordered] at inside ⊢
  refine ⟨fun bound is => ?_, fun bound is => ?_⟩
  · obtain ⟨own, isOwn, h⟩ := implies bound is
    exact h.beyond ordered ordered.up (inside.1 own isOwn)
  · obtain ⟨own, isOwn, h⟩ := implies' bound is
    exact h.beyond ordered ordered.down (inside.2 own isOwn)

/-! ### Validation -/

/-- What `validate` accepts. -/
structure Accepts (constraints : ParameterConstraints F) (value : F) : Prop where
  finite : F64.isFinite value = true
  nonZero : constraints.nonZero = true → ¬ F64.beq value F64.zero = true
  within : withinBounds value constraints.lower constraints.upper = true
  reciprocal : ∀ lower upper, constraints.reciprocalRange = some (lower, upper) →
    F64.isFinite (F64.div F64.one value) = true ∧ withinBounds (F64.div F64.one value) lower upper = true

theorem validate_iff {self : ParameterConstraints F} {value : F} :
    self.validate value = .ok () ↔ self.Accepts value := by
  unfold validate
  constructor
  · intro valid
    split at valid
    · cases valid
    · rename_i finite
      split at valid
      · cases valid
      · rename_i nonZero
        split at valid
        · cases valid
        · rename_i within
          split at valid
          · cases valid
          · rename_i reciprocal
            refine ⟨by simpa using finite, fun set zero => nonZero (by simp [set, zero]), by simpa using within,
              fun lower upper is => ?_⟩
            simpa [is] using reciprocal
  · intro h
    rw [if_neg (by simp [h.finite]), if_neg, if_neg (by simp [h.within]), if_neg]
    · cases range : self.reciprocalRange with
      | none => simp
      | some bounds =>
        obtain ⟨finite, within⟩ := h.reciprocal bounds.1 bounds.2 range
        simp [finite, within]
    · intro zero
      rw [Bool.and_eq_true] at zero
      exact h.nonZero zero.1 zero.2

/-- Where the constraints exclude zero, no accepted value is zero. -/
theorem Accepts.not_zero (ordered : F64.Ordered F) {self : ParameterConstraints F} {value : F} (h : self.Accepts value)
    (excludes : self.excludesZero = true) : ¬ F64.beq value F64.zero = true := by
  intro zero
  have sides := (withinBounds_iff ordered).mp h.within
  simp only [excludesZero, Bool.or_eq_true, Option.any_eq_true, Bool.and_eq_true, Bool.not_eq_true'] at excludes
  rcases excludes with ((nonZero | range) | ⟨bound, is, past⟩) | ⟨bound, is, past⟩
  · exact h.nonZero nonZero zero
  · obtain ⟨⟨lower, upper⟩, isRange⟩ := Option.isSome_iff_exists.mp range
    have finite := (h.reciprocal lower upper isRange).1
    rw [ordered.reciprocal_zero zero] at finite
    cases finite
  · have below : F64.lt F64.zero value = true := by
      rcases sides.1 bound is with beyond | ⟨inclusive, at'⟩
      · rcases past with positive | ⟨same, -⟩
        · exact ordered.lt_trans positive beyond
        · exact ordered.lt_of_beq_of_lt (ordered.beq_symm same) beyond
      · rcases past with positive | ⟨-, exclusive⟩
        · exact ordered.lt_of_lt_of_beq positive at'
        · rw [inclusive] at exclusive
          cases exclusive
    exact ordered.not_beq_of_lt below (ordered.beq_symm zero)
  · have above : F64.lt value F64.zero = true := by
      rcases sides.2 bound is with beyond | ⟨inclusive, at'⟩
      · rcases past with negative | ⟨same, -⟩
        · exact ordered.lt_trans beyond negative
        · exact ordered.lt_of_lt_of_beq beyond same
      · rcases past with negative | ⟨-, exclusive⟩
        · exact ordered.lt_of_beq_of_lt (ordered.beq_symm at') negative
        · rw [inclusive] at exclusive
          cases exclusive
    exact ordered.not_beq_of_lt above zero

/-! ### Subsets -/

/-- What `is_subset_of` checks. -/
structure Within (provided required : ParameterConstraints F) : Prop where
  lower : OptionImplies F64.lt provided.lower required.lower
  upper : OptionImplies (fun a b => F64.lt b a) provided.upper required.upper
  nonZero : required.nonZero = true → provided.excludesZero = true
  unbounded : required.reciprocalRange = some (none, none) → provided.excludesZero = true
  reciprocal : ∀ lower upper, required.reciprocalRange = some (lower, upper) → (lower, upper) ≠ (none, none) →
    ∃ own own', provided.reciprocalRange = some (own, own') ∧ OptionImplies F64.lt own lower ∧
      OptionImplies (fun a b => F64.lt b a) own' upper

theorem isSubsetOf_iff {provided required : ParameterConstraints F} :
    provided.isSubsetOf required = true ↔ provided.Within required := by
  have range : reciprocalRangeImplies provided.reciprocalRange required.reciprocalRange provided.excludesZero = true ↔
      (required.reciprocalRange = some (none, none) → provided.excludesZero = true) ∧
      ∀ lower upper, required.reciprocalRange = some (lower, upper) → (lower, upper) ≠ (none, none) →
        ∃ own own', provided.reciprocalRange = some (own, own') ∧ OptionImplies F64.lt own lower ∧
          OptionImplies (fun a b => F64.lt b a) own' upper := by
    unfold reciprocalRangeImplies
    cases required.reciprocalRange with
    | none => simp
    | some bounds =>
      obtain ⟨lower, upper⟩ := bounds
      cases lower with
      | none =>
        cases upper with
        | none => simp
        | some upper =>
          cases provided.reciprocalRange with
          | none => simp
          | some own =>
            obtain ⟨own, own'⟩ := own
            simp [lowerBoundImplies_iff, upperBoundImplies_iff, and_assoc]
      | some lower =>
        cases provided.reciprocalRange with
        | none => simp
        | some own =>
          obtain ⟨own, own'⟩ := own
          simp [lowerBoundImplies_iff, upperBoundImplies_iff, and_assoc]
  unfold isSubsetOf
  constructor
  · intro subset
    split at subset
    · cases subset
    · rename_i bounds
      rw [Bool.or_eq_true, not_or] at bounds
      split at subset
      · cases subset
      · rename_i nonZero
        obtain ⟨unbounded, reciprocal⟩ := range.mp subset
        refine ⟨lowerBoundImplies_iff.mp (by simpa using bounds.1), upperBoundImplies_iff.mp (by simpa using bounds.2),
          fun set => ?_, unbounded, reciprocal⟩
        cases excludes : provided.excludesZero with
        | true => rfl
        | false => exact absurd (by simp [set, excludes]) nonZero
  · intro h
    rw [if_neg (by simp [lowerBoundImplies_iff.mpr h.lower, upperBoundImplies_iff.mpr h.upper]), if_neg]
    · exact range.mpr ⟨h.unbounded, h.reciprocal⟩
    · intro violated
      rw [Bool.and_eq_true] at violated
      rw [h.nonZero violated.1] at violated
      cases violated.2

/-- A subset accepts less, but for reciprocals that are not finite where the required range is unbounded. -/
theorem Within.accepts_iff (ordered : F64.Ordered F) {provided required : ParameterConstraints F}
    (h : provided.Within required) {value : F} (accepts : provided.Accepts value) :
    required.Accepts value ↔ (required.reciprocalRange = some (none, none) → provided.reciprocalRange = none →
      F64.isFinite (F64.div F64.one value) = true) := by
  refine ⟨fun accepts' is _ => (accepts'.reciprocal none none is).1, fun finite => ⟨accepts.finite, fun set =>
    accepts.not_zero ordered (h.nonZero set), withinBounds_of_implies ordered h.lower h.upper accepts.within,
    fun lower upper is => ?_⟩⟩
  by_cases unbounded : (lower, upper) = ((none, none) : Option (Bound F) × Option (Bound F))
  · obtain ⟨rfl, rfl⟩ := Prod.mk.inj unbounded
    refine ⟨?_, rfl⟩
    cases own : provided.reciprocalRange with
    | none => exact finite is own
    | some bounds => exact (accepts.reciprocal bounds.1 bounds.2 own).1
  · obtain ⟨own, own', isOwn, implies, implies'⟩ := h.reciprocal lower upper is unbounded
    obtain ⟨finite', within⟩ := accepts.reciprocal own own' isOwn
    exact ⟨finite', withinBounds_of_implies ordered implies implies' within⟩

theorem Within.excludesZero (ordered : F64.Ordered F) {provided required : ParameterConstraints F}
    (h : provided.Within required) (excludes : required.excludesZero = true) : provided.excludesZero = true := by
  simp only [ParameterConstraints.excludesZero, Bool.or_eq_true, Option.any_eq_true, Bool.and_eq_true, Bool.not_eq_true']
    at excludes
  rcases excludes with ((nonZero | range) | ⟨bound, is, past⟩) | ⟨bound, is, past⟩
  · exact h.nonZero nonZero
  · obtain ⟨⟨lower, upper⟩, isRange⟩ := Option.isSome_iff_exists.mp range
    by_cases unbounded : (lower, upper) = ((none, none) : Option (Bound F) × Option (Bound F))
    · rw [unbounded] at isRange
      exact h.unbounded isRange
    · obtain ⟨own, own', isOwn, -⟩ := h.reciprocal lower upper isRange unbounded
      simp [ParameterConstraints.excludesZero, isOwn]
  · obtain ⟨own, isOwn, implies⟩ := h.lower bound is
    have own_past : F64.lt F64.zero own.value = true ∨ F64.beq own.value F64.zero = true ∧ own.inclusive = false := by
      rcases implies with stricter | ⟨same, edge⟩
      · rcases past with positive | ⟨zero, -⟩
        · exact Or.inl (ordered.lt_trans positive stricter)
        · exact Or.inl (ordered.lt_of_beq_of_lt (ordered.beq_symm zero) stricter)
      · rcases past with positive | ⟨zero, exclusive⟩
        · exact Or.inl (ordered.lt_of_lt_of_beq positive (ordered.beq_symm same))
        · refine Or.inr ⟨ordered.beq_trans same zero, edge.resolve_right fun inclusive => ?_⟩
          rw [exclusive] at inclusive
          cases inclusive
    simp only [ParameterConstraints.excludesZero, Bool.or_eq_true, Option.any_eq_true, Bool.and_eq_true,
      Bool.not_eq_true']
    exact Or.inl (Or.inr ⟨own, isOwn, own_past⟩)
  · obtain ⟨own, isOwn, implies⟩ := h.upper bound is
    have own_past : F64.lt own.value F64.zero = true ∨ F64.beq own.value F64.zero = true ∧ own.inclusive = false := by
      rcases implies with stricter | ⟨same, edge⟩
      · rcases past with negative | ⟨zero, -⟩
        · exact Or.inl (ordered.lt_trans stricter negative)
        · exact Or.inl (ordered.lt_of_lt_of_beq stricter zero)
      · rcases past with negative | ⟨zero, exclusive⟩
        · exact Or.inl (ordered.lt_of_beq_of_lt same negative)
        · refine Or.inr ⟨ordered.beq_trans same zero, edge.resolve_right fun inclusive => ?_⟩
          rw [exclusive] at inclusive
          cases inclusive
    simp only [ParameterConstraints.excludesZero, Bool.or_eq_true, Option.any_eq_true, Bool.and_eq_true,
      Bool.not_eq_true']
    exact Or.inr ⟨own, isOwn, own_past⟩

theorem Within.trans (ordered : F64.Ordered F) {provided middle required : ParameterConstraints F}
    (h : provided.Within middle) (h' : middle.Within required) : provided.Within required := by
  refine ⟨h.lower.trans ordered ordered.up h'.lower, h.upper.trans ordered ordered.down h'.upper,
    fun set => h.excludesZero ordered (h'.nonZero set), fun is => h.excludesZero ordered (h'.unbounded is),
    fun lower upper is bounded => ?_⟩
  obtain ⟨own, own', isOwn, implies, implies'⟩ := h'.reciprocal lower upper is bounded
  have stillBounded : (own, own') ≠ (none, none) := by
    intro unbounded
    obtain ⟨rfl, rfl⟩ := Prod.mk.inj unbounded
    refine bounded (Prod.ext ?_ ?_)
    · cases lower with
      | none => rfl
      | some bound => obtain ⟨_, absurd', -⟩ := implies bound rfl; cases absurd'
    · cases upper with
      | none => rfl
      | some bound => obtain ⟨_, absurd', -⟩ := implies' bound rfl; cases absurd'
  obtain ⟨first, first', isFirst, implied, implied'⟩ := h.reciprocal own own' isOwn stillBounded
  exact ⟨first, first', isFirst, implied.trans ordered ordered.up implies, implied'.trans ordered ordered.down implies'⟩

end ParameterConstraints

end Hynergy
