import Hynergy.Compile.MatrixDependencies
import Hynergy.Runtime.DiscreteClosure
import Hynergy.Lib.Places

/-!
# Sound templates

The numbers in a template are those of things that are there. A builder in such a state can be finished, and what
it leaves is again so.
-/

namespace Hynergy

open Lib

variable {F : Type}

/-! ### Soundness -/

/-- A node at a place: it is computed from earlier places, and from inputs that are there. -/
structure LocalValueNode.Inside (node : LocalValueNode F) (place parameters states unknowns : Nat) : Prop where
  operands : ∀ operand ∈ node.operands, operand < place
  parameter : ∀ id, node = .parameter id → id.index < parameters
  state : ∀ id, node = .state id → id.index < states
  unknown : ∀ id, node = .unknown id → id.index < unknowns

/-- Where the latches are. -/
def latchPlaces (nodes : List (LocalValueNode F)) : List Nat := places LocalValueNode.isLatch nodes

def LocalUnknownInfo.terminal? (info : LocalUnknownInfo) : Option Nat :=
  match info.binding with
  | .terminal index => some index
  | .allocated _ => none

structure Stamps.Sound (stamps : Stamps F) (parameters states terminals : Nat) : Prop where
  nodes : ∀ (i : Nat) node, stamps.nodes[i]? = some node → node.Inside i parameters states stamps.unknowns.length
  matrix : ∀ term ∈ stamps.matrix, term.row.index < stamps.unknowns.length ∧
    term.column.index < stamps.unknowns.length ∧ term.source.index < stamps.nodes.length
  rhs : ∀ term ∈ stamps.rhs, term.destination.index < stamps.unknowns.length ∧ term.source.index < stamps.nodes.length
  writes : ∀ entry ∈ stamps.writes, entry.1.index < states ∧ entry.2.index < stamps.nodes.length
  latches : ∀ entry ∈ stamps.latches, entry.2.index < stamps.nodes.length
  outputs : ∀ value ∈ stamps.outputs, value.index < stamps.nodes.length
  terminals : stamps.unknowns.filterMap LocalUnknownInfo.terminal? = List.range terminals

/-- What is registered of discrete parts is there. -/
structure Registered (values unknowns : Nat) (stability modes : List LocalValueId)
    (drivers : List LocalComplementaryDriver) : Prop where
  stability : ∀ value ∈ stability, value.index < values
  modes : ∀ value ∈ modes, value.index < values
  drivers : ∀ driver ∈ drivers, (driver.mode.value.index < values ∧ driver.pullUp.index < values ∧
    driver.pullDown.index < values) ∧ driver.output.index < unknowns ∧ driver.highRail.index < unknowns ∧
      driver.lowRail.index < unknowns

structure CompiledDefinitionTemplate.Sound (template : CompiledDefinitionTemplate F) : Prop where
  stamps : template.stamps.Sound template.parameterCount template.stateCount template.terminalCount
  latched : template.stamps.latches.map (·.1.index) = latchPlaces template.stamps.nodes
  entries : ∀ term ∈ template.matrixTerms, (term.pending template.matrixEntries).isSome = true
  registered : Registered template.values.length template.unknowns.length template.iterationStabilityValues template.discreteModes
    template.complementaryDrivers

namespace DefinitionTemplateBuilder

/-- The builder can be finished: what it stamped is sound, the latches are updated and the states that have to be
are written. -/
structure Finishable (builder : DefinitionTemplateBuilder F) : Prop where
  stamps : builder.stamps.Sound builder.parameterCount builder.stateWrites.length builder.terminalCount
  latched : builder.iterationLatches.map (·.1.index) = latchPlaces builder.stamps.nodes
  updated : ∀ latch ∈ builder.iterationLatches, latch.2 ≠ none
  written : ∀ s : Nat, builder.stateWrites[s]? = some none → hasBit builder.stateRequiresWrite s = false
  registered : Registered builder.values.length builder.unknowns.length builder.iterationStabilityValues builder.discreteModes
    builder.complementaryDrivers

end DefinitionTemplateBuilder

namespace Stamps.Sound

variable {stamps : Stamps F} {parameters states terminals : Nat}

theorem earlier (h : stamps.Sound parameters states terminals) : Earlier stamps.nodes :=
  fun i node read operand member => (h.nodes i node read).operands operand member

theorem bounded (h : stamps.Sound parameters states terminals) : Bounded stamps.nodes parameters where
  operands node member operand inside := by
    obtain ⟨i, read⟩ := List.mem_iff_getElem?.mp member
    exact ((h.nodes i node read).operands operand inside).trans (List.getElem?_eq_some_iff.mp read).1
  parameters id member := by
    obtain ⟨i, read⟩ := List.mem_iff_getElem?.mp member
    exact (h.nodes i _ read).parameter id rfl

end Stamps.Sound

/-! ### Canonical terms -/

theorem mem_canonicalize_key {α : Type} {key : α → List Nat} {plus : α → α → α} {isZero : α → Bool} {terms : List α}
    {term : α} (keeps : ∀ a b, key (plus a b) = key a) (member : term ∈ canonicalize isZero key plus terms) :
    ∃ a ∈ terms, key a = key term := by
  unfold canonicalize at member
  split at member
  · cases member
  · rename_i first rest sorted
    obtain ⟨a, there, same⟩ := mem_mergeFrom_key keeps (List.mem_filter.mp member).1
    rw [← sorted] at there
    exact ⟨a, (List.mem_filter.mp ((sortByKey_perm _).mem_iff.mp there)).1, same⟩

theorem mergeFrom_length_le {α : Type} {same : α → α → Bool} {plus : α → α → α} (term : α) (terms : List α) :
    (mergeFrom same plus term terms).length ≤ terms.length + 1 := by
  induction terms generalizing term with
  | nil => exact Nat.le_refl 1
  | cons next terms ih =>
    rw [mergeFrom]
    split
    · exact (ih _).trans (Nat.le_succ _)
    · simpa using ih next

theorem canonicalize_length_le {α : Type} {key : α → List Nat} {plus : α → α → α} {isZero : α → Bool} (terms : List α) :
    (canonicalize isZero key plus terms).length ≤ terms.length := by
  have kept : (sortByKey key (terms.filter fun term => !isZero term)).length = _ := (sortByKey_perm _).length_eq
  have filtered := List.length_filter_le (fun term => !isZero term) terms
  unfold canonicalize
  split
  · exact Nat.zero_le _
  · rename_i first rest sorted
    rw [sorted, List.length_cons] at kept
    have merged : (mergeFrom (fun a b => decide (key a = key b)) plus first rest).length ≤ _ := mergeFrom_length_le first rest
    have last := List.length_filter_le (fun term => !isZero term)
      (mergeFrom (fun a b => decide (key a = key b)) plus first rest)
    omega

section Finishing

variable [F64 F]

/-- A canonical term is in the place of some term. -/
theorem mem_canonicalizePendingMatrixTerms {terms canonical : List (PendingMatrixTerm F)}
    (run : canonicalizePendingMatrixTerms terms = some canonical) {term : PendingMatrixTerm F} (member : term ∈ canonical) :
    ∃ a ∈ terms, a.row = term.row ∧ a.column = term.column ∧ a.source = term.source := by
  rw [canonicalizePendingMatrixTerms, canonicalizeInPlace_eq] at run
  obtain rfl := Option.some.inj run
  obtain ⟨a, there, same⟩ := mem_canonicalize_key (by exact fun _ _ => rfl) member
  simp only [List.cons.injEq, and_true] at same
  obtain ⟨column, row, source⟩ := same
  exact ⟨a, there, congrArg UnknownIndex.mk row, congrArg UnknownIndex.mk column, congrArg ValueSlot.mk source⟩

theorem mem_canonicalizeRhsTerms {terms canonical : List (LocalRhsTerm F)}
    (run : canonicalizeRhsTerms terms = some canonical) {term : LocalRhsTerm F} (member : term ∈ canonical) :
    ∃ a ∈ terms, a.destination = term.destination ∧ a.source = term.source := by
  rw [canonicalizeRhsTerms, canonicalizeInPlace_eq] at run
  obtain rfl := Option.some.inj run
  obtain ⟨a, there, same⟩ := mem_canonicalize_key (by exact fun _ _ => rfl) member
  simp only [List.cons.injEq, and_true] at same
  obtain ⟨destination, source⟩ := same
  exact ⟨a, there, congrArg UnknownIndex.mk destination, congrArg ValueSlot.mk source⟩

theorem canonicalizePendingMatrixTerms_length {terms canonical : List (PendingMatrixTerm F)}
    (run : canonicalizePendingMatrixTerms terms = some canonical) : canonical.length ≤ terms.length := by
  rw [canonicalizePendingMatrixTerms, canonicalizeInPlace_eq] at run
  obtain rfl := Option.some.inj run
  exact canonicalize_length_le terms

theorem mem_sortDedup_map {values : List LocalValueId} {value : LocalValueId} :
    value ∈ (sortDedup (values.map (·.index))).map ValueSlot.mk ↔ value ∈ values := by
  simp only [sortDedup, List.mem_map, List.mem_dedup, List.mem_insertionSort]
  constructor
  · rintro ⟨_, ⟨v, member, rfl⟩, rfl⟩
    exact member
  · exact fun member => ⟨value.index, ⟨value, member, rfl⟩, rfl⟩

namespace DefinitionTemplateBuilder

omit [F64 F] in
theorem finishStateWrites_returns {requiresWrite : List (BitVec 64)} {entries : List (Option LocalValueId × Nat)}
    (written : ∀ entry ∈ entries, entry.1 = none → hasBit requiresWrite entry.2 = false)
    (done : List (LocalStateId × LocalValueId)) : ∃ result, entries.foldlM (finishStateWrite requiresWrite) done = .ok result := by
  induction entries generalizing done with
  | nil => exact ⟨done, rfl⟩
  | cons entry entries ih =>
    rw [List.foldlM_cons]
    have rest := ih fun other member => written other (List.mem_cons_of_mem _ member)
    obtain ⟨source, state⟩ := entry
    cases source with
    | some source => exact rest _
    | none =>
      have unset : hasBit requiresWrite state = false := written _ List.mem_cons_self rfl
      rw [finishStateWrite]
      dsimp only
      rw [unset]
      exact rest _

omit [F64 F] in
theorem finishLatches_returns {entries : List (LocalValueId × Option LocalValueId)}
    (updated : ∀ latch ∈ entries, latch.2 ≠ none) : ∃ latches, entries.mapM finishLatch = some latches := by
  induction entries with
  | nil => exact ⟨[], rfl⟩
  | cons entry entries ih =>
    obtain ⟨latches, run⟩ := ih fun other member => updated other (List.mem_cons_of_mem _ member)
    obtain ⟨update, isUpdate⟩ := Option.ne_none_iff_exists'.mp (updated entry List.mem_cons_self)
    exact ⟨(entry.1, update) :: latches, by simp [finishLatch, isUpdate, run]⟩

omit [F64 F] in
theorem finishLatch_places {entries : List (LocalValueId × Option LocalValueId)}
    (updated : ∀ latch ∈ entries, latch.2 ≠ none) :
    (entries.filterMap finishLatch).map (·.1.index) = entries.map (·.1.index) := by
  induction entries with
  | nil => rfl
  | cons latch latches ih =>
    obtain ⟨update, isUpdate⟩ := Option.ne_none_iff_exists'.mp (updated latch List.mem_cons_self)
    have kept : finishLatch latch = some (latch.1, update) := by simp [finishLatch, isUpdate]
    rw [List.filterMap_cons_some kept, List.map_cons, List.map_cons,
      ih fun other member => updated other (List.mem_cons_of_mem _ member)]

omit [F64 F] in
theorem matrixCoordinates_length_le (terms : List (PendingMatrixTerm F)) :
    (matrixCoordinates terms).length ≤ terms.length := by
  have shorter : ∀ l : List (Nat × Nat), (PatternBuilder.dedup l).length ≤ l.length := by
    intro l
    fun_induction PatternBuilder.dedup l with
    | case1 | case2 => exact Nat.le_refl _
    | case3 a rest ih => exact ih.trans (Nat.le_succ _)
    | case4 a b rest other ih => simpa using ih
  refine (shorter _).trans ?_
  rw [((terms.map matrixCoordinate).mergeSort_perm _).length_eq, List.length_map]

omit [F64 F] in
theorem localMatrixTerm_meets {coordinates : List (Nat × Nat)} {term : PendingMatrixTerm F}
    (member : matrixCoordinate term ∈ coordinates) (state : DefinitionTemplateBuilder F) :
    (localMatrixTerm coordinates term state).Meets False
      (fun value after => after = state ∧ value.pending (coordinates.map matrixEntry) = some term)
      fun error _ => error = .idExhausted ∧ 2 ^ 32 < coordinates.length := by
  cases found : coordinates.findIdx? fun coordinate => decide (coordinate = matrixCoordinate term) with
  | none => simpa using List.findIdx?_eq_none_iff.mp found _ member
  | some index =>
    obtain ⟨inside, -⟩ := List.findIdx?_eq_some_iff_getElem.mp found
    by_cases many : 2 ^ 32 ≤ index
    · have run : localMatrixTerm coordinates term state = .err .idExhausted state := by
        rw [localMatrixTerm, found, Call.expect_some_bind, Call.rejectIf_bind_pos many]
      exact .of_err run ⟨rfl, by omega⟩
    · have run : localMatrixTerm coordinates term state = .ok ⟨⟨index⟩, term.source, term.scale⟩ state := by
        rw [localMatrixTerm, found, Call.expect_some_bind, Call.rejectIf_bind_neg many]
        rfl
      exact .of_ok run (localMatrixTerm_ok run)

/-- Nothing panics, and only the places of the matrix can be exhausted. -/
theorem finish_returns {self : DefinitionTemplateBuilder F} (ready : self.Finishable) :
    (finish self).Meets False
      (fun template after => after = self ∧ (∀ p : LocalParameterId, template.parameterAffectsMatrix p = true ↔
        DependsOn template.stamps.nodes (template.stamps.matrix.map (·.source.index)) (.parameter p)) ∧
        (template.timestepAffectsMatrix = true ↔
          DependsOn template.stamps.nodes (template.stamps.matrix.map (·.source.index)) .timestep) ∧ template.Sound)
      fun error _ => error = .idExhausted ∧ 2 ^ 32 < self.matrixTerms.length := by
  obtain ⟨matrixTerms, isMatrix⟩ : ∃ canonical, canonicalizePendingMatrixTerms self.matrixTerms = some canonical :=
    ⟨_, canonicalizeInPlace_eq _⟩
  obtain ⟨rhsTerms, isRhs⟩ : ∃ canonical, canonicalizeRhsTerms self.rhsTerms = some canonical :=
    ⟨_, canonicalizeInPlace_eq _⟩
  have matrixInside : ∀ term ∈ matrixTerms, term.row.index < self.unknowns.length ∧
      term.column.index < self.unknowns.length ∧ term.source.index < self.values.length := by
    intro term member
    obtain ⟨a, there, row, column, source⟩ := mem_canonicalizePendingMatrixTerms isMatrix member
    have := ready.stamps.matrix a there
    rw [row, column, source] at this
    simpa [stamps] using this
  have sources : ∀ term ∈ matrixTerms, term.source.index < self.values.length :=
    fun term member => (matrixInside term member).2.2
  obtain ⟨words, ticks, isDependencies, marks, marksTick⟩ := matrixStaticDependencies_spec ready.stamps.bounded sources
  have written : ∀ entry ∈ self.stateWrites.zipIdx, entry.1 = none → hasBit self.stateRequiresWrite entry.2 = false :=
    fun entry member missing => ready.written entry.2 (missing ▸ List.mem_zipIdx_iff_getElem?.mp member)
  obtain ⟨writes, isWrites⟩ := finishStateWrites_returns written []
  obtain ⟨latches, isLatches⟩ := finishLatches_returns ready.updated
  unfold finish
  rw [Call.get_bind, isMatrix, Call.expect_some_bind, isRhs, Call.expect_some_bind, isDependencies, Call.expect_some_bind,
    isWrites, Call.ofExcept_ok_bind, isLatches]
  refine Call.meets_bind ((Call.pushEach_meets (fun seen done state => state = self ∧
    done.filterMap (LocalMatrixTerm.pending ((matrixCoordinates matrixTerms).map matrixEntry)) = seen ∧
      ∀ term ∈ done, (LocalMatrixTerm.pending ((matrixCoordinates matrixTerms).map matrixEntry) term).isSome = true)
    ?_ ⟨rfl, rfl, by simp⟩).mono id ?_ fun _ _ failed => failed)
  · rintro seen term rest done _ split ⟨rfl, kept, present⟩
    have member : term ∈ matrixTerms := by simp [← split]
    refine (localMatrixTerm_meets (matrixCoordinates_mem member) _).mono id ?_ ?_
    · rintro value after ⟨rfl, place⟩
      refine ⟨rfl, ?_, fun other there => ?_⟩
      · rw [List.filterMap_append, kept, List.filterMap_cons_some place, List.filterMap_nil]
      · rcases List.mem_append.mp there with earlier | last
        · exact present other earlier
        · rw [List.mem_singleton.mp last, place, Option.isSome_some]
    · rintro error after ⟨isError, many⟩
      exact ⟨isError, many.trans_le ((matrixCoordinates_length_le _).trans (canonicalizePendingMatrixTerms_length isMatrix))⟩
  · rintro localTerms _ ⟨rfl, kept, present⟩
    rw [Call.expect_some_bind]
    have isStamps : ∀ template : CompiledDefinitionTemplate F,
        template.matrixEntries = (matrixCoordinates matrixTerms).map matrixEntry → template.matrixTerms = localTerms →
        template.stamps.matrix = matrixTerms := by
      intro template entries terms
      rw [CompiledDefinitionTemplate.stamps, entries, terms, kept]
    refine ⟨rfl, ?_, ?_, ?_⟩
    · intro p
      rw [isStamps _ rfl rfl]
      exact marks p.index
    · rw [isStamps _ rfl rfl]
      exact marksTick
    · refine ⟨?_, ?_, present, ?_⟩
      · have sameWrites := finishStateWrites_ok isWrites
        have sameLatches := finishLatches_ok isLatches
        refine ⟨ready.stamps.nodes, ?_, fun term member => ?_, ?_, ?_, ready.stamps.outputs, ready.stamps.terminals⟩
        · rw [isStamps _ rfl rfl]
          simpa [CompiledDefinitionTemplate.stamps] using matrixInside
        · obtain ⟨a, there, destination, source⟩ := mem_canonicalizeRhsTerms isRhs member
          rw [← destination, ← source]
          exact ready.stamps.rhs a there
        · rw [List.nil_append] at sameWrites
          exact sameWrites ▸ ready.stamps.writes
        · exact sameLatches ▸ ready.stamps.latches
      · show latches.map (·.1.index) = _
        rw [finishLatches_ok isLatches, finishLatch_places ready.updated]
        exact ready.latched
      · obtain ⟨stability, modes, drivers⟩ := ready.registered
        exact ⟨fun value member => stability value (mem_sortDedup_map.mp member),
          fun value member => modes value (mem_sortDedup_map.mp member), drivers⟩

/-- A finished template marks just the parameters that its matrix depends on. Whatever is not marked can change without
the matrix changing. -/
theorem finish_marks {self : DefinitionTemplateBuilder F} (ready : self.Finishable) :
    (finish self).Meets False
      (fun template _ =>
        (∀ p : LocalParameterId, template.parameterAffectsMatrix p = true ↔
          DependsOn template.stamps.nodes (template.stamps.matrix.map (·.source.index)) (.parameter p)) ∧
        (template.timestepAffectsMatrix = true ↔
          DependsOn template.stamps.nodes (template.stamps.matrix.map (·.source.index)) .timestep) ∧
        ∀ (reading reading' : Reading F) (values values' : Nat → F), Evaluates template.stamps.nodes reading values →
          Evaluates template.stamps.nodes reading' values' →
          (∀ p : LocalParameterId, template.parameterAffectsMatrix p = true → reading.parameter p.index = reading'.parameter p.index) →
          (template.timestepAffectsMatrix = true → reading.timestep = reading'.timestep) →
          reading.state = reading'.state → reading.unknown = reading'.unknown →
          (∀ i ∈ latchPlaces template.stamps.nodes, values i = values' i) →
          ∀ term ∈ template.stamps.matrix, values term.source.index = values' term.source.index)
      fun error _ => error = .idExhausted ∧ 2 ^ 32 < self.matrixTerms.length := by
  refine (finish_returns ready).mono id ?_ fun _ _ failed => failed
  rintro template after ⟨-, parameters, timestep, sound⟩
  refine ⟨parameters, timestep, fun reading reading' values values' h h' sameParameters sameTimestep sameStates sameUnknowns
    sameLatches term member => ?_⟩
  have same : SameInputs template.stamps.nodes (template.stamps.matrix.map (·.source.index)) reading reading' :=
    ⟨fun p depends => sameParameters ⟨p⟩ ((parameters ⟨p⟩).mpr depends), fun depends => sameTimestep (timestep.mpr depends),
      fun s => congrFun sameStates s, fun u => congrFun sameUnknowns u⟩
  refine sources_unchanged sound.stamps.earlier h h' same (fun i node read latch => ?_) (fun i listed => ?_) _
    (List.mem_map_of_mem member)
  · exact sameLatches i (mem_places.mpr ⟨node, read, latch⟩)
  · obtain ⟨other, there, rfl⟩ := List.mem_map.mp listed
    exact (sound.stamps.matrix other there).2.2

/-- The conductance of a capacitor, a parameter over the timestep, beside a current that is another parameter. -/
theorem finish_marks_capacitance :
    (finish ({
        unknowns := [⟨.voltage, .terminal 0⟩]
        unknownValues := [none]
        values := [⟨.parameter ⟨0⟩, none⟩, ⟨.timestep, none⟩, ⟨.binary .div ⟨0⟩ ⟨1⟩, none⟩, ⟨.parameter ⟨1⟩, none⟩, ⟨.neg ⟨3⟩, none⟩]
        terminalCount := 1
        parameterCount := 2
        timestepValue := some ⟨1⟩
        matrixTerms := [⟨⟨0⟩, ⟨0⟩, ⟨2⟩, 1⟩]
        rhsTerms := [⟨⟨0⟩, ⟨4⟩, 1⟩] } : DefinitionTemplateBuilder ℚ)).Meets False
      (fun template _ =>
        (∀ p : LocalParameterId, template.parameterAffectsMatrix p = true ↔
          DependsOn template.stamps.nodes (template.stamps.matrix.map (·.source.index)) (.parameter p)) ∧
        (template.timestepAffectsMatrix = true ↔
          DependsOn template.stamps.nodes (template.stamps.matrix.map (·.source.index)) .timestep) ∧
        ∀ (reading reading' : Reading ℚ) (values values' : Nat → ℚ), Evaluates template.stamps.nodes reading values →
          Evaluates template.stamps.nodes reading' values' →
          (∀ p : LocalParameterId, template.parameterAffectsMatrix p = true → reading.parameter p.index = reading'.parameter p.index) →
          (template.timestepAffectsMatrix = true → reading.timestep = reading'.timestep) →
          reading.state = reading'.state → reading.unknown = reading'.unknown →
          (∀ i ∈ latchPlaces template.stamps.nodes, values i = values' i) →
          ∀ term ∈ template.stamps.matrix, values term.source.index = values' term.source.index)
      fun error _ => error = .idExhausted ∧ 2 ^ 32 < 1 := by
  refine finish_marks ⟨?_, rfl, by simp, by simp, ?_⟩
  · refine ⟨fun i node read => ?_, ?_, ?_, ?_, ?_, ?_, rfl⟩
    · obtain ⟨inside, rfl⟩ := List.getElem?_eq_some_iff.mp read
      have inside : i < 5 := inside
      interval_cases i <;> constructor <;> simp [stamps, LocalValueNode.operands]
    all_goals simp [stamps]
  · constructor <;> simp

variable [Field F]

/-- A finished template says what the builder said, and is sound. -/
theorem finish_meets (exact : F64.ExactField F) {self : DefinitionTemplateBuilder F} (ready : self.Finishable) :
    (finish self).Meets False
      (fun template after => after = self ∧ ((∀ p : LocalParameterId, template.parameterAffectsMatrix p = true ↔
        DependsOn template.stamps.nodes (template.stamps.matrix.map (·.source.index)) (.parameter p)) ∧
        (template.timestepAffectsMatrix = true ↔
          DependsOn template.stamps.nodes (template.stamps.matrix.map (·.source.index)) .timestep)) ∧ template.Sound ∧
        template.stamps.Same self.stamps ∧ template.stateCount = self.stateWrites.length ∧
        template.parameterCount = self.parameterCount ∧ template.terminalCount = self.terminalCount)
      fun error _ => error = .idExhausted ∧ 2 ^ 32 < self.matrixTerms.length := by
  have returns := finish_returns ready
  cases run : finish self with
  | ok template after =>
    rw [run] at returns
    obtain ⟨same, parameters, timestep, sound⟩ := returns
    obtain ⟨stamps, states, parameterCount, terminals, -⟩ := finish_ok exact run
    exact ⟨same, ⟨parameters, timestep⟩, sound, stamps, states, parameterCount, terminals⟩
  | err error after =>
    rw [run] at returns
    exact returns
  | panic =>
    rw [run] at returns
    exact returns

end DefinitionTemplateBuilder

end Finishing

end Hynergy
