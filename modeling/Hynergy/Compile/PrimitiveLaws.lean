import Mathlib.Tactic.FieldSimp
import Mathlib.Tactic.LinearCombination
import Hynergy.Compile.PrimitiveStamps

/-!
# The laws of the primitives

What each primitive does to the voltages and currents at its terminals, and that its stamps say just that.
-/

namespace Hynergy

open DefinitionTemplateBuilder Lib

variable {F : Type}

/-- Exact arithmetic of a field. -/
structure F64.ExactArithmetic (F : Type) [Field F] [F64 F] : Prop extends F64.ExactField F where
  sub : ∀ a b : F, F64.sub a b = a - b
  half : (F64.half : F) = 1 / 2

variable [Field F]

/-! ### Laws -/

namespace Ports

/-- The voltage of a terminal against another. -/
def across (ports : Ports F) (a b : Nat) : F := ports.voltage a - ports.voltage b

/-- A current from the first terminal to the second. -/
def TwoTerminal (ports : Ports F) (current : F) : Prop :=
  (ports.current 0 = current ∧ ports.current 1 = -current) ∧
    ports.observed 0 = ports.across 0 1 ∧ ports.observed 1 = current

/-- A current from the first terminal to the second; into the others there is none. -/
def Controlled (ports : Ports F) (terminals : Nat) (control current : F) : Prop :=
  (ports.current 0 = current ∧ ports.current 1 = -current ∧ ∀ t < terminals, 2 ≤ t → ports.current t = 0) ∧
    ports.observed 0 = ports.across 0 1 ∧ ports.observed 1 = control ∧ ports.observed 2 = current

/-- The output, terminal 0, is pulled to the supply, terminal 1, and to the ground, terminal 2. -/
def Pulled (ports : Ports F) (terminals : Nat) (up down : F) : Prop :=
  ports.current 0 = down * ports.across 0 2 - up * ports.across 1 0 ∧ ports.current 1 = up * ports.across 1 0 ∧
    ports.current 2 = -(down * ports.across 0 2) ∧ ∀ t < terminals, 3 ≤ t → ports.current t = 0

end Ports

/-- The conductance of a controlled conductance: from `G_min` at the low end of the transition to `G_max` at its high
end, and in between in proportion. Both ends are reached only where the transition has no width. -/
def slopedConductance [F64 F] (threshold transition gMin gMax control : F) : F :=
  let low := threshold - transition / 2
  let high := threshold + transition / 2
  let slope := (gMax - gMin) / transition * (control - low)
  if F64.le control low = true then
    if F64.le high control = true then gMax - slope else gMin
  else if F64.le high control = true then gMax else gMin + slope

/-- The next mode of a Schmitt buffer that holds a mode: in the band between the ends it stays. -/
def hystereticMode [F64 F] (threshold hysteresis input held : F) : F :=
  if F64.le hysteresis 0 = true then
    if F64.le threshold input = true then 1 else 0
  else
    (if F64.le (threshold + hysteresis / 2) input = true then 1 - held else 0) +
      if F64.le input (threshold - hysteresis / 2) = true then 0 else held

namespace PrimitiveElementKind

/-- Whether the output of a gate is high. -/
def gate : PrimitiveElementKind → Bool → Bool → Bool
  | .not, a, _ => !a
  | .and, a, b => a && b
  | .nand, a, b => !(a && b)
  | .or, a, b => a || b
  | .nor, a, b => !(a || b)
  | _, _, _ => false

variable [F64 F]

def GateLaw (kind : PrimitiveElementKind) (inputs : Nat) (ports : Ports F) : Prop :=
  let high := kind.gate (F64.le (ports.parameter 0) (ports.across 3 2)) (F64.le (ports.parameter 0) (ports.across 4 2))
  let up := if high = true then ports.parameter 1 else ports.parameter 2
  let down := if high = true then ports.parameter 2 else ports.parameter 1
  ports.Pulled (3 + inputs) up down ∧ ports.observed 0 = ports.across 0 2 ∧
    (∀ input < inputs, ports.observed (1 + input) = ports.across (3 + input) 2) ∧
    ports.observed (1 + inputs) = up * ports.across 1 0

/-- The law of a primitive of one partition; of the tick delay, that of its first partition. `latch` relates the
initial value of a latch, what it holds and its update. -/
def Law (latch : F → F → F → Prop) (kind : PrimitiveElementKind) (ports : Ports F) : Prop :=
  match kind with
  | .resistance => ports.TwoTerminal (ports.across 0 1 / ports.parameter 0)
  | .conductance => ports.TwoTerminal (ports.parameter 0 * ports.across 0 1)
  | .voltageSource => ports.across 0 1 = ports.parameter 0 ∧ ∃ current, ports.TwoTerminal current
  | .currentSource => ports.TwoTerminal (ports.parameter 0)
  | .voltageControlledCurrentSource => ports.Controlled 4 (ports.across 2 3) (ports.parameter 0 * ports.across 2 3)
  | .voltageControlledVoltageSource =>
    ports.across 0 1 = ports.parameter 0 * ports.across 2 3 ∧ ∃ current, ports.Controlled 4 (ports.across 2 3) current
  | .capacitor =>
    ports.TwoTerminal (ports.parameter 0 / ports.timestep * (ports.across 0 1 - ports.state 0)) ∧
      ports.next 0 = ports.across 0 1
  | .inductor =>
    let current := ports.state 0 + ports.timestep / ports.parameter 0 * ports.across 0 1
    ports.TwoTerminal current ∧ ports.next 0 = current
  | .voltageControlledSwitch =>
    let conductance := if F64.le (ports.parameter 0) (ports.across 2 3) = true then ports.parameter 1 else ports.parameter 2
    ports.Controlled 4 (ports.across 2 3) (conductance * ports.across 0 1)
  | .voltageControlledConductance =>
    let conductance := slopedConductance (ports.parameter 0) (ports.parameter 1) (ports.parameter 2) (ports.parameter 3)
      (ports.across 2 1)
    ports.Controlled 3 (ports.across 2 1) (conductance * ports.across 0 1)
  | .tickDelay =>
    (ports.current 0 = 0 ∧ ports.current 1 = 0) ∧ ports.next 0 = ports.across 0 1 ∧ ports.observed 0 = ports.across 0 1
  | .diode =>
    let conductance := if F64.le (ports.across 0 1) 0 = true then ports.parameter 1 else ports.parameter 0
    ports.TwoTerminal (conductance * ports.across 0 1)
  | .not => GateLaw .not 1 ports
  | .and => GateLaw .and 2 ports
  | .nand => GateLaw .nand 2 ports
  | .or => GateLaw .or 2 ports
  | .nor => GateLaw .nor 2 ports
  | .schmittBuffer =>
    ∃ held mode, mode = hystereticMode (ports.parameter 0) (ports.parameter 1) (ports.across 3 2) held ∧
      latch (ports.state 0) held mode ∧ ports.next 0 = mode ∧
      let up := ports.parameter 3 + mode * (ports.parameter 2 - ports.parameter 3)
      let down := ports.parameter 2 - mode * (ports.parameter 2 - ports.parameter 3)
      ports.Pulled 4 up down ∧ ports.observed 0 = ports.across 0 2 ∧ ports.observed 1 = ports.across 3 2 ∧
        ports.observed 2 = up * ports.across 1 0

/-- The second partition of a tick delay holds the voltage of the tick before. -/
def TickDelayOutputLaw (ports : Ports F) : Prop :=
  ports.across 0 1 = ports.state 0 ∧ ∃ current, ports.TwoTerminal current

end PrimitiveElementKind

/-! ### From the values to the law -/

namespace Stamps

variable [F64 F] {stamps : Stamps F} {latch : F → F → F → Prop} {ports : Ports F} {unknown values : Nat → F}

/-- What a solution satisfies beside its values. -/
def Conditions (stamps : Stamps F) (latch : F → F → F → Prop) (ports : Ports F) (unknown values : Nat → F) : Prop :=
  (∀ entry ∈ stamps.unknowns.zipIdx, stamps.RowHolds ports values unknown entry) ∧
    (∀ entry ∈ stamps.latches, ∀ initial, stamps.nodes[entry.1.index]? = some (.iterationLatch initial) →
      latch (values initial.index) (values entry.1.index) (values entry.2.index)) ∧
    (∀ entry ∈ stamps.writes, ports.next entry.1.index = values entry.2.index) ∧
    ∀ entry ∈ stamps.outputs.zipIdx, ports.observed entry.2 = values entry.1.index

theorem solved_iff : stamps.Solved latch ports unknown values ↔
    Evaluates stamps.nodes (ports.reading unknown) values ∧ stamps.Conditions latch ports unknown values := by
  constructor
  · exact fun ⟨evaluates, rows, latches, writes, outputs⟩ => ⟨evaluates, rows, latches, writes, outputs⟩
  · exact fun ⟨evaluates, rows, latches, writes, outputs⟩ => ⟨evaluates, rows, latches, writes, outputs⟩

/-- Where the conditions come down to the unknowns and what the latch of place `k` holds, so does the meaning. -/
theorem behaves_iff_latch {φ : (Nat → F) → F → Prop} (k : Nat) (earlier : Earlier stamps.nodes)
    (isLatch : ∃ initial, stamps.nodes[k]? = some (.iterationLatch initial))
    (conditions : ∀ unknown values, Evaluates stamps.nodes (ports.reading unknown) values →
      (stamps.Conditions latch ports unknown values ↔ φ unknown (values k))) :
    stamps.Behaves latch ports ↔ ∃ unknown held, φ unknown held := by
  constructor
  · rintro ⟨unknown, values, solved⟩
    obtain ⟨evaluates, holds⟩ := solved_iff.mp solved
    exact ⟨unknown, values k, (conditions unknown values evaluates).mp holds⟩
  · rintro ⟨unknown, held, holds⟩
    obtain ⟨initial, read⟩ := isLatch
    obtain ⟨values, evaluates, latches⟩ := exists_evaluates earlier (ports.reading unknown) fun _ => held
    have here : values k = held := latches k _ read rfl
    exact ⟨unknown, values, solved_iff.mpr ⟨evaluates, (conditions unknown values evaluates).mpr (here ▸ holds)⟩⟩

theorem behaves_iff {φ : (Nat → F) → Prop} (earlier : Earlier stamps.nodes)
    (conditions : ∀ unknown values, Evaluates stamps.nodes (ports.reading unknown) values →
      (stamps.Conditions latch ports unknown values ↔ φ unknown)) :
    stamps.Behaves latch ports ↔ ∃ unknown, φ unknown := by
  constructor
  · rintro ⟨unknown, values, solved⟩
    obtain ⟨evaluates, holds⟩ := solved_iff.mp solved
    exact ⟨unknown, (conditions unknown values evaluates).mp holds⟩
  · rintro ⟨unknown, holds⟩
    obtain ⟨values, evaluates, -⟩ := exists_evaluates earlier (ports.reading unknown) fun _ => 0
    exact ⟨unknown, values, solved_iff.mpr ⟨evaluates, (conditions unknown values evaluates).mpr holds⟩⟩

end Stamps

section Laws

variable [F64 F] {latch : F → F → F → Prop} {ports : Ports F}

theorem total_stamped (exact : F64.ExactField F) {α : Type} {scale : α → F} {place : α → Nat} {amount : α → F}
    {rows : Nat → Bool} (scaled : ∀ item, scale item = 0 → amount item = 0) (terms stamped : List α) :
    total (terms.foldl (fun stamped term => stamped ++ unlessZero (scale term) term) stamped) place amount rows =
      total (stamped ++ terms) place amount rows := by
  induction terms generalizing stamped with
  | nil => simp
  | cons term terms ih =>
    rw [List.foldl_cons, ih]
    simp [total_unlessZero exact (scaled term)]

theorem total_stampedMatrix (exact : F64.ExactField F) (terms : List (PendingMatrixTerm F)) (values unknown : Nat → F)
    (rows : Nat → Bool) :
    total (stampedMatrix terms) (fun term => term.row.index)
      (fun term => values term.source.index * term.scale * unknown term.column.index) rows =
      total terms (fun term => term.row.index)
        (fun term => values term.source.index * term.scale * unknown term.column.index) rows := by
  rw [stampedMatrix, total_stamped exact fun term zero => by simp [zero], List.nil_append]

theorem total_stampedRhs (exact : F64.ExactField F) (terms : List (LocalRhsTerm F)) (values : Nat → F)
    (rows : Nat → Bool) :
    total (stampedRhs terms) (fun term => term.destination.index)
      (fun term => values term.source.index * term.scale) rows =
      total terms (fun term => term.destination.index) (fun term => values term.source.index * term.scale) rows := by
  rw [stampedRhs, total_stamped exact fun term zero => by simp [zero], List.nil_append]

/-- A template that adds no unknowns: the unknowns are the voltages. -/
theorem Stamps.behaves_iff_law {stamps : Stamps F} {law : Prop} (terminals : Nat) (earlier : Earlier stamps.nodes)
    (conditions : ∀ unknown values, Evaluates stamps.nodes (ports.reading unknown) values →
      (stamps.Conditions latch ports unknown values ↔ (∀ t < terminals, unknown t = ports.voltage t) ∧ law)) :
    stamps.Behaves latch ports ↔ law := by
  rw [Stamps.behaves_iff earlier conditions]
  constructor
  · rintro ⟨unknown, -, holds⟩
    exact holds
  · intro holds
    exact ⟨ports.voltage, fun t _ => rfl, holds⟩

/-- The operations in exact arithmetic. -/
theorem F64.ExactArithmetic.apply (exact : F64.ExactArithmetic F) (a b : F) :
    BinaryOp.add.apply a b = a + b ∧ BinaryOp.sub.apply a b = a - b ∧ BinaryOp.mul.apply a b = a * b ∧
      BinaryOp.div.apply a b = a / b ∧ BinaryOp.lessEqual.apply a b = if F64.le a b = true then 1 else 0 := by
  simp [BinaryOp.apply, exact.add, exact.sub, exact.mul, exact.div, exact.one, exact.zero]

/-- Two terminals and no unknown of their own. -/
theorem twoTerminal_behaves (exact : F64.ExactArithmetic F) {kind : PrimitiveElementKind}
    (plain : kind ∈ [.resistance, .conductance, .diode, .currentSource, .capacitor, .inductor]) :
    (kind.stamps : Stamps F).Behaves latch ports ↔ kind.Law latch ports := by
  simp only [List.mem_cons, List.not_mem_nil, or_false] at plain
  rcases plain with rfl | rfl | rfl | rfl | rfl | rfl
  all_goals
    refine Stamps.behaves_iff_law 2 (PrimitiveElementKind.stamps_sound _).earlier fun x v evaluates => ?_
    simp [PrimitiveElementKind.stamps, resistanceStamps, conductanceStamps, diodeStamps, currentSourceStamps,
      capacitorStamps, inductorStamps, Evaluates, EvaluatesFrom, LocalValueNode.eval, Ports.reading, exact.apply,
      exact.one, exact.zero] at evaluates
    simp [PrimitiveElementKind.stamps, resistanceStamps, conductanceStamps, diodeStamps, currentSourceStamps,
      capacitorStamps, inductorStamps, terminalUnknowns, Stamps.Conditions, Stamps.RowHolds, Stamps.residual,
      Stamps.matrixTotal, Stamps.rhsTotal, total_stampedMatrix exact.toExactField, total_stampedRhs exact.toExactField,
      conductanceTerms, minusOne, exact.neg, exact.one, List.range_succ, PrimitiveElementKind.Law, Ports.TwoTerminal,
      Ports.across]
    grind

theorem controlled_behaves (exact : F64.ExactArithmetic F) {kind : PrimitiveElementKind}
    (plain : kind ∈ [.voltageControlledCurrentSource, .voltageControlledSwitch]) :
    (kind.stamps : Stamps F).Behaves latch ports ↔ kind.Law latch ports := by
  simp only [List.mem_cons, List.not_mem_nil, or_false] at plain
  rcases plain with rfl | rfl
  all_goals
    refine Stamps.behaves_iff_law 4 (PrimitiveElementKind.stamps_sound _).earlier fun x v evaluates => ?_
    simp [PrimitiveElementKind.stamps, vccsStamps, controlledSwitchStamps, Evaluates, EvaluatesFrom, LocalValueNode.eval,
      Ports.reading, exact.apply] at evaluates
    simp [PrimitiveElementKind.stamps, vccsStamps, controlledSwitchStamps, terminalUnknowns, Stamps.Conditions,
      Stamps.RowHolds, Stamps.residual, Stamps.matrixTotal, Stamps.rhsTotal, total_stampedMatrix exact.toExactField,
      conductanceTerms, vccsTerms, minusOne, exact.neg, exact.one, List.range_succ, PrimitiveElementKind.Law,
      Ports.Controlled, Ports.across, Nat.forall_lt_succ_right]
    grind

/-- The stamped slope and its correction leave the current of the sloped conductance. -/
theorem controlledConductance_behaves (exact : F64.ExactArithmetic F) :
    (controlledConductanceStamps : Stamps F).Behaves latch ports ↔
      PrimitiveElementKind.voltageControlledConductance.Law latch ports := by
  have earlier := (PrimitiveElementKind.stamps_sound (F := F) .voltageControlledConductance).earlier
  refine Stamps.behaves_iff_law 3 earlier fun x v evaluates => ?_
  simp [controlledConductanceStamps, Evaluates, EvaluatesFrom, LocalValueNode.eval, Ports.reading, exact.apply,
    exact.one, exact.half] at evaluates
  obtain ⟨v0, v1, v2, v3, v4, v5, v6, v7, v8, v9, v10, v11, v12, v13, v14, v15, v16, v17, v18, v19, v20, v21, v22, v23,
    v24, v25, v26, v27, v28⟩ := evaluates
  have low : v 7 = ports.parameter 0 - ports.parameter 1 / 2 := by rw [v7, v6, v4, v0, v1]; ring
  have high : v 8 = ports.parameter 0 + ports.parameter 1 / 2 := by rw [v8, v6, v4, v0, v1]; ring
  have conductance : v 25 = slopedConductance (ports.parameter 0) (ports.parameter 1) (ports.parameter 2)
      (ports.parameter 3) (v 15) := by
    rw [v25, v24, v23, v22, v21, v20, v19, v18, v17, v16, v10, v9, v5, v3, v2, v1, low, high, slopedConductance]
    split <;> split <;> ring
  have slope : v 27 = v 26 * (x 2 - x 1) := by rw [v27, v15, v13, v12]
  have control : v 15 = x 2 - x 1 := by rw [v15, v13, v12]
  have output : v 14 = x 0 - x 1 := by rw [v14, v11, v12]
  simp [controlledConductanceStamps, terminalUnknowns, Stamps.Conditions, Stamps.RowHolds, Stamps.residual,
    Stamps.matrixTotal, Stamps.rhsTotal, total_stampedMatrix exact.toExactField, total_stampedRhs exact.toExactField,
    conductanceTerms, vccsTerms, minusOne, exact.neg, exact.one, List.range_succ, PrimitiveElementKind.Law,
    Ports.Controlled, Ports.across, Nat.forall_lt_succ_right]
  rw [v28, slope, conductance, control, output]
  grind

theorem gate_behaves (exact : F64.ExactArithmetic F) {kind : PrimitiveElementKind}
    (gate : kind ∈ [.not, .and, .nand, .or, .nor]) :
    (kind.stamps : Stamps F).Behaves latch ports ↔ kind.Law latch ports := by
  simp only [List.mem_cons, List.not_mem_nil, or_false] at gate
  rcases gate with rfl | rfl | rfl | rfl | rfl
  case inl =>
    refine Stamps.behaves_iff_law 4 (PrimitiveElementKind.stamps_sound _).earlier fun x v evaluates => ?_
    simp [PrimitiveElementKind.stamps, notStamps, outputStageNodes, Evaluates, EvaluatesFrom, LocalValueNode.eval,
      Ports.reading, exact.apply, exact.one] at evaluates
    simp [PrimitiveElementKind.stamps, notStamps, outputStageTerms, terminalUnknowns, Stamps.Conditions, Stamps.RowHolds,
      Stamps.residual, Stamps.matrixTotal, Stamps.rhsTotal, total_stampedMatrix exact.toExactField, conductanceTerms,
      minusOne, exact.neg, exact.one, List.range_succ, PrimitiveElementKind.Law, PrimitiveElementKind.GateLaw,
      PrimitiveElementKind.gate, Ports.Pulled, Ports.across, Nat.forall_lt_succ_right]
    grind
  all_goals
    refine Stamps.behaves_iff_law 5 (PrimitiveElementKind.stamps_sound _).earlier fun x v evaluates => ?_
    simp [PrimitiveElementKind.stamps, gateStamps, gateHigh, gateNodes, outputStageNodes, Evaluates, EvaluatesFrom,
      LocalValueNode.eval, Ports.reading, exact.apply, exact.one] at evaluates
    simp [PrimitiveElementKind.stamps, gateStamps, gateHigh, outputStageTerms, terminalUnknowns, Stamps.Conditions,
      Stamps.RowHolds, Stamps.residual, Stamps.matrixTotal, Stamps.rhsTotal, total_stampedMatrix exact.toExactField,
      conductanceTerms, minusOne, exact.neg, exact.one, List.range_succ, PrimitiveElementKind.Law,
      PrimitiveElementKind.GateLaw, PrimitiveElementKind.gate, Ports.Pulled, Ports.across, Nat.forall_lt_succ_right]
    grind

/-- The unknowns of a source of voltage: the voltages and the current of its branch. -/
def sourceUnknowns (ports : Ports F) (terminals : Nat) (current : F) (i : Nat) : F :=
  if i < terminals then ports.voltage i else current

theorem voltageSource_behaves (exact : F64.ExactArithmetic F) :
    (PrimitiveElementKind.voltageSource.stamps : Stamps F).Behaves latch ports ↔
      PrimitiveElementKind.voltageSource.Law latch ports := by
  rw [Stamps.behaves_iff (φ := fun x => (x 0 = ports.voltage 0 ∧ x 1 = ports.voltage 1) ∧
    ports.across 0 1 = ports.parameter 0 ∧ ports.TwoTerminal (x 2)) (PrimitiveElementKind.stamps_sound .voltageSource).earlier]
  · constructor
    · rintro ⟨x, -, source, current⟩
      exact ⟨source, x 2, current⟩
    · rintro ⟨source, current, law⟩
      exact ⟨sourceUnknowns ports 2 current, ⟨rfl, rfl⟩, source, law⟩
  · intro x v evaluates
    simp [PrimitiveElementKind.stamps, voltageSourceStamps, Evaluates, EvaluatesFrom, LocalValueNode.eval,
      Ports.reading, exact.apply, exact.one] at evaluates
    simp [PrimitiveElementKind.stamps, voltageSourceStamps, terminalUnknowns, branchUnknown, Stamps.Conditions,
      Stamps.RowHolds, Stamps.residual, Stamps.matrixTotal, Stamps.rhsTotal, total_stampedMatrix exact.toExactField, total_stampedRhs exact.toExactField,
      branchTerms, minusOne, exact.neg, exact.one, List.range_succ, Ports.TwoTerminal, Ports.across]
    grind

theorem controlledSource_behaves (exact : F64.ExactArithmetic F) :
    (PrimitiveElementKind.voltageControlledVoltageSource.stamps : Stamps F).Behaves latch ports ↔
      PrimitiveElementKind.voltageControlledVoltageSource.Law latch ports := by
  rw [Stamps.behaves_iff (φ := fun x => (x 0 = ports.voltage 0 ∧ x 1 = ports.voltage 1 ∧ x 2 = ports.voltage 2 ∧
    x 3 = ports.voltage 3) ∧ ports.across 0 1 = ports.parameter 0 * ports.across 2 3 ∧
      ports.Controlled 4 (ports.across 2 3) (x 4)) (PrimitiveElementKind.stamps_sound .voltageControlledVoltageSource).earlier]
  · constructor
    · rintro ⟨x, -, source, current⟩
      exact ⟨source, x 4, current⟩
    · rintro ⟨source, current, law⟩
      exact ⟨sourceUnknowns ports 4 current, ⟨rfl, rfl, rfl, rfl⟩, source, law⟩
  · intro x v evaluates
    simp [PrimitiveElementKind.stamps, vcvsStamps, Evaluates, EvaluatesFrom, LocalValueNode.eval, Ports.reading,
      exact.apply, exact.one] at evaluates
    simp [PrimitiveElementKind.stamps, vcvsStamps, terminalUnknowns, branchUnknown, Stamps.Conditions, Stamps.RowHolds,
      Stamps.residual, Stamps.matrixTotal, Stamps.rhsTotal, total_stampedMatrix exact.toExactField, branchTerms, minusOne, exact.neg,
      exact.one, List.range_succ, Ports.Controlled, Ports.across, Nat.forall_lt_succ_right]
    grind

/-- What a Schmitt buffer's latch holds decides the mode with the input. -/
theorem schmittBuffer_behaves (exact : F64.ExactArithmetic F) :
    (PrimitiveElementKind.schmittBuffer.stamps : Stamps F).Behaves latch ports ↔
      PrimitiveElementKind.schmittBuffer.Law latch ports := by
  rw [Stamps.behaves_iff_latch (φ := fun x held => (∀ t < 4, x t = ports.voltage t) ∧ ∃ mode,
    mode = hystereticMode (ports.parameter 0) (ports.parameter 1) (ports.across 3 2) held ∧
      latch (ports.state 0) held mode ∧ ports.next 0 = mode ∧
      let up := ports.parameter 3 + mode * (ports.parameter 2 - ports.parameter 3)
      let down := ports.parameter 2 - mode * (ports.parameter 2 - ports.parameter 3)
      ports.Pulled 4 up down ∧ ports.observed 0 = ports.across 0 2 ∧ ports.observed 1 = ports.across 3 2 ∧
        ports.observed 2 = up * ports.across 1 0) 14 (PrimitiveElementKind.stamps_sound .schmittBuffer).earlier ⟨_, rfl⟩]
  · constructor
    · rintro ⟨x, held, -, law⟩
      exact ⟨held, law⟩
    · rintro ⟨held, law⟩
      exact ⟨ports.voltage, held, fun t _ => rfl, law⟩
  · intro x v evaluates
    simp [PrimitiveElementKind.stamps, schmittBufferStamps, outputStageNodes, Evaluates, EvaluatesFrom,
      LocalValueNode.eval, Ports.reading, exact.apply, exact.one, exact.zero, exact.half] at evaluates
    obtain ⟨v0, v1, v2, v3, v4, v5, v6, v7, v8, v9, v10, v11, v12, v13, v15, v16, v17, v18, v19, v20, v21, v22, v23, v24,
      v25, v26, v27, v28, v29, v30, v31, v32, v33, v34, v35, v36⟩ := evaluates
    have lower : v 12 = ports.parameter 0 - ports.parameter 1 / 2 := by rw [v12, v11, v9, v0, v1]; ring
    have upper : v 13 = ports.parameter 0 + ports.parameter 1 / 2 := by rw [v13, v11, v9, v0, v1]; ring
    have input : v 7 = x 3 - x 2 := by rw [v7, v5, v6]
    have mode : v 27 = hystereticMode (ports.parameter 0) (ports.parameter 1) (v 7) (v 14) := by
      rw [v27, v26, v25, v24, v23, v22, v21, v20, v19, v18, v17, v16, v15, v10, v8, lower, upper, v0, v1, hystereticMode]
      split
      · split <;> ring
      · split <;> split <;> ring
    have up : v 30 = ports.parameter 3 + v 27 * (ports.parameter 2 - ports.parameter 3) := by rw [v30, v29, v28, v2, v3]
    have down : v 31 = ports.parameter 2 - v 27 * (ports.parameter 2 - ports.parameter 3) := by rw [v31, v29, v28, v2, v3]
    have output : v 33 = x 0 - x 2 := by rw [v33, v32, v6]
    have supply : v 36 = v 30 * (x 1 - x 0) := by rw [v36, v35, v34, v32]
    simp [PrimitiveElementKind.stamps, schmittBufferStamps, outputStageNodes, outputStageTerms, terminalUnknowns,
      Stamps.Conditions, Stamps.RowHolds, Stamps.residual, Stamps.matrixTotal, Stamps.rhsTotal, total_stampedMatrix exact.toExactField, conductanceTerms,
      minusOne, exact.neg, exact.one, List.range_succ, Ports.Pulled, Ports.across, Nat.forall_lt_succ_right]
    rw [supply, output, up, down, v4, input]
    rw [input] at mode
    constructor
    · grind
    · grind

theorem tickDelayInput_behaves (exact : F64.ExactArithmetic F) :
    (tickDelayInputStamps : Stamps F).Behaves latch ports ↔ PrimitiveElementKind.tickDelay.Law latch ports := by
  refine Stamps.behaves_iff_law 2 (PrimitiveElementKind.stamps_sound .tickDelay).earlier fun x v evaluates => ?_
  simp [tickDelayInputStamps, Evaluates, EvaluatesFrom, LocalValueNode.eval, Ports.reading, exact.apply] at evaluates
  simp [tickDelayInputStamps, terminalUnknowns, Stamps.Conditions, Stamps.RowHolds, Stamps.residual, Stamps.matrixTotal,
    Stamps.rhsTotal, List.range_succ, PrimitiveElementKind.Law, Ports.across]
  grind

theorem tickDelayOutput_behaves (exact : F64.ExactArithmetic F) :
    (tickDelayOutputStamps : Stamps F).Behaves latch ports ↔ PrimitiveElementKind.TickDelayOutputLaw ports := by
  rw [Stamps.behaves_iff (φ := fun x => (x 0 = ports.voltage 0 ∧ x 1 = ports.voltage 1) ∧
    ports.across 0 1 = ports.state 0 ∧ ports.TwoTerminal (x 2)) tickDelayOutputStamps_sound.earlier]
  · constructor
    · rintro ⟨x, -, source, current⟩
      exact ⟨source, x 2, current⟩
    · rintro ⟨source, current, law⟩
      exact ⟨sourceUnknowns ports 2 current, ⟨rfl, rfl⟩, source, law⟩
  · intro x v evaluates
    simp [tickDelayOutputStamps, Evaluates, EvaluatesFrom, LocalValueNode.eval, Ports.reading, exact.apply, exact.one] at evaluates
    simp [tickDelayOutputStamps, terminalUnknowns, branchUnknown, Stamps.Conditions, Stamps.RowHolds, Stamps.residual,
      Stamps.matrixTotal, Stamps.rhsTotal, total_stampedMatrix exact.toExactField, total_stampedRhs exact.toExactField,
      branchTerms, minusOne, exact.neg, exact.one, List.range_succ, Ports.TwoTerminal, Ports.across]
    grind

/-- The stamps of every primitive say its law. -/
theorem PrimitiveElementKind.stamps_behaves (exact : F64.ExactArithmetic F) (kind : PrimitiveElementKind) :
    (kind.stamps : Stamps F).Behaves latch ports ↔ kind.Law latch ports := by
  cases kind with
  | voltageSource => exact voltageSource_behaves exact
  | voltageControlledVoltageSource => exact controlledSource_behaves exact
  | voltageControlledConductance => exact controlledConductance_behaves exact
  | voltageControlledCurrentSource | voltageControlledSwitch => exact controlled_behaves exact (by simp)
  | tickDelay => exact tickDelayInput_behaves exact
  | schmittBuffer => exact schmittBuffer_behaves exact
  | not | and | nand | or | nor => exact gate_behaves exact (by simp)
  | resistance | conductance | diode | currentSource | capacitor | inductor => exact twoTerminal_behaves exact (by simp)

/-! ### Compiling -/

omit [Field F] in
theorem stampedMatrix_length_le (terms : List (PendingMatrixTerm F)) : (stampedMatrix terms).length ≤ terms.length := by
  have general : ∀ terms stamped : List (PendingMatrixTerm F),
      (terms.foldl (fun stamped term => stamped ++ unlessZero term.scale term) stamped).length ≤
        stamped.length + terms.length := by
    intro terms
    induction terms with
    | nil => simp
    | cons term terms ih =>
      intro stamped
      have one : (unlessZero term.scale term).length ≤ 1 := by
        unfold unlessZero
        split <;> simp
      have := ih (stamped ++ unlessZero term.scale term)
      rw [List.length_append] at this
      rw [List.foldl_cons, List.length_cons]
      omega
  have := general terms []
  rwa [List.length_nil, Nat.zero_add] at this

/-- A call that leaves sound stamps compiles to a template that says them. -/
theorem Leaves.compiles (exact : F64.ExactField F) {call : Build F Unit} {stamps : Stamps F}
    {parameters states terminals : Nat} (leaves : Leaves call stamps parameters states terminals)
    (sound : stamps.Sound parameters states terminals) (short : stamps.matrix.length ≤ 2 ^ 32) :
    ∃ template, withBuilder (do call; finish) () = .ok template () ∧ template.Sound ∧ template.stamps.Same stamps ∧
      template.parameterCount = parameters ∧ template.stateCount = states ∧ template.terminalCount = terminals := by
  unfold Leaves at leaves
  cases run : call {} with
  | ok value built =>
    rw [run] at leaves
    obtain ⟨isStamps, parameterCount, stateCount, terminalCount, settled⟩ := leaves
    have ready := finishable_of_settled (isStamps ▸ sound) parameterCount stateCount terminalCount settled
    have meets := finish_meets exact ready
    cases finished : finish built with
    | ok template after =>
      rw [finished] at meets
      obtain ⟨-, -, isSound, same, states', parameters', terminals'⟩ := meets
      refine ⟨template, ?_, isSound, isStamps ▸ same, parameters'.trans parameterCount, states'.trans stateCount,
        terminals'.trans terminalCount⟩
      rw [withBuilder, Call.bind_ok run, finished]
    | err error after =>
      rw [finished] at meets
      rw [← isStamps] at short
      exact absurd meets.2 (Nat.not_lt.mpr short)
    | panic =>
      rw [finished] at meets
      exact meets.elim
  | err error after =>
    rw [run] at leaves
    exact leaves.elim
  | panic =>
    rw [run] at leaves
    exact leaves.elim

omit [Field F] in
theorem PrimitiveElementKind.stamps_short (kind : PrimitiveElementKind) :
    (kind.stamps : Stamps F).matrix.length ≤ 2 ^ 32 := by
  cases kind
  case currentSource | tickDelay => exact Nat.zero_le _
  all_goals exact (stampedMatrix_length_le _).trans (by cbv)

theorem compilePrimitive_returns (exact : F64.ExactField F) {kind : PrimitiveElementKind} (single : kind ≠ .tickDelay) :
    ∃ template : CompiledDefinitionTemplate F, compilePrimitive kind () = .ok template () ∧ template.Sound ∧
      template.stamps.Same kind.stamps ∧ (template.parameterCount = kind.parameterCount ∧
        template.stateCount = kind.stateCount ∧ template.terminalCount = kind.terminalLayout.1.length ∧
        template.outputCount = kind.observers.length) := by
  obtain ⟨call, isCall⟩ : ∃ call : Build F Unit, primitiveStamps kind = some call := by
    cases kind
    case tickDelay => exact absurd rfl single
    all_goals exact ⟨_, rfl⟩
  have sound : (kind.stamps : Stamps F).Sound kind.parameterCount kind.stateCount kind.terminalLayout.1.length := by
    have := kind.stamps_sound (F := F)
    rwa [PrimitiveElementKind.firstTerminals, if_neg single] at this
  obtain ⟨template, run, isSound, same, parameters, states, terminals⟩ :=
    (primitiveStamps_leaves kind call isCall).compiles exact sound kind.stamps_short
  have outputs : (kind.stamps : Stamps F).outputs.length = kind.observers.length := by
    cases kind
    case tickDelay => exact absurd rfl single
    all_goals rfl
  refine ⟨template, ?_, isSound, same, parameters, states, terminals, ?_⟩
  · rw [compilePrimitive, isCall]
    exact run
  · rw [← outputs, ← same.outputs]
    rfl

/-- A primitive of one partition is compiled, and its template says its law. -/
theorem compilePrimitive_law (exact : F64.ExactArithmetic F) {kind : PrimitiveElementKind} (single : kind ≠ .tickDelay) :
    ∃ template : CompiledDefinitionTemplate F, compilePrimitive kind () = .ok template () ∧
      ∀ latch ports, template.stamps.Behaves latch ports ↔ kind.Law latch ports := by
  obtain ⟨template, run, -, same, -⟩ := compilePrimitive_returns exact.toExactField single
  exact ⟨template, run, fun latch ports => same.behaves.trans (kind.stamps_behaves exact)⟩

end Laws

theorem exactArithmetic_rat : F64.ExactArithmetic ℚ where
  toExactField := exactField_rat
  sub _ _ := rfl
  half := rfl

/-- The Schmitt buffer over the rationals. -/
theorem compilePrimitive_law_schmittBuffer :
    ∃ template : CompiledDefinitionTemplate ℚ, compilePrimitive .schmittBuffer () = .ok template () ∧
      ∀ latch ports, template.stamps.Behaves latch ports ↔ PrimitiveElementKind.schmittBuffer.Law latch ports :=
  compilePrimitive_law exactArithmetic_rat (by decide)

end Hynergy
