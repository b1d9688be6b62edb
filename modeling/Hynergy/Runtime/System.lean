import Mathlib.Algebra.BigOperators.Group.Finset.Basic
import Mathlib.Algebra.BigOperators.Ring.Finset
import Mathlib.Algebra.Field.Basic
import Mathlib.Tactic.LinearCombination
import Hynergy.Compile.MatrixTerms
import Hynergy.Runtime.DiscreteClosure

/-!
# The equations of a system

The matrix program and the program of the right-hand side assemble the system that is solved.
In exact arithmetic the equation of a qualified driver's output is that of its two pulls.
-/

namespace Hynergy

open Lib

variable {F : Type}

/-! ### The system -/

namespace MnaPattern

def dimension (self : MnaPattern) : Nat := self.columnPtrs.length - 1

end MnaPattern

section Assembly

variable [F64 F]

/-- `MatrixProgram::execute`. -/
def executeMatrix (ops : List (MatrixAdd F)) (workspace : ValueWorkspace F) (matrix : List F) : Option (List F) :=
  ops.foldlM (fun matrix op => do
    let value ← workspace.value op.source
    let held ← matrix[op.destination.index]?
    assign matrix op.destination.index (F64.add held (F64.mul value op.scale))) matrix

/-- `RhsProgram::execute_additive`. -/
def executeRhs (ops : List (RhsAdd F)) (workspace : ValueWorkspace F) (rhs : List F) : Option (List F) :=
  ops.foldlM (fun rhs op => do
    let value ← workspace.value op.source
    let held ← rhs[op.destination.index]?
    assign rhs op.destination.index (F64.add held (F64.mul value op.scale))) rhs

/-- The values of the cleared matrix and of the cleared right-hand side after the programs. -/
def assembleSystem (pattern : MnaPattern) (ir : CompiledIslandIr F) (workspace : ValueWorkspace F) :
    Option (List F × List F) := do
  let matrix ← executeMatrix ir.matrixProgram workspace (List.replicate pattern.rowIndices.length F64.zero)
  let rhs ← executeRhs ir.rhsProgram workspace (List.replicate pattern.dimension F64.zero)
  some (matrix, rhs)

end Assembly

/-- Exact arithmetic in a field: every number is finite. -/
structure F64.ExactField (F : Type) [Field F] [F64 F] : Prop extends F64.Exact F where
  zero : (F64.zero : F) = 0
  one : (F64.one : F) = 1
  add : ∀ a b : F, F64.add a b = a + b
  mul : ∀ a b : F, F64.mul a b = a * b
  div : ∀ a b : F, F64.div a b = a / b
  neg : ∀ a : F, F64.neg a = -a
  finite : ∀ a : F, F64.isFinite a = true

section Equations

variable [Field F]

/-- What a value of the matrix contributes to an equation. -/
def rowEntry (pattern : MnaPattern) (solution : List F) (row : UnknownIndex) (slot : Nat) (value : F) : F :=
  match pattern.coordinate ⟨slot⟩ with
  | some place => if place.1 = row then value * solution[place.2.index]?.getD 0 else 0
  | none => 0

/-- The left-hand side of the equation of a row. -/
def rowSum (pattern : MnaPattern) (matrix solution : List F) (row : UnknownIndex) : F :=
  ∑ slot ∈ Finset.range matrix.length, rowEntry pattern solution row slot (matrix[slot]?.getD 0)

/-- The solution solves the system exactly. -/
structure Solves (pattern : MnaPattern) (system : List F × List F) (solution : List F) : Prop where
  length : solution.length = pattern.dimension
  equation : ∀ row value, system.2[row]? = some value → rowSum pattern system.1 solution ⟨row⟩ = value

theorem rowEntry_zero (pattern : MnaPattern) (solution : List F) (row : UnknownIndex) (slot : Nat) :
    rowEntry pattern solution row slot 0 = 0 := by
  unfold rowEntry
  split
  · split
    · exact zero_mul _
    · rfl
  · rfl

theorem rowEntry_add (pattern : MnaPattern) (solution : List F) (row : UnknownIndex) (slot : Nat) (a b : F) :
    rowEntry pattern solution row slot (a + b) =
      rowEntry pattern solution row slot a + rowEntry pattern solution row slot b := by
  unfold rowEntry
  split
  · split
    · exact add_mul _ _ _
    · exact (add_zero 0).symm
  · exact (add_zero 0).symm

/-- Adding to one place of the matrix adds its contribution. -/
theorem rowSum_set {pattern : MnaPattern} {matrix solution : List F} {row : UnknownIndex} {slot : Nat} {held : F}
    (read : matrix[slot]? = some held) (value : F) :
    rowSum pattern (matrix.set slot (held + value)) solution row =
      rowSum pattern matrix solution row + rowEntry pattern solution row slot value := by
  have inside : slot < matrix.length := (List.getElem?_eq_some_iff.mp read).1
  have split : ∀ i ∈ Finset.range matrix.length,
      rowEntry pattern solution row i ((matrix.set slot (held + value))[i]?.getD 0) =
        rowEntry pattern solution row i (matrix[i]?.getD 0) +
          if i = slot then rowEntry pattern solution row slot value else 0 := by
    intro i _
    by_cases here : i = slot
    · rw [here, List.getElem?_set_self inside, read, if_pos rfl, Option.getD_some, Option.getD_some, rowEntry_add]
    · rw [List.getElem?_set_ne (Ne.symm here), if_neg here, add_zero]
  unfold rowSum
  rw [List.length_set, Finset.sum_congr rfl split, Finset.sum_add_distrib, Finset.sum_ite_eq',
    if_pos (Finset.mem_range.mpr inside)]

variable [F64 F]

theorem executeMatrix_spec (exact : F64.ExactField F) {ops : List (MatrixAdd F)} {workspace : ValueWorkspace F}
    {matrix matrix' : List F} (run : executeMatrix ops workspace matrix = some matrix') (pattern : MnaPattern)
    (solution : List F) (row : UnknownIndex) :
    rowSum pattern matrix' solution row = rowSum pattern matrix solution row + (ops.map fun op =>
      rowEntry pattern solution row op.destination.index ((workspace.value op.source).getD 0 * op.scale)).sum := by
  induction ops generalizing matrix with
  | nil =>
    obtain rfl := Option.some.inj run
    simp
  | cons op ops ih =>
    rw [executeMatrix, List.foldlM_cons] at run
    obtain ⟨mid, first, run⟩ := Option.bind_eq_some_iff.mp run
    obtain ⟨value, source, first⟩ := Option.bind_eq_some_iff.mp first
    obtain ⟨held, read, first⟩ := Option.bind_eq_some_iff.mp first
    unfold assign at first
    rw [if_pos (List.getElem?_eq_some_iff.mp read).1] at first
    obtain rfl := Option.some.inj first
    rw [ih run, exact.add, exact.mul, rowSum_set read, List.map_cons, List.sum_cons, source, Option.getD_some, add_assoc]

omit [Field F] in
/-- What no operation is added to stays. -/
theorem executeRhs_off {ops : List (RhsAdd F)} {workspace : ValueWorkspace F} {rhs rhs' : List F}
    (run : executeRhs ops workspace rhs = some rhs') {unknown : Nat}
    (off : ∀ op ∈ ops, op.destination.index ≠ unknown) : rhs'[unknown]? = rhs[unknown]? := by
  induction ops generalizing rhs with
  | nil =>
    obtain rfl := Option.some.inj run
    rfl
  | cons op ops ih =>
    rw [executeRhs, List.foldlM_cons] at run
    obtain ⟨mid, first, run⟩ := Option.bind_eq_some_iff.mp run
    obtain ⟨value, source, first⟩ := Option.bind_eq_some_iff.mp first
    obtain ⟨held, read, first⟩ := Option.bind_eq_some_iff.mp first
    unfold assign at first
    rw [if_pos (List.getElem?_eq_some_iff.mp read).1] at first
    obtain rfl := Option.some.inj first
    rw [ih run fun other member => off other (List.mem_cons_of_mem _ member),
      List.getElem?_set_ne (off op List.mem_cons_self)]

/-! ### The rows of the matrix terms -/

/-- What a term contributes to an equation. -/
def termEntry (workspace : ValueWorkspace F) (solution : List F) (row : UnknownIndex) (term : CanonicalMatrixTerm F) : F :=
  if term.row = row then term.scale * ((workspace.value term.source).getD 0 * solution[term.column.index]?.getD 0)
  else 0

omit [F64 F] in
theorem sum_collectMatrixTerms {pattern : MnaPattern} {matrix : List (MatrixAdd F)}
    {terms : List (CanonicalMatrixTerm F)}
    (run : (matrix.mapM fun op => (pattern.coordinate op.destination).map fun place =>
      (⟨place.1, place.2, op.source, op.scale⟩ : CanonicalMatrixTerm F)) = some terms)
    (workspace : ValueWorkspace F) (solution : List F) (row : UnknownIndex) :
    (matrix.map fun op => rowEntry pattern solution row op.destination.index
      ((workspace.value op.source).getD 0 * op.scale)).sum = (terms.map (termEntry workspace solution row)).sum := by
  induction matrix generalizing terms with
  | nil =>
    obtain rfl := Option.some.inj run
    rfl
  | cons op matrix ih =>
    rw [List.mapM_cons] at run
    obtain ⟨term, read, run⟩ := Option.bind_eq_some_iff.mp run
    obtain ⟨terms', rest, run⟩ := Option.bind_eq_some_iff.mp run
    obtain rfl := Option.some.inj run
    obtain ⟨place, there, rfl⟩ := Option.map_eq_some_iff.mp read
    have head : rowEntry pattern solution row op.destination.index ((workspace.value op.source).getD 0 * op.scale) =
        termEntry workspace solution row ⟨place.1, place.2, op.source, op.scale⟩ := by
      have known : pattern.coordinate ⟨op.destination.index⟩ = some place := there
      unfold rowEntry termEntry
      rw [known]
      dsimp only
      split
      · ring
      · rfl
    rw [List.map_cons, List.sum_cons, List.map_cons, List.sum_cons, ih rest, head]

omit [F64 F] in
/-- The terms of other rows contribute nothing. -/
theorem sum_filter_row (workspace : ValueWorkspace F) (solution : List F) {row : UnknownIndex}
    {keep : CanonicalMatrixTerm F → Bool} (kept : ∀ term, term.row = row → keep term = true)
    (terms : List (CanonicalMatrixTerm F)) :
    ((terms.filter keep).map (termEntry workspace solution row)).sum =
      (terms.map (termEntry workspace solution row)).sum := by
  have zero : ∀ term : CanonicalMatrixTerm F, (!keep term) = true → termEntry workspace solution row term = 0 := by
    intro term dropped
    refine if_neg fun same => ?_
    rw [kept term same] at dropped
    cases dropped
  rw [← sum_filter_zero zero terms]
  simp only [Bool.not_not]

theorem sameTerms_eq (exact : F64.ExactField F) {a b : List (CanonicalMatrixTerm F)} (same : sameTerms a b = true) :
    a = b := by
  induction a generalizing b with
  | nil =>
    cases b with
    | nil => rfl
    | cons => cases same
  | cons first a ih =>
    cases b with
    | nil => cases same
    | cons second b =>
      rw [sameTerms, Bool.and_eq_true, Bool.and_eq_true, decide_eq_true_eq] at same
      obtain ⟨⟨⟨row, column, source⟩, scale⟩, rest⟩ := same
      rw [ih rest]
      cases first
      cases second
      have scale := (exact.beq_iff _ _).mp scale
      simp_all

theorem sum_canonicalizeMatrixTerms (exact : F64.ExactField F) (workspace : ValueWorkspace F) (solution : List F)
    (row : UnknownIndex) (terms : List (CanonicalMatrixTerm F)) :
    ((canonicalizeMatrixTerms terms).map (termEntry workspace solution row)).sum =
      (terms.map (termEntry workspace solution row)).sum := by
  refine sum_canonicalize (fun term isZero => ?_) (fun a b same => ?_) terms
  · have zero : term.scale = 0 := ((exact.beq_iff _ _).mp isZero).trans exact.zero
    unfold termEntry
    rw [zero, zero_mul, ite_self]
  · simp only [bySource, List.cons.injEq, and_true] at same
    obtain ⟨source, column, sameRow⟩ := same
    have isSource : b.source = a.source := congrArg ValueSlot.mk source.symm
    have isRow : b.row = a.row := congrArg UnknownIndex.mk sameRow.symm
    unfold termEntry
    rw [exact.add, isSource, isRow, column]
    split
    · ring
    · exact (add_zero 0).symm

/-- The voltage of an unknown. -/
def voltageOf (solution : List F) (unknown : Option UnknownIndex) : F := (unknownVoltage solution unknown).getD 0

theorem sum_conductanceFootprint (exact : F64.ExactField F) (workspace : ValueWorkspace F) (solution : List F)
    {output : UnknownIndex} {rail : Option UnknownIndex} (away : rail ≠ some output) (source : ValueSlot) :
    ((conductanceFootprint rail (some output) source).map (termEntry workspace solution output)).sum =
        (workspace.value source).getD 0 * (voltageOf solution (some output) - voltageOf solution rail) ∧
      ((conductanceFootprint (some output) rail source).map (termEntry workspace solution output)).sum =
        (workspace.value source).getD 0 * (voltageOf solution (some output) - voltageOf solution rail) := by
  cases rail with
  | none =>
    simp only [conductanceFootprint, matrixTerm, termEntry, voltageOf, unknownVoltage, exact.one, exact.zero,
      List.nil_append, List.append_nil, List.map_cons, List.map_nil, List.sum_cons, List.sum_nil, if_true,
      Option.getD_some]
    constructor <;> ring
  | some rail =>
    have other : rail ≠ output := fun same => away (congrArg some same)
    simp only [conductanceFootprint, matrixTerm, termEntry, voltageOf, unknownVoltage, exact.one, exact.neg,
      List.cons_append, List.nil_append, List.map_cons, List.map_nil, List.sum_cons, List.sum_nil, if_true,
      if_neg other]
    constructor <;> ring

/-! ### The row of a driver -/

/-- The equation of the output has nothing on its right-hand side, and its pulls on the left. -/
structure QualifiedRow (pattern : MnaPattern) (ir : CompiledIslandIr F) (driver : QualifiedComplementaryDriver) :
    Prop where
  free : ∀ op ∈ ir.rhsProgram, op.destination.index ≠ driver.output.index
  sum : ∀ (workspace : ValueWorkspace F) (solution : List F), (ir.matrixProgram.map fun op =>
    rowEntry pattern solution driver.output op.destination.index
      ((workspace.value op.source).getD 0 * op.scale)).sum =
    (workspace.value driver.pullUp).getD 0 *
        (voltageOf solution (some driver.output) - voltageOf solution driver.highRail) +
      (workspace.value driver.pullDown).getD 0 *
        (voltageOf solution (some driver.output) - voltageOf solution driver.lowRail)

theorem qualify_row (exact : F64.ExactField F) {pattern : MnaPattern} {ir : CompiledIslandIr F}
    (sorted : ir.rhsProgram.Pairwise fun a b => a.destination.index ≤ b.destination.index) {outputs : List Nat}
    {terms : List (CanonicalMatrixTerm F) × List (CanonicalMatrixTerm F)}
    (collected : collectMatrixTerms pattern ir.matrixProgram outputs = some terms) {duplicates : List Nat}
    {candidate : BoundComplementaryDriver} {driver : QualifiedComplementaryDriver}
    (run : qualify ir (sortByKey byRow terms.1) duplicates candidate = some driver)
    (known : driver.output.index ∈ outputs) : QualifiedRow pattern ir driver := by
  obtain ⟨output, isOutput, run⟩ := Option.bind_eq_some_iff.mp run
  obtain ⟨all, collects, split⟩ := Option.bind_eq_some_iff.mp collected
  obtain rfl := Option.some.inj split
  split at run
  · cases run
  · rename_i rails
    rw [not_or] at rails
    split at run
    · cases run
    · split at run
      · cases run
      · rename_i absent
        dsimp only at run
        split at run
        · rename_i same
          obtain rfl := Option.some.inj run
          refine ⟨rhsHasDestination_eq_false sorted (Bool.eq_false_iff.mpr absent), fun workspace solution => ?_⟩
          have row := sameTerms_eq exact same
          rw [rowTerms_sorted] at row
          have ofRow : ∀ term : CanonicalMatrixTerm F, term.row = output → decide (term.row = output) = true :=
            fun term h => decide_eq_true h
          have ofOutputs : ∀ term : CanonicalMatrixTerm F, term.row = output →
              decide (term.row.index ∈ outputs) = true := by
            intro term h
            rw [h]
            exact decide_eq_true known
          calc _ = (all.map (termEntry workspace solution output)).sum :=
                sum_collectMatrixTerms collects workspace solution output
            _ = ((all.filter fun term => decide (term.row.index ∈ outputs)).map
                  (termEntry workspace solution output)).sum := (sum_filter_row workspace solution ofOutputs all).symm
            _ = ((sortByKey byRow (all.filter fun term => decide (term.row.index ∈ outputs))).map
                  (termEntry workspace solution output)).sum := ((sortByKey_perm _).map _).sum_eq.symm
            _ = _ := by
              rw [← sum_filter_row workspace solution ofRow, row, ((sortByKey_perm _).map _).sum_eq,
                sum_filter_row workspace solution ofRow, sum_canonicalizeMatrixTerms exact, List.map_append,
                List.sum_append, (sum_conductanceFootprint exact workspace solution rails.1 candidate.pullUp).1,
                (sum_conductanceFootprint exact workspace solution rails.2 candidate.pullDown).2]
        · cases run

omit [Field F] in
theorem qualify_rails {ir : CompiledIslandIr F} {terms : List (CanonicalMatrixTerm F)} {duplicates : List Nat}
    {candidate : BoundComplementaryDriver} {driver : QualifiedComplementaryDriver}
    (run : qualify ir terms duplicates candidate = some driver) :
    candidate.highRail = driver.highRail ∧ candidate.lowRail = driver.lowRail := by
  obtain ⟨output, -, run⟩ := Option.bind_eq_some_iff.mp run
  split at run
  · cases run
  · split at run
    · cases run
    · split at run
      · cases run
      · dsimp only at run
        split at run
        · obtain rfl := Option.some.inj run
          exact ⟨rfl, rfl⟩
        · cases run

/-- The unknowns of the drivers are unknowns of the system. -/
def BoundDiscreteMetadata.Within (metadata : BoundDiscreteMetadata) (dimension : Nat) : Prop :=
  ∀ candidate ∈ metadata.complementaryDrivers, ∀ unknown,
    candidate.output = some unknown ∨ candidate.highRail = some unknown ∨ candidate.lowRail = some unknown →
      unknown.index < dimension

/-- What a plan says about the equations of its drivers. -/
structure CompiledDiscretePlan.Rows (pattern : MnaPattern) (ir : CompiledIslandIr F) (plan : CompiledDiscretePlan) :
    Prop where
  row : ∀ driver ∈ plan.drivers, QualifiedRow pattern ir driver
  output : ∀ driver ∈ plan.drivers, driver.output.index < pattern.dimension
  rails : ∀ driver ∈ plan.drivers, ∀ unknown, driver.highRail = some unknown ∨ driver.lowRail = some unknown →
    unknown.index < pattern.dimension

theorem compileDiscretePlan_rows (exact : F64.ExactField F) {pattern : MnaPattern} {ir : CompiledIslandIr F}
    (sorted : ir.rhsProgram.Pairwise fun a b => a.destination.index ≤ b.destination.index)
    {metadata : BoundDiscreteMetadata} (within : metadata.Within pattern.dimension) {plan : CompiledDiscretePlan}
    (run : compileDiscretePlan pattern ir metadata = some (some plan)) : plan.Rows pattern ir := by
  unfold compileDiscretePlan at run
  split at run
  · cases run
  · split at run
    · cases run
    · obtain ⟨terms, collected, run⟩ := Option.bind_eq_some_iff.mp run
      dsimp only at run
      split at run
      · cases run
      · obtain ⟨barriers, -, run⟩ := Option.bind_eq_some_iff.mp run
        obtain ⟨edges, -, run⟩ := Option.bind_eq_some_iff.mp run
        obtain ⟨frontier, -, run⟩ := Option.bind_eq_some_iff.mp run
        obtain ⟨iteration, -, run⟩ := Option.bind_eq_some_iff.mp run
        obtain rfl := Option.some.inj (Option.some.inj run)
        refine ⟨fun driver member => ?_, fun driver member => ?_, fun driver member unknown isRail => ?_⟩ <;>
          obtain ⟨candidate, there, qualifies⟩ := List.mem_filterMap.mp member
        · refine qualify_row exact sorted collected qualifies (List.mem_dedup.mpr ?_)
          rw [candidateOutputs, List.mem_insertionSort, List.mem_filterMap]
          exact ⟨candidate, there, by rw [(qualify_output qualifies).1]; rfl⟩
        · exact within candidate there _ (Or.inl (qualify_output qualifies).1)
        · obtain ⟨high, low⟩ := qualify_rails qualifies
          rw [← high, ← low] at isRail
          exact within candidate there _ (Or.inr isRail)

omit [Field F] in
theorem IslandIrBuilder.finish_rhs {builder : IslandIrBuilder F} {ir : CompiledIslandIr F}
    (run : builder.finish = some (.ok ir)) :
    ir.rhsProgram.Pairwise fun a b => a.destination.index ≤ b.destination.index := by
  unfold IslandIrBuilder.finish at run
  split at run
  · cases run
  · obtain ⟨latches, -, run⟩ := Option.bind_eq_some_iff.mp run
    obtain ⟨sources, -, run⟩ := Option.bind_eq_some_iff.mp run
    obtain rfl := Except.ok.inj (Option.some.inj run)
    exact rhsProgram_sorted builder.rhsOps

/-- In a solution of the assembled system a qualified driver's output is at its predicted voltage. -/
theorem QualifiedRow.equation (exact : F64.ExactField F) {pattern : MnaPattern} {ir : CompiledIslandIr F}
    {driver : QualifiedComplementaryDriver} (row : QualifiedRow pattern ir driver) {workspace : ValueWorkspace F}
    {system : List F × List F} (assembled : assembleSystem pattern ir workspace = some system) {solution : List F}
    (solves : Solves pattern system solution) (inside : driver.output.index < pattern.dimension) :
    ((workspace.value driver.pullUp).getD 0 + (workspace.value driver.pullDown).getD 0) *
        voltageOf solution (some driver.output) =
      (workspace.value driver.pullUp).getD 0 * voltageOf solution driver.highRail +
        (workspace.value driver.pullDown).getD 0 * voltageOf solution driver.lowRail := by
  obtain ⟨matrix, executes, rest⟩ := Option.bind_eq_some_iff.mp assembled
  obtain ⟨rhs, executes', rest⟩ := Option.bind_eq_some_iff.mp rest
  obtain rfl := Option.some.inj rest
  have zeroSide : rhs[driver.output.index]? = some 0 := by
    rw [executeRhs_off executes' row.free, List.getElem?_replicate, if_pos inside, exact.zero]
  have cleared : rowSum pattern (List.replicate pattern.rowIndices.length (F64.zero : F)) solution driver.output = 0 := by
    refine Finset.sum_eq_zero fun slot _ => ?_
    rw [exact.zero, List.getElem?_replicate]
    split <;> exact rowEntry_zero pattern solution driver.output slot
  have holds := solves.equation driver.output.index 0 zeroSide
  rw [executeMatrix_spec exact executes pattern solution driver.output, cleared, zero_add, row.sum] at holds
  linear_combination holds

end Equations

end Hynergy
