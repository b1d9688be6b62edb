import Mathlib.Algebra.Field.Rat
import Mathlib.Tactic.IntervalCases
import Hynergy.Compile.FrontierDependencies
import Hynergy.Runtime.SeededClosure
import Hynergy.Runtime.System

/-!
# The first frontier of a closure

A driver that no changed stability value lists has the pulls the system was assembled with; in a
solution of that system it is at its predicted output, so the closure may start without it.
-/

namespace Hynergy

open Lib
open ValueOp (machine)

variable {F : Type} [F64 F] {plan : CompiledDiscretePlan} {ir : CompiledIslandIr F}

/-! ### The prepared frontier -/

/-- What seeding from stability values does: a changed one sets the flag and queues its drivers, and with the flag
the conservative seeds are queued. -/
structure StabilitySeeded (plan : CompiledDiscretePlan) (workspace : ValueWorkspace F)
    (entries : List ((ValueSlot × F) × Nat)) (before after : Bool × DiscreteScratch F) : Prop where
  queues : before.2.Queues after.2
  flag : before.1 = true → after.1 = true
  seeds : after.1 = true → ∀ j ∈ plan.conservativeSeedDrivers, j ∈ after.2.nextFrontier
  rows : ∀ entry ∈ entries, ∃ value, workspace.value entry.1.1 = some value ∧ (F64.beq value entry.1.2 = true ∨
    after.1 = true ∧ ∃ row, plan.stabilityDependentsFor entry.2 = some row ∧ ∀ j ∈ row, j ∈ after.2.nextFrontier)

theorem seedStability_spec {workspace : ValueWorkspace F} {before after : Bool × DiscreteScratch F}
    {entry : (ValueSlot × F) × Nat} (queued : before.2.Queued)
    (seeds : before.1 = true → ∀ j ∈ plan.conservativeSeedDrivers, j ∈ before.2.nextFrontier)
    (run : seedStability plan workspace before entry = some after) :
    StabilitySeeded plan workspace [entry] before after := by
  obtain ⟨value, read, run⟩ := Option.bind_eq_some_iff.mp run
  split at run
  · rename_i same
    obtain rfl := Option.some.inj run
    refine ⟨queued.refl, id, seeds, fun other member => ?_⟩
    obtain rfl := List.mem_singleton.mp member
    exact ⟨value, read, Or.inl same⟩
  · obtain ⟨seeded, first, run⟩ := Option.bind_eq_some_iff.mp run
    obtain ⟨row, dependents, run⟩ := Option.bind_eq_some_iff.mp run
    obtain ⟨scratch, second, run⟩ := Option.bind_eq_some_iff.mp run
    obtain rfl := Option.some.inj run
    have here : before.2.Queues seeded ∧ ∀ j ∈ plan.conservativeSeedDrivers, j ∈ seeded.nextFrontier := by
      unfold queueConservativeSeeds at first
      split at first
      · rename_i already
        obtain rfl := Option.some.inj first
        exact ⟨queued.refl, seeds already⟩
      · obtain ⟨queues, there, -⟩ := DiscreteScratch.queueAll_spec queued first
        exact ⟨queues, there⟩
    obtain ⟨queues, there, -⟩ := DiscreteScratch.queueAll_spec here.1.queued second
    refine ⟨here.1.trans queues, fun _ => rfl, fun _ j member => queues.kept j (here.2 j member), fun other member => ?_⟩
    obtain rfl := List.mem_singleton.mp member
    exact ⟨value, read, Or.inr ⟨rfl, row, dependents, there⟩⟩

theorem seedStabilities_spec {workspace : ValueWorkspace F} {before after : Bool × DiscreteScratch F}
    {entries : List ((ValueSlot × F) × Nat)} (queued : before.2.Queued)
    (seeds : before.1 = true → ∀ j ∈ plan.conservativeSeedDrivers, j ∈ before.2.nextFrontier)
    (run : entries.foldlM (seedStability plan workspace) before = some after) :
    StabilitySeeded plan workspace entries before after := by
  induction entries generalizing before with
  | nil =>
    obtain rfl := Option.some.inj run
    exact ⟨queued.refl, id, seeds, by simp⟩
  | cons entry entries ih =>
    obtain ⟨mid, first, run⟩ := Option.bind_eq_some_iff.mp run
    have one := seedStability_spec queued seeds first
    have rest := ih one.queues.queued one.seeds run
    refine ⟨one.queues.trans rest.queues, fun set => rest.flag (one.flag set), rest.seeds, fun other member => ?_⟩
    rcases List.mem_cons.mp member with rfl | later
    · obtain ⟨value, read, same | ⟨set, row, dependents, there⟩⟩ := one.rows other (List.mem_singleton.mpr rfl)
      · exact ⟨value, read, Or.inl same⟩
      · exact ⟨value, read, Or.inr ⟨rest.flag set, row, dependents, fun j inRow => rest.queues.kept j (there j inRow)⟩⟩
    · exact rest.rows other later

/-- `capture_iteration_stability`. -/
def captureIterationStability (ir : CompiledIslandIr F) (workspace : ValueWorkspace F) : Option (List F) :=
  ir.iterationStabilityValues.mapM workspace.value

omit [F64 F] in
theorem captured_at {slots : List ValueSlot} {workspace : ValueWorkspace F} {stability : List F}
    (run : slots.mapM workspace.value = some stability) {k : Nat} {slot : ValueSlot} (read : slots[k]? = some slot) :
    ∃ value, stability[k]? = some value ∧ workspace.value slot = some value := by
  induction slots generalizing stability k with
  | nil => cases read
  | cons first slots ih =>
    rw [List.mapM_cons] at run
    obtain ⟨value, held, run⟩ := Option.bind_eq_some_iff.mp run
    obtain ⟨rest, captures, run⟩ := Option.bind_eq_some_iff.mp run
    obtain rfl := Option.some.inj run
    cases k with
    | zero =>
      obtain rfl := Option.some.inj read
      exact ⟨value, rfl, held⟩
    | succ k => exact ih captures read

omit [F64 F] in
theorem stabilityIndexOf_spec {stabilityValues : List ValueSlot} {value k : Nat}
    (named : stabilityIndexOf stabilityValues value = some k) : stabilityValues[k]? = some ⟨value⟩ := by
  obtain ⟨inside, same, -⟩ := List.findIdx?_eq_some_iff_getElem.mp named
  have isValue : stabilityValues[k].index = value := of_decide_eq_true same
  rw [List.getElem?_eq_getElem inside]
  exact congrArg some (congrArg ValueSlot.mk isValue)

/-- The prepared frontier: a driver outside it is no conservative seed, and only listed by stability values that are
as they were captured. -/
structure FrontierPrepared (plan : CompiledDiscretePlan) (ir : CompiledIslandIr F) (captured workspace : ValueWorkspace F)
    (scratch : DiscreteScratch F) : Prop where
  ready : scratch.Ready plan
  seeds : ∀ j ∈ plan.conservativeSeedDrivers, j ∈ scratch.currentFrontier
  rows : ∀ (j k v : Nat), j ∉ scratch.currentFrontier → stabilityIndexOf ir.iterationStabilityValues v = some k →
    (∃ row, plan.stabilityDependentsFor k = some row ∧ j ∈ row) → readAt workspace.values v = readAt captured.values v

theorem prepareDiscreteClosureFrontier_spec (exact : F64.Exact F) {captured workspace : ValueWorkspace F}
    {stability : List F} (captures : captureIterationStability ir captured = some stability)
    {scratch seeded : DiscreteScratch F} (ready : scratch.Ready plan)
    (run : prepareDiscreteClosureFrontier plan ir workspace stability scratch = some (true, seeded)) :
    FrontierPrepared plan ir captured workspace seeded := by
  obtain ⟨result, seeds, run⟩ := Option.bind_eq_some_iff.mp run
  split at run
  · rename_i changed
    obtain ⟨-, rfl⟩ := Prod.mk.inj (Option.some.inj run)
    have cleared : ({ scratch with currentFrontier := [] } : DiscreteScratch F).Ready plan :=
      ⟨ready.iteration, ready.small, ready.below⟩
    have spec := seedStabilities_spec cleared.begin (fun set => absurd set Bool.false_ne_true) seeds
    refine ⟨⟨spec.queues.iteration.trans ready.iteration, spec.queues.queued.small, spec.queues.queued.below⟩,
      spec.seeds changed, fun j k v away named listed => ?_⟩
    have isSlot := stabilityIndexOf_spec named
    obtain ⟨expected, isExpected, held⟩ := captured_at captures isSlot
    have entry : ((⟨v⟩, expected), k) ∈ (ir.iterationStabilityValues.zip stability).zipIdx := by
      refine List.mem_zipIdx_iff_getElem?.mpr ?_
      rw [List.getElem?_zip_eq_some]
      exact ⟨isSlot, isExpected⟩
    obtain ⟨value, read, same | ⟨-, row, dependents, there⟩⟩ := spec.rows _ entry
    · obtain rfl := (exact.beq_iff _ _).mp same
      exact read.trans held.symm
    · obtain ⟨row', dependents', inRow⟩ := listed
      obtain rfl := Option.some.inj (dependents.symm.trans dependents')
      exact absurd (there j inRow) away
  · cases (Prod.mk.inj (Option.some.inj run)).1

/-- A driver outside the prepared frontier has the pulls of the captured workspace. -/
theorem FrontierPrepared.pulls (sound : ir.Sound) (seeds : plan.Seeds ir) {start captured workspace : ValueWorkspace F}
    {iterate solution : List F} (evaluated : EvaluatedAt ir start iterate captured)
    (evaluated' : EvaluatedAt ir captured solution workspace) {scratch : DiscreteScratch F}
    (prepared : FrontierPrepared plan ir captured workspace scratch) {j : Nat} {driver : QualifiedComplementaryDriver}
    (known : plan.drivers[j]? = some driver) (away : j ∉ scratch.currentFrontier) :
    workspace.value driver.pullUp = captured.value driver.pullUp ∧
      workspace.value driver.pullDown = captured.value driver.pullDown := by
  obtain ⟨dependencies, solutionValues, hd, inputs, seeded⟩ := seeds.seeded
  obtain ⟨C, up, down, closed⟩ := seeded j driver known
  have values : ∀ v : Nat, C v → readAt workspace.values v = readAt captured.values v := by
    refine Machine.settled_agree sound.straight.ordered evaluated'.settled evaluated.settled
      (fun op member inside => ?_) fun v inside off => ?_
    · rcases closed op.destination.index inside with ⟨k, named, edge⟩ | ⟨-, isSeed⟩ | ⟨-, sources, held, all⟩
      · exact Or.inl (prepared.rows j k _ away named edge)
      · exact absurd (prepared.seeds j isSeed) away
      · refine Or.inr fun i reads => ?_
        obtain ⟨source, dep, rfl⟩ := List.mem_map.mp reads
        obtain ⟨sources', held', deps⟩ := valueDependencies_spec hd member
        obtain rfl := Option.some.inj (held.symm.trans held')
        exact all source (deps source dep)
    · by_cases free : ∀ entry ∈ ir.solutionInputs, entry.2.index ≠ v
      · exact evaluated'.others v off free
      · push Not at free
        obtain ⟨entry, there, rfl⟩ := free
        rcases closed entry.2.index inside with ⟨k, named, edge⟩ | ⟨-, isSeed⟩ | ⟨noInput, -⟩
        · exact prepared.rows j k _ away named edge
        · exact absurd (prepared.seeds j isSeed) away
        · rw [inputs entry there] at noInput
          cases noInput
  exact ⟨values _ up, values _ down⟩

/-! ### The two runs -/

/-- With an empty frontier a round settles. -/
theorem DiscreteClosureContext.runRounds_empty {context : DiscreteClosureContext F} {state : ClosureState F}
    (empty : state.scratch.currentFrontier = []) {result : ClosureOutcome × ClosureState F}
    (run : context.settle state = some result) (rounds : Nat) :
    ∃ result', context.runRounds (rounds + 1) state = some result' ∧ SameEnd result result' := by
  obtain ⟨blocked, barriers, run⟩ := Option.bind_eq_some_iff.mp run
  obtain rfl := Option.some.inj run
  rw [DiscreteClosureContext.runRounds, bind_of_eq_some barriers]
  cases blocked with
  | true => exact ⟨_, rfl, rfl, rfl⟩
  | false =>
    rw [empty]
    exact ⟨_, rfl, rfl, rfl⟩

section Exact

variable [Field F]

/-- A driver outside the prepared frontier is at its predicted output. -/
theorem FrontierPrepared.fixed (exact : F64.ExactField F) (sound : ir.Sound) (seeds : plan.Seeds ir)
    {pattern : MnaPattern} (rows : plan.Rows pattern ir) {start captured workspace : ValueWorkspace F}
    {iterate solution : List F} (evaluated : EvaluatedAt ir start iterate captured)
    (evaluated' : EvaluatedAt ir captured solution workspace) {system : List F × List F}
    (assembled : assembleSystem pattern ir captured = some system) (solves : Solves pattern system solution)
    (nonzero : ∀ driver ∈ plan.drivers, ∃ pullUp pullDown, workspace.value driver.pullUp = some pullUp ∧
      workspace.value driver.pullDown = some pullDown ∧ pullUp + pullDown ≠ 0)
    {scratch : DiscreteScratch F} (prepared : FrontierPrepared plan ir captured workspace scratch) {j : Nat}
    {driver : QualifiedComplementaryDriver} (known : plan.drivers[j]? = some driver)
    (away : j ∉ scratch.currentFrontier) :
    ∃ output, Predicts workspace solution driver output ∧ solution[driver.output.index]? = some output := by
  have member := List.mem_of_getElem? known
  obtain ⟨pullUp, pullDown, readUp, readDown, nonzero⟩ := nonzero driver member
  obtain ⟨sameUp, sameDown⟩ := prepared.pulls sound seeds evaluated evaluated' known away
  have voltage : ∀ unknown, driver.highRail = unknown ∨ driver.lowRail = unknown →
      ∃ value, unknownVoltage solution unknown = some value := by
    intro unknown isRail
    cases unknown with
    | none => exact ⟨F64.zero, rfl⟩
    | some unknown =>
      have inside := rows.rails driver member unknown isRail
      rw [← solves.length] at inside
      exact ⟨_, List.getElem?_eq_getElem inside⟩
  obtain ⟨high, readHigh⟩ := voltage _ (Or.inl rfl)
  obtain ⟨low, readLow⟩ := voltage _ (Or.inr rfl)
  have inside := rows.output driver member
  have equation := (rows.row driver member).equation exact assembled solves inside
  rw [← solves.length] at inside
  obtain ⟨output, readOutput⟩ : ∃ output, solution[driver.output.index]? = some output :=
    ⟨_, List.getElem?_eq_getElem inside⟩
  have isOutput : voltageOf solution (some driver.output) = output := by
    rw [voltageOf, unknownVoltage, readOutput, Option.getD_some]
  rw [← sameUp, ← sameDown, readUp, readDown, isOutput, voltageOf, voltageOf, readHigh, readLow, Option.getD_some,
    Option.getD_some, Option.getD_some, Option.getD_some] at equation
  have solved : (pullUp * high + pullDown * low) / (pullUp + pullDown) = output := by
    rw [← equation, mul_div_cancel_left₀ _ nonzero]
  refine ⟨output, ?_, readOutput⟩
  have away' : F64.beq (pullUp + pullDown) (0 : F) = false :=
    Bool.eq_false_iff.mpr fun same => nonzero ((exact.beq_iff _ _).mp same)
  rw [Predicts, predictedOutput, bind_of_eq_some readUp, bind_of_eq_some readDown, bind_of_eq_some readHigh,
    bind_of_eq_some readLow]
  simp only [exact.add, exact.mul, exact.div, exact.zero, exact.finite, away', solved, Bool.not_true, Bool.or_false,
    Bool.false_eq_true, if_false]

/-- In exact arithmetic, from a workspace captured at some iterate, at an exact solution of the system assembled
there where a stability value changed: the run from the prepared frontier and the run from every driver
agree in outcome and prediction. -/
theorem DiscreteClosureContext.runSeeded_agrees (exact : F64.ExactField F) {calls : List (IslandIrCall F)}
    {builder : IslandIrBuilder F} (built : IslandIrCall.applyAll {} calls = some builder)
    {context : DiscreteClosureContext F} (finished : builder.finish = some (.ok context.ir)) {pattern : MnaPattern}
    {metadata : BoundDiscreteMetadata} (within : metadata.Within pattern.dimension)
    (compiled : compileDiscretePlan pattern context.ir metadata = some (some context.plan))
    {start captured workspace : ValueWorkspace F} {iterate solution stability : List F}
    (length : start.values.length = context.ir.valueProgram.valueCount)
    (evaluated : evaluateIteration context.ir start iterate = some captured)
    (captures : captureIterationStability context.ir captured = some stability) {system : List F × List F}
    (assembled : assembleSystem pattern context.ir captured = some system) (solves : Solves pattern system solution)
    (evaluated' : evaluateIteration context.ir captured solution = some workspace)
    (nonzero : ∀ driver ∈ context.plan.drivers, ∃ pullUp pullDown, workspace.value driver.pullUp = some pullUp ∧
      workspace.value driver.pullDown = some pullDown ∧ pullUp + pullDown ≠ 0)
    {scratch scratch' seeded : DiscreteScratch F} (ready : scratch.Ready context.plan)
    (ready' : scratch'.Ready context.plan)
    (prepared : prepareDiscreteClosureFrontier context.plan context.ir workspace stability scratch =
      some (true, seeded)) {maxRounds : Nat} (positive : 0 < maxRounds)
    {result result' : ClosureOutcome × ClosureState F}
    (run : context.runSeededEvaluatedWithLimit maxRounds ⟨workspace, solution, seeded⟩ = some result)
    (run' : context.runEvaluatedWithLimit maxRounds ⟨workspace, solution, scratch'⟩ = some result') :
    result.1 = result'.1 ∧ result.2.predicted = result'.2.predicted := by
  have sound : context.ir.Sound := (IslandIrCall.applyAll_sound IslandIrBuilder.sound_new built).finish finished
  have planned := compileDiscretePlan_sound compiled
  have rows := compileDiscretePlan_rows exact (IslandIrBuilder.finish_rhs finished) within compiled
  have at_captured := evaluateIteration_spec sound length evaluated
  have at_solution := evaluateIteration_spec sound at_captured.length evaluated'
  have frontier := prepareDiscreteClosureFrontier_spec exact.toExact captures ready prepared
  obtain ⟨all, seedsAll, run'⟩ := Option.bind_eq_some_iff.mp run'
  unfold DiscreteScratch.seedAll at seedsAll
  split at seedsAll
  · obtain rfl := Option.some.inj seedsAll
    have alike : Alike context.plan context.ir captured workspace solution seeded
        { scratch' with currentFrontier := List.range context.plan.drivers.length, nextFrontier := [] } :=
      ⟨at_solution, frontier.ready, ⟨ready'.iteration, ready'.small, ready'.below⟩,
        fun i _ inside => List.mem_range.mpr inside, fun j _ away driver known =>
          frontier.fixed exact sound (compileDiscretePlan_seeds compiled) rows at_captured at_solution assembled solves
            nonzero known away⟩
    obtain ⟨rounds, rfl⟩ : ∃ rounds, maxRounds = rounds + 1 := ⟨maxRounds - 1, by omega⟩
    unfold runSeededEvaluatedWithLimit at run run'
    -- a run from an empty frontier ends as its first round would
    have first : ∃ round, context.runRounds (rounds + 1) ⟨workspace, solution, seeded⟩ = some round ∧
        SameEnd result round := by
      split at run
      · rename_i empty
        exact runRounds_empty (List.isEmpty_iff.mp empty) run rounds
      · exact ⟨result, run, rfl, rfl⟩
    have second : ∃ round, context.runRounds (rounds + 1) ⟨workspace, solution, { scratch' with
          currentFrontier := List.range context.plan.drivers.length, nextFrontier := [] }⟩ = some round ∧
        SameEnd result' round := by
      split at run'
      · rename_i empty
        exact runRounds_empty (List.isEmpty_iff.mp empty) run' rounds
      · exact ⟨result', run', rfl, rfl⟩
    obtain ⟨round, runs, same⟩ := first
    obtain ⟨round', runs', same'⟩ := second
    have agree := alike.runRounds exact.toExact sound planned at_captured.length runs runs'
    exact ⟨(same.1.trans agree.1).trans same'.1.symm, (same.2.trans agree.2).trans same'.2.symm⟩
  · cases seedsAll

end Exact

/-! ### A driver outside the frontier -/

theorem exactField_rat : F64.ExactField ℚ where
  toExact := exact_rat
  zero := rfl
  one := rfl
  add _ _ := rfl
  mul _ _ := rfl
  div _ _ := rfl
  neg _ := rfl
  finite _ := rfl

/-- Unknown 0 is pulled to the rail of unknown 1 while that is at least one, else to the reference; unknown 2 divides
the rail in half. -/
def dividerCalls : List (IslandIrCall ℚ) :=
  [.constantValue 1, .unknownValue (some ⟨1⟩), .binaryValue .lessEqual ⟨0⟩ ⟨1⟩, .binaryValue .sub ⟨0⟩ ⟨2⟩,
    .constantValue 6, .unknownValue (some ⟨0⟩), .requireIterationStability ⟨2⟩, .addMatrix ⟨0⟩ ⟨2⟩ 1,
    .addMatrix ⟨0⟩ ⟨3⟩ 1, .addMatrix ⟨1⟩ ⟨2⟩ (-1), .addMatrix ⟨3⟩ ⟨2⟩ (-1), .addMatrix ⟨4⟩ ⟨2⟩ 1, .addMatrix ⟨8⟩ ⟨0⟩ 2,
    .addMatrix ⟨5⟩ ⟨0⟩ (-1), .addMatrix ⟨7⟩ ⟨0⟩ (-1), .addMatrix ⟨4⟩ ⟨0⟩ 2, .addRhs ⟨1⟩ ⟨4⟩ 1]

def dividerPattern : MnaPattern := ⟨[0, 3, 6, 9], [0, 1, 2, 0, 1, 2, 0, 1, 2]⟩

def dividerMetadata : BoundDiscreteMetadata :=
  ⟨[⟨2⟩], [⟨⟨2⟩, some ⟨0⟩, some ⟨1⟩, none, ⟨2⟩, ⟨3⟩⟩, ⟨⟨2⟩, some ⟨2⟩, some ⟨1⟩, none, ⟨0⟩, ⟨0⟩⟩]⟩

/-- Captured with the rail at zero, where the solution has it at 4: the frontier is the driver of unknown 0. -/
theorem DiscreteClosureContext.runSeeded_agrees_divider : ∃ (context : DiscreteClosureContext ℚ)
    (workspace : ValueWorkspace ℚ) (seeded : DiscreteScratch ℚ) (result result' : ClosureOutcome × ClosureState ℚ),
    seeded.currentFrontier = [0] ∧ context.plan.drivers.length = 2 ∧
    context.runSeededEvaluatedWithLimit discreteClosureMaxRounds ⟨workspace, [0, 4, 2], seeded⟩ = some result ∧
    context.runEvaluatedWithLimit discreteClosureMaxRounds ⟨workspace, [0, 4, 2], .new context.plan⟩ = some result' ∧
    result.1 = result'.1 ∧ result.2.predicted = result'.2.predicted := by
  have computed : (do
      let builder ← IslandIrCall.applyAll {} dividerCalls
      let result ← builder.finish
      let ir ← result.toOption
      let compiled ← compileDiscretePlan dividerPattern ir dividerMetadata
      let plan ← compiled
      let captured ← evaluateIteration ir ir.valueProgram.newWorkspace [0, 0, 0]
      let stability ← captureIterationStability ir captured
      let system ← assembleSystem dividerPattern ir captured
      let workspace ← evaluateIteration ir captured [0, 4, 2]
      let seeded ← prepareDiscreteClosureFrontier plan ir workspace stability (.new plan)
      let result ← DiscreteClosureContext.runSeededEvaluatedWithLimit ⟨plan, ir, [0, 1], [6]⟩ discreteClosureMaxRounds
        ⟨workspace, [0, 4, 2], seeded.2⟩
      let result' ← DiscreteClosureContext.runEvaluatedWithLimit ⟨plan, ir, [0, 1], [6]⟩ discreteClosureMaxRounds
        ⟨workspace, [0, 4, 2], .new plan⟩
      some (seeded.2.currentFrontier, system, decide (plan.drivers.length = 2) && seeded.1 &&
        plan.drivers.all fun driver => ((workspace.value driver.pullUp).bind fun pullUp =>
          (workspace.value driver.pullDown).map fun pullDown => decide (pullUp + pullDown ≠ 0)).getD false)) =
      some ([0], (([1, 0, 0, 0, 2, -1, 0, -1, 2], [0, 6, 0]) : List ℚ × List ℚ), true) := by
    decide +kernel
  obtain ⟨builder, built, rest⟩ := Option.bind_eq_some_iff.mp computed
  obtain ⟨finish, finished, rest⟩ := Option.bind_eq_some_iff.mp rest
  obtain ⟨ir, isIr, rest⟩ := Option.bind_eq_some_iff.mp rest
  obtain ⟨compiled, compiles, rest⟩ := Option.bind_eq_some_iff.mp rest
  obtain ⟨plan, isPlan, rest⟩ := Option.bind_eq_some_iff.mp rest
  obtain ⟨captured, evaluated, rest⟩ := Option.bind_eq_some_iff.mp rest
  obtain ⟨stability, captures, rest⟩ := Option.bind_eq_some_iff.mp rest
  obtain ⟨system, assembled, rest⟩ := Option.bind_eq_some_iff.mp rest
  obtain ⟨workspace, evaluated', rest⟩ := Option.bind_eq_some_iff.mp rest
  obtain ⟨⟨flag, seeded⟩, prepared, rest⟩ := Option.bind_eq_some_iff.mp rest
  obtain ⟨result, run, rest⟩ := Option.bind_eq_some_iff.mp rest
  obtain ⟨result', run', rest⟩ := Option.bind_eq_some_iff.mp rest
  obtain ⟨frontier, rest⟩ := Prod.mk.inj (Option.some.inj rest)
  obtain ⟨isSystem, flags⟩ := Prod.mk.inj rest
  rw [Bool.and_eq_true, Bool.and_eq_true, decide_eq_true_eq] at flags
  obtain ⟨⟨two, isFlag⟩, pulls⟩ := flags
  subst isFlag isSystem
  have nonzero : ∀ driver ∈ plan.drivers, ∃ pullUp pullDown, workspace.value driver.pullUp = some pullUp ∧
      workspace.value driver.pullDown = some pullDown ∧ pullUp + pullDown ≠ 0 := by
    intro driver member
    have pull := List.all_eq_true.mp pulls driver member
    cases up : workspace.value driver.pullUp with
    | none => simp [up] at pull
    | some pullUp =>
      cases down : workspace.value driver.pullDown with
      | none => simp [up, down] at pull
      | some pullDown => exact ⟨pullUp, pullDown, rfl, rfl, by simpa [up, down] using pull⟩
  have solves : Solves dividerPattern ([1, 0, 0, 0, 2, -1, 0, -1, 2], [0, 6, 0]) ([0, 4, 2] : List ℚ) := by
    refine ⟨rfl, fun row value read => ?_⟩
    have inside : row < 3 := (List.getElem?_eq_some_iff.mp read).1
    interval_cases row <;> obtain rfl := Option.some.inj read <;> decide +kernel
  have within : dividerMetadata.Within dividerPattern.dimension := by
    intro candidate member unknown named
    simp only [dividerMetadata, List.mem_cons, List.not_mem_nil, or_false] at member
    rcases member with rfl | rfl <;> rcases named with named | named | named <;> cases named <;> decide
  cases finish with
  | error error => cases isIr
  | ok finish =>
    obtain rfl := Option.some.inj isIr
    subst isPlan
    have agrees := @DiscreteClosureContext.runSeeded_agrees ℚ _ _ exactField_rat _ _ built ⟨plan, finish, [0, 1], [6]⟩
      finished dividerPattern dividerMetadata within compiles _ _ _ _ _ _ rfl evaluated captures _ assembled solves
      evaluated' nonzero _ _ _ DiscreteScratch.ready_new DiscreteScratch.ready_new prepared
      discreteClosureMaxRounds (by decide) _ _ run run'
    exact ⟨⟨plan, finish, [0, 1], [6]⟩, workspace, seeded, result, result', frontier, two, run, run', agrees⟩

end Hynergy
