import Mathlib.Data.Nat.Pairing
import Mathlib.Data.Rat.Defs
import Hynergy.Compile.DriverDependencies
import Hynergy.Runtime.Discrete

/-!
# Where the discrete closure settles

At the start of every round the drivers outside the frontier are at the output predicted for
them, and the workspace is evaluated at the prediction. An output that changes puts every driver
that depends on it into the next frontier; so when nothing changes, or the frontier is empty,
every driver is at its output.
-/

namespace Hynergy

open Lib
open ValueOp (machine)

variable {F : Type}

/-- Exact arithmetic: numbers that compare equal, or have the same bits, are the same. -/
structure F64.Exact (F : Type) [F64 F] : Prop where
  beq_iff : ∀ a b : F, F64.beq a b = true ↔ a = b
  toBits_inj : ∀ a b : F, F64.toBits a = F64.toBits b → a = b

section Closure

variable [F64 F] {plan : CompiledDiscretePlan} {ir : CompiledIslandIr F}

/-! ### The scratch -/

/-- Between two rounds no operation is marked, and the marks of drivers are up to the generation. -/
structure DiscreteScratch.Ready (plan : CompiledDiscretePlan) (scratch : DiscreteScratch F) : Prop where
  iteration : scratch.iteration = plan.iterationDependencies.newScratch
  small : scratch.generation < 2 ^ 32
  below : ∀ mark ∈ scratch.queuedGeneration, mark ≤ scratch.generation

theorem DiscreteScratch.ready_new : (DiscreteScratch.new plan : DiscreteScratch F).Ready plan :=
  ⟨rfl, by simp [DiscreteScratch.new], fun mark member => Nat.le_of_eq (List.eq_of_mem_replicate member)⟩

/-- Every driver with the mark of the generation is queued. -/
structure DiscreteScratch.Queued (scratch : DiscreteScratch F) : Prop where
  small : scratch.generation < 2 ^ 32
  below : ∀ mark ∈ scratch.queuedGeneration, mark ≤ scratch.generation
  queued : ∀ driver : Nat, scratch.queuedGeneration[driver]? = some scratch.generation →
    driver ∈ scratch.nextFrontier

omit [F64 F] in
theorem DiscreteScratch.Ready.begin {scratch : DiscreteScratch F} (h : scratch.Ready plan) :
    scratch.beginNextFrontier.Queued := by
  obtain ⟨small, -, fresh⟩ := nextGeneration_spec h.small h.below
  refine ⟨small, fun mark member => Nat.le_of_lt (fresh mark member), fun driver marked => ?_⟩
  exact absurd (fresh _ (List.mem_of_getElem? marked)) (Nat.lt_irrefl _)

/-- What queueing leaves as it is. -/
structure DiscreteScratch.Queues (before after : DiscreteScratch F) : Prop where
  iteration : after.iteration = before.iteration
  outputs : after.driverOutputs = before.driverOutputs
  frontier : after.currentFrontier = before.currentFrontier
  kept : ∀ driver ∈ before.nextFrontier, driver ∈ after.nextFrontier
  queued : after.Queued

omit [F64 F] in
theorem DiscreteScratch.Queued.refl {scratch : DiscreteScratch F} (h : scratch.Queued) : scratch.Queues scratch :=
  ⟨rfl, rfl, rfl, fun _ h => h, h⟩

omit [F64 F] in
theorem DiscreteScratch.Queues.trans {a b c : DiscreteScratch F} (h : a.Queues b) (h' : b.Queues c) : a.Queues c :=
  ⟨h'.iteration.trans h.iteration, h'.outputs.trans h.outputs, h'.frontier.trans h.frontier,
    fun driver member => h'.kept driver (h.kept driver member), h'.queued⟩

omit [F64 F] in
theorem DiscreteScratch.queueDependent_spec {scratch next : DiscreteScratch F} (h : scratch.Queued) {driver : Nat}
    (run : scratch.queueDependent driver = some next) : scratch.Queues next ∧ driver ∈ next.nextFrontier ∧
      ∀ other ∈ next.nextFrontier, other ∈ scratch.nextFrontier ∨ other = driver := by
  obtain ⟨queued, read, run⟩ := Option.bind_eq_some_iff.mp run
  split at run
  · rename_i already
    obtain rfl := Option.some.inj run
    exact ⟨h.refl, h.queued driver (already ▸ read), fun _ => Or.inl⟩
  · obtain rfl := Option.some.inj run
    refine ⟨⟨rfl, rfl, rfl, fun _ member => List.mem_append_left _ member, h.small, fun mark member => ?_,
      fun other marked => ?_⟩, List.mem_append_right _ (List.mem_singleton.mpr rfl), fun other member =>
        (List.mem_append.mp member).imp_right List.mem_singleton.mp⟩
    · rcases List.mem_or_eq_of_mem_set member with old | rfl
      · exact h.below mark old
      · exact Nat.le_refl _
    · by_cases here : other = driver
      · exact List.mem_append_right _ (List.mem_singleton.mpr here)
      · refine List.mem_append_left _ (h.queued other ?_)
        have marked : (scratch.queuedGeneration.set driver scratch.generation)[other]? = some scratch.generation := marked
        rwa [List.getElem?_set_ne (Ne.symm here)] at marked

omit [F64 F] in
theorem DiscreteScratch.queueAll_spec {dependents : List Nat} {scratch next : DiscreteScratch F} (h : scratch.Queued)
    (run : dependents.foldlM DiscreteScratch.queueDependent scratch = some next) :
    scratch.Queues next ∧ (∀ driver ∈ dependents, driver ∈ next.nextFrontier) ∧
      ∀ other ∈ next.nextFrontier, other ∈ scratch.nextFrontier ∨ other ∈ dependents := by
  induction dependents generalizing scratch with
  | nil =>
    obtain rfl := Option.some.inj run
    exact ⟨h.refl, by simp, fun _ => Or.inl⟩
  | cons driver dependents ih =>
    obtain ⟨mid, first, run⟩ := Option.bind_eq_some_iff.mp run
    obtain ⟨queues, there, only⟩ := queueDependent_spec h first
    obtain ⟨queues', rest, only'⟩ := ih queues.queued run
    refine ⟨queues.trans queues', fun other member => ?_, fun other member => ?_⟩
    · rcases List.mem_cons.mp member with rfl | later
      · exact queues'.kept _ there
      · exact rest other later
    · rcases only' other member with old | new
      · exact (only other old).imp_right fun same => List.mem_cons.mpr (Or.inl same)
      · exact Or.inr (List.mem_cons_of_mem _ new)

/-! ### The outputs of a round -/

/-- The driver's predicted output. -/
def Predicts (workspace : ValueWorkspace F) (predicted : List F) (driver : QualifiedComplementaryDriver) (output : F) :
    Prop := predictedOutput workspace predicted driver = some (some output)

theorem scanDrivers_spec {workspace : ValueWorkspace F} {predicted : List F} {frontier : List Nat}
    {outputs final : List F} (run : scanDrivers plan workspace predicted frontier outputs = some (true, final)) :
    ∀ i ∈ frontier, ∃ driver output, plan.drivers[i]? = some driver ∧ Predicts workspace predicted driver output ∧
      final[i]? = some output := by
  suffices (∀ i ∈ frontier, ∃ driver output, plan.drivers[i]? = some driver ∧
      Predicts workspace predicted driver output ∧ final[i]? = some output) ∧
      ∀ i : Nat, i ∉ frontier → final[i]? = outputs[i]? from this.1
  induction frontier generalizing outputs with
  | nil =>
    obtain ⟨-, rfl⟩ := Prod.mk.inj (Option.some.inj run)
    exact ⟨by simp, fun _ _ => rfl⟩
  | cons index frontier ih =>
    rw [scanDrivers] at run
    obtain ⟨driver, known, run⟩ := Option.bind_eq_some_iff.mp run
    obtain ⟨prediction, predicts, run⟩ := Option.bind_eq_some_iff.mp run
    cases prediction with
    | none => cases (Prod.mk.inj (Option.some.inj run)).1
    | some output =>
      obtain ⟨next, set, run⟩ := Option.bind_eq_some_iff.mp run
      obtain ⟨rest, off⟩ := ih run
      unfold assign at set
      split at set
      · rename_i inside
        obtain rfl := Option.some.inj set
        refine ⟨fun i member => ?_, fun i away => ?_⟩
        · by_cases later : i ∈ frontier
          · exact rest i later
          · obtain rfl := (List.mem_cons.mp member).resolve_right later
            exact ⟨driver, output, known, predicts, by rw [off i later, List.getElem?_set_self inside]⟩
        · rw [List.mem_cons, not_or] at away
          rw [off i away.2, List.getElem?_set_ne (Ne.symm away.1)]
      · cases set

omit [F64 F] in
/-- No two drivers have one output. -/
theorem CompiledDiscretePlan.Sound.unique (sound : plan.Sound ir) {i j : Nat} {a b : QualifiedComplementaryDriver}
    (readA : plan.drivers[i]? = some a) (readB : plan.drivers[j]? = some b) (same : a.output.index = b.output.index) :
    i = j := by
  have length : (plan.drivers.map fun driver => driver.output.index).length = plan.drivers.length := List.length_map ..
  refine (List.getElem?_inj (length ▸ (List.getElem?_eq_some_iff.mp readA).1) sound.distinct).mp ?_
  rw [List.getElem?_map, List.getElem?_map, readA, readB]
  exact congrArg some same

/-- What taking over the outputs of the frontier does. -/
structure OutputsTaken (plan : CompiledDiscretePlan) (outputs : List F) (frontier : List Nat)
    (before after : OutputUpdate F) : Prop where
  queues : before.scratch.Queues after.scratch
  length : after.predicted.length = before.predicted.length
  taken : ∀ i ∈ frontier, ∀ driver, plan.drivers[i]? = some driver →
    after.predicted[driver.output.index]? = outputs[i]?
  others : ∀ u : Nat, (∀ i ∈ frontier, ∀ driver, plan.drivers[i]? = some driver → driver.output.index ≠ u) →
    after.predicted[u]? = before.predicted[u]?
  flag : before.changed = true → after.changed = true
  moved : ∀ i ∈ frontier, ∀ driver, plan.drivers[i]? = some driver →
    after.predicted[driver.output.index]? ≠ before.predicted[driver.output.index]? →
      after.changed = true ∧ ∃ row, plan.dependentsFor i = some row ∧ ∀ j ∈ row, j ∈ after.scratch.nextFrontier
  changed : after.changed = true → before.changed = true ∨ ∃ i ∈ frontier, ∃ driver, plan.drivers[i]? = some driver ∧
    after.predicted[driver.output.index]? ≠ before.predicted[driver.output.index]?
  next : ∀ j ∈ after.scratch.nextFrontier, j ∈ before.scratch.nextFrontier ∨
    ∃ i ∈ frontier, ∃ driver, plan.drivers[i]? = some driver ∧
      after.predicted[driver.output.index]? ≠ before.predicted[driver.output.index]? ∧
      ∃ row, plan.dependentsFor i = some row ∧ j ∈ row

theorem updateOutputs_spec (exact : F64.Exact F) (sound : plan.Sound ir) {outputs : List F} {frontier : List Nat}
    {before after : OutputUpdate F} (queued : before.scratch.Queued) (held : before.scratch.driverOutputs = outputs)
    (run : frontier.foldlM (updateOutput plan) before = some after) :
    OutputsTaken plan outputs frontier before after := by
  induction frontier generalizing before with
  | nil =>
    obtain rfl := Option.some.inj run
    exact ⟨queued.refl, rfl, by simp, fun _ _ => rfl, fun h => h, by simp, Or.inl, fun _ => Or.inl⟩
  | cons index frontier ih =>
    obtain ⟨mid, first, run⟩ := Option.bind_eq_some_iff.mp run
    obtain ⟨driver, known, first⟩ := Option.bind_eq_some_iff.mp first
    obtain ⟨output, readOutput, first⟩ := Option.bind_eq_some_iff.mp first
    obtain ⟨old, readOld, first⟩ := Option.bind_eq_some_iff.mp first
    obtain ⟨predicted, set, first⟩ := Option.bind_eq_some_iff.mp first
    rw [held] at readOutput
    have isSet : predicted = before.predicted.set driver.output.index output ∧
        driver.output.index < before.predicted.length := by
      unfold assign at set
      split at set
      · exact ⟨(Option.some.inj set).symm, ‹_›⟩
      · cases set
    obtain ⟨rfl, inside⟩ := isSet
    -- the step: the output is taken over, and if it moved the dependents are queued
    have step : before.scratch.Queues mid.scratch ∧ mid.predicted = before.predicted.set driver.output.index output ∧
        (before.changed = true → mid.changed = true) ∧
        (old = output ∧ mid.changed = before.changed ∧ mid.scratch.nextFrontier = before.scratch.nextFrontier ∨
          old ≠ output ∧ mid.changed = true ∧ ∃ row, plan.dependentsFor index = some row ∧
            (∀ j ∈ row, j ∈ mid.scratch.nextFrontier) ∧
            ∀ j ∈ mid.scratch.nextFrontier, j ∈ before.scratch.nextFrontier ∨ j ∈ row) := by
      split at first
      · rename_i equal
        obtain rfl := Option.some.inj first
        exact ⟨queued.refl, rfl, fun h => h, Or.inl ⟨(exact.beq_iff _ _).mp equal, rfl, rfl⟩⟩
      · rename_i differs
        obtain ⟨row, dependents, first⟩ := Option.bind_eq_some_iff.mp first
        obtain ⟨scratch, queueing, first⟩ := Option.bind_eq_some_iff.mp first
        obtain rfl := Option.some.inj first
        obtain ⟨queues, there, only⟩ := DiscreteScratch.queueAll_spec queued queueing
        exact ⟨queues, rfl, fun _ => rfl,
          Or.inr ⟨fun same => differs ((exact.beq_iff _ _).mpr same), rfl, row, dependents, there, only⟩⟩
    obtain ⟨queues, isPredicted, flag, moved⟩ := step
    have h := ih queues.queued (queues.outputs.trans held) run
    have here : mid.predicted[driver.output.index]? = some output := by
      rw [isPredicted, List.getElem?_set_self inside]
    have elsewhere : ∀ u : Nat, driver.output.index ≠ u → mid.predicted[u]? = before.predicted[u]? := by
      intro u away
      rw [isPredicted, List.getElem?_set_ne away]
    -- later drivers have other outputs, or are this one
    have settled : ∀ other, plan.drivers[index]? = some other →
        after.predicted[other.output.index]? = some output := by
      intro other read
      obtain rfl := Option.some.inj (known.symm.trans read)
      by_cases later : index ∈ frontier
      · rw [h.taken index later driver known, readOutput]
      · rw [h.others _ fun i member other' read' same => later (sound.unique read' known same ▸ member), here]
    -- what moved later had not moved before
    have back : ∀ i ∈ frontier, ∀ other, plan.drivers[i]? = some other →
        after.predicted[other.output.index]? ≠ mid.predicted[other.output.index]? →
        after.predicted[other.output.index]? ≠ before.predicted[other.output.index]? := by
      intro i member other read differs
      by_cases same : i = index
      · subst same
        obtain rfl := Option.some.inj (known.symm.trans read)
        exact absurd ((settled driver known).trans here.symm) differs
      · rwa [← elsewhere _ fun equal => same (sound.unique known read equal).symm]
    refine ⟨queues.trans h.queues, by rw [h.length, isPredicted, List.length_set], fun i member other read => ?_,
      fun u away => ?_, fun set => h.flag (flag set), fun i member other read differs => ?_, fun set => ?_,
      fun j member => ?_⟩
    · rcases List.mem_cons.mp member with rfl | later
      · rw [settled other read, readOutput]
      · exact h.taken i later other read
    · rw [h.others u fun i member => away i (List.mem_cons_of_mem _ member),
        elsewhere u (away index List.mem_cons_self driver known)]
    · by_cases later : i ∈ frontier ∧ after.predicted[other.output.index]? ≠ mid.predicted[other.output.index]?
      · exact h.moved i later.1 other read later.2
      · have isHere : i = index := by
          rcases List.mem_cons.mp member with same | there
          · exact same
          · by_contra off
            refine later ⟨there, fun stays => differs ?_⟩
            rw [stays, elsewhere _ fun same => off (sound.unique known read same).symm]
        subst isHere
        obtain rfl := Option.some.inj (known.symm.trans read)
        rcases moved with ⟨same, -, -⟩ | ⟨-, set, row, dependents, there, -⟩
        · exact absurd (by rw [settled driver known, readOld, same]) differs
        · exact ⟨h.flag set, row, dependents, fun j member => h.queues.kept j (there j member)⟩
    · rcases h.changed set with before' | ⟨i, member, other, read, differs⟩
      · rcases moved with ⟨-, same, -⟩ | ⟨differs, -⟩
        · exact Or.inl (same ▸ before')
        · refine Or.inr ⟨index, List.mem_cons_self, driver, known, ?_⟩
          rw [settled driver known, readOld]
          exact fun same => differs (Option.some.inj same).symm
      · exact Or.inr ⟨i, List.mem_cons_of_mem _ member, other, read, back i member other read differs⟩
    · rcases h.next j member with old | ⟨i, there, other, read, differs, row⟩
      · rcases moved with ⟨-, -, same⟩ | ⟨differs, -, row, dependents, -, only⟩
        · exact Or.inl (same ▸ old)
        · rcases only j old with first | new
          · exact Or.inl first
          · refine Or.inr ⟨index, List.mem_cons_self, driver, known, ?_, row, dependents, new⟩
            rw [settled driver known, readOld]
            exact fun same => differs (Option.some.inj same).symm
      · exact Or.inr ⟨i, List.mem_cons_of_mem _ there, other, read, back i there other read differs, row⟩

/-! ### Evaluations -/

/-- The workspace is evaluated at the solution, from the start. -/
structure EvaluatedAt (ir : CompiledIslandIr F) (start : ValueWorkspace F) (solution : List F)
    (workspace : ValueWorkspace F) : Prop where
  length : workspace.values.length = ir.valueProgram.valueCount
  settled : ∀ op ∈ ir.valueProgram.iterationOps, machine.Settled (readAt workspace.values) op
  inputs : ∀ entry ∈ ir.solutionInputs, ∃ value, solution[entry.1.index]? = some value ∧
    workspace.values[entry.2.index]? = some value
  others : ∀ i : Nat, (∀ op ∈ ir.valueProgram.iterationOps, op.destination.index ≠ i) →
    (∀ entry ∈ ir.solutionInputs, entry.2.index ≠ i) → workspace.values[i]? = start.values[i]?

/-- Executing the iteration stage settles it and leaves what it does not write. -/
theorem CompiledIslandIr.Sound.execute (sound : ir.Sound) {prepared : ValueWorkspace F}
    (length : prepared.values.length = ir.valueProgram.valueCount) :
    ∃ after, ir.valueProgram.executeIteration prepared = some after ∧
      after.values.length = ir.valueProgram.valueCount ∧
      (∀ op ∈ ir.valueProgram.iterationOps, machine.Settled (readAt after.values) op) ∧
      ∀ i : Nat, (∀ op ∈ ir.valueProgram.iterationOps, op.destination.index ≠ i) →
        after.values[i]? = prepared.values[i]? := by
  obtain ⟨values, run, same, ran⟩ := executeOps_spec fun op member => length ▸ sound.straight.inRange op member
  refine ⟨⟨values⟩, ?_, same.trans length, fun op member => ?_, fun i away => ?_⟩
  · have belongs : prepared.values.length = ir.valueProgram.initialValues.length := length
    rw [ValueProgram.executeIteration, ValueProgram.execute, if_pos belongs, run]
    rfl
  · rw [ran]
    exact Machine.run_settled sound.straight.ordered op member
  · have := congrFun ran i
    rwa [Machine.run_off away] at this

/-- Setting the solution inputs. -/
theorem CompiledIslandIr.Sound.setInputs (sound : ir.Sound) {solution : List F} {start prepared : ValueWorkspace F}
    (run : ir.solutionInputs.foldlM (fun workspace entry => do
      let value ← solution[entry.1.index]?
      ValueWorkspace.setInput workspace entry.2 value) start = some prepared) :
    prepared.values.length = start.values.length ∧
      (∀ entry ∈ ir.solutionInputs, ∃ value, solution[entry.1.index]? = some value ∧
        prepared.values[entry.2.index]? = some value) ∧
      ∀ i : Nat, (∀ entry ∈ ir.solutionInputs, entry.2.index ≠ i) → prepared.values[i]? = start.values[i]? := by
  have distinct := sound.distinct
  generalize ir.solutionInputs = inputs at run distinct
  induction inputs using List.reverseRecOn generalizing prepared with
  | nil =>
    obtain rfl := Option.some.inj run
    exact ⟨rfl, by simp, fun _ _ => rfl⟩
  | append_singleton inputs entry ih =>
    rw [List.foldlM_append] at run
    obtain ⟨mid, first, run⟩ := Option.bind_eq_some_iff.mp run
    rw [List.map_append, List.nodup_append] at distinct
    obtain ⟨length, set, off⟩ := ih first distinct.1
    rw [List.foldlM_cons] at run
    obtain ⟨last, step, rest⟩ := Option.bind_eq_some_iff.mp run
    obtain rfl := Option.some.inj rest
    obtain ⟨value, read, step⟩ := Option.bind_eq_some_iff.mp step
    unfold ValueWorkspace.setInput at step
    split at step
    · rename_i inside
      obtain rfl := Option.some.inj step
      refine ⟨by rw [List.length_set, length], fun other member => ?_, fun i away => ?_⟩
      · rcases List.mem_append.mp member with there | last
        · obtain ⟨old, known, held⟩ := set other there
          have differs : entry.2.index ≠ other.2.index := by
            intro same
            exact distinct.2.2 other.2 (List.mem_map_of_mem there) entry.2 (by simp) (InputSlot.ext same.symm)
          exact ⟨old, known, by rw [List.getElem?_set_ne differs, held]⟩
        · obtain rfl := List.mem_singleton.mp last
          exact ⟨value, read, List.getElem?_set_self inside⟩
      · rw [List.getElem?_set_ne (away entry (by simp)), off i fun other there => away other (by simp [there])]
    · cases step

theorem evaluateIteration_spec (sound : ir.Sound) {solution : List F} {start workspace : ValueWorkspace F}
    (length : start.values.length = ir.valueProgram.valueCount)
    (run : evaluateIteration ir start solution = some workspace) : EvaluatedAt ir start solution workspace := by
  obtain ⟨prepared, set, run⟩ := Option.bind_eq_some_iff.mp run
  obtain ⟨length', inputs, off⟩ := sound.setInputs set
  obtain ⟨after, executes, length'', settled, kept⟩ := sound.execute (length'.trans length)
  obtain rfl := Option.some.inj (executes.symm.trans run)
  refine ⟨length'', settled, fun entry member => ?_, fun i away free => (kept i away).trans (off i free)⟩
  obtain ⟨value, read, held⟩ := inputs entry member
  exact ⟨value, read, by rw [kept _ (sound.apart entry member), held]⟩

/-- There is one evaluation at a solution. -/
theorem EvaluatedAt.evaluates (sound : ir.Sound) {solution : List F} {start workspace : ValueWorkspace F}
    (length : start.values.length = ir.valueProgram.valueCount) (h : EvaluatedAt ir start solution workspace) :
    evaluateIteration ir start solution = some workspace := by
  have returns : ∀ (inputs : List (UnknownIndex × InputSlot)) (start : ValueWorkspace F),
      start.values.length = ir.valueProgram.valueCount → (∀ entry ∈ inputs, entry ∈ ir.solutionInputs) →
      ∃ prepared, inputs.foldlM (fun workspace entry => do
        let value ← solution[entry.1.index]?
        ValueWorkspace.setInput workspace entry.2 value) start = some prepared := by
    intro inputs
    induction inputs with
    | nil => exact fun start _ _ => ⟨start, rfl⟩
    | cons entry inputs ih =>
      intro start length known
      have member := known entry List.mem_cons_self
      obtain ⟨value, read, -⟩ := h.inputs entry member
      have inside : entry.2.index < start.values.length := length ▸ sound.known entry member
      obtain ⟨prepared, run⟩ := ih ⟨start.values.set entry.2.index value⟩ (by rw [List.length_set, length])
        fun other there => known other (List.mem_cons_of_mem _ there)
      refine ⟨prepared, ?_⟩
      rw [List.foldlM_cons, bind_of_eq_some read, ValueWorkspace.setInput, if_pos inside]
      exact run
  obtain ⟨prepared, set⟩ := returns ir.solutionInputs start length fun _ member => member
  obtain ⟨length', inputs, off⟩ := sound.setInputs set
  obtain ⟨after, executes, -, settled, kept⟩ := sound.execute (length'.trans length)
  unfold evaluateIteration
  rw [bind_of_eq_some set, executes]
  congr 1
  have same : readAt after.values = readAt workspace.values := by
    refine Machine.settled_unique sound.straight.ordered settled h.settled fun i away => ?_
    refine (kept i away).trans ?_
    by_cases free : ∀ entry ∈ ir.solutionInputs, entry.2.index ≠ i
    · exact (off i free).trans (h.others i away free).symm
    · push Not at free
      obtain ⟨entry, member, rfl⟩ := free
      obtain ⟨value, read, held⟩ := inputs entry member
      obtain ⟨value', read', held'⟩ := h.inputs entry member
      obtain rfl := Option.some.inj (read.symm.trans read')
      exact held.trans held'.symm
  have values : after.values = workspace.values := List.ext_getElem? fun i => congrFun same i
  cases after
  cases workspace
  exact congrArg ValueWorkspace.mk values

/-! ### Refreshing the inputs -/

/-- An unknown has the input its key is found with. -/
theorem CompiledIslandIr.Sound.getByKey_of_mem (sound : ir.Sound) {entry : UnknownIndex × InputSlot}
    (member : entry ∈ ir.solutionInputs) : getByKey entry.1 ir.solutionInputs = some entry.2 := by
  have keys : (ir.solutionInputs.map fun entry => entry.1.index).Nodup :=
    List.pairwise_map.mpr (sound.ascending.imp fun lower => Nat.ne_of_lt lower)
  cases found : getByKey entry.1 ir.solutionInputs with
  | none => exact absurd rfl (getByKey_eq_none.mp found entry member)
  | some slot =>
    have same := List.inj_on_of_nodup_map keys (getByKey_mem found) member rfl
    rw [← same]

/-- An input belongs to one unknown. -/
theorem CompiledIslandIr.Sound.entry_unique (sound : ir.Sound) {a b : UnknownIndex × InputSlot}
    (memberA : a ∈ ir.solutionInputs) (memberB : b ∈ ir.solutionInputs) (same : a.2.index = b.2.index) : a = b :=
  List.inj_on_of_nodup_map sound.distinct memberA memberB (InputSlot.ext same)

/-- What refreshing does: the steps of a round that mark what they set, after which the refreshed
inputs hold the prediction. -/
structure Refreshed (plan : CompiledDiscretePlan) (ir : CompiledIslandIr F) (predicted : List F) (frontier : List Nat)
    (before after : ValueWorkspace F × IterationScratch) (steps : List (RoundStep F)) : Prop where
  run : prepareRound plan.iterationDependencies steps before = some after
  slots : ∀ step ∈ steps, ∃ entry ∈ ir.solutionInputs, entry.2 = step.slot
  marked : ∀ step ∈ steps, RoundStep.mark step.slot ∈ steps
  kept : ∀ entry ∈ ir.solutionInputs, before.1.values[entry.2.index]? = predicted[entry.1.index]? →
    after.1.values[entry.2.index]? = predicted[entry.1.index]?
  refreshed : ∀ i ∈ frontier, ∀ driver, plan.drivers[i]? = some driver → ∀ entry ∈ ir.solutionInputs,
    entry.1 = driver.output → after.1.values[entry.2.index]? = predicted[entry.1.index]?

theorem refreshInput_spec (exact : F64.Exact F) (sound : ir.Sound) (planned : plan.Sound ir) {predicted : List F}
    {i : Nat} {before after : ValueWorkspace F × IterationScratch}
    (run : refreshInput plan predicted before i = some after) : ∃ steps, Refreshed plan ir predicted [i] before after steps := by
  obtain ⟨input, read, run⟩ := Option.bind_eq_some_iff.mp run
  have isDriver : ∃ driver, plan.drivers[i]? = some driver ∧ getByKey driver.output ir.solutionInputs = input := by
    rw [planned.inputs, List.getElem?_map] at read
    obtain ⟨driver, known, found⟩ := Option.map_eq_some_iff.mp read
    exact ⟨driver, known, found⟩
  obtain ⟨driver, known, found⟩ := isDriver
  cases input with
  | none =>
    obtain rfl := Option.some.inj run
    refine ⟨[], rfl, by simp, by simp, fun _ _ h => h, fun j member other known' entry there same => ?_⟩
    obtain rfl := List.mem_singleton.mp member
    obtain rfl := Option.some.inj (known.symm.trans known')
    have := sound.getByKey_of_mem there
    rw [same, found] at this
    cases this
  | some input =>
    obtain ⟨driver', known', run⟩ := Option.bind_eq_some_iff.mp run
    obtain rfl := Option.some.inj (known.symm.trans known')
    obtain ⟨value, readValue, run⟩ := Option.bind_eq_some_iff.mp run
    obtain ⟨held, readHeld, run⟩ := Option.bind_eq_some_iff.mp run
    have own : (driver.output, input) ∈ ir.solutionInputs := getByKey_mem found
    -- the entries of the driver are the one of its input
    have mine : ∀ j ∈ [i], ∀ other, plan.drivers[j]? = some other → ∀ entry ∈ ir.solutionInputs,
        entry.1 = other.output → entry = (driver.output, input) := by
      intro j member other readOther entry there same
      obtain rfl := List.mem_singleton.mp member
      obtain rfl := Option.some.inj (known.symm.trans readOther)
      have := sound.getByKey_of_mem there
      rw [same, found] at this
      exact Prod.ext same (Option.some.inj this).symm
    split at run
    · rename_i bits
      obtain rfl := Option.some.inj run
      refine ⟨[], rfl, by simp, by simp, fun _ _ h => h, fun j member other known' entry there same => ?_⟩
      obtain rfl := mine j member other known' entry there same
      rw [readValue, ← exact.toBits_inj _ _ bits]
      exact readHeld
    · obtain ⟨workspace, set, run⟩ := Option.bind_eq_some_iff.mp run
      obtain ⟨scratch, marks, run⟩ := Option.bind_eq_some_iff.mp run
      obtain rfl := Option.some.inj run
      have isSet : workspace.values = before.1.values.set input.index value ∧ input.index < before.1.values.length := by
        unfold ValueWorkspace.setInput at set
        split at set
        · obtain rfl := Option.some.inj set
          exact ⟨rfl, ‹_›⟩
        · cases set
      obtain ⟨values, inside⟩ := isSet
      have here : workspace.values[input.index]? = predicted[driver.output.index]? := by
        rw [values, List.getElem?_set_self inside, readValue]
      refine ⟨[.set input value, .mark input], ?_, fun step member => ⟨_, own, ?_⟩, fun step member => ?_,
        fun entry there same => ?_, fun j member other known' entry there same => ?_⟩
      · have first : RoundStep.apply plan.iterationDependencies before (.set input value) = some (workspace, before.2) := by
          rw [RoundStep.apply, set]
          rfl
        have second : RoundStep.apply plan.iterationDependencies (workspace, before.2) (.mark input) =
            some (workspace, scratch) := by
          rw [RoundStep.apply, marks]
          rfl
        rw [prepareRound, List.foldlM_cons, bind_of_eq_some first, List.foldlM_cons, bind_of_eq_some second]
        rfl
      · rcases List.mem_cons.mp member with rfl | last
        · rfl
        · rw [List.mem_singleton.mp last]
          rfl
      · rcases List.mem_cons.mp member with rfl | last
        · simp [RoundStep.slot]
        · rw [List.mem_singleton.mp last]
          simp [RoundStep.slot]
      · by_cases isInput : entry.2.index = input.index
        · obtain rfl := sound.entry_unique there own isInput
          exact here
        · rw [values, List.getElem?_set_ne (Ne.symm isInput), same]
      · obtain rfl := mine j member other known' entry there same
        exact here

theorem refreshInputs_spec (exact : F64.Exact F) (sound : ir.Sound) (planned : plan.Sound ir) {predicted : List F}
    {frontier : List Nat} {before after : ValueWorkspace F × IterationScratch}
    (run : frontier.foldlM (refreshInput plan predicted) before = some after) :
    ∃ steps, Refreshed plan ir predicted frontier before after steps := by
  induction frontier generalizing before with
  | nil =>
    obtain rfl := Option.some.inj run
    exact ⟨[], rfl, by simp, by simp, fun _ _ h => h, by simp⟩
  | cons i frontier ih =>
    obtain ⟨mid, first, rest⟩ := Option.bind_eq_some_iff.mp run
    obtain ⟨steps, h⟩ := refreshInput_spec exact sound planned first
    obtain ⟨steps', h'⟩ := ih rest
    refine ⟨steps ++ steps', ?_, fun step member => ?_, fun step member => ?_,
      fun entry there same => h'.kept entry there (h.kept entry there same), fun j member driver known entry there same => ?_⟩
    · have prepares : steps.foldlM (RoundStep.apply plan.iterationDependencies) before = some mid := h.run
      rw [prepareRound, List.foldlM_append, bind_of_eq_some prepares]
      exact h'.run
    · rcases List.mem_append.mp member with earlier | later
      · exact h.slots step earlier
      · exact h'.slots step later
    · rcases List.mem_append.mp member with earlier | later
      · exact List.mem_append_left _ (h.marked step earlier)
      · exact List.mem_append_right _ (h'.marked step later)
    · rcases List.mem_cons.mp member with rfl | later
      · exact h'.kept entry there (h.refreshed _ (List.mem_singleton.mpr rfl) driver known entry there same)
      · exact h'.refreshed j later driver known entry there same

/-- After refreshing, the incremental execution is the full one. -/
theorem Refreshed.executes (sound : ir.Sound) (planned : plan.Sound ir) {start : ValueWorkspace F}
    {predicted predicted' : List F} {frontier : List Nat} {workspace prepared : ValueWorkspace F}
    {marked : IterationScratch} {steps : List (RoundStep F)} (h : Refreshed plan ir predicted' frontier
      (workspace, plan.iterationDependencies.newScratch) (prepared, marked) steps)
    (evaluated : EvaluatedAt ir start predicted workspace) :
    prepared.values.length = ir.valueProgram.valueCount ∧
      (∀ i : Nat, (∀ step ∈ steps, step.slot.index ≠ i) → prepared.values[i]? = workspace.values[i]?) ∧
      ∃ after executed, ir.valueProgram.executeIterationIncremental plan.iterationDependencies prepared marked =
          some (after, plan.iterationDependencies.newScratch, executed) ∧
        ir.valueProgram.executeIteration prepared = some after := by
  have compiled := (ValueProgram.compile_returns sound.straight.inRange).of_run planned.compiled
  have known : ∀ step ∈ steps, step.slot.index < ir.valueProgram.valueCount := by
    intro step member
    obtain ⟨entry, there, same⟩ := h.slots step member
    exact same ▸ sound.known entry there
  have apart : ∀ step ∈ steps, ∀ op ∈ ir.valueProgram.iterationOps, op.destination.index ≠ step.slot.index := by
    intro step member
    obtain ⟨entry, there, same⟩ := h.slots step member
    exact same ▸ sound.apart entry there
  obtain ⟨prepared', marked', prepares, fits, off, executes⟩ :=
    sound.straight.round compiled evaluated.length evaluated.settled known apart
  obtain ⟨rfl, rfl⟩ := Prod.mk.inj (Option.some.inj (h.run.symm.trans prepares))
  have allMarked : AllMarked steps workspace prepared := by
    intro slot changed
    by_contra unmarked
    refine changed (off slot.index fun step member same => unmarked ?_)
    have isSlot : step.slot = slot := InputSlot.ext same
    exact isSlot ▸ h.marked step member
  exact ⟨fits, off, executes allMarked⟩

/-- After the incremental evaluation the workspace is evaluated at the new prediction, if only outputs of
the frontier changed. -/
theorem evaluateChangedIteration_spec (exact : F64.Exact F) (sound : ir.Sound) (planned : plan.Sound ir)
    {start : ValueWorkspace F} {predicted : List F} {state next : ClosureState F}
    (evaluated : EvaluatedAt ir start predicted state.workspace)
    (clean : state.scratch.iteration = plan.iterationDependencies.newScratch)
    (length : state.predicted.length = predicted.length)
    (others : ∀ u : Nat, (∀ i ∈ state.scratch.currentFrontier, ∀ driver, plan.drivers[i]? = some driver →
      driver.output.index ≠ u) → state.predicted[u]? = predicted[u]?)
    (run : evaluateChangedIteration plan ir state = some next) :
    EvaluatedAt ir start state.predicted next.workspace ∧ next.predicted = state.predicted ∧
      next.scratch = { state.scratch with iteration := plan.iterationDependencies.newScratch } := by
  obtain ⟨⟨prepared, marked⟩, refreshes, run⟩ := Option.bind_eq_some_iff.mp run
  obtain ⟨⟨after, left, executed⟩, incremental, run⟩ := Option.bind_eq_some_iff.mp run
  obtain rfl := Option.some.inj run
  rw [clean] at refreshes
  obtain ⟨steps, h⟩ := refreshInputs_spec exact sound planned refreshes
  obtain ⟨fits, off, after', count, incremental', full⟩ := h.executes sound planned evaluated
  obtain ⟨rfl, rest⟩ := Prod.mk.inj (Option.some.inj (incremental.symm.trans incremental'))
  obtain ⟨rfl, -⟩ := Prod.mk.inj rest
  obtain ⟨final, full', length', settled, kept⟩ := sound.execute fits
  obtain rfl := Option.some.inj (full.symm.trans full')
  refine ⟨⟨length', settled, fun entry there => ?_, fun i away free => ?_⟩, rfl, rfl⟩
  · obtain ⟨old, readOld, held⟩ := evaluated.inputs entry there
    have inside : entry.1.index < state.predicted.length := length ▸ (List.getElem?_eq_some_iff.mp readOld).1
    have predictedHere := List.getElem?_eq_getElem inside
    refine ⟨_, predictedHere, ?_⟩
    rw [kept _ (sound.apart entry there), ← predictedHere]
    by_cases moved : ∃ i ∈ state.scratch.currentFrontier, ∃ driver, plan.drivers[i]? = some driver ∧
        driver.output.index = entry.1.index
    · obtain ⟨i, member, driver, read, same⟩ := moved
      exact h.refreshed i member driver read entry there (congrArg UnknownIndex.mk same.symm)
    · refine h.kept entry there ?_
      rw [others entry.1.index fun i member driver read same => moved ⟨i, member, driver, read, same⟩, readOld, ← held]
  · rw [kept i away, off i fun step member => ?_, evaluated.others i away free]
    obtain ⟨entry, there, same⟩ := h.slots step member
    exact same ▸ free entry there

/-! ### Stability -/

/-- The prediction of a driver stays when no driver that lists it among its dependents moved. -/
theorem predictedOutput_stable (sound : ir.Sound) (planned : plan.Sound ir) {start : ValueWorkspace F}
    {before after : ValueWorkspace F} {predicted predicted' : List F}
    (evaluated : EvaluatedAt ir start predicted before) (evaluated' : EvaluatedAt ir start predicted' after)
    {j : Nat} {driver : QualifiedComplementaryDriver} (known : plan.drivers[j]? = some driver)
    (moved : ∀ u : Nat, predicted'[u]? ≠ predicted[u]? → ∃ i other, plan.drivers[i]? = some other ∧
      other.output.index = u ∧ ∀ row, plan.dependentsFor i = some row → j ∉ row) :
    predictedOutput after predicted' driver = predictedOutput before predicted driver := by
  obtain ⟨dependencies, producers, hd, hp, covers⟩ := planned.covered
  have covered := covers j driver known
  have produces := produces_of_fold sound.distinct hp
  -- a producer with an edge to the driver did not move
  have still : ∀ (unknown : UnknownIndex), (∀ producer, producerOf plan.drivers unknown = some producer →
      ∃ row, plan.dependentsFor producer = some row ∧ j ∈ row) →
      predicted'[unknown.index]? = predicted[unknown.index]? := by
    intro unknown edges
    by_contra changed
    obtain ⟨i, other, read, same, free⟩ := moved unknown.index changed
    have isOutput : other.output = unknown := congrArg UnknownIndex.mk same
    obtain ⟨producer, named⟩ := producerOf_isSome (List.mem_of_getElem? read)
    obtain ⟨that, read', same'⟩ := producerOf_spec named
    obtain rfl := planned.unique read read' (congrArg UnknownIndex.index same'.symm)
    obtain ⟨row, dependents, member⟩ := edges i (isOutput ▸ named)
    exact free row dependents member
  have rail : ∀ unknown, driver.highRail = unknown ∨ driver.lowRail = unknown →
      unknownVoltage predicted' unknown = unknownVoltage predicted unknown := by
    intro unknown isRail
    cases unknown with
    | none => rfl
    | some unknown => exact still unknown (covered.rails unknown isRail)
  obtain ⟨C, up, down, closed⟩ := covered.pulls
  have values : ∀ v : Nat, C v → readAt after.values v = readAt before.values v := by
    refine Machine.settled_agree sound.straight.ordered evaluated'.settled evaluated.settled
      (fun op member inside => Or.inr fun i reads => ?_) fun v inside away => ?_
    · obtain ⟨source, dep, rfl⟩ := List.mem_map.mp reads
      rcases closed op.destination.index inside with ⟨producer, named, -⟩ | ⟨-, sources, held, all⟩
      · obtain ⟨entry, there, same, -⟩ := produces.input _ _ named
        exact absurd same.symm (sound.apart entry there op member)
      · obtain ⟨sources', held', deps⟩ := valueDependencies_spec hd member
        obtain rfl := Option.some.inj (held.symm.trans held')
        exact all source (deps source dep)
    · by_cases free : ∀ entry ∈ ir.solutionInputs, entry.2.index ≠ v
      · exact (evaluated'.others v away free).trans (evaluated.others v away free).symm
      · push Not at free
        obtain ⟨entry, there, rfl⟩ := free
        obtain ⟨value, read, held⟩ := evaluated.inputs entry there
        obtain ⟨value', read', held'⟩ := evaluated'.inputs entry there
        have same := still entry.1 fun producer named => by
          rcases closed entry.2.index inside with ⟨other, named', edge⟩ | ⟨none', -⟩
          · rw [produces.known entry there producer named] at named'
            exact Option.some.inj named' ▸ edge
          · rw [produces.known entry there producer named] at none'
            cases none'
        refine held'.trans (Eq.trans ?_ held.symm)
        rw [← read', same, read]
  have pullUp : after.value driver.pullUp = before.value driver.pullUp := values _ up
  have pullDown : after.value driver.pullDown = before.value driver.pullDown := values _ down
  unfold predictedOutput
  rw [pullUp, pullDown, rail _ (Or.inl rfl), rail _ (Or.inr rfl)]

/-! ### Rounds -/

/-- At the start of a round: the drivers outside the frontier are at their predicted outputs. -/
structure Running (plan : CompiledDiscretePlan) (ir : CompiledIslandIr F) (start : ValueWorkspace F)
    (original : List F) (frontier : List Nat) (state : ClosureState F) : Prop where
  evaluated : EvaluatedAt ir start state.predicted state.workspace
  ready : state.scratch.Ready plan
  length : state.predicted.length = original.length
  kept : ∀ u : Nat, (∀ driver ∈ plan.drivers, driver.output.index ≠ u) → state.predicted[u]? = original[u]?
  fixed : ∀ (i : Nat) driver, plan.drivers[i]? = some driver → i ∉ frontier → ∃ output,
    Predicts state.workspace state.predicted driver output ∧ state.predicted[driver.output.index]? = some output

/-- Every driver is at its predicted output, and no barrier changed. -/
structure AtRest (context : DiscreteClosureContext F) (start : ValueWorkspace F) (original : List F)
    (state : ClosureState F) : Prop where
  running : Running context.plan context.ir start original [] state
  barriers : context.barriersChanged state.workspace = some false

section Rounds

variable {context : DiscreteClosureContext F} {start : ValueWorkspace F} {original : List F}

/-- What a run of the closure ends with. -/
def Ends (context : DiscreteClosureContext F) (start : ValueWorkspace F) (original : List F)
    (result : ClosureOutcome × ClosureState F) : Prop :=
  result.2.scratch.Ready context.plan ∧ (result.1 = .settled → AtRest context start original result.2)

theorem settle_ends {state : ClosureState F} (running : Running context.plan context.ir start original [] state)
    {result : ClosureOutcome × ClosureState F} (run : context.settle state = some result) :
    Ends context start original result := by
  obtain ⟨changed, barriers, run⟩ := Option.bind_eq_some_iff.mp run
  obtain rfl := Option.some.inj run
  refine ⟨running.ready, fun settled => ⟨running, ?_⟩⟩
  cases changed with
  | true => cases settled
  | false => exact barriers

/-- A round in which the outputs of the frontier are taken over. -/
theorem Running.round (exact : F64.Exact F) (sound : ir.Sound) (planned : plan.Sound ir) {state : ClosureState F}
    (running : Running plan ir start original state.scratch.currentFrontier state) {outputs : List F}
    (scanned : scanDrivers plan state.workspace state.predicted state.scratch.currentFrontier
      state.scratch.driverOutputs = some (true, outputs)) {update : OutputUpdate F}
    (updates : state.scratch.currentFrontier.foldlM (updateOutput plan)
      ⟨state.predicted, { state.scratch with driverOutputs := outputs }.beginNextFrontier, false⟩ = some update) :
    (update.changed = false →
      Running plan ir start original [] ⟨state.workspace, update.predicted, update.scratch⟩) ∧
    ∀ next, evaluateChangedIteration plan ir ⟨state.workspace, update.predicted, update.scratch⟩ = some next →
      Running plan ir start original next.scratch.nextFrontier next := by
  have ready : ({ state.scratch with driverOutputs := outputs } : DiscreteScratch F).Ready plan :=
    ⟨running.ready.iteration, running.ready.small, running.ready.below⟩
  have taken := updateOutputs_spec exact planned ready.begin rfl updates
  have scan := scanDrivers_spec scanned
  have frontier : update.scratch.currentFrontier = state.scratch.currentFrontier := taken.queues.frontier
  have iteration : update.scratch.iteration = plan.iterationDependencies.newScratch :=
    taken.queues.iteration.trans ready.iteration
  have still : ∀ u : Nat, (∀ driver ∈ plan.drivers, driver.output.index ≠ u) → update.predicted[u]? = original[u]? := by
    intro u away
    rw [taken.others u fun i _ driver known => away driver (List.mem_of_getElem? known), running.kept u away]
  -- every driver is now at the output predicted at the start of the round
  have reached : ∀ (i : Nat) driver, plan.drivers[i]? = some driver → ∃ output,
      Predicts state.workspace state.predicted driver output ∧
        update.predicted[driver.output.index]? = some output := by
    intro i driver known
    by_cases member : i ∈ state.scratch.currentFrontier
    · obtain ⟨driver', output, known', predicts, held⟩ := scan i member
      obtain rfl := Option.some.inj (known.symm.trans known')
      exact ⟨output, predicts, (taken.taken i member driver known).trans held⟩
    · obtain ⟨output, predicts, held⟩ := running.fixed i driver known member
      refine ⟨output, predicts, ?_⟩
      rw [taken.others _ fun j there other read same => member (planned.unique read known same ▸ there), held]
  constructor
  · intro unchanged
    have same : update.predicted = state.predicted := by
      apply List.ext_getElem?
      intro u
      by_contra moved
      by_cases away : ∀ i ∈ state.scratch.currentFrontier, ∀ driver, plan.drivers[i]? = some driver →
          driver.output.index ≠ u
      · exact moved (taken.others u away)
      · push Not at away
        obtain ⟨i, member, driver, known, rfl⟩ := away
        rw [(taken.moved i member driver known moved).1] at unchanged
        cases unchanged
    refine ⟨?_, ⟨iteration, taken.queues.queued.small, taken.queues.queued.below⟩, ?_, still, fun i driver known _ => ?_⟩
    · rw [same]
      exact running.evaluated
    · rw [same]
      exact running.length
    · rw [same] at reached ⊢
      exact reached i driver known
  · intro next evaluates
    obtain ⟨evaluated, predicted, scratch⟩ := @evaluateChangedIteration_spec F _ plan ir exact sound planned start
      state.predicted ⟨state.workspace, update.predicted, update.scratch⟩ next running.evaluated iteration taken.length
      (fun u away => taken.others u fun i member => away i (frontier.symm ▸ member)) evaluates
    refine ⟨predicted.symm ▸ evaluated, scratch.symm ▸ ⟨rfl, taken.queues.queued.small, taken.queues.queued.below⟩,
      ?_, fun u away => ?_, fun j driver known free => ?_⟩
    · rw [predicted]
      exact taken.length.trans running.length
    · rw [predicted]
      exact still u away
    · obtain ⟨output, predicts, held⟩ := reached j driver known
      rw [predicted]
      refine ⟨output, Eq.trans ?_ predicts, held⟩
      refine predictedOutput_stable sound planned running.evaluated evaluated known fun u moved => ?_
      by_cases away : ∀ i ∈ state.scratch.currentFrontier, ∀ driver, plan.drivers[i]? = some driver →
          driver.output.index ≠ u
      · exact absurd (taken.others u away) moved
      · push Not at away
        obtain ⟨i, member, other, read, rfl⟩ := away
        obtain ⟨-, row, dependents, queued⟩ := taken.moved i member other read moved
        refine ⟨i, other, read, rfl, fun row' dependents' there => free ?_⟩
        obtain rfl := Option.some.inj (dependents.symm.trans dependents')
        rw [scratch]
        exact queued j there

theorem runRounds_ends (exact : F64.Exact F) (sound : context.ir.Sound) (planned : context.plan.Sound context.ir)
    {rounds : Nat} {state : ClosureState F}
    (running : Running context.plan context.ir start original state.scratch.currentFrontier state)
    {result : ClosureOutcome × ClosureState F} (run : context.runRounds rounds state = some result) :
    Ends context start original result := by
  induction rounds generalizing state with
  | zero =>
    obtain rfl := Option.some.inj run
    exact ⟨running.ready, fun settled => by cases settled⟩
  | succ rounds ih =>
    rw [DiscreteClosureContext.runRounds] at run
    obtain ⟨blocked, barriers, run⟩ := Option.bind_eq_some_iff.mp run
    cases blocked with
    | true =>
      obtain rfl := Option.some.inj run
      exact ⟨running.ready, fun settled => by cases settled⟩
    | false =>
      obtain ⟨⟨valid, outputs⟩, scanned, run⟩ := Option.bind_eq_some_iff.mp run
      cases valid with
      | false =>
        obtain rfl := Option.some.inj run
        exact ⟨⟨running.ready.iteration, running.ready.small, running.ready.below⟩, fun settled => by cases settled⟩
      | true =>
        obtain ⟨update, updates, run⟩ := Option.bind_eq_some_iff.mp run
        obtain ⟨rest, further⟩ := running.round exact sound planned scanned updates
        cases changed : update.changed with
        | false =>
          rw [changed] at run
          obtain rfl := Option.some.inj run
          exact ⟨(rest changed).ready, fun _ => ⟨rest changed, barriers⟩⟩
        | true =>
          rw [changed] at run
          obtain ⟨next, evaluates, run⟩ := Option.bind_eq_some_iff.mp run
          have running' := further next evaluates
          split at run
          · rename_i none'
            rw [List.isEmpty_iff.mp none'] at running'
            exact settle_ends running' run
          · have ready : ({ next.scratch with
                currentFrontier := next.scratch.nextFrontier
                nextFrontier := next.scratch.currentFrontier } : DiscreteScratch F).Ready context.plan :=
              ⟨running'.ready.iteration, running'.ready.small, running'.ready.below⟩
            have swapped : Running context.plan context.ir start original next.scratch.nextFrontier { next with
                scratch := { next.scratch with
                  currentFrontier := next.scratch.nextFrontier
                  nextFrontier := next.scratch.currentFrontier } } :=
              ⟨running'.evaluated, ready, running'.length, running'.kept, running'.fixed⟩
            exact ih swapped run

/-- A run with every driver in the frontier. -/
theorem runEvaluatedWithLimit_ends (exact : F64.Exact F) (sound : context.ir.Sound)
    (planned : context.plan.Sound context.ir) {rounds : Nat} {state : ClosureState F}
    (evaluated : EvaluatedAt context.ir start state.predicted state.workspace)
    (ready : state.scratch.Ready context.plan) {result : ClosureOutcome × ClosureState F}
    (run : context.runEvaluatedWithLimit rounds state = some result) :
    Ends context start state.predicted result := by
  obtain ⟨scratch, seeds, run⟩ := Option.bind_eq_some_iff.mp run
  unfold DiscreteScratch.seedAll at seeds
  split at seeds
  · obtain rfl := Option.some.inj seeds
    have running : Running context.plan context.ir start state.predicted (List.range context.plan.drivers.length)
        { state with scratch := { state.scratch with
          currentFrontier := List.range context.plan.drivers.length, nextFrontier := [] } } :=
      ⟨evaluated, ⟨ready.iteration, ready.small, ready.below⟩, rfl, fun _ _ => rfl, fun i driver known away =>
        absurd (List.mem_range.mpr (List.getElem?_eq_some_iff.mp known).1) away⟩
    unfold DiscreteClosureContext.runSeededEvaluatedWithLimit at run
    split at run
    · rename_i none'
      have empty : List.range context.plan.drivers.length = [] := List.isEmpty_iff.mp none'
      refine settle_ends ⟨running.evaluated, running.ready, running.length, running.kept, fun i driver known _ => ?_⟩ run
      exact running.fixed i driver known (by rw [empty]; exact List.not_mem_nil)
    · exact runRounds_ends exact sound planned running run
  · cases seeds

end Rounds

/-! ### The settled closure -/

omit [F64 F] in
theorem anyM_eq_false {α : Type} {f : α → Option Bool} {l : List α} (run : l.anyM f = some false) :
    ∀ a ∈ l, f a = some false := by
  induction l with
  | nil => simp
  | cons a l ih =>
    rw [List.anyM] at run
    obtain ⟨here, first, run⟩ := Option.bind_eq_some_iff.mp run
    cases here with
    | true => cases run
    | false =>
      intro b member
      rcases List.mem_cons.mp member with rfl | later
      · exact first
      · exact ih run b later

/-- A barrier that is compared holds its captured value. -/
theorem captured_of_same (exact : F64.Exact F) {a b : F} (same : (!F64.beq a b) = false) : a = b :=
  (exact.beq_iff a b).mp (by simpa using same)

/-- What the drivers' outputs are where they are predicted. -/
theorem Predicts.formula {workspace : ValueWorkspace F} {predicted : List F} {driver : QualifiedComplementaryDriver}
    {output : F} (predicts : Predicts workspace predicted driver output) : ∃ pullUp pullDown high low,
      workspace.value driver.pullUp = some pullUp ∧ workspace.value driver.pullDown = some pullDown ∧
      unknownVoltage predicted driver.highRail = some high ∧ unknownVoltage predicted driver.lowRail = some low ∧
      F64.beq (F64.add pullUp pullDown) F64.zero = false ∧
      output = F64.div (F64.add (F64.mul pullUp high) (F64.mul pullDown low)) (F64.add pullUp pullDown) := by
  obtain ⟨pullUp, readUp, run⟩ := Option.bind_eq_some_iff.mp predicts
  obtain ⟨pullDown, readDown, run⟩ := Option.bind_eq_some_iff.mp run
  obtain ⟨high, readHigh, run⟩ := Option.bind_eq_some_iff.mp run
  obtain ⟨low, readLow, run⟩ := Option.bind_eq_some_iff.mp run
  dsimp only at run
  split at run
  · cases run
  · rename_i valid
    split at run
    · cases run
    · refine ⟨pullUp, pullDown, high, low, readUp, readDown, readHigh, readLow, ?_,
        (Option.some.inj (Option.some.inj run)).symm⟩
      rw [Bool.or_eq_true, not_or] at valid
      exact Bool.eq_false_iff.mpr valid.2

/-- In exact arithmetic, where the closure settles after a run with every driver in the frontier: every
driver's output is the one of its pulls and rails, the workspace is the full evaluation at the prediction,
no barrier has left its captured value, and only outputs of drivers have changed. -/
theorem DiscreteClosureContext.closure_settles (exact : F64.Exact F) {calls : List (IslandIrCall F)}
    {builder : IslandIrBuilder F} (built : IslandIrCall.applyAll {} calls = some builder)
    {context : DiscreteClosureContext F} (finished : builder.finish = some (.ok context.ir)) {pattern : MnaPattern}
    {metadata : BoundDiscreteMetadata}
    (compiled : compileDiscretePlan pattern context.ir metadata = some (some context.plan))
    {start workspace : ValueWorkspace F} {predicted : List F}
    (length : start.values.length = context.ir.valueProgram.valueCount)
    (evaluated : evaluateIteration context.ir start predicted = some workspace) {scratch : DiscreteScratch F}
    (ready : scratch.Ready context.plan) {maxRounds : Nat} {final : ClosureState F}
    (run : context.runEvaluatedWithLimit maxRounds ⟨workspace, predicted, scratch⟩ = some (.settled, final)) :
    (∀ driver ∈ context.plan.drivers, ∃ pullUp pullDown high low,
      final.workspace.value driver.pullUp = some pullUp ∧ final.workspace.value driver.pullDown = some pullDown ∧
      unknownVoltage final.predicted driver.highRail = some high ∧
      unknownVoltage final.predicted driver.lowRail = some low ∧
      F64.beq (F64.add pullUp pullDown) F64.zero = false ∧
      final.predicted[driver.output.index]? =
        some (F64.div (F64.add (F64.mul pullUp high) (F64.mul pullDown low)) (F64.add pullUp pullDown))) ∧
    evaluateIteration context.ir workspace final.predicted = some final.workspace ∧
    (∀ barrier ∈ context.plan.matrixBarriers, ∃ value, final.workspace.value barrier.source = some value ∧
      context.factorizedIterationMatrixSources[barrier.factorizedSourceIndex]? = some value) ∧
    (∀ barrier ∈ context.plan.rhsBarriers.zip context.rhsBarrierReference,
      final.workspace.value barrier.1 = some barrier.2) ∧
    final.predicted.length = predicted.length ∧
    (∀ unknown : UnknownIndex, (∀ driver ∈ context.plan.drivers, driver.output ≠ unknown) →
      final.predicted[unknown.index]? = predicted[unknown.index]?) ∧
    final.scratch.Ready context.plan := by
  have sound : context.ir.Sound := (IslandIrCall.applyAll_sound IslandIrBuilder.sound_new built).finish finished
  have planned := compileDiscretePlan_sound compiled
  have initial := evaluateIteration_spec sound length evaluated
  obtain ⟨left, rests⟩ := @runEvaluatedWithLimit_ends F _ context start exact sound planned maxRounds
    ⟨workspace, predicted, scratch⟩ initial ready _ run
  obtain ⟨running, barriers⟩ := rests rfl
  obtain ⟨matrix, checked, barriers⟩ := Option.bind_eq_some_iff.mp barriers
  cases matrix with
  | true => cases barriers
  | false =>
    refine ⟨fun driver member => ?_, ?_, fun barrier member => ?_, fun barrier member => ?_, running.length,
      fun unknown away => ?_, left⟩
    · obtain ⟨i, known⟩ := List.mem_iff_getElem?.mp member
      obtain ⟨output, predicts, held⟩ := running.fixed i driver known List.not_mem_nil
      obtain ⟨pullUp, pullDown, high, low, readUp, readDown, readHigh, readLow, nonzero, rfl⟩ := predicts.formula
      exact ⟨pullUp, pullDown, high, low, readUp, readDown, readHigh, readLow, nonzero, held⟩
    · have again : EvaluatedAt context.ir workspace final.predicted final.workspace :=
        ⟨running.evaluated.length, running.evaluated.settled, running.evaluated.inputs, fun i away free =>
          (running.evaluated.others i away free).trans (initial.others i away free).symm⟩
      exact again.evaluates sound initial.length
    · obtain ⟨value, read, same⟩ := Option.bind_eq_some_iff.mp (anyM_eq_false checked barrier member)
      obtain ⟨factorized, read', same⟩ := Option.bind_eq_some_iff.mp same
      exact ⟨value, read, captured_of_same exact (Option.some.inj same) ▸ read'⟩
    · obtain ⟨value, read, same⟩ := Option.bind_eq_some_iff.mp (anyM_eq_false barriers barrier member)
      exact captured_of_same exact (Option.some.inj same) ▸ read
    · exact running.kept unknown.index fun driver member same => away driver member (congrArg UnknownIndex.mk same)

end Closure

/-! ### A chain of drivers -/

/-- The rationals as exact arithmetic; every number is finite, and its bits code its fraction. -/
instance : F64 ℚ where
  zero := 0
  half := 1 / 2
  one := 1
  infinity := 0
  add := (· + ·)
  sub := (· - ·)
  mul := (· * ·)
  div := (· / ·)
  neg := (- ·)
  beq a b := decide (a = b)
  lt a b := decide (a < b)
  le a b := decide (a ≤ b)
  isFinite _ := true
  toBits q := Nat.pair (if 0 ≤ q.num then 2 * q.num.natAbs else 2 * q.num.natAbs + 1) q.den

theorem exact_rat : F64.Exact ℚ := by
  refine ⟨fun a b => decide_eq_true_iff, fun a b same => ?_⟩
  obtain ⟨num, den⟩ := Nat.pair_eq_pair.mp same
  refine Rat.ext ?_ den
  split at num <;> split at num <;> omega

/-- Unknown 0 is pulled to the rail of unknown 1 while that is at least one, and unknown 2 while unknown 0 is; else
they are pulled to the reference. -/
def followerCalls : List (IslandIrCall ℚ) :=
  [.constantValue 1, .unknownValue (some ⟨1⟩), .binaryValue .lessEqual ⟨0⟩ ⟨1⟩, .binaryValue .sub ⟨0⟩ ⟨2⟩,
    .unknownValue (some ⟨0⟩), .binaryValue .lessEqual ⟨0⟩ ⟨4⟩, .binaryValue .sub ⟨0⟩ ⟨5⟩, .addMatrix ⟨0⟩ ⟨2⟩ 1,
    .addMatrix ⟨0⟩ ⟨3⟩ 1, .addMatrix ⟨1⟩ ⟨2⟩ (-1), .addMatrix ⟨2⟩ ⟨2⟩ (-1), .addMatrix ⟨3⟩ ⟨2⟩ 1, .addMatrix ⟨3⟩ ⟨5⟩ 1,
    .addMatrix ⟨4⟩ ⟨5⟩ (-1), .addMatrix ⟨5⟩ ⟨5⟩ (-1), .addMatrix ⟨6⟩ ⟨5⟩ 1, .addMatrix ⟨6⟩ ⟨6⟩ 1]

def followerPattern : MnaPattern := ⟨[0, 2, 5, 7], [0, 1, 0, 1, 2, 1, 2]⟩

def followerMetadata : BoundDiscreteMetadata :=
  ⟨[⟨2⟩, ⟨5⟩], [⟨⟨2⟩, some ⟨0⟩, some ⟨1⟩, none, ⟨2⟩, ⟨3⟩⟩, ⟨⟨5⟩, some ⟨2⟩, some ⟨1⟩, none, ⟨5⟩, ⟨6⟩⟩]⟩

/-- From a rail at 5 the first driver rises, and the second with it a round later. -/
theorem DiscreteClosureContext.closure_settles_followers : ∃ (context : DiscreteClosureContext ℚ)
    (workspace : ValueWorkspace ℚ) (final : ClosureState ℚ),
    context.runEvaluatedWithLimit discreteClosureMaxRounds ⟨workspace, [0, 5, 0], .new context.plan⟩ =
      some (.settled, final) ∧
    (∀ driver ∈ context.plan.drivers, ∃ pullUp pullDown high low,
      final.workspace.value driver.pullUp = some pullUp ∧ final.workspace.value driver.pullDown = some pullDown ∧
      unknownVoltage final.predicted driver.highRail = some high ∧
      unknownVoltage final.predicted driver.lowRail = some low ∧
      F64.beq (F64.add pullUp pullDown) F64.zero = false ∧
      final.predicted[driver.output.index]? =
        some (F64.div (F64.add (F64.mul pullUp high) (F64.mul pullDown low)) (F64.add pullUp pullDown))) ∧
    evaluateIteration context.ir workspace final.predicted = some final.workspace ∧ context.plan.drivers.length = 2 ∧
    final.predicted = [5, 5, 5] := by
  have computed : (do
      let builder ← IslandIrCall.applyAll {} followerCalls
      let result ← builder.finish
      let ir ← result.toOption
      let compiled ← compileDiscretePlan followerPattern ir followerMetadata
      let plan ← compiled
      let workspace ← evaluateIteration ir ir.valueProgram.newWorkspace [0, 5, 0]
      let result ← DiscreteClosureContext.runEvaluatedWithLimit ⟨plan, ir, [1, 0, 0, 1], []⟩ discreteClosureMaxRounds
        ⟨workspace, [0, 5, 0], .new plan⟩
      some (result.1, plan.drivers.length, result.2.predicted)) = some (.settled, 2, ([5, 5, 5] : List ℚ)) := by
    decide +kernel
  obtain ⟨builder, built, rest⟩ := Option.bind_eq_some_iff.mp computed
  obtain ⟨result, finished, rest⟩ := Option.bind_eq_some_iff.mp rest
  obtain ⟨ir, isIr, rest⟩ := Option.bind_eq_some_iff.mp rest
  obtain ⟨compiled, compiles, rest⟩ := Option.bind_eq_some_iff.mp rest
  obtain ⟨plan, isPlan, rest⟩ := Option.bind_eq_some_iff.mp rest
  obtain ⟨workspace, evaluated, rest⟩ := Option.bind_eq_some_iff.mp rest
  obtain ⟨⟨outcome, final⟩, run, rest⟩ := Option.bind_eq_some_iff.mp rest
  obtain ⟨rfl, counted⟩ := Prod.mk.inj (Option.some.inj rest)
  obtain ⟨two, ends⟩ := Prod.mk.inj counted
  cases result with
  | error error => cases isIr
  | ok value =>
    obtain rfl := Option.some.inj isIr
    subst isPlan
    have settled := @DiscreteClosureContext.closure_settles ℚ _ exact_rat _ _ built ⟨plan, value, [1, 0, 0, 1], []⟩ finished
      _ _ compiles _ _ _ rfl evaluated _ DiscreteScratch.ready_new _ _ run
    exact ⟨⟨plan, value, [1, 0, 0, 1], []⟩, workspace, final, run, settled.1, settled.2.1, two, ends⟩

end Hynergy
