import Hynergy.Runtime.DiscreteClosure

/-!
# Runs of the closure from two frontiers

A run from a frontier and one from a larger frontier agree when the further drivers are at their
predicted outputs: these are recomputed to what they are and move nothing.
-/

namespace Hynergy

open Lib

variable {F : Type} [F64 F] {plan : CompiledDiscretePlan} {ir : CompiledIslandIr F}

/-- The larger frontier of the second scratch holds further drivers only at their predicted outputs. -/
structure Alike (plan : CompiledDiscretePlan) (ir : CompiledIslandIr F) (start workspace : ValueWorkspace F)
    (predicted : List F) (few many : DiscreteScratch F) : Prop where
  evaluated : EvaluatedAt ir start predicted workspace
  few_ready : few.Ready plan
  many_ready : many.Ready plan
  more : ∀ i ∈ few.currentFrontier, i < plan.drivers.length → i ∈ many.currentFrontier
  fixed : ∀ i ∈ many.currentFrontier, i ∉ few.currentFrontier → ∀ driver, plan.drivers[i]? = some driver →
    ∃ output, Predicts workspace predicted driver output ∧ predicted[driver.output.index]? = some output

section Round

variable {start workspace : ValueWorkspace F} {predicted : List F} {few many : DiscreteScratch F}

theorem scanDrivers_invalid {frontier : List Nat} {outputs final : List F}
    (run : scanDrivers plan workspace predicted frontier outputs = some (false, final)) :
    ∃ i ∈ frontier, ∃ driver, plan.drivers[i]? = some driver ∧
      predictedOutput workspace predicted driver = some none := by
  induction frontier generalizing outputs with
  | nil => cases (Prod.mk.inj (Option.some.inj run)).1
  | cons index frontier ih =>
    rw [scanDrivers] at run
    obtain ⟨driver, known, run⟩ := Option.bind_eq_some_iff.mp run
    obtain ⟨prediction, predicts, run⟩ := Option.bind_eq_some_iff.mp run
    cases prediction with
    | none => exact ⟨index, List.mem_cons_self, driver, known, predicts⟩
    | some output =>
      obtain ⟨next, -, run⟩ := Option.bind_eq_some_iff.mp run
      obtain ⟨i, member, rest⟩ := ih run
      exact ⟨i, List.mem_cons_of_mem _ member, rest⟩

/-- Both scans meet an invalid prediction, or none. -/
theorem Alike.scans (h : Alike plan ir start workspace predicted few many) {valid valid' : Bool} {outputs outputs' : List F}
    (scan : scanDrivers plan workspace predicted few.currentFrontier few.driverOutputs = some (valid, outputs))
    (scan' : scanDrivers plan workspace predicted many.currentFrontier many.driverOutputs = some (valid', outputs')) :
    valid = valid' := by
  have clash : ∀ {driver : QualifiedComplementaryDriver} {output : F},
      predictedOutput workspace predicted driver = some none → Predicts workspace predicted driver output → False := by
    intro driver output invalid predicts
    cases invalid.symm.trans predicts
  cases valid with
  | false =>
    cases valid' with
    | false => rfl
    | true =>
      obtain ⟨i, member, driver, known, invalid⟩ := scanDrivers_invalid scan
      obtain ⟨driver', output, known', predicts, -⟩ := scanDrivers_spec scan' i (h.more i member (List.getElem?_eq_some_iff.mp known).1)
      obtain rfl := Option.some.inj (known.symm.trans known')
      exact (clash invalid predicts).elim
  | true =>
    cases valid' with
    | true => rfl
    | false =>
      obtain ⟨i, member, driver, known, invalid⟩ := scanDrivers_invalid scan'
      by_cases there : i ∈ few.currentFrontier
      · obtain ⟨driver', output, known', predicts, -⟩ := scanDrivers_spec scan i there
        obtain rfl := Option.some.inj (known.symm.trans known')
        exact (clash invalid predicts).elim
      · obtain ⟨output, predicts, -⟩ := h.fixed i member there driver known
        exact (clash invalid predicts).elim

/-- What the outputs of the two frontiers change. -/
structure SameMoves (predicted : List F) (a b : OutputUpdate F) : Prop where
  same : a.predicted = b.predicted
  changed : a.changed = b.changed
  next : ∀ j, j ∈ a.scratch.nextFrontier ↔ j ∈ b.scratch.nextFrontier
  still : a.changed = false → a.predicted = predicted

theorem Alike.updates (h : Alike plan ir start workspace predicted few many) {outputs outputs' : List F}
    (scan : scanDrivers plan workspace predicted few.currentFrontier few.driverOutputs = some (true, outputs))
    (scan' : scanDrivers plan workspace predicted many.currentFrontier many.driverOutputs = some (true, outputs'))
    {before before' a b : OutputUpdate F} (taken : OutputsTaken plan outputs few.currentFrontier before a)
    (taken' : OutputsTaken plan outputs' many.currentFrontier before' b)
    (from' : before.predicted = predicted ∧ before.changed = false ∧ before.scratch.nextFrontier = [])
    (from'' : before'.predicted = predicted ∧ before'.changed = false ∧ before'.scratch.nextFrontier = []) :
    SameMoves predicted a b := by
  obtain ⟨isPredicted, unchanged, empty⟩ := from'
  obtain ⟨isPredicted', unchanged', empty'⟩ := from''
  have scanned := scanDrivers_spec scan
  have scanned' := scanDrivers_spec scan'
  -- a driver of the smaller frontier has one output in both
  have shared : ∀ i ∈ few.currentFrontier, ∀ driver, plan.drivers[i]? = some driver →
      a.predicted[driver.output.index]? = b.predicted[driver.output.index]? := by
    intro i member driver known
    have there := h.more i member (List.getElem?_eq_some_iff.mp known).1
    obtain ⟨driver1, output1, known1, predicts1, held1⟩ := scanned i member
    obtain ⟨driver2, output2, known2, predicts2, held2⟩ := scanned' i there
    obtain rfl := Option.some.inj (known.symm.trans known1)
    obtain rfl := Option.some.inj (known.symm.trans known2)
    obtain rfl := Option.some.inj (Option.some.inj (predicts1.symm.trans predicts2))
    rw [taken.taken i member driver known, taken'.taken i there driver known, held1, held2]
  -- a further driver moves nothing
  have extra : ∀ i ∈ many.currentFrontier, i ∉ few.currentFrontier → ∀ driver, plan.drivers[i]? = some driver →
      b.predicted[driver.output.index]? = predicted[driver.output.index]? := by
    intro i member away driver known
    obtain ⟨driver2, output2, known2, predicts2, held2⟩ := scanned' i member
    obtain rfl := Option.some.inj (known.symm.trans known2)
    obtain ⟨output, predicts, held⟩ := h.fixed i member away driver known
    obtain rfl := Option.some.inj (Option.some.inj (predicts.symm.trans predicts2))
    rw [taken'.taken i member driver known, held2, held]
  have off : ∀ u : Nat, (∀ i ∈ few.currentFrontier, ∀ driver, plan.drivers[i]? = some driver → driver.output.index ≠ u) →
      b.predicted[u]? = predicted[u]? := by
    intro u away
    by_cases free : ∀ i ∈ many.currentFrontier, ∀ driver, plan.drivers[i]? = some driver → driver.output.index ≠ u
    · rw [taken'.others u free, isPredicted']
    · push Not at free
      obtain ⟨i, member, driver, known, rfl⟩ := free
      exact extra i member (fun there => away i there driver known rfl) driver known
  have same : a.predicted = b.predicted := by
    apply List.ext_getElem?
    intro u
    by_cases away : ∀ i ∈ few.currentFrontier, ∀ driver, plan.drivers[i]? = some driver → driver.output.index ≠ u
    · rw [taken.others u away, isPredicted, off u away]
    · push Not at away
      obtain ⟨i, member, driver, known, rfl⟩ := away
      exact shared i member driver known
  have moves : ∀ i driver, plan.drivers[i]? = some driver →
      ((i ∈ few.currentFrontier ∧ a.predicted[driver.output.index]? ≠ before.predicted[driver.output.index]?) ↔
        i ∈ many.currentFrontier ∧ b.predicted[driver.output.index]? ≠ before'.predicted[driver.output.index]?) := by
    intro i driver known
    rw [isPredicted, isPredicted', same]
    constructor
    · rintro ⟨member, moved⟩
      exact ⟨h.more i member (List.getElem?_eq_some_iff.mp known).1, moved⟩
    · rintro ⟨member, moved⟩
      refine ⟨?_, moved⟩
      by_contra away
      exact moved (extra i member away driver known)
  refine ⟨same, ?_, fun j => ⟨fun member => ?_, fun member => ?_⟩, fun unmoved => ?_⟩
  · rw [Bool.eq_iff_iff]
    constructor
    · intro set
      rcases taken.changed set with first | ⟨i, member, driver, known, moved⟩
      · rw [unchanged] at first
        cases first
      · obtain ⟨member', moved'⟩ := (moves i driver known).mp ⟨member, moved⟩
        exact (taken'.moved i member' driver known moved').1
    · intro set
      rcases taken'.changed set with first | ⟨i, member, driver, known, moved⟩
      · rw [unchanged'] at first
        cases first
      · obtain ⟨member', moved'⟩ := (moves i driver known).mpr ⟨member, moved⟩
        exact (taken.moved i member' driver known moved').1
  · rcases taken.next j member with first | ⟨i, there, driver, known, moved, row, dependents, inRow⟩
    · rw [empty] at first
      cases first
    · obtain ⟨member', moved'⟩ := (moves i driver known).mp ⟨there, moved⟩
      obtain ⟨-, row', dependents', all⟩ := taken'.moved i member' driver known moved'
      obtain rfl := Option.some.inj (dependents.symm.trans dependents')
      exact all j inRow
  · rcases taken'.next j member with first | ⟨i, there, driver, known, moved, row, dependents, inRow⟩
    · rw [empty'] at first
      cases first
    · obtain ⟨member', moved'⟩ := (moves i driver known).mpr ⟨there, moved⟩
      obtain ⟨-, row', dependents', all⟩ := taken.moved i member' driver known moved'
      obtain rfl := Option.some.inj (dependents.symm.trans dependents')
      exact all j inRow
  · apply List.ext_getElem?
    intro u
    by_contra moved
    by_cases away : ∀ i ∈ few.currentFrontier, ∀ driver, plan.drivers[i]? = some driver → driver.output.index ≠ u
    · exact moved ((taken.others u away).trans (by rw [isPredicted]))
    · push Not at away
      obtain ⟨i, member, driver, known, rfl⟩ := away
      rw [(taken.moved i member driver known (by rwa [isPredicted])).1] at unmoved
      cases unmoved

end Round

/-! ### Runs -/

/-- Two workspaces evaluated at one solution from one start are equal. -/
theorem EvaluatedAt.unique (sound : ir.Sound) {start a b : ValueWorkspace F} {solution : List F}
    (length : start.values.length = ir.valueProgram.valueCount) (h : EvaluatedAt ir start solution a)
    (h' : EvaluatedAt ir start solution b) : a = b :=
  Option.some.inj ((h.evaluates sound length).symm.trans (h'.evaluates sound length))

/-- The results agree in outcome and prediction. -/
def SameEnd (a b : ClosureOutcome × ClosureState F) : Prop := a.1 = b.1 ∧ a.2.predicted = b.2.predicted

variable {context : DiscreteClosureContext F} {start workspace : ValueWorkspace F} {predicted : List F}

theorem settle_agrees {a b : ClosureState F} (workspaces : a.workspace = b.workspace) (same : a.predicted = b.predicted)
    {resultA resultB : ClosureOutcome × ClosureState F} (runA : context.settle a = some resultA)
    (runB : context.settle b = some resultB) : SameEnd resultA resultB := by
  obtain ⟨changedA, barriersA, runA⟩ := Option.bind_eq_some_iff.mp runA
  obtain ⟨changedB, barriersB, runB⟩ := Option.bind_eq_some_iff.mp runB
  obtain rfl := Option.some.inj runA
  obtain rfl := Option.some.inj runB
  rw [workspaces] at barriersA
  obtain rfl := Option.some.inj (barriersA.symm.trans barriersB)
  exact ⟨rfl, same⟩

/-- Two states after one round. -/
structure SameRound (plan : CompiledDiscretePlan) (ir : CompiledIslandIr F) (start : ValueWorkspace F)
    (a b : ClosureState F) : Prop where
  workspace : a.workspace = b.workspace
  predicted : a.predicted = b.predicted
  empty : a.scratch.nextFrontier.isEmpty = b.scratch.nextFrontier.isEmpty
  alike : Alike plan ir start a.workspace a.predicted
    { a.scratch with currentFrontier := a.scratch.nextFrontier, nextFrontier := a.scratch.currentFrontier }
    { b.scratch with currentFrontier := b.scratch.nextFrontier, nextFrontier := b.scratch.currentFrontier }

/-- What has moved alike is evaluated to one workspace. -/
theorem Alike.evaluates (exact : F64.Exact F) (sound : ir.Sound) (planned : plan.Sound ir)
    (length : start.values.length = ir.valueProgram.valueCount) {few many : DiscreteScratch F}
    (h : Alike plan ir start workspace predicted few many) {outputs outputs' : List F} {a b : OutputUpdate F}
    (takenA : OutputsTaken plan outputs few.currentFrontier
      ⟨predicted, ({ few with driverOutputs := outputs } : DiscreteScratch F).beginNextFrontier, false⟩ a)
    (takenB : OutputsTaken plan outputs' many.currentFrontier
      ⟨predicted, ({ many with driverOutputs := outputs' } : DiscreteScratch F).beginNextFrontier, false⟩ b)
    (moves : SameMoves predicted a b) {nextA nextB : ClosureState F}
    (evaluatesA : evaluateChangedIteration plan ir ⟨workspace, a.predicted, a.scratch⟩ = some nextA)
    (evaluatesB : evaluateChangedIteration plan ir ⟨workspace, b.predicted, b.scratch⟩ = some nextB) :
    SameRound plan ir start nextA nextB := by
  have frontierA : a.scratch.currentFrontier = few.currentFrontier := takenA.queues.frontier
  have frontierB : b.scratch.currentFrontier = many.currentFrontier := takenB.queues.frontier
  obtain ⟨evaluatedA, predictedA, scratchA⟩ := @evaluateChangedIteration_spec F _ _ _ exact sound planned start
    predicted ⟨workspace, a.predicted, a.scratch⟩ nextA h.evaluated
    (takenA.queues.iteration.trans h.few_ready.iteration) takenA.length
    (fun u away => takenA.others u fun i member => away i (frontierA.symm ▸ member)) evaluatesA
  obtain ⟨evaluatedB, predictedB, scratchB⟩ := @evaluateChangedIteration_spec F _ _ _ exact sound planned start
    predicted ⟨workspace, b.predicted, b.scratch⟩ nextB h.evaluated
    (takenB.queues.iteration.trans h.many_ready.iteration) takenB.length
    (fun u away => takenB.others u fun i member => away i (frontierB.symm ▸ member)) evaluatesB
  have evaluatedB' : EvaluatedAt ir start a.predicted nextB.workspace := moves.same ▸ evaluatedB
  have next : ∀ j, j ∈ nextA.scratch.nextFrontier ↔ j ∈ nextB.scratch.nextFrontier := by
    rw [scratchA, scratchB]
    exact moves.next
  refine ⟨evaluatedA.unique sound length evaluatedB', by rw [predictedA, predictedB, moves.same], ?_,
    predictedA.symm ▸ evaluatedA, ?_, ?_, fun j member _ => (next j).mp member,
    fun j member away => absurd ((next j).mpr member) away⟩
  · rw [Bool.eq_iff_iff, List.isEmpty_iff, List.isEmpty_iff, List.eq_nil_iff_forall_not_mem,
      List.eq_nil_iff_forall_not_mem]
    exact forall_congr' fun j => not_congr (next j)
  · rw [scratchA]
    exact ⟨rfl, takenA.queues.queued.small, takenA.queues.queued.below⟩
  · rw [scratchB]
    exact ⟨rfl, takenB.queues.queued.small, takenB.queues.queued.below⟩

/-- The two runs go through their rounds alike. -/
theorem Alike.runRounds (exact : F64.Exact F) (sound : context.ir.Sound) (planned : context.plan.Sound context.ir)
    (length : start.values.length = context.ir.valueProgram.valueCount) {rounds : Nat} {few many : DiscreteScratch F}
    (h : Alike context.plan context.ir start workspace predicted few many)
    {resultA resultB : ClosureOutcome × ClosureState F}
    (runA : context.runRounds rounds ⟨workspace, predicted, few⟩ = some resultA)
    (runB : context.runRounds rounds ⟨workspace, predicted, many⟩ = some resultB) : SameEnd resultA resultB := by
  induction rounds generalizing workspace predicted few many with
  | zero =>
    obtain rfl := Option.some.inj runA
    obtain rfl := Option.some.inj runB
    exact ⟨rfl, rfl⟩
  | succ rounds ih =>
    rw [DiscreteClosureContext.runRounds] at runA runB
    obtain ⟨blocked, barriers, runA⟩ := Option.bind_eq_some_iff.mp runA
    obtain ⟨blocked', barriers', runB⟩ := Option.bind_eq_some_iff.mp runB
    obtain rfl := Option.some.inj (barriers.symm.trans barriers')
    cases blocked with
    | true =>
      obtain rfl := Option.some.inj runA
      obtain rfl := Option.some.inj runB
      exact ⟨rfl, rfl⟩
    | false =>
      obtain ⟨⟨valid, outputs⟩, scan, runA⟩ := Option.bind_eq_some_iff.mp runA
      obtain ⟨⟨valid', outputs'⟩, scan', runB⟩ := Option.bind_eq_some_iff.mp runB
      obtain rfl := h.scans scan scan'
      cases valid with
      | false =>
        obtain rfl := Option.some.inj runA
        obtain rfl := Option.some.inj runB
        exact ⟨rfl, rfl⟩
      | true =>
        obtain ⟨a, updatesA, runA⟩ := Option.bind_eq_some_iff.mp runA
        obtain ⟨b, updatesB, runB⟩ := Option.bind_eq_some_iff.mp runB
        have readyA : ({ few with driverOutputs := outputs } : DiscreteScratch F).Ready context.plan :=
          ⟨h.few_ready.iteration, h.few_ready.small, h.few_ready.below⟩
        have readyB : ({ many with driverOutputs := outputs' } : DiscreteScratch F).Ready context.plan :=
          ⟨h.many_ready.iteration, h.many_ready.small, h.many_ready.below⟩
        have takenA := updateOutputs_spec exact planned readyA.begin rfl updatesA
        have takenB := updateOutputs_spec exact planned readyB.begin rfl updatesB
        have moves := h.updates scan scan' takenA takenB ⟨rfl, rfl, rfl⟩ ⟨rfl, rfl, rfl⟩
        rw [← moves.changed] at runB
        cases changed : a.changed with
        | false =>
          rw [changed] at runA runB
          obtain rfl := Option.some.inj runA
          obtain rfl := Option.some.inj runB
          exact ⟨rfl, moves.same⟩
        | true =>
          rw [changed] at runA runB
          obtain ⟨nextA, evaluatesA, runA⟩ := Option.bind_eq_some_iff.mp runA
          obtain ⟨nextB, evaluatesB, runB⟩ := Option.bind_eq_some_iff.mp runB
          have round := h.evaluates exact sound planned length takenA takenB moves evaluatesA evaluatesB
          rw [← round.empty] at runB
          split at runA
          · rename_i empty
            rw [if_pos empty] at runB
            exact settle_agrees round.workspace round.predicted runA runB
          · rename_i full
            rw [if_neg full] at runB
            refine ih round.alike runA ?_
            rw [round.workspace, round.predicted]
            exact runB

end Hynergy
