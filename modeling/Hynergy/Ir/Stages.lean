import Hynergy.Ir.Denotation

/-!
# Running the stages

After all three stages every slot holds the value of its expression; after a change of the faster
inputs only, the faster stages are enough.
-/

namespace Hynergy

open Lib

variable {F : Type} [F64 F]

open ValueOp (machine)

namespace ValueProgramBuilder

variable {self : ValueProgramBuilder F} {recorded : Recorded F}

/-- The values belong to the program, with its constants in place. -/
structure Fits (builder : ValueProgramBuilder F) (values : List F) : Prop where
  length : values.length = builder.slots.length
  constants : ∀ (i : Nat) info value, builder.slots[i]? = some info → info.constant = some value →
    values[i]? = some value

/-- Every slot of the rate holds what its operation computes. -/
def SettledAt (self : ValueProgramBuilder F) (rate : EvaluationRate) (values : List F) : Prop :=
  ∀ op ∈ self.opsOf rate, machine.Settled (readAt values) op

def IsInput (recorded : Recorded F) (slot : InputSlot) : Prop := (slot.value, ValueExpr.input slot) ∈ recorded

theorem Built.recorded_at (h : Built self recorded) {slot : ValueSlot} {e : ValueExpr F}
    (member : (slot, e) ∈ recorded) : recorded[slot.index]? = some (slot, e) := by
  obtain ⟨i, read⟩ := List.mem_iff_getElem?.mp member
  rwa [h.named i slot e read]

theorem Built.inRange (h : Built self recorded) {values : List F} (fits : Fits self values)
    {rate : EvaluationRate} : ∀ op ∈ self.opsOf rate, op.InRange values.length := by
  intro op member
  have ok := h.ops rate op member
  have inside : op.destination.index < values.length := fits.length ▸ (List.getElem?_eq_some_iff.mp ok.info).1
  exact ⟨inside, fun slot dep => (ok.operands slot dep).1.trans inside⟩

theorem Built.ordered (h : Built self recorded) (rate : EvaluationRate) :
    (machine (F := F)).Ordered (self.opsOf rate) := by
  have lower : ∀ op ∈ self.opsOf rate, ∀ i ∈ (machine (F := F)).reads op, i < op.destination.index := by
    intro op member i read
    obtain ⟨slot, dep, rfl⟩ := List.mem_map.mp read
    exact ((h.ops rate op member).operands slot dep).1
  refine ⟨fun op member read => Nat.lt_irrefl _ (lower op member _ read), ?_⟩
  refine (h.sorted rate).imp_of_mem fun {a b} ha _ before => ⟨fun read => ?_, Nat.ne_of_gt before⟩
  exact Nat.lt_asymm before (lower a ha _ read)

/-- The slots a faster operation writes are neither read nor written by a slower one. -/
theorem Built.apart (h : Built self recorded) {slow fast : EvaluationRate}
    (slower : slow.discriminant < fast.discriminant) {op other : ValueOp} (member : op ∈ self.opsOf slow)
    (member' : other ∈ self.opsOf fast) : (machine (F := F)).dest other ∉ (machine (F := F)).reads op ∧
      (machine (F := F)).dest other ≠ (machine (F := F)).dest op := by
  have info := (h.ops fast other member').info
  constructor
  · intro read
    obtain ⟨slot, dep, same⟩ := List.mem_map.mp read
    obtain ⟨-, there, read', bound⟩ := (h.ops slow op member).operands slot dep
    rw [show slot.index = other.destination.index from same, info] at read'
    obtain rfl := Option.some.inj read'
    exact Nat.lt_irrefl _ (bound.trans_lt slower)
  · intro same
    have info' := (h.ops slow op member).info
    rw [← show other.destination.index = op.destination.index from same, info] at info'
    have := congrArg SlotInfo.rate (Option.some.inj info')
    dsimp only at this
    rw [this] at slower
    exact Nat.lt_irrefl _ slower

theorem Built.dest_ne_input (h : Built self recorded) {rate : EvaluationRate} {op : ValueOp}
    (member : op ∈ self.opsOf rate) {slot : InputSlot} (isInput : IsInput recorded slot) :
    op.destination.index ≠ slot.index := by
  intro same
  obtain ⟨e, read, expr⟩ := (h.ops rate op member).recorded
  have there := h.recorded_at isInput
  rw [show slot.value.index = slot.index from rfl, ← same, read] at there
  obtain ⟨-, rfl⟩ := Prod.mk.inj (Option.some.inj there)
  cases op with
  | binary op destination lhs rhs =>
    obtain ⟨l, -, expr⟩ := Option.bind_eq_some_iff.mp expr
    obtain ⟨r, -, expr⟩ := Option.bind_eq_some_iff.mp expr
    simp at expr
  | neg destination operand =>
    obtain ⟨o, -, expr⟩ := Option.map_eq_some_iff.mp expr
    simp at expr

/-- One stage. -/
theorem Built.stage (h : Built self recorded) {values : List F} (fits : Fits self values) (rate : EvaluationRate) :
    ∃ next, executeOps (self.opsOf rate) values = some next ∧ Fits self next ∧ SettledAt self rate next ∧
      (∀ slow, slow.discriminant < rate.discriminant → SettledAt self slow values → SettledAt self slow next) ∧
      ∀ slot : InputSlot, IsInput recorded slot → next[slot.index]? = values[slot.index]? := by
  obtain ⟨next, run, length, read⟩ := executeOps_spec (h.inRange fits)
  have off : ∀ i : Nat, (∀ op ∈ self.opsOf rate, op.destination.index ≠ i) → next[i]? = values[i]? := by
    intro i away
    have := congrFun read i
    rw [Machine.run_off away] at this
    exact this
  refine ⟨next, run, ⟨length.trans fits.length, fun i info value known constant' => ?_⟩, fun op member => ?_,
    fun slow slower settled op member => ?_, fun slot isInput => off _ fun op member => h.dest_ne_input member isInput⟩
  · rw [off i fun op member same => ?_, fits.constants i info value known constant']
    rw [← same, (h.ops rate op member).info] at known
    rw [← Option.some.inj known] at constant'
    simp at constant'
  · rw [read]
    exact Machine.run_settled (h.ordered rate) op member
  · rw [read]
    exact (settled op member).run fun other member' => h.apart slower member member'

/-- Settled values are the values of the expressions. -/
theorem Built.denotes (h : Built self recorded) {values : List F} (fits : Fits self values)
    (settled : ∀ rate, SettledAt self rate values) {inputs : InputSlot → F}
    (given : ∀ slot : InputSlot, IsInput recorded slot → values[slot.index]? = some (inputs slot)) :
    ∀ (slot : ValueSlot) (e : ValueExpr F), (slot, e) ∈ recorded → values[slot.index]? = some (e.eval inputs) := by
  suffices ∀ (n : Nat) (slot : ValueSlot) (e : ValueExpr F), slot.index = n → recorded[slot.index]? = some (slot, e) →
      values[slot.index]? = some (e.eval inputs) from
    fun slot e member => this _ slot e rfl (h.recorded_at member)
  intro n
  induction n using Nat.strong_induction_on with
  | _ n ih =>
    rintro slot e rfl read
    have inside : slot.index < self.slots.length := h.count ▸ (List.getElem?_eq_some_iff.mp read).1
    have known := List.getElem?_eq_getElem inside
    cases h.slots _ _ _ _ known read with
    | constant is initial folded =>
      rw [fits.constants _ _ _ known (by rw [is]), folded]
    | input varies unknown is =>
      have isInput : IsInput recorded ⟨slot.index⟩ := by
        rw [IsInput, ← is]
        exact List.mem_of_getElem? read
      rw [is, given _ isInput]
      rfl
    | computed member unknown here =>
      rename_i op
      obtain ⟨e', read', expr⟩ := (h.ops _ op member).recorded
      rw [here, read] at read'
      obtain ⟨rfl, rfl⟩ := Prod.mk.inj (Option.some.inj read')
      have now := settled _ op member
      rw [Machine.Settled, show machine.dest op = op.destination.index from rfl, here] at now
      have operand : ∀ source ∈ op.dependencies, ∀ x, recorded.lookup source = some x →
          values[source.index]? = some (x.eval inputs) := by
        intro source dep x found
        exact ih source.index (here ▸ ((h.ops _ op member).operands source dep).1) source x rfl
          ((Recorded.lookup_eq_some h.named).mp found)
      refine now.trans ?_
      cases op with
      | binary op destination lhs rhs =>
        obtain ⟨l, foundL, expr⟩ := Option.bind_eq_some_iff.mp expr
        obtain ⟨r, foundR, expr⟩ := Option.bind_eq_some_iff.mp expr
        obtain rfl := Option.some.inj expr
        simp only [machine, readAt, operand lhs (by simp [ValueOp.dependencies]) l foundL,
          operand rhs (by simp [ValueOp.dependencies]) r foundR, Option.bind_some, Option.map_some, ValueExpr.eval]
      | neg destination source =>
        obtain ⟨o, found, rfl⟩ := Option.map_eq_some_iff.mp expr
        simp only [machine, readAt, operand source (by simp [ValueOp.dependencies]) o found, Option.map_some,
          ValueExpr.eval]

/-! ### Inputs -/

/-- `set_input` for each change. -/
def setInputs (changes : List (InputSlot × F)) (workspace : ValueWorkspace F) : Option (ValueWorkspace F) :=
  changes.foldlM (fun workspace change => workspace.setInput change.1 change.2) workspace

/-- Setting inputs leaves the slower stages settled. -/
theorem Built.setInputs_spec (h : Built self recorded) (changes : List (InputSlot × F)) {workspace : ValueWorkspace F}
    (fits : Fits self workspace.values) (inputs : ∀ change ∈ changes, IsInput recorded change.1) :
    ∃ next, ValueProgramBuilder.setInputs changes workspace = some next ∧ Fits self next.values ∧
      ∀ rate : EvaluationRate, (∀ change ∈ changes, ∃ info, self.slots[change.1.index]? = some info ∧
        rate.discriminant < info.rate.discriminant) →
        SettledAt self rate workspace.values → SettledAt self rate next.values := by
  induction changes generalizing workspace with
  | nil => exact ⟨workspace, rfl, fits, fun _ _ settled => settled⟩
  | cons change changes ih =>
    have isInput := inputs change List.mem_cons_self
    have read := h.recorded_at isInput
    have inside : change.1.index < self.slots.length := h.count ▸ (List.getElem?_eq_some_iff.mp read).1
    have here : change.1.index < workspace.values.length := fits.length ▸ inside
    have fits' : Fits self (workspace.values.set change.1.index change.2) := by
      refine ⟨by rw [List.length_set, fits.length], fun i info value known constant' => ?_⟩
      by_cases same : i = change.1.index
      · subst same
        have ok := h.slots _ _ _ _ known read
        rw [List.getElem?_set_self here, ← ok.folded constant' fun _ => change.2]
        rfl
      · rw [List.getElem?_set_ne (Ne.symm same), fits.constants i info value known constant']
    obtain ⟨next, run, fits'', kept⟩ := @ih ⟨workspace.values.set change.1.index change.2⟩ fits'
      fun other member => inputs other (List.mem_cons_of_mem _ member)
    refine ⟨next, ?_, fits'', fun rate faster settled => kept rate
      (fun other member => faster other (List.mem_cons_of_mem _ member)) fun op member => ?_⟩
    · rw [ValueProgramBuilder.setInputs, List.foldlM_cons, ValueWorkspace.setInput, if_pos here]
      exact run
    · obtain ⟨info, known, fast⟩ := faster change List.mem_cons_self
      rw [readAt_set here]
      refine (settled op member).congr (fun i dep => Function.update_of_ne ?_ _ _) (Function.update_of_ne ?_ _ _)
      · rintro rfl
        obtain ⟨slot, dep, same⟩ := List.mem_map.mp dep
        obtain ⟨-, there, read', bound⟩ := (h.ops rate op member).operands slot dep
        rw [show slot.index = change.1.index from same, known] at read'
        obtain rfl := Option.some.inj read'
        omega
      · exact h.dest_ne_input member isInput

/-- The inputs after the changes. -/
def changed (changes : List (InputSlot × F)) (inputs : InputSlot → F) : InputSlot → F :=
  changes.foldl (fun inputs change => Function.update inputs change.1 change.2) inputs

/-- The input slots hold the inputs. -/
def Given (recorded : Recorded F) (inputs : InputSlot → F) (values : List F) : Prop :=
  ∀ slot : InputSlot, IsInput recorded slot → values[slot.index]? = some (inputs slot)

omit [F64 F] in
theorem setInputs_given {changes : List (InputSlot × F)} {workspace next : ValueWorkspace F}
    {inputs : InputSlot → F} (run : setInputs changes workspace = some next)
    (given : Given recorded inputs workspace.values) : Given recorded (changed changes inputs) next.values := by
  induction changes generalizing workspace inputs with
  | nil =>
    obtain rfl := Option.some.inj run
    exact given
  | cons change changes ih =>
    obtain ⟨mid, set, rest⟩ := Option.bind_eq_some_iff.mp run
    refine ih rest fun slot isInput => ?_
    dsimp only [ValueWorkspace.setInput] at set
    split at set
    · rename_i inside
      obtain rfl := Option.some.inj set
      dsimp only
      by_cases here : slot = change.1
      · subst here
        rw [Function.update_self, List.getElem?_set_self inside]
      · rw [Function.update_of_ne here, ← given slot isInput]
        exact List.getElem?_set_ne fun same => here (InputSlot.ext same.symm)
    · exact absurd set nofun

/-! ### Workspaces -/

/-- A workspace of the program: new, or with inputs set and stages run. -/
inductive Used (builder : ValueProgramBuilder F) (recorded : Recorded F) : ValueWorkspace F → Prop
  | new : Used builder recorded builder.finish.newWorkspace
  | set {workspace next : ValueWorkspace F} {slot : InputSlot} {value : F}
      (before : Used builder recorded workspace) (isInput : IsInput recorded slot)
      (run : workspace.setInput slot value = some next) : Used builder recorded next
  | ran {workspace next : ValueWorkspace F} {rate : EvaluationRate} (before : Used builder recorded workspace)
      (run : builder.finish.execute (builder.opsOf rate) workspace = some next) : Used builder recorded next

/-- Every slot handed out holds the value of its expression. -/
def Denotes (recorded : Recorded F) (inputs : InputSlot → F) (workspace : ValueWorkspace F) : Prop :=
  ∀ slot e, (slot, e) ∈ recorded → workspace.value slot = some (e.eval inputs)

theorem Built.fits_new (h : Built self recorded) : Fits self self.initialValues := by
  refine ⟨h.initial, fun i info value known constant' => ?_⟩
  have inside : i < recorded.length := h.count ▸ (List.getElem?_eq_some_iff.mp known).1
  cases h.slots i info _ _ known (List.getElem?_eq_getElem inside) with
  | constant is initial folded =>
    rw [initial]
    rw [is] at constant'
    exact constant'
  | input varies unknown is => simp [unknown] at constant'
  | computed member unknown here => simp [unknown] at constant'

theorem Built.execute_spec (h : Built self recorded) {workspace : ValueWorkspace F} (fits : Fits self workspace.values)
    (rate : EvaluationRate) : ∃ next, self.finish.execute (self.opsOf rate) workspace = some next ∧
      Fits self next.values ∧ SettledAt self rate next.values ∧
      (∀ slow : EvaluationRate, slow.discriminant < rate.discriminant →
        SettledAt self slow workspace.values → SettledAt self slow next.values) ∧
      ∀ inputs, Given recorded inputs workspace.values → Given recorded inputs next.values := by
  obtain ⟨values, run, fits', settled, slower, inputs⟩ := h.stage fits rate
  refine ⟨⟨values⟩, ?_, fits', settled, slower, fun given holds slot isInput => ?_⟩
  · have belongs : workspace.values.length = self.finish.initialValues.length := fits.length.trans h.initial.symm
    rw [ValueProgram.execute, if_pos belongs, run]
    rfl
  · exact (inputs slot isInput).trans (holds slot isInput)

theorem Built.used_fits (h : Built self recorded) {workspace : ValueWorkspace F}
    (used : Used self recorded workspace) : Fits self workspace.values := by
  induction used with
  | new => exact h.fits_new
  | @set workspace next slot value before isInput run ih =>
    obtain ⟨next', run', fits, -⟩ := h.setInputs_spec [(slot, value)] ih fun change member => by
      obtain rfl := List.mem_singleton.mp member
      exact isInput
    rw [setInputs, List.foldlM_cons, bind_of_eq_some run] at run'
    obtain rfl := Option.some.inj run'
    exact fits
  | @ran workspace next rate before run ih =>
    obtain ⟨next', run', fits, -⟩ := h.execute_spec ih rate
    obtain rfl := Option.some.inj (run.symm.trans run')
    exact fits

/-- Where every slot holds its value, every stage is settled. -/
theorem Built.settled_of_denotes (h : Built self recorded) {inputs : InputSlot → F}
    {workspace : ValueWorkspace F} (denotes : Denotes recorded inputs workspace) (rate : EvaluationRate) :
    SettledAt self rate workspace.values := by
  intro op member
  obtain ⟨e, read, expr⟩ := (h.ops rate op member).recorded
  have here := denotes _ e (List.mem_of_getElem? read)
  have operand : ∀ (source : ValueSlot) x, recorded.lookup source = some x →
      workspace.values[source.index]? = some (x.eval inputs) := fun source x found =>
    denotes source x (List.mem_of_getElem? ((Recorded.lookup_eq_some h.named).mp found))
  refine Eq.trans here ?_
  cases op with
  | binary op destination lhs rhs =>
    obtain ⟨l, foundL, expr⟩ := Option.bind_eq_some_iff.mp expr
    obtain ⟨r, foundR, expr⟩ := Option.bind_eq_some_iff.mp expr
    obtain rfl := Option.some.inj expr
    simp only [machine, readAt, operand lhs l foundL, operand rhs r foundR, Option.bind_some, Option.map_some,
      ValueExpr.eval]
  | neg destination source =>
    obtain ⟨o, found, rfl⟩ := Option.map_eq_some_iff.mp expr
    simp only [machine, readAt, operand source o found, Option.map_some, ValueExpr.eval]

theorem Built.given_of_denotes {inputs : InputSlot → F} {workspace : ValueWorkspace F}
    (denotes : Denotes recorded inputs workspace) : Given recorded inputs workspace.values :=
  fun _ isInput => denotes _ _ isInput

/-- No operation is of the constant rate. -/
theorem settled_constant (values : List F) : SettledAt self .constant values := by
  intro op member
  simp [opsOf] at member

end ValueProgramBuilder

open ValueProgramBuilder in
/-- After any calls on the builder, in any workspace: setting inputs and running the three stages
leaves every slot with the value of the expression it was built for; where that holds, setting
faster inputs and running the faster stages restores it. -/
theorem BuilderCall.program_denotes (calls : List (BuilderCall F)) :
    ∃ builder recorded, BuilderCall.applyAll {} [] calls = some (builder, recorded) ∧
      ∀ workspace, Used builder recorded workspace → ∀ inputs changes,
        (∀ change ∈ changes, IsInput recorded change.1) →
        (Given recorded inputs workspace.values →
          ∃ set first second third, setInputs changes workspace = some set ∧
            builder.finish.executeStatic set = some first ∧ builder.finish.executeTick first = some second ∧
            builder.finish.executeIteration second = some third ∧
            Denotes recorded (changed changes inputs) third) ∧
        (Denotes recorded inputs workspace →
          ((∀ change ∈ changes, rate change.1.value builder = .ok .tick builder ∨
              rate change.1.value builder = .ok .iteration builder) →
            ∃ set first second, setInputs changes workspace = some set ∧
              builder.finish.executeTick set = some first ∧ builder.finish.executeIteration first = some second ∧
              Denotes recorded (changed changes inputs) second) ∧
          ((∀ change ∈ changes, rate change.1.value builder = .ok .iteration builder) →
            ∃ set first, setInputs changes workspace = some set ∧
              builder.finish.executeIteration set = some first ∧
              Denotes recorded (changed changes inputs) first)) := by
  obtain ⟨builder, recorded, run, h⟩ := applyAll_built calls Built.empty
  refine ⟨builder, recorded, run, fun workspace used inputs changes isInput => ?_⟩
  have fits := h.used_fits used
  obtain ⟨set, setRun, fitsSet, kept⟩ := h.setInputs_spec changes fits isInput
  have rateOf : ∀ {slot : ValueSlot} {r}, rate slot builder = .ok r builder →
      ∃ info, builder.slots[slot.index]? = some info ∧ info.rate = r := by
    intro slot r is
    rcases @slotInfo_cases F builder slot with ⟨-, failed⟩ | ⟨info, known, found⟩
    · rw [rate, Call.bind_err failed] at is
      exact absurd is nofun
    · rw [rate, Call.bind_ok found] at is
      exact ⟨info, known, (Outcome.ok.inj is).1⟩
  have iteration : ∀ {before : ValueWorkspace F}, Fits builder before.values → SettledAt builder .static before.values →
      SettledAt builder .tick before.values → Given recorded (changed changes inputs) before.values →
      ∃ last, builder.finish.executeIteration before = some last ∧
        Denotes recorded (changed changes inputs) last := by
    intro before fits' static tick given
    obtain ⟨last, lastRun, fitsLast, settled, slower, keeps⟩ := h.execute_spec fits' .iteration
    refine ⟨last, lastRun, h.denotes fitsLast (fun rate => ?_) (keeps _ given)⟩
    cases rate with
    | constant => exact settled_constant _
    | static => exact slower .static (by decide) static
    | tick => exact slower .tick (by decide) tick
    | iteration => exact settled
  refine ⟨fun given => ?_, fun denotes => ⟨fun faster => ?_, fun faster => ?_⟩⟩
  · obtain ⟨first, firstRun, fits1, settled1, -, keeps1⟩ := h.execute_spec fitsSet .static
    obtain ⟨second, secondRun, fits2, settled2, slower2, keeps2⟩ := h.execute_spec fits1 .tick
    obtain ⟨third, thirdRun, done⟩ := iteration fits2 (slower2 .static (by decide) settled1) settled2
      (keeps2 _ (keeps1 _ (setInputs_given setRun given)))
    exact ⟨set, first, second, third, setRun, firstRun, secondRun, thirdRun, done⟩
  · obtain ⟨first, firstRun, fits1, settled1, slower1, keeps1⟩ := h.execute_spec fitsSet .tick
    have static : SettledAt builder .static set.values :=
      kept .static (fun change member => by
        rcases faster change member with is | is
        · obtain ⟨info, known, rate⟩ := rateOf is
          exact ⟨info, known, by rw [rate]; decide⟩
        · obtain ⟨info, known, rate⟩ := rateOf is
          exact ⟨info, known, by rw [rate]; decide⟩) (h.settled_of_denotes denotes .static)
    obtain ⟨second, secondRun, done⟩ := iteration fits1 (slower1 .static (by decide) static) settled1
      (keeps1 _ (setInputs_given setRun (Built.given_of_denotes denotes)))
    exact ⟨set, first, second, setRun, firstRun, secondRun, done⟩
  · have slow : ∀ slow : EvaluationRate, slow.discriminant < EvaluationRate.iteration.discriminant →
        SettledAt builder slow set.values := by
      intro slow slower
      refine kept slow (fun change member => ?_) (h.settled_of_denotes denotes slow)
      obtain ⟨info, known, rate⟩ := rateOf (faster change member)
      exact ⟨info, known, by rw [rate]; exact slower⟩
    obtain ⟨first, firstRun, done⟩ := iteration fitsSet (slow .static (by decide)) (slow .tick (by decide))
      (setInputs_given setRun (Built.given_of_denotes denotes))
    exact ⟨set, first, setRun, firstRun, done⟩

end Hynergy
