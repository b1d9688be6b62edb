import Hynergy.Compile.IslandIr
import Hynergy.Model.CallRules

/-!
# The solution inputs of an island

Whatever calls build the IR, its unknowns have inputs of their own, in ascending order, and no
operation of the program writes one.
-/

namespace Hynergy

open Lib ValueProgramBuilder

variable {F : Type}

/-! ### Entries by key -/

section Entries

variable {κ α : Type} {index : κ → Nat} {key : κ} {value : α} {entries : List (κ × α)}

theorem insertByKey_perm : (insertByKey index key value entries).Perm ((key, value) :: entries) := by
  have perm := @List.perm_middle _ (key, value) (entries.takeWhile fun entry => decide (index entry.1 < index key))
    (entries.dropWhile fun entry => decide (index entry.1 < index key))
  rwa [List.takeWhile_append_dropWhile] at perm

theorem insertByKey_cons {first : κ × α} : insertByKey index key value (first :: entries) =
    if index first.1 < index key then first :: insertByKey index key value entries
    else (key, value) :: first :: entries := by
  unfold insertByKey
  rw [List.takeWhile_cons, List.dropWhile_cons]
  by_cases lower : index first.1 < index key <;> simp [lower]

theorem insertByKey_ascending (ascending : entries.Pairwise fun a b => index a.1 < index b.1)
    (fresh : ∀ entry ∈ entries, index entry.1 ≠ index key) :
    (insertByKey index key value entries).Pairwise fun a b => index a.1 < index b.1 := by
  induction entries with
  | nil => exact List.pairwise_singleton _ _
  | cons first entries ih =>
    obtain ⟨above, ascending'⟩ := List.pairwise_cons.mp ascending
    rw [insertByKey_cons]
    split
    · rename_i lower
      refine List.pairwise_cons.mpr ⟨fun entry member => ?_,
        ih ascending' fun entry member => fresh entry (List.mem_cons_of_mem _ member)⟩
      rcases List.mem_cons.mp (insertByKey_perm.mem_iff.mp member) with rfl | there
      · exact lower
      · exact above entry there
    · rename_i higher
      have next := fresh first List.mem_cons_self
      refine List.pairwise_cons.mpr ⟨fun entry member => ?_, ascending⟩
      have here : index key < index first.1 := by omega
      rcases List.mem_cons.mp member with rfl | there
      · exact here
      · exact here.trans (above entry there)

variable [DecidableEq κ]

theorem getByKey_eq_none : getByKey key entries = none ↔ ∀ entry ∈ entries, entry.1 ≠ key := by
  rw [getByKey, Option.map_eq_none_iff, List.find?_eq_none]
  simp

theorem getByKey_mem {found : α} (read : getByKey key entries = some found) : (key, found) ∈ entries := by
  obtain ⟨entry, there, rfl⟩ := Option.map_eq_some_iff.mp read
  obtain rfl := of_decide_eq_true (List.find?_some there :)
  exact List.mem_of_find?_eq_some there

end Entries

/-! ### Building -/

section Build

variable [F64 F]

/-- What a call on the values does: it appends a slot, or leaves the values as they are. -/
def Grows {α : Type} (values : ValueProgramBuilder F) (recorded : Recorded F)
    (outcome : Outcome (ValueProgramBuilder F) ValueBuildError α) : Prop :=
  (∃ a next entry, outcome = .ok a next ∧ Built next (recorded ++ [entry])) ∨ (∃ a, outcome = .ok a values) ∨
    ∃ error, outcome = .err error values

variable {values : ValueProgramBuilder F} {recorded : Recorded F}

theorem call_grows (h : Built values recorded) (call : BuilderCall F) : Grows values recorded (call.apply values) := by
  rcases call_answers h call with ⟨slot, next, e, run, -, built⟩ | failed
  · exact Or.inl ⟨slot, next, _, run, built⟩
  · exact Or.inr (Or.inr failed)

theorem input_grows (h : Built values recorded) {rate : EvaluationRate} (varies : rate ≠ .constant) :
    (∃ next, input rate values = .ok ⟨values.slots.length⟩ next ∧
      Built next (recorded ++ [(⟨values.slots.length⟩, .input ⟨values.slots.length⟩)])) ∨
      ∃ error, input rate values = .err error values := by
  rcases @allocateSlot_cases F values ⟨rate, none⟩ F64.zero with full | run
  · exact Or.inr ⟨_, Call.bind_err full⟩
  · refine Or.inl ⟨_, Call.bind_ok run, h.push none rfl rfl (fun other => ?_)
      (fun _ => Or.inr ⟨varies, rfl, rfl⟩) fun o isOp => by simp at isOp⟩
    cases other <;> simp [opsOf]

theorem rate_grows (slot : ValueSlot) : Grows values recorded (rate slot values) := by
  rcases @slotInfo_cases F values slot with ⟨-, unknown⟩ | ⟨info, -, known⟩
  · exact Or.inr (Or.inr ⟨_, Call.bind_err unknown⟩)
  · exact Or.inr (Or.inl ⟨info.rate, Call.bind_ok known⟩)

namespace IslandIrBuilder

variable {self : IslandIrBuilder F}

/-- The unknowns have inputs of their own, in ascending order. -/
structure Indexed (recorded : Recorded F) (inputs : List (UnknownIndex × InputSlot)) : Prop where
  ascending : inputs.Pairwise fun a b => a.1.index < b.1.index
  isInput : ∀ entry ∈ inputs, IsInput recorded entry.2
  distinct : (inputs.map Prod.snd).Nodup

def Sound (self : IslandIrBuilder F) : Prop :=
  ∃ recorded, Built self.values recorded ∧ Indexed recorded self.solutionInputs

omit [F64 F] in
theorem Indexed.grown {inputs : List (UnknownIndex × InputSlot)} (h : Indexed recorded inputs)
    (entry : ValueSlot × ValueExpr F) : Indexed (recorded ++ [entry]) inputs :=
  ⟨h.ascending, fun other member => List.mem_append_left _ (h.isInput other member), h.distinct⟩

/-- An unknown that has no input is given the slot just appended. -/
theorem Indexed.insert {inputs : List (UnknownIndex × InputSlot)} (h : Indexed recorded inputs)
    (built : Built values recorded) {unknown : UnknownIndex} (fresh : getByKey unknown inputs = none) :
    Indexed (recorded ++ [((⟨values.slots.length⟩ : ValueSlot), ValueExpr.input ⟨values.slots.length⟩)])
      (insertByKey UnknownIndex.index unknown ⟨values.slots.length⟩ inputs) := by
  have perm := @insertByKey_perm _ _ UnknownIndex.index unknown (⟨values.slots.length⟩ : InputSlot) inputs
  refine ⟨insertByKey_ascending h.ascending fun entry member same => ?_, fun entry member => ?_, ?_⟩
  · refine getByKey_eq_none.mp fresh entry member ?_
    obtain ⟨⟨i⟩, slot⟩ := entry
    obtain ⟨j⟩ := unknown
    exact congrArg UnknownIndex.mk same
  · rcases List.mem_cons.mp (perm.mem_iff.mp member) with rfl | there
    · exact List.mem_append_right _ (List.mem_singleton.mpr rfl)
    · exact List.mem_append_left _ (h.isInput entry there)
  · refine (perm.map Prod.snd).nodup_iff.mpr (List.nodup_cons.mpr ⟨fun there => ?_, h.distinct⟩)
    obtain ⟨entry, member, same⟩ := List.mem_map.mp there
    have read := built.recorded_at (h.isInput entry member)
    have inside := (List.getElem?_eq_some_iff.mp read).1
    rw [built.count, show entry.2.value.index = values.slots.length from congrArg InputSlot.index same] at inside
    exact Nat.lt_irrefl _ inside

theorem onValues_preserves {α : Type} {call : ValueProgramBuilder.Build F α}
    (grows : ∀ (values : ValueProgramBuilder F) recorded, Built values recorded → Grows values recorded (call values)) :
    Call.Preserves Sound (onValues call) := by
  refine Call.Preserves.zoom fun state holds => ?_
  obtain ⟨recorded, built, indexed⟩ := holds
  rcases grows _ _ built with ⟨a, next, entry, run, built'⟩ | ⟨a, run⟩ | ⟨error, run⟩
  · exact .of_ok run ⟨_, built', indexed.grown entry⟩
  · exact .of_ok run ⟨recorded, built, indexed⟩
  · exact .of_err run ⟨recorded, built, indexed⟩

theorem input_preserves {rate : EvaluationRate} (varies : rate ≠ .constant) :
    Call.Preserves (@Sound F _) (onValues (ValueProgramBuilder.input rate)) := by
  refine onValues_preserves fun values recorded built => ?_
  rcases input_grows built varies with ⟨next, run, built'⟩ | failed
  · exact Or.inl ⟨_, next, _, run, built'⟩
  · exact Or.inr (Or.inr failed)

theorem rate_preserves (slot : ValueSlot) :
    Call.Preserves (@Sound F _) (onValues (ValueProgramBuilder.rate slot)) :=
  onValues_preserves fun _ _ _ => rate_grows slot

/-- A change of the other fields. -/
theorem modify_preserves {f : IslandIrBuilder F → IslandIrBuilder F} (values : ∀ builder, (f builder).values = builder.values)
    (inputs : ∀ builder, (f builder).solutionInputs = builder.solutionInputs) :
    Call.Preserves Sound (Call.modify f : Build F Unit) := by
  refine Call.Preserves.modify fun builder sound => ?_
  obtain ⟨recorded, built, indexed⟩ := sound
  exact ⟨recorded, (values builder).symm ▸ built, (inputs builder).symm ▸ indexed⟩

theorem markMatrixStaticInput_preserves (input : InputSlot) :
    Call.Preserves (@Sound F _) (markMatrixStaticInput input) :=
  modify_preserves (fun _ => rfl) fun _ => rfl

theorem recordIterationStampDependency_preserves (source : ValueSlot) (affectsMatrix : Bool) :
    Call.Preserves (@Sound F _) (recordIterationStampDependency source affectsMatrix) := by
  have known : Call.Preserves (@Sound F _)
      (Call.expectOk (ε := ValueBuildError) (onValues (ValueProgramBuilder.rate source))) := by
    intro builder sound
    have kept := rate_preserves source builder sound
    unfold Call.expectOk
    cases run : onValues (ValueProgramBuilder.rate source) builder with
    | ok value after =>
      rw [run] at kept
      exact kept
    | err error after => exact trivial
    | panic => exact trivial
  refine known.bind fun rate => ?_
  split
  · exact modify_preserves (fun _ => rfl) fun _ => rfl
  · exact .pure _

theorem timestepValue_preserves (affectsMatrix : Bool) :
    Call.Preserves (@Sound F _) (timestepValue affectsMatrix) := by
  refine .get_bind fun builder _ => ?_
  split
  · split
    · exact (markMatrixStaticInput_preserves _).bind fun _ => .pure _
    · exact .pure _
  · refine (input_preserves (by decide)).bind fun input => ?_
    refine Call.Preserves.bind (modify_preserves (fun _ => rfl) fun _ => rfl) fun _ => ?_
    split
    · exact (markMatrixStaticInput_preserves _).bind fun _ => .pure _
    · exact .pure _

theorem stateValue_preserves (state : StateSlot) : Call.Preserves (@Sound F _) (stateValue state) := by
  refine .get_bind fun builder _ => ?_
  split
  · exact .pure _
  · refine (input_preserves (by decide)).bind fun input => ?_
    exact Call.Preserves.bind (modify_preserves (fun _ => rfl) fun _ => rfl) fun _ => .pure _

theorem referenceValue_preserves : Call.Preserves (@Sound F _) referenceValue := by
  refine .get_bind fun builder _ => ?_
  split
  · exact .pure _
  · refine (onValues_preserves fun _ _ built => call_grows built (.constant F64.zero)).bind fun value => ?_
    exact Call.Preserves.bind (modify_preserves (fun _ => rfl) fun _ => rfl) fun _ => .pure _

theorem unknownValue_preserves (unknown : Option UnknownIndex) :
    Call.Preserves (@Sound F _) (unknownValue unknown) := by
  cases unknown with
  | none => exact referenceValue_preserves
  | some unknown =>
    intro builder sound
    obtain ⟨recorded, built, indexed⟩ := sound
    unfold unknownValue
    dsimp only
    rw [Call.get_bind]
    cases fresh : getByKey unknown builder.solutionInputs with
    | some input => exact ⟨recorded, built, indexed⟩
    | none =>
      rcases @input_grows F _ _ _ built .iteration (by decide) with ⟨next, run, built'⟩ | ⟨error, run⟩
      · have ran : onValues iterationInput builder = .ok ⟨builder.values.slots.length⟩ { builder with values := next } :=
          Call.zoom_ok run
        exact .of_ok ((Call.bind_ok ran).trans rfl) ⟨_, built', indexed.insert built fresh⟩
      · have failed : onValues iterationInput builder = .err error builder := Call.zoom_err run
        exact .of_err (Call.bind_err failed) ⟨recorded, built, indexed⟩

theorem updateIterationLatch_preserves (latch update : ValueSlot) :
    Call.Preserves (@Sound F _) (updateIterationLatch latch update) := by
  refine .get_bind fun builder sound => ?_
  refine (Call.Preserves.expect _).bind fun index => ?_
  refine (Call.Preserves.expect _).bind fun pending => ?_
  refine Call.Preserves.bind (fun state holds => ?_) fun _ => .set sound
  unfold Call.assert
  split
  · exact holds
  · exact trivial

end IslandIrBuilder

open IslandIrBuilder

theorem IslandIrCall.preserves (call : IslandIrCall F) : Call.Preserves (@Sound F _) call.apply := by
  cases call with
  | iterationLatch initial =>
    refine Call.Preserves.bind ?_ fun _ => .pure _
    refine (rate_preserves initial).bind fun _ => (input_preserves (by decide)).bind fun input => ?_
    exact Call.Preserves.bind (modify_preserves (fun _ => rfl) fun _ => rfl) fun _ => .pure _
  | updateIterationLatch latch update => exact updateIterationLatch_preserves latch update
  | parameterInput affectsMatrix =>
    refine Call.Preserves.bind ?_ fun _ => .pure _
    refine (input_preserves (by decide)).bind fun input => ?_
    split
    · exact (markMatrixStaticInput_preserves _).bind fun _ => .pure _
    · exact .pure _
  | constantValue value =>
    exact (onValues_preserves fun _ _ built => call_grows built (.constant value)).bind fun _ => .pure _
  | timestepValue affectsMatrix => exact (timestepValue_preserves affectsMatrix).bind fun _ => .pure _
  | stateValue state => exact (stateValue_preserves state).bind fun _ => .pure _
  | unknownValue unknown => exact (unknownValue_preserves unknown).bind fun _ => .pure _
  | binaryValue op lhs rhs =>
    exact (onValues_preserves fun _ _ built => call_grows built (.binary op lhs rhs)).bind fun _ => .pure _
  | negValue operand =>
    exact (onValues_preserves fun _ _ built => call_grows built (.neg operand)).bind fun _ => .pure _
  | addMatrix destination source scale =>
    exact (recordIterationStampDependency_preserves source true).bind fun _ =>
      modify_preserves (fun _ => rfl) fun _ => rfl
  | addRhs destination source scale =>
    exact (recordIterationStampDependency_preserves source false).bind fun _ =>
      modify_preserves (fun _ => rfl) fun _ => rfl
  | writeState destination source => exact modify_preserves (fun _ => rfl) fun _ => rfl
  | requireIterationStability value => exact modify_preserves (fun _ => rfl) fun _ => rfl

theorem IslandIrCall.applyAll_sound {calls : List (IslandIrCall F)} {self builder : IslandIrBuilder F}
    (sound : self.Sound) (run : IslandIrCall.applyAll self calls = some builder) : builder.Sound := by
  induction calls generalizing self with
  | nil =>
    obtain rfl := Option.some.inj run
    exact sound
  | cons call calls ih =>
    have kept := call.preserves self sound
    rw [applyAll] at run
    cases outcome : call.apply self with
    | ok value next =>
      rw [outcome] at run kept
      exact ih kept run
    | err error next =>
      rw [outcome] at run kept
      exact ih kept run
    | panic =>
      rw [outcome] at run
      cases run

theorem IslandIrBuilder.sound_new : ({} : IslandIrBuilder F).Sound :=
  ⟨[], Built.empty, List.Pairwise.nil, fun _ member => by simp at member, List.nodup_nil⟩

/-! ### The compiled IR -/

/-- The iteration operations are in order, and none writes a solution input. -/
structure CompiledIslandIr.Sound (ir : CompiledIslandIr F) : Prop where
  straight : ir.valueProgram.Straight
  ascending : ir.solutionInputs.Pairwise fun a b => a.1.index < b.1.index
  distinct : (ir.solutionInputs.map Prod.snd).Nodup
  known : ∀ entry ∈ ir.solutionInputs, entry.2.index < ir.valueProgram.valueCount
  apart : ∀ entry ∈ ir.solutionInputs, ∀ op ∈ ir.valueProgram.iterationOps, op.destination.index ≠ entry.2.index

theorem IslandIrBuilder.Sound.finish {builder : IslandIrBuilder F} (sound : builder.Sound) {ir : CompiledIslandIr F}
    (run : builder.finish = some (.ok ir)) : ir.Sound := by
  obtain ⟨recorded, built, indexed⟩ := sound
  have parts : ir.valueProgram = builder.values.finish ∧ ir.solutionInputs = builder.solutionInputs := by
    unfold IslandIrBuilder.finish at run
    split at run
    · cases run
    · obtain ⟨latches, -, run⟩ := Option.bind_eq_some_iff.mp run
      obtain ⟨sources, -, run⟩ := Option.bind_eq_some_iff.mp run
      obtain rfl := Except.ok.inj (Option.some.inj run)
      exact ⟨rfl, rfl⟩
  obtain ⟨program, inputs⟩ := parts
  refine ⟨program ▸ built.straight, inputs ▸ indexed.ascending, inputs ▸ indexed.distinct, fun entry member => ?_,
    fun entry member op there => ?_⟩
  · rw [inputs] at member
    have read := built.recorded_at (indexed.isInput entry member)
    rw [program, show builder.values.finish.valueCount = builder.values.slots.length from built.initial, ← built.count]
    exact (List.getElem?_eq_some_iff.mp read).1
  · rw [inputs] at member
    rw [program] at there
    exact @Built.dest_ne_input _ _ _ _ built .iteration op there _ (indexed.isInput entry member)

end Build

end Hynergy
