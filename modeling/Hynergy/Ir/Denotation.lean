import Hynergy.Ir.Value
import Hynergy.Lib.Returns
import Hynergy.Lib.StraightLine

/-!
# What a value program computes

Every slot is recorded with the expression it was built for. The operations of each rate are in
the order of their destinations, read only earlier slots of their rate or a slower one, and so
each stage settles its slots and leaves those of the slower stages settled.
-/

namespace Hynergy

open Lib

variable {F : Type}

/-! ### Operations as a machine -/

section Machine

variable [F64 F]

/-- Slots as places; a slot out of range holds nothing. -/
def ValueOp.machine : Machine ValueOp Nat (Option F) where
  dest op := op.destination.index
  reads op := op.dependencies.map (·.index)
  eval op σ :=
    match op with
    | .binary op _ lhs rhs => (σ lhs.index).bind fun l => (σ rhs.index).map (op.apply l)
    | .neg _ operand => (σ operand.index).map F64.neg
  eval_congr op σ τ same := by
    cases op with
    | binary op destination lhs rhs =>
      dsimp only
      rw [same lhs.index (by simp [ValueOp.dependencies]), same rhs.index (by simp [ValueOp.dependencies])]
    | neg destination operand =>
      dsimp only
      rw [same operand.index (by simp [ValueOp.dependencies])]

/-- The values as a function of the place. -/
def readAt (values : List F) (i : Nat) : Option F := values[i]?

omit [F64 F] in
theorem readAt_set {values : List F} {d : Nat} (inside : d < values.length) (x : F) :
    readAt (values.set d x) = Function.update (readAt values) d (some x) := by
  funext i
  by_cases here : i = d
  · subst here
    rw [Function.update_self, readAt, List.getElem?_set_self inside]
  · rw [Function.update_of_ne here, readAt, List.getElem?_set_ne (Ne.symm here)]
    rfl

/-- All slots of the operation are below the bound. -/
structure ValueOp.InRange (count : Nat) (op : ValueOp) : Prop where
  destination : op.destination.index < count
  dependencies : ∀ slot ∈ op.dependencies, slot.index < count

theorem ValueOp.execute_spec {op : ValueOp} {values : List F} (h : op.InRange values.length) :
    ∃ next, op.execute values = some next ∧ next.length = values.length ∧
      readAt next = ValueOp.machine.step (readAt values) op := by
  cases op with
  | binary op destination lhs rhs =>
    have hd : destination.index < values.length := h.destination
    have hl := h.dependencies lhs (by simp [dependencies])
    have hr := h.dependencies rhs (by simp [dependencies])
    refine ⟨values.set destination.index (op.apply values[lhs.index] values[rhs.index]), ?_, by simp, ?_⟩
    · unfold execute
      dsimp only
      rw [bind_of_eq_some (List.getElem?_eq_getElem hl), bind_of_eq_some (List.getElem?_eq_getElem hr),
        if_pos hd]
    · rw [readAt_set hd, Machine.step]
      simp only [machine, readAt, List.getElem?_eq_getElem hl, List.getElem?_eq_getElem hr, Option.bind_some,
        Option.map_some, ValueOp.destination]
  | neg destination operand =>
    have hd : destination.index < values.length := h.destination
    have ho := h.dependencies operand (by simp [dependencies])
    refine ⟨values.set destination.index (F64.neg values[operand.index]), ?_, by simp, ?_⟩
    · unfold execute
      dsimp only
      rw [bind_of_eq_some (List.getElem?_eq_getElem ho), if_pos hd]
    · rw [readAt_set hd, Machine.step]
      simp only [machine, readAt, List.getElem?_eq_getElem ho, Option.map_some, ValueOp.destination]

theorem executeOps_spec {ops : List ValueOp} {values : List F} (h : ∀ op ∈ ops, op.InRange values.length) :
    ∃ next, executeOps ops values = some next ∧ next.length = values.length ∧
      readAt next = ValueOp.machine.run ops (readAt values) := by
  induction ops generalizing values with
  | nil => exact ⟨values, rfl, rfl, rfl⟩
  | cons op ops ih =>
    obtain ⟨mid, first, length, step⟩ := ValueOp.execute_spec (h op List.mem_cons_self)
    obtain ⟨next, rest, length', run⟩ := ih fun other member =>
      length.symm ▸ h other (List.mem_cons_of_mem _ member)
    refine ⟨next, ?_, length'.trans length, ?_⟩
    · rw [executeOps, List.foldlM_cons, bind_of_eq_some first]
      exact rest
    · rw [run, step]
      rfl

end Machine

/-! ### Expressions -/

inductive ValueExpr (F : Type) where
  | constant (value : F)
  | input (slot : InputSlot)
  | binary (op : BinaryOp) (lhs rhs : ValueExpr F)
  | neg (operand : ValueExpr F)

def ValueExpr.eval [F64 F] (inputs : InputSlot → F) : ValueExpr F → F
  | constant value => value
  | input slot => inputs slot
  | binary op lhs rhs => op.apply (lhs.eval inputs) (rhs.eval inputs)
  | neg operand => F64.neg (operand.eval inputs)

/-- The slots handed out, each with the expression it was built for. -/
abbrev Recorded (F : Type) := List (ValueSlot × ValueExpr F)

namespace Recorded

def lookup (recorded : Recorded F) (slot : ValueSlot) : Option (ValueExpr F) :=
  (recorded.find? fun entry => decide (entry.1 = slot)).map Prod.snd

/-- The slots are handed out in order. -/
def Named (recorded : Recorded F) : Prop :=
  ∀ (i : Nat) slot e, recorded[i]? = some (slot, e) → slot.index = i

theorem lookup_eq_some {recorded : Recorded F} (named : recorded.Named) {slot : ValueSlot} {e : ValueExpr F} :
    recorded.lookup slot = some e ↔ recorded[slot.index]? = some (slot, e) := by
  have unique : ∀ a ∈ recorded, a.1 = slot → recorded[slot.index]? = some a := by
    intro a member same
    obtain ⟨i, read⟩ := List.mem_iff_getElem?.mp member
    have := named i a.1 a.2 read
    rw [← same, this]
    exact read
  constructor
  · intro found
    obtain ⟨entry, there, rfl⟩ := Option.map_eq_some_iff.mp found
    have same := of_decide_eq_true (List.find?_some there :)
    have := unique entry (List.mem_of_find?_eq_some there) same
    rw [this, ← same]
  · intro read
    cases found : recorded.find? fun entry => decide (entry.1 = slot) with
    | none => simpa using List.find?_eq_none.mp found _ (List.mem_of_getElem? read)
    | some entry =>
      have same := of_decide_eq_true (List.find?_some found :)
      have := unique entry (List.mem_of_find?_eq_some found) same
      obtain rfl := Option.some.inj (this.symm.trans read)
      rw [lookup, found, Option.map_some]

end Recorded

/-- The expression an operation computes. -/
def ValueOp.expr (recorded : Recorded F) : ValueOp → Option (ValueExpr F)
  | .binary op _ lhs rhs => do
    let l ← recorded.lookup lhs
    let r ← recorded.lookup rhs
    some (.binary op l r)
  | .neg _ operand => (recorded.lookup operand).map .neg

/-! ### Building -/

inductive BuilderCall (F : Type) where
  | constant (value : F)
  | staticInput
  | tickInput
  | iterationInput
  | binary (op : BinaryOp) (lhs rhs : ValueSlot)
  | neg (operand : ValueSlot)

namespace BuilderCall

variable [F64 F]

def apply : BuilderCall F → ValueProgramBuilder.Build F ValueSlot
  | .constant value => ValueProgramBuilder.constant value
  | .staticInput => do let slot ← ValueProgramBuilder.staticInput; pure slot.value
  | .tickInput => do let slot ← ValueProgramBuilder.tickInput; pure slot.value
  | .iterationInput => do let slot ← ValueProgramBuilder.iterationInput; pure slot.value
  | .binary op lhs rhs => ValueProgramBuilder.binary op lhs rhs
  | .neg operand => ValueProgramBuilder.neg operand

omit [F64 F] in
/-- The expression a call that returned `slot` builds. -/
def expr (recorded : Recorded F) (slot : ValueSlot) : BuilderCall F → Option (ValueExpr F)
  | .constant value => some (.constant value)
  | .staticInput | .tickInput | .iterationInput => some (.input ⟨slot.index⟩)
  | .binary op lhs rhs => (ValueOp.binary op slot lhs rhs).expr recorded
  | .neg operand => (ValueOp.neg slot operand).expr recorded

/-- A sequence of calls on a builder; a call that fails is passed over, `none` is a panic. -/
def applyAll (builder : ValueProgramBuilder F) (recorded : Recorded F) :
    List (BuilderCall F) → Option (ValueProgramBuilder F × Recorded F)
  | [] => some (builder, recorded)
  | call :: calls =>
    match call.apply builder with
    | .ok slot builder => do
      let e ← call.expr recorded slot
      applyAll builder (recorded ++ [(slot, e)]) calls
    | .err _ builder => applyAll builder recorded calls
    | .panic => none

end BuilderCall

namespace ValueProgramBuilder

/-- What a slot is: a constant, an input or the destination of an operation. -/
inductive SlotOk [F64 F] (builder : ValueProgramBuilder F) (i : Nat) (info : SlotInfo F) (e : ValueExpr F) : Prop
  | constant {value : F} (is : info = ⟨.constant, some value⟩) (initial : builder.initialValues[i]? = some value)
      (folded : ∀ inputs, e.eval inputs = value)
  | input (varies : info.rate ≠ .constant) (unknown : info.constant = none) (is : e = .input ⟨i⟩)
  | computed {op : ValueOp} (member : op ∈ builder.opsOf info.rate) (unknown : info.constant = none)
      (here : op.destination.index = i)

/-- What an operation of a rate is. -/
structure OpOk (builder : ValueProgramBuilder F) (recorded : Recorded F) (rate : EvaluationRate)
    (op : ValueOp) : Prop where
  info : builder.slots[op.destination.index]? = some ⟨rate, none⟩
  recorded : ∃ e, recorded[op.destination.index]? = some (op.destination, e) ∧ op.expr recorded = some e
  operands : ∀ slot ∈ op.dependencies, slot.index < op.destination.index ∧
    ∃ info, builder.slots[slot.index]? = some info ∧ info.rate.discriminant ≤ rate.discriminant

structure Built [F64 F] (builder : ValueProgramBuilder F) (recorded : Recorded F) : Prop where
  count : recorded.length = builder.slots.length
  initial : builder.initialValues.length = builder.slots.length
  named : recorded.Named
  slots : ∀ (i : Nat) info slot e, builder.slots[i]? = some info → recorded[i]? = some (slot, e) →
    SlotOk builder i info e
  ops : ∀ rate, ∀ op ∈ builder.opsOf rate, OpOk builder recorded rate op
  sorted : ∀ rate, (builder.opsOf rate).Pairwise fun a b => a.destination.index < b.destination.index

variable [F64 F] {self next : ValueProgramBuilder F} {recorded : Recorded F}

theorem Built.empty : Built ({} : ValueProgramBuilder F) [] := by
  have none' : ∀ rate, ({} : ValueProgramBuilder F).opsOf rate = [] := by
    intro rate
    cases rate <;> rfl
  exact ⟨rfl, rfl, fun i slot e read => by simp at read, fun i info slot e read => by simp at read,
    fun rate op member => by simp [none'] at member, fun rate => by simp [none']⟩

omit [F64 F] in
/-- Recorded expressions stay. -/
theorem opExpr_append {op : ValueOp} {e : ValueExpr F} {entry : ValueSlot × ValueExpr F}
    (found : op.expr recorded = some e) : op.expr (recorded ++ [entry]) = some e := by
  have lookup : ∀ {slot e}, recorded.lookup slot = some e →
      Recorded.lookup (recorded ++ [entry]) slot = some e := by
    intro slot e found
    obtain ⟨pair, there, rfl⟩ := Option.map_eq_some_iff.mp found
    rw [Recorded.lookup, List.find?_append, there]
    rfl
  cases op with
  | binary op destination lhs rhs =>
    obtain ⟨l, hl, found⟩ := Option.bind_eq_some_iff.mp found
    obtain ⟨r, hr, found⟩ := Option.bind_eq_some_iff.mp found
    rw [ValueOp.expr, bind_of_eq_some (lookup hl), bind_of_eq_some (lookup hr)]
    exact found
  | neg destination operand =>
    obtain ⟨o, ho, rfl⟩ := Option.map_eq_some_iff.mp found
    rw [ValueOp.expr, lookup ho, Option.map_some]

/-- A slot is appended, with the operation that computes it if there is one. -/
theorem Built.push (h : Built self recorded) {info : SlotInfo F} {value : F} {e : ValueExpr F}
    (op : Option ValueOp) (slots : next.slots = self.slots ++ [info])
    (initial : next.initialValues = self.initialValues ++ [value])
    (ops : ∀ rate, next.opsOf rate = self.opsOf rate ++ if rate = info.rate then op.toList else [])
    (plain : op = none → (∃ v, info = ⟨.constant, some v⟩ ∧ value = v ∧ ∀ inputs, e.eval inputs = v) ∨
      info.rate ≠ .constant ∧ info.constant = none ∧ e = .input ⟨self.slots.length⟩)
    (computed : ∀ o, op = some o → info.constant = none ∧ o.destination = ⟨self.slots.length⟩ ∧
      o.expr recorded = some e ∧ ∀ slot ∈ o.dependencies,
        ∃ there, self.slots[slot.index]? = some there ∧ there.rate.discriminant ≤ info.rate.discriminant) :
    Built next (recorded ++ [(⟨self.slots.length⟩, e)]) := by
  have old : ∀ {i : Nat} {x}, self.slots[i]? = some x → next.slots[i]? = some x := by
    intro i x read
    rw [slots, List.getElem?_append_left (List.getElem?_eq_some_iff.mp read).1, read]
  have last : next.slots[self.slots.length]? = some info := by
    rw [slots, List.getElem?_concat_length]
  have kept : ∀ {i : Nat} {x}, recorded[i]? = some x → (recorded ++ [(⟨self.slots.length⟩, e)])[i]? = some x := by
    intro i x read
    rw [List.getElem?_append_left (List.getElem?_eq_some_iff.mp read).1, read]
  have final : (recorded ++ [((⟨self.slots.length⟩ : ValueSlot), e)])[self.slots.length]? =
      some (⟨self.slots.length⟩, e) := by
    rw [← h.count, List.getElem?_concat_length]
  have mem : ∀ rate o, o ∈ next.opsOf rate ↔ o ∈ self.opsOf rate ∨ rate = info.rate ∧ op = some o := by
    intro rate o
    rw [ops, List.mem_append]
    split
    · rename_i same
      simp [same]
    · rename_i other
      simp [other]
  refine ⟨by simp [slots, h.count], by simp [slots, initial, h.initial], fun i slot e' read => ?_,
    fun i there slot e' inSlots read => ?_, fun rate o member => ?_, fun rate => ?_⟩
  · rw [List.getElem?_append] at read
    split at read
    · exact h.named i slot e' read
    · obtain ⟨inside, same⟩ := List.getElem?_eq_some_iff.mp read
      rw [List.length_singleton] at inside
      rw [List.getElem_singleton] at same
      obtain ⟨rfl, -⟩ := Prod.mk.inj same
      have := h.count
      dsimp only
      omega
  · by_cases earlier : i < self.slots.length
    · rw [slots, List.getElem?_append_left earlier] at inSlots
      rw [List.getElem?_append_left (h.count ▸ earlier)] at read
      cases h.slots i there slot e' inSlots read with
      | constant is initial' folded =>
        refine .constant is ?_ folded
        rw [initial, List.getElem?_append_left (h.initial ▸ earlier), initial']
      | input varies unknown is => exact .input varies unknown is
      | computed member unknown here => exact .computed ((mem _ _).mpr (Or.inl member)) unknown here
    · have bound : i < (recorded ++ [((⟨self.slots.length⟩ : ValueSlot), e)]).length :=
        (List.getElem?_eq_some_iff.mp read).1
      rw [List.length_append, List.length_singleton, h.count] at bound
      obtain rfl : i = self.slots.length := by omega
      obtain rfl := Option.some.inj (last.symm.trans inSlots)
      obtain ⟨-, rfl⟩ := Prod.mk.inj (Option.some.inj (final.symm.trans read))
      cases isOp : op with
      | none =>
        rcases plain isOp with ⟨v, is, same, folded⟩ | ⟨varies, unknown, is⟩
        · refine .constant is ?_ folded
          rw [initial, ← h.initial, List.getElem?_concat_length, same]
        · exact .input varies unknown is
      | some o =>
        obtain ⟨unknown, dest, -, -⟩ := computed o isOp
        exact .computed ((mem _ _).mpr (Or.inr ⟨rfl, isOp⟩)) unknown (by rw [dest])
  · rcases (mem rate o).mp member with before | ⟨rfl, isOp⟩
    · have ok := h.ops rate o before
      obtain ⟨e', read, expr⟩ := ok.recorded
      refine ⟨old ok.info, ⟨e', kept read, opExpr_append expr⟩, fun slot dep => ?_⟩
      obtain ⟨lower, there, read', slower⟩ := ok.operands slot dep
      exact ⟨lower, there, old read', slower⟩
    · obtain ⟨unknown, dest, expr, operands⟩ := computed o isOp
      refine ⟨?_, ⟨e, ?_, opExpr_append expr⟩, fun slot dep => ?_⟩
      · rw [dest, last, ← unknown]
      · rw [dest]
        exact final
      · obtain ⟨there, read, slower⟩ := operands slot dep
        refine ⟨?_, there, old read, slower⟩
        rw [dest]
        exact (List.getElem?_eq_some_iff.mp read).1
  · rw [ops]
    split
    · refine List.pairwise_append.mpr ⟨h.sorted rate, ?_, fun a ha b hb => ?_⟩
      · cases op <;> simp
      · obtain ⟨-, dest, -, -⟩ := computed b (Option.mem_toList.mp hb)
        rw [dest]
        exact (List.getElem?_eq_some_iff.mp (h.ops rate a ha).info).1
    · rw [List.append_nil]
      exact h.sorted rate

omit [F64 F] in
theorem allocateSlot_cases (info : SlotInfo F) (value : F) :
    allocateSlot info value self = .err .slotExhausted self ∨
      allocateSlot info value self = .ok ⟨self.slots.length⟩
        { self with slots := self.slots ++ [info], initialValues := self.initialValues ++ [value] } := by
  unfold allocateSlot
  rw [Call.get_bind]
  by_cases full : 2 ^ 32 ≤ self.slots.length
  · exact Or.inl (Call.rejectIf_bind_pos full _)
  · exact Or.inr (Call.rejectIf_bind_neg full _)

omit [F64 F] in
theorem slotInfo_cases (slot : ValueSlot) :
    (self.slots[slot.index]? = none ∧ slotInfo slot self = .err (.unknownValue slot) self) ∨
      ∃ info, self.slots[slot.index]? = some info ∧ slotInfo slot self = .ok info self := by
  unfold slotInfo
  rw [Call.get_bind]
  cases read : self.slots[slot.index]? with
  | none => exact Or.inl ⟨rfl, rfl⟩
  | some info => exact Or.inr ⟨info, rfl, rfl⟩

/-- What a call does: it hands out a slot for its expression, or fails and changes nothing. -/
def Answers (self : ValueProgramBuilder F) (recorded : Recorded F)
    (expr : ValueSlot → Option (ValueExpr F)) (outcome : Outcome (ValueProgramBuilder F) ValueBuildError ValueSlot) :
    Prop :=
  (∃ slot next e, outcome = .ok slot next ∧ expr slot = some e ∧ Built next (recorded ++ [(slot, e)])) ∨
    ∃ error, outcome = .err error self

theorem constant_answers (h : Built self recorded) {expr : ValueSlot → Option (ValueExpr F)} {e : ValueExpr F}
    {value : F} (known : ∀ slot, expr slot = some e) (folded : ∀ inputs, e.eval inputs = value) :
    Answers self recorded expr (constant value self) := by
  rcases @allocateSlot_cases F self ⟨.constant, some value⟩ value with full | run
  · exact Or.inr ⟨_, full⟩
  · refine Or.inl ⟨_, _, e, run, known _, h.push none rfl rfl (fun rate => ?_) (fun _ => Or.inl ⟨value, rfl, rfl, folded⟩)
      fun o isOp => by simp at isOp⟩
    cases rate <;> simp [opsOf]

theorem input_answers (h : Built self recorded) {rate : EvaluationRate} (varies : rate ≠ .constant) :
    Answers self recorded (fun slot => some (.input ⟨slot.index⟩))
      ((do let slot ← input rate; pure slot.value : Build F ValueSlot) self) := by
  rcases @allocateSlot_cases F self ⟨rate, none⟩ F64.zero with full | run
  · exact Or.inr ⟨_, Call.bind_err (Call.bind_err full)⟩
  · refine Or.inl ⟨_, _, _, Call.bind_ok (Call.bind_ok run), rfl, h.push none rfl rfl (fun other => ?_)
      (fun _ => Or.inr ⟨varies, rfl, rfl⟩) fun o isOp => by simp at isOp⟩
    cases other <;> simp [opsOf]

/-- An operation on slots that are not all constant. -/
theorem computed_answers (h : Built self recorded) {expr : ValueSlot → Option (ValueExpr F)} {e : ValueExpr F}
    {rate : EvaluationRate} (varies : rate ≠ .constant) (op : ValueSlot → ValueOp)
    (dest : ∀ slot, (op slot).destination = slot) (known : ∀ slot, expr slot = some e)
    (computes : ∀ slot, (op slot).expr recorded = some e)
    (operands : ∀ slot, ∀ source ∈ (op slot).dependencies, ∃ there, self.slots[source.index]? = some there ∧
      there.rate.discriminant ≤ rate.discriminant) :
    Answers self recorded expr ((do
      let destination ← allocateComputed rate
      pushOp rate (op destination)
      pure destination : Build F ValueSlot) self) := by
  rcases @allocateSlot_cases F self ⟨rate, none⟩ F64.zero with full | run
  · exact Or.inr ⟨_, Call.bind_err full⟩
  · rw [Call.bind_ok (show allocateComputed rate self = _ from run)]
    have built : ∀ next : ValueProgramBuilder F, next.slots = self.slots ++ [⟨rate, none⟩] →
        next.initialValues = self.initialValues ++ [F64.zero] →
        (∀ other, next.opsOf other = self.opsOf other ++
          if other = rate then [op ⟨self.slots.length⟩] else []) →
        Built next (recorded ++ [(⟨self.slots.length⟩, e)]) := by
      intro next slots initial ops
      refine h.push (some (op ⟨self.slots.length⟩)) slots initial ops (fun isNone => by simp at isNone)
        fun o isOp => ?_
      obtain rfl := Option.some.inj isOp
      exact ⟨rfl, dest _, computes _, operands _⟩
    cases rate with
    | constant => exact absurd rfl varies
    | static =>
      refine Or.inl ⟨_, _, e, rfl, known _, built _ rfl rfl fun other => ?_⟩
      cases other <;> simp [opsOf]
    | tick =>
      refine Or.inl ⟨_, _, e, rfl, known _, built _ rfl rfl fun other => ?_⟩
      cases other <;> simp [opsOf]
    | iteration =>
      refine Or.inl ⟨_, _, e, rfl, known _, built _ rfl rfl fun other => ?_⟩
      cases other <;> simp [opsOf]

/-- A known slot has a recorded expression. -/
theorem Built.operand (h : Built self recorded) {slot : ValueSlot} {info : SlotInfo F}
    (read : self.slots[slot.index]? = some info) :
    ∃ e, recorded.lookup slot = some e ∧ SlotOk self slot.index info e := by
  have inside : slot.index < recorded.length := h.count ▸ (List.getElem?_eq_some_iff.mp read).1
  have entry := List.getElem?_eq_getElem inside
  have name : recorded[slot.index].1 = slot := ValueSlot.ext (h.named slot.index _ _ entry)
  refine ⟨recorded[slot.index].2, (Recorded.lookup_eq_some h.named).mpr ?_, h.slots _ _ _ _ read entry⟩
  rw [entry]
  exact congrArg some (Prod.ext name rfl)

omit [F64 F] in
theorem rate_ne_constant_of_op {op : ValueOp} {rate : EvaluationRate} (member : op ∈ self.opsOf rate) :
    rate ≠ .constant := by
  intro same
  rw [same] at member
  simp [opsOf] at member

theorem SlotOk.folded {i : Nat} {info : SlotInfo F} {e : ValueExpr F} (h : SlotOk self i info e) {value : F}
    (known : info.constant = some value) : ∀ inputs, e.eval inputs = value := by
  cases h with
  | constant is initial folded =>
    rw [is] at known
    obtain rfl := Option.some.inj known
    exact folded
  | input varies unknown is => simp [unknown] at known
  | computed member unknown here => simp [unknown] at known

theorem SlotOk.varies {i : Nat} {info : SlotInfo F} {e : ValueExpr F} (h : SlotOk self i info e)
    (unknown : info.constant = none) : info.rate ≠ .constant := by
  cases h with
  | constant is initial folded => simp [is] at unknown
  | input varies => exact varies
  | computed member => exact rate_ne_constant_of_op member

theorem neg_answers (h : Built self recorded) (operand : ValueSlot) :
    Answers self recorded (fun slot => (ValueOp.neg slot operand).expr recorded) (neg operand self) := by
  unfold neg
  rcases @slotInfo_cases F self operand with ⟨-, unknown⟩ | ⟨info, read, run⟩
  · exact Or.inr ⟨_, Call.bind_err unknown⟩
  · rw [Call.bind_ok run]
    obtain ⟨e, found, ok⟩ := h.operand read
    have known : ∀ slot, (ValueOp.neg slot operand).expr recorded = some (.neg e) := by
      intro slot
      rw [ValueOp.expr, found, Option.map_some]
    cases constant' : info.constant with
    | some value =>
      refine constant_answers h known fun inputs => ?_
      rw [ValueExpr.eval, ok.folded constant' inputs]
    | none =>
      refine computed_answers h (ok.varies constant') (fun slot => .neg slot operand) (fun _ => rfl) known known
        fun slot source dep => ?_
      obtain rfl := List.mem_singleton.mp dep
      exact ⟨info, read, Nat.le_refl _⟩

theorem binary_answers (h : Built self recorded) (op : BinaryOp) (lhs rhs : ValueSlot) :
    Answers self recorded (fun slot => (ValueOp.binary op slot lhs rhs).expr recorded) (binary op lhs rhs self) := by
  unfold binary
  rcases @slotInfo_cases F self lhs with ⟨-, unknown⟩ | ⟨lhsInfo, readL, runL⟩
  · exact Or.inr ⟨_, Call.bind_err unknown⟩
  rw [Call.bind_ok runL]
  rcases @slotInfo_cases F self rhs with ⟨-, unknown⟩ | ⟨rhsInfo, readR, runR⟩
  · exact Or.inr ⟨_, Call.bind_err unknown⟩
  rw [Call.bind_ok runR]
  obtain ⟨l, foundL, okL⟩ := h.operand readL
  obtain ⟨r, foundR, okR⟩ := h.operand readR
  have known : ∀ slot, (ValueOp.binary op slot lhs rhs).expr recorded = some (.binary op l r) := by
    intro slot
    rw [ValueOp.expr, bind_of_eq_some foundL, bind_of_eq_some foundR]
  have operands : ∀ slot, ∀ source ∈ (ValueOp.binary op slot lhs rhs).dependencies,
      ∃ there, self.slots[source.index]? = some there ∧
        there.rate.discriminant ≤ (max lhsInfo.rate rhsInfo.rate).discriminant := by
    intro slot source dep
    rw [EvaluationRate.discriminant_max]
    rcases List.mem_cons.mp dep with rfl | dep
    · exact ⟨lhsInfo, readL, Nat.le_max_left ..⟩
    · obtain rfl := List.mem_singleton.mp dep
      exact ⟨rhsInfo, readR, Nat.le_max_right ..⟩
  -- one operand that varies is enough
  have varies : lhsInfo.constant = none ∨ rhsInfo.constant = none →
      max lhsInfo.rate rhsInfo.rate ≠ .constant := by
    intro either same
    have zero := EvaluationRate.eq_constant.mp same
    rw [EvaluationRate.discriminant_max] at zero
    rcases either with unknown | unknown
    · exact okL.varies unknown (EvaluationRate.eq_constant.mpr (by omega))
    · exact okR.varies unknown (EvaluationRate.eq_constant.mpr (by omega))
  cases constantL : lhsInfo.constant with
  | some x =>
    cases constantR : rhsInfo.constant with
    | some y =>
      refine constant_answers h known fun inputs => ?_
      rw [ValueExpr.eval, okL.folded constantL inputs, okR.folded constantR inputs]
    | none =>
      exact computed_answers h (varies (Or.inr constantR)) (fun slot => .binary op slot lhs rhs) (fun _ => rfl)
        known known operands
  | none =>
    exact computed_answers h (varies (Or.inl constantL)) (fun slot => .binary op slot lhs rhs) (fun _ => rfl)
      known known operands

theorem call_answers (h : Built self recorded) (call : BuilderCall F) :
    Answers self recorded (fun slot => call.expr recorded slot) (call.apply self) := by
  cases call with
  | constant value => exact constant_answers h (fun _ => rfl) fun _ => rfl
  | staticInput => exact input_answers h (by decide)
  | tickInput => exact input_answers h (by decide)
  | iterationInput => exact input_answers h (by decide)
  | binary op lhs rhs => exact binary_answers h op lhs rhs
  | neg operand => exact neg_answers h operand

theorem applyAll_built (calls : List (BuilderCall F)) (h : Built self recorded) :
    ∃ builder recorded', BuilderCall.applyAll self recorded calls = some (builder, recorded') ∧
      Built builder recorded' := by
  induction calls generalizing self recorded with
  | nil => exact ⟨self, recorded, rfl, h⟩
  | cons call calls ih =>
    rw [BuilderCall.applyAll]
    rcases call_answers h call with ⟨slot, next, e, run, known, built⟩ | ⟨error, run⟩
    · rw [run]
      dsimp only
      rw [bind_of_eq_some known]
      exact ih built
    · rw [run]
      exact ih h

end ValueProgramBuilder

end Hynergy
