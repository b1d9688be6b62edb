import Hynergy.Compile.TemplateSound

/-!
# Steps of the template builder

What the calls that make values leave behind: the value computes what was asked for, whether it is made, was made
before or is folded.
-/

namespace Hynergy

open Lib

variable {F : Type}

theorem Registered.mono {values values' unknowns unknowns' : Nat} {stability modes : List LocalValueId}
    {drivers : List LocalComplementaryDriver} (h : Registered values unknowns stability modes drivers)
    (moreValues : values ≤ values') (moreUnknowns : unknowns ≤ unknowns') :
    Registered values' unknowns' stability modes drivers := by
  refine ⟨fun value member => (h.stability value member).trans_le moreValues,
    fun value member => (h.modes value member).trans_le moreValues, fun driver member => ?_⟩
  obtain ⟨⟨mode, up, down⟩, output, high, low⟩ := h.drivers driver member
  exact ⟨⟨mode.trans_le moreValues, up.trans_le moreValues, down.trans_le moreValues⟩, output.trans_le moreUnknowns,
    high.trans_le moreUnknowns, low.trans_le moreUnknowns⟩

/-- A node that is appended is the only new one. -/
theorem inside_append {nodes : List (LocalValueNode F)} {node : LocalValueNode F} {parameters states unknowns : Nat}
    (each : ∀ (i : Nat) other, nodes[i]? = some other → other.Inside i parameters states unknowns)
    (inside : node.Inside nodes.length parameters states unknowns) (i : Nat) (other : LocalValueNode F)
    (read : (nodes ++ [node])[i]? = some other) : other.Inside i parameters states unknowns := by
  rcases read_concat read with ⟨earlier, -⟩ | ⟨rfl, rfl⟩
  · exact each i other earlier
  · exact inside

namespace DefinitionTemplateBuilder

/-- What a builder holds is there, and what it remembers of its values is so. -/
structure Sound (builder : DefinitionTemplateBuilder F) : Prop where
  stamps : builder.stamps.Sound builder.parameterCount builder.stateWrites.length builder.terminalCount
  latched : builder.iterationLatches.map (·.1.index) = latchPlaces builder.stamps.nodes
  registered : Registered builder.values.length builder.unknowns.length builder.iterationStabilityValues
    builder.discreteModes builder.complementaryDrivers
  constants : ∀ (i : Nat) info c, builder.values[i]? = some info → info.constant = some c → info.node = .constant c
  known : builder.unknownValues.length = builder.unknowns.length
  cached : ∀ (u : Nat) v, builder.unknownValues[u]? = some (some v) → builder.stamps.nodes[v.index]? = some (.unknown ⟨u⟩)
  ticking : ∀ v, builder.timestepValue = some v → builder.stamps.nodes[v.index]? = some .timestep

theorem sound_new : ({} : DefinitionTemplateBuilder F).Sound where
  stamps := by constructor <;> simp [stamps]
  latched := rfl
  registered := by constructor <;> simp
  constants := by simp
  known := rfl
  cached := by simp
  ticking := by simp

variable {self : DefinitionTemplateBuilder F}

@[simp] theorem stamps_nodes : self.stamps.nodes = self.values.map LocalValueInfo.node := rfl

theorem nodes_length : self.stamps.nodes.length = self.values.length := List.length_map ..

/-- The builder with a value more. -/
def push (self : DefinitionTemplateBuilder F) (info : LocalValueInfo F) : DefinitionTemplateBuilder F :=
  { self with values := self.values ++ [info] }

theorem push_nodes (info : LocalValueInfo F) : (self.push info).stamps.nodes = self.stamps.nodes ++ [info.node] := by
  simp [push]

theorem push_read (info : LocalValueInfo F) : (self.push info).stamps.nodes[self.values.length]? = some info.node := by
  rw [push_nodes, ← nodes_length, List.getElem?_concat_length]

theorem read_push {info : LocalValueInfo F} {i : Nat} {node : LocalValueNode F}
    (read : self.stamps.nodes[i]? = some node) : (self.push info).stamps.nodes[i]? = some node := by
  rw [push_nodes, List.getElem?_append_left (List.getElem?_eq_some_iff.mp read).1, read]

/-- A value more; a latch among the latches. -/
theorem Sound.push_latches (sound : self.Sound) {info : LocalValueInfo F}
    {latches : List (LocalValueId × Option LocalValueId)}
    (inside : info.node.Inside self.values.length self.parameterCount self.stateWrites.length self.unknowns.length)
    (latched : latches.map (·.1.index) = latchPlaces (self.push info).stamps.nodes)
    (finished : latches.filterMap finishLatch = self.stamps.latches)
    (folded : ∀ c, info.constant = some c → info.node = .constant c) :
    ({ self.push info with iterationLatches := latches } : DefinitionTemplateBuilder F).Sound := by
  have grown : (self.push info).stamps.nodes.length = self.stamps.nodes.length + 1 := by
    rw [push_nodes, List.length_append, List.length_singleton]
  refine ⟨⟨?_, fun term member => ?_, fun term member => ?_, fun entry member => ?_, fun entry member => ?_,
    fun value member => ?_, sound.stamps.terminals⟩, latched, sound.registered.mono ?_ (Nat.le_refl _), ?_, sound.known,
    fun u v read => read_push (sound.cached u v read), fun v isTimestep => read_push (sound.ticking v isTimestep)⟩
  · have := inside_append sound.stamps.nodes (nodes_length ▸ inside)
    rwa [← push_nodes] at this
  · obtain ⟨row, column, source⟩ := sound.stamps.matrix term member
    exact ⟨row, column, (source.trans (Nat.lt_succ_self _)).trans_eq grown.symm⟩
  · obtain ⟨destination, source⟩ := sound.stamps.rhs term member
    exact ⟨destination, (source.trans (Nat.lt_succ_self _)).trans_eq grown.symm⟩
  · obtain ⟨state, source⟩ := sound.stamps.writes entry member
    exact ⟨state, (source.trans (Nat.lt_succ_self _)).trans_eq grown.symm⟩
  · have here := sound.stamps.latches entry (finished ▸ member)
    exact (here.trans (Nat.lt_succ_self _)).trans_eq grown.symm
  · have here := sound.stamps.outputs value member
    exact (here.trans (Nat.lt_succ_self _)).trans_eq grown.symm
  · simp [DefinitionTemplateBuilder.push]
  · intro i other c read isConstant
    rcases read_concat read with ⟨earlier, -⟩ | ⟨-, rfl⟩
    · exact sound.constants i other c earlier isConstant
    · exact folded c isConstant

theorem Sound.push (sound : self.Sound) {info : LocalValueInfo F}
    (inside : info.node.Inside self.values.length self.parameterCount self.stateWrites.length self.unknowns.length)
    (noLatch : info.node.isLatch = false) (folded : ∀ c, info.constant = some c → info.node = .constant c) :
    (self.push info).Sound := by
  refine sound.push_latches inside ?_ rfl folded
  rw [push_nodes, latchPlaces, places_append, noLatch, if_neg (by simp), List.append_nil]
  exact sound.latched

/-! ### Values -/

/-- All but the values, with what is remembered of them, and the latches. -/
def frame (self : DefinitionTemplateBuilder F) : DefinitionTemplateBuilder F :=
  { self with values := [], unknownValues := [], timestepValue := none, iterationLatches := [] }

variable [F64 F]

/-- A call made a value, or found it: it is what is expected of the inputs and the other values. -/
structure Computes (before : DefinitionTemplateBuilder F) (expected : Reading F → (Nat → F) → F) (value : LocalValueId)
    (after : DefinitionTemplateBuilder F) : Prop where
  sound : after.Sound
  frame : after.frame = before.frame
  latches : after.iterationLatches = before.iterationLatches
  grown : before.values <+: after.values
  inside : value.index < after.values.length
  computed : ∀ reading values, Evaluates after.stamps.nodes reading values → values value.index = expected reading values

/-- The value is the one just made. -/
theorem Sound.push_computes (sound : self.Sound) (info : LocalValueInfo F)
    (inside : info.node.Inside self.values.length self.parameterCount self.stateWrites.length self.unknowns.length)
    (noLatch : info.node.isLatch = false) (folded : ∀ c, info.constant = some c → info.node = .constant c) :
    Computes self (fun reading values => info.node.eval reading values F64.zero) ⟨self.values.length⟩ (self.push info) where
  sound := sound.push inside noLatch folded
  frame := rfl
  latches := rfl
  grown := List.prefix_append _ _
  inside := by simp [DefinitionTemplateBuilder.push]
  computed reading values evaluates := (evaluates.read (push_read info)).trans (LocalValueNode.eval_held noLatch)

omit [F64 F] in
/-- Values are only exhausted. -/
theorem allocateValue_meets {post : LocalValueId → DefinitionTemplateBuilder F → Prop} (info : LocalValueInfo F)
    (made : post ⟨self.values.length⟩ (self.push info)) :
    (allocateValue info self).Meets False post fun error _ => error = .idExhausted := by
  unfold allocateValue
  rw [Call.get_bind]
  by_cases full : 2 ^ 32 ≤ self.values.length + 1
  · rw [Call.rejectIf_bind_pos full]
    rfl
  · rw [Call.rejectIf_bind_neg full, Call.set_bind]
    exact made

theorem constant_meets (sound : self.Sound) (c : F) :
    (constant c self).Meets False (fun value after => Computes self (fun _ _ => c) value after ∧
      after.stamps.nodes[value.index]? = some (.constant c)) fun error _ => error = .idExhausted := by
  refine allocateValue_meets _ ⟨sound.push_computes ⟨.constant c, some c⟩ ?_ rfl fun d same => ?_, push_read _⟩
  · constructor <;> simp [LocalValueNode.operands]
  · exact congrArg _ (Option.some.inj same)

theorem state_meets (sound : self.Sound) {id : LocalStateId} (inside : id.index < self.stateWrites.length) :
    (allocateValue ⟨.state id, none⟩ self).Meets False
      (fun value after => Computes self (fun reading _ => reading.state id.index) value after)
      fun error _ => error = .idExhausted := by
  refine allocateValue_meets _ (sound.push_computes ⟨.state id, none⟩ ?_ rfl (by simp))
  constructor <;> simp [LocalValueNode.operands, inside]

omit [F64 F] in
/-- A parameter more. -/
theorem parameter_meets (sound : self.Sound) :
    (parameter self).Meets False (fun value after => after.Sound ∧ value = ⟨self.values.length⟩ ∧
      after = { self.push ⟨.parameter ⟨self.parameterCount⟩, none⟩ with parameterCount := self.parameterCount + 1 })
      fun error _ => error = .idExhausted := by
  unfold parameter
  rw [Call.get_bind]
  by_cases full : 2 ^ 32 ≤ self.parameterCount
  · rw [Call.rejectIf_bind_pos full]
    rfl
  · rw [Call.rejectIf_bind_neg full, Call.set_bind]
    refine allocateValue_meets _ ⟨?_, rfl, rfl⟩
    have wider : ({ self with parameterCount := self.parameterCount + 1 } : DefinitionTemplateBuilder F).Sound := by
      refine ⟨⟨fun i node read => ?_, sound.stamps.matrix, sound.stamps.rhs, sound.stamps.writes, sound.stamps.latches,
        sound.stamps.outputs, sound.stamps.terminals⟩, sound.latched, sound.registered, sound.constants, sound.known,
        sound.cached, sound.ticking⟩
      obtain ⟨operands, parameters, states, unknowns⟩ := sound.stamps.nodes i node read
      exact ⟨operands, fun id same => (parameters id same).trans (Nat.lt_succ_self _), states, unknowns⟩
    refine wider.push ?_ rfl (by simp)
    constructor <;> simp [LocalValueNode.operands]

/-- Setting what is remembered keeps what is computed. -/
theorem Computes.remember {before after remembered : DefinitionTemplateBuilder F} {expected : Reading F → (Nat → F) → F}
    {value : LocalValueId} (h : Computes before expected value after) (sound : remembered.Sound)
    (frame : remembered.frame = after.frame) (latches : remembered.iterationLatches = after.iterationLatches)
    (values : remembered.values = after.values) : Computes before expected value remembered where
  sound := sound
  frame := frame.trans h.frame
  latches := latches.trans h.latches
  grown := values ▸ h.grown
  inside := values ▸ h.inside
  computed reading results evaluates := h.computed reading results (by
    rw [stamps_nodes, values, ← stamps_nodes] at evaluates
    exact evaluates)

/-- What was there before is computed as it was. -/
theorem Sound.computes (sound : self.Sound) {value : LocalValueId} {node : LocalValueNode F}
    (read : self.stamps.nodes[value.index]? = some node) (noLatch : node.isLatch = false) :
    Computes self (fun reading values => node.eval reading values F64.zero) value self where
  sound := sound
  frame := rfl
  latches := rfl
  grown := List.prefix_rfl
  inside := by
    have below := (List.getElem?_eq_some_iff.mp read).1
    rwa [nodes_length] at below
  computed reading values evaluates := (evaluates.read read).trans (LocalValueNode.eval_held noLatch)

/-- A value that is there is what it is. -/
theorem Sound.computes_given (sound : self.Sound) {value : LocalValueId} (inside : value.index < self.values.length) :
    Computes self (fun _ values => values value.index) value self :=
  ⟨sound, rfl, rfl, List.prefix_rfl, inside, fun _ _ _ => rfl⟩

theorem timestep_meets (sound : self.Sound) :
    (timestep self).Meets False (fun value after => Computes self (fun reading _ => reading.timestep) value after)
      fun error _ => error = .idExhausted := by
  unfold timestep
  rw [Call.get_bind]
  cases isTimestep : self.timestepValue with
  | some value => exact sound.computes (sound.ticking value isTimestep) rfl
  | none =>
    refine Call.meets_bind (allocateValue_meets _ ?_)
    have made := sound.push_computes ⟨.timestep, none⟩ (by constructor <;> simp [LocalValueNode.operands]) rfl (by simp)
    refine made.remember ?_ rfl rfl rfl
    obtain ⟨stamps, latched, registered, constants, known, cached, -⟩ := made.sound
    refine ⟨stamps, latched, registered, constants, known, cached, ?_⟩
    rintro _ ⟨⟩
    exact push_read _

theorem unknownValue_meets (sound : self.Sound) {unknown : LocalUnknownId} (inside : unknown.index < self.unknowns.length) :
    (unknownValue unknown self).Meets False
      (fun value after => Computes self (fun reading _ => reading.unknown unknown.index) value after ∧
        after.stamps.nodes[value.index]? = some (.unknown unknown))
      fun error _ => error = .idExhausted := by
  unfold unknownValue
  have below : unknown.index < self.unknownValues.length := sound.known ▸ inside
  rw [Call.get_bind, List.getElem?_eq_getElem below, Call.expect_some_bind]
  cases isKnown : self.unknownValues[unknown.index] with
  | some value =>
    have there := sound.cached unknown.index value (by rw [List.getElem?_eq_getElem below, isKnown])
    exact ⟨sound.computes there rfl, there⟩
  | none =>
    refine Call.meets_bind (allocateValue_meets _ ?_)
    have made := sound.push_computes ⟨.unknown unknown, none⟩ (by constructor <;> simp [LocalValueNode.operands, inside])
      rfl (by simp)
    refine ⟨made.remember ?_ rfl rfl rfl, push_read _⟩
    obtain ⟨stamps, latched, registered, constants, known, cached, ticking⟩ := made.sound
    refine ⟨stamps, latched, registered, constants, by simpa using known, fun u v read => ?_, ticking⟩
    rw [List.getElem?_set] at read
    split at read
    · rename_i same
      split at read
      · obtain rfl := Option.some.inj (Option.some.inj read)
        exact same ▸ push_read _
      · cases read
    · exact cached u v read

omit [F64 F] in
theorem read_grown {after : DefinitionTemplateBuilder F} (grown : self.values <+: after.values) {i : Nat}
    {node : LocalValueNode F} (read : self.stamps.nodes[i]? = some node) : after.stamps.nodes[i]? = some node := by
  obtain ⟨more, same⟩ := grown
  rw [stamps_nodes] at read ⊢
  rw [← same, List.map_append, List.getElem?_append_left (List.getElem?_eq_some_iff.mp read).1, read]

/-- A constant stays where it was. -/
theorem Sound.constant_grown (sound : self.Sound) {after : DefinitionTemplateBuilder F}
    (grown : self.values <+: after.values) {i : Nat} (inside : i < self.values.length) {c : F}
    (isConstant : self.values[i].constant = some c) {reading : Reading F} {values : Nat → F}
    (evaluates : Evaluates after.stamps.nodes reading values) : values i = c := by
  have node := sound.constants i _ c (List.getElem?_eq_getElem inside) isConstant
  have read : self.stamps.nodes[i]? = some (.constant c) := by simp [inside, node]
  exact evaluates.read (read_grown grown read)

/-- Operands that are constants are folded to what they would compute. -/
theorem binary_meets (sound : self.Sound) (op : BinaryOp) {lhs rhs : LocalValueId} (left : lhs.index < self.values.length)
    (right : rhs.index < self.values.length) :
    (binary op lhs rhs self).Meets False
      (fun value after => Computes self (fun _ values => op.apply (values lhs.index) (values rhs.index)) value after ∧
        (self.values[lhs.index].constant = none → after.stamps.nodes[value.index]? = some (.binary op lhs rhs)))
      fun error _ => error = .idExhausted := by
  have unfolded : (allocateValue ⟨.binary op lhs rhs, none⟩ self).Meets False
      (fun value after => Computes self (fun _ values => op.apply (values lhs.index) (values rhs.index)) value after ∧
        (self.values[lhs.index].constant = none → after.stamps.nodes[value.index]? = some (.binary op lhs rhs)))
      fun error _ => error = .idExhausted := by
    refine allocateValue_meets _ ⟨sound.push_computes ⟨.binary op lhs rhs, none⟩ ?_ rfl (by simp), fun _ => push_read _⟩
    constructor <;> simp [LocalValueNode.operands, left, right]
  unfold binary
  rw [Call.get_bind, List.getElem?_eq_getElem left, Call.expect_some_bind, List.getElem?_eq_getElem right,
    Call.expect_some_bind]
  cases isLeft : self.values[lhs.index].constant with
  | none =>
    rw [isLeft] at unfolded
    exact unfolded
  | some l =>
    cases isRight : self.values[rhs.index].constant with
    | none =>
      rw [isLeft] at unfolded
      exact unfolded
    | some r =>
      refine (constant_meets sound (op.apply l r)).mono id ?_ fun _ _ failed => failed
      rintro value after ⟨computes, -⟩
      refine ⟨⟨computes.sound, computes.frame, computes.latches, computes.grown, computes.inside, ?_⟩, fun none => (Option.some_ne_none l none).elim⟩
      intro reading values evaluates
      rw [computes.computed reading values evaluates, sound.constant_grown computes.grown left isLeft evaluates,
        sound.constant_grown computes.grown right isRight evaluates]

theorem neg_meets (sound : self.Sound) {operand : LocalValueId} (inside : operand.index < self.values.length) :
    (neg operand self).Meets False (fun value after => Computes self (fun _ values => F64.neg (values operand.index)) value after)
      fun error _ => error = .idExhausted := by
  unfold neg
  rw [Call.get_bind, List.getElem?_eq_getElem inside, Call.expect_some_bind]
  cases isConstant : self.values[operand.index].constant with
  | none =>
    refine allocateValue_meets _ (sound.push_computes ⟨.neg operand, none⟩ ?_ rfl (by simp))
    constructor <;> simp [LocalValueNode.operands, inside]
  | some c =>
    refine (constant_meets sound (F64.neg c)).mono id ?_ fun _ _ failed => failed
    rintro value after ⟨computes, -⟩
    refine ⟨computes.sound, computes.frame, computes.latches, computes.grown, computes.inside, ?_⟩
    intro reading values evaluates
    rw [computes.computed reading values evaluates, sound.constant_grown computes.grown inside isConstant evaluates]

omit [F64 F] in
/-- A latch more, without an update. -/
theorem iterationLatch_meets (sound : self.Sound) {initial : LocalValueId} (inside : initial.index < self.values.length) :
    (iterationLatch initial self).Meets False (fun latch after => after.Sound ∧ latch = ⟨⟨self.values.length⟩⟩ ∧
      after = { self.push ⟨.iterationLatch initial, none⟩ with
        iterationLatches := self.iterationLatches ++ [(⟨self.values.length⟩, none)] })
      fun error _ => error = .idExhausted := by
  have latched : ({ self.push ⟨.iterationLatch initial, none⟩ with
      iterationLatches := self.iterationLatches ++ [(⟨self.values.length⟩, none)] } : DefinitionTemplateBuilder F).Sound := by
    refine sound.push_latches ?_ ?_ ?_ (by simp)
    · constructor <;> simp [LocalValueNode.operands, inside]
    · rw [push_nodes, latchPlaces, places_append, List.map_append, nodes_length]
      exact congrArg (· ++ [self.values.length]) sound.latched
    · rw [List.filterMap_append]
      exact List.append_nil _
  unfold iterationLatch
  refine Call.meets_bind (allocateValue_meets _ ?_)
  exact ⟨latched, rfl, rfl⟩

/-! ### Unknowns, states and outputs -/

omit [F64 F] in
/-- Unknowns more. -/
theorem Sound.withUnknowns (sound : self.Sound) (new : List LocalUnknownInfo) (allocated : Nat) {terminalCount : Nat}
    (terminals : (self.unknowns ++ new).filterMap LocalUnknownInfo.terminal? = List.range terminalCount) :
    ({ self with
      unknowns := self.unknowns ++ new
      unknownValues := self.unknownValues ++ List.replicate new.length none
      allocatedUnknownCount := allocated
      terminalCount } : DefinitionTemplateBuilder F).Sound := by
  have longer : self.unknowns.length ≤ (self.unknowns ++ new).length := by simp
  refine ⟨⟨fun i node read => ?_, fun term member => ?_, fun term member => ?_, sound.stamps.writes, sound.stamps.latches,
    sound.stamps.outputs, terminals⟩, sound.latched, sound.registered.mono (Nat.le_refl _) longer, sound.constants, ?_, ?_,
    sound.ticking⟩
  · obtain ⟨operands, parameters, states, unknowns⟩ := sound.stamps.nodes i node read
    exact ⟨operands, parameters, states, fun id same => (unknowns id same).trans_le longer⟩
  · obtain ⟨row, column, source⟩ := sound.stamps.matrix term member
    exact ⟨row.trans_le longer, column.trans_le longer, source⟩
  · obtain ⟨destination, source⟩ := sound.stamps.rhs term member
    exact ⟨destination.trans_le longer, source⟩
  · simp [sound.known]
  · intro u value read
    rw [List.getElem?_append] at read
    split at read
    · exact sound.cached u value read
    · rw [List.getElem?_replicate] at read
      split at read <;> cases read

omit [F64 F] in
/-- An unknown more is that of the next terminal. -/
theorem terminalVoltage_meets (sound : self.Sound) :
    (terminalVoltage self).Meets False (fun unknown after => unknown = ⟨self.unknowns.length⟩ ∧ after.Sound ∧ after = { self with
        unknowns := self.unknowns ++ [⟨.voltage, .terminal self.terminalCount⟩]
        unknownValues := self.unknownValues ++ [none]
        terminalCount := self.terminalCount + 1 })
      fun error _ => error = .idExhausted := by
  unfold terminalVoltage
  rw [Call.get_bind]
  by_cases full : 2 ^ 32 ≤ self.terminalCount
  · rw [Call.rejectIf_bind_pos full]
    rfl
  · rw [Call.rejectIf_bind_neg full, Call.set_bind]
    unfold allocateUnknown
    rw [Call.get_bind]
    by_cases many : 2 ^ 32 ≤ self.unknowns.length
    · rw [Call.rejectIf_bind_pos many]
      rfl
    · rw [Call.rejectIf_bind_neg many, Call.set_bind]
      refine ⟨rfl, ?_, rfl⟩
      refine sound.withUnknowns [⟨.voltage, .terminal self.terminalCount⟩] self.allocatedUnknownCount ?_
      have terminals := sound.stamps.terminals
      simp only [stamps] at terminals
      rw [List.filterMap_append, terminals, List.range_succ]
      rfl

omit [F64 F] in
/-- A state more. -/
theorem allocateStateSlot_meets (sound : self.Sound) (requiresWrite : Bool) :
    (allocateStateSlot requiresWrite self).Meets False (fun slot after => slot = ⟨self.stateWrites.length⟩ ∧ after.Sound ∧
        after = { self with
          stateWrites := self.stateWrites ++ [none]
          stateRequiresWrite :=
            if requiresWrite = true then setBit self.stateRequiresWrite self.stateWrites.length
            else self.stateRequiresWrite })
      fun error _ => error = .idExhausted := by
  unfold allocateStateSlot
  rw [Call.get_bind]
  by_cases full : 2 ^ 32 ≤ self.stateWrites.length
  · rw [Call.rejectIf_bind_pos full]
    rfl
  · rw [Call.rejectIf_bind_neg full, Call.set_bind]
    refine ⟨rfl, ⟨⟨fun i node read => ?_, sound.stamps.matrix, sound.stamps.rhs, fun entry member => ?_, sound.stamps.latches,
      sound.stamps.outputs, sound.stamps.terminals⟩, sound.latched, sound.registered, sound.constants, sound.known,
      sound.cached, sound.ticking⟩, rfl⟩
    · obtain ⟨operands, parameters, states, unknowns⟩ := sound.stamps.nodes i node read
      refine ⟨operands, parameters, fun id same => (states id same).trans_le ?_, unknowns⟩
      simp
    · have kept : entry ∈ self.stamps.writes := by
        simpa [stamps, List.zipIdx_append, List.filterMap_append] using member
      obtain ⟨state, source⟩ := sound.stamps.writes entry kept
      refine ⟨state.trans_le ?_, source⟩
      simp

omit [F64 F] in
/-- An output more. -/
theorem output_meets (sound : self.Sound) {value : LocalValueId} (inside : value.index < self.values.length) :
    (output value self).Meets False (fun _ after => after.Sound ∧ after = { self with outputs := self.outputs ++ [value] })
      fun error _ => error = .idExhausted := by
  unfold output
  rw [Call.get_bind]
  by_cases full : 2 ^ 32 ≤ self.outputs.length
  · rw [Call.rejectIf_bind_pos full]
    rfl
  · rw [Call.rejectIf_bind_neg full, Call.set_bind]
    refine ⟨⟨⟨sound.stamps.nodes, sound.stamps.matrix, sound.stamps.rhs, sound.stamps.writes, sound.stamps.latches,
      fun other member => ?_, sound.stamps.terminals⟩, sound.latched, sound.registered, sound.constants, sound.known,
      sound.cached, sound.ticking⟩, rfl⟩
    rcases List.mem_append.mp member with earlier | last
    · exact sound.stamps.outputs other earlier
    · rw [List.mem_singleton.mp last]
      have same : self.stamps.nodes.length = self.values.length := nodes_length
      exact same ▸ inside

end DefinitionTemplateBuilder

end Hynergy
