import Hynergy.Compile.BuilderSteps
import Hynergy.Compile.Composition

/-!
# Instantiating a template

Where a template is instantiated, the enclosing builder holds it: the builder computes its values, and stamps what it
stamps.
-/

namespace Hynergy

open Lib DefinitionTemplateBuilder

variable {F : Type}

/-! ### Unknowns -/

/-- Unknowns of the builder that stand for the unknowns of a template seen so far. -/
structure UnknownsPlaced (before : DefinitionTemplateBuilder F) (terminals : List LocalUnknownId)
    (seen : List LocalUnknownInfo) (done : List LocalUnknownId) (after : DefinitionTemplateBuilder F)
    (new : List LocalUnknownInfo) : Prop where
  after_eq : after = { before with
    unknowns := before.unknowns ++ new
    unknownValues := before.unknownValues ++ List.replicate new.length none
    allocatedUnknownCount := after.allocatedUnknownCount }
  free : ∀ info ∈ new, info.terminal? = none
  length : done.length = seen.length
  own : (ownPlaces seen).map (fun i => (done[i]?.map UnknownIndex.index).getD 0) =
    List.range' before.unknowns.length new.length
  bound : ∀ (i : Nat) info t, seen[i]? = some info → info.terminal? = some t → done[i]? = terminals[t]?
  inside : ∀ id ∈ done, id.index < before.unknowns.length + new.length

/-- An unknown that is bound to no terminal is allocated. -/
theorem allocatedUnknown_meets (kind : LocalUnknownKind) (self : DefinitionTemplateBuilder F) :
    (allocatedUnknown kind self).Meets False (fun id after => id = ⟨self.unknowns.length⟩ ∧
      ∃ info : LocalUnknownInfo, info.terminal? = none ∧ info.kind = kind ∧ after = { self with
        unknowns := self.unknowns ++ [info]
        unknownValues := self.unknownValues ++ [none]
        allocatedUnknownCount := self.allocatedUnknownCount + 1 })
      fun error _ => error = .idExhausted := by
  unfold allocatedUnknown
  rw [Call.get_bind]
  by_cases full : 2 ^ 32 ≤ self.allocatedUnknownCount
  · rw [Call.rejectIf_bind_pos full]
    rfl
  · rw [Call.rejectIf_bind_neg full, Call.set_bind]
    unfold allocateUnknown
    rw [Call.get_bind]
    by_cases many : 2 ^ 32 ≤ self.unknowns.length
    · rw [Call.rejectIf_bind_pos many]
      rfl
    · rw [Call.rejectIf_bind_neg many, Call.set_bind]
      exact ⟨rfl, ⟨kind, .allocated self.allocatedUnknownCount⟩, rfl, rfl, rfl⟩

theorem ownPlaces_append (unknowns : List LocalUnknownInfo) (info : LocalUnknownInfo) :
    ownPlaces (unknowns ++ [info]) = ownPlaces unknowns ++ if info.terminal?.isNone = true then [unknowns.length] else [] :=
  places_append unknowns info

theorem instantiateUnknown_meets {before state : DefinitionTemplateBuilder F} {terminals done : List LocalUnknownId}
    {seen new : List LocalUnknownInfo} {info : LocalUnknownInfo}
    (placed : UnknownsPlaced before terminals seen done state new)
    (given : ∀ id ∈ terminals, id.index < before.unknowns.length) (within : ∀ t, info.terminal? = some t → t < terminals.length) :
    (CompiledDefinitionTemplate.instantiateUnknown terminals info state).Meets False
      (fun value after => ∃ new, UnknownsPlaced before terminals (seen ++ [info]) (done ++ [value]) after new)
      fun error _ => error = .idExhausted := by
  have earlier : ∀ (value : LocalUnknownId), (ownPlaces seen).map (fun i => ((done ++ [value])[i]?.map UnknownIndex.index).getD 0) =
      List.range' before.unknowns.length new.length := by
    intro value
    rw [← placed.own]
    refine List.map_congr_left fun i member => ?_
    obtain ⟨other, read, -⟩ := mem_ownPlaces.mp member
    rw [List.getElem?_append_left (placed.length ▸ (List.getElem?_eq_some_iff.mp read).1)]
  unfold CompiledDefinitionTemplate.instantiateUnknown
  cases binding : info.binding with
  | terminal t =>
    have isTerminal : info.terminal? = some t := by simp [LocalUnknownInfo.terminal?, binding]
    have inside := within t isTerminal
    dsimp only
    rw [List.getElem?_eq_getElem inside, Call.expect_some]
    refine ⟨new, placed.after_eq, placed.free, by simp [placed.length], ?_, fun i other t' read bound => ?_, fun id member => ?_⟩
    · rw [ownPlaces_append, isTerminal, Option.isNone_some, if_neg Bool.false_ne_true, List.append_nil]
      exact earlier _
    · rcases read_concat read with ⟨earlier', below⟩ | ⟨rfl, rfl⟩
      · rw [List.getElem?_append_left (placed.length ▸ below)]
        exact placed.bound i other t' earlier' bound
      · obtain rfl := Option.some.inj (isTerminal.symm.trans bound)
        rw [← placed.length, List.getElem?_concat_length, List.getElem?_eq_getElem inside]
    · rcases List.mem_append.mp member with earlier' | last
      · exact placed.inside id earlier'
      · rw [List.mem_singleton.mp last]
        exact Nat.lt_add_right _ (given _ (List.getElem_mem inside))
  | allocated index =>
    have free : info.terminal? = none := by simp [LocalUnknownInfo.terminal?, binding]
    have allocates : ∀ kind, (allocatedUnknown kind state).Meets False
        (fun value after => ∃ new, UnknownsPlaced before terminals (seen ++ [info]) (done ++ [value]) after new)
        fun error _ => error = .idExhausted := by
      intro kind
      refine (allocatedUnknown_meets kind state).mono id ?_ fun _ _ failed => failed
      rintro value after ⟨isLast, added, addedFree, -, isAfter⟩
      have unknowns : state.unknowns = before.unknowns ++ new := by rw [placed.after_eq]
      have length : state.unknowns.length = before.unknowns.length + new.length := by rw [unknowns, List.length_append]
      refine ⟨new ++ [added], ?_, fun other member => ?_, by simp [placed.length], ?_, fun i other t read bound => ?_,
        fun id member => ?_⟩
      · rw [isAfter, placed.after_eq]
        simp [List.replicate_succ']
      · rcases List.mem_append.mp member with earlier' | last
        · exact placed.free other earlier'
        · exact List.mem_singleton.mp last ▸ addedFree
      · rw [ownPlaces_append, free, Option.isNone_none, if_pos rfl, List.map_append, earlier, List.length_append,
          List.length_singleton, List.range'_concat]
        simp [← placed.length, isLast, length]
      · rcases read_concat read with ⟨earlier', below⟩ | ⟨-, rfl⟩
        · rw [List.getElem?_append_left (placed.length ▸ below)]
          exact placed.bound i other t earlier' bound
        · rw [free] at bound
          cases bound
      · rw [List.length_append, List.length_singleton]
        rcases List.mem_append.mp member with earlier' | last
        · have := placed.inside id earlier'
          omega
        · rw [List.mem_singleton.mp last, isLast]
          show state.unknowns.length < _
          omega
    cases kind : info.kind with
    | voltage => exact allocates .voltage
    | branchCurrent => exact allocates .branchCurrent

/-- The unknowns of a template are placed. -/
theorem instantiateUnknowns_meets {before : DefinitionTemplateBuilder F} {terminals : List LocalUnknownId}
    {unknowns : List LocalUnknownInfo} (given : ∀ id ∈ terminals, id.index < before.unknowns.length)
    (within : unknowns.filterMap LocalUnknownInfo.terminal? = List.range terminals.length) :
    (Call.pushEach (fun _ info => CompiledDefinitionTemplate.instantiateUnknown terminals info) [] unknowns before).Meets
      False (fun done after => ∃ new, UnknownsPlaced before terminals unknowns done after new)
      fun error _ => error = .idExhausted := by
  refine Call.pushEach_meets (fun seen done state => ∃ new, UnknownsPlaced before terminals seen done state new) ?_ ?_
  · rintro seen info rest done state split ⟨new, placed⟩
    refine instantiateUnknown_meets placed given fun t isTerminal => ?_
    have listed : t ∈ unknowns.filterMap LocalUnknownInfo.terminal? :=
      List.mem_filterMap.mpr ⟨info, by simp [← split], isTerminal⟩
    rw [within] at listed
    exact List.mem_range.mp listed
  · exact ⟨[], by simp, by simp, rfl, rfl, by simp, by simp⟩

/-! ### Values -/

namespace Placement

theorem read_parameter (self : Placement) {p : Nat} (inside : p < self.parameters.length) :
    self.parameters[p]? = some ⟨self.parameter p⟩ := by
  simp [parameter, inside]

theorem read_state (self : Placement) {s : Nat} (inside : s < self.states.length) : self.states[s]? = some ⟨self.state s⟩ := by
  simp [state, inside]

theorem read_unknown (self : Placement) {u : Nat} (inside : u < self.unknowns.length) :
    self.unknowns[u]? = some ⟨self.unknown u⟩ := by
  simp [unknown, inside]

theorem read_value (self : Placement) {i : Nat} (inside : i < self.values.length) : self.values[i]? = some ⟨self.value i⟩ := by
  simp [value, inside]

end Placement

/-- The placement with the value of one node more. -/
def Placement.push (self : Placement) (value : LocalValueId) : Placement := { self with values := self.values ++ [value] }

theorem Placement.value_push {self : Placement} {i : Nat} (inside : i < self.values.length) (value : LocalValueId) :
    (self.push value).value i = self.value i := by
  simp [Placement.value, Placement.push, List.getElem?_append_left inside]

theorem Placement.value_push_last (self : Placement) (value : LocalValueId) :
    (self.push value).value self.values.length = value.index := by
  simp [Placement.value, Placement.push]

section Values

variable [F64 F]

/-- Values of the builder that stand for the values of a template seen so far. -/
structure ValuesPlaced (before : DefinitionTemplateBuilder F) (placement : Placement) (seen : List (LocalValueInfo F))
    (after : DefinitionTemplateBuilder F) : Prop where
  sound : after.Sound
  frame : after.frame = before.frame
  latches : after.iterationLatches = before.iterationLatches ++
    (latchPlaces (seen.map LocalValueInfo.node)).map fun i => (⟨placement.value i⟩, none)
  grown : before.values <+: after.values
  length : placement.values.length = seen.length
  inside : ∀ id ∈ placement.values, id.index < after.values.length
  computed : ∀ reading values, Evaluates after.stamps.nodes reading values →
    Evaluates (seen.map LocalValueInfo.node) (placement.reading reading values) fun i => values (placement.value i)
  latch : ∀ (i : Nat) initial, (seen.map LocalValueInfo.node)[i]? = some (.iterationLatch initial) →
    after.stamps.nodes[placement.value i]? = some (.iterationLatch ⟨placement.value initial.index⟩)

variable {before state after : DefinitionTemplateBuilder F} {placement : Placement} {seen : List (LocalValueInfo F)}
  {info : LocalValueInfo F} {value : LocalValueId}

theorem evaluates_grown (grown : state.values <+: after.values) {reading : Reading F} {values : Nat → F}
    (evaluates : Evaluates after.stamps.nodes reading values) : Evaluates state.stamps.nodes reading values := by
  obtain ⟨more, same⟩ := grown
  rw [stamps_nodes, ← same, List.map_append] at evaluates
  exact evaluates.of_append

/-- The values seen before are computed as before; the next is computed as its node says. -/
theorem ValuesPlaced.evaluates_push (placed : ValuesPlaced before placement seen state)
    (earlier : Earlier ((seen ++ [info]).map LocalValueInfo.node)) {reading : Reading F} {values : Nat → F}
    (evaluates : Evaluates state.stamps.nodes reading values)
    (last : values value.index = info.node.eval (placement.reading reading values)
      (fun i => values (placement.value i)) (values value.index)) :
    Evaluates ((seen ++ [info]).map LocalValueInfo.node) ((placement.push value).reading reading values)
      fun i => values ((placement.push value).value i) := by
  have length : (seen.map LocalValueInfo.node).length = placement.values.length := by rw [List.length_map, placed.length]
  rw [evaluates_iff]
  intro i node read
  have operands := earlier i node read
  rw [List.map_append, List.map_singleton] at read
  have same : ∀ held, node.eval (placement.reading reading values) (fun i => values (placement.value i)) held =
      node.eval ((placement.push value).reading reading values) (fun i => values ((placement.push value).value i)) held := by
    intro held
    refine LocalValueNode.eval_congr fun operand member => ?_
    have below := operands operand member
    have inside : i < placement.values.length + 1 := by
      have := (List.getElem?_eq_some_iff.mp read).1
      rw [List.length_append, length] at this
      exact this
    rw [Placement.value_push (by omega)]
  rcases read_concat read with ⟨there, below⟩ | ⟨rfl, rfl⟩
  · rw [Placement.value_push (length ▸ below), ← same]
    exact (placed.computed reading values evaluates).read there
  · rw [length, Placement.value_push_last, ← same]
    exact last

theorem ValuesPlaced.latch_push (placed : ValuesPlaced before placement seen state) (grown : state.values <+: after.values)
    (earlier : Earlier (seen.map LocalValueInfo.node)) {i : Nat} {initial : LocalValueId}
    (read : (seen.map LocalValueInfo.node)[i]? = some (.iterationLatch initial)) :
    after.stamps.nodes[(placement.push value).value i]? =
      some (.iterationLatch ⟨(placement.push value).value initial.index⟩) := by
  have inside : i < placement.values.length := by
    have := (List.getElem?_eq_some_iff.mp read).1
    rwa [List.length_map, ← placed.length] at this
  have below := earlier i _ read initial.index (by simp [LocalValueNode.operands])
  rw [Placement.value_push inside, Placement.value_push (below.trans inside)]
  exact read_grown grown (placed.latch i initial read)

/-- The next value, of a node that is no latch. -/
theorem ValuesPlaced.step (placed : ValuesPlaced before placement seen state) {expected : Reading F → (Nat → F) → F}
    (computes : Computes state expected value after) (noLatch : info.node.isLatch = false)
    (earlier : Earlier ((seen ++ [info]).map LocalValueInfo.node))
    (means : ∀ reading values, expected reading values =
      info.node.eval (placement.reading reading values) (fun i => values (placement.value i)) F64.zero) :
    ValuesPlaced before (placement.push value) (seen ++ [info]) after := by
  have earlierSeen : Earlier (seen.map LocalValueInfo.node) := by
    intro i node read
    refine earlier i node ?_
    rw [List.map_append, List.getElem?_append_left (List.getElem?_eq_some_iff.mp read).1, read]
  refine ⟨computes.sound, computes.frame.trans placed.frame, ?_, placed.grown.trans computes.grown, ?_,
    fun id member => ?_, fun reading values evaluates => ?_, fun i initial read => ?_⟩
  · rw [computes.latches, placed.latches, List.map_append, List.map_singleton, latchPlaces, latchPlaces, places_append,
      noLatch, if_neg Bool.false_ne_true, List.append_nil]
    congr 1
    refine List.map_congr_left fun i member => ?_
    obtain ⟨node, read, -⟩ := mem_places.mp member
    have := (List.getElem?_eq_some_iff.mp read).1
    rw [List.length_map, ← placed.length] at this
    rw [Placement.value_push this]
  · simp [Placement.push, placed.length]
  · rcases List.mem_append.mp member with there | last
    · exact (placed.inside id there).trans_le computes.grown.length_le
    · exact List.mem_singleton.mp last ▸ computes.inside
  · refine placed.evaluates_push earlier (evaluates_grown computes.grown evaluates) ?_
    rw [computes.computed reading values evaluates, means]
    exact LocalValueNode.eval_held noLatch
  · rw [List.map_append, List.map_singleton] at read
    rcases read_concat read with ⟨there, -⟩ | ⟨-, same⟩
    · exact placed.latch_push computes.grown earlierSeen there
    · rw [← same] at noLatch
      cases noLatch

/-- The next value, of a latch. -/
theorem ValuesPlaced.step_latch (placed : ValuesPlaced before placement seen state) {initial : LocalValueId}
    (isLatch : info.node = .iterationLatch initial) (earlier : Earlier ((seen ++ [info]).map LocalValueInfo.node))
    (sound : after.Sound) (isAfter : after = { state.push ⟨.iterationLatch ⟨placement.value initial.index⟩, none⟩ with
      iterationLatches := state.iterationLatches ++ [(⟨state.values.length⟩, none)] }) :
    ValuesPlaced before (placement.push ⟨state.values.length⟩) (seen ++ [info]) after := by
  have grown : state.values <+: after.values := by
    rw [isAfter]
    exact List.prefix_append _ _
  have earlierSeen : Earlier (seen.map LocalValueInfo.node) := by
    intro i node read
    refine earlier i node ?_
    rw [List.map_append, List.getElem?_append_left (List.getElem?_eq_some_iff.mp read).1, read]
  have latchNode : after.stamps.nodes[state.values.length]? = some (.iterationLatch ⟨placement.value initial.index⟩) := by
    rw [isAfter]
    exact push_read _
  refine ⟨sound, ?_, ?_, placed.grown.trans grown, by simp [Placement.push, placed.length], fun id member => ?_,
    fun reading values evaluates => ?_, fun i first read => ?_⟩
  · rw [isAfter]
    exact placed.frame
  · rw [isAfter]
    show state.iterationLatches ++ [(⟨state.values.length⟩, none)] = _
    rw [placed.latches, List.append_assoc, List.map_append, List.map_singleton, latchPlaces, latchPlaces, places_append,
      isLatch, LocalValueNode.isLatch, if_pos rfl, List.map_append, List.map_singleton, List.length_map, ← placed.length,
      Placement.value_push_last]
    congr 2
    refine List.map_congr_left fun i member => ?_
    obtain ⟨node, read, -⟩ := mem_places.mp member
    have := (List.getElem?_eq_some_iff.mp read).1
    rw [List.length_map, ← placed.length] at this
    rw [Placement.value_push this]
  · have longer : after.values.length = state.values.length + 1 := by
      rw [isAfter]
      simp [DefinitionTemplateBuilder.push]
    rcases List.mem_append.mp member with there | last
    · exact (placed.inside id there).trans_le grown.length_le
    · rw [List.mem_singleton.mp last, longer]
      exact Nat.lt_succ_self _
  · refine placed.evaluates_push earlier (evaluates_grown grown evaluates) ?_
    rw [isLatch]
    rfl
  · rw [List.map_append, List.map_singleton] at read
    rcases read_concat read with ⟨there, -⟩ | ⟨rfl, same⟩
    · exact placed.latch_push grown earlierSeen there
    · obtain rfl := LocalValueNode.iterationLatch.inj (same.trans isLatch)
      have below := earlier seen.length info.node (by simp) first.index (by simp [isLatch, LocalValueNode.operands])
      rw [List.length_map, ← placed.length, Placement.value_push_last, Placement.value_push (placed.length ▸ below)]
      exact latchNode

/-- What a placement is given is there. -/
structure Given (before : DefinitionTemplateBuilder F) (placement : Placement) : Prop where
  parameters : ∀ id ∈ placement.parameters, id.index < before.values.length
  states : ∀ id ∈ placement.states, id.index < before.stateWrites.length
  unknowns : ∀ id ∈ placement.unknowns, id.index < before.unknowns.length

/-- The next value stands for the next node. -/
theorem instantiateValue_meets (placed : ValuesPlaced before placement seen state) (given : Given before placement)
    (earlier : Earlier ((seen ++ [info]).map LocalValueInfo.node))
    (inside : info.node.Inside seen.length placement.parameters.length placement.states.length placement.unknowns.length) :
    (CompiledDefinitionTemplate.instantiateValue placement.parameters placement.states placement.unknowns placement.values
      info state).Meets False (fun value after => ValuesPlaced before (placement.push value) (seen ++ [info]) after)
      fun error _ => error = .idExhausted := by
  have operand : ∀ id : LocalValueId, id.index ∈ info.node.operands →
      placement.values[id.index]? = some ⟨placement.value id.index⟩ ∧ placement.value id.index < state.values.length := by
    intro id member
    have below : id.index < placement.values.length := placed.length ▸ inside.operands _ member
    have read := placement.read_value below
    exact ⟨read, placed.inside _ (List.mem_of_getElem? read)⟩
  have states : state.stateWrites = before.stateWrites := by
    have same : state.frame.stateWrites = before.frame.stateWrites := by rw [placed.frame]
    exact same
  have unknowns : state.unknowns = before.unknowns := by
    have same : state.frame.unknowns = before.frame.unknowns := by rw [placed.frame]
    exact same
  unfold CompiledDefinitionTemplate.instantiateValue
  cases isNode : info.node with
  | parameter p =>
    have read := placement.read_parameter (inside.parameter p isNode)
    have there := (given.parameters _ (List.mem_of_getElem? read)).trans_le placed.grown.length_le
    dsimp only
    rw [read, Call.expect_some]
    exact placed.step (placed.sound.computes_given there) (by rw [isNode]; rfl) earlier fun _ _ => by rw [isNode]; rfl
  | constant c =>
    refine (constant_meets placed.sound c).mono id ?_ fun _ _ failed => failed
    rintro value after ⟨computes, -⟩
    exact placed.step computes (by rw [isNode]; rfl) earlier fun _ _ => by rw [isNode]; rfl
  | timestep =>
    refine (timestep_meets placed.sound).mono id ?_ fun _ _ failed => failed
    intro value after computes
    exact placed.step computes (by rw [isNode]; rfl) earlier fun _ _ => by rw [isNode]; rfl
  | state s =>
    have read := placement.read_state (inside.state s isNode)
    have there := given.states _ (List.mem_of_getElem? read)
    dsimp only
    rw [read, Call.expect_some_bind]
    refine (state_meets placed.sound (states ▸ there)).mono id ?_ fun _ _ failed => failed
    intro value after computes
    exact placed.step computes (by rw [isNode]; rfl) earlier fun _ _ => by rw [isNode]; rfl
  | unknown u =>
    have read := placement.read_unknown (inside.unknown u isNode)
    have there := given.unknowns _ (List.mem_of_getElem? read)
    dsimp only
    rw [read, Call.expect_some_bind]
    refine (unknownValue_meets placed.sound (unknowns ▸ there)).mono id ?_ fun _ _ failed => failed
    rintro value after ⟨computes, -⟩
    exact placed.step computes (by rw [isNode]; rfl) earlier fun _ _ => by rw [isNode]; rfl
  | binary op lhs rhs =>
    obtain ⟨readLeft, left⟩ := operand lhs (by simp [isNode, LocalValueNode.operands])
    obtain ⟨readRight, right⟩ := operand rhs (by simp [isNode, LocalValueNode.operands])
    dsimp only
    rw [readLeft, Call.expect_some_bind, readRight, Call.expect_some_bind]
    refine (binary_meets placed.sound op (show (⟨_⟩ : LocalValueId).index < _ from left)
      (show (⟨_⟩ : LocalValueId).index < _ from right)).mono id ?_ fun _ _ failed => failed
    rintro value after ⟨computes, -⟩
    exact placed.step computes (by rw [isNode]; rfl) earlier fun _ _ => by rw [isNode]; rfl
  | iterationLatch initial =>
    obtain ⟨read, there⟩ := operand initial (by simp [isNode, LocalValueNode.operands])
    dsimp only
    rw [read, Call.expect_some_bind]
    refine Call.meets_bind ((iterationLatch_meets placed.sound (show (⟨_⟩ : LocalValueId).index < _ from there)).mono id ?_ fun _ _ failed => failed)
    rintro latch after ⟨sound, rfl, isAfter⟩
    exact placed.step_latch isNode earlier sound isAfter
  | neg value =>
    obtain ⟨read, there⟩ := operand value (by simp [isNode, LocalValueNode.operands])
    dsimp only
    rw [read, Call.expect_some_bind]
    refine (neg_meets placed.sound (show (⟨_⟩ : LocalValueId).index < _ from there)).mono id ?_ fun _ _ failed => failed
    intro value after computes
    exact placed.step computes (by rw [isNode]; rfl) earlier fun _ _ => by rw [isNode]; rfl

/-- The values of a template are placed. -/
theorem instantiateValues_meets (placement : Placement) (sound : before.Sound) {values : List (LocalValueInfo F)} (given : Given before placement)
    (inside : ∀ (i : Nat) node, (values.map LocalValueInfo.node)[i]? = some node →
      node.Inside i placement.parameters.length placement.states.length placement.unknowns.length) :
    (Call.pushEach (CompiledDefinitionTemplate.instantiateValue placement.parameters placement.states placement.unknowns)
      [] values before).Meets False
      (fun done after => ValuesPlaced before { placement with values := done } values after)
      fun error _ => error = .idExhausted := by
  refine Call.pushEach_meets (fun seen done state => ValuesPlaced before { placement with values := done } seen state) ?_ ?_
  · rintro seen info rest done state split placed
    have read : ∀ (i : Nat) node, ((seen ++ [info]).map LocalValueInfo.node)[i]? = some node →
        (values.map LocalValueInfo.node)[i]? = some node := by
      intro i node there
      have below := (List.getElem?_eq_some_iff.mp there).1
      rw [← split, List.append_cons, List.map_append, List.getElem?_append_left below, there]
    have ahead : Given before { placement with values := done } := ⟨given.parameters, given.states, given.unknowns⟩
    refine instantiateValue_meets placed ahead (fun i node there => (inside i node (read i node there)).operands) ?_
    exact inside seen.length info.node (read _ _ (by simp))
  · exact ⟨sound, rfl, by simp [latchPlaces, places], List.prefix_rfl, rfl, by simp, by simp [evaluates_iff], by simp⟩

end Values

/-! ### Stamping -/

/-- The slots of the states after the writes. -/
def writeAll (writes : List (LocalStateId × LocalValueId)) (slots : List (Option LocalValueId)) : List (Option LocalValueId) :=
  writes.foldl (fun slots entry => slots.set entry.1.index (some entry.2)) slots

section Writes

variable {writes : List (LocalStateId × LocalValueId)} {slots : List (Option LocalValueId)}

theorem writeAll_length : (writeAll writes slots).length = slots.length := by
  induction writes generalizing slots with
  | nil => rfl
  | cons entry writes ih => exact ih.trans List.length_set

theorem writeAll_other {s : Nat} (other : s ∉ writes.map (·.1.index)) : (writeAll writes slots)[s]? = slots[s]? := by
  induction writes generalizing slots with
  | nil => rfl
  | cons entry writes ih =>
    rw [List.map_cons, List.mem_cons, not_or] at other
    exact (ih other.2).trans (List.getElem?_set_ne (Ne.symm other.1))

theorem writeAll_written {entry : LocalStateId × LocalValueId} (distinct : (writes.map (·.1.index)).Nodup)
    (member : entry ∈ writes) (inside : entry.1.index < slots.length) :
    (writeAll writes slots)[entry.1.index]? = some (some entry.2) := by
  induction writes generalizing slots with
  | nil => cases member
  | cons first writes ih =>
    rw [List.map_cons, List.nodup_cons] at distinct
    rcases List.mem_cons.mp member with rfl | later
    · exact (writeAll_other distinct.1).trans (List.getElem?_set_self inside)
    · exact ih distinct.2 later (inside.trans_eq List.length_set.symm)

/-- What is in a slot was there, or was written. -/
theorem writeAll_cases {s : Nat} {value : LocalValueId} (read : (writeAll writes slots)[s]? = some (some value)) :
    slots[s]? = some (some value) ∨ ∃ entry ∈ writes, entry.2 = value := by
  induction writes generalizing slots with
  | nil => exact Or.inl read
  | cons first writes ih =>
    rcases ih read with there | ⟨entry, later, same⟩
    · rw [List.getElem?_set] at there
      split at there
      · split at there
        · exact Or.inr ⟨first, List.mem_cons_self, Option.some.inj (Option.some.inj there)⟩
        · cases there
      · exact Or.inl there
    · exact Or.inr ⟨entry, List.mem_cons_of_mem _ later, same⟩

end Writes

namespace DefinitionTemplateBuilder

def withLatches (self : DefinitionTemplateBuilder F) (latches : List (LocalValueId × Option LocalValueId)) :
    DefinitionTemplateBuilder F :=
  { self with iterationLatches := latches }

def withStability (self : DefinitionTemplateBuilder F) (values : List LocalValueId) : DefinitionTemplateBuilder F :=
  { self with iterationStabilityValues := self.iterationStabilityValues ++ values }

def withModes (self : DefinitionTemplateBuilder F) (modes : List LocalValueId) : DefinitionTemplateBuilder F :=
  { self.withStability modes with discreteModes := self.discreteModes ++ modes }

def withDrivers (self : DefinitionTemplateBuilder F) (drivers : List LocalComplementaryDriver) : DefinitionTemplateBuilder F :=
  { self with complementaryDrivers := self.complementaryDrivers ++ drivers }

def withMatrix (self : DefinitionTemplateBuilder F) (terms : List (PendingMatrixTerm F)) : DefinitionTemplateBuilder F :=
  { self with matrixTerms := self.matrixTerms ++ terms }

def withRhs (self : DefinitionTemplateBuilder F) (terms : List (LocalRhsTerm F)) : DefinitionTemplateBuilder F :=
  { self with rhsTerms := self.rhsTerms ++ terms }

def withWrites (self : DefinitionTemplateBuilder F) (writes : List (LocalStateId × LocalValueId)) :
    DefinitionTemplateBuilder F :=
  { self with stateWrites := writeAll writes self.stateWrites }

end DefinitionTemplateBuilder

section Stamping

open CompiledDefinitionTemplate

variable {state : DefinitionTemplateBuilder F} (placement : Placement)

/-- The latch is the one that has no update yet. -/
theorem updateIterationLatch_ok {earlier later : List (LocalValueId × Option LocalValueId)} {value update : LocalValueId}
    (given : state.iterationLatches = earlier ++ (value, none) :: later) (fresh : ∀ entry ∈ earlier, entry.1 ≠ value) :
    updateIterationLatch ⟨value⟩ update state =
      .ok () (state.withLatches (earlier ++ (value, some update) :: later)) := by
  have place : (earlier ++ (value, none) :: later).findIdx? (fun candidate => decide (candidate.1 = value)) =
      some earlier.length := by
    rw [List.findIdx?_append, List.findIdx?_eq_none_iff.mpr fun entry member => decide_eq_false (fresh entry member)]
    simp [List.findIdx?_cons]
  unfold updateIterationLatch
  rw [Call.get_bind, given, place, Call.expect_some_bind, List.getElem?_append_right (Nat.le_refl _), Nat.sub_self,
    List.getElem?_cons_zero, Call.expect_some_bind, Call.assert_bind rfl]
  simp [withLatches]

/-- A latch at its place, without its update and with it. -/
def Placement.openLatch (self : Placement) (entry : LocalValueId × LocalValueId) : LocalValueId × Option LocalValueId :=
  (⟨self.value entry.1.index⟩, none)

def Placement.latch (self : Placement) (entry : LocalValueId × LocalValueId) : LocalValueId × Option LocalValueId :=
  (⟨self.value entry.1.index⟩, some ⟨self.value entry.2.index⟩)

/-- The latches are updated in order. -/
theorem instantiateLatches_ok {latches : List (LocalValueId × LocalValueId)}
    {before : List (LocalValueId × Option LocalValueId)}
    (inside : ∀ entry ∈ latches, entry.1.index < placement.values.length ∧ entry.2.index < placement.values.length)
    (fresh : (before.map (·.1.index) ++ latches.map fun entry => placement.value entry.1.index).Nodup)
    (given : state.iterationLatches = before ++ latches.map placement.openLatch) :
    (latches.forM (instantiateLatch placement.values)) state =
      .ok ⟨⟩ (state.withLatches (before ++ latches.map placement.latch)) := by
  refine Call.forM_steps (fun seen => state.withLatches
    ((before ++ seen.map placement.latch) ++ (latches.drop seen.length).map placement.openLatch))
    (fun seen entry rest split => ?_) (by simp [withLatches, ← given]) (by simp)
  have member : entry ∈ latches := by simp [← split]
  obtain ⟨latchInside, updateInside⟩ := inside entry member
  have apart : placement.value entry.1.index ∉
      before.map (·.1.index) ++ seen.map fun entry => placement.value entry.1.index := by
    rw [← split, List.map_append, List.map_cons, ← List.append_assoc] at fresh
    exact fun there => List.disjoint_of_nodup_append fresh there List.mem_cons_self
  have unset : (before ++ seen.map placement.latch) ++ (latches.drop seen.length).map placement.openLatch =
      (before ++ seen.map placement.latch) ++ (⟨placement.value entry.1.index⟩, none) :: rest.map placement.openLatch := by
    rw [← split, List.drop_left]
    rfl
  rw [instantiateLatch, placement.read_value latchInside, Call.expect_some_bind, placement.read_value updateInside,
    Call.expect_some_bind, updateIterationLatch_ok unset]
  · simp [withLatches, ← split, Placement.latch, List.drop_append]
  · intro other there same
    refine apart ?_
    rcases List.mem_append.mp there with earlier | updated
    · exact List.mem_append_left _ (List.mem_map.mpr ⟨other, earlier, congrArg ValueSlot.index same⟩)
    · obtain ⟨latch, listed, rfl⟩ := List.mem_map.mp updated
      exact List.mem_append_right _ (List.mem_map.mpr ⟨latch, listed, congrArg ValueSlot.index same⟩)

theorem instantiateStabilities_ok {values : List LocalValueId}
    (inside : ∀ value ∈ values, value.index < placement.values.length) :
    (values.forM (instantiateStability placement.values)) state =
      .ok ⟨⟩ (state.withStability (values.map fun value => ⟨placement.value value.index⟩)) := by
  refine Call.forM_steps (fun seen => state.withStability (seen.map fun value => ⟨placement.value value.index⟩))
    (fun seen value rest split => ?_) (by simp [withStability]) rfl
  rw [instantiateStability, placement.read_value (inside value (by simp [← split])), Call.expect_some_bind]
  simp [requireIterationStability, withStability]

theorem instantiateModes_ok {modes : List LocalValueId} (inside : ∀ mode ∈ modes, mode.index < placement.values.length) :
    (modes.forM (instantiateMode placement.values)) state =
      .ok ⟨⟩ (state.withModes (modes.map fun mode => ⟨placement.value mode.index⟩)) := by
  refine Call.forM_steps (fun seen => state.withModes (seen.map fun mode => ⟨placement.value mode.index⟩))
    (fun seen mode rest split => ?_) (by simp [withModes, withStability]) rfl
  rw [instantiateMode, placement.read_value (inside mode (by simp [← split])), Call.expect_some_bind]
  simp [discreteMode, requireIterationStability, Call.bind_bind, withModes, withStability]

/-- A driver at its place. -/
def Placement.driver (self : Placement) (driver : LocalComplementaryDriver) : LocalComplementaryDriver :=
  ⟨⟨⟨self.value driver.mode.value.index⟩⟩, ⟨self.unknown driver.output.index⟩, ⟨self.unknown driver.highRail.index⟩,
    ⟨self.unknown driver.lowRail.index⟩, ⟨self.value driver.pullUp.index⟩, ⟨self.value driver.pullDown.index⟩⟩

theorem instantiateDrivers_ok {drivers : List LocalComplementaryDriver} {stability modes : List LocalValueId}
    (registered : Registered placement.values.length placement.unknowns.length stability modes drivers) :
    (drivers.forM (instantiateDriver placement.unknowns placement.values)) state =
      .ok ⟨⟩ (state.withDrivers (drivers.map placement.driver)) := by
  refine Call.forM_steps (fun seen => state.withDrivers (seen.map placement.driver)) (fun seen driver rest split => ?_)
    (by simp [withDrivers]) rfl
  obtain ⟨⟨mode, up, down⟩, output, high, low⟩ := registered.drivers driver (by simp [← split])
  rw [instantiateDriver, placement.read_value mode, Call.expect_some_bind, placement.read_unknown output,
    Call.expect_some_bind, placement.read_unknown high, Call.expect_some_bind, placement.read_unknown low,
    Call.expect_some_bind, placement.read_value up, Call.expect_some_bind, placement.read_value down, Call.expect_some_bind]
  simp [registerComplementaryDriver, Placement.driver, withDrivers]

theorem instantiateWrites_ok {writes : List (LocalStateId × LocalValueId)}
    (inside : ∀ entry ∈ writes, entry.1.index < placement.states.length ∧ entry.2.index < placement.values.length)
    (distinct : (writes.map fun entry => placement.state entry.1.index).Nodup)
    (unwritten : ∀ entry ∈ writes, state.stateWrites[placement.state entry.1.index]? = some none) :
    (writes.forM (instantiateWrite placement.states placement.values)) state = .ok ⟨⟩ (state.withWrites
      (writes.map fun entry => (⟨placement.state entry.1.index⟩, ⟨placement.value entry.2.index⟩))) := by
  refine Call.forM_steps (fun seen => state.withWrites
    (seen.map fun entry => (⟨placement.state entry.1.index⟩, ⟨placement.value entry.2.index⟩)))
    (fun seen entry rest split => ?_) rfl rfl
  have member : entry ∈ writes := by simp [← split]
  obtain ⟨stateInside, sourceInside⟩ := inside entry member
  have other : placement.state entry.1.index ∉ seen.map fun entry => placement.state entry.1.index := by
    rw [← split, List.map_append, List.map_cons] at distinct
    exact fun again => (List.disjoint_of_nodup_append distinct) again List.mem_cons_self
  have free : (writeAll (seen.map fun entry => ((⟨placement.state entry.1.index⟩ : LocalStateId),
      (⟨placement.value entry.2.index⟩ : LocalValueId))) state.stateWrites)[placement.state entry.1.index]? = some none := by
    rw [writeAll_other (by rwa [List.map_map]), unwritten entry member]
  rw [instantiateWrite, placement.read_state stateInside, Call.expect_some_bind, placement.read_value sourceInside,
    Call.expect_some_bind, writeStateId, Call.get_bind, withWrites]
  dsimp only
  rw [free, Call.expect_some_bind, Call.rejectIf_bind_neg (by simp)]
  simp [writeAll, withWrites]

/-- The outputs are read. -/
theorem instantiateOutputs_ok {outputs : List LocalValueId} (inside : ∀ output ∈ outputs, output.index < placement.values.length) :
    (outputs.mapM fun output => placement.values[output.index]?) =
      some (outputs.map fun output => ⟨placement.value output.index⟩) := by
  induction outputs with
  | nil => rfl
  | cons output outputs ih =>
    rw [List.mapM_cons, placement.read_value (inside output List.mem_cons_self),
      ih fun other member => inside other (List.mem_cons_of_mem _ member)]
    rfl

variable [F64 F]

theorem instantiateMatrix_ok {entries : List LocalMatrixEntry} {terms : List (LocalMatrixTerm F)}
    (present : ∀ term ∈ terms, (term.pending entries).isSome = true)
    (inside : ∀ term ∈ terms.filterMap (LocalMatrixTerm.pending entries), term.row.index < placement.unknowns.length ∧
      term.column.index < placement.unknowns.length ∧ term.source.index < placement.values.length) :
    (terms.forM (instantiateMatrixTerm entries placement.unknowns placement.values)) state = .ok ⟨⟩ (state.withMatrix
      ((terms.filterMap (LocalMatrixTerm.pending entries)).flatMap fun term =>
        unlessZero term.scale (placement.matrixTerm term))) := by
  refine Call.forM_steps (fun seen => state.withMatrix
    ((seen.filterMap (LocalMatrixTerm.pending entries)).flatMap fun term =>
      unlessZero term.scale (placement.matrixTerm term))) (fun seen term rest split => ?_) (by simp [withMatrix]) rfl
  have member : term ∈ terms := by simp [← split]
  obtain ⟨pending, isPending⟩ := Option.isSome_iff_exists.mp (present term member)
  obtain ⟨entry, read, rfl⟩ := Option.map_eq_some_iff.mp isPending
  obtain ⟨row, column, source⟩ := inside _ (List.mem_filterMap.mpr ⟨term, member, isPending⟩)
  rw [instantiateMatrixTerm, read, Call.expect_some_bind, placement.read_unknown row, Call.expect_some_bind,
    placement.read_unknown column, Call.expect_some_bind, placement.read_value source, Call.expect_some_bind]
  simp [addMatrix, List.filterMap_append, isPending, Placement.matrixTerm, withMatrix]

theorem instantiateRhs_ok {terms : List (LocalRhsTerm F)} (inside : ∀ term ∈ terms,
      term.destination.index < placement.unknowns.length ∧ term.source.index < placement.values.length) :
    (terms.forM (instantiateRhsTerm placement.unknowns placement.values)) state =
      .ok ⟨⟩ (state.withRhs (terms.flatMap fun term => unlessZero term.scale (placement.rhsTerm term))) := by
  refine Call.forM_steps (fun seen => state.withRhs (seen.flatMap fun term =>
    unlessZero term.scale (placement.rhsTerm term))) (fun seen term rest split => ?_) (by simp [withRhs]) rfl
  obtain ⟨destination, source⟩ := inside term (by simp [← split])
  rw [instantiateRhsTerm, placement.read_unknown destination, Call.expect_some_bind, placement.read_value source,
    Call.expect_some_bind]
  simp [addRhs, Placement.rhsTerm, withRhs]

/-- The builder with what a template stamps at its place. -/
def Placement.stamped (placement : Placement) (template : CompiledDefinitionTemplate F)
    (earlier : List (LocalValueId × Option LocalValueId)) (state : DefinitionTemplateBuilder F) :
    DefinitionTemplateBuilder F :=
  { state with
    iterationLatches := earlier ++ template.iterationLatches.map placement.latch
    iterationStabilityValues := state.iterationStabilityValues ++
      (template.iterationStabilityValues.map fun value => ⟨placement.value value.index⟩) ++
      template.discreteModes.map fun mode => ⟨placement.value mode.index⟩
    discreteModes := state.discreteModes ++ template.discreteModes.map fun mode => ⟨placement.value mode.index⟩
    complementaryDrivers := state.complementaryDrivers ++ template.complementaryDrivers.map placement.driver
    matrixTerms := state.matrixTerms ++ Part.matrix ⟨template.stamps, placement⟩
    rhsTerms := state.rhsTerms ++ Part.rhs ⟨template.stamps, placement⟩
    stateWrites := writeAll (Part.writes ⟨template.stamps, placement⟩) state.stateWrites }

theorem instantiateStamps_ok {template : CompiledDefinitionTemplate F} (ready : template.Sound)
    {earlier : List (LocalValueId × Option LocalValueId)} (unknowns : placement.unknowns.length = template.unknowns.length)
    (values : placement.values.length = template.values.length) (states : placement.states.length = template.stateCount)
    (fresh : (earlier.map (·.1.index) ++ template.iterationLatches.map fun entry => placement.value entry.1.index).Nodup)
    (given : state.iterationLatches = earlier ++ template.iterationLatches.map placement.openLatch)
    (distinct : (template.stateWrites.map fun entry => placement.state entry.1.index).Nodup)
    (unwritten : ∀ entry ∈ template.stateWrites, state.stateWrites[placement.state entry.1.index]? = some none) :
    template.instantiateStamps placement.states placement.unknowns placement.values state =
      .ok () (placement.stamped template earlier state) := by
  have nodes : template.stamps.nodes.length = placement.values.length := values ▸ List.length_map _
  have stamps := ready.stamps
  have registered := ready.registered
  rw [← values, ← unknowns] at registered
  have latches : ∀ entry ∈ template.iterationLatches,
      entry.1.index < placement.values.length ∧ entry.2.index < placement.values.length := by
    intro entry member
    have latched : entry.1.index ∈ latchPlaces template.stamps.nodes :=
      ready.latched ▸ List.mem_map_of_mem (f := fun entry : LocalValueId × LocalValueId => entry.1.index) member
    obtain ⟨node, read, -⟩ := mem_latchPlaces.mp latched
    exact ⟨nodes ▸ (List.getElem?_eq_some_iff.mp read).1, nodes ▸ stamps.latches entry member⟩
  have matrix : ∀ term ∈ template.stamps.matrix, term.row.index < placement.unknowns.length ∧
      term.column.index < placement.unknowns.length ∧ term.source.index < placement.values.length := by
    rw [unknowns, ← nodes]
    exact stamps.matrix
  have rhs : ∀ term ∈ template.rhsTerms,
      term.destination.index < placement.unknowns.length ∧ term.source.index < placement.values.length := by
    rw [unknowns, ← nodes]
    exact stamps.rhs
  have writes : ∀ entry ∈ template.stateWrites,
      entry.1.index < placement.states.length ∧ entry.2.index < placement.values.length := by
    rw [states, ← nodes]
    exact stamps.writes
  unfold CompiledDefinitionTemplate.instantiateStamps
  rw [Call.bind_ok (instantiateLatches_ok placement latches fresh given),
    Call.bind_ok (instantiateStabilities_ok placement registered.stability),
    Call.bind_ok (instantiateModes_ok placement registered.modes),
    Call.bind_ok (instantiateDrivers_ok placement registered),
    Call.bind_ok (instantiateMatrix_ok placement ready.entries matrix),
    Call.bind_ok (instantiateRhs_ok placement rhs)]
  rw [instantiateWrites_ok placement writes distinct]
  · simp only [withLatches, withStability, withModes, withDrivers, withMatrix, withRhs, withWrites]
    rfl
  · simp only [withLatches, withStability, withModes, withDrivers, withMatrix, withRhs]
    exact unwritten

end Stamping

/-! ### Soundness -/

section Soundness

variable {self before after : DefinitionTemplateBuilder F}

/-- Unknowns of the template's own change nothing of what is there. -/
theorem UnknownsPlaced.sound {terminals done : List LocalUnknownId} {seen new : List LocalUnknownInfo}
    (placed : UnknownsPlaced before terminals seen done after new) (sound : before.Sound) : after.Sound := by
  have free : new.filterMap LocalUnknownInfo.terminal? = [] := List.filterMap_eq_nil_iff.mpr placed.free
  rw [placed.after_eq]
  refine sound.withUnknowns new after.allocatedUnknownCount ?_
  rw [List.filterMap_append, free, List.append_nil]
  exact sound.stamps.terminals

/-- What is stamped of values and unknowns that are there is sound. -/
theorem DefinitionTemplateBuilder.Sound.stamped (sound : self.Sound) {latches : List (LocalValueId × Option LocalValueId)}
    {stability modes : List LocalValueId} {drivers : List LocalComplementaryDriver} {matrix : List (PendingMatrixTerm F)}
    {rhs : List (LocalRhsTerm F)} {writes : List (Option LocalValueId)}
    (latched : latches.map (·.1.index) = self.iterationLatches.map (·.1.index))
    (updates : ∀ entry ∈ latches, ∀ update, entry.2 = some update → update.index < self.values.length)
    (registered : Registered self.values.length self.unknowns.length stability modes drivers)
    (matrixInside : ∀ term ∈ matrix, term.row.index < self.unknowns.length ∧ term.column.index < self.unknowns.length ∧
      term.source.index < self.values.length)
    (rhsInside : ∀ term ∈ rhs, term.destination.index < self.unknowns.length ∧ term.source.index < self.values.length)
    (length : writes.length = self.stateWrites.length)
    (written : ∀ (s : Nat) value, writes[s]? = some (some value) → value.index < self.values.length) :
    ({ self with
      iterationLatches := latches
      iterationStabilityValues := stability
      discreteModes := modes
      complementaryDrivers := drivers
      matrixTerms := matrix
      rhsTerms := rhs
      stateWrites := writes } : DefinitionTemplateBuilder F).Sound := by
  have nodes : self.stamps.nodes.length = self.values.length := nodes_length
  refine ⟨⟨fun i node read => ?_, fun term member => ?_, fun term member => ?_, fun entry member => ?_,
    fun entry member => ?_, sound.stamps.outputs, sound.stamps.terminals⟩, latched.trans sound.latched, registered,
    sound.constants, sound.known, sound.cached, sound.ticking⟩
  · obtain ⟨operands, parameters, states, unknowns⟩ := sound.stamps.nodes i node read
    exact ⟨operands, parameters, fun id same => (states id same).trans_eq length.symm, unknowns⟩
  · obtain ⟨row, column, source⟩ := matrixInside term member
    exact ⟨row, column, source.trans_eq nodes.symm⟩
  · obtain ⟨destination, source⟩ := rhsInside term member
    exact ⟨destination, source.trans_eq nodes.symm⟩
  · obtain ⟨⟨slot, s⟩, listed, isEntry⟩ := List.mem_filterMap.mp member
    obtain ⟨value, rfl, rfl⟩ := Option.map_eq_some_iff.mp isEntry
    have read := List.mem_zipIdx_iff_getElem?.mp listed
    exact ⟨(List.getElem?_eq_some_iff.mp read).1, (written s value read).trans_eq nodes.symm⟩
  · obtain ⟨⟨latch, update⟩, listed, isEntry⟩ := List.mem_filterMap.mp member
    obtain ⟨value, rfl, rfl⟩ := Option.map_eq_some_iff.mp isEntry
    exact (updates _ listed value rfl).trans_eq nodes.symm

end Soundness

/-! ### Instantiating -/

section Instantiating

variable [F64 F] {before after : DefinitionTemplateBuilder F}

/-- A part is there: its values are computed, and what it stamps and writes is added to what there was. -/
structure Instantiated (before : DefinitionTemplateBuilder F) (part : Part F) (after : DefinitionTemplateBuilder F) : Prop where
  sound : after.Sound
  placed : part.Sound
  grown : before.values <+: after.values
  evaluates : ∀ reading values, Evaluates after.stamps.nodes reading values →
    Evaluates part.stamps.nodes (part.placement.reading reading values) fun i => values (part.placement.value i)
  latch : ∀ (i : Nat) initial, part.stamps.nodes[i]? = some (.iterationLatch initial) →
    after.stamps.nodes[part.placement.value i]? = some (.iterationLatch ⟨part.placement.value initial.index⟩)
  inside : ∀ i < part.stamps.nodes.length, part.placement.value i < after.values.length
  unknowns : ∃ new : List LocalUnknownInfo, after.unknowns = before.unknowns ++ new ∧
    (∀ info ∈ new, info.terminal? = none) ∧ part.own = List.range' before.unknowns.length new.length
  matrix : after.matrixTerms = before.matrixTerms ++ part.matrix
  rhs : after.rhsTerms = before.rhsTerms ++ part.rhs
  latches : after.iterationLatches = before.iterationLatches ++ part.stamps.latches.map part.placement.latch
  writes : after.stateWrites = writeAll part.writes before.stateWrites
  counts : after.parameterCount = before.parameterCount ∧ after.terminalCount = before.terminalCount ∧
    after.stateRequiresWrite = before.stateRequiresWrite ∧ after.outputs = before.outputs

/-- What a template needs of the builder that it is placed in. -/
structure Placeable (before : DefinitionTemplateBuilder F) (template : CompiledDefinitionTemplate F)
    (terminals : List LocalUnknownId) (parameters : List LocalValueId) (states : List LocalStateId) : Prop where
  terminalCount : terminals.length = template.terminalCount
  parameterCount : parameters.length = template.parameterCount
  stateCount : states.length = template.stateCount
  onTerminals : ∀ id ∈ terminals, id.index < before.unknowns.length
  onParameters : ∀ id ∈ parameters, id.index < before.values.length
  onStates : ∀ id ∈ states, id.index < before.stateWrites.length
  distinct : (template.stateWrites.map fun entry => (states[entry.1.index]?.map StateSlot.index).getD 0).Nodup
  unwritten : ∀ entry ∈ template.stateWrites,
    before.stateWrites[(states[entry.1.index]?.map StateSlot.index).getD 0]? = some none

theorem mem_unlessZero {α : Type} {scale : F} {term other : α} (member : other ∈ unlessZero scale term) : other = term := by
  unfold unlessZero at member
  split at member
  · cases member
  · exact List.mem_singleton.mp member

omit [F64 F] in
theorem DefinitionTemplateBuilder.Sound.written (sound : before.Sound) {s : Nat} {value : LocalValueId}
    (read : before.stateWrites[s]? = some (some value)) : value.index < before.values.length := by
  rw [← nodes_length]
  exact (sound.stamps.writes (⟨s⟩, value) (List.mem_filterMap.mpr
    ⟨(some value, s), List.mem_zipIdx_iff_getElem?.mpr read, rfl⟩)).2

omit [F64 F] in
theorem DefinitionTemplateBuilder.Sound.updated (sound : before.Sound) {latch update : LocalValueId}
    (member : (latch, some update) ∈ before.iterationLatches) : update.index < before.values.length := by
  rw [← nodes_length]
  exact sound.stamps.latches (latch, update) (List.mem_filterMap.mpr ⟨_, member, rfl⟩)

theorem ValuesPlaced.value_lt {placement : Placement} {values : List (LocalValueInfo F)}
    (placed : ValuesPlaced before placement values after) {i : Nat} (inside : i < values.length) :
    placement.value i < after.values.length :=
  placed.inside ⟨placement.value i⟩ (List.mem_of_getElem? (placement.read_value (placed.length ▸ inside)))

/-- What is stamped at the place of a sound template is sound. -/
theorem ValuesPlaced.stamped_sound {placement : Placement} {template : CompiledDefinitionTemplate F}
    {earlier : List (LocalValueId × Option LocalValueId)}
    (placed : ValuesPlaced before placement template.values after) (ready : template.Sound)
    (onUnknowns : ∀ id ∈ placement.unknowns, id.index < after.unknowns.length)
    (unknowns : placement.unknowns.length = template.unknowns.length)
    (given : after.iterationLatches = earlier ++ template.iterationLatches.map placement.openLatch) :
    (placement.stamped template earlier after).Sound := by
  have sound := placed.sound
  have nodes : template.stamps.nodes.length = template.values.length := List.length_map _
  have value : ∀ i < template.stamps.nodes.length, placement.value i < after.values.length :=
    fun i inside => placed.value_lt (nodes ▸ inside)
  have unknown : ∀ u < template.unknowns.length, placement.unknown u < after.unknowns.length :=
    fun u inside => onUnknowns ⟨_⟩ (List.mem_of_getElem? (placement.read_unknown (unknowns ▸ inside)))
  refine sound.stamped ?_ ?_ ⟨?_, ?_, ?_⟩ ?_ ?_ writeAll_length ?_
  · rw [given]
    simp [Placement.latch, Placement.openLatch, Function.comp_def]
  · rintro entry member update isUpdate
    rcases List.mem_append.mp member with there | placedLatch
    · have listed : (entry.1, some update) ∈ after.iterationLatches := by
        rw [given, ← isUpdate]
        exact List.mem_append_left _ there
      exact sound.updated listed
    · obtain ⟨latch, listed, rfl⟩ := List.mem_map.mp placedLatch
      obtain rfl := Option.some.inj isUpdate
      exact value _ (ready.stamps.latches latch listed)
  · intro id member
    rcases List.mem_append.mp member with member | mode
    · rcases List.mem_append.mp member with there | stable
      · exact sound.registered.stability id there
      · obtain ⟨v, listed, rfl⟩ := List.mem_map.mp stable
        exact placed.value_lt (ready.registered.stability v listed)
    · obtain ⟨v, listed, rfl⟩ := List.mem_map.mp mode
      exact placed.value_lt (ready.registered.modes v listed)
  · intro id member
    rcases List.mem_append.mp member with there | mode
    · exact sound.registered.modes id there
    · obtain ⟨v, listed, rfl⟩ := List.mem_map.mp mode
      exact placed.value_lt (ready.registered.modes v listed)
  · intro driver member
    rcases List.mem_append.mp member with there | placedDriver
    · exact sound.registered.drivers driver there
    · obtain ⟨d, listed, rfl⟩ := List.mem_map.mp placedDriver
      obtain ⟨⟨mode, up, down⟩, output, high, low⟩ := ready.registered.drivers d listed
      exact ⟨⟨placed.value_lt mode, placed.value_lt up, placed.value_lt down⟩, unknown _ output, unknown _ high,
        unknown _ low⟩
  · intro term member
    rcases List.mem_append.mp member with there | placedTerm
    · obtain ⟨row, column, source⟩ := sound.stamps.matrix term there
      exact ⟨row, column, source.trans_eq nodes_length⟩
    · obtain ⟨t, listed, member⟩ := List.mem_flatMap.mp placedTerm
      obtain rfl := mem_unlessZero member
      obtain ⟨row, column, source⟩ := ready.stamps.matrix t listed
      exact ⟨unknown _ row, unknown _ column, value _ source⟩
  · intro term member
    rcases List.mem_append.mp member with there | placedTerm
    · obtain ⟨destination, source⟩ := sound.stamps.rhs term there
      exact ⟨destination, source.trans_eq nodes_length⟩
    · obtain ⟨t, listed, member⟩ := List.mem_flatMap.mp placedTerm
      obtain rfl := mem_unlessZero member
      obtain ⟨destination, source⟩ := ready.stamps.rhs t listed
      exact ⟨unknown _ destination, value _ source⟩
  · intro s id read
    rcases writeAll_cases read with there | ⟨entry, listed, rfl⟩
    · exact sound.written there
    · obtain ⟨w, own, rfl⟩ := List.mem_map.mp listed
      exact value _ (ready.stamps.writes w own).2

/-- What the values of a template leave as it was. -/
theorem ValuesPlaced.kept {placement : Placement} {values : List (LocalValueInfo F)}
    (placed : ValuesPlaced before placement values after) :
    (after.unknowns = before.unknowns ∧ after.stateWrites = before.stateWrites ∧ after.matrixTerms = before.matrixTerms ∧
      after.rhsTerms = before.rhsTerms) ∧ after.parameterCount = before.parameterCount ∧
      after.terminalCount = before.terminalCount ∧ after.stateRequiresWrite = before.stateRequiresWrite ∧
      after.outputs = before.outputs := by
  have same := placed.frame
  simp only [DefinitionTemplateBuilder.frame, DefinitionTemplateBuilder.mk.injEq] at same
  tauto

/-- The latches that the values of a template leave open. -/
theorem ValuesPlaced.opened {placement : Placement} {template : CompiledDefinitionTemplate F}
    (placed : ValuesPlaced before placement template.values after) (ready : template.Sound) :
    after.iterationLatches = before.iterationLatches ++ template.iterationLatches.map placement.openLatch := by
  have latched : latchPlaces (template.values.map LocalValueInfo.node) = template.iterationLatches.map (·.1.index) :=
    ready.latched.symm
  rw [placed.latches, latched, List.map_map]
  rfl

/-- A sound template is placed where it fits; only numbers can be exhausted. -/
theorem instantiateInto_meets {template : CompiledDefinitionTemplate F} {terminals : List LocalUnknownId}
    {parameters : List LocalValueId} {states : List LocalStateId} (sound : before.Sound) (ready : template.Sound)
    (fits : Placeable before template terminals parameters states) :
    (template.instantiateInto terminals parameters states before).Meets False
      (fun outputs after => ∃ unknowns values, Instantiated before
        ⟨template.stamps, ⟨terminals, parameters, states, unknowns, values⟩⟩ after ∧
          outputs = template.outputs.map fun output =>
            ⟨(⟨terminals, parameters, states, unknowns, values⟩ : Placement).value output.index⟩)
      fun error _ => error = .idExhausted := by
  have stamps := ready.stamps
  unfold CompiledDefinitionTemplate.instantiateInto
  rw [Call.assert_bind fits.terminalCount, Call.assert_bind fits.parameterCount, Call.assert_bind fits.stateCount]
  have within : template.unknowns.filterMap LocalUnknownInfo.terminal? = List.range terminals.length :=
    fits.terminalCount ▸ stamps.terminals
  refine Call.meets_bind ((instantiateUnknowns_meets fits.onTerminals within).mono id ?_ fun _ _ failed => failed)
  rintro unknowns state₁ ⟨new, placedUnknowns⟩
  have unknownCount : unknowns.length = template.unknowns.length := placedUnknowns.length
  have unknowns₁ : state₁.unknowns = before.unknowns ++ new := by rw [placedUnknowns.after_eq]
  have given : Given state₁ ⟨terminals, parameters, states, unknowns, []⟩ := by
    refine ⟨fun id member => ?_, fun id member => ?_, fun id member => ?_⟩
    · rw [placedUnknowns.after_eq]
      exact fits.onParameters id member
    · rw [placedUnknowns.after_eq]
      exact fits.onStates id member
    · rw [unknowns₁, List.length_append]
      exact placedUnknowns.inside id member
  refine Call.meets_bind ((instantiateValues_meets ⟨terminals, parameters, states, unknowns, []⟩
    (placedUnknowns.sound sound) given ?_).mono id ?_ fun _ _ failed => failed)
  · intro i node read
    rw [fits.parameterCount, fits.stateCount, unknownCount]
    exact stamps.nodes i node read
  intro values state₂ placed
  have nodeCount : template.stamps.nodes.length = values.length := (List.length_map _).trans placed.length.symm
  have opened := placed.opened ready
  obtain ⟨⟨keptUnknowns, keptWrites, keptMatrix, keptRhs⟩, keptCounts⟩ := placed.kept
  have same : (state₁.iterationLatches = before.iterationLatches ∧ state₁.stateWrites = before.stateWrites ∧
      state₁.matrixTerms = before.matrixTerms ∧ state₁.rhsTerms = before.rhsTerms) ∧ state₁.values = before.values ∧
      state₁.parameterCount = before.parameterCount ∧ state₁.terminalCount = before.terminalCount ∧
      state₁.stateRequiresWrite = before.stateRequiresWrite ∧ state₁.outputs = before.outputs := by
    rw [placedUnknowns.after_eq]
    exact ⟨⟨rfl, rfl, rfl, rfl⟩, rfl, rfl, rfl, rfl, rfl⟩
  obtain ⟨⟨sameLatches, sameWrites, sameMatrix, sameRhs⟩, sameValues, sameCounts⟩ := same
  rw [sameLatches] at opened
  rw [sameWrites] at keptWrites
  have fresh := places_nodup LocalValueNode.isLatch state₂.stamps.nodes
  have latched := placed.sound.latched
  rw [opened, List.map_append, List.map_map] at latched
  rw [← latchPlaces, ← latched] at fresh
  have onUnknowns : ∀ id ∈ unknowns, id.index < state₂.unknowns.length := keptUnknowns ▸ given.unknowns
  have outputs : ∀ output ∈ template.outputs, output.index < values.length := by
    intro output member
    have inside := stamps.outputs output member
    rwa [nodeCount] at inside
  rw [Call.bind_ok (instantiateStamps_ok ⟨terminals, parameters, states, unknowns, values⟩ ready unknownCount placed.length
    fits.stateCount fresh opened fits.distinct (keptWrites ▸ fits.unwritten)),
    instantiateOutputs_ok ⟨terminals, parameters, states, unknowns, values⟩ outputs, Call.expect_some]
  refine ⟨unknowns, values, ⟨placed.stamped_sound ready onUnknowns unknownCount opened, ⟨?_, ready.latched, unknownCount, ?_⟩,
    sameValues ▸ placed.grown, placed.computed, placed.latch, fun i inside => placed.value_lt ?_, ⟨new, ?_,
    placedUnknowns.free, placedUnknowns.own⟩, ?_, ?_, rfl, ?_, ?_⟩, rfl⟩
  · rw [fits.parameterCount, fits.stateCount, fits.terminalCount]
    exact stamps
  · intro i info t read bound
    show (unknowns[i]?.map UnknownIndex.index).getD 0 = (terminals[t]?.map UnknownIndex.index).getD 0
    rw [placedUnknowns.bound i info t read bound]
  · exact inside.trans_eq (List.length_map _)
  · exact keptUnknowns.trans unknowns₁
  · exact congrArg (· ++ _) (keptMatrix.trans sameMatrix)
  · exact congrArg (· ++ _) (keptRhs.trans sameRhs)
  · exact congrArg (writeAll _) keptWrites
  · obtain ⟨parameters', terminals', requires, outputs'⟩ := keptCounts
    obtain ⟨parameters'', terminals'', requires', outputs''⟩ := sameCounts
    exact ⟨parameters'.trans parameters'', terminals'.trans terminals'', requires.trans requires', outputs'.trans outputs''⟩

end Instantiating

end Hynergy
