import Hynergy.Client.WorldIds
import Hynergy.Model.CallRules

/-!
# Handles of wires

A handle that is usable stays usable through every operation on the world but the removal of its wire,
and a wire that is created gets an id that no usable handle has.
-/

namespace Hynergy

open Call (Preserves)

namespace WorldIdAllocator

/-- `requireUsable` accepts the handle. -/
def Usable (handle : WireHandle) (allocator : WorldIdAllocator) : Prop :=
  ¬ handle.value.toInt ≤ 0 ∧ handle.value.toInt ≤ allocator.highWaterMark ∧
    allocator.generations[handle.value.toNat - 1]? = some handle.generation ∧
    (allocator.states[handle.value.toNat - 1]? = some .live ∨ allocator.states[handle.value.toNat - 1]? = some .pendingAdd)

variable {handle : WireHandle} {self : WorldIdAllocator} {id : Nat}

theorem toNat_pos {value : JavaInt} (positive : ¬ value.toInt ≤ 0) : 0 < value.toNat ∧ value.toInt = value.toNat := by
  have signed := BitVec.toInt_eq_toNat_cond value
  split at signed <;> omega

theorem Usable.look (h : Usable handle self) :
    self.look handle.value.toNat = some .live ∨ self.look handle.value.toNat = some .pendingAdd := by
  obtain ⟨positive, -, -, state⟩ := h
  obtain ⟨pos, -⟩ := toNat_pos positive
  rw [WorldIdAllocator.look, if_neg (by omega)]
  exact state

theorem Usable.run (h : Usable handle self) : requireUsable handle.value handle.generation self = .ok () self := by
  have look := h.look
  obtain ⟨positive, inside, generation, -⟩ := h
  have current : ∀ {state : IdState}, state ≠ .unused → self.look handle.value.toNat = some state →
      Current self handle.value handle.generation state :=
    fun used known => ⟨positive, not_lt.mpr inside, known, used, generation⟩
  unfold requireUsable
  rcases look with known | known
  · rw [Call.bind_ok (current (by decide) known).run, Call.bind_ok (state_run known)]
    exact if_neg (by simp)
  · rw [Call.bind_ok (current (by decide) known).run, Call.bind_ok (state_run known)]
    exact if_neg (by simp)

theorem Usable.live (h : Usable handle self) : self.currentPool.live handle.value.toNat := h.look

/-- A slot that says something else is another one. -/
theorem Usable.away (h : Usable handle self) {state : IdState} (read : self.states[id - 1]? = some state)
    (other : state ≠ .live ∧ state ≠ .pendingAdd) : id - 1 ≠ handle.value.toNat - 1 := by
  intro same
  obtain ⟨-, -, -, known⟩ := h
  rw [← same, read] at known
  rcases known with known | known
  · exact other.1 (Option.some.inj known)
  · exact other.2 (Option.some.inj known)

/-! ### Steps of the allocator -/

theorem Preserves.state_bind {α : Type} {P : WorldIdAllocator → Prop} {next : IdState → Java α}
    (rest : ∀ self state, P self → self.states[id - 1]? = some state → Preserves P (next state)) :
    Preserves P (state id >>= next) :=
  .assoc (.get_bind fun self holds => .okOr_bind fun state read => rest self state holds read)

theorem Preserves.generationAt_bind {α : Type} {P : WorldIdAllocator → Prop} {next : JavaInt → Java α}
    (rest : ∀ self generation, P self → self.generations[id - 1]? = some generation → Preserves P (next generation)) :
    Preserves P (generationAt id >>= next) :=
  .assoc (.get_bind fun self holds => .okOr_bind fun generation read => rest self generation holds read)

theorem requireKnownId_usable (id : JavaInt) : Preserves (Usable handle) (requireKnownId id) :=
  .get_bind fun _ _ => .rejectIf_bind fun _ => Preserves.state_bind fun _ _ _ _ => .rejectIf_bind fun _ => .pure _

theorem setState_usable (away : id - 1 ≠ handle.value.toNat - 1) (state : IdState) :
    Preserves (Usable handle) (setState id state) := by
  refine .modify ?_
  rintro self ⟨positive, inside, generation, known⟩
  refine ⟨positive, inside, generation, ?_⟩
  rw [List.getElem?_set, if_neg away]
  exact known

/-- A usable id may turn live. -/
theorem setLive_usable (id : Nat) : Preserves (Usable handle) (setState id .live) := by
  refine .modify ?_
  rintro self ⟨positive, inside, generation, known⟩
  refine ⟨positive, inside, generation, ?_⟩
  rw [List.getElem?_set]
  split
  · rename_i same
    split
    · exact Or.inl rfl
    · rename_i outside
      rw [same] at outside
      rw [List.getElem?_eq_none (by omega)] at known
      rcases known with known | known <;> cases known
  · exact known

theorem setGeneration_usable (away : id - 1 ≠ handle.value.toNat - 1) (generation : JavaInt) :
    Preserves (Usable handle) (setGeneration id generation) := by
  refine .modify ?_
  rintro self ⟨positive, inside, known, state⟩
  refine ⟨positive, inside, ?_, state⟩
  rw [List.getElem?_set, if_neg away]
  exact known

theorem ensurePendingCapacity_usable (memory : Memory) (additional : Nat) :
    Preserves (Usable handle) (ensurePendingCapacity memory additional) := by
  refine .get_bind fun self holds => .bind (.rejectIf_bind fun _ => .pure _) fun required => ?_
  split
  · exact .pure _
  · exact .rejectIf_bind fun _ => .set holds

theorem ensureFreeCapacity_usable (memory : Memory) (additional : Nat) :
    Preserves (Usable handle) (ensureFreeCapacity memory additional) := by
  refine .get_bind fun self holds => .bind (.rejectIf_bind fun _ => .pure _) fun required => ?_
  split
  · exact .pure _
  · exact .rejectIf_bind fun _ => .set holds

theorem ensureSlotCapacity_usable (memory : Memory) (requiredSlots : Nat) :
    Preserves (Usable handle) (ensureSlotCapacity memory requiredSlots) := by
  refine .get_bind fun self holds => ?_
  split
  · exact .pure _
  · refine .rejectIf_bind fun _ => .set ?_
    obtain ⟨positive, inside, generation, state⟩ := holds
    refine ⟨positive, inside, ?_, ?_⟩
    · rw [List.getElem?_append_left (List.getElem?_eq_some_iff.mp generation).1]
      exact generation
    · have within : handle.value.toNat - 1 < self.states.length := by
        rcases state with known | known <;> exact (List.getElem?_eq_some_iff.mp known).1
      rw [List.getElem?_append_left within]
      exact state

theorem pushPending_usable (id : Nat) : Preserves (Usable handle) (pushPending id) :=
  .get_bind fun _ holds => .rejectIf_bind fun _ => .set holds

theorem pushFree_usable (id : Nat) : Preserves (Usable handle) (pushFree id) :=
  .get_bind fun _ holds => .rejectIf_bind fun _ => .set holds

/-! ### Operations of the allocator -/

theorem reservePooled_usable (memory : Memory) (freeIds : List Nat) :
    Preserves (Usable handle) (reservePooled memory freeIds) := by
  induction freeIds with
  | nil => exact .pure _
  | cons id freeIds ih =>
    refine Preserves.state_bind fun self state holds read => .rejectIf_bind fun free => ?_
    have away := holds.away read (by rw [not_not.mp free]; decide)
    refine Preserves.generationAt_bind fun _ generation _ _ => ?_
    dsimp only
    split
    · exact .bind (.modify fun _ holds => holds) fun _ => .bind (setState_usable away _) fun _ => ih
    · exact .bind (ensurePendingCapacity_usable _ _) fun _ => .bind (.modify fun _ holds => holds) fun _ =>
        .bind (setGeneration_usable away _) fun _ => .bind (setState_usable away _) fun _ =>
        .bind (pushPending_usable _) fun _ => .pure _

theorem reserveFresh_usable (memory : Memory) : Preserves (Usable handle) (reserveFresh memory) := by
  refine .get_bind fun self start => .rejectIf_bind fun _ => ?_
  dsimp only
  refine .bind (ensureSlotCapacity_usable _ _) fun _ => .bind (ensurePendingCapacity_usable _ _) fun _ =>
    Preserves.state_bind fun before state holds read => Preserves.generationAt_bind fun _ generation _ _ =>
    .rejectIf_bind fun fresh => ?_
  have away := holds.away read (by rw [not_not.mp (not_or.mp fresh).1]; decide)
  refine .bind (setGeneration_usable away _) fun _ => .bind (setState_usable away _) fun _ => .bind (.modify ?_) fun _ =>
    .bind (pushPending_usable _) fun _ => .pure _
  rintro after ⟨positive, -, generation, state⟩
  have inside := start.2.1
  exact ⟨positive, by push_cast; omega, generation, state⟩

theorem reserve_usable (memory : Memory) : Preserves (Usable handle) (reserve memory) := by
  refine .get_bind fun self _ => .bind (reservePooled_usable _ _) fun pooled => ?_
  cases pooled with
  | some id => exact .pure _
  | none => exact reserveFresh_usable _

theorem generation_usable (id : JavaInt) : Preserves (Usable handle) (generation id) :=
  .bind (requireKnownId_usable id) fun _ => .get_bind fun _ _ => .okOr _ _

theorem requireCurrentGeneration_usable (id generation : JavaInt) :
    Preserves (Usable handle) (requireCurrentGeneration id generation) :=
  .bind (requireKnownId_usable id) fun _ => Preserves.generationAt_bind fun _ _ _ _ => .rejectIf_bind fun _ => .pure _

theorem requireUsable_usable (id generation : JavaInt) : Preserves (Usable handle) (requireUsable id generation) :=
  .bind (requireCurrentGeneration_usable id generation) fun _ => Preserves.state_bind fun _ _ _ _ => .rejectIf _ _

/-- The current generation of another handle is that of another id. -/
theorem current_bind {α : Type} {other : WireHandle} (different : other ≠ handle) {next : Nat → Java α}
    (rest : ∀ id, id ≠ handle.value.toNat → id - 1 ≠ handle.value.toNat - 1 → Preserves (Usable handle) (next id)) :
    Preserves (Usable handle) (requireCurrentGeneration other.value other.generation >>= next) := by
  refine .assoc (.assoc (.get_bind fun self holds => .assoc (.rejectIf_bind fun outside => .assoc
    (Preserves.state_bind fun _ _ _ _ => .assoc (.rejectIf_bind fun _ => ?_)))))
  show Preserves (Usable handle) ((do
    let current ← generationAt other.value.toNat
    Call.rejectIf (current ≠ other.generation) .illegalState
    pure other.value.toNat) >>= next)
  refine .assoc (Preserves.generationAt_bind fun before generation known read => .assoc (.rejectIf_bind fun current => ?_))
  obtain ⟨pos, -⟩ := toNat_pos (not_or.mp outside).1
  obtain ⟨pos', -⟩ := toNat_pos known.1
  have apart : other.value.toNat ≠ handle.value.toNat := by
    intro same
    refine different ?_
    have generations := known.2.2.1
    rw [← same, read] at generations
    cases other
    cases handle
    exact congrArg₂ _ (BitVec.eq_of_toNat_eq same) ((not_not.mp current).symm.trans (Option.some.inj generations))
  exact rest _ apart (by omega)

theorem remove_usable (memory : Memory) {other : WireHandle} (different : other ≠ handle) :
    Preserves (Usable handle) (remove memory other.value other.generation) := by
  refine current_bind different fun id _ away => Preserves.state_bind fun _ state _ _ => ?_
  cases state with
  | live =>
    exact .bind (ensurePendingCapacity_usable _ _) fun _ => .bind (setState_usable away _) fun _ => pushPending_usable _
  | pendingAdd => exact setState_usable away _
  | _ => exact .throw _

theorem cancelPendingRemove_usable {other : WireHandle} (different : other ≠ handle) :
    Preserves (Usable handle) (cancelPendingRemove other.value other.generation) := by
  refine current_bind different fun id _ away => Preserves.state_bind fun _ state _ _ => ?_
  cases state with
  | pendingRemove =>
    exact .bind (.get_bind fun _ _ => .rejectIf _ _) fun _ => .bind (.modify fun _ holds => holds) fun _ =>
      setState_usable away _
  | pendingAddRemove => exact setState_usable away _
  | _ => exact .throw _

theorem cancelPendingAdd_usable (memory : Memory) {other : WireHandle} (different : other ≠ handle) :
    Preserves (Usable handle) (cancelPendingAdd memory other.value other.generation) := by
  refine current_bind different fun id apart away => Preserves.state_bind fun _ state _ _ => .rejectIf_bind fun _ =>
    .bind (.get_bind fun _ _ => .rejectIf _ _) fun _ => ?_
  intro self holds
  rw [Call.get_bind]
  split
  · by_cases last : id = self.highWaterMark
    · rw [Call.rejectIf_bind_neg (not_not.mpr last)]
      obtain ⟨positive, inside, generation, state⟩ := holds
      obtain ⟨-, exact'⟩ := toNat_pos positive
      refine ⟨positive, ?_, ?_, ?_⟩
      · show handle.value.toInt ≤ ((self.highWaterMark - 1 : Nat) : Int)
        omega
      · show (self.generations.set (id - 1) 0)[handle.value.toNat - 1]? = _
        rw [List.getElem?_set, if_neg away]
        exact generation
      · show (self.states.set (id - 1) .unused)[handle.value.toNat - 1]? = _ ∨
          (self.states.set (id - 1) .unused)[handle.value.toNat - 1]? = _
        rw [List.getElem?_set, if_neg away]
        exact state
    · rw [Call.rejectIf_bind_pos last]
      exact holds
  · refine Preserves.bind (ensureFreeCapacity_usable _ _) (fun _ => ?_) self holds
    exact .bind (.modify fun _ holds => holds) fun _ => .bind (setState_usable away _) fun _ => pushFree_usable _

theorem validatePending_usable (pendingIds : List Nat) :
    Preserves (Usable handle) (validatePendingAndCountReusableReleases pendingIds) := by
  induction pendingIds with
  | nil => exact .pure _
  | cons id pendingIds ih =>
    refine Preserves.state_bind fun _ state _ _ => ?_
    cases state with
    | pendingAdd => exact ih
    | pendingRemove | pendingAddRemove =>
      exact Preserves.generationAt_bind fun _ _ _ _ => .bind ih fun _ => .pure _
    | _ => exact .throw _

theorem prepareCommitBatch_usable (memory : Memory) : Preserves (Usable handle) (prepareCommitBatch memory) :=
  .get_bind fun _ _ => .bind (validatePending_usable _) fun _ => ensureFreeCapacity_usable _ _

theorem releaseCommitted_usable (away : id - 1 ≠ handle.value.toNat - 1) :
    Preserves (Usable handle) (releaseCommitted id) := by
  refine Preserves.generationAt_bind fun _ _ _ _ => ?_
  split
  · exact setState_usable away _
  · exact .bind (setState_usable away _) fun _ => pushFree_usable _

theorem commitPending_usable (pendingIds : List Nat) : Preserves (Usable handle) (commitPending pendingIds) := by
  induction pendingIds with
  | nil => exact .pure _
  | cons id pendingIds ih =>
    refine Preserves.state_bind fun self state holds read => ?_
    cases state with
    | pendingAdd => exact .bind (setLive_usable id) fun _ => ih
    | pendingRemove | pendingAddRemove =>
      exact .bind (releaseCommitted_usable (holds.away read (by decide))) fun _ => ih
    | _ => exact .bind (.throw _) fun _ => ih

theorem commitBatch_usable : Preserves (Usable handle) commitBatch :=
  .get_bind fun _ _ => .bind (commitPending_usable _) fun _ => .modify fun _ holds => holds

end WorldIdAllocator

/-! ### Operations of the world -/

namespace ElectricalWorld

open WorldIdAllocator

variable {F : Type} {handle : WireHandle}

/-- The handle is usable in the world. -/
abbrev Holds (handle : WireHandle) (world : ElectricalWorld F) : Prop := Usable handle world.wireIds

theorem onWires_holds {α : Type} {call : WorldIdAllocator.Java α} (h : Preserves (Usable handle) call) :
    Preserves (Holds (F := F) handle) (onWires call) :=
  .zoom fun self holds => h self.wireIds holds

theorem onDevices_holds {α : Type} (call : WorldIdAllocator.Java α) :
    Preserves (Holds (F := F) handle) (onDevices call) := by
  refine .zoom fun self holds => ?_
  cases call self.deviceIds with
  | ok _ _ => exact holds
  | err _ _ => exact holds
  | panic => exact trivial

theorem onBuffer_holds {α : Type} (call : WorldCommandBuffer.Java α) :
    Preserves (Holds (F := F) handle) (onBuffer call) := by
  refine .zoom fun self holds => ?_
  cases call self.commandBuffer with
  | ok _ _ => exact holds
  | err _ _ => exact holds
  | panic => exact trivial

theorem requireUsable_holds : Preserves (Holds (F := F) handle) requireUsable := .get_bind fun _ _ => .rejectIf _ _

theorem orRollBack_holds {call rollback : WorldCall F Unit} (h : Preserves (Holds handle) call)
    (h' : Preserves (Holds handle) rollback) : Preserves (Holds handle) (orRollBack call rollback) := by
  intro self holds
  have called := h self holds
  unfold orRollBack
  cases run : call self with
  | ok value after =>
    rw [run] at called
    exact called
  | err failure after =>
    rw [run] at called
    have back := h' after called
    dsimp only
    cases run' : rollback after with
    | ok _ last =>
      rw [run'] at back
      exact back
    | err _ last =>
      rw [run'] at back
      exact back
    | panic => exact trivial
  | panic => exact trivial

theorem andFinally_holds {call last : WorldCall F Unit} (h : Preserves (Holds handle) call)
    (h' : Preserves (Holds handle) last) : Preserves (Holds handle) (andFinally call last) := by
  intro self holds
  have called := h self holds
  unfold andFinally
  cases run : call self with
  | ok value after =>
    rw [run] at called
    exact h' after called
  | err failure after =>
    rw [run] at called
    have done := h' after called
    dsimp only
    cases run' : last after with
    | ok _ _ =>
      rw [run'] at done
      exact done
    | err _ _ =>
      rw [run'] at done
      exact done
    | panic => exact trivial
  | panic => exact trivial

theorem orPoison_holds {call : WorldCall F Unit} (h : Preserves (Holds handle) call) :
    Preserves (Holds handle) (orPoison call) := by
  intro self holds
  have called := h self holds
  unfold orPoison
  cases run : call self with
  | ok value after =>
    rw [run] at called
    exact called
  | err failure after =>
    rw [run] at called
    exact called
  | panic => exact trivial

variable [F64 F] {definitions : DefinitionRegistry F} {fromBits : BitVec 64 → F}

theorem applyCommands_holds (grants : Grants) : Preserves (Holds handle) (applyCommands definitions fromBits grants) := by
  refine .bind requireUsable_holds fun _ => .get_bind fun self _ => ?_
  split
  · exact .pure _
  · refine .bind (onWires_holds (prepareCommitBatch_usable _)) fun _ => .bind (onDevices_holds _) fun _ =>
      .bind (onBuffer_holds _) fun input => .bind (onBuffer_holds _) fun length =>
      andFinally_holds (.bind ?_ fun _ => orPoison_holds (.bind (onWires_holds commitBatch_usable) fun _ =>
        onDevices_holds _)) (onBuffer_holds _)
    intro before holds
    unfold nativeApply
    split
    · exact holds
    · exact holds
    · exact holds

theorem nativeSubscribe_holds (deviceId observerId : JavaInt) :
    Preserves (Holds handle) (nativeSubscribe definitions deviceId observerId) := by
  intro before holds
  unfold nativeSubscribe
  split
  · exact holds
  · split
    · exact holds
    · exact holds
    · exact holds

omit [F64 F] in
theorem nativeUnsubscribe_holds (subscriptionId : JavaInt) :
    Preserves (Holds (F := F) handle) (nativeUnsubscribe subscriptionId) := by
  intro before holds
  unfold nativeUnsubscribe
  split
  · exact holds
  · split
    · exact holds
    · exact holds
    · exact holds

omit [F64 F] in
theorem nativeTick_holds (answers : TickAnswers F) : Preserves (Holds handle) (nativeTick answers) := by
  intro before holds
  unfold nativeTick
  split
  · exact holds
  · exact holds
  · exact holds

omit [F64 F] in
theorem readTick_holds (recordCount requiredCapacity : Nat) :
    Preserves (Holds (F := F) handle) (readSuccessfulTickResult recordCount requiredCapacity) := by
  intro before holds
  unfold readSuccessfulTickResult
  split
  · exact holds
  · exact holds

omit [F64 F] in
theorem ensureRecords_holds (grants : Grants) (requiredCapacity : Nat) :
    Preserves (Holds (F := F) handle) (ensureRecords grants requiredCapacity) := by
  refine .get_bind fun self holds => ?_
  split
  · exact .pure _
  · exact .rejectIf_bind fun _ => .set holds

theorem tick_holds (grants : Grants) (answers : TickAnswers F) :
    Preserves (Holds handle) (tick definitions fromBits grants answers) := by
  refine .bind (applyCommands_holds _) fun _ => .bind requireUsable_holds fun _ => .get_bind fun self _ => ?_
  dsimp only
  split
  · exact .rejectIf_bind fun _ => .bind (ensureRecords_holds _ _) fun _ => .bind (nativeTick_holds _) fun _ =>
      readTick_holds _ _
  · exact .bind (nativeTick_holds _) fun _ => readTick_holds _ _

omit [F64 F] in
theorem removeWire_holds (grants : Grants) {other : WireHandle} (different : other ≠ handle) :
    Preserves (Holds (F := F) handle) (removeWire grants other) :=
  .bind requireUsable_holds fun _ => .bind (onWires_holds (remove_usable _ different)) fun _ =>
    orRollBack_holds (onBuffer_holds _) (onWires_holds (cancelPendingRemove_usable different))

omit [F64 F] in
/-- What is not rolled back was appended. -/
theorem orRollBack_ok {call rollback : WorldCall F Unit} {self after : ElectricalWorld F}
    (run : orRollBack call rollback self = .ok () after) : call self = .ok () after := by
  unfold orRollBack at run
  split at run
  · rename_i called
    rw [called]
    exact run
  · split at run <;> cases run
  · cases run

omit [F64 F] in
/-- A wire that is created has an id that was reserved. -/
theorem addWire_ok {grants : Grants} {self after : ElectricalWorld F} {id : JavaInt} (usable : self.poisoned = false)
    (sound : self.wireIds.Sound) (run : addWire grants self = .ok id after) :
    ∃ n, Reserved self.wireIds after.wireIds n ∧ id = handleOf n ∧
      reserve grants.first self.wireIds = .ok n after.wireIds := by
  unfold addWire at run
  rw [Call.bind_ok (requireUsable_run usable)] at run
  rcases reserve_spec grants.first sound with ⟨e, wireIds, reserving, -⟩ | ⟨n, wireIds, reserving, reserved⟩
  · have refused : onWires (reserve grants.first) self = .err (.java e) { self with wireIds } := Call.zoom_err reserving
    rw [Call.bind_err refused] at run
    cases run
  · obtain ⟨g, read, -⟩ := reserved.handle
    have reading : onWires (generation (handleOf n)) { self with wireIds } = .ok g { self with wireIds } :=
      onWires_ok read
    rw [Call.bind_ok (onWires_ok reserving)] at run
    rw [Call.bind_ok reading] at run
    cases appended : orRollBack (onBuffer (WorldCommandBuffer.addWire grants.buffer (handleOf n)))
        (onWires (cancelPendingAdd grants.second (handleOf n) g)) { self with wireIds } with
    | ok value last =>
      rw [Call.bind_ok appended] at run
      obtain ⟨rfl, rfl⟩ := Outcome.ok.inj run
      have called := orRollBack_ok appended
      have same : last.wireIds = wireIds := by
        unfold onBuffer Call.zoom at called
        split at called
        · obtain ⟨-, rfl⟩ := Outcome.ok.inj called
          rfl
        · cases called
        · cases called
      exact ⟨n, same ▸ reserved, rfl, same ▸ reserving⟩
    | err error last =>
      rw [Call.bind_err appended] at run
      cases run
    | panic =>
      rw [Call.bind_panic appended] at run
      cases run

omit [F64 F] in
/-- The new wire is usable, what was usable stays so, and its id is its own. -/
theorem addWire_usable {grants : Grants} {self after : ElectricalWorld F} {id : JavaInt} (usable : self.poisoned = false)
    (sound : self.wireIds.Sound) (run : addWire grants self = .ok id after) :
    (∃ g, generation id after.wireIds = .ok g after.wireIds ∧ Holds ⟨id, g⟩ after) ∧
      ∀ handle, Holds handle self → Holds handle after ∧ handle.value ≠ id := by
  obtain ⟨n, reserved, rfl, reserving⟩ := addWire_ok usable sound run
  obtain ⟨g, read, current⟩ := reserved.handle
  have state := current.known
  obtain ⟨pos, -⟩ := toNat_pos current.positive
  rw [WorldIdAllocator.look, if_neg (by omega)] at state
  refine ⟨⟨g, read, current.positive, not_lt.mp current.inside, current.isCurrent, Or.inr state⟩, fun handle holds => ⟨?_, ?_⟩⟩
  · have kept := reserve_usable grants.first self.wireIds holds
    rw [reserving] at kept
    exact kept
  · rintro same
    have natural := toNat_handleOf reserved.accepts.2.1
    refine reserved.accepts.2.2.2 ?_
    rw [← natural, ← same]
    exact Usable.live holds

omit [F64 F] in
/-- `addWire` after its id was reserved. -/
theorem appendWire_holds (grants : Grants) {id : JavaInt} (different : ∀ g, (⟨id, g⟩ : WireHandle) ≠ handle) :
    Preserves (Holds (F := F) handle) (do
      let generation ← onWires (generation id)
      orRollBack (onBuffer (WorldCommandBuffer.addWire grants.buffer id))
        (onWires (cancelPendingAdd grants.second id generation))
      pure id) := by
  refine .bind (onWires_holds (generation_usable _)) fun g => .bind ?_ fun _ => .pure _
  have cancels := cancelPendingAdd_usable grants.second (different g)
  exact orRollBack_holds (onBuffer_holds _) (onWires_holds cancels)

omit [F64 F] in
theorem addWire_holds (grants : Grants) {self : ElectricalWorld F} (usable : self.poisoned = false)
    (sound : self.wireIds.Sound) (holds : Holds handle self) :
    (addWire grants self).Meets True (fun _ after => Holds handle after) fun _ after => Holds handle after := by
  have kept := reserve_usable grants.first self.wireIds holds
  unfold addWire
  rw [Call.bind_ok (requireUsable_run usable)]
  rcases reserve_spec grants.first sound with ⟨e, wireIds, reserving, -⟩ | ⟨n, wireIds, reserving, reserved⟩
  · rw [reserving] at kept
    exact Outcome.Meets.of_err (Call.bind_err (Call.zoom_err reserving)) kept
  · rw [reserving] at kept
    have different : ∀ g, (⟨handleOf n, g⟩ : WireHandle) ≠ handle := by
      rintro g rfl
      refine reserved.accepts.2.2.2 ?_
      rw [← toNat_handleOf reserved.accepts.2.1]
      exact Usable.live holds
    rw [Call.bind_ok (onWires_ok reserving)]
    exact appendWire_holds grants different { self with wireIds } kept

/-- No operation but the removal of its wire makes a handle unusable. -/
theorem Operation.run_holds (operation : Operation F) {self : ElectricalWorld F} (usable : self.poisoned = false)
    (sound : self.wireIds.Sound) (spares : ∀ grants other, operation = .removeWire grants other → other ≠ handle)
    (holds : Holds handle self) :
    (operation.run definitions fromBits self).Meets True (fun _ after => Holds handle after)
      fun _ after => Holds handle after := by
  have uses : ∀ value g, Preserves (Holds (F := F) handle) (onWires (WorldIdAllocator.requireUsable value g)) :=
    fun value g => onWires_holds (requireUsable_usable value g)
  cases operation with
  | addWire grants =>
    refine Call.meets_bind ((addWire_holds grants usable sound holds).mono id (fun _ _ holds => holds) fun _ _ holds => holds)
  | addDevice grants definitionId =>
    refine Preserves.bind (.bind requireUsable_holds fun _ => .rejectIf_bind fun _ => .bind (onDevices_holds _) fun _ =>
      .bind (onDevices_holds _) fun _ => .bind (orRollBack_holds (onBuffer_holds _) (onDevices_holds _)) fun _ => .pure _)
      (fun _ => .pure _) self holds
  | requireWire wire => exact Preserves.bind requireUsable_holds (fun _ => uses _ _) self holds
  | wireGeneration wireId =>
    exact Preserves.bind (.bind requireUsable_holds fun _ => onWires_holds (generation_usable _)) (fun _ => .pure _) self holds
  | deviceGeneration deviceId =>
    exact Preserves.bind (.bind requireUsable_holds fun _ => onDevices_holds _) (fun _ => .pure _) self holds
  | removeWire grants other => exact removeWire_holds grants (spares grants other rfl) self holds
  | removeDevice grants deviceId g =>
    exact Preserves.bind requireUsable_holds (fun _ => .bind (onDevices_holds _) fun _ =>
      orRollBack_holds (onBuffer_holds _) (onDevices_holds _)) self holds
  | connectWires grants a b | disconnectWires grants a b =>
    exact Preserves.bind requireUsable_holds (fun _ => .bind (uses _ _) fun _ => .bind (uses _ _) fun _ =>
      .rejectIf_bind fun _ => onBuffer_holds _) self holds
  | attachTerminal grants wireId deviceId g terminalId | detachTerminal grants wireId deviceId g terminalId =>
    exact Preserves.bind requireUsable_holds (fun _ => .bind (uses _ _) fun _ => .bind (onDevices_holds _) fun _ =>
      onBuffer_holds _) self holds
  | setDeviceParameter grants deviceId g parameterId value =>
    exact Preserves.bind requireUsable_holds (fun _ => .bind (onDevices_holds _) fun _ => onBuffer_holds _) self holds
  | applyCommands grants => exact applyCommands_holds grants self holds
  | tick grants answers => exact Preserves.bind (tick_holds grants answers) (fun _ => .pure _) self holds
  | subscribeObserver grants deviceId g observerId =>
    exact Preserves.bind (.bind requireUsable_holds fun _ => .bind (onDevices_holds _) fun _ => .rejectIf_bind fun _ =>
      .bind (applyCommands_holds _) fun _ => .bind requireUsable_holds fun _ => nativeSubscribe_holds _ _)
      (fun _ => .pure _) self holds
  | unsubscribe grants subscriptionId =>
    exact Preserves.bind requireUsable_holds (fun _ => .rejectIf_bind fun _ => .bind (applyCommands_holds _) fun _ =>
      .bind requireUsable_holds fun _ => nativeUnsubscribe_holds _) self holds

end ElectricalWorld

end Hynergy
