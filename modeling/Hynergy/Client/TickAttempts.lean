import Hynergy.Client.WorldIds
import Hynergy.Model.CallInversion

/-!
# Attempts of a tick

A tick of the client calls the engine with its record buffer; where that is too small the engine
does nothing, the buffer grows once and the call is made again.
-/

namespace Hynergy

open Lib

variable {F : Type}

/-! ### Updates of subscriptions -/

inductive IslandTickStatus where
  | pending | available | unavailable
  deriving DecidableEq

/-- What the collection reads of an island's runtime. -/
structure IslandReading (F : Type) where
  tickStatus : IslandTickStatus
  observerOutputsDirty : Bool
  observerValue : DeviceObserver → Option F

/-- `matches!(published, Some(Available(_)))`. -/
def ObserverSubscription.showsValue (self : ObserverSubscription) : Bool :=
  match self.published with
  | some (.available _) => true
  | _ => false

/-- The body of the loop of `collect_subscription_updates`; `none` is a panic. -/
def ObserverSubscription.collect [F64 F] (self : ObserverSubscription) (runtime : Option (IslandReading F)) :
    Option (ObserverSubscription × Option (SubscriptionUpdate F)) := do
  let runtime ← runtime
  match runtime.tickStatus with
  | .available =>
    if self.showsValue = true ∧ runtime.observerOutputsDirty = false then some (self, none)
    else do
      let value ← runtime.observerValue self.observer
      let published := PublishedObservation.available (F64.toBits value)
      if self.published = some published then some (self, none)
      else some (self.setPublished published, some (.available self.id value))
  | .unavailable =>
    if self.published = some .unavailable then some (self, none)
    else some (self.setPublished .unavailable, some (.unavailable self.id))
  | .pending => none

/-- A world and the updates of its last tick. -/
structure NativeWorld (F : Type) where
  stores : Stores F
  subscriptionUpdates : List (SubscriptionUpdate F)

namespace NativeWorld

section

variable [F64 F] (runtimes : DeviceComponent → Option (IslandReading F))

/-- The loop, with the subscriptions it leaves and the updates it pushes. -/
def collectSubscriptionUpdates : List ObserverSubscription →
    Option (List ObserverSubscription × List (SubscriptionUpdate F))
  | [] => some ([], [])
  | subscription :: rest => do
    let (subscription, update) ← subscription.collect (runtimes subscription.component)
    let (rest, updates) ← collectSubscriptionUpdates rest
    some (subscription :: rest, update.toList ++ updates)

/-- `World::tick`: the updates are cleared, the stores advance and the updates are collected. -/
def tick (answers : TickAnswers F) : Call (NativeWorld F) TickFailure Unit := do
  Call.modify fun self => { self with subscriptionUpdates := [] }
  Call.zoom NativeWorld.stores (fun self stores => { self with stores }) id
    (Stores.tick { answers with published := fun _ => none })
  let self ← Call.get
  let registry := self.stores.subscriptions
  let (subscriptions, subscriptionUpdates) ← Call.expect (collectSubscriptionUpdates runtimes registry.subscriptions)
  Call.set { stores := { self.stores with subscriptions := { registry with subscriptions } }, subscriptionUpdates }

end

end NativeWorld

/-! ### The record buffer -/

namespace SubscriptionRecordBuffer

/-- One record of the segment. -/
structure Record (F : Type) where
  subscriptionId : Nat
  status : Nat
  value : F

end SubscriptionRecordBuffer

open SubscriptionRecordBuffer (Record)

/-- The segment, as long as the capacity; a capacity of zero is the null segment. -/
structure SubscriptionRecordBuffer (F : Type) where
  records : List (Record F) := []

namespace SubscriptionRecordBuffer

def capacity (self : SubscriptionRecordBuffer F) : Nat := self.records.length

/-- `capacity + (capacity >>> 1)`, which may overflow. -/
def nextCapacity (capacity : Nat) : Int := (BitVec.ofNat 32 (capacity + capacity / 2)).toInt

/-- The loop of `growCapacity`. -/
def growCapacity (required capacity : Nat) : Nat :=
  if capacity < required then
    if nextCapacity capacity ≤ capacity then required else growCapacity required (nextCapacity capacity).toNat
  else capacity
termination_by required - capacity
decreasing_by omega

theorem le_growCapacity (required capacity : Nat) : required ≤ growCapacity required capacity := by
  fun_induction growCapacity required capacity with
  | case1 capacity small overflows => exact le_refl _
  | case2 capacity small grows ih => exact ih
  | case3 capacity large => omega

/-- A grown capacity is an `int`. -/
theorem growCapacity_le {required capacity : Nat} (small : required ≤ maxId) (fits : capacity ≤ maxId) :
    growCapacity required capacity ≤ maxId := by
  fun_induction growCapacity required capacity with
  | case1 capacity lower overflows => exact small
  | case2 capacity lower grows ih =>
    refine ih ?_
    have := BitVec.toInt_lt (x := BitVec.ofNat 32 (capacity + capacity / 2))
    rw [nextCapacity, maxId]
    omega
  | case3 capacity large => exact fits

variable [F64 F]

/-- The segment that is allocated when the capacity does not do, all zero. -/
def grown (requiredCapacity capacity : Nat) : SubscriptionRecordBuffer F :=
  { records := List.replicate (growCapacity requiredCapacity (max capacity 8)) ⟨0, 0, F64.zero⟩ }

def ensureCapacity (allocates : Bool) (requiredCapacity : Int) : Call (SubscriptionRecordBuffer F) JavaException Unit := do
  Call.rejectIf (requiredCapacity < 0) (.illegalArgument "Required capacity")
  let self ← Call.get
  if requiredCapacity ≤ self.capacity then pure ()
  else do
    Call.rejectIf (allocates = false) .outOfMemory
    Call.set (grown requiredCapacity.toNat self.capacity)

omit [F64 F] in
/-- The record at an index, by `recordOffset`. -/
def recordAt (self : SubscriptionRecordBuffer F) (index : Int) : Except JavaException (Record F) :=
  if index < 0 ∨ self.capacity ≤ index then .error .indexOutOfBounds
  else match self.records[index.toNat]? with
    | none => .error .indexOutOfBounds
    | some record => .ok record

/-- The code of the status, and the value or `0.0`. -/
def Record.of (update : SubscriptionUpdate F) : Record F :=
  match update.status with
  | .available => ⟨update.subscription.get, 0, update.value⟩
  | .unavailable => ⟨update.subscription.get, 1, F64.zero⟩

/-- `records.add(index).write(record)` for each update; `none` is a write outside the segment. -/
def writeRecords : List (Record F) → Nat → List (SubscriptionUpdate F) → Option (List (Record F))
  | records, _, [] => some records
  | records, index, update :: updates => do
    let records ← assign records index (Record.of update)
    writeRecords records (index + 1) updates

end SubscriptionRecordBuffer

/-! ### The call of the engine -/

/-- The world and the result are never null here. -/
inductive TickCode where
  | success
  | nullOutput
  | bufferTooSmall
  | failed (failure : TickFailure)
  | internalPanic

structure TickResult where
  recordCount : Nat
  requiredCapacity : Nat

namespace TickResult

def success (recordCount requiredCapacity : Nat) : TickResult := { recordCount, requiredCapacity }

def failure (requiredCapacity : Nat) : TickResult := { recordCount := 0, requiredCapacity }

end TickResult

open SubscriptionRecordBuffer (writeRecords)

/-- With the world and the records it leaves; `none` is a write outside the segment. What a panic
leaves of the world is not read again. -/
def hynergyWorldTick [F64 F] (runtimes : DeviceComponent → Option (IslandReading F)) (answers : TickAnswers F)
    (records : List (Record F)) (recordCapacity : Nat) (world : NativeWorld F) :
    Option (TickCode × TickResult × NativeWorld F × List (Record F)) :=
  let required := world.stores.subscriptions.subscriptions.length
  if 2 ^ 32 ≤ required then some (.internalPanic, .failure 0, world, records)
  else if recordCapacity < required then some (.bufferTooSmall, .failure required, world, records)
  else if required ≠ 0 ∧ records.length = 0 then some (.nullOutput, .failure required, world, records)
  else
    match NativeWorld.tick runtimes answers world with
    | .panic => some (.internalPanic, .failure 0, world, records)
    | .err failure after => some (.failed failure, .failure required, after, records)
    | .ok _ after => do
      let records ← writeRecords records 0 after.subscriptionUpdates
      if 2 ^ 32 ≤ after.subscriptionUpdates.length then some (.internalPanic, .failure 0, after, records)
      else some (.success, .success after.subscriptionUpdates.length required, after, records)

/-! ### The client -/

/-- One call of the engine, with the capacity it was given and the world before and after. -/
structure TickAttempt (F : Type) where
  code : TickCode
  recordCapacity : Nat
  before : NativeWorld F
  after : NativeWorld F

/-- A client's world with the engine's updates, its record buffer and the calls made so far. -/
structure TickingWorld (F : Type) where
  client : ElectricalWorld F
  subscriptionUpdates : List (SubscriptionUpdate F) := []
  subscriptionBuffer : SubscriptionRecordBuffer F := {}
  attempts : List (TickAttempt F) := []

namespace TickingWorld

abbrev TickCall (F α : Type) := Call (TickingWorld F) WorldException α

def native (self : TickingWorld F) : NativeWorld F := ⟨self.client.world, self.subscriptionUpdates⟩

def onClient {α : Type} (call : ElectricalWorld.WorldCall F α) : TickCall F α :=
  Call.zoom TickingWorld.client (fun self client => { self with client }) id call

def poison : TickCall F Unit := Call.modify fun self => { self with client := { self.client with poisoned := true } }

/-- A `u32` read as an `int`. -/
def javaInt (raw : Nat) : Int := (BitVec.ofNat 32 raw).toInt

section

variable [F64 F] (definitions : DefinitionRegistry F) (fromBits : BitVec 64 → F)
  (runtimes : DeviceComponent → Option (IslandReading F)) (answers : TickAnswers F)

/-- `NativeBindings.tickWorld` on the segment and its capacity. -/
def tickWorld : TickCall F (TickCode × TickResult) := fun self =>
  match hynergyWorldTick runtimes answers self.subscriptionBuffer.records self.subscriptionBuffer.capacity self.native with
  | none => .panic
  | some (code, result, world, records) =>
    .ok (code, result)
      { client := { self.client with world := world.stores }, subscriptionUpdates := world.subscriptionUpdates
        subscriptionBuffer := { records }
        attempts := self.attempts ++ [⟨code, self.subscriptionBuffer.capacity, self.native, world⟩] }

omit [F64 F] in
def readSuccessfulTickResult (result : TickResult) : TickCall F Int := do
  let recordCount := javaInt result.recordCount
  let requiredCapacity := javaInt result.requiredCapacity
  let self ← Call.get
  if recordCount < 0 ∨ requiredCapacity < 0 ∨ requiredCapacity < recordCount ∨
      (self.subscriptionBuffer.capacity : Int) < requiredCapacity then do
    poison
    Call.throw (.java .illegalState)
  else pure recordCount

omit [F64 F] in
/-- The exception of `tickFailure`. -/
def tickFailure : TickCode → WorldException
  | .failed failure => .tickFailed failure
  | .internalPanic => .tickPanicked
  | _ => .java .illegalState

/-- One round of the loop, and the rounds after it. -/
def tickRound (grants : Grants) (resized : Bool) (next : TickCall F Int) : TickCall F Int := do
  let (code, result) ← tickWorld runtimes answers
  match code with
  | .success => readSuccessfulTickResult result
  | .bufferTooSmall =>
    if resized = true then do
      poison
      Call.throw (.java .illegalState)
    else do
      let requiredCapacity := javaInt result.requiredCapacity
      Call.rejectIf (requiredCapacity < 0) (.java .illegalState)
      let self ← Call.get
      if requiredCapacity ≤ self.subscriptionBuffer.capacity then do
        poison
        Call.throw (.java .illegalState)
      else do
        Call.zoom TickingWorld.subscriptionBuffer (fun self subscriptionBuffer => { self with subscriptionBuffer })
          WorldException.java (SubscriptionRecordBuffer.ensureCapacity grants.records requiredCapacity)
        next
  | code => do
    poison
    Call.throw (tickFailure code)

/-- A round that has resized does not continue, so the loop has two. -/
def tick (grants : Grants) : TickCall F Int := do
  onClient (ElectricalWorld.applyCommands definitions fromBits grants)
  onClient ElectricalWorld.requireUsable
  tickRound runtimes answers grants false (tickRound runtimes answers grants true (Call.throw (.java .illegalState)))

end

end TickingWorld

/-! ### What a call of the engine does -/

section Engine

variable [F64 F] {runtimes : DeviceComponent → Option (IslandReading F)} {answers : TickAnswers F}

theorem collectSubscriptionUpdates_length {subscriptions after : List ObserverSubscription}
    {updates : List (SubscriptionUpdate F)}
    (run : NativeWorld.collectSubscriptionUpdates runtimes subscriptions = some (after, updates)) :
    updates.length ≤ subscriptions.length := by
  induction subscriptions generalizing after updates with
  | nil =>
    obtain ⟨-, rfl⟩ := Prod.mk.inj (Option.some.inj run)
    exact le_refl _
  | cons subscription rest ih =>
    obtain ⟨⟨one, update⟩, -, run⟩ := Option.bind_eq_some_iff.mp run
    obtain ⟨⟨others, more⟩, collected, run⟩ := Option.bind_eq_some_iff.mp run
    obtain ⟨-, rfl⟩ := Prod.mk.inj (Option.some.inj run)
    have := ih collected
    have few : update.toList.length ≤ 1 := by cases update <;> simp
    rw [List.length_append, List.length_cons]
    omega

variable (runtimes) in
/-- What the collection publishes for a subscription. -/
def publishedBy (subscription : ObserverSubscription) : Option PublishedObservation :=
  (subscription.collect (runtimes subscription.component)).bind fun collected =>
    collected.2.bind fun _ => collected.1.published

theorem collect_publishes {subscription next : ObserverSubscription} {update : Option (SubscriptionUpdate F)}
    (run : subscription.collect (runtimes subscription.component) = some (next, update)) :
    next = match publishedBy runtimes subscription with
      | some observation => subscription.setPublished observation
      | none => subscription := by
  unfold publishedBy
  rw [run, Option.bind_some]
  obtain ⟨runtime, -, run⟩ := Option.bind_eq_some_iff.mp run
  -- either nothing is pushed and the subscription stays, or what is pushed is published
  split at run
  · split at run
    · obtain ⟨rfl, rfl⟩ := Prod.mk.inj (Option.some.inj run)
      rfl
    · obtain ⟨value, -, run⟩ := Option.bind_eq_some_iff.mp run
      dsimp only at run
      split at run <;> obtain ⟨rfl, rfl⟩ := Prod.mk.inj (Option.some.inj run) <;> rfl
  · split at run <;> obtain ⟨rfl, rfl⟩ := Prod.mk.inj (Option.some.inj run) <;> rfl
  · cases run

theorem collectSubscriptionUpdates_publishes {subscriptions after : List ObserverSubscription}
    {updates : List (SubscriptionUpdate F)}
    (run : NativeWorld.collectSubscriptionUpdates runtimes subscriptions = some (after, updates)) :
    after = subscriptions.map fun subscription =>
      match publishedBy runtimes subscription with
      | some observation => subscription.setPublished observation
      | none => subscription := by
  induction subscriptions generalizing after updates with
  | nil =>
    obtain ⟨rfl, -⟩ := Prod.mk.inj (Option.some.inj run)
    rfl
  | cons subscription rest ih =>
    obtain ⟨⟨one, update⟩, collects, run⟩ := Option.bind_eq_some_iff.mp run
    obtain ⟨⟨others, more⟩, collected, run⟩ := Option.bind_eq_some_iff.mp run
    obtain ⟨rfl, -⟩ := Prod.mk.inj (Option.some.inj run)
    rw [List.map_cons, ← collect_publishes collects, ← ih collected]

/-- A tick that returns has ticked the stores, which publishes nothing yet, and then collected. -/
theorem NativeWorld.tick_inv {before after : NativeWorld F} {value : Unit}
    (run : NativeWorld.tick runtimes answers before = .ok value after) :
    ∃ (advanced : Stores F) (subscriptions : List ObserverSubscription),
      Stores.tick { answers with published := fun _ => none } before.stores = .ok () advanced ∧
      advanced.subscriptions = before.stores.subscriptions ∧
      NativeWorld.collectSubscriptionUpdates runtimes before.stores.subscriptions.subscriptions =
        some (subscriptions, after.subscriptionUpdates) ∧
      after.stores = { advanced with subscriptions := { advanced.subscriptions with subscriptions } } := by
  unfold NativeWorld.tick at run
  rw [Call.modify_bind] at run
  obtain ⟨_, mid, advances, run⟩ := Call.bind_eq_ok run
  obtain ⟨advanced, ticks, rfl⟩ : ∃ advanced, Stores.tick { answers with published := fun _ => none } before.stores =
      .ok () advanced ∧ mid = { before with subscriptionUpdates := [], stores := advanced } := by
    unfold Call.zoom at advances
    split at advances
    · rename_i stores ticks
      obtain ⟨-, rfl⟩ := Outcome.ok.inj advances
      exact ⟨stores, ticks, rfl⟩
    · cases advances
    · cases advances
  have kept : advanced.subscriptions = before.stores.subscriptions := by
    rcases Stores.tick_subscriptions _ (Or.inl ⟨_, ticks⟩) with same | same
    · exact same
    · rw [same]
      simp only [Stores.publish, List.map_id']
  rw [Call.get_bind] at run
  obtain ⟨⟨subscriptions, updates⟩, last, collects, run⟩ := Call.bind_eq_ok run
  cases collected : NativeWorld.collectSubscriptionUpdates runtimes advanced.subscriptions.subscriptions with
  | none =>
    dsimp only at collects
    rw [collected] at collects
    cases collects
  | some result =>
    dsimp only at collects
    rw [collected] at collects
    obtain ⟨rfl, -⟩ := Outcome.ok.inj collects
    obtain ⟨-, rfl⟩ := Outcome.ok.inj run
    exact ⟨advanced, subscriptions, ticks, kept, kept ▸ collected, rfl⟩

/-- A tick does to the stores what the stores' tick does that publishes what is collected. -/
theorem NativeWorld.tick_stores {before after : NativeWorld F} {value : Unit}
    (run : NativeWorld.tick runtimes answers before = .ok value after) :
    Stores.tick { answers with published := publishedBy runtimes } before.stores = .ok () after.stores := by
  obtain ⟨advanced, subscriptions, ticks, kept, collected, isAfter⟩ := NativeWorld.tick_inv run
  rw [← kept] at collected
  -- the two ticks differ in what is published last
  unfold Stores.tick at ticks ⊢
  obtain ⟨_, first, synced, ticks⟩ := Call.bind_eq_ok ticks
  rw [Call.bind_ok synced]
  rw [Call.modify_bind] at ticks ⊢
  obtain ⟨_, second, solved, ticks⟩ := Call.bind_eq_ok ticks
  rw [Call.bind_ok solved]
  obtain ⟨_, third, committed, ticks⟩ := Call.bind_eq_ok ticks
  rw [Call.bind_ok committed]
  obtain ⟨-, rfl⟩ := Outcome.ok.inj ticks
  have unpublished : Stores.publish (fun _ => none) third = third := by
    simp only [Stores.publish, List.map_id']
  rw [unpublished] at collected isAfter
  rw [isAfter]
  exact congrArg (fun subscriptions => Outcome.ok () ({ third with
    subscriptions := { third.subscriptions with subscriptions } } : Stores F))
    (collectSubscriptionUpdates_publishes collected).symm

/-- A tick has at most one update for each subscription there was. -/
theorem NativeWorld.tick_updates {before after : NativeWorld F} {value : Unit}
    (run : NativeWorld.tick runtimes answers before = .ok value after) :
    after.subscriptionUpdates.length ≤ before.stores.subscriptions.subscriptions.length := by
  obtain ⟨-, subscriptions, -, -, collected, -⟩ := NativeWorld.tick_inv run
  exact collectSubscriptionUpdates_length collected

/-- What the client keeps of an update. -/
def SubscriptionUpdate.record (update : SubscriptionUpdate F) : SubscriptionRecord :=
  match update.status with
  | .available => ⟨update.subscription, .available (F64.toBits update.value)⟩
  | .unavailable => ⟨update.subscription, .unavailable⟩

theorem collect_record {subscription next : ObserverSubscription} {update : Option (SubscriptionUpdate F)}
    (run : subscription.collect (runtimes subscription.component) = some (next, update)) :
    update.map SubscriptionUpdate.record =
      (publishedBy runtimes subscription).map fun observation => ⟨subscription.id, observation⟩ := by
  unfold publishedBy
  rw [run, Option.bind_some]
  obtain ⟨runtime, -, run⟩ := Option.bind_eq_some_iff.mp run
  split at run
  · split at run
    · obtain ⟨rfl, rfl⟩ := Prod.mk.inj (Option.some.inj run)
      rfl
    · obtain ⟨value, -, run⟩ := Option.bind_eq_some_iff.mp run
      dsimp only at run
      split at run <;> obtain ⟨rfl, rfl⟩ := Prod.mk.inj (Option.some.inj run) <;> rfl
  · split at run <;> obtain ⟨rfl, rfl⟩ := Prod.mk.inj (Option.some.inj run) <;> rfl
  · cases run

/-- The records of the client's tick are those of the updates. -/
theorem collectSubscriptionUpdates_records {subscriptions after : List ObserverSubscription}
    {updates : List (SubscriptionUpdate F)}
    (run : NativeWorld.collectSubscriptionUpdates runtimes subscriptions = some (after, updates)) :
    updates.map SubscriptionUpdate.record = subscriptions.filterMap fun subscription =>
      (publishedBy runtimes subscription).map fun observation => ⟨subscription.id, observation⟩ := by
  induction subscriptions generalizing after updates with
  | nil =>
    obtain ⟨-, rfl⟩ := Prod.mk.inj (Option.some.inj run)
    rfl
  | cons subscription rest ih =>
    obtain ⟨⟨one, update⟩, collects, run⟩ := Option.bind_eq_some_iff.mp run
    obtain ⟨⟨others, more⟩, collected, run⟩ := Option.bind_eq_some_iff.mp run
    obtain ⟨-, rfl⟩ := Prod.mk.inj (Option.some.inj run)
    rw [List.map_append, ih collected, List.filterMap_cons, ← collect_record collects]
    cases update <;> rfl

/-- With room for them, all updates are written from the index on. -/
theorem writeRecords_spec {records : List (Record F)} {index : Nat} {updates : List (SubscriptionUpdate F)}
    (room : index + updates.length ≤ records.length) :
    ∃ written, writeRecords records index updates = some written ∧ written.length = records.length ∧
      (∀ i < index, written[i]? = records[i]?) ∧
      ∀ (i : Nat) (update : SubscriptionUpdate F), updates[i]? = some update → written[index + i]? = some (SubscriptionRecordBuffer.Record.of update) := by
  induction updates generalizing records index with
  | nil => exact ⟨records, rfl, rfl, fun _ _ => rfl, nofun⟩
  | cons update updates ih =>
    rw [List.length_cons] at room
    obtain ⟨written, run, length, before, here⟩ := @ih (records.set index (SubscriptionRecordBuffer.Record.of update)) (index + 1)
      (by rw [List.length_set]; omega)
    refine ⟨written, ?_, by rw [length, List.length_set], fun i lower => ?_, fun i other found => ?_⟩
    · rw [writeRecords, assign_of_lt (by omega)]
      exact run
    · rw [before i (by omega), List.getElem?_set_ne (by omega)]
    · cases i with
      | zero =>
        obtain rfl := Option.some.inj found
        rw [Nat.add_zero, before index (by omega), List.getElem?_set_self (by omega)]
      | succ i =>
        rw [show index + (i + 1) = index + 1 + i by omega]
        exact here i other found

/-- How a call on a segment and its length ends. -/
inductive WorldTicks (runtimes : DeviceComponent → Option (IslandReading F)) (answers : TickAnswers F)
    (records : List (Record F)) (world : NativeWorld F) : TickCode → TickResult → NativeWorld F → List (Record F) → Prop
  | tooSmall (bounded : world.stores.subscriptions.subscriptions.length < 2 ^ 32)
      (small : records.length < world.stores.subscriptions.subscriptions.length) :
    WorldTicks runtimes answers records world .bufferTooSmall (.failure world.stores.subscriptions.subscriptions.length)
      world records
  | success {after : NativeWorld F} {written : List (Record F)}
      (bounded : world.stores.subscriptions.subscriptions.length < 2 ^ 32)
      (room : world.stores.subscriptions.subscriptions.length ≤ records.length)
      (ticks : NativeWorld.tick runtimes answers world = .ok () after)
      (few : after.subscriptionUpdates.length ≤ world.stores.subscriptions.subscriptions.length)
      (length : written.length = records.length)
      (holds : ∀ (i : Nat) (update : SubscriptionUpdate F), after.subscriptionUpdates[i]? = some update →
        written[i]? = some (SubscriptionRecordBuffer.Record.of update)) :
    WorldTicks runtimes answers records world .success
      (.success after.subscriptionUpdates.length world.stores.subscriptions.subscriptions.length) after written
  | fails {code : TickCode} {result : TickResult} {after : NativeWorld F}
      (fails : ∀ next, NativeWorld.tick runtimes answers world ≠ .ok () next ∨
        2 ^ 32 ≤ world.stores.subscriptions.subscriptions.length)
      (other : (∃ failure, code = .failed failure) ∨ code = .internalPanic) :
    WorldTicks runtimes answers records world code result after records

/-- The call writes nowhere but in the segment. -/
theorem hynergyWorldTick_spec (records : List (Record F)) (world : NativeWorld F) :
    ∃ code result after written, hynergyWorldTick runtimes answers records records.length world =
      some (code, result, after, written) ∧ WorldTicks runtimes answers records world code result after written := by
  unfold hynergyWorldTick
  dsimp only
  by_cases bounded : 2 ^ 32 ≤ world.stores.subscriptions.subscriptions.length
  · rw [if_pos bounded]
    exact ⟨_, _, _, _, rfl, .fails (fun _ => Or.inr bounded) (Or.inr rfl)⟩
  rw [if_neg bounded]
  by_cases small : records.length < world.stores.subscriptions.subscriptions.length
  · rw [if_pos small]
    exact ⟨_, _, _, _, rfl, .tooSmall (by omega) small⟩
  rw [if_neg small, if_neg (by omega)]
  cases ticks : NativeWorld.tick runtimes answers world with
  | panic => exact ⟨_, _, _, _, rfl, .fails (fun _ => Or.inl (by rw [ticks]; nofun)) (Or.inr rfl)⟩
  | err failure after => exact ⟨_, _, _, _, rfl, .fails (fun _ => Or.inl (by rw [ticks]; nofun)) (Or.inl ⟨failure, rfl⟩)⟩
  | ok value after =>
    have few := NativeWorld.tick_updates ticks
    obtain ⟨written, run, length, -, holds⟩ := @writeRecords_spec _ _ records 0 after.subscriptionUpdates (by omega)
    refine ⟨.success, _, after, written, ?_, .success (by omega) (by omega) ticks few length fun i update found => ?_⟩
    · dsimp only
      rw [run]
      exact if_neg (by omega)
    · rw [← Nat.zero_add i]
      exact holds i update found

end Engine

/-! ### Ticks that return -/

namespace TickingWorld

variable [F64 F] {definitions : DefinitionRegistry F} {fromBits : BitVec 64 → F}
  {runtimes : DeviceComponent → Option (IslandReading F)} {answers : TickAnswers F} {grants : Grants}
  {before after : TickingWorld F} {recordCount : Int}

theorem javaInt_eq {raw : Nat} (bounded : raw < 2 ^ 32) :
    (raw < 2 ^ 31 ∧ javaInt raw = raw) ∨ (2 ^ 31 ≤ raw ∧ javaInt raw < 0) := by
  unfold javaInt
  rw [BitVec.toInt_eq_toNat_cond, BitVec.toNat_ofNat, Nat.mod_eq_of_lt bounded]
  split <;> omega

/-- A world whose attempt had this code, on the way. -/
def attempted (self : TickingWorld F) (code : TickCode) (world : NativeWorld F) (records : List (Record F)) :
    TickingWorld F :=
  { client := { self.client with world := world.stores }, subscriptionUpdates := world.subscriptionUpdates
    subscriptionBuffer := { records }
    attempts := self.attempts ++ [⟨code, self.subscriptionBuffer.capacity, self.native, world⟩] }

theorem tickWorld_spec (self : TickingWorld F) : ∃ code result world written,
    tickWorld runtimes answers self = .ok (code, result) (self.attempted code world written) ∧
      WorldTicks runtimes answers self.subscriptionBuffer.records self.native code result world written := by
  obtain ⟨code, result, world, written, run, ends⟩ :=
    @hynergyWorldTick_spec _ _ runtimes answers self.subscriptionBuffer.records self.native
  exact ⟨code, result, world, written, by rw [tickWorld, SubscriptionRecordBuffer.capacity, run]; rfl, ends⟩

omit [F64 F] in
/-- A successful attempt returns the number of its updates. -/
theorem readSuccessfulTickResult_run {self : TickingWorld F} {count required : Nat} (few : count ≤ required)
    (bounded : required < 2 ^ 32) (room : required ≤ self.subscriptionBuffer.capacity)
    (fits : self.subscriptionBuffer.capacity ≤ maxId) :
    readSuccessfulTickResult (.success count required) self = .ok (count : Int) self := by
  have small : required < 2 ^ 31 := by
    rw [maxId] at fits
    omega
  have isCount : javaInt count = count := by
    rcases @javaInt_eq count (by omega) with ⟨-, same⟩ | ⟨large, -⟩
    · exact same
    · omega
  have isRequired : javaInt required = required := by
    rcases @javaInt_eq required (by omega) with ⟨-, same⟩ | ⟨large, -⟩
    · exact same
    · omega
  unfold readSuccessfulTickResult
  rw [Call.get_bind]
  simp only [TickResult.success, isCount, isRequired]
  rw [if_neg (by omega)]
  rfl

/-- A round that returns had enough room at once, or grew the buffer and left the rest to the next. -/
theorem tickRound_cases (self : TickingWorld F) (resized : Bool) (next : TickCall F Int)
    (fits : self.subscriptionBuffer.capacity ≤ maxId) :
    (∃ ticked written, NativeWorld.tick runtimes answers self.native = .ok () ticked ∧
        self.native.stores.subscriptions.subscriptions.length ≤ self.subscriptionBuffer.capacity ∧
        written.length = self.subscriptionBuffer.capacity ∧
        (∀ (i : Nat) (update : SubscriptionUpdate F), ticked.subscriptionUpdates[i]? = some update →
          written[i]? = some (SubscriptionRecordBuffer.Record.of update)) ∧
        tickRound runtimes answers grants resized next self =
          .ok (ticked.subscriptionUpdates.length : Int) (self.attempted .success ticked written)) ∨
      (resized = false ∧ self.subscriptionBuffer.capacity < self.native.stores.subscriptions.subscriptions.length ∧
        self.native.stores.subscriptions.subscriptions.length ≤ maxId ∧ grants.records = true ∧
        tickRound runtimes answers grants resized next self = next
          { self.attempted .bufferTooSmall self.native self.subscriptionBuffer.records with
            subscriptionBuffer := .grown self.native.stores.subscriptions.subscriptions.length
              self.subscriptionBuffer.capacity }) ∨
      ((∃ error last, tickRound runtimes answers grants resized next self = .err error last) ∧
        ((∀ next, NativeWorld.tick runtimes answers self.native ≠ .ok () next) ∨
          2 ^ 31 ≤ self.native.stores.subscriptions.subscriptions.length ∨ grants.records = false ∨
          resized = true ∧ self.subscriptionBuffer.capacity < self.native.stores.subscriptions.subscriptions.length)) := by
  obtain ⟨code, result, world, written, run, ends⟩ := @tickWorld_spec _ _ runtimes answers self
  unfold tickRound
  rw [Call.bind_ok run]
  cases ends with
  | success bounded room ticks few length holds =>
    refine Or.inl ⟨world, written, ticks, room, length, holds, ?_⟩
    exact readSuccessfulTickResult_run few bounded (by rw [attempted, SubscriptionRecordBuffer.capacity, length]; exact room)
      (by rw [attempted, SubscriptionRecordBuffer.capacity, length]; exact fits)
  | tooSmall bounded small =>
    have small : self.subscriptionBuffer.capacity < self.native.stores.subscriptions.subscriptions.length := small
    cases resized with
    | true => exact Or.inr (Or.inr ⟨⟨_, _, rfl⟩, Or.inr (Or.inr (Or.inr ⟨rfl, small⟩))⟩)
    | false =>
      dsimp only [TickResult.failure]
      rw [if_neg Bool.false_ne_true]
      rcases javaInt_eq bounded with ⟨inInt, same⟩ | ⟨large, negative⟩
      · rw [same, Call.rejectIf_bind_neg (by omega), Call.get_bind]
        have short : ¬ ((self.native.stores.subscriptions.subscriptions.length : Int) ≤
            (self.attempted .bufferTooSmall self.native self.subscriptionBuffer.records).subscriptionBuffer.capacity) := by
          have kept : (self.attempted .bufferTooSmall self.native
              self.subscriptionBuffer.records).subscriptionBuffer.capacity = self.subscriptionBuffer.capacity := rfl
          rw [kept]
          omega
        rw [if_neg short]
        by_cases granted : grants.records = true
        · have ensures : SubscriptionRecordBuffer.ensureCapacity grants.records
              (self.native.stores.subscriptions.subscriptions.length : Int) self.subscriptionBuffer =
              .ok () (.grown self.native.stores.subscriptions.subscriptions.length self.subscriptionBuffer.capacity) := by
            unfold SubscriptionRecordBuffer.ensureCapacity
            rw [Call.rejectIf_bind_neg (by omega), Call.get_bind, if_neg (by omega),
              Call.rejectIf_bind_neg (by simp [granted])]
            rfl
          refine Or.inr (Or.inl ⟨rfl, small, by rw [maxId]; omega, granted, ?_⟩)
          exact Call.bind_ok (Call.zoom_ok ensures)
        · have ensures : SubscriptionRecordBuffer.ensureCapacity grants.records
              (self.native.stores.subscriptions.subscriptions.length : Int) self.subscriptionBuffer =
              .err .outOfMemory self.subscriptionBuffer := by
            unfold SubscriptionRecordBuffer.ensureCapacity
            rw [Call.rejectIf_bind_neg (by omega), Call.get_bind, if_neg (by omega),
              Call.rejectIf_bind_pos (by simpa using granted)]
          exact Or.inr (Or.inr ⟨⟨_, _, Call.bind_err (Call.zoom_err ensures)⟩,
            Or.inr (Or.inr (Or.inl (by simpa using granted)))⟩)
      · rw [Call.rejectIf_bind_pos negative]
        exact Or.inr (Or.inr ⟨⟨_, _, rfl⟩, Or.inr (Or.inl large)⟩)
  | fails fails other =>
    refine Or.inr (Or.inr ⟨?_, ?_⟩)
    · rcases other with ⟨failure, rfl⟩ | rfl <;> exact ⟨_, _, rfl⟩
    · by_cases large : 2 ^ 31 ≤ self.native.stores.subscriptions.subscriptions.length
      · exact Or.inr (Or.inl large)
      · exact Or.inl fun next => (fails next).resolve_right (by omega)

open WorldCommandBuffer (Encodes)
open WorldCommands (RawCommand Applied applyTo)

/-- The buffer grows so that the second attempt has room. -/
theorem grown_room {required capacity : Nat} (small : required ≤ maxId) (fits : capacity ≤ maxId) :
    required ≤ (SubscriptionRecordBuffer.grown required capacity : SubscriptionRecordBuffer F).capacity ∧
      (SubscriptionRecordBuffer.grown required capacity : SubscriptionRecordBuffer F).capacity ≤ maxId := by
  unfold SubscriptionRecordBuffer.grown SubscriptionRecordBuffer.capacity
  rw [List.length_replicate]
  exact ⟨SubscriptionRecordBuffer.le_growCapacity _ _,
    SubscriptionRecordBuffer.growCapacity_le small (max_le fits (by decide))⟩

/-- The attempts of a tick that returns. -/
inductive Attempts (capacity : Nat) (start ticked : NativeWorld F) : Nat → List (TickAttempt F) → Prop
  | once (room : start.stores.subscriptions.subscriptions.length ≤ capacity) :
    Attempts capacity start ticked capacity [⟨.success, capacity, start, ticked⟩]
  | resized {grown : Nat} (small : capacity < start.stores.subscriptions.subscriptions.length)
      (isGrown : grown = SubscriptionRecordBuffer.growCapacity start.stores.subscriptions.subscriptions.length (max capacity 8)) :
    Attempts capacity start ticked grown
      [⟨.bufferTooSmall, capacity, start, start⟩, ⟨.success, grown, start, ticked⟩]

omit [F64 F] in
theorem Attempts.single {capacity last : Nat} {start ticked : NativeWorld F} {attempts : List (TickAttempt F)}
    (each : Attempts capacity start ticked last attempts)
    (room : start.stores.subscriptions.subscriptions.length ≤ capacity) : attempts.length = 1 := by
  cases each with
  | once => rfl
  | resized small => omega

/-- The loop returns from the first round with room, or fails for a reason that is not the capacity. -/
theorem rounds_cases (self : TickingWorld F) (fits : self.subscriptionBuffer.capacity ≤ maxId) :
    (∃ ticked last, NativeWorld.tick runtimes answers self.native = .ok () ticked ∧
        tickRound runtimes answers grants false (tickRound runtimes answers grants true
          (Call.throw (.java .illegalState))) self = .ok (ticked.subscriptionUpdates.length : Int) last ∧
        last.client = { self.client with world := ticked.stores } ∧ last.subscriptionUpdates = ticked.subscriptionUpdates ∧
        (self.subscriptionBuffer.capacity < self.native.stores.subscriptions.subscriptions.length →
          self.native.stores.subscriptions.subscriptions.length ≤ maxId ∧ grants.records = true) ∧
        (∀ (i : Nat) (update : SubscriptionUpdate F), ticked.subscriptionUpdates[i]? = some update →
          last.subscriptionBuffer.records[i]? = some (SubscriptionRecordBuffer.Record.of update)) ∧
        ∃ attempts, last.attempts = self.attempts ++ attempts ∧
          Attempts self.subscriptionBuffer.capacity self.native ticked last.subscriptionBuffer.capacity attempts) ∨
      ((∃ error last, tickRound runtimes answers grants false (tickRound runtimes answers grants true
          (Call.throw (.java .illegalState))) self = .err error last) ∧
        ((∀ next, NativeWorld.tick runtimes answers self.native ≠ .ok () next) ∨
          2 ^ 31 ≤ self.native.stores.subscriptions.subscriptions.length ∨ grants.records = false)) := by
  rcases tickRound_cases self false (tickRound runtimes answers grants true (Call.throw (.java .illegalState))) fits with
    ⟨ticked, written, ticks, room, length, holds, run⟩ | ⟨-, small, int, granted, run⟩ | ⟨fails, why⟩
  · refine Or.inl ⟨ticked, _, ticks, run, rfl, rfl, fun small => absurd room (Nat.not_le.mpr small), holds, _, rfl, ?_⟩
    show Attempts _ _ _ written.length _
    rw [length]
    exact .once room
  · have kept : ∀ world : TickingWorld F, (world.attempted .bufferTooSmall world.native
        world.subscriptionBuffer.records).native = world.native := fun _ => rfl
    obtain ⟨enough, fits'⟩ := grown_room (F := F) int fits
    generalize isNext : ({ self.attempted .bufferTooSmall self.native self.subscriptionBuffer.records with
      subscriptionBuffer := .grown self.native.stores.subscriptions.subscriptions.length
        self.subscriptionBuffer.capacity } : TickingWorld F) = second at run
    have native : second.native = self.native := by rw [← isNext]; rfl
    have client : second.client = self.client := by rw [← isNext]; rfl
    have attempts : second.attempts = self.attempts ++
        [⟨.bufferTooSmall, self.subscriptionBuffer.capacity, self.native, self.native⟩] := by rw [← isNext]; rfl
    have buffer : second.subscriptionBuffer = .grown self.native.stores.subscriptions.subscriptions.length
        self.subscriptionBuffer.capacity := by rw [← isNext]
    rcases @tickRound_cases _ _ runtimes answers grants second true (Call.throw (.java .illegalState))
        (by rw [buffer]; exact fits') with
      ⟨ticked, written, ticks, room, length, holds, run'⟩ | ⟨wrong, -⟩ | ⟨⟨error, last, failed⟩, why⟩
    · rw [native] at ticks
      refine Or.inl ⟨ticked, _, ticks, run.trans run', ?_, rfl, fun _ => ⟨int, granted⟩, holds, _, ?_, .resized small ?_⟩
      · rw [attempted, client]
      · have isLength : (second.attempted .success ticked written).subscriptionBuffer.capacity =
            second.subscriptionBuffer.capacity := length
        rw [isLength, attempted, attempts, List.append_assoc, native]
        rfl
      · show written.length = _
        rw [length, buffer, SubscriptionRecordBuffer.capacity, SubscriptionRecordBuffer.grown, List.length_replicate]
    · cases wrong
    · rw [native, buffer] at why
      refine Or.inr ⟨⟨error, last, run.trans failed⟩, why.imp_right (Or.imp_right ?_)⟩
      rintro (refused | ⟨-, short⟩)
      · exact refused
      · omega
  · refine Or.inr ⟨fails, why.imp_right (Or.imp_right ?_)⟩
    rintro (refused | ⟨wrong, -⟩)
    · exact refused
    · cases wrong

/-- After the commands, a tick is the rounds of attempts. -/
theorem tick_rounds {commands : List RawCommand} {applied : ElectricalWorld F}
    (tracks : ElectricalWorld.Tracks definitions before.client commands)
    (run : ElectricalWorld.applyCommands definitions fromBits grants before.client = .ok () applied) :
    ElectricalWorld.Tracks definitions applied [] ∧
      Applied (applyTo definitions fromBits) commands before.client.world applied.world ∧
      tick definitions fromBits runtimes answers grants before =
        tickRound runtimes answers grants false (tickRound runtimes answers grants true
          (Call.throw (.java .illegalState))) { before with client := applied } := by
  have applies := @ElectricalWorld.applyCommands_spec _ _ _ fromBits _ _ tracks grants
  rw [run] at applies
  refine ⟨applies.1, applies.2, ?_⟩
  have first : onClient (ElectricalWorld.applyCommands definitions fromBits grants) before =
      .ok () { before with client := applied } := Call.zoom_ok run
  have usable : onClient ElectricalWorld.requireUsable { before with client := applied } =
      .ok () { before with client := applied } :=
    Call.zoom_ok (ElectricalWorld.requireUsable_run applies.1.pending.usable)
  unfold tick
  rw [Call.bind_ok first, Call.bind_ok usable]

/-- From eight records on the steps of the client's loop suffice for every `int`, so the two growths agree. -/
theorem growRecords_eq {required fuel capacity : Nat} (eight : 8 ≤ capacity) (fits : capacity ≤ maxId)
    (enough : 2 ^ 31 * 16 ^ fuel < capacity * 23 ^ fuel) :
    ElectricalWorld.growRecords required fuel capacity = SubscriptionRecordBuffer.growCapacity required capacity := by
  induction fuel generalizing capacity with
  | zero =>
    rw [maxId] at fits
    omega
  | succ fuel ih =>
    rw [ElectricalWorld.growRecords, SubscriptionRecordBuffer.growCapacity]
    have next : SubscriptionRecordBuffer.nextCapacity capacity =
        if capacity + capacity / 2 ≤ maxId then (capacity + capacity / 2 : Int) else
          (capacity + capacity / 2 : Int) - 2 ^ 32 := by
      rw [SubscriptionRecordBuffer.nextCapacity, BitVec.toInt_eq_toNat_cond, BitVec.toNat_ofNat, Nat.mod_eq_of_lt (by rw [maxId] at fits; omega)]
      rw [maxId] at fits ⊢
      split <;> split <;> omega
    by_cases lower : capacity < required
    swap
    · rw [if_neg lower, if_neg lower]
    rw [if_pos lower, if_pos lower]
    dsimp only
    by_cases large : maxId < capacity + capacity / 2
    · rw [if_pos (Or.inl large), if_pos (by rw [next, if_neg (by omega)]; rw [maxId] at fits; omega)]
    have steps : ¬(maxId < capacity + capacity / 2 ∨ capacity + capacity / 2 ≤ capacity) := by omega
    have grows : ¬((capacity + capacity / 2 : Int) ≤ capacity) := by omega
    rw [if_neg steps, next, if_pos (Nat.not_lt.mp large), if_neg grows]
    refine (ih (by omega) (Nat.not_lt.mp large) ?_).trans (congrArg _ (by omega))
    -- a step is at least 23/16 of the capacity
    have step : 23 * capacity ≤ 16 * (capacity + capacity / 2) := by omega
    have scaled : 16 * (2 ^ 31 * 16 ^ fuel) < 16 * ((capacity + capacity / 2) * 23 ^ fuel) := by
      calc 16 * (2 ^ 31 * 16 ^ fuel) = 2 ^ 31 * 16 ^ (fuel + 1) := by ring
        _ < capacity * 23 ^ (fuel + 1) := enough
        _ = 23 * capacity * 23 ^ fuel := by ring
        _ ≤ 16 * (capacity + capacity / 2) * 23 ^ fuel := Nat.mul_le_mul_right _ step
        _ = 16 * ((capacity + capacity / 2) * 23 ^ fuel) := by ring
    exact Nat.lt_of_mul_lt_mul_left scaled

/-- A tick that returns is, for the client, the tick that publishes what is collected: the same commands
are applied, the world is left the same and there is one record for each update. -/
theorem tick_client {commands : List RawCommand} {applied : ElectricalWorld F}
    (tracks : ElectricalWorld.Tracks definitions before.client commands)
    (applies : ElectricalWorld.applyCommands definitions fromBits grants before.client = .ok () applied)
    (same : applied.recordCapacity = before.subscriptionBuffer.capacity)
    (run : tick definitions fromBits runtimes answers grants before = .ok recordCount after) :
    recordCount = after.subscriptionUpdates.length ∧
      ElectricalWorld.tick definitions fromBits grants { answers with published := publishedBy runtimes } before.client =
        .ok after.subscriptionUpdates.length { after.client with
          records := after.subscriptionUpdates.map SubscriptionUpdate.record
          recordCapacity := after.subscriptionBuffer.capacity } := by
  obtain ⟨tracks', -, isRounds⟩ := @tick_rounds _ _ _ _ runtimes answers _ _ _ _ tracks applies
  have fits : before.subscriptionBuffer.capacity ≤ maxId := same ▸ tracks'.pending.records
  rw [isRounds] at run
  rcases @rounds_cases _ _ runtimes answers grants { before with client := applied } fits with
    ⟨ticked, last, ticks, returns, isClient, updates, grows, -, attempts, -, each⟩ | ⟨⟨error, last, fails⟩, -⟩
  swap
  · rw [fails] at run
    cases run
  rw [returns] at run
  obtain ⟨rfl, rfl⟩ := Outcome.ok.inj run
  refine ⟨by rw [updates], ?_⟩
  have stores := NativeWorld.tick_stores ticks
  have few := NativeWorld.tick_updates ticks
  obtain ⟨-, subscriptions, -, -, collected, -⟩ := NativeWorld.tick_inv ticks
  have records : ElectricalWorld.recordsOf (publishedBy runtimes) applied.world =
      ticked.subscriptionUpdates.map SubscriptionUpdate.record := (collectSubscriptionUpdates_records collected).symm
  -- with a capacity that has room, the engine ticks and the result is read
  have reads : ∀ capacity : Nat, applied.world.subscriptions.subscriptions.length ≤ capacity → capacity ≤ maxId →
      (ElectricalWorld.nativeTick { answers with published := publishedBy runtimes } >>= fun count =>
          ElectricalWorld.readSuccessfulTickResult count applied.world.subscriptions.subscriptions.length)
          { applied with recordCapacity := capacity } =
        .ok ticked.subscriptionUpdates.length { applied with
          world := ticked.stores, records := ticked.subscriptionUpdates.map SubscriptionUpdate.record
          recordCapacity := capacity } := by
    intro capacity room int
    have native : ElectricalWorld.nativeTick { answers with published := publishedBy runtimes }
        { applied with recordCapacity := capacity } = .ok ticked.subscriptionUpdates.length { applied with
          world := ticked.stores, records := ticked.subscriptionUpdates.map SubscriptionUpdate.record
          recordCapacity := capacity } := by
      unfold ElectricalWorld.nativeTick
      rw [show Stores.tick _ applied.world = _ from stores]
      dsimp only
      rw [records, List.length_map]
    have few' : ticked.subscriptionUpdates.length ≤ applied.world.subscriptions.subscriptions.length := few
    rw [Call.bind_ok native, ElectricalWorld.readSuccessfulTickResult, if_neg (by dsimp only; omega)]
  unfold ElectricalWorld.tick
  rw [Call.bind_ok applies, Call.bind_ok (ElectricalWorld.requireUsable_run tracks'.pending.usable), Call.get_bind]
  rw [updates, isClient]
  generalize last.subscriptionBuffer.capacity = capacity at each ⊢
  cases each with
  | once room =>
    have room : applied.world.subscriptions.subscriptions.length ≤ before.subscriptionBuffer.capacity := room
    rw [if_neg (by omega)]
    exact (reads applied.recordCapacity (by omega) (by omega)).trans (by rw [same])
  | resized small isGrown =>
    have small : before.subscriptionBuffer.capacity < applied.world.subscriptions.subscriptions.length := small
    have isGrown : capacity = SubscriptionRecordBuffer.growCapacity applied.world.subscriptions.subscriptions.length
      (max before.subscriptionBuffer.capacity 8) := isGrown
    obtain ⟨int, granted⟩ : applied.world.subscriptions.subscriptions.length ≤ maxId ∧ grants.records = true := grows small
    have eight : max applied.recordCapacity 8 ≤ maxId := max_le (by omega) (by decide)
    have isRecords := @growRecords_eq applied.world.subscriptions.subscriptions.length 64 _ (Nat.le_max_right applied.recordCapacity 8) eight (by
      have := Nat.mul_le_mul_right (23 ^ 64) (Nat.le_max_right applied.recordCapacity 8)
      omega)
    obtain ⟨room, bounded⟩ := @grown_room F _ _ _ int fits
    have ensures : ElectricalWorld.ensureRecords grants applied.world.subscriptions.subscriptions.length applied =
        .ok () { applied with recordCapacity := capacity } := by
      unfold ElectricalWorld.ensureRecords
      rw [Call.get_bind, if_neg (by omega), Call.rejectIf_bind_neg (by rw [granted]; decide), isRecords, isGrown, same]
      rfl
    have length : capacity = (SubscriptionRecordBuffer.grown applied.world.subscriptions.subscriptions.length
        before.subscriptionBuffer.capacity : SubscriptionRecordBuffer F).capacity :=
      isGrown.trans List.length_replicate.symm
    rw [if_pos (by omega), Call.rejectIf_bind_neg (by omega), Call.bind_ok ensures]
    exact reads capacity (by omega) (by omega)

/-- A tick that returns has applied the pending commands once and advanced the world once, by an
attempt with room for all updates, and has grown the buffer at most once before it. -/
theorem tick_exactly_once (reached : ElectricalWorld.Reached fromBits definitions before.client)
    (fits : before.subscriptionBuffer.capacity ≤ maxId) :
    (∀ (records : List (Record F)) (world : NativeWorld F), ∃ code result after written,
        hynergyWorldTick runtimes answers records records.length world = some (code, result, after, written) ∧
          (code = .bufferTooSmall → after = world ∧ written = records)) ∧
      (∀ recordCount after, tick definitions fromBits runtimes answers grants before = .ok recordCount after →
        ∃ commands applied ticked attempts, Encodes before.client.commandBuffer commands ∧
          ElectricalWorld.applyCommands definitions fromBits grants before.client = .ok () applied ∧
          Applied (applyTo definitions fromBits) commands before.client.world applied.world ∧
          Encodes applied.commandBuffer [] ∧
          NativeWorld.tick runtimes answers ⟨applied.world, before.subscriptionUpdates⟩ = .ok () ticked ∧
          after.client = { applied with world := ticked.stores } ∧
          after.subscriptionUpdates = ticked.subscriptionUpdates ∧
          recordCount = ticked.subscriptionUpdates.length ∧
          (∀ (i : Nat) (update : SubscriptionUpdate F), ticked.subscriptionUpdates[i]? = some update →
            after.subscriptionBuffer.recordAt i = .ok (SubscriptionRecordBuffer.Record.of update)) ∧
          after.attempts = before.attempts ++ attempts ∧
          Attempts before.subscriptionBuffer.capacity ⟨applied.world, before.subscriptionUpdates⟩ ticked
            after.subscriptionBuffer.capacity attempts) ∧
      ∀ applied ticked, ElectricalWorld.applyCommands definitions fromBits grants before.client = .ok () applied →
        NativeWorld.tick runtimes answers ⟨applied.world, before.subscriptionUpdates⟩ = .ok () ticked →
        applied.world.subscriptions.subscriptions.length < 2 ^ 31 → grants.records = true →
        ∃ recordCount after, tick definitions fromBits runtimes answers grants before = .ok recordCount after := by
  obtain ⟨commands, tracks⟩ := reached.tracks
  have applies := @ElectricalWorld.applyCommands_spec _ _ _ fromBits _ _ tracks grants
  have rounds := fun applied => @tick_rounds _ _ definitions fromBits runtimes answers grants before commands applied tracks
  refine ⟨fun records world => ?_, fun recordCount after run => ?_, fun applied ticked run ticks few granted => ?_⟩
  · obtain ⟨code, result, after, written, run, ends⟩ :=
      @hynergyWorldTick_spec _ _ runtimes answers records world
    refine ⟨code, result, after, written, run, fun small => ?_⟩
    cases ends with
    | tooSmall => exact ⟨rfl, rfl⟩
    | success => cases small
    | fails _ other => rcases other with ⟨failure, rfl⟩ | rfl <;> cases small
  · obtain ⟨_, mid, first, -⟩ := Call.bind_eq_ok run
    cases applied : ElectricalWorld.applyCommands definitions fromBits grants before.client with
    | ok value client =>
      obtain ⟨tracks', done, isRounds⟩ := rounds client applied
      rw [isRounds] at run
      rcases @rounds_cases _ _ runtimes answers grants { before with client } fits with
        ⟨ticked, last, ticks, returns, isClient, updates, -, holds, attempts, isAttempts, each⟩ | ⟨⟨error, last, fails⟩, -⟩
      · rw [returns] at run
        obtain ⟨rfl, rfl⟩ := Outcome.ok.inj run
        refine ⟨commands, client, ticked, attempts, tracks.pending.encodes, rfl, done, tracks'.pending.encodes, ticks,
          isClient, updates, rfl, fun i update found => ?_, isAttempts, each⟩
        have here := holds i update found
        have inside : i < last.subscriptionBuffer.capacity := (List.getElem?_eq_some_iff.mp here).1
        rw [SubscriptionRecordBuffer.recordAt, if_neg (by omega), Int.toNat_natCast, here]
      · rw [fails] at run
        cases run
    | err error client =>
      have failed : onClient (ElectricalWorld.applyCommands definitions fromBits grants) before =
          .err error { before with client } := Call.zoom_err applied
      rw [failed] at first
      cases first
    | panic =>
      rw [applied] at applies
      exact applies.elim
  · obtain ⟨-, -, isRounds⟩ := rounds applied run
    rw [isRounds]
    rcases @rounds_cases _ _ runtimes answers grants { before with client := applied } fits with
      ⟨_, last, -, returns, -⟩ | ⟨-, never | large | refused⟩
    · exact ⟨_, last, returns⟩
    · exact absurd ticks (never ticked)
    · have large : 2 ^ 31 ≤ applied.world.subscriptions.subscriptions.length := large
      omega
    · rw [granted] at refused
      cases refused

set_option maxRecDepth 8000 in
/-- A device with two subscriptions, and a wire that is still pending: the first attempt finds no room
for two records, the buffer grows to eight and the second attempt ticks. -/
theorem tick_exactly_once_grows : ∃ (before after : TickingWorld Float) (recordCount : Int),
    ElectricalWorld.Reached (fun bits => .ofBits ⟨bits⟩) .new before.client ∧ before.client.commandBuffer.commandCount = 1 ∧
    before.subscriptionBuffer.capacity = 0 ∧
    tick .new (fun bits => .ofBits ⟨bits⟩) (fun _ => some ⟨.unavailable, false, fun _ => none⟩)
      ⟨true, true, [], fun _ => none⟩ (.granted true) before = .ok recordCount after ∧
    recordCount = 2 ∧ after.attempts.length = 2 ∧ after.subscriptionBuffer.capacity = 8 ∧
    after.client.commandBuffer.commandCount = 0 := by
  have session : ([.addDevice (.granted true) 1, .subscribeObserver (.granted true) 1 1 0,
      .subscribeObserver (.granted true) 1 1 1, .addWire (.granted true)].foldlM
        (ElectricalWorld.perform .new fun bits => .ofBits ⟨bits⟩)
      { commandBuffer := ⟨true, WorldCommands.encodeHeader 0 ++ List.replicate 240 0, 256, 16, 0⟩ }).any
        (fun client : ElectricalWorld Float => decide (client.commandBuffer.commandCount = 1) &&
          (ElectricalWorld.applyCommands .new (fun bits => .ofBits ⟨bits⟩) (.granted true) client).returned.any fun applied =>
            decide (applied.2.world.subscriptions.subscriptions.length = 2) &&
              (NativeWorld.tick (fun _ => some ⟨.unavailable, false, fun _ => none⟩) ⟨true, true, [], fun _ => none⟩
                ⟨applied.2.world, []⟩).returned.any fun ticked =>
                  decide (ticked.2.subscriptionUpdates.length = 2)) = true := by
    decide +kernel
  obtain ⟨client, run, holds⟩ := (Option.any_eq_true _ _).mp session
  rw [Bool.and_eq_true, decide_eq_true_iff, Option.any_eq_true] at holds
  obtain ⟨pending, ⟨value, applied⟩, applies, holds⟩ := holds
  rw [Bool.and_eq_true, decide_eq_true_iff, Option.any_eq_true] at holds
  obtain ⟨two, ⟨nothing, ticked⟩, ticks, updates⟩ := holds
  have applies := Outcome.of_returned applies
  have ticks := Outcome.of_returned ticks
  have two : applied.world.subscriptions.subscriptions.length = 2 := two
  have updates : ticked.subscriptionUpdates.length = 2 := of_decide_eq_true updates
  have reached : ElectricalWorld.Reached (fun bits => .ofBits ⟨bits⟩) .new client :=
    .performed ⟨.new, _, true, .new, rfl, .refl⟩ run
  obtain ⟨-, returned, returns⟩ := @tick_exactly_once _ _ _ _ (fun _ => some ⟨.unavailable, false, fun _ => none⟩)
    ⟨true, true, [], fun _ => none⟩ (.granted true) { client } reached (Nat.zero_le _)
  obtain ⟨recordCount, after, run⟩ := returns applied ticked applies ticks (by omega) rfl
  refine ⟨{ client }, after, recordCount, reached, pending, rfl, run, ?_⟩
  obtain ⟨commands, applied', ticked', attempts, -, applies', -, cleared, ticks', isClient, -, isCount, -, isAttempts, each⟩ :=
    returned recordCount after run
  obtain ⟨-, rfl⟩ := Outcome.ok.inj (applies.symm.trans applies')
  obtain ⟨-, rfl⟩ := Outcome.ok.inj (ticks.symm.trans ticks')
  have empty : ((⟨applied.world, []⟩ : NativeWorld Float).stores.subscriptions.subscriptions.length) = 2 := two
  refine ⟨by rw [isCount, updates]; rfl, ?_, ?_, by rw [isClient]; exact cleared.count⟩
  · rw [isAttempts]
    generalize after.subscriptionBuffer.capacity = capacity at each
    cases each with
    | once room => exact absurd room (by rw [empty]; exact Nat.not_succ_le_zero 1)
    | resized small isGrown => rfl
  · generalize after.subscriptionBuffer.capacity = capacity at each ⊢
    cases each with
    | once room => exact absurd room (by rw [empty]; exact Nat.not_succ_le_zero 1)
    | resized small isGrown =>
      rw [isGrown, empty, SubscriptionRecordBuffer.growCapacity]
      rfl

end TickingWorld

end Hynergy
