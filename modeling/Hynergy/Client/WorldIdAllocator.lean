import Hynergy.Client.WorldCommandBuffer

/-!
# World id allocators of the client

Ids are handed out ahead of the batch that adds them: from a pool of free ids, or at the high-water
mark. What a batch adds and removes is pending until it is committed.
-/

namespace Hynergy

/-- What a slot of the allocator says about its id. -/
inductive IdState where
  | unused | free | live | pendingAdd | pendingRemove | pendingAddRemove | retired
  deriving DecidableEq

/-- `Integer.MAX_VALUE`. -/
def maxId : Nat := 2 ^ 31 - 1

/-- The arrays are lists of their capacity; the two stacks hold the last entry first. -/
structure WorldIdAllocator where
  states : List IdState := List.replicate 16 .unused
  generations : List JavaInt := List.replicate 16 0
  freeIds : List Nat := []
  freeCapacity : Nat := 8
  pendingIds : List Nat := []
  pendingCapacity : Nat := 8
  highWaterMark : Nat := 0
  committedHighWaterMark : Nat := 0

/-- Which of the arrays a call may grow get their memory. -/
structure Memory where
  slots : Bool
  pending : Bool
  free : Bool

namespace WorldIdAllocator

/-- A call on the allocator. -/
abbrev Java (α : Type) := Call WorldIdAllocator JavaException α

/-! ### Arrays -/

def growCapacity (current required : Nat) : Nat := min (max (current + current / 2) required) maxId

def requiredCapacity (current additional : Nat) : Java Nat := do
  Call.rejectIf (maxId < current + additional) .illegalState
  pure (current + additional)

/-- `Arrays.copyOf` for both arrays. -/
def ensureSlotCapacity (memory : Memory) (requiredSlots : Nat) : Java Unit := do
  let self ← Call.get
  if requiredSlots ≤ self.states.length then pure ()
  else do
    Call.rejectIf (memory.slots = false) .outOfMemory
    let grown := growCapacity self.states.length requiredSlots - self.states.length
    Call.set { self with
      states := self.states ++ List.replicate grown .unused
      generations := self.generations ++ List.replicate grown 0 }

def ensurePendingCapacity (memory : Memory) (additional : Nat) : Java Unit := do
  let self ← Call.get
  let required ← requiredCapacity self.pendingIds.length additional
  if required ≤ self.pendingCapacity then pure ()
  else do
    Call.rejectIf (memory.pending = false) .outOfMemory
    Call.set { self with pendingCapacity := growCapacity self.pendingCapacity required }

def ensureFreeCapacity (memory : Memory) (additional : Nat) : Java Unit := do
  let self ← Call.get
  let required ← requiredCapacity self.freeIds.length additional
  if required ≤ self.freeCapacity then pure ()
  else do
    Call.rejectIf (memory.free = false) .outOfMemory
    Call.set { self with freeCapacity := growCapacity self.freeCapacity required }

/-- `states[index]`. -/
def state (id : Nat) : Java IdState := do
  let self ← Call.get
  Call.okOr self.states[id - 1]? .indexOutOfBounds

/-- `generations[index]`. -/
def generationAt (id : Nat) : Java JavaInt := do
  let self ← Call.get
  Call.okOr self.generations[id - 1]? .indexOutOfBounds

def setState (id : Nat) (state : IdState) : Java Unit :=
  Call.modify fun self => { self with states := self.states.set (id - 1) state }

def setGeneration (id : Nat) (generation : JavaInt) : Java Unit :=
  Call.modify fun self => { self with generations := self.generations.set (id - 1) generation }

/-- `pendingIds[pendingCount++] = id`. -/
def pushPending (id : Nat) : Java Unit := do
  let self ← Call.get
  Call.rejectIf (self.pendingCapacity ≤ self.pendingIds.length) .indexOutOfBounds
  Call.set { self with pendingIds := id :: self.pendingIds }

/-- `freeIds[freeCount++] = id`. -/
def pushFree (id : Nat) : Java Unit := do
  let self ← Call.get
  Call.rejectIf (self.freeCapacity ≤ self.freeIds.length) .indexOutOfBounds
  Call.set { self with freeIds := id :: self.freeIds }

/-! ### Reserving -/

/-- The loop over the pool; ids whose generations are used up are retired. -/
def reservePooled (memory : Memory) : List Nat → Java (Option Nat)
  | [] => pure none
  | id :: freeIds => do
    let state ← state id
    Call.rejectIf (state ≠ .free) .illegalState
    let generation ← generationAt id
    let nextGeneration := generation + 1
    if nextGeneration = 0 then do
      Call.modify fun self => { self with freeIds }
      setState id .retired
      reservePooled memory freeIds
    else do
      ensurePendingCapacity memory 1
      Call.modify fun self => { self with freeIds }
      setGeneration id nextGeneration
      setState id .pendingAdd
      pushPending id
      pure (some id)

def reserveFresh (memory : Memory) : Java Nat := do
  let self ← Call.get
  Call.rejectIf (self.highWaterMark = maxId) .illegalState
  let id := self.highWaterMark + 1
  ensureSlotCapacity memory id
  ensurePendingCapacity memory 1
  let state ← state id
  let generation ← generationAt id
  Call.rejectIf (state ≠ .unused ∨ generation ≠ 0) .illegalState
  setGeneration id 1
  setState id .pendingAdd
  Call.modify fun self => { self with highWaterMark := id }
  pushPending id
  pure id

def reserve (memory : Memory) : Java Nat := do
  let self ← Call.get
  let pooled ← reservePooled memory self.freeIds
  match pooled with
  | some id => pure id
  | none => reserveFresh memory

/-! ### Using and removing -/

def requireKnownId (id : JavaInt) : Java Nat := do
  let self ← Call.get
  Call.rejectIf (id.toInt ≤ 0 ∨ (self.highWaterMark : Int) < id.toInt) .illegalState
  let state ← state id.toNat
  Call.rejectIf (state = .unused) .illegalState
  pure id.toNat

def requireCurrentGeneration (id generation : JavaInt) : Java Nat := do
  let id ← requireKnownId id
  let current ← generationAt id
  Call.rejectIf (current ≠ generation) .illegalState
  pure id

def generation (id : JavaInt) : Java JavaInt := do
  let id ← requireKnownId id
  generationAt id

def requireUsable (id generation : JavaInt) : Java Unit := do
  let id ← requireCurrentGeneration id generation
  let state ← state id
  Call.rejectIf (state ≠ .live ∧ state ≠ .pendingAdd) .illegalState

def remove (memory : Memory) (id generation : JavaInt) : Java Unit := do
  let id ← requireCurrentGeneration id generation
  let state ← state id
  match state with
  | .live => do
    ensurePendingCapacity memory 1
    setState id .pendingRemove
    pushPending id
  | .pendingAdd => setState id .pendingAddRemove
  | _ => Call.throw .illegalState

/-! ### Cancelling -/

/-- The most recent pending id is taken back. -/
def popPending (id : Nat) : Java Unit := do
  let self ← Call.get
  Call.rejectIf (self.pendingIds.head? ≠ some id) .illegalState

def dropPending : Java Unit := Call.modify fun self => { self with pendingIds := self.pendingIds.tail }

def cancelPendingAdd (memory : Memory) (id generation : JavaInt) : Java Unit := do
  let id ← requireCurrentGeneration id generation
  let state ← state id
  Call.rejectIf (state ≠ .pendingAdd) .illegalState
  popPending id
  let self ← Call.get
  if self.committedHighWaterMark < id then do
    Call.rejectIf (id ≠ self.highWaterMark) .illegalState
    dropPending
    setState id .unused
    setGeneration id 0
    Call.modify fun self => { self with highWaterMark := self.highWaterMark - 1 }
  else do
    ensureFreeCapacity memory 1
    dropPending
    setState id .free
    pushFree id

def cancelPendingRemove (id generation : JavaInt) : Java Unit := do
  let id ← requireCurrentGeneration id generation
  let state ← state id
  match state with
  | .pendingRemove => do
    popPending id
    dropPending
    setState id .live
  | .pendingAddRemove => setState id .pendingAdd
  | _ => Call.throw .illegalState

/-! ### Committing -/

/-- How many of the pending ids go back to the pool. -/
def validatePendingAndCountReusableReleases : List Nat → Java Nat
  | [] => pure 0
  | id :: pendingIds => do
    let state ← state id
    match state with
    | .pendingAdd => validatePendingAndCountReusableReleases pendingIds
    | .pendingRemove | .pendingAddRemove => do
      let generation ← generationAt id
      let count ← validatePendingAndCountReusableReleases pendingIds
      pure (if generation ≠ -1 then count + 1 else count)
    | _ => Call.throw .illegalState

def prepareCommitBatch (memory : Memory) : Java Unit := do
  let self ← Call.get
  let reusableReleaseCount ← validatePendingAndCountReusableReleases self.pendingIds.reverse
  ensureFreeCapacity memory reusableReleaseCount

def releaseCommitted (id : Nat) : Java Unit := do
  let generation ← generationAt id
  if generation = -1 then setState id .retired
  else do
    setState id .free
    pushFree id

/-- The loop of `commitBatch`. -/
def commitPending : List Nat → Java Unit
  | [] => pure ()
  | id :: pendingIds => do
    let state ← state id
    match state with
    | .pendingAdd => setState id .live
    | .pendingRemove | .pendingAddRemove => releaseCommitted id
    | _ => Call.throw .illegalState
    commitPending pendingIds

def commitBatch : Java Unit := do
  let self ← Call.get
  commitPending self.pendingIds.reverse
  Call.modify fun self => { self with pendingIds := [], committedHighWaterMark := self.highWaterMark }

end WorldIdAllocator

end Hynergy
