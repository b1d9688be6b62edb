import Hynergy.Model.Definition
import Hynergy.Topology.DerivedTopology

/-!
# Observer subscriptions

The subscriptions of a world, in ascending order of their ids.
-/

namespace Hynergy

structure DeviceObserver where
  device : DeviceId
  observer : DefinitionObserverId
  deriving DecidableEq

inductive SubscriptionError where
  | unknownWorld
  | unknownDevice (device : DeviceId)
  | unknownObserver (device : DeviceId) (observer : DefinitionObserverId)
  | idExhausted
  | unknownSubscription (subscription : SubscriptionId)
  deriving DecidableEq

/-- The bits of a value, or its absence. -/
inductive PublishedObservation where
  | available (bits : Nat)
  | unavailable
  deriving DecidableEq

structure ObserverSubscription where
  id : SubscriptionId
  observer : DeviceObserver
  partition : DevicePartitionId
  published : Option PublishedObservation
  deriving DecidableEq

namespace ObserverSubscription

def component (self : ObserverSubscription) : DeviceComponent := ⟨self.observer.device, self.partition⟩

def setPublished (self : ObserverSubscription) (published : PublishedObservation) : ObserverSubscription :=
  { self with published := some published }

end ObserverSubscription

structure SubscriptionRegistry where
  nextId : Option Nat := some 1
  subscriptions : List ObserverSubscription := []
  deriving DecidableEq

namespace SubscriptionRegistry

/-- `checked_add(1)`. -/
def checkedSucc (raw : Nat) : Option Nat := if raw + 1 < 2 ^ 32 then some (raw + 1) else none

/-- `insert`; an outer `none` is a panic. -/
def insert (self : SubscriptionRegistry) (observer : DeviceObserver) (partition : DevicePartitionId) :
    Option (Option SubscriptionId × SubscriptionRegistry) :=
  match self.nextId with
  | none => some (none, self)
  | some raw => do
    let id ← nonZeroId? raw
    some (some id,
      { nextId := checkedSucc raw
        subscriptions := self.subscriptions ++ [{ id, observer, partition, published := none }] })

/-- `remove`, with whether the subscription was there; the binary search finds the id in a sorted list. -/
def remove (self : SubscriptionRegistry) (id : SubscriptionId) : Bool × SubscriptionRegistry :=
  match self.subscriptions.findIdx? (·.id = id) with
  | none => (false, self)
  | some index => (true, { self with subscriptions := self.subscriptions.eraseIdx index })

def removeDevice (self : SubscriptionRegistry) (device : DeviceId) : SubscriptionRegistry :=
  { self with subscriptions := self.subscriptions.filter fun s => decide (s.observer.device ≠ device) }

end SubscriptionRegistry

inductive SubscriptionValueStatus where
  | available | unavailable
  deriving DecidableEq

structure SubscriptionUpdate (F : Type) where
  subscription : SubscriptionId
  status : SubscriptionValueStatus
  value : F

namespace SubscriptionUpdate

variable {F : Type}

def available (subscription : SubscriptionId) (value : F) : SubscriptionUpdate F :=
  ⟨subscription, .available, value⟩

def unavailable [F64 F] (subscription : SubscriptionId) : SubscriptionUpdate F :=
  ⟨subscription, .unavailable, F64.zero⟩

end SubscriptionUpdate

end Hynergy
