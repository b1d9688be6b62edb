import Mathlib.Tactic.Ring
import Mathlib.Tactic.Common

/-!
# Identifiers

`define_non_zero_id!` and `define_id!`. Every id type is a tagged number below the bound of
its representation; a non-zero id counts from one and indexes from zero.
-/

namespace Hynergy

/-- `MAX_PACKED_ID`. -/
def maxPackedId : Nat := 0x7fffffff

inductive NonZeroIdKind where
  | wire | device | definition | net | island | subscription
  deriving DecidableEq

/-- A `NonZeroU32`. -/
structure NonZeroId (kind : NonZeroIdKind) where
  get : Nat
  pos : 0 < get
  fits : get < 2 ^ 32
  deriving DecidableEq

abbrev WireId := NonZeroId .wire
abbrev DeviceId := NonZeroId .device
abbrev DefinitionId := NonZeroId .definition
abbrev NetId := NonZeroId .net
abbrev IslandId := NonZeroId .island
abbrev SubscriptionId := NonZeroId .subscription

/-- `T::try_from`. -/
def nonZeroId? {kind : NonZeroIdKind} (raw : Nat) : Option (NonZeroId kind) :=
  if h : 0 < raw ∧ raw < 2 ^ 32 then some ⟨raw, h.1, h.2⟩ else none

namespace NonZeroId

variable {kind : NonZeroIdKind}

def index (id : NonZeroId kind) : Nat := id.get - 1

def ofIndex (i : Nat) (h : i + 1 < 2 ^ 32) : NonZeroId kind := ⟨i + 1, Nat.succ_pos i, h⟩

/-- `try_from(index + 1)`, `none` where it fails. -/
def ofIndex? (i : Nat) : Option (NonZeroId kind) :=
  if h : i + 1 < 2 ^ 32 then some (ofIndex i h) else none

theorem ext' {a b : NonZeroId kind} (h : a.get = b.get) : a = b := by
  cases a
  cases b
  simpa using h

theorem get_eq (id : NonZeroId kind) : id.get = id.index + 1 := by
  have := id.pos
  simp only [index]
  omega

theorem index_inj {a b : NonZeroId kind} : a.index = b.index ↔ a = b := by
  refine ⟨fun h => ext' ?_, fun h => h ▸ rfl⟩
  rw [get_eq, get_eq, h]

theorem index_lt (id : NonZeroId kind) : id.index + 1 < 2 ^ 32 := id.get_eq ▸ id.fits

@[simp] theorem index_ofIndex (i : Nat) (h : i + 1 < 2 ^ 32) :
    (ofIndex i h : NonZeroId kind).index = i := rfl

@[simp] theorem ofIndex_index (id : NonZeroId kind) : ofIndex id.index id.index_lt = id :=
  ext' id.get_eq.symm

theorem ofIndex?_eq_some {i : Nat} {id : NonZeroId kind} :
    (ofIndex? i : Option (NonZeroId kind)) = some id ↔ id.index = i := by
  unfold ofIndex?
  constructor
  · intro h
    split at h
    · obtain rfl := Option.some.inj h
      rfl
    · simp at h
  · rintro rfl
    rw [dif_pos id.index_lt, ofIndex_index]

end NonZeroId

inductive IdKind where
  | terminal | partition | observer | node | element | parameter | state
  deriving DecidableEq

/-- How many values the representation has: `u16` for partitions, else `u32`. -/
def IdKind.bound : IdKind → Nat
  | .partition => 2 ^ 16
  | _ => 2 ^ 32

structure Id (kind : IdKind) where
  id : Nat
  fits : id < kind.bound
  deriving DecidableEq

abbrev TerminalId := Id .terminal
abbrev DevicePartitionId := Id .partition
abbrev DefinitionObserverId := Id .observer
abbrev NodeId := Id .node
abbrev ElementId := Id .element
abbrev ParameterId := Id .parameter
abbrev DefinitionStateId := Id .state

namespace Id

variable {kind : IdKind}

abbrev index (i : Id kind) : Nat := i.id

/-- `try_from`, `none` where it fails. -/
def ofIndex? (i : Nat) : Option (Id kind) := if h : i < kind.bound then some ⟨i, h⟩ else none

theorem ext' {a b : Id kind} (h : a.id = b.id) : a = b := by
  cases a
  cases b
  simpa using h

theorem ofIndex?_eq_some {i : Nat} {a : Id kind} :
    (ofIndex? i : Option (Id kind)) = some a ↔ a.id = i := by
  unfold ofIndex?
  constructor
  · intro h
    split at h
    · obtain rfl := Option.some.inj h
      rfl
    · simp at h
  · rintro rfl
    rw [dif_pos a.fits]

end Id

end Hynergy
