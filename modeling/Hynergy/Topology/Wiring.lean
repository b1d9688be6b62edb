import Hynergy.Lib.ClassCount
import Hynergy.Topology.Incidence

/-!
# The wiring of a network

Which wires there are, what is connected to what, and to which partitions the terminals of the
devices belong. How many nets and islands a network needs is said of its wiring, so that it can be
said of a network that is yet to be edited.
-/

namespace Hynergy

open Lib Relation

variable {F : Type}

@[ext] structure Wiring where
  live : WireId → Prop
  lists : ConnectionRef → ConnectionRef → Prop
  resident : DeviceId → Bool
  partitionOf : DeviceId → Nat → Option DevicePartitionId

namespace Wiring

def edge (self : Wiring) (u v : WireId) : Prop := self.lists (.wire u) (.wire v)

/-- One of the component's own terminals is attached to the wire. -/
def On (self : Wiring) (c : DeviceComponent) (wire : WireId) : Prop :=
  ∃ terminal fits, self.lists (.terminal c.device terminal fits) (.wire wire) ∧
    self.partitionOf c.device terminal.index = some c.partition

/-- Two components with terminals on connected wires. -/
def Coupled (self : Wiring) (c d : DeviceComponent) : Prop :=
  ∃ u v, self.On c u ∧ self.On d v ∧ ReflTransGen self.edge u v

/-! ### Less of it -/

def withoutWire (self : Wiring) (id : WireId) : Wiring :=
  { self with live := fun wire => self.live wire ∧ wire ≠ id, lists := Isolate self.lists (· = .wire id) }

def withoutLink (self : Wiring) (x y : ConnectionRef) : Wiring := { self with lists := Unlink self.lists x y }

def withoutDevice (self : Wiring) (id : DeviceId) : Wiring where
  live := self.live
  lists := Isolate self.lists (Network.OfDevice id)
  resident device := self.resident device && decide (device ≠ id)
  partitionOf device t := if device = id then none else self.partitionOf device t

end Wiring

namespace Network

variable {registry : DefinitionRegistry F} {self : Network F}

def wiring (registry : DefinitionRegistry F) (self : Network F) : Wiring where
  live wire := (self.wireSlot wire).isSome = true
  lists := self.Lists
  resident device := (self.record device).isSome
  partitionOf device t := (self.definitionOf registry device).bind fun definition =>
    definition.terminalPartitions[t]?

theorem attachedWire_iff (h : Consistent registry self) {device : DeviceId} {t : Nat} {wire : WireId} :
    self.attachedWire device t = some wire ↔
      ∃ fits : t < 2 ^ 31, self.Lists (.terminal device ⟨t, fits.trans (by decide)⟩ fits) (.wire wire) := by
  rw [attachedWire_eq_some]
  constructor
  · intro there
    obtain ⟨row, found, read⟩ := there
    obtain ⟨-, fits⟩ := h.toWires device row t _ found read
    exact ⟨fits, row, found, read⟩
  · intro there
    obtain ⟨fits, row, found, read⟩ := there
    exact ⟨row, found, read⟩

theorem wiring_on (h : Consistent registry self) {c : DeviceComponent} {wire : WireId} :
    (self.wiring registry).On c wire ↔ ∃ t definition, self.attachedWire c.device t = some wire ∧
      self.definitionOf registry c.device = some definition ∧
        definition.terminalPartitions[t]? = some c.partition := by
  constructor
  · intro there
    obtain ⟨terminal, fits, listed, ours⟩ := there
    obtain ⟨definition, known, read⟩ := Option.bind_eq_some_iff.mp ours
    exact ⟨terminal.index, definition, (attachedWire_iff h).mpr ⟨fits, listed⟩, known, read⟩
  · intro there
    obtain ⟨t, definition, attached, known, read⟩ := there
    obtain ⟨fits, listed⟩ := (attachedWire_iff h).mp attached
    exact ⟨⟨t, fits.trans (by decide)⟩, fits, listed, Option.bind_eq_some_iff.mpr ⟨definition, known, read⟩⟩

end Network

end Hynergy
