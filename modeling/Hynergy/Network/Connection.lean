import Hynergy.Model.Parameter
import Hynergy.Model.Ids
import Mathlib.Data.Nat.Bitwise

/-!
# Connection references

A `ConnectionRef` is one non-zero 64-bit word: the id above, the type bit, the 31-bit port.
The constructors below are its two readings; `pack` is the word and `unpack_pack` shows that
reading it back loses nothing.
-/

namespace Hynergy

inductive ConnectionType where
  | wire | device
  deriving DecidableEq

inductive ConnectionRef where
  | wire (id : WireId)
  | terminal (device : DeviceId) (port : TerminalId) (fits : port.id < 2 ^ 31)
  deriving DecidableEq

namespace ConnectionRef

def typeBit : Nat := 2 ^ 31

/-- `ConnectionRef::terminal`: `none` where the terminal does not fit the port bits. -/
def terminal? (device : DeviceId) (terminal : TerminalId) : Option ConnectionRef :=
  if fits : terminal.id < 2 ^ 31 then some (.terminal device terminal fits) else none

def asWire : ConnectionRef → Option WireId
  | wire id => some id
  | terminal .. => none

def asTerminal : ConnectionRef → Option (DeviceId × TerminalId)
  | wire _ => none
  | terminal device port _ => some (device, port)

def connectionType : ConnectionRef → ConnectionType
  | wire _ => .wire
  | terminal .. => .device

/-- The id's slot, whichever type it has. -/
def index : ConnectionRef → Nat
  | wire id => id.index
  | terminal device .. => device.index

@[simp] theorem asWire_eq_some {c : ConnectionRef} {w : WireId} :
    c.asWire = some w ↔ c = .wire w := by
  cases c <;> simp [asWire]

theorem asTerminal_eq_some {c : ConnectionRef} {d : DeviceId} {t : TerminalId} :
    c.asTerminal = some (d, t) ↔ ∃ fits, c = .terminal d t fits := by
  cases c with
  | wire => simp [asTerminal]
  | terminal device port fits =>
    constructor
    · intro h
      obtain ⟨rfl, rfl⟩ := Prod.mk.inj (Option.some.inj h)
      exact ⟨fits, rfl⟩
    · rintro ⟨_, h⟩
      cases h
      rfl

theorem terminal?_eq_some {d : DeviceId} {t : TerminalId} {c : ConnectionRef} :
    terminal? d t = some c ↔ ∃ fits, c = .terminal d t fits := by
  unfold terminal?
  constructor
  · intro h
    split at h
    · rename_i fits
      exact ⟨fits, (Option.some.inj h).symm⟩
    · simp at h
  · rintro ⟨fits, rfl⟩
    rw [dif_pos fits]

/-! ### The packed word -/

def pack : ConnectionRef → Nat
  | wire id => id.get <<< 32 ||| 0
  | terminal device port _ => device.get <<< 32 ||| (port.id ||| typeBit)

def unpack (word : Nat) : Option ConnectionRef :=
  let id := word >>> 32
  let port := word % 2 ^ 31
  have fits : port < 2 ^ 31 := Nat.mod_lt _ (by decide)
  if positive : 0 < id then
    if bounded : id < 2 ^ 32 then
      if word % 2 ^ 32 &&& typeBit ≠ 0 then
        some (.terminal ⟨id, positive, bounded⟩ ⟨port, fits.trans (by decide)⟩ fits)
      else some (.wire ⟨id, positive, bounded⟩)
    else none
  else none

theorem terminal_or_typeBit {n : Nat} (h : n < 2 ^ 31) : n ||| typeBit = n + 2 ^ 31 := by
  rw [Nat.lor_comm, typeBit, show 2 ^ 31 = 1 <<< 31 from rfl, ← Nat.shiftLeft_add_eq_or_of_lt h]
  simp [Nat.add_comm]

theorem and_typeBit {n : Nat} (h : n < 2 ^ 32) : (n &&& typeBit ≠ 0) ↔ 2 ^ 31 ≤ n := by
  have bit : n.testBit 31 = decide (n / 2 ^ 31 % 2 = 1) := Nat.testBit_eq_decide_div_mod_eq
  rw [typeBit, Nat.and_two_pow]
  by_cases high : 2 ^ 31 ≤ n
  · have : n / 2 ^ 31 % 2 = 1 := by omega
    rw [bit, decide_eq_true this]
    exact ⟨fun _ => high, fun _ => by decide⟩
  · have : ¬ n / 2 ^ 31 % 2 = 1 := by omega
    rw [bit, decide_eq_false this]
    exact ⟨fun set => absurd rfl set, fun h => absurd h high⟩

theorem unpack_pack (c : ConnectionRef) : unpack c.pack = some c := by
  cases c with
  | wire id =>
    have word : id.get <<< 32 ||| 0 = id.get * 2 ^ 32 := by simp [Nat.shiftLeft_eq]
    have high : (id.get * 2 ^ 32) >>> 32 = id.get := by
      rw [Nat.shiftRight_eq_div_pow]; omega
    have low : ¬ (id.get * 2 ^ 32 % 2 ^ 32 &&& typeBit ≠ 0) := by
      rw [and_typeBit (Nat.mod_lt _ (by decide))]; omega
    simp only [pack, word, unpack, high, id.pos, id.fits, dif_pos]
    rw [if_neg low]
  | terminal device port fits =>
    have word : device.get <<< 32 ||| (port.id ||| typeBit) =
        device.get * 2 ^ 32 + (port.id + 2 ^ 31) := by
      rw [terminal_or_typeBit fits, ← Nat.shiftLeft_add_eq_or_of_lt (by omega), Nat.shiftLeft_eq]
    have high : (device.get * 2 ^ 32 + (port.id + 2 ^ 31)) >>> 32 = device.get := by
      rw [Nat.shiftRight_eq_div_pow]; omega
    have low : (device.get * 2 ^ 32 + (port.id + 2 ^ 31)) % 2 ^ 32 &&& typeBit ≠ 0 := by
      rw [and_typeBit (Nat.mod_lt _ (by decide))]; omega
    have portBits : (device.get * 2 ^ 32 + (port.id + 2 ^ 31)) % 2 ^ 31 = port.id := by omega
    simp only [pack, word, unpack, high, device.pos, device.fits, dif_pos]
    rw [if_pos low]
    simp only [portBits]

end ConnectionRef

inductive NetworkModelError where
  | idOutOfBound (id upperBound : Nat)
  | idExceeds31Bit (id : Nat)
  | idAlreadyAssigned (id : Nat)
  | idNotAssigned (ty : ConnectionType) (id : Nat)
  | wireConnectToSelf
  | alreadyConnected
  | notConnected
  | terminalAlreadyConnected
  | invalidTerminal
  | invalidParameter (parameter : ParameterId)
  | parameterConstraintViolation (parameter : ParameterId) (source : ParameterConstraintError)
  | unknownDefinition (definition : DefinitionId)
  | deviceArenaExhausted
  deriving DecidableEq

end Hynergy
