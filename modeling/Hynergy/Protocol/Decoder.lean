import Hynergy.Lib.LittleEndian
import Hynergy.Model.Ids
import Hynergy.Model.Outcome

/-!
# The decoder

A position in an input; a read that reaches past the end fails and leaves the position.
-/

namespace Hynergy

open Lib

structure Decoder where
  input : List Byte
  position : Nat := 0
  baseOffset : Nat

structure Truncated where
  offset : Nat
  deriving DecidableEq

namespace Decoder

/-- A call on the decoder. -/
abbrev Read (ε α : Type) := Call Decoder ε α

def new (input : List Byte) (baseOffset : Nat) : Decoder := { input, baseOffset }

def offset (self : Decoder) : Nat := self.baseOffset + self.position

/-- `none` where the subtraction overflows. -/
def remaining (self : Decoder) : Option Nat :=
  if self.position ≤ self.input.length then some (self.input.length - self.position) else none

def isEmpty (self : Decoder) : Option Bool := self.remaining.map fun remaining => remaining == 0

def truncated (self : Decoder) : Truncated := ⟨self.baseOffset + self.input.length⟩

/-- The bytes up to `position + length`, where `none` is a slice out of range. -/
def slice (self : Decoder) (length : Nat) : Option (List Byte) :=
  if self.position ≤ self.position + length ∧ self.position + length ≤ self.input.length then
    some ((self.input.drop self.position).take length)
  else none

def readBytes (length : Nat) : Read Truncated (List Byte) := do
  let self ← Call.get
  Call.rejectIf (self.input.length < self.position + length) self.truncated
  let bytes ← Call.expect (self.slice length)
  Call.set { self with position := self.position + length }
  pure bytes

/-- `from_le_bytes` of an array that was read. -/
def readNumber (width : Nat) : Read Truncated Nat := do
  let bytes ← readBytes width
  pure (ofBytes bytes)

abbrev readU8 : Read Truncated Nat := readNumber 1

abbrev readU16 : Read Truncated Nat := readNumber 2

abbrev readU32 : Read Truncated Nat := readNumber 4

/-- The bits of the number. -/
def readF64 : Read Truncated (BitVec 64) := do
  let bits ← readNumber 8
  pure (BitVec.ofNat 64 bits)

/-- A call on a decoder of its own. -/
def within {ε α : Type} (inner : Decoder) (call : Read ε α) : Read ε α := fun outer =>
  match call inner with
  | .ok value _ => .ok value outer
  | .err error _ => .err error outer
  | .panic => .panic

/-- What a header is refused for that is not cut off. -/
inductive HeaderErrorKind where
  | invalidMagic | unsupportedVersion | invalidFlags | invalidReserved

/-- The header that the buffers share, with the number of commands; they differ in the magic, the version
and the errors. -/
def readHeader {ε : Type} (magic : List Byte) (version : Nat) (truncated : Truncated → ε)
    (error : HeaderErrorKind → Nat → ε) : Read ε Nat := do
  let self ← Call.get
  let found ← Call.mapErr truncated (readBytes 4)
  Call.rejectIf (found ≠ magic) (error .invalidMagic self.offset)
  let self ← Call.get
  let found ← Call.mapErr truncated readU16
  Call.rejectIf (found ≠ version) (error .unsupportedVersion self.offset)
  let self ← Call.get
  let flags ← Call.mapErr truncated readU16
  Call.rejectIf (flags ≠ 0) (error .invalidFlags self.offset)
  let self ← Call.get
  let reserved ← Call.mapErr truncated readU32
  Call.rejectIf (reserved ≠ 0) (error .invalidReserved self.offset)
  Call.mapErr truncated readU32

/-! ### What a read does -/

/-- The position is in the input. -/
def Sound (decoder : Decoder) : Prop := decoder.position ≤ decoder.input.length

def rest (self : Decoder) : List Byte := self.input.drop self.position

def advance (self : Decoder) (length : Nat) : Decoder := { self with position := self.position + length }

variable {self : Decoder} {width : Nat}

theorem sound_new (input : List Byte) (baseOffset : Nat) : (new input baseOffset).Sound := Nat.zero_le _

@[simp] theorem rest_new (input : List Byte) (baseOffset : Nat) : (new input baseOffset).rest = input := rfl

theorem length_rest (self : Decoder) : self.rest.length = self.input.length - self.position :=
  List.length_drop ..

@[simp] theorem rest_advance (self : Decoder) (length : Nat) : (self.advance length).rest = self.rest.drop length := by
  rw [rest, rest, advance, List.drop_drop]

@[simp] theorem input_advance (self : Decoder) (length : Nat) : (self.advance length).input = self.input := rfl

@[simp] theorem baseOffset_advance (self : Decoder) (length : Nat) :
    (self.advance length).baseOffset = self.baseOffset := rfl

theorem advance_advance (self : Decoder) (a b : Nat) : (self.advance a).advance b = self.advance (a + b) := by
  simp only [advance, Nat.add_assoc]

theorem Sound.advance (h : self.Sound) (enough : width ≤ self.rest.length) : (self.advance width).Sound := by
  rw [length_rest] at enough
  unfold Sound at h ⊢
  simp only [Decoder.advance]
  omega

theorem Sound.isEmpty (h : self.Sound) : self.isEmpty = some (self.rest.length == 0) := by
  have inside : self.position ≤ self.input.length := h
  rw [Decoder.isEmpty, remaining, if_pos inside, length_rest]
  rfl

theorem readBytes_ok (h : self.Sound) (enough : width ≤ self.rest.length) :
    readBytes width self = .ok (self.rest.take width) (self.advance width) := by
  unfold Sound at h
  rw [length_rest] at enough
  unfold readBytes
  rw [Call.get_bind, Call.rejectIf_bind_neg (by omega), slice, if_pos (by omega), Call.expect_some_bind]
  rfl

theorem readBytes_short (h : self.Sound) (short : self.rest.length < width) :
    readBytes width self = .err self.truncated self := by
  unfold Sound at h
  rw [length_rest] at short
  unfold readBytes
  rw [Call.get_bind]
  exact Call.rejectIf_bind_pos (by omega) _

theorem readNumber_ok (h : self.Sound) (enough : width ≤ self.rest.length) :
    readNumber width self = .ok (ofBytes (self.rest.take width)) (self.advance width) := by
  rw [readNumber, Call.bind_ok (readBytes_ok h enough)]
  rfl

theorem readNumber_short (h : self.Sound) (short : self.rest.length < width) :
    readNumber width self = .err self.truncated self := by
  rw [readNumber, Call.bind_err (readBytes_short h short)]

/-- A number at the front of what is left. -/
theorem readNumber_of_rest (h : self.Sound) {x : Nat} {tail : List Byte} (fits : x < 256 ^ width)
    (front : self.rest = bytesOf width x ++ tail) : readNumber width self = .ok x (self.advance width) := by
  have length := length_bytesOf width x
  rw [readNumber_ok h (by rw [front, List.length_append, length]; omega), front, List.take_left' length,
    ofBytes_bytesOf fits]

theorem readF64_front (h : self.Sound) {value : BitVec 64} {tail : List Byte}
    (front : self.rest = bytesOf 8 value.toNat ++ tail) :
    readF64 self = .ok value (self.advance 8) := by
  have fits : value.toNat < 256 ^ 8 := value.isLt
  unfold readF64
  rw [Call.bind_ok (readNumber_of_rest h fits front)]
  simp

theorem readF64_ok (h : self.Sound) (enough : 8 ≤ self.rest.length) :
    ∃ value : BitVec 64, readF64 self = .ok value (self.advance 8) ∧
      self.rest = bytesOf 8 value.toNat ++ (self.advance 8).rest := by
  have length : (self.rest.take 8).length = 8 := List.length_take_of_le enough
  have fits : ofBytes (self.rest.take 8) < 2 ^ 64 := by
    have := ofBytes_lt (self.rest.take 8)
    rwa [length] at this
  refine ⟨BitVec.ofNat 64 (ofBytes (self.rest.take 8)), ?_, ?_⟩
  · unfold readF64
    rw [Call.bind_ok (readNumber_ok h enough)]
    rfl
  · rw [BitVec.toNat_ofNat, Nat.mod_eq_of_lt fits, bytesOf_eq length, rest_advance, List.take_append_drop]

/-- What is left after a part at the front. -/
theorem rest_after {part tail : List Byte} {width : Nat} (front : self.rest = part ++ tail)
    (length : part.length = width) : (self.advance width).rest = tail := by
  rw [rest_advance, front, List.drop_left' length]

theorem sound_after (h : self.Sound) {part tail : List Byte} {width : Nat} (front : self.rest = part ++ tail)
    (length : part.length = width) : (self.advance width).Sound :=
  h.advance (by rw [front, List.length_append, length]; omega)

theorem within_ok {ε α : Type} {inner after : Decoder} {call : Read ε α} {value : α} (h : call inner = .ok value after) :
    within inner call self = .ok value self := by
  rw [within, h]

theorem within_err {ε α : Type} {inner after : Decoder} {call : Read ε α} {error : ε} (h : call inner = .err error after) :
    within inner call self = .err error self := by
  rw [within, h]

end Decoder

end Hynergy
