import Mathlib.Tactic.Common
import Mathlib.Algebra.Order.Group.Nat

/-!
# Little-endian numbers

A number of a fixed width as bytes, the lowest first.
-/

namespace Hynergy.Lib

abbrev Byte := BitVec 8

def bytesOf : Nat → Nat → List Byte
  | 0, _ => []
  | width + 1, x => BitVec.ofNat 8 x :: bytesOf width (x / 256)

def ofBytes : List Byte → Nat
  | [] => 0
  | byte :: bytes => byte.toNat + 256 * ofBytes bytes

@[simp] theorem length_bytesOf (width x : Nat) : (bytesOf width x).length = width := by
  induction width generalizing x with
  | zero => rfl
  | succ width ih => rw [bytesOf, List.length_cons, ih]

theorem ofBytes_lt (bytes : List Byte) : ofBytes bytes < 256 ^ bytes.length := by
  induction bytes with
  | nil => exact Nat.one_pos
  | cons byte bytes ih =>
    have small : byte.toNat < 256 := byte.isLt
    rw [ofBytes, List.length_cons, Nat.pow_succ]
    omega

theorem ofBytes_bytesOf {width x : Nat} (fits : x < 256 ^ width) : ofBytes (bytesOf width x) = x := by
  induction width generalizing x with
  | zero =>
    rw [Nat.pow_zero] at fits
    obtain rfl : x = 0 := by omega
    rfl
  | succ width ih =>
    rw [Nat.pow_succ] at fits
    rw [bytesOf, ofBytes, ih (Nat.div_lt_of_lt_mul (by omega)), BitVec.toNat_ofNat]
    omega

theorem bytesOf_ofBytes (bytes : List Byte) : bytesOf bytes.length (ofBytes bytes) = bytes := by
  induction bytes with
  | nil => rfl
  | cons byte bytes ih =>
    have small : byte.toNat < 256 := byte.isLt
    rw [List.length_cons, ofBytes, bytesOf]
    congr 1
    · apply BitVec.eq_of_toNat_eq
      rw [BitVec.toNat_ofNat]
      omega
    · rw [show (byte.toNat + 256 * ofBytes bytes) / 256 = ofBytes bytes by omega, ih]

theorem bytesOf_eq {bytes : List Byte} {width : Nat} (length : bytes.length = width) :
    bytesOf width (ofBytes bytes) = bytes := by
  rw [← length]
  exact bytesOf_ofBytes bytes

end Hynergy.Lib
