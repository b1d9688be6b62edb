/-!
# Double precision

The operations on `f64` the code uses, as a class: the model is generic in the number type.
`Float` is the type the code runs on.
-/

namespace Hynergy

class F64 (F : Type) where
  zero : F
  half : F
  one : F
  infinity : F
  add : F → F → F
  sub : F → F → F
  mul : F → F → F
  div : F → F → F
  neg : F → F
  /-- `==`, not equality: `NaN` differs from itself and the zeros are equal. -/
  beq : F → F → Bool
  lt : F → F → Bool
  le : F → F → Bool
  isFinite : F → Bool
  toBits : F → Nat

instance : F64 Float where
  zero := 0.0
  half := 0.5
  one := 1.0
  infinity := 1.0 / 0.0
  add := (· + ·)
  sub := (· - ·)
  mul := (· * ·)
  div := (· / ·)
  neg := (- ·)
  beq := (· == ·)
  lt a b := decide (a < b)
  le a b := decide (a ≤ b)
  isFinite := Float.isFinite
  toBits x := x.toBits.toNat

end Hynergy
