/-! Numbers of 64-bit floating point, in exact integer arithmetic. -/
namespace DefaultImports

/-- A finite number is `mantissa * 2 ^ exponent`. -/
inductive Double where
  | nan
  | infinite (negative : Bool)
  | finite (negative : Bool) (mantissa : Nat) (exponent : Int)
deriving DecidableEq, Repr

namespace Double

def minExponent : Int := -1074

def maxExponent : Int := 971

/-- The least mantissa of 53 bits. -/
def hidden : Nat := 0x10000000000000

/-- `a / b` rounded to the nearest integer, a half to the even one. -/
def roundDiv (a b : Nat) : Nat :=
  let q := a / b
  let r := 2 * (a % b)
  if r < b then q
  else if b < r then q + 1
  else if q % 2 == 0 then q else q + 1

/-- `num / den` scaled down by `2 ^ e`, as a fraction. -/
def scale (num den : Nat) (e : Int) : Nat × Nat :=
  if 0 ≤ e then (num, den * Nat.pow 2 e.toNat) else (num * Nat.pow 2 (-e).toNat, den)

/-- The exponent at which `num / den` has a mantissa of 53 bits, or the least one. -/
def exponentOf (num den : Nat) : Int :=
  let guess : Int := (num.log2 : Int) - den.log2 - 52
  let (a, b) := scale num den guess
  max minExponent (if a < hidden * b then guess - 1 else guess)

/-- The number nearest to `num / den`, which is positive. -/
def ofFraction (negative : Bool) (num den : Nat) : Double :=
  let e := exponentOf num den
  let (a, b) := scale num den e
  let m := roundDiv a b
  let (m, e) := if m == 2 * hidden then (hidden, e + 1) else (m, e)
  if maxExponent < e then .infinite negative else .finite negative m e

/-- The number nearest to `digits * 10 ^ e`. Sizes far out of range are told by the number of
digits alone. -/
def ofDecimal (negative : Bool) (digits : Nat) (e : Int) : Double :=
  let size : Int := (Nat.toDigits 10 digits).length + e
  if digits == 0 || size < -400 then .finite negative 0 minExponent
  else if 400 < size then .infinite negative
  else if 0 ≤ e then ofFraction negative (digits * Nat.pow 10 e.toNat) 1
  else ofFraction negative digits (Nat.pow 10 (-e).toNat)

end Double

end DefaultImports
