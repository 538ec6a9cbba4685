import DefaultImports.Decimal.Double

/-! The decimal text of a number: the fewest digits that read back as the same number. -/
namespace DefaultImports.Double

/-- The numbers that round to a positive number, in units of a quarter of its last place:
between `4 * mantissa - below` and `4 * mantissa + 2`, ends included if the mantissa is
even. -/
def below (mantissa : Nat) (exponent : Int) : Nat :=
  if mantissa == hidden && minExponent < exponent then 1 else 2

/-- Whether `num / den` rounds to `mantissa * 2 ^ exponent`. -/
def readsBack (mantissa : Nat) (exponent : Int) (num den : Nat) : Bool :=
  let (a, b) := scale (4 * num) den exponent
  let lo := (4 * mantissa - below mantissa exponent) * b
  let hi := (4 * mantissa + 2) * b
  if mantissa % 2 == 0 then lo ≤ a && a ≤ hi else lo < a && a < hi

/-- A value as a fraction. -/
def fraction (mantissa : Nat) (exponent : Int) : Nat × Nat :=
  if 0 ≤ exponent then (mantissa * Nat.pow 2 exponent.toNat, 1)
  else (mantissa, Nat.pow 2 (-exponent).toNat)

/-- `10 ^ k` as a fraction. -/
def powerOfTen (k : Int) : Nat × Nat :=
  if 0 ≤ k then (Nat.pow 10 k.toNat, 1) else (1, Nat.pow 10 (-k).toNat)

/-- The multiples of `10 ^ k` that surround the value, if one of them reads back: of two the
nearer, of two equally near ones the even one. -/
def onGrid? (mantissa : Nat) (exponent : Int) (k : Int) : Option Nat :=
  let (num, den) := fraction mantissa exponent
  let (p, q) := powerOfTen k
  let lo := num * q / (den * p)
  let fits (n : Nat) := n != 0 && readsBack mantissa exponent (n * p) q
  let nearest := roundDiv (num * q) (den * p)
  if fits nearest then some nearest
  else if fits lo then some lo
  else if fits (lo + 1) then some (lo + 1)
  else none

/-- The number `p` with `10 ^ (p - 1) ≤ num / den < 10 ^ p`, searched upwards. -/
def pointFrom : (fuel : Nat) → (p : Int) → (num den : Nat) → Int
  | 0, p, _, _ => p
  | fuel + 1, p, num, den =>
    let (a, b) := powerOfTen p
    if num * b < a * den then p else pointFrom fuel (p + 1) num den

/-- The place of the decimal point in a positive value: the number of digits before it. -/
def point (mantissa : Nat) (exponent : Int) : Int :=
  let (num, den) := fraction mantissa exponent
  let guess := ((num.log2 : Int) - den.log2) * 30103 / 100000
  pointFrom 4 (guess - 1) num den

/-- The first grid, from coarse to fine, on which a value has a reading: `d` and `k` for
`d * 10 ^ k`. Seventeen digits are always enough. -/
def shortestFrom (mantissa : Nat) (exponent : Int) : (digits : Nat) → (k : Int) → Nat × Int
  | 0, k => (((onGrid? mantissa exponent k).getD 0), k)
  | digits + 1, k =>
    match onGrid? mantissa exponent k with
    | some d => (d, k)
    | none => shortestFrom mantissa exponent digits (k - 1)

/-- The digits without zeros at the end, and the place of the point among them. -/
def shortest (mantissa : Nat) (exponent : Int) : List Char × Int :=
  let (d, k) := shortestFrom mantissa exponent 16 (point mantissa exponent - 1)
  let digits := Nat.toDigits 10 d
  ((digits.reverse.dropWhile (· == '0')).reverse, digits.length + k)

def padLeft (n : Nat) (s : List Char) : List Char := List.replicate (n - s.length) '0' ++ s

/-- Values from `10 ^ -4` on and below `10 ^ 16` are written with a point and at least one digit on
each side; all others with an exponent of at least two digits. -/
def layOut (digits : List Char) (point : Int) : List Char :=
  if -4 < point ∧ point ≤ 16 then
    let n := point.toNat
    if point ≤ 0 then '0' :: '.' :: List.replicate (-point).toNat '0' ++ digits
    else
      let digits := digits ++ List.replicate (n - digits.length) '0'
      let tail := digits.drop n
      digits.take n ++ '.' :: (if tail.isEmpty then ['0'] else tail)
  else
    let tail := digits.drop 1
    let e := point - 1
    digits.take 1 ++ (if tail.isEmpty then [] else '.' :: tail) ++
      'e' :: (if e < 0 then '-' else '+') :: padLeft 2 (Nat.toDigits 10 e.natAbs)

def toText : Double → String
  | .nan => "nan"
  | .infinite negative => if negative then "-inf" else "inf"
  | .finite negative mantissa exponent =>
    let text :=
      if mantissa == 0 then ['0', '.', '0']
      else
        let (digits, point) := shortest mantissa exponent
        layOut digits point
    String.ofList (if negative then '-' :: text else text)

end DefaultImports.Double
