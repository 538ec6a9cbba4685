import DefaultImports.Text.Digit
import DefaultImports.Text.Word
import DefaultImports.Toml.Document

/-! Reading numbers, dates and times. Each reader takes a text and gives the value at its
front with the rest, or nothing if no such value stands there. -/
namespace DefaultImports.Toml

open DefaultImports.Text (isAsciiDigit isAsciiLetter ofDigits)

/-- Letters count from ten on, in either case. -/
def digitValue (c : Char) : Nat :=
  if isAsciiDigit c then c.toNat - 48
  else if c.toNat < 97 then c.toNat - 55
  else c.toNat - 87

def isHexDigit (c : Char) : Bool :=
  isAsciiDigit c || (65 ≤ c.toNat && c.toNat ≤ 70) || (97 ≤ c.toNat && c.toNat ≤ 102)

def isOctalDigit (c : Char) : Bool := 48 ≤ c.toNat && c.toNat ≤ 55

def isBinaryDigit (c : Char) : Bool := c == '0' || c == '1'

/-- The digits that follow a digit; a single underscore may stand before each. -/
def moreDigits (p : Char → Bool) : List Char → List Char × List Char
  | '_' :: c :: rest =>
    if p c then
      let (ds, rest) := moreDigits p rest
      (c :: ds, rest)
    else ([], '_' :: c :: rest)
  | c :: rest =>
    if p c then
      let (ds, rest) := moreDigits p rest
      (c :: ds, rest)
    else ([], c :: rest)
  | [] => ([], [])

/-- One or more digits with single underscores between them. -/
def digits? (p : Char → Bool) : List Char → Option (List Char × List Char)
  | c :: rest =>
    if p c then
      let (ds, rest) := moreDigits p rest
      some (c :: ds, rest)
    else none
  | [] => none

def sign : List Char → Bool × List Char
  | '-' :: rest => (true, rest)
  | '+' :: rest => (false, rest)
  | s => (false, s)

/-- Digits of a decimal integer: a zero stands alone. -/
def wholeDigits? : List Char → Option (List Char × List Char)
  | '0' :: rest => some (['0'], rest)
  | s => digits? isAsciiDigit s

def fraction? : List Char → Option (List Char × List Char)
  | '.' :: rest => digits? isAsciiDigit rest
  | _ => none

/-- The sign and the digits of an exponent. -/
def exponent? : List Char → Option ((Bool × List Char) × List Char)
  | c :: rest =>
    if c == 'e' || c == 'E' then do
      let (negative, rest) := sign rest
      let (ds, rest) ← digits? isAsciiDigit rest
      return ((negative, ds), rest)
    else none
  | [] => none

def natOf (base : Nat) (ds : List Char) : Nat := ofDigits base (ds.map digitValue)

def negateIf (negative : Bool) (n : Nat) : Int := if negative then -(n : Int) else n

def floatOf (negative : Bool) (whole fraction : List Char) (exponent : Int) : Double :=
  .ofDecimal negative (natOf 10 (whole ++ fraction)) (exponent - fraction.length)

/-- A decimal integer, or a float if a fraction or an exponent follows. -/
def decimal? (s : List Char) : Option (Except Error Value × List Char) := do
  let (negative, s) := sign s
  let (whole, s) ← wholeDigits? s
  match fraction? s, exponent? s with
  | none, none =>
    let n := negateIf negative (natOf 10 whole)
    return (if Value.maxDigits < whole.length then .error (.integerTooLong whole.length)
      else .ok (.int n), s)
  | none, some ((minus, e), s) =>
    return (.ok (.float (floatOf negative whole [] (negateIf minus (natOf 10 e)))), s)
  | some (f, s), _ =>
    match exponent? s with
    | none => return (.ok (.float (floatOf negative whole f 0)), s)
    | some ((minus, e), s) =>
      return (.ok (.float (floatOf negative whole f (negateIf minus (natOf 10 e)))), s)

/-- An integer in base 16, 8 or 2 behind its mark. -/
def based? : List Char → Option (Value × List Char)
  | '0' :: mark :: rest => do
    let (base, p) ← match mark with
      | 'x' => some (16, isHexDigit)
      | 'o' => some (8, isOctalDigit)
      | 'b' => some (2, isBinaryDigit)
      | _ => none
    let (ds, rest) ← digits? p rest
    return (.int (natOf base ds), rest)
  | _ => none

/-- The numbers that are spelled out. -/
def special? : List Char → Option (Value × List Char)
  | '-' :: 'i' :: 'n' :: 'f' :: rest => some (.float (.infinite true), rest)
  | '+' :: 'i' :: 'n' :: 'f' :: rest | 'i' :: 'n' :: 'f' :: rest =>
    some (.float (.infinite false), rest)
  | '-' :: 'n' :: 'a' :: 'n' :: rest | '+' :: 'n' :: 'a' :: 'n' :: rest
  | 'n' :: 'a' :: 'n' :: rest => some (.float .nan, rest)
  | _ => none

/-- Exactly `n` digits. -/
def fixed? : (n : Nat) → List Char → Option (List Char × List Char)
  | 0, s => some ([], s)
  | n + 1, c :: rest =>
    if isAsciiDigit c then (fixed? n rest).map fun (ds, rest) => (c :: ds, rest) else none
  | _ + 1, [] => none

/-- Two digits with a value between `lo` and `hi`. -/
def pair? (lo hi : Nat) (s : List Char) : Option (Nat × List Char) := do
  let (ds, s) ← fixed? 2 s
  let n := natOf 10 ds
  guard (lo ≤ n && n ≤ hi)
  return (n, s)

def mark? (c : Char) : List Char → Option (List Char)
  | d :: rest => if c == d then some rest else none
  | [] => none

/-- A fraction of a second in millionths; further digits are dropped. -/
def micros? (s : List Char) : Option (Nat × List Char) := do
  let s ← mark? '.' s
  let ds := s.takeWhile isAsciiDigit
  guard (!ds.isEmpty)
  let six := ds.take 6
  return (natOf 10 (six ++ List.replicate (6 - six.length) '0'), s.dropWhile isAsciiDigit)

def time? (s : List Char) : Option (Time × List Char) := do
  let (hour, s) ← pair? 0 23 s
  let (minute, s) ← pair? 0 59 (← mark? ':' s)
  let (second, s) ← pair? 0 59 (← mark? ':' s)
  let (micro, s) := (micros? s).getD (0, s)
  return (⟨hour, minute, second, micro⟩, s)

def date? (s : List Char) : Option (Date × List Char) := do
  let (year, s) ← fixed? 4 s
  let (month, s) ← pair? 1 12 (← mark? '-' s)
  let (day, s) ← pair? 1 31 (← mark? '-' s)
  return (⟨natOf 10 year, month, day⟩, s)

/-- The offset of a time, in minutes. -/
def offset? : List Char → Option (Int × List Char)
  | c :: rest =>
    if c == 'Z' || c == 'z' then some (0, rest)
    else if c == '+' || c == '-' then do
      let (hours, s) ← pair? 0 23 rest
      let (minutes, s) ← pair? 0 59 (← mark? ':' s)
      return (negateIf (c == '-') (hours * 60 + minutes), s)
    else none
  | [] => none

def timeAfterDate? : List Char → Option (Time × List Char)
  | c :: rest => if c == 'T' || c == 't' || c == ' ' then time? rest else none
  | [] => none

/-- A date, and the time that may follow it. Days that a month does not have are errors. -/
def dateOrMoment? (s : List Char) : Option (Except Error Value × List Char) := do
  let (date, s) ← date? s
  let check (v : Value) : Except Error Value := if date.isValid then .ok v else .error .malformed
  match timeAfterDate? s with
  | none => return (check (.date date), s)
  | some (time, s) =>
    match offset? s with
    | none => return (check (.moment ⟨date, time, none⟩), s)
    | some (offset, s) => return (check (.moment ⟨date, time, some offset⟩), s)

def plain (r : Option (Value × List Char)) : Option (Except Error Value × List Char) :=
  r.map fun (v, s) => (.ok v, s)

/-- A date, a time or a number. -/
def scalar (s : List Char) : Except Error (Value × List Char) :=
  match dateOrMoment? s <|> plain ((time? s).map fun (t, s) => (.time t, s)) <|>
      plain (based? s) <|> decimal? s <|> plain (special? s) with
  | none => .error .malformed
  | some (v, rest) => v.map (·, rest)

end DefaultImports.Toml
