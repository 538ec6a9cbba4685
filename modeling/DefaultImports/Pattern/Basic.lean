import DefaultImports.Text.Cursor
import DefaultImports.Text.Space

/-! Text patterns. Repetition is over one class of characters at a time, which is all that
the statements and comments looked for here need. -/
namespace DefaultImports

/-- Patterns whose captured parts carry labels of type `ι`. -/
inductive Pattern (ι : Type) where
  | empty
  /-- One character of a class. -/
  | one (p : Char → Bool)
  /-- As many characters of a class as possible, then fewer. -/
  | many (p : Char → Bool)
  /-- As few characters of a class as possible, then more. -/
  | few (p : Char → Bool)
  /-- No characters, at a place that passes a test. -/
  | edge (p : Cursor → Bool)
  | seq (a b : Pattern ι)
  /-- The first pattern, or else the second. -/
  | alt (a b : Pattern ι)
  | capture (label : ι) (a : Pattern ι)

namespace Pattern

variable {ι : Type}

instance : Append (Pattern ι) := ⟨seq⟩

instance : OrElse (Pattern ι) := ⟨fun a b => alt a (b ())⟩

def oneOrMore (p : Char → Bool) : Pattern ι := one p ++ many p

def maybe (a : Pattern ι) : Pattern ι := alt a empty

def char (c : Char) : Pattern ι := one (· == c)

/-- The characters of a text, one after the other, each as its own class. -/
def each (same : Char → Char → Bool) : List Char → Pattern ι
  | [] => empty
  | [c] => one (same c)
  | c :: rest => one (same c) ++ each same rest

/-- Exactly the text `s`. -/
def word (s : String) : Pattern ι := each (fun c d => d == c) s.toList

/-- The characters that differ from the lower-case letter `c` in case only. Three letters have
partners outside ASCII: the dotted and the dotless i, the kelvin sign, and the long s. -/
def isCaseOf (c d : Char) : Bool :=
  d == c || d == c.toUpper ||
    (c == 'i' && (d == Char.ofNat 0x130 || d == Char.ofNat 0x131)) ||
    (c == 'k' && d == Char.ofNat 0x212A) ||
    (c == 's' && d == Char.ofNat 0x17F)

/-- The lower-case text `s`, in any mixture of cases. -/
def anyCase (s : String) : Pattern ι := each isCaseOf s.toList

def spaces : Pattern ι := many Text.isSpace

def someSpace : Pattern ι := oneOrMore Text.isSpace

end Pattern

end DefaultImports
