/-! Sets of characters, and how they are written between brackets: `[a-z]` and the like. -/
namespace DefaultImports

/-- A set of characters, or all the others. -/
structure CharSet where
  negated : Bool
  ranges : List (Char × Char)
deriving DecidableEq, Repr

namespace CharSet

def contains (s : CharSet) (c : Char) : Bool :=
  (s.ranges.any fun r => r.1 ≤ c && c ≤ r.2) != s.negated

/-- The text between brackets, given what follows the opening one; nothing if it is never
closed. A closing bracket in first place, or right after a leading `!`, is part of the text. -/
def body? (rest : List Char) : Option (List Char) :=
  let lead := match rest with
    | '!' :: ']' :: _ => ['!', ']']
    | '!' :: _ => ['!']
    | ']' :: _ => [']']
    | _ => []
  let tail := rest.drop lead.length
  if tail.contains ']' then some (lead ++ tail.takeWhile (· != ']')) else none

/-- The text of a set: a character that stands for itself, or a dash that may span a range. -/
inductive Mark where
  | lit (c : Char)
  | dash
deriving DecidableEq, Repr

def Mark.char : Mark → Char
  | .lit c => c
  | .dash => '-'

/-- A dash spans a range between its two neighbours. In first or last place, or behind a range,
it stands for itself. A range that ends before it starts is an error. -/
def ranges? : List Mark → Option (List (Char × Char))
  | [] => some []
  | [m] => some [(m.char, m.char)]
  | [m, .dash] => some [(m.char, m.char), ('-', '-')]
  | m :: .dash :: n :: rest =>
    if m.char ≤ n.char then (ranges? rest).map ((m.char, n.char) :: ·) else none
  | m :: n :: rest => (ranges? (n :: rest)).map ((m.char, m.char) :: ·)

end CharSet

end DefaultImports
