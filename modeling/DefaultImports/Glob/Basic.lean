import DefaultImports.Glob.CharSet

/-! Wildcard patterns: `*` matches any text, `?` one character, and brackets one of a set. A
slash is a character like any other. -/
namespace DefaultImports

inductive Glob.Item where
  | star
  | any
  | char (c : Char)
  | set (s : CharSet)
deriving DecidableEq, Repr

abbrev Glob := List Glob.Item

namespace Glob

open CharSet (Mark body? ranges?)

/-- The text of a set in chunks, cut at each dash that could span a range: at least one
character stands before the first such dash, and two between one and the next. -/
def chunksFrom : (skip : Nat) → (chunk : List Char) → List Char → List (List Char)
  | _, chunk, [] => [chunk.reverse]
  | 0, chunk, c :: rest =>
    if c == '-' then chunk.reverse :: chunksFrom 2 [] rest
    else chunksFrom 0 (c :: chunk) rest
  | skip + 1, chunk, c :: rest => chunksFrom skip (c :: chunk) rest

/-- A dash at the very end spans no range. -/
def mendLast : List (List Char) → List (List Char)
  | [a, []] => [a ++ ['-']]
  | a :: rest => a :: mendLast rest
  | [] => []

/-- Removes the ranges that end before they start, together with both ends. -/
def dropEmptyRanges : List (List Char) → List (List Char)
  | [] => []
  | a :: rest =>
    match dropEmptyRanges rest with
    | [] => [a]
    | b :: bs =>
      match a.getLast?, b.head? with
      | some x, some y => if y < x then (a.dropLast ++ b.tail) :: bs else a :: b :: bs
      | _, _ => a :: b :: bs

def marks (chunks : List (List Char)) : List Mark :=
  [Mark.dash].intercalate (chunks.map (·.map .lit))

/-- The set with the given text. Negation is seen last, when empty ranges are gone. A set with
nothing in it matches no character, and its negation every one. -/
def setItem (body : List Char) : Item :=
  let skip := if body.head? == some '!' then 2 else 1
  match marks (dropEmptyRanges (mendLast (chunksFrom skip [] body))) with
  | .lit '!' :: rest => .set ⟨true, (ranges? rest).getD []⟩
  | ms => .set ⟨false, (ranges? ms).getD []⟩

/-- Reads a pattern; the first `skip` characters belong to the item before. A bracket that is
not closed stands for itself. -/
def parseFrom : (skip : Nat) → List Char → Glob
  | _, [] => []
  | skip + 1, _ :: rest => parseFrom skip rest
  | 0, c :: rest =>
    if c == '*' then .star :: parseFrom 0 rest
    else if c == '?' then .any :: parseFrom 0 rest
    else if c == '[' then
      match body? rest with
      | none => .char '[' :: parseFrom 0 rest
      | some body => setItem body :: parseFrom (body.length + 1) rest
    else .char c :: parseFrom 0 rest

def parse (pattern : String) : Glob := parseFrom 0 pattern.toList

/-- Whether an item for one character accepts `c`. -/
def Item.accepts (c : Char) : Item → Bool
  | .star => false
  | .any => true
  | .char d => d == c
  | .set s => s.contains c

/-- A star lets the rest match at any later place: each answer becomes true if it or a later
one is. -/
def starEnds : List Bool → List Bool
  | [] => []
  | b :: rest =>
    let later := starEnds rest
    (b || later.headD false) :: later

/-- For each end piece of the text, the whole first and the empty one last, whether the glob
matches all of it. -/
def ends (text : List Char) : Glob → List Bool
  | [] => text.map (fun _ => false) ++ [true]
  | .star :: items => starEnds (ends text items)
  | item :: items =>
    List.zipWith (fun c b => item.accepts c && b) text (ends text items).tail ++ [false]

/-- Whether the glob matches the whole text. -/
def matchesAll (g : Glob) (text : List Char) : Bool := (ends text g).headD false

end Glob

/-- Whether a pattern matches a whole text. -/
def globMatches (pattern text : String) : Bool := (Glob.parse pattern).matchesAll text.toList

end DefaultImports
