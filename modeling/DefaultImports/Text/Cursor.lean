import DefaultImports.Text.Word

/-! Places in a text. -/
namespace DefaultImports

/-- A place in a text: what lies before it, nearest character first, and what is left. -/
structure Cursor where
  passed : List Char
  rest : List Char
deriving DecidableEq, Repr

namespace Cursor

def ofText (text : List Char) : Cursor := ⟨[], text⟩

/-- The whole text, whatever the place. -/
def text (c : Cursor) : List Char := c.passed.reverse ++ c.rest

/-- Lines count from 1 and end at `\n` only. -/
def line (c : Cursor) : Nat := c.passed.count '\n' + 1

/-- Columns count characters from 0. -/
def column (c : Cursor) : Nat := (c.passed.takeWhile (· != '\n')).length

def atStart (c : Cursor) : Bool := c.passed == []

def atLineStart (c : Cursor) : Bool :=
  c.passed.head?.all (· == '\n')

/-- At the end of the text, or before a line break that ends it. -/
def atEnd (c : Cursor) : Bool := c.rest == [] || c.rest == ['\n']

/-- Between a word character and anything else, an end of the text included. -/
def atWordEdge (c : Cursor) : Bool :=
  c.passed.head?.any Text.isWord != c.rest.head?.any Text.isWord

/-- The place `n` characters earlier. -/
def back? : Nat → Cursor → Option Cursor
  | 0, c => some c
  | n + 1, ⟨x :: passed, rest⟩ => back? n ⟨passed, x :: rest⟩
  | _ + 1, ⟨[], _⟩ => none

end Cursor

end DefaultImports
