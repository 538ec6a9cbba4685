import DefaultImports.Proofs.Text.Run

/-! Module texts made of export statements and of text between them, described without the
patterns that look for exports. -/
namespace DefaultImports.Surface

open Text

/-- A text without the word `export`. -/
structure Filler where
  text : List Char
  unmarked : ¬ "export".toList <:+: text

/-- A name that does not contain the word `export`. -/
structure Identifier extends Run1 isNameChar where
  unmarked : ¬ "export".toList <:+: text

inductive EntryBody where
  | empty
  | plain (name : Identifier)
  /-- `name as exported` -/
  | renamed (name : Identifier) (beforeAs afterAs : Gap) (exported : Identifier)

namespace EntryBody

def text : EntryBody → List Char
  | empty => []
  | plain name => name.text
  | renamed name beforeAs afterAs exported =>
    name.text ++ (beforeAs.text ++ ("as".toList ++ (afterAs.text ++ exported.text)))

/-- The name that the module itself uses. -/
def name? : EntryBody → Option (List Char)
  | empty => none
  | plain name => some name.text
  | renamed name _ _ _ => some name.text

end EntryBody

/-- An entry of a brace list with the space around it. -/
structure Entry where
  before : Spaces
  body : EntryBody
  after : Spaces

def Entry.text (e : Entry) : List Char := e.before.text ++ (e.body.text ++ e.after.text)

inductive Keyword where
  | const
  | «let»
  | var
  | «class»
  | enum

def Keyword.word : Keyword → String
  | const => "const"
  | «let» => "let"
  | var => "var"
  | «class» => "class"
  | enum => "enum"

/-- What stands between `export` and a declared name, with the space in front of the name. -/
inductive Introduction where
  | keyword (k : Keyword) (gap : Gap)
  | constEnum (between gap : Gap)
  /-- A function; `async` is the space behind that word, where it stands. -/
  | function (async : Option Gap) (gap : Gap)
  | generator (async : Option Gap) (before after : Spaces)

/-- The word `async`, where the space behind it is given. -/
def asyncText : Option Gap → List Char
  | none => []
  | some gap => "async".toList ++ gap.text

@[simp] theorem asyncText_none : asyncText none = [] := rfl

@[simp] theorem asyncText_some (gap : Gap) :
    asyncText (some gap) = "async".toList ++ gap.text := rfl

def Introduction.text : Introduction → List Char
  | keyword k gap => k.word.toList ++ gap.text
  | constEnum between gap => "const".toList ++ (between.text ++ ("enum".toList ++ gap.text))
  | function async gap => asyncText async ++ ("function".toList ++ gap.text)
  | generator async before after =>
    asyncText async ++ ("function".toList ++ (before.text ++ '*' :: after.text))

theorem Introduction.text_constEnum (between gap : Gap) :
    (Introduction.constEnum between gap).text =
      "const".toList ++ between.text ++ "enum".toList ++ gap.text := by
  rw [List.append_assoc, List.append_assoc]
  rfl

structure Declaration where
  gap : Gap
  introduction : Introduction
  name : Identifier
  /-- `const enum` introduces an enumeration, so no constant has the name `enum`. -/
  allowed : ∀ space, introduction = .keyword .const space → name.text ≠ "enum".toList

inductive Statement where
  /-- `export { a, b as c }` -/
  | list (gap : Spaces) (first : Entry) (others : List Entry)
  | declaration (d : Declaration)
  /-- `export default`, with the space behind it. -/
  | default (gap after : Gap)

def entriesText (entries : List Entry) : List Char := [','].intercalate (entries.map Entry.text)

namespace Statement

/-- What stands behind the word `export`. -/
def body : Statement → List Char
  | list gap first others => gap.text ++ '{' :: (entriesText (first :: others) ++ ['}'])
  | declaration d => d.gap.text ++ (d.introduction.text ++ d.name.text)
  | default gap after => gap.text ++ ("default".toList ++ after.text)

def text (s : Statement) : List Char := "export".toList ++ s.body

theorem text_eq (s : Statement) : s.text = "export".toList ++ s.body := rfl

/-- A declared name ends before the text that follows. -/
def EndsBefore : Statement → List Char → Prop
  | declaration _, next => next.head?.any isNameChar = false
  | _, _ => True

def listed : Statement → List String
  | list _ first others =>
    ((first :: others).filterMap fun e => e.body.name?).map String.ofList
  | _ => []

def declared : Statement → List String
  | declaration d => [String.ofList d.name.text]
  | _ => []

end Statement

def piecesText (pieces : List (Statement × Filler)) : List Char :=
  pieces.flatMap fun piece => piece.1.text ++ piece.2.text

theorem piecesText_cons (piece : Statement × Filler) (pieces : List (Statement × Filler)) :
    piecesText (piece :: pieces) = piece.1.text ++ (piece.2.text ++ piecesText pieces) :=
  List.append_assoc _ _ _

def Delimited : List (Statement × Filler) → Prop
  | [] => True
  | (s, f) :: pieces => s.EndsBefore (f.text ++ piecesText pieces) ∧ Delimited pieces

/-- A module text: export statements, with text without the word `export` before the first
and behind each of them. -/
structure ModuleText where
  lead : Filler
  pieces : List (Statement × Filler)
  delimited : Delimited pieces

namespace ModuleText

def text (m : ModuleText) : List Char := m.lead.text ++ piecesText m.pieces

def listed (m : ModuleText) : List String := m.pieces.flatMap fun piece => piece.1.listed

def declared (m : ModuleText) : List String := m.pieces.flatMap fun piece => piece.1.declared

end ModuleText

end DefaultImports.Surface
