import DefaultImports.Proofs.Text.Run

/-! Source texts made of default imports and of lines without one, described without the pattern
that looks for them. -/
namespace DefaultImports.Binding

open Text

/-- A name that can be bound. -/
structure Name where
  first : Char
  others : Run Surface.isNameChar
  starts : isNameStart first = true

def Name.text (n : Name) : List Char := n.first :: n.others.text

/-- What is imported beside the default export, with the space behind it. -/
inductive Clause where
  /-- `{ a, b as c }` -/
  | names (list : Run Surface.notClosing) (after : Spaces)
  /-- `* as all` -/
  | everything (beforeAs : Spaces) (afterAs : Gap) (name : Name) (after : Gap)

def Clause.text : Clause → List Char
  | names list after => '{' :: (list.text ++ '}' :: after.text)
  | everything beforeAs afterAs name after =>
    '*' :: (beforeAs.text ++ ("as".toList ++ (afterAs.text ++ (name.text ++ after.text))))

/-- What stands between the bound name and `from`. -/
inductive Link where
  | plain (gap : Gap)
  | clause (before after : Spaces) (clause : Clause)

def Link.text : Link → List Char
  | plain gap => gap.text
  | clause before after c => before.text ++ ',' :: (after.text ++ c.text)

inductive Mark where
  | single
  | double

def Mark.char : Mark → Char
  | single => '\x27'
  | double => '"'

/-- A default import, from the start of its first line to the closing quotation mark. -/
structure Statement where
  indent : Run isBlank
  gap : Gap
  /-- The space behind the word `type`, where the import has that word. -/
  typeGap : Option Gap
  name : Name
  link : Link
  markGap : Spaces
  mark : Mark
  specifier : Run1 isSpecifierChar

namespace Statement

def opening (i : Statement) : List Char := i.indent.text ++ ("import".toList ++ i.gap.text)

def typeWord (i : Statement) : List Char :=
  match i.typeGap with
  | none => []
  | some gap => "type".toList ++ gap.text

def origin (i : Statement) : List Char :=
  "from".toList ++ (i.markGap.text ++ i.mark.char :: (i.specifier.text ++ [i.mark.char]))

theorem origin_eq (i : Statement) : i.origin =
    "from".toList ++ (i.markGap.text ++ i.mark.char :: (i.specifier.text ++ [i.mark.char])) := rfl

def text (i : Statement) : List Char :=
  i.opening ++ (i.typeWord ++ (i.name.text ++ (i.link.text ++ i.origin)))

end Statement

/-- What an import without a default starts with, behind `import` or `import type`. -/
inductive Opener where
  | brace
  | star
  | mark (m : Mark)

def Opener.char : Opener → Char
  | brace => '{'
  | star => '*'
  | mark m => m.char

/-- The lines without a default import: those that do not start with `import`, and the imports
of names, of everything or for side effects, however they go on behind their opener. -/
inductive WithoutDefault : List Char → Prop where
  | other {line : List Char} : ¬ "import".toList <+: line.dropWhile isBlank → WithoutDefault line
  | opened (indent : Run isBlank) (gap : Spaces) (o : Opener) (rest : List Char) :
    WithoutDefault (indent.text ++ ("import".toList ++ (gap.text ++ o.char :: rest)))
  | typed (indent : Run isBlank) (gap : Gap) (after : Spaces) (o : Opener) (rest : List Char) :
    WithoutDefault (indent.text ++ ("import".toList ++ (gap.text ++ ("type".toList ++
      (after.text ++ o.char :: rest)))))

/-- One line without a default import. -/
structure Line where
  text : List Char
  unbroken : '\n' ∉ text
  withoutDefault : WithoutDefault text

inductive Item where
  /-- A default import and the rest of the line it ends on. -/
  | statement (i : Statement) (tail : Run (· != '\n'))
  | line (l : Line)

namespace Item

def text : Item → List Char
  | statement i tail => i.text ++ (tail.text ++ ['\n'])
  | line l => l.text ++ ['\n']

/-- The name that is bound and the specifier it is bound from. -/
def bound? : Item → Option (String × String)
  | statement i _ => some (String.ofList i.name.text, String.ofList i.specifier.text)
  | line _ => none

end Item

/-- A source text; its last line need not be ended. -/
structure Source where
  items : List Item
  last : Option Line

def Source.text (s : Source) : List Char :=
  s.items.flatMap Item.text ++ (s.last.elim [] Line.text)

end DefaultImports.Binding
