import DefaultImports.Surface

/-! Default imports: the names that a file binds to the default exports of other modules. -/
namespace DefaultImports

/-- A default import. Its position is that of the bound name; lines count from 1 and columns
from 0. -/
structure Binding where
  name : String
  specifier : String
  file : Path
  line : Int
  column : Int
deriving DecidableEq, Repr

namespace Binding

open Pattern

inductive Part where
  | name
  | specifier
deriving DecidableEq, Repr

def isBlank (c : Char) : Bool := c == ' ' || c == '\t'

/-- Identifiers start with an ASCII letter, an underscore or a dollar sign. -/
def isNameStart (c : Char) : Bool := Text.isAsciiLetter c || c == '_' || c == '$'

def identifier : Pattern Part := one isNameStart ++ many Surface.isNameChar

def isSpecifierChar (c : Char) : Bool := c != '\x27' && c != '"' && c != '\n'

def quoted (mark : Char) : Pattern Part :=
  char mark ++ capture .specifier (oneOrMore isSpecifierChar) ++ char mark

/-- The named or namespace imports that may follow the default one. -/
def otherImports : Pattern Part :=
  char ',' ++ spaces ++
    ((char '{' ++ many Surface.notClosing ++ char '}') <|>
      (char '*' ++ spaces ++ word "as" ++ someSpace ++ identifier)) ++
    spaces

/-- A default import statement at the start of a line. -/
def statement : Pattern Part :=
  edge Cursor.atLineStart ++ many isBlank ++ word "import" ++ someSpace ++
    maybe (word "type" ++ someSpace) ++ capture .name identifier ++ spaces ++
    maybe otherImports ++ word "from" ++ spaces ++ (quoted '\x27' <|> quoted '"')

def ofFound? (file : Path) (m : Found Part) : Option Binding := do
  let name ← m.capture? .name
  let specifier ← m.capture? .specifier
  return ⟨name.text, specifier.text, file, name.start.line, name.start.column⟩

/-- The default imports in a source text, in order. -/
def scan (source : String) (file : Path) : List Binding :=
  (statement.findAll source.toList).filterMap (ofFound? file)

def scanFile (w : Workspace) (file : Path) : Except PathError (List Binding) :=
  (scan · file) <$> w.readSource file

end Binding

end DefaultImports
