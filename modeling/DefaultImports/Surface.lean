import DefaultImports.Pattern.Match
import DefaultImports.Workspace

/-! What a module exports, read off its text. Export statements are found by their shape, also
inside comments and strings. -/
namespace DefaultImports

/-- The exports a module declares. The names are distinct and in the order in which they were
first seen. -/
structure Surface where
  hasDefault : Bool
  names : List String
deriving DecidableEq, Repr

namespace Surface

open Pattern

def empty : Surface := ⟨false, []⟩

/-- The characters of identifiers. -/
def isNameChar (c : Char) : Bool := Text.isWord c || c == '$'

def notClosing (c : Char) : Bool := c != '}'

/-- `export default …` -/
def defaultStatement : Pattern Empty :=
  word "export" ++ someSpace ++ word "default" ++ someSpace

/-- A brace list with an entry `name as default`. -/
def defaultEntry : Pattern Empty :=
  word "export" ++ spaces ++ char '{' ++ few notClosing ++ oneOrMore isNameChar ++ someSpace ++
    word "as" ++ someSpace ++ word "default" ++ spaces ++
    maybe (char ',' ++ many notClosing) ++ char '}'

/-- A brace list; its entries are captured. -/
def braceList : Pattern Unit :=
  word "export" ++ spaces ++ char '{' ++ spaces ++ capture () (oneOrMore notClosing) ++ spaces ++
    char '}'

/-- What stands between `export` and the name in a declaration. -/
def declarator : Pattern Unit :=
  (word "const" ++ someSpace ++ word "enum" ++ someSpace) <|>
  (maybe (word "async" ++ someSpace) ++ word "function" ++
    ((spaces ++ char '*' ++ spaces) <|> someSpace)) <|>
  ((word "const" <|> word "let" <|> word "var" <|> word "class" <|> word "enum") ++ someSpace)

/-- An exported declaration; its name is captured. -/
def declaration : Pattern Unit :=
  word "export" ++ someSpace ++ declarator ++ capture () (oneOrMore isNameChar)

/-- The word between the two names of an entry, with the blanks around it. -/
def aliasMark : Pattern Empty := someSpace ++ word "as" ++ someSpace

def hasDefaultIn (source : List Char) : Bool :=
  defaultStatement.occursIn source || defaultEntry.occursIn source

/-- The declared name of an entry `name` or `name as exported`. -/
def entryName (entry : List Char) : List Char :=
  let entry := Text.trim entry
  match aliasMark.find? entry with
  | none => Text.trim entry
  | some m => Text.trim m.start.passed.reverse

/-- The declared names in the text of a brace list; entries may be empty. -/
def entryNames (list : List Char) : List String :=
  (((Text.split (· == ',') list).map entryName).filter (!·.isEmpty)).map String.ofList

def captured (found : List (Found Unit)) : List String :=
  found.filterMap fun m => (m.capture? ()).map Capture.text

def listedNames (source : List Char) : List String :=
  (captured (braceList.findAll source)).flatMap fun list => entryNames list.toList

def declaredNames (source : List Char) : List String :=
  captured (declaration.findAll source)

/-- The names of all brace lists come before those of declarations. -/
def namesIn (source : List Char) : List String :=
  (listedNames source ++ declaredNames source).eraseDups

def ofSource (source : String) : Surface :=
  ⟨hasDefaultIn source.toList, namesIn source.toList⟩

/-- A file that cannot be read exports nothing. -/
def read (w : Workspace) (p : Path) : Surface :=
  match w.readSource p with
  | .ok source => ofSource source
  | .error _ => empty

end Surface

end DefaultImports
