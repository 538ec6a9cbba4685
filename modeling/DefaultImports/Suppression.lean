import DefaultImports.Pattern.Match
import DefaultImports.Workspace

/-! Comments that switch the check off for a line or for a file. -/
namespace DefaultImports

/-- A comment that suppresses the reports of its line. -/
structure Suppression.Directive where
  line : Nat
  raw : String
deriving DecidableEq, Repr

/-- What the comments of a file switch off. -/
structure Suppression where
  directives : List Suppression.Directive
  fileDisabled : Bool
deriving DecidableEq, Repr

namespace Suppression

open Pattern

/-- A comment that starts with the name of the checker, a colon and `action`, in any case. -/
def comment (action : String) : Pattern Empty :=
  (word "//" <|> word "/*") ++ spaces ++ (anyCase "missingdefault" <|> anyCase "md") ++ spaces ++
    char ':' ++ spaces ++ anyCase action ++ edge Cursor.atWordEdge

def disables (line : List Char) : Bool := (comment "disable").occursIn line

def ignores (line : List Char) : Bool := (comment "ignore").occursIn line

def directive? (line : List Char) (number : Nat) : Option Directive :=
  if !disables line && ignores line then some ⟨number, String.ofList (Text.trim line)⟩ else none

/-- A line that disables the file carries no directive of its own. -/
def ofSource (source : String) : Suppression :=
  let lines := Text.lines source.toList
  ⟨(lines.zipIdx 1).filterMap fun (line, number) => directive? line number, lines.any disables⟩

def ofFile (w : Workspace) (file : Path) : Except PathError Suppression :=
  ofSource <$> w.readSource file

def covers (s : Suppression) (line : Int) : Bool :=
  s.fileDisabled || s.directives.any fun d => (d.line : Int) == line

end Suppression

end DefaultImports
