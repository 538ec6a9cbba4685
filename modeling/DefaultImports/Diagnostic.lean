import DefaultImports.Binding

/-! Reports on single imports and files. -/
namespace DefaultImports

/-- What a diagnostic is about. A check builds diagnostics of these three kinds only, so their three
codes are all that a report can have. -/
inductive Diagnostic.Kind where
  /-- No default export, but named ones. -/
  | alternatives
  /-- No default export and no named ones. -/
  | noAlternatives
  /-- The importing file cannot be read. -/
  | unreadable
deriving DecidableEq, Repr

/-- The text that a report has for a kind. -/
def Diagnostic.Kind.code : Kind → String
  | .alternatives => "no-default-export"
  | .noAlternatives => "no-default-export-simple"
  | .unreadable => "analysis-error"

structure Diagnostic where
  file : Path
  line : Int
  column : Int
  message : String
  kind : Diagnostic.Kind
  name : String
  specifier : String
  target : Option Path
  namedExports : List String
  severity : String
deriving DecidableEq, Repr

namespace Diagnostic

/-- The message about a default import of a module that has only the exports `names`. -/
def missingMessage (name : String) (names : List String) : String :=
  let message := "Default import '" ++ name ++ "' not found"
  if names.isEmpty then message
  else message ++ ". Available named exports: " ++ ", ".intercalate names

/-- The report on an import whose target has no default export. -/
def missing (b : Binding) (target : Path) (s : Surface) : Diagnostic where
  file := b.file
  line := b.line
  column := b.column
  message := missingMessage b.name s.names
  kind := if s.names.isEmpty then .noAlternatives else .alternatives
  name := b.name
  specifier := b.specifier
  target := some target
  namedExports := s.names
  severity := "error"

/-- The report on a file that cannot be read. -/
def unreadable (file : Path) (e : PathError) : Diagnostic where
  file := file
  line := 1
  column := 0
  message := "failed to analyse file: " ++ e.message
  kind := .unreadable
  name := ""
  specifier := ""
  target := none
  namedExports := []
  severity := "error"

end Diagnostic

end DefaultImports
