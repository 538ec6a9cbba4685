import DefaultImports.Findings
import DefaultImports.Report.Json

/-! Findings as text lines or as a JSON document. -/
namespace DefaultImports.Report

/-- A path as text reports show it: from the working directory if it is below. -/
def pathText (cwd : Path) (absolute : Bool) (p : Path) : String :=
  let p := cwd.join p
  if absolute then p.toString else ((p.relativeTo? cwd).getD p).toString

def diagnosticLine (cwd : Path) (absolute : Bool) (d : Diagnostic) : String :=
  pathText cwd absolute d.file ++ ":" ++ toString d.line ++ ":" ++ toString d.column ++ ": " ++
    d.severity ++ ": " ++ d.message ++ " [" ++ d.kind.code ++ "]"

def countLine (n : Nat) : String :=
  toString n ++ (if n == 1 then " issue" else " issues") ++ " found"

/-- Files that were met several times count once. -/
def fileCount (f : Findings) : Nat := f.files.eraseDups.length

def summaryLines (f : Findings) : List String := [
  "",
  "import summary:",
  "  files analysed: " ++ toString (fileCount f),
  "  imports checked: " ++ toString f.checked,
  "  imports skipped: " ++ toString f.skipped]

def textLines (cwd : Path) (absolute verbose : Bool) (f : Findings) : List String :=
  f.diagnostics.map (diagnosticLine cwd absolute) ++ [countLine f.diagnostics.length] ++
    if verbose then summaryLines f else []

def text (cwd : Path) (absolute verbose : Bool) (f : Findings) : String :=
  "\n".intercalate (textLines cwd absolute verbose f)

/-- Paths in JSON reports are absolute. -/
def diagnosticJson (cwd : Path) (d : Diagnostic) : JsonValue :=
  .object [
    ("file", .str (pathText cwd true d.file)),
    ("line", .int d.line),
    ("column", .int d.column),
    ("message", .str d.message),
    ("kind", .str d.kind.code),
    ("local_name", .str d.name),
    ("specifier", .str d.specifier),
    ("target", match d.target with
      | none => .null
      | some p => .str p.toString),
    ("named_exports", .list (d.namedExports.map .str)),
    ("severity", .str d.severity)]

def toJson (cwd : Path) (f : Findings) : JsonValue :=
  .object [
    ("diagnostics", .list (f.diagnostics.map (diagnosticJson cwd))),
    ("summary", .object [
      ("files_analysed", .int (fileCount f)),
      ("imports_checked", .int f.checked),
      ("imports_skipped", .int f.skipped),
      ("issues_found", .int f.diagnostics.length)])]

def json (cwd : Path) (f : Findings) : String := (toJson cwd f).render

end DefaultImports.Report
