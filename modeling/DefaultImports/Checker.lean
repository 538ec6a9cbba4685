import DefaultImports.Decision
import DefaultImports.Findings
import DefaultImports.Suppression
import DefaultImports.SurfaceCache

/-! The check of whole files. A pass shares one cache of export surfaces. -/
namespace DefaultImports

/-- What a check of files depends on. -/
structure Checker where
  workspace : Workspace
  reader : Reader
  policy : CachePolicy
  severity : String

namespace Checker

def ofWorkspace (w : Workspace) (policy : CachePolicy) (severity : String) : Checker :=
  ⟨w, .ofWorkspace w, policy, severity⟩

/-- The verdict on an import, with the surface of its target from the cache. A target that
cannot be inspected is skipped. -/
def evaluate (k : Checker) (b : Binding) (c : SurfaceCache) :
    Except Failure Decision × SurfaceCache :=
  match b.target? k.workspace with
  | none => (.ok .skipped, c)
  | some target =>
    match c.get k.policy k.reader k.workspace.cwd target with
    | (.ok s, c) => (.ok (.judge b target s), c)
    | (.error e, c) => (if e.isInspection then .ok .skipped else .error e, c)

/-- Counts a verdict, and keeps its diagnostic unless the line is suppressed. -/
def record (k : Checker) (s : Suppression) (f : Findings) : Decision → Findings
  | .skipped => f.countSkipped
  | .clean => f.countChecked
  | .flagged d =>
    if s.covers d.line then f.countChecked
    else f.countChecked.report { d with severity := k.severity }

def checkBindings (k : Checker) (s : Suppression) :
    List Binding → Findings → SurfaceCache → Except Failure Findings × SurfaceCache
  | [], f, c => (.ok f, c)
  | b :: rest, f, c =>
    match k.evaluate b c with
    | (.error e, c) => (.error e, c)
    | (.ok d, c) => k.checkBindings s rest (k.record s f d) c

/-- Checks a text as the content of a file. -/
def checkSource (k : Checker) (source : String) (file : Path) (c : SurfaceCache) :
    Except Failure Findings × SurfaceCache :=
  let file := k.workspace.absolute file
  let suppression := Suppression.ofSource source
  if suppression.fileDisabled then (.ok (.ofFile file), c)
  else k.checkBindings suppression (Binding.scan source file) (.ofFile file) c

/-- Checks a file. Only a path that no file can have is a failure. -/
def checkFile (k : Checker) (file : Path) (c : SurfaceCache) :
    Except Failure Findings × SurfaceCache :=
  let file := k.workspace.absolute file
  match k.workspace.readSource file with
  | .ok source => k.checkSource source file c
  | .error ⟨.nulCharacter, p⟩ => (.error (.path ⟨.nulCharacter, p⟩), c)
  | .error e => (.ok (.unreadable file e), c)

def checkFilesFrom (k : Checker) :
    List Path → Findings → SurfaceCache → Except Failure Findings × SurfaceCache
  | [], f, c => (.ok f, c)
  | file :: rest, f, c =>
    match k.checkFile file c with
    | (.error e, c) => (.error e, c)
    | (.ok g, c) => k.checkFilesFrom rest (f ++ g) c

/-- Checks files in one pass, which starts with an empty cache. -/
def checkFiles (k : Checker) (files : List Path) : Except Failure Findings :=
  (k.checkFilesFrom files .empty .empty).1

end Checker

end DefaultImports
