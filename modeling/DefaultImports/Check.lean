import DefaultImports.CommandLine.Request
import DefaultImports.Report.Basic
import DefaultImports.Settings.Load
import DefaultImports.Trace

/-! A run of the program, from its command line to what it prints and writes. -/
namespace DefaultImports

open CommandLine

/-- Why a run breaks off without a result. -/
inductive RunError where
  | path (e : PathError)
  | search (e : SearchError)
  | settings (e : SettingsError)
  | failure (e : Failure)
  /-- The report cannot be encoded; `left` has the file that was opened for it. -/
  | encoding (e : Utf8.EncodeFault) (left : Workspace)
deriving DecidableEq, Repr

/-- What a run leaves behind. -/
structure RunResult where
  code : Nat
  out : String
  err : String
  workspace : Workspace

namespace Check

/-- Arguments win over every other source of settings. -/
def applyArguments (a : CheckArguments) (s : Settings) : Settings :=
  { s with
    respectIgnores := s.respectIgnores && !a.includeIgnored
    cache := { s.cache with enabled := s.cache.enabled && !a.noCache }
    severity := a.severity.getD s.severity }

/-- The paths to check: the working directory if none is given. -/
def givenPaths (a : CheckArguments) : List String := if a.paths.isEmpty then ["."] else a.paths

/-- What the given paths amount to. -/
structure Selection where
  files : List Path
  /-- How many of the paths exist. -/
  valid : Nat
  /-- Warnings and log lines, in order. -/
  notes : List String

def warning (path : String) : String :=
  program ++ ": warning: skipping '" ++ path ++ "', path does not exist"

/-- The files that one path stands for. -/
def selectPath (w : Workspace) (s : Settings) (debug : Bool) (path : String) :
    Except RunError Selection := do
  let p := Path.ofString path
  match ← (w.probe p).mapError .path with
  | none => return ⟨[], 0, [warning path]⟩
  | some (.file _) => return ⟨[p], 1, []⟩
  | some .directory =>
    let files ← (SourceFiles.find w s.filter s.respectIgnores p).mapError .search
    let notes := if debug then Trace.search w s.respectIgnores p files.length else []
    return ⟨files, 1, notes⟩

/-- The files that some paths stand for, in the order of the paths. -/
def select (w : Workspace) (s : Settings) (debug : Bool) :
    List String → Except RunError Selection
  | [] => .ok ⟨[], 0, []⟩
  | path :: rest => do
    let a ← selectPath w s debug path
    let b ← select w s debug rest
    return ⟨a.files ++ b.files, a.valid + b.valid, a.notes ++ b.notes⟩

def report (w : Workspace) (a : CheckArguments) (f : Findings) : String :=
  if a.json then Report.json w.cwd f else Report.text w.cwd a.absolute a.verbose f

/-- Prints the report, or writes it to the file that is named for it. That file is emptied before
the report is encoded, and stays so if the report cannot be. -/
def deliver (w : Workspace) (a : CheckArguments) (err : String) (f : Findings) :
    Except RunError RunResult := do
  let code := if f.diagnostics.isEmpty then 0 else 1
  let text := report w a f
  match Settings.given a.output with
  | none =>
    let _ ← (w.encode text).mapError (.encoding · w)
    return ⟨code, text ++ "\n", err, w⟩
  | some file =>
    let opened ← (w.write (.ofString file) []).mapError .path
    let bytes ← (w.encode text).mapError (.encoding · opened)
    let written ← (w.write (.ofString file) bytes).mapError .path
    return ⟨code, "", err, written⟩

def run (w : Workspace) (a : CheckArguments) (s : Settings) : Except RunError RunResult := do
  let s := applyArguments a s
  let selection ← select w s a.debug (givenPaths a)
  if selection.valid == 0 then
    let notes := selection.notes ++ [program ++ ": error: no valid paths to check"]
    return ⟨2, "", unlines notes, w⟩
  else if selection.files.isEmpty then
    return ⟨0, if a.verbose then "no files to check\n" else "", unlines selection.notes, w⟩
  else
    let k := Checker.ofWorkspace w s.cache s.severity
    let findings ← (k.checkFiles selection.files).mapError .failure
    let log := if a.debug then Trace.files k selection.files else []
    deliver w a (unlines (selection.notes ++ log)) findings

end Check

/-- Runs the program on the words of its command line. -/
def runProgram (w : Workspace) (e : Environment) (words : List String) :
    Except RunError RunResult :=
  match Request.ofWords words with
  | .stop code out err => .ok ⟨code, out, err, w⟩
  | .check a => do
    let s ← (Settings.load w e (.ofString ".")).mapError .settings
    Check.run w a s

end DefaultImports
