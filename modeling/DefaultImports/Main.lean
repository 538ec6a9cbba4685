import DefaultImports.Check
import DefaultImports.Footprint

/-! The program: it takes in the files that a run can look at, runs, and writes what is left
behind. Links and names that are not UTF-8 are taken in as the system's listing gives them. -/
namespace DefaultImports.Program

def textOf (place : List String) : String := "/" ++ "/".intercalate place

def insert (w : Workspace) (place : List String) (entry : Entry) : Workspace :=
  if (w.entryAt? place).isSome then w else { w with entries := (place, entry) :: w.entries }

/-- Takes in what is at a place. -/
def loadPlace (w : Workspace) (place : List String) : IO Workspace := do
  if (w.entryAt? place).isSome then return w
  let file := (← IO.currentDir) / textOf place
  if !(← file.pathExists) then return w
  if ← file.isDir then return insert w place .directory
  return insert w place (.file (← IO.FS.readBinFile file).toList)

/-- Takes in what is on the way to a path, and at its end. -/
def loadPath (w : Workspace) (p : Path) : IO Workspace := do
  if p.hasNul then return w
  let parts := (w.absolute p).collapse.parts
  let mut w := w
  for n in List.range parts.length do
    w ← loadPlace w (parts.take (n + 1))
  return w

/-- Takes in all that is below a directory. -/
partial def loadTree (w : Workspace) (place : List String) : IO Workspace := do
  let mut w := w
  for e in ← ((← IO.currentDir) / textOf place).readDir do
    let below := place ++ [e.fileName]
    w ← loadPlace w below
    if w.entryAt? below == some .directory then
      w ← loadTree w below
  return w

/-- Takes in a path that is to be checked. -/
def loadGiven (w : Workspace) (p : Path) : IO Workspace := do
  let w ← loadPath w p
  match w.entry p with
  | .ok .directory => loadTree w (w.absolute p).collapse.parts
  | _ => return w

def environment : IO Environment := do
  return ⟨← IO.getEnv "MISSINGDEFAULT_SEVERITY", ← IO.getEnv "MISSINGDEFAULT_NO_CACHE",
    ← IO.getEnv "MISSINGDEFAULT_RESPECT_GITIGNORE", ← IO.getEnv "MISSINGDEFAULT_CACHE_MAX_ENTRIES"⟩

/-- Takes in the candidates of all imports in the files that would be checked. -/
def loadImports (w : Workspace) (e : Environment) (a : CommandLine.CheckArguments) :
    IO Workspace := do
  let .ok s := Settings.load w e (.ofString ".") | return w
  let .ok selection := Check.select w (Check.applyArguments a s) false (Check.givenPaths a)
    | return w
  let mut w := w
  for file in selection.files do
    for p in Footprint.ofFile w file do
      w ← loadPath w p
  return w

/-- Takes in what a check can look at. -/
def load (w : Workspace) (e : Environment) (a : CommandLine.CheckArguments) : IO Workspace := do
  let mut w := w
  for name in ["pyproject.toml", ".missingdefault.toml"] do
    w ← loadPath w (.ofString name)
  for path in Check.givenPaths a do
    w ← loadGiven w (.ofString path)
  if let some file := a.output then
    w ← loadPath w (.ofString file)
  loadImports w e a

/-- Writes the files that a run has changed. -/
def store (before after : Workspace) : IO Unit := do
  for (place, entry) in after.entries do
    if let .file bytes := entry then
      if before.entryAt? place != some entry then
        IO.FS.writeBinFile (textOf place) (ByteArray.mk bytes.toArray)

def messageOf : RunError → String
  | .path e | .search (.path e) => e.message
  | .search (.ignore e) => e.message
  | .settings e => e.message
  | .failure e => e.message
  | .encoding e _ => e.message

end DefaultImports.Program

open DefaultImports in
def main (words : List String) : IO UInt32 := do
  let cwd := Path.ofString (← IO.currentDir).toString
  let e ← Program.environment
  let w ← Program.loadPath { entries := [], cwd } cwd
  let w ← match CommandLine.Request.ofWords words with
    | .check a => Program.load w e a
    | .stop .. => pure w
  match runProgram w e words with
  | .error e =>
    if let .encoding _ left := e then
      Program.store w left
    IO.eprintln (CommandLine.program ++ ": " ++ Program.messageOf e)
    return 1
  | .ok r =>
    Program.store w r.workspace
    IO.print r.out
    IO.eprint r.err
    return r.code.toUInt32
