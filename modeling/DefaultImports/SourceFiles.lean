import DefaultImports.FileFilter
import DefaultImports.Ignore.Tree

/-! The source files below a directory. -/
namespace DefaultImports.SourceFiles

/-- Keeps the files that a filter accepts and that no ignore file hides. -/
def keep (w : Workspace) (filter : FileFilter) (root : Path) (ignores : Option IgnoreTree) :
    List Path → Except SearchError (List Path)
  | [] => .ok []
  | file :: rest => do
    let hidden ←
      if !filter.accepts file root then pure true
      else match ignores with
        | none => pure false
        | some t => t.isIgnored w file
    let files ← keep w filter root ignores rest
    return if hidden then files else file :: files

/-- The files to check below a directory, in the order of their paths. What is no directory
has none. -/
def find (w : Workspace) (filter : FileFilter) (respectIgnores : Bool) (root : Path) :
    Except SearchError (List Path) := do
  let root ← (w.resolve root).mapError .path
  match ← (w.probe root).mapError .path with
  | some .directory =>
    let ignores ← if respectIgnores then some <$> IgnoreTree.read w root else pure none
    let files ← keep w filter root ignores (w.filesBelow root)
    return files.mergeSort Path.le
  | _ => return []

end DefaultImports.SourceFiles
