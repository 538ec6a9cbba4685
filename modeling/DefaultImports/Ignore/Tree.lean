import DefaultImports.Ignore.Rule
import DefaultImports.Workspace

/-! The ignore files below a directory and the paths that they hide. -/
namespace DefaultImports

/-- The rules of one file, for the paths below its directory. -/
structure IgnoreFile where
  directory : Path
  rules : List IgnoreRule

inductive SearchError where
  | path (e : PathError)
  | ignore (e : IgnoreError)
deriving DecidableEq, Repr

/-- The ignore files below `root`, outer ones first. -/
structure IgnoreTree where
  root : Path
  files : List IgnoreFile

namespace IgnoreTree

def fileName : String := ".gitignore"

def rulesOfLines : List (List Char) → Except IgnoreError (List IgnoreRule)
  | [] => .ok []
  | line :: rest => do
    let rule ← IgnoreRule.ofLine? line
    return rule.toList ++ (← rulesOfLines rest)

/-- The text of an ignore file; one that is not well-formed has none. -/
def text? (w : Workspace) (file : Path) : Option (List Char) :=
  match w.readBytes file with
  | .error _ => none
  | .ok bytes => (Utf8.decode bytes).toOption.map Text.unifyNewlines

/-- The rules of an ignore file. -/
def rulesOf (w : Workspace) (file : Path) : Except IgnoreError IgnoreFile :=
  match text? w file with
  | none => .ok ⟨file.parent, []⟩
  | some text => (⟨file.parent, ·⟩) <$> rulesOfLines (Text.breakLines text)

def fileRules (w : Workspace) : List Path → Except IgnoreError (List IgnoreFile)
  | [] => .ok []
  | file :: rest => do
    let f ← rulesOf w file
    let fs ← fileRules w rest
    return if f.rules.isEmpty then fs else f :: fs

/-- The ignore files below a directory, in the order of a walk: outer ones come before those
further in, and siblings come as they are listed. -/
def ignoreFiles (w : Workspace) (root : Path) : List Path :=
  (w.filesBelow root).filter (·.name == fileName)

/-- Reads the ignore files below a directory. Files without rules are left out. -/
def read (w : Workspace) (root : Path) : Except SearchError IgnoreTree := do
  let root ← (w.resolve root).mapError .path
  let _ ← (w.probe root).mapError .path
  let files ← (fileRules w (ignoreFiles w root)).mapError .ignore
  return ⟨root, files⟩

/-- Lets rules speak in turn, the last one that applies being right. -/
def applyRules (rel : String) : List IgnoreRule → (ignored : Bool) → Except IgnoreError Bool
  | [], ignored => .ok ignored
  | r :: rest, ignored => do
    let applied ← r.applies rel
    applyRules rel rest (if applied then !r.negated else ignored)

/-- Lets the files speak in turn about the path `p` itself. A file has a say on the directory
that it is in, and on all that is below. -/
def applyFiles (p : Path) : List IgnoreFile → (ignored : Bool) → Except IgnoreError Bool
  | [], ignored => .ok ignored
  | f :: rest, ignored =>
    match p.relativeTo? f.directory with
    | none => applyFiles p rest ignored
    | some rel => do applyFiles p rest (← applyRules rel.toString f.rules ignored)

/-- Whether one of some paths is ignored for its own sake, asked in turn. -/
def anyIgnored (t : IgnoreTree) : List Path → Except IgnoreError Bool
  | [] => .ok false
  | p :: rest => do
    if ← applyFiles p t.files false then return true
    t.anyIgnored rest

/-- The directories strictly between the root and a path below it, nearest to the path
first. -/
def between (root p : Path) : List Path :=
  match p.relativeTo? root with
  | none => []
  | some rel =>
    ((List.range (rel.parts.length - 1)).map fun i =>
      ⟨root.anchor, root.parts ++ rel.parts.take (i + 1)⟩).reverse

/-- Whether a path, or a directory between it and the root, is ignored. -/
def isIgnored (w : Workspace) (t : IgnoreTree) (p : Path) : Except SearchError Bool := do
  let p ← (w.resolve p).mapError .path
  (t.anyIgnored (between t.root p ++ [p])).mapError .ignore

end IgnoreTree

end DefaultImports
