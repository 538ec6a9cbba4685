import DefaultImports.Glob.Basic
import DefaultImports.Path.Basic

/-! The choice of files by include and exclude patterns. -/
namespace DefaultImports

structure FileFilter where
  included : List String
  excluded : List String
deriving DecidableEq, Repr

namespace FileFilter

def default : FileFilter where
  included := ["*.js", "*.jsx", "*.ts", "*.tsx"]
  excluded := ["node_modules", ".git", "dist", "build", "coverage"]

/-- A pattern applies to the path or to the file name alone; `**/x` also to `x` at the top. -/
def patternMatches (rel name pattern : String) : Bool :=
  globMatches pattern rel || globMatches pattern name ||
    match pattern.toList with
    | '*' :: '*' :: '/' :: rest => (Glob.parseFrom 0 rest).matchesAll rel.toList
    | _ => false

/-- The path as patterns see it: from `root` if it is below, and whole otherwise. -/
def relative (p root : Path) : String := ((p.relativeTo? root).getD p).toString

/-- For each directory on the way to a path, its name and its path. -/
def ancestors (rel : String) : List (String × String) :=
  let parts := Text.split (· == '/') rel.toList
  (List.range (parts.length - 1)).map fun i =>
    (String.ofList (parts.getD i []), String.ofList (Text.join '/' (parts.take (i + 1))))

/-- Whether a pattern matches the path, or a directory on the way to it. -/
def excludes (pattern rel name : String) : Bool :=
  patternMatches rel name pattern ||
    (ancestors rel).any fun (last, whole) => globMatches pattern last || globMatches pattern whole

/-- No exclude pattern applies and, if there are include patterns, one of them does. -/
def accepts (f : FileFilter) (p root : Path) : Bool :=
  let rel := relative p root
  !f.excluded.any (excludes · rel p.name) &&
    (f.included.isEmpty || f.included.any (patternMatches rel p.name))

end FileFilter

end DefaultImports
