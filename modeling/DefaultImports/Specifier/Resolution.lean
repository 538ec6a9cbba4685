import DefaultImports.Specifier.Scope
import DefaultImports.Workspace

/-! From a specifier to a file: the path as written, then with each source extension. -/
namespace DefaultImports.Specifier

/-- The path a specifier names as seen from the file `importer`. -/
def base (cwd : Path) (specifier : String) (importer : Path) : Path :=
  ((cwd.join importer).collapse.parent.join (.ofString specifier)).collapse

/-- The paths tried for a specifier, in order. -/
def candidates (cwd : Path) (specifier : String) (importer : Path) : List Path :=
  let base := base cwd specifier importer
  base :: sourceExtensions.map base.append

/-- The first candidate of a relative specifier that exists. -/
def resolve? (w : Workspace) (specifier : String) (importer : Path) : Option Path :=
  if isRelative specifier then (candidates w.cwd specifier importer).find? w.exists?
  else none

/-- `resolve?` for a run whose working directory is gone: nothing can be found from an
importer that is given relative to it. -/
def resolveDetached? (w : Workspace) (specifier : String) (importer : Path) : Option Path :=
  if importer.isAbsolute then resolve? w specifier importer else none

end DefaultImports.Specifier
