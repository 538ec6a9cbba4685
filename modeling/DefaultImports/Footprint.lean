import DefaultImports.Checker

/-! What the check of a file looks at beside the file itself. -/
namespace DefaultImports.Footprint

/-- The candidates of the imports in a text that can be checked. -/
def ofSource (w : Workspace) (source : String) (file : Path) : List Path :=
  let file := w.absolute file
  (Binding.scan source file).flatMap fun b =>
    if Specifier.isOutOfScope b.specifier then []
    else Specifier.candidates w.cwd b.specifier file

/-- The candidates of the imports in a file that can be checked. -/
def ofFile (w : Workspace) (file : Path) : List Path :=
  match w.readSource file with
  | .ok source => ofSource w source file
  | .error _ => []

end DefaultImports.Footprint
