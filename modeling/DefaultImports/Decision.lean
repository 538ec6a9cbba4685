import DefaultImports.Diagnostic
import DefaultImports.Specifier.Resolution

/-! The verdict on one default import. -/
namespace DefaultImports

/-- The file that decides about a default import, if the import can be checked at all. -/
def Binding.target? (w : Workspace) (b : Binding) : Option Path :=
  if Specifier.isOutOfScope b.specifier then none
  else (Specifier.resolve? w b.specifier b.file).filter Specifier.isSource

inductive Decision where
  | skipped
  | clean
  | flagged (d : Diagnostic)
deriving DecidableEq, Repr

namespace Decision

/-- The verdict on an import of a module with the exports `s`. -/
def judge (b : Binding) (target : Path) (s : Surface) : Decision :=
  if s.hasDefault then .clean else .flagged (.missing b target s)

/-- The verdict on an import by what is on disk now. -/
def ofBinding (w : Workspace) (b : Binding) : Decision :=
  match b.target? w with
  | none => .skipped
  | some target => judge b target (Surface.read w target)

def diagnostic? : Decision → Option Diagnostic
  | .flagged d => some d
  | _ => none

def state : Decision → String
  | .skipped => "skipped"
  | .clean => "clean"
  | .flagged _ => "flagged"

end Decision

end DefaultImports
