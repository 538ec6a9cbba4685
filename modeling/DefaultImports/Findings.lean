import DefaultImports.Diagnostic

/-! What a check of one or more files has found. -/
namespace DefaultImports

/-- Diagnostics and files are in the order in which they were met. A check counts
imports from zero on and never down, so that only natural numbers occur. -/
structure Findings where
  diagnostics : List Diagnostic
  files : List Path
  checked : Nat
  skipped : Nat
deriving DecidableEq, Repr

namespace Findings

def empty : Findings := ⟨[], [], 0, 0⟩

instance : Append Findings :=
  ⟨fun a b => ⟨a.diagnostics ++ b.diagnostics, a.files ++ b.files, a.checked + b.checked,
    a.skipped + b.skipped⟩⟩

/-- The findings in a file before any import is looked at. -/
def ofFile (file : Path) : Findings := ⟨[], [file], 0, 0⟩

/-- A file that could not be read counts as looked at. -/
def unreadable (file : Path) (e : PathError) : Findings := ⟨[.unreadable file e], [file], 0, 0⟩

def countSkipped (f : Findings) : Findings := { f with skipped := f.skipped + 1 }

def countChecked (f : Findings) : Findings := { f with checked := f.checked + 1 }

def report (d : Diagnostic) (f : Findings) : Findings :=
  { f with diagnostics := f.diagnostics ++ [d] }

end Findings

end DefaultImports
