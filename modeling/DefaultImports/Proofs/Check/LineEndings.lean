import DefaultImports.Proofs.Check.Footprint
import DefaultImports.Proofs.Text.Newline
import DefaultImports.Proofs.Workspace.Edit

/-! The findings of a pass do not depend on how the lines of the files end. -/
namespace DefaultImports

namespace Workspace

/-- The tree with the line breaks of some files written in another way. `ending` says which files
these are, and how their lines end then. -/
def convertLines (ending : List String → Option LineEnding) (w : Workspace) : Workspace :=
  w.rewrite fun place bytes => ((ending place).map (·.convert bytes)).getD bytes

/-- The files to convert have no `\r`. -/
def Convertible (ending : List String → Option LineEnding) (w : Workspace) : Prop :=
  ∀ place bytes, (place, Entry.file bytes) ∈ w.entries → ending place ≠ none → 0x0D ∉ bytes

variable {w : Workspace} {ending : List String → Option LineEnding}

theorem edits_convertLines (ending : List String → Option LineEnding) (w : Workspace) :
    Edits w (w.convertLines ending)
      fun place bytes => ((ending place).map (·.convert bytes)).getD bytes :=
  edits_rewrite _ w

theorem readSource_convertLines (h : w.Convertible ending) (p : Path) :
    (w.convertLines ending).readSource p = w.readSource p := by
  rcases (edits_convertLines ending w).readSource_cases p with
    ⟨place, bytes, hplace, hold, hnew⟩ | ⟨-, hsame⟩
  · have hmem := mem_entries_of_entryAt? (entryAt?_of_locate hplace)
    rw [hnew, hold]
    cases hending : ending place with
    | none => rfl
    | some e =>
      have hreturn : 0x0D ∉ bytes := h place bytes hmem (by simp [hending])
      exact congrArg Except.ok (e.sourceText_convert hreturn)
  · exact hsame

end Workspace

namespace Checker

variable {w w' : Workspace} {severity : String}

/-- The verdict on an import depends on what files export and on what exists. -/
theorem ofBinding_of_read (hcwd : w'.cwd = w.cwd) (hexists : ∀ p, w'.exists? p = w.exists? p)
    (hread : ∀ p, Surface.read w' p = Surface.read w p) (b : Binding) :
    Decision.ofBinding w' b = Decision.ofBinding w b := by
  have htarget : b.target? w' = b.target? w := by
    rw [Binding.target?, Binding.target?, Specifier.resolve?, Specifier.resolve?, hcwd,
      show w'.exists? = w.exists? from funext hexists]
  simp only [Decision.ofBinding, htarget, hread]

theorem plainFile_of_readSource (hcwd : w'.cwd = w.cwd) (hexists : ∀ p, w'.exists? p = w.exists? p)
    (hread : ∀ p, w'.readSource p = w.readSource p) (file : Path) :
    plainFile w' severity file = plainFile w severity file := by
  have hbindings : ∀ s bs f,
      plainBindings w' severity s bs f = plainBindings w severity s bs f := by
    intro s bs f
    apply plainBindings_congr
    intro b _
    refine ofBinding_of_read hcwd hexists (fun p => ?_) b
    rw [Surface.read, Surface.read, hread]
  simp only [plainFile, plainSource, Workspace.absolute, hcwd, hread, hbindings]

theorem plainFiles_of_readSource (hcwd : w'.cwd = w.cwd)
    (hexists : ∀ p, w'.exists? p = w.exists? p) (hread : ∀ p, w'.readSource p = w.readSource p)
    (files : List Path) : plainFiles w' severity files = plainFiles w severity files := by
  induction files with
  | nil => rfl
  | cons file rest ih =>
    rw [plainFiles, plainFiles, plainFile_of_readSource hcwd hexists hread, ih]

/-- A pass finds the same in importers and targets without `\r` when the lines of any of them are
made to end in `\r\n` or in `\r`, malformed bytes or not. -/
theorem checkFiles_convertLines {w : Workspace} {ending : List String → Option LineEnding}
    (h : w.Convertible ending) (policy : CachePolicy) (severity : String) (files : List Path) :
    (ofWorkspace (w.convertLines ending) policy severity).checkFiles files =
      (ofWorkspace w policy severity).checkFiles files := by
  rw [checkFiles_eq_plainFiles, checkFiles_eq_plainFiles]
  have hedits := Workspace.edits_convertLines ending w
  exact plainFiles_of_readSource hedits.cwd hedits.exists?_eq
    (Workspace.readSource_convertLines h) files

/-- Two files with malformed bytes before and behind their line breaks. -/
def sampleLines : Workspace where
  entries :=
    [(["w"], .directory),
      (["w", "a.js"], .file ("import B from './b'\n".toUTF8.toList ++ [0xE2, 0x82, 0x0A, 0x82])),
      (["w", "b.js"], .file ("export const x = 1 ".toUTF8.toList ++ [0xF0, 0x0A, 0x0A, 0xC3]))]
  cwd := ⟨.root, ["w"]⟩

/-- The lines of `a.js` end in `\r\n` and those of `b.js` in `\r`. -/
def sampleEnding (place : List String) : Option LineEnding :=
  if place = ["w", "a.js"] then some .crlf else if place = ["w", "b.js"] then some .cr else none

/-- Neither the importer nor the target needs its own line breaks. -/
theorem checkFiles_sampleLines :
    let files : List Path := [⟨.relative, ["a.js"]⟩]
    sampleLines.Convertible sampleEnding ∧
      (∀ p ∈ [["a.js"], ["b.js"]],
        (sampleLines.convertLines sampleEnding).readBytes ⟨.relative, p⟩ ≠
          sampleLines.readBytes ⟨.relative, p⟩) ∧
      (ofWorkspace (sampleLines.convertLines sampleEnding) .default "error").checkFiles files =
        (ofWorkspace sampleLines .default "error").checkFiles files := by
  intro files
  have hconvertible : sampleLines.Convertible sampleEnding := by
    intro place bytes hmem _
    simp only [sampleLines, List.mem_cons, Prod.mk.injEq, Entry.file.injEq, reduceCtorEq,
      List.not_mem_nil, and_false, or_false, false_or] at hmem
    rcases hmem with ⟨-, rfl⟩ | ⟨-, rfl⟩ <;> decide +kernel
  exact ⟨hconvertible, by decide +kernel,
    checkFiles_convertLines hconvertible .default "error" files⟩

end Checker

end DefaultImports
