import DefaultImports.Footprint
import DefaultImports.Proofs.Check.Report
import Mathlib.Data.List.Find

/-! The findings of a pass depend on three things only: the importers, which of the candidates
exist, and the text of the targets. -/
namespace DefaultImports

namespace Footprint

variable {w : Workspace} {file p : Path} {b : Binding}

/-- The imports in a file that can be checked. -/
def imports (w : Workspace) (file : Path) : List Binding :=
  match w.readSource file with
  | .ok source =>
    (Binding.scan source (w.absolute file)).filter fun b => !Specifier.isOutOfScope b.specifier
  | .error _ => []

/-- The footprint of a file holds the candidates of all its imports. -/
theorem mem_ofFile (hb : b ∈ imports w file)
    (hp : p ∈ Specifier.candidates w.cwd b.specifier (w.absolute file)) : p ∈ ofFile w file := by
  unfold imports at hb
  unfold ofFile
  cases hread : w.readSource file with
  | error e => simp [hread] at hb
  | ok source =>
    simp only [hread, List.mem_filter, Bool.not_eq_true'] at hb
    obtain ⟨hscan, hscope⟩ := hb
    refine List.mem_flatMap.mpr ⟨b, hscan, ?_⟩
    simpa [hscope] using hp

/-- What two file trees must share for a pass over `files` not to tell them apart. -/
structure Agree (w₁ w₂ : Workspace) (files : List Path) : Prop where
  cwd : w₁.cwd = w₂.cwd
  importers : ∀ file ∈ files,
    w₁.readBytes (w₁.absolute file) = w₂.readBytes (w₁.absolute file)
  candidates : ∀ file ∈ files, ∀ p ∈ ofFile w₁ (w₁.absolute file), w₁.exists? p = w₂.exists? p
  /-- Only the first candidate that exists is read, and only if it is a source file. -/
  targets : ∀ file ∈ files, ∀ b ∈ imports w₁ (w₁.absolute file), ∀ target ∈ b.found? w₁,
    Specifier.isSource target = true → w₁.readBytes target = w₂.readBytes target

end Footprint

namespace Binding

variable {b : Binding} {source : String} {file : Path}

theorem file_of_mem_scan (hb : b ∈ scan source file) : b.file = file := by
  obtain ⟨m, -, hm⟩ := List.mem_filterMap.mp hb
  simp only [ofFound?, Option.bind_eq_bind, Option.bind_eq_some_iff] at hm
  obtain ⟨name, -, specifier, -, hm⟩ := hm
  cases Option.some.inj hm
  rfl

end Binding

namespace Checker

open Footprint

variable {w₁ w₂ : Workspace} {severity source : String} {s : Suppression} {b : Binding}
  {file : Path} {files : List Path}

theorem readSource_congr {p : Path} (h : w₁.readBytes p = w₂.readBytes p) :
    w₁.readSource p = w₂.readSource p := by
  rw [Workspace.readSource, Workspace.readSource, h]

theorem found?_congr (hcwd : w₁.cwd = w₂.cwd)
    (hexists : ∀ p ∈ Specifier.candidates w₁.cwd b.specifier b.file, w₁.exists? p = w₂.exists? p) :
    b.found? w₁ = b.found? w₂ := by
  unfold Binding.found?
  rw [← hcwd]
  exact List.find?_congr hexists

/-- The verdict on an import is the same where its candidates and its target are. -/
theorem ofBinding_congr (hfound : b.found? w₁ = b.found? w₂)
    (htarget : ∀ target ∈ b.found? w₁, Specifier.isSource target = true →
      w₁.readBytes target = w₂.readBytes target) :
    Decision.ofBinding w₁ b = Decision.ofBinding w₂ b := by
  apply Binding.ofBinding_of_exports hfound
  intro hskip
  obtain ⟨target, hf, -⟩ := Binding.ofBinding_of_not_isSkipped hskip
  simp only [Binding.isSkipped, hf, Bool.or_eq_false_iff, Bool.not_eq_false'] at hskip
  have hread := readSource_congr (htarget target (hfound.trans hf) hskip.2)
  simp only [Binding.exports, hfound, hf, Surface.read, hread]

theorem plainBindings_congr {bs : List Binding} (f : Findings)
    (h : ∀ b ∈ bs, Decision.ofBinding w₁ b = Decision.ofBinding w₂ b) :
    plainBindings w₁ severity s bs f = plainBindings w₂ severity s bs f := by
  apply List.foldl_ext
  intro f b hb
  rw [h b hb]
  cases Decision.ofBinding w₂ b <;> rfl

theorem plainFile_congr (h : Agree w₁ w₂ files) (hfile : file ∈ files) :
    plainFile w₁ severity file = plainFile w₂ severity file := by
  have habsolute : ∀ p, w₂.absolute p = w₁.absolute p := by
    intro p
    rw [Workspace.absolute, Workspace.absolute, h.cwd]
  have hread := readSource_congr (h.importers file hfile)
  rw [plainFile, plainFile, habsolute, ← hread]
  cases hsource : w₁.readSource (w₁.absolute file) with
  | error e =>
    obtain ⟨fault, p⟩ := e
    cases fault <;> rfl
  | ok source =>
    simp only [plainSource, habsolute]
    congr 1
    split
    · rfl
    · apply plainBindings_congr
      intro b hb
      have hfile' := Binding.file_of_mem_scan hb
      by_cases hscope : Specifier.isOutOfScope b.specifier
      · simp [Decision.ofBinding, Binding.target?, hscope]
      · have himport : b ∈ imports w₁ (w₁.absolute file) := by
          simp [imports, hsource, hb, hscope]
        apply ofBinding_congr
        · apply found?_congr h.cwd
          intro p hp
          rw [hfile'] at hp
          exact h.candidates file hfile p (mem_ofFile himport hp)
        · intro target htarget hext
          exact h.targets file hfile b himport target htarget hext

theorem plainFiles_congr (hagree : Agree w₁ w₂ files) {some : List Path} (hsome : some ⊆ files) :
    plainFiles w₁ severity some = plainFiles w₂ severity some := by
  induction some with
  | nil => rfl
  | cons file rest ih =>
    obtain ⟨hfile, hrest⟩ := List.cons_subset.mp hsome
    rw [plainFiles, plainFiles, plainFile_congr hagree hfile, ih hrest]

/-- A pass finds the same in two file trees that agree on its footprint: on what reading each
importer gives, on which candidates of its imports exist, and on what reading the first existing
candidate gives if that is a source file. -/
theorem checkFiles_eq_of_agree {w₁ w₂ : Workspace} {files : List Path}
    (h : Agree w₁ w₂ files) (policy : CachePolicy) (severity : String) :
    (ofWorkspace w₁ policy severity).checkFiles files =
      (ofWorkspace w₂ policy severity).checkFiles files := by
  rw [checkFiles_eq_plainFiles, checkFiles_eq_plainFiles]
  exact plainFiles_congr h (List.Subset.refl files)

/-- A tree in which `a.js` imports a module, a package and a picture. `rest` is the content of
all that no check of `a.js` reads, the second candidate for the module included. -/
def sampleTree (rest : List UInt8) : Workspace where
  entries :=
    [(["w"], .directory),
      (["w", "a.js"], .file
        "import B from './b'\nimport R from 'r'\nimport L from './l.png'\n".toUTF8.toList),
      (["w", "b.js"], .file "export const x = 1".toUTF8.toList),
      (["w", "b.ts"], .file rest),
      (["w", "l.png"], .file rest),
      (["w", "node_modules"], .directory),
      (["w", "node_modules", "r"], .file rest)]
  cwd := ⟨.root, ["w"]⟩

/-- Contents outside the footprint may differ. -/
theorem checkFiles_sampleTree :
    let files : List Path := [⟨.relative, ["a.js"]⟩]
    Agree (sampleTree []) (sampleTree [0xFF]) files ∧
      (ofWorkspace (sampleTree []) .default "error").checkFiles files =
        (ofWorkspace (sampleTree [0xFF]) .default "error").checkFiles files := by
  intro files
  have hagree : Agree (sampleTree []) (sampleTree [0xFF]) files := by
    constructor
    case cwd => rfl
    case importers => decide +kernel
    case candidates => decide +kernel
    case targets => decide +kernel
  exact ⟨hagree, checkFiles_eq_of_agree hagree .default "error"⟩

end Checker

end DefaultImports
