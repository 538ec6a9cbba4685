import DefaultImports.Proofs.Check.Report
import DefaultImports.Proofs.Workspace.Place

/-! What becomes of imports that lead to a directory: the name of the directory decides, as if it
were that of a file. Main statement: `ofBinding_directories`. -/
namespace DefaultImports

namespace Workspace

variable {w : Workspace} {p : Path} {place : List String} {e : Entry} {name : String}

/-- A path that does not end in `..` leads to a place with the name at its end. -/
theorem getLast?_of_locate (h : w.locate p = .ok (place, e))
    (hname : p.parts.getLast? = some name) (hup : name ≠ "..") : place.getLast? = some name := by
  have hlast : (w.cwd.join p).parts.getLast? = some name := by
    unfold Path.join
    split
    · rw [List.getLast?_append, hname]
      rfl
    · exact hname
  obtain ⟨init, hinit⟩ := List.getLast?_eq_some_iff.mp hlast
  rw [← collapse_of_locate h, Path.collapse, hinit, List.foldl_append, List.foldl_cons,
    List.foldl_nil, Path.enter, beq_false_of_ne hup]
  simp

/-- What is at a path with the name of a source file has that name itself. -/
theorem isSource_of_locate (h : w.locate p = .ok (place, e))
    (hsource : Specifier.isSource p = true) : Specifier.isSource ⟨.root, place⟩ = true := by
  cases hname : p.parts.getLast? with
  | none =>
    have hempty : Specifier.isSource p = false := by
      simp only [Specifier.isSource, Path.suffix, Path.name, hname]
      decide
    rw [hempty] at hsource
    cases hsource
  | some name =>
    have hup : name ≠ ".." := by
      rintro rfl
      simp only [Specifier.isSource, Path.suffix, Path.name, hname] at hsource
      revert hsource
      decide
    simpa only [Specifier.isSource, Path.suffix, Path.name, hname,
      getLast?_of_locate h hname hup] using hsource

end Workspace

namespace Surface

variable {w : Workspace} {target : Path}

theorem read_of_directory (h : w.entry target = .ok .directory) : read w target = .empty := by
  simp only [read, Workspace.readSource, Workspace.readBytes, h]
  rfl

end Surface

namespace Binding

variable {w : Workspace} {b : Binding} {target : Path} {e : Entry} {d : Diagnostic}

/-- An import that can be checked, the first of its candidates that exists, and what is there. -/
structure LeadsTo (w : Workspace) (b : Binding) (target : Path) (e : Entry) : Prop where
  inScope : Specifier.isOutOfScope b.specifier = false
  found : b.found? w = some target
  entry : w.entry target = .ok e

theorem leadsTo_of_not_isSkipped (h : b.isSkipped w = false) :
    ∃ target e, LeadsTo w b target e ∧ Specifier.isSource target = true := by
  obtain ⟨target, hfound, -⟩ := ofBinding_of_not_isSkipped h
  simp only [isSkipped, hfound, Bool.or_eq_false_iff, Bool.not_eq_false'] at h
  have hexists : w.exists? target = true := List.find?_some hfound
  cases hentry : w.entry target with
  | error fault => simp [Workspace.exists?, hentry, Except.isOk, Except.toBool] at hexists
  | ok e => exact ⟨target, e, ⟨h.1, hfound, hentry⟩, h.2⟩

theorem LeadsTo.isSkipped_eq (h : LeadsTo w b target e) :
    b.isSkipped w = !Specifier.isSource target := by
  simp only [isSkipped, h.inScope, h.found, Bool.false_or]

theorem LeadsTo.exports_of_directory (h : LeadsTo w b target .directory) :
    b.exports w = .empty := by
  simp only [exports, h.found, Surface.read_of_directory h.entry]

/-- A directory counts as a module without exports if its name ends like that of a source file. -/
theorem LeadsTo.ofBinding_of_directory (h : LeadsTo w b target .directory) :
    Decision.ofBinding w b =
      if Specifier.isSource target then .flagged (.missing b target .empty) else .skipped := by
  have hskip := h.isSkipped_eq
  cases hsource : Specifier.isSource target with
  | false =>
    rw [hsource] at hskip
    exact ofBinding_of_isSkipped hskip
  | true =>
    rw [hsource] at hskip
    obtain ⟨other, hother, hd⟩ := ofBinding_of_not_isSkipped hskip
    obtain rfl : other = target := Option.some.inj (hother.symm.trans h.found)
    rw [hd, h.exports_of_directory]
    rfl

/-- What is flagged exists and has the name of a source file. -/
theorem leadsTo_of_flagged (h : Decision.ofBinding w b = .flagged d) :
    ∃ target e, LeadsTo w b target e ∧ Specifier.isSource target = true ∧
      d = .missing b target (b.exports w) := by
  cases hskip : b.isSkipped w with
  | true =>
    rw [ofBinding_of_isSkipped hskip] at h
    cases h
  | false =>
    obtain ⟨target, e, hleads, hsource⟩ := leadsTo_of_not_isSkipped hskip
    obtain ⟨other, hother, hd⟩ := ofBinding_of_not_isSkipped hskip
    obtain rfl : other = target := Option.some.inj (hother.symm.trans hleads.found)
    rw [hd, Decision.judge] at h
    split at h
    · cases h
    · exact ⟨other, e, hleads, hsource, (Decision.flagged.inj h).symm⟩

/-- The target of a flagged import exists under the name of a source file, but it may be a
directory, which is then reported as a module without exports. An import that leads to a directory is
skipped unless the directory has the name of a source file. So where no directory has such a name,
only files are flagged and all imports of directories are skipped. -/
theorem ofBinding_directories (w : Workspace) (b : Binding) :
    (∀ d, Decision.ofBinding w b = .flagged d → ∃ target e, LeadsTo w b target e ∧
      d.target = some target ∧ Specifier.isSource target = true ∧
      (e = .directory → d.namedExports = [] ∧ d.kind.code = "no-default-export-simple")) ∧
    (∀ target, LeadsTo w b target .directory → Decision.ofBinding w b =
      if Specifier.isSource target then .flagged (.missing b target .empty) else .skipped) ∧
    ((∀ place, w.entryAt? place = some .directory → Specifier.isSource ⟨.root, place⟩ = false) →
      (∀ d, Decision.ofBinding w b = .flagged d →
        ∃ target bytes, d.target = some target ∧ w.entry target = .ok (.file bytes)) ∧
      ∀ target, LeadsTo w b target .directory → Decision.ofBinding w b = .skipped) := by
  refine ⟨?_, fun target hleads => hleads.ofBinding_of_directory, ?_⟩
  · intro d hflagged
    obtain ⟨target, e, hleads, hsource, rfl⟩ := leadsTo_of_flagged hflagged
    refine ⟨target, e, hleads, rfl, hsource, ?_⟩
    rintro rfl
    rw [hleads.exports_of_directory]
    exact ⟨rfl, rfl⟩
  · intro hnames
    have hplain : ∀ target, w.entry target = .ok .directory →
        Specifier.isSource target = false := by
      intro target hentry
      obtain ⟨place, hplace⟩ := Workspace.exists_locate hentry
      have hname := hnames place (Workspace.entryAt?_of_locate hplace)
      rw [Bool.eq_false_iff]
      intro hsource
      rw [Workspace.isSource_of_locate hplace hsource] at hname
      cases hname
    constructor
    · intro d hflagged
      obtain ⟨target, e, hleads, hsource, rfl⟩ := leadsTo_of_flagged hflagged
      cases e with
      | file bytes => exact ⟨target, bytes, rfl, hleads.entry⟩
      | directory =>
        rw [hplain target hleads.entry] at hsource
        cases hsource
    · intro target hleads
      rw [hleads.ofBinding_of_directory, hplain target hleads.entry, if_neg Bool.false_ne_true]

/-- The importer `a.js` is in a directory whose name ends like that of a source file, beside one
whose name does not. -/
def sampleDirectories : Workspace where
  entries :=
    [(["w"], .directory),
      (["w", "lib.js"], .directory),
      (["w", "lib.js", "a.js"], .file []),
      (["w", "lib.js", "src"], .directory)]
  cwd := ⟨.root, ["w"]⟩

def sampleImport (specifier : String) : Binding :=
  ⟨"X", specifier, ⟨.root, ["w", "lib.js", "a.js"]⟩, 1, 7⟩

theorem ofBinding_sampleDirectories :
    LeadsTo sampleDirectories (sampleImport "./src") ⟨.root, ["w", "lib.js", "src"]⟩ .directory ∧
      Decision.ofBinding sampleDirectories (sampleImport "./src") = .skipped := by
  have hleads : LeadsTo sampleDirectories (sampleImport "./src")
      ⟨.root, ["w", "lib.js", "src"]⟩ .directory := by
    constructor <;> decide +kernel
  refine ⟨hleads, ?_⟩
  rw [(ofBinding_directories sampleDirectories (sampleImport "./src")).2.1 _ hleads]
  decide +kernel

/-- The directory of the importer, by the name `.` or as `../lib.js`, is flagged. -/
theorem ofBinding_sampleFlagged :
    let target : Path := ⟨.root, ["w", "lib.js"]⟩
    sampleDirectories.entry target = .ok .directory ∧
      Decision.ofBinding sampleDirectories (sampleImport ".") =
        .flagged (.missing (sampleImport ".") target .empty) ∧
      Decision.ofBinding sampleDirectories (sampleImport "../lib.js") =
        .flagged (.missing (sampleImport "../lib.js") target .empty) := by
  decide +kernel

end Binding

end DefaultImports
