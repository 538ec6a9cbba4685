import DefaultImports.Proofs.Check.Footprint
import DefaultImports.Proofs.Source.Appended
import DefaultImports.Proofs.Workspace.Edit

/-! A default export put at the end of a file repairs the reports on that file and changes nothing
else. -/
namespace DefaultImports

namespace Findings

/-- The same findings without the diagnostics whose target satisfies `p`. -/
def withoutTargets (p : Path → Bool) (f : Findings) : Findings :=
  { f with diagnostics := f.diagnostics.filter fun d => !d.target.any p }

theorem withoutTargets_append (p : Path → Bool) (f g : Findings) :
    (f ++ g).withoutTargets p = f.withoutTargets p ++ g.withoutTargets p := by
  change Findings.mk _ _ _ _ = Findings.mk _ _ _ _
  congr 1
  exact List.filter_append ..

end Findings

namespace Workspace

variable {w w' : Workspace} {place : List String} {bytes : List UInt8} {p : Path}

/-- Whether a path leads to a place. -/
def leadsTo (w : Workspace) (place : List String) (p : Path) : Bool :=
  (w.locate p).toOption.any (·.1 == place)

/-- The file at `place` has got a default export, and `w'` is otherwise as `w`. -/
structure Repaired (w w' : Workspace) (place : List String) : Prop where
  cwd : w'.cwd = w.cwd
  present : ∀ p, w'.exists? p = w.exists? p
  repaired : ∀ p, w.leadsTo place p = true → ∃ bytes, w.readSource p = .ok (sourceText bytes) ∧
    w'.readSource p = .ok (sourceText (bytes ++ defaultLine))
  others : ∀ p, w.leadsTo place p = false → w'.readSource p = w.readSource p

theorem leadsTo_of_locate {found : List String × Entry} (h : w.locate p = .ok found) :
    w.leadsTo place p = (found.1 == place) := by
  rw [leadsTo, h]
  rfl

theorem repaired_put (h : w.entryAt? place = some (.file bytes)) :
    Repaired w (w.put place (bytes ++ defaultLine)) place := by
  have hedits := edits_put h (· ++ defaultLine)
  constructor
  case cwd => exact hedits.cwd
  case present => exact hedits.exists?_eq
  case repaired =>
    intro p hp
    rcases hedits.readSource_cases p with ⟨other, bytes', hlocate, hold, hnew⟩ | ⟨hno, -⟩
    · obtain rfl : other = place := by simpa [leadsTo_of_locate hlocate] using hp
      refine ⟨bytes', hold, ?_⟩
      rw [hnew, if_pos rfl]
    · -- what is at `place` is a file, so a path that leads there leads to a file
      obtain ⟨⟨other, e⟩, hlocate, hother⟩ : ∃ found, w.locate p = .ok found ∧ found.1 = place := by
        cases hlocate : w.locate p with
        | error fault => simp [leadsTo, hlocate, Except.toOption] at hp
        | ok found => exact ⟨found, rfl, by simpa [leadsTo_of_locate hlocate] using hp⟩
      obtain rfl : other = place := hother
      obtain rfl : e = .file bytes := Option.some.inj ((entryAt?_of_locate hlocate).symm.trans h)
      exact absurd hlocate (hno other bytes)
  case others =>
    intro p hp
    rcases hedits.readSource_cases p with ⟨other, bytes', hlocate, hold, hnew⟩ | ⟨-, hsame⟩
    · have hother : other ≠ place := by simpa [leadsTo_of_locate hlocate] using hp
      rw [hnew, hold, if_neg hother]
      rfl
    · exact hsame

end Workspace

namespace Checker

open Workspace

variable {w w' : Workspace} {place : List String} {severity source : String} {s : Suppression}
  {b : Binding} {d : Diagnostic}

theorem target_of_report? (h : report? w severity s b = some d) : d.target = b.found? w := by
  cases hskip : b.isSkipped w with
  | true => simp [report?, Binding.ofBinding_of_isSkipped hskip] at h
  | false =>
    obtain ⟨target, hfound, hd⟩ := Binding.ofBinding_of_not_isSkipped hskip
    rw [report?, hd, Decision.judge] at h
    by_cases hdef : (b.exports w).hasDefault
    · simp [hdef] at h
    · simp only [hdef, Bool.false_eq_true, if_false, Option.ite_none_left_eq_some] at h
      obtain ⟨-, rfl⟩ : _ ∧ _ := by simpa using h
      exact hfound.symm

theorem report?_of_hasDefault (h : (b.exports w).hasDefault = true) :
    report? w severity s b = none := by
  cases hskip : b.isSkipped w with
  | true => rw [report?, Binding.ofBinding_of_isSkipped hskip]
  | false =>
    obtain ⟨target, -, hd⟩ := Binding.ofBinding_of_not_isSkipped hskip
    simp [report?, hd, Decision.judge, h]

theorem found?_of_repaired (hr : Repaired w w' place) (b : Binding) :
    b.found? w' = b.found? w :=
  found?_congr hr.cwd fun p _ => hr.present p

/-- Of the reports on an import, the repair takes away the one whose target it repairs. -/
theorem report?_of_repaired (hr : Repaired w w' place) (severity : String) (s : Suppression)
    (b : Binding) : report? w' severity s b =
      (report? w severity s b).filter fun d => !d.target.any (w.leadsTo place) := by
  have hfound := found?_of_repaired hr b
  cases hlead : (b.found? w).any (w.leadsTo place) with
  | true =>
    obtain ⟨target, htarget, hplace⟩ := (Option.any_eq_true _ _).mp hlead
    obtain ⟨bytes, -, hread⟩ := hr.repaired target hplace
    have hdefault : (b.exports w').hasDefault = true := by
      simp only [Binding.exports, hfound, htarget, Surface.read, hread]
      exact hasDefault_defaultLine bytes
    rw [report?_of_hasDefault hdefault, eq_comm, Option.filter_eq_none_iff]
    intro d hd
    simp [target_of_report? hd, hlead]
  | false =>
    have hexports : b.exports w' = b.exports w := by
      simp only [Binding.exports, hfound]
      cases htarget : b.found? w with
      | none => rfl
      | some target =>
        have hsame := hr.others target (by simpa [htarget] using hlead)
        simp only [Surface.read, hsame]
    have hreport : report? w' severity s b = report? w severity s b := by
      rw [report?, report?, Binding.ofBinding_of_exports hfound fun _ => hexports]
    rw [hreport]
    cases hd : report? w severity s b with
    | none => rfl
    | some d =>
      refine (Option.filter_some_pos ?_).symm
      simp [target_of_report? hd, hlead]

theorem plainSource_of_repaired (hr : Repaired w w' place) (severity source : String)
    (file : Path) : plainSource w' severity source file =
      (plainSource w severity source file).withoutTargets (w.leadsTo place) := by
  have habsolute : w'.absolute file = w.absolute file := by
    rw [Workspace.absolute, Workspace.absolute, hr.cwd]
  have hskip (b : Binding) : b.isSkipped w' = b.isSkipped w := by
    rw [Binding.isSkipped, Binding.isSkipped, found?_of_repaired hr]
  cases hdis : (Suppression.ofSource source).fileDisabled with
  | true =>
    rw [plainSource_of_disabled w' severity file hdis, plainSource_of_disabled w severity file hdis,
      habsolute]
    rfl
  | false =>
    rw [plainSource_of_not_disabled w' severity file hdis,
      plainSource_of_not_disabled w severity file hdis, habsolute]
    simp only [Findings.withoutTargets, List.filter_filterMap, hskip,
      funext (report?_of_repaired hr severity (.ofSource source))]

/-- A default export at the end of a text leaves the findings in it as they are. -/
theorem plainSource_defaultLine (w : Workspace) (severity : String) (bytes : List UInt8)
    (file : Path) : plainSource w severity (sourceText (bytes ++ defaultLine)) file =
      plainSource w severity (sourceText bytes) file := by
  simp only [plainSource, scan_defaultLine, suppression_defaultLine]

theorem plainFile_of_repaired (hr : Repaired w w' place) (severity : String) (file : Path) :
    plainFile w' severity file =
      Findings.withoutTargets (w.leadsTo place) <$> plainFile w severity file := by
  have habsolute : w'.absolute file = w.absolute file := by
    rw [Workspace.absolute, Workspace.absolute, hr.cwd]
  have hsource (source : String) := plainSource_of_repaired hr severity source (w.absolute file)
  cases hlead : w.leadsTo place (w.absolute file) with
  | true =>
    obtain ⟨bytes, hold, hnew⟩ := hr.repaired (w.absolute file) hlead
    simp only [plainFile, habsolute, hold, hnew, plainSource_defaultLine, hsource]
    rfl
  | false =>
    simp only [plainFile, habsolute, hr.others (w.absolute file) hlead]
    cases w.readSource (w.absolute file) with
    | ok source => exact congrArg Except.ok (hsource source)
    | error e =>
      -- a file that cannot be read has a report without a target
      obtain ⟨fault, p⟩ := e
      cases fault <;> rfl

theorem plainFiles_of_repaired (hr : Repaired w w' place) (severity : String)
    (files : List Path) : plainFiles w' severity files =
      Findings.withoutTargets (w.leadsTo place) <$> plainFiles w severity files := by
  induction files with
  | nil => rfl
  | cons file rest ih =>
    rw [plainFiles, plainFiles, ih, plainFile_of_repaired hr]
    cases plainFile w severity file with
    | error e => rfl
    | ok f =>
      cases plainFiles w severity rest with
      | error e => rfl
      | ok g => exact congrArg Except.ok (Findings.withoutTargets_append _ f g).symm

/-- A default export on a line of its own at the end of a file, whatever the file holds, takes away
the reports on imports from that file. All other diagnostics stay with their order and positions,
and so do the files and the counts. -/
theorem checkFiles_defaultLine {w : Workspace} {place : List String} {bytes : List UInt8}
    (h : w.entryAt? place = some (.file bytes)) (policy : CachePolicy) (severity : String)
    (files : List Path) :
    (ofWorkspace (w.put place (bytes ++ defaultLine)) policy severity).checkFiles files =
      Findings.withoutTargets (w.leadsTo place) <$>
        (ofWorkspace w policy severity).checkFiles files := by
  rw [checkFiles_eq_plainFiles, checkFiles_eq_plainFiles]
  exact plainFiles_of_repaired (repaired_put h) severity files

/-- A file that imports from itself and from another one, and that ends in an import without its
specifier, the start of a character and `\r`. -/
def sampleUnfinished : List UInt8 :=
  "import B from './b'\nimport C from './c'\nexport \x7b x\nimport D from ".toUTF8.toList ++
    [0xE2, 0x82, 0x0D]

def sampleRepair : Workspace where
  entries :=
    [(["w"], .directory),
      (["w", "a.js"], .file "import B from './b.js'\n".toUTF8.toList),
      (["w", "b.js"], .file sampleUnfinished),
      (["w", "c.js"], .file "export const x = 1".toUTF8.toList)]
  cwd := ⟨.root, ["w"]⟩

/-- Three reports, of which only the one on `c.js` is left. -/
theorem checkFiles_sampleRepair :
    let files : List Path := [⟨.relative, ["a.js"]⟩, ⟨.relative, ["b.js"]⟩]
    let before := (ofWorkspace sampleRepair .default "error").checkFiles files
    let targets := before.toOption.map fun f => f.diagnostics.map (·.target)
    sampleRepair.entryAt? ["w", "b.js"] = some (.file sampleUnfinished) ∧
      targets = some [some ⟨.root, ["w", "b.js"]⟩, some ⟨.root, ["w", "b.js"]⟩,
        some ⟨.root, ["w", "c.js"]⟩] ∧
      (ofWorkspace (sampleRepair.put ["w", "b.js"] (sampleUnfinished ++ defaultLine))
          .default "error").checkFiles files =
        Findings.withoutTargets (sampleRepair.leadsTo ["w", "b.js"]) <$> before := by
  intro files before targets
  have hfile : sampleRepair.entryAt? ["w", "b.js"] = some (.file sampleUnfinished) := by
    decide +kernel
  exact ⟨hfile, by decide +kernel, checkFiles_defaultLine hfile .default "error" files⟩

end Checker

end DefaultImports
