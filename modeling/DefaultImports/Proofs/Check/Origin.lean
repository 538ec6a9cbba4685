import DefaultImports.Proofs.Check.Footprint
import DefaultImports.Proofs.Check.Outcome
import DefaultImports.Proofs.Check.Report
import DefaultImports.Proofs.Check.Spelling
import DefaultImports.Proofs.Settings.Precedence

/-! What the diagnostics of a run come from: imports in the files that it checks, names in the
texts of their targets, and the severity of its settings. Main statements:
`origin_of_mem_plainFiles` and `severity_of_chosen`. -/
namespace DefaultImports

namespace Settings

variable {w : Workspace} {e : Environment} {root : Path} {s : Settings}

/-- Settings are loaded only from files that can be made sense of. -/
theorem exists_contents (h : load w e root = .ok s) :
    ∃ dir shared own, Contents w root dir shared own := by
  obtain ⟨dir, hdir, h⟩ := of_bind_eq_ok h
  obtain ⟨fromShared, hshared, h⟩ := of_bind_eq_ok h
  obtain ⟨fromOwn, hown, -⟩ := of_bind_eq_ok h
  obtain ⟨shared, hsharedFile, hshared⟩ := of_bind_eq_ok hshared
  obtain ⟨own, hownFile, -⟩ := of_bind_eq_ok hown
  refine ⟨dir, shared, own, of_mapError_eq_ok hdir, hsharedFile, hownFile, ?_⟩
  cases shared with
  | none => rfl
  | some t =>
    obtain ⟨tools, htools, -⟩ := of_bind_eq_ok hshared
    rw [Option.bind_some]
    unfold toolTable? at htools
    split at htools
    · rename_i hnone
      rw [hnone]
      rfl
    · rename_i htable
      rw [htable]
      rfl
    · cases htools

theorem severity_of_load (h : load w e root = .ok s) : s.severity ∈ severities := by
  obtain ⟨dir, shared, own, hcontents⟩ := exists_contents h
  cases hwritable : filesWritable shared own with
  | false =>
    rw [load_of_not_writable hcontents hwritable] at h
    cases h
  | true =>
    obtain ⟨t, hload, hrecords⟩ := load_of_writable (e := e) hcontents hwritable
    obtain rfl : s = t := Except.ok.inj (h.symm.trans hload)
    exact accepted_value hrecords .severity

end Settings

namespace Checker

variable {w : Workspace} {severity : String} {file : Path} {files : List Path} {d : Diagnostic}
  {f : Findings}

/-- What a diagnostic about a file comes from: an import in its text, or that it has none. -/
inductive Origin (w : Workspace) (severity : String) (file : Path) (d : Diagnostic) : Prop where
  | missing (source : String) (b : Binding) (hread : w.readSource (w.absolute file) = .ok source)
      (hb : b ∈ Binding.scan source (w.absolute file)) (hreports : Reports w severity b d)
  | unreadable (e : PathError) (hread : w.readSource (w.absolute file) = .error e)
      (heq : d = .unreadable (w.absolute file) e)

theorem origin_of_mem_plainSource {source : String} (hcwd : w.cwd.isAbsolute = true)
    (hread : w.readSource (w.absolute file) = .ok source)
    (hd : d ∈ (plainSource w severity source (w.absolute file)).diagnostics) :
    Origin w severity file d := by
  cases hdis : (Suppression.ofSource source).fileDisabled with
  | true =>
    rw [plainSource_of_disabled w severity _ hdis] at hd
    cases hd
  | false =>
    rw [plainSource_of_not_disabled w severity _ hdis, Workspace.absolute_absolute hcwd] at hd
    obtain ⟨b, hb, hreport⟩ := List.mem_filterMap.mp hd
    cases hreported : b.isReported w source with
    | false =>
      rw [report?_eq_none hdis hb hreported] at hreport
      cases hreport
    | true =>
      obtain ⟨d', hd', hreports⟩ := report?_eq_some severity hdis hb hreported
      obtain rfl : d' = d := Option.some.inj (hd'.symm.trans hreport)
      exact .missing source b hread hb hreports

theorem origin_of_mem_plainFile (hcwd : w.cwd.isAbsolute = true)
    (h : plainFile w severity file = .ok f) (hd : d ∈ f.diagnostics) :
    Origin w severity file d := by
  unfold plainFile at h
  dsimp only at h
  split at h
  · rename_i source hread
    obtain rfl := Except.ok.inj h
    exact origin_of_mem_plainSource hcwd hread hd
  · cases h
  · rename_i e _ hread
    obtain rfl := Except.ok.inj h
    exact .unreadable e hread (List.mem_singleton.mp hd)

theorem origin_of_mem_plainFiles (hcwd : w.cwd.isAbsolute = true)
    (h : plainFiles w severity files = .ok f) (hd : d ∈ f.diagnostics) :
    ∃ file ∈ files, Origin w severity file d := by
  induction files generalizing f with
  | nil =>
    obtain rfl := Except.ok.inj h
    cases hd
  | cons file rest ih =>
    obtain ⟨first, hfirst, h⟩ := of_bind_eq_ok h
    obtain ⟨others, hothers, h⟩ := of_bind_eq_ok h
    obtain rfl := Except.ok.inj h
    rcases List.mem_append.mp hd with hd | hd
    · exact ⟨file, List.mem_cons_self, origin_of_mem_plainFile hcwd hfirst hd⟩
    · obtain ⟨other, hother, horigin⟩ := ih hothers hd
      exact ⟨other, List.mem_cons_of_mem file hother, horigin⟩

theorem pathText_absolute (hcwd : w.cwd.isAbsolute = true) (absolute : Bool) (file : Path) :
    Report.pathText w.cwd absolute (w.absolute file) = Report.pathText w.cwd absolute file := by
  have hjoin : w.cwd.join (w.absolute file) = w.cwd.join file :=
    Workspace.absolute_absolute hcwd file
  simp only [Report.pathText, hjoin]

/-- A name that a diagnostic offers is one of those in the text of its target. -/
theorem Origin.offered (h : Origin w severity file d) {name : String}
    (hname : name ∈ d.namedExports) :
    ∃ target source, d.target = some target ∧ w.readSource target = .ok source ∧
      name ∈ Surface.namesIn source.toList := by
  cases h with
  | missing source b hread hb hreports =>
    rw [hreports.namedExports] at hname
    rw [hreports.target]
    unfold Binding.exports at hname
    cases hfound : b.found? w with
    | none =>
      rw [hfound] at hname
      cases hname
    | some target =>
      simp only [hfound, Surface.read] at hname
      cases hreadTarget : w.readSource target with
      | error e =>
        rw [hreadTarget] at hname
        cases hname
      | ok text =>
        rw [hreadTarget] at hname
        exact ⟨target, text, rfl, hreadTarget, hname⟩
  | unreadable e hread heq =>
    subst heq
    cases hname

end Checker

namespace Check

open CommandLine

variable {w : Workspace} {e : Environment} {words : List String} {a : CheckArguments}
  {s : Settings}

theorem severity_of_chosen (hwords : Request.ofWords words = .check a)
    (hload : Settings.load w e (.ofString ".") = .ok s) :
    (applyArguments a s).severity ∈ Settings.severities := by
  change a.severity.getD s.severity ∈ Settings.severities
  cases ha : a.severity with
  | none => exact Settings.severity_of_load hload
  | some severity => exact chosen_ofWords hwords severity ha

end Check

end DefaultImports
