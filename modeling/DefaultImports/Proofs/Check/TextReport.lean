import DefaultImports.Proofs.Binding.FirstLine
import DefaultImports.Proofs.Check.JsonReport
import DefaultImports.Proofs.Check.Origin
import DefaultImports.Proofs.Report.Lines
import DefaultImports.Proofs.Surface.NameShape

/-! The lines that a run reports its diagnostics on. An entry of a brace list may go over several
lines, and then so does a diagnostic that offers it as a name. Main statement:
`runProgram_text_lines`. -/
namespace DefaultImports

open Text

namespace Surface

variable {source : List Char} {name : String}

/-- Only a brace list can give a name with a line break. -/
theorem mem_listedNames_of_break (h : name ∈ namesIn source) (hbreak : '\n' ∈ name.toList) :
    name ∈ listedNames source := by
  rcases mem_namesIn.mp h with h | h
  · exact h
  · obtain ⟨run, rfl, -⟩ := exists_run_of_mem_declaredNames h
    rw [String.toList_ofList] at hbreak
    exact absurd (run.all '\n' hbreak) (by decide)

end Surface

namespace Binding

variable {b : Binding} {source : String} {file : Path}

theorem break_notMem_name (hb : b ∈ scan source file) : '\n' ∉ b.name.toList := by
  obtain ⟨site, -, -, rfl⟩ := exists_site_of_mem_scan hb
  intro hbreak
  rw [Site.binding, String.toList_ofList] at hbreak
  exact absurd (site.name.all '\n' hbreak) (by decide)

end Binding

namespace Checker

variable {w : Workspace} {severity : String} {file : Path} {d : Diagnostic}

theorem Origin.brokenByNames {absolute : Bool} (hcwd : w.cwd.isAbsolute = true)
    (hpath : '\n' ∉ (Report.pathText w.cwd absolute file).toList)
    (hseverity : '\n' ∉ severity.toList) (h : Origin w severity file d) :
    Report.BrokenByNames w.cwd absolute d := by
  rw [← pathText_absolute hcwd] at hpath
  cases h with
  | missing source b hread hb hreports =>
    constructor
    case path => rwa [hreports.file, Binding.file_of_mem_scan hb]
    case severity => rwa [hreports.severity]
    case message =>
      rw [hreports.message, Report.breaks_missingMessage (Binding.break_notMem_name hb)]
      rfl
  | unreadable e hread heq =>
    subst heq
    have hlevel : '\n' ∉ "error".toList := by decide
    refine ⟨hpath, hlevel, ?_⟩
    rw [Diagnostic.unreadable, breaks_append, PathError.breaks_message]
    rfl

/-- A broken name is an entry of a brace list in the text of the target. -/
theorem Origin.listed (h : Origin w severity file d) {name : String} (hname : name ∈ d.namedExports)
    (hbreak : '\n' ∈ name.toList) :
    ∃ target source, d.target = some target ∧ w.readSource target = .ok source ∧
      name ∈ Surface.listedNames source.toList := by
  obtain ⟨target, source, htarget, hread, hname⟩ := h.offered hname
  exact ⟨target, source, htarget, hread, Surface.mem_listedNames_of_break hname hbreak⟩

end Checker

namespace Check

open CommandLine

/-- A run that is neither verbose nor to write JSON, over files whose paths as they are shown have
no line break, leaves the diagnostics of its files one below the other and then their number. That
is one line for each diagnostic and one more, and besides one for each line break in the names that
the diagnostics offer. So each diagnostic is on a line of its own iff none of these names is broken,
and a broken one is an entry of a brace list in the text of the target. -/
theorem runProgram_text_lines {w : Workspace} {e : Environment} {words : List String}
    {a : CheckArguments} {s : Settings} {r : RunResult} (hcwd : w.cwd.isAbsolute = true)
    (hwords : Request.ofWords words = .check a) (hjson : a.json = false)
    (hverbose : a.verbose = false) (hload : Settings.load w e (.ofString ".") = .ok s)
    (hrun : runProgram w e words = .ok r) (hfiles : filesGiven w a s ≠ [])
    (hpaths : ∀ file ∈ filesGiven w a s,
      '\n' ∉ (Report.pathText w.cwd a.absolute file).toList) :
    ∃ f text, pass w a s = .ok f ∧ Leaves w a text r ∧
      (lines text.toList).length =
        f.diagnostics.length + 1 + (f.diagnostics.map Report.nameBreaks).sum ∧
      (lines text.toList =
          (f.diagnostics.map fun d => (Report.diagnosticLine w.cwd a.absolute d).toList) ++
            [(Report.countLine f.diagnostics.length).toList] ↔
        ∀ d ∈ f.diagnostics, ∀ name ∈ d.namedExports, '\n' ∉ name.toList) ∧
      ∀ d ∈ f.diagnostics, ∀ name ∈ d.namedExports, '\n' ∈ name.toList →
        ∃ target source, d.target = some target ∧ w.readSource target = .ok source ∧
          name ∈ Surface.listedNames source.toList := by
  rw [runProgram_eq_run hwords hload] at hrun
  have hseverity : '\n' ∉ (applyArguments a s).severity.toList := by
    have hknown : ∀ severity ∈ Settings.severities, '\n' ∉ severity.toList := by decide
    exact hknown _ (severity_of_chosen hwords hload)
  cases outcome_of_run hrun with
  | nothing hpaths => exact absurd (filesGiven_of_missing s hpaths) hfiles
  | noFiles hpath hnone => exact absurd hnone hfiles
  | reported f hpath hsome hfound hcode hreport =>
    have horigin : ∀ d ∈ f.diagnostics, ∃ file ∈ filesGiven w a s,
        Checker.Origin w (applyArguments a s).severity file d := fun d hd =>
      Checker.origin_of_mem_plainFiles hcwd hfound hd
    have hnames : ∀ d ∈ f.diagnostics, Report.BrokenByNames w.cwd a.absolute d := by
      intro d hd
      obtain ⟨file, hfile, horigin⟩ := horigin d hd
      exact horigin.brokenByNames hcwd (hpaths file hfile) hseverity
    have htext : report w a f = Report.text w.cwd a.absolute false f := by
      simp [report, hjson, hverbose]
    rw [htext] at hreport
    refine ⟨f, _, pass_eq_ok hfound, hreport, Report.length_lines_text hnames,
      Report.lines_text_eq_iff hnames, ?_⟩
    intro d hd name hname hbreak
    obtain ⟨file, -, horigin⟩ := horigin d hd
    exact horigin.listed hname hbreak

/-- An import of a module with a comment between the entries of its brace list. -/
def sampleEntries : Workspace where
  entries :=
    [(["w"], .directory),
      (["w", "a.js"], .file "import B from './b'\n".toUTF8.toList),
      (["w", "b.js"], .file
        "const a = 1, b = 2\nexport \x7b\n  a, // first\n  b,\n\x7d\n".toUTF8.toList)]
  cwd := ⟨.root, ["w"]⟩

theorem runProgram_text_lines_sampleEntries :
    let words := ["check", "--absolute", "a.js"]
    let a : CheckArguments := { CheckArguments.default with paths := ["a.js"], absolute := true }
    sampleEntries.cwd.isAbsolute = true ∧ Request.ofWords words = .check a ∧
      ∃ s r f text, Settings.load sampleEntries ⟨none, none, none, none⟩ (.ofString ".") = .ok s ∧
        runProgram sampleEntries ⟨none, none, none, none⟩ words = .ok r ∧
        filesGiven sampleEntries a s = [.ofString "a.js"] ∧ pass sampleEntries a s = .ok f ∧
        r.out = text ++ "\n" ∧
        (lines text.toList).length =
          f.diagnostics.length + 1 + (f.diagnostics.map Report.nameBreaks).sum := by
  intro words a
  have hcwd : sampleEntries.cwd.isAbsolute = true := by decide
  have hwords : Request.ofWords words = .check a := by decide +kernel
  obtain ⟨s, hload⟩ : ∃ s, Settings.load sampleEntries ⟨none, none, none, none⟩ (.ofString ".") =
      .ok s := ⟨_, rfl⟩
  have hfiles : filesGiven sampleEntries a s = [.ofString "a.js"] := rfl
  have hok : (runProgram sampleEntries ⟨none, none, none, none⟩ words).isOk = true := by
    decide +kernel
  cases hrun : runProgram sampleEntries ⟨none, none, none, none⟩ words with
  | error err =>
    rw [hrun] at hok
    cases hok
  | ok r =>
    obtain ⟨f, text, hpass, hleaves, hlength, -⟩ :=
      runProgram_text_lines hcwd hwords rfl rfl hload hrun (by simp [hfiles])
        (by rw [hfiles]; decide +kernel)
    exact ⟨hcwd, hwords, s, r, f, text, hload, rfl, hfiles, hpass, hleaves.1, hlength⟩

/-- One diagnostic on two lines: a comment is taken for a part of a name. -/
theorem runProgram_sampleEntries :
    (runProgram sampleEntries ⟨none, none, none, none⟩ ["check", "a.js"]).map
      (fun r => (r.code, lines r.out.toList)) = .ok (1, [
        "a.js:1:7: error: Default import 'B' not found. Available named exports: a, // first",
        "  b [no-default-export]", "1 issue found", ""].map String.toList) ∧
    (do
      let s ← (Settings.load sampleEntries ⟨none, none, none, none⟩ (.ofString ".")).toOption
      let f ← (pass sampleEntries { CheckArguments.default with paths := ["a.js"] } s).toOption
      return f.diagnostics.length) = some 1 := by
  decide +kernel

end Check

end DefaultImports
