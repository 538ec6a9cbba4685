import DefaultImports.Proofs.Check.Outcome
import DefaultImports.Proofs.Report.Document

/-! What a run with `--json` leaves for its readers. Main statement: `runProgram_emits_document`. -/
namespace DefaultImports.Check

open CommandLine

variable {w : Workspace} {a : CheckArguments} {s : Settings} {r : RunResult} {f : Findings}
  {e : Environment} {words : List String} {text : String}

theorem run_of_runProgram (hwords : Request.ofWords words = .check a)
    (hrun : runProgram w e words = .ok r) :
    ∃ s, Settings.load w e (.ofString ".") = .ok s ∧ run w a s = .ok r := by
  simp only [runProgram, hwords] at hrun
  obtain ⟨s, hload, hrun⟩ := of_bind_eq_ok hrun
  exact ⟨s, of_mapError_eq_ok hload, hrun⟩

/-- The pass of a run over the files that it is given. -/
def pass (w : Workspace) (a : CheckArguments) (s : Settings) : Except Failure Findings :=
  (Checker.ofWorkspace w (applyArguments a s).cache (applyArguments a s).severity).checkFiles
    (filesGiven w a s)

theorem pass_eq_ok
    (h : Checker.plainFiles w (applyArguments a s).severity (filesGiven w a s) = .ok f) :
    pass w a s = .ok f := by
  rw [pass, Checker.checkFiles_eq_plainFiles, h]

/-- The whole text where the report belongs: what is in the file that is named for it, with nothing
printed beside it, or what is printed. -/
def Emits (a : CheckArguments) (r : RunResult) (text : String) : Prop :=
  match Settings.given a.output with
  | none => r.out = text
  | some file => r.out = "" ∧ r.workspace.readBytes (.ofString file) = .ok text.toUTF8.toList

/-- A printed report ends with a line break, a written one does not. -/
theorem emits_of_leaves (hcwd : w.cwd.hasNul = false) (h : Leaves w a text r) :
    Emits a r text ∨ Emits a r (text ++ "\n") := by
  unfold Leaves at h
  unfold Emits
  cases hfile : Settings.given a.output with
  | none =>
    rw [hfile] at h
    exact .inr h.1
  | some file =>
    rw [hfile] at h
    exact .inl ⟨h.1, Workspace.readBytes_write hcwd h.2⟩

/-- The findings as the document has them. -/
def ReportsJson (cwd : Path) (f : Findings) (text : String) : Prop :=
  ∃ summary, JsonValue.Document
    (.object [
      ("diagnostics", .list (f.diagnostics.map (Report.diagnosticJson cwd))),
      ("summary", .object summary)]) text.toList

theorem reportsJson_of_leaves (hcwd : w.cwd.hasNul = false) (hjson : a.json = true)
    (h : Leaves w a (report w a f) r) : ∃ text, Emits a r text ∧ ReportsJson w.cwd f text := by
  have hreport : report w a f = (Report.toJson w.cwd f).render := by
    rw [report, if_pos hjson, Report.json]
  have hdocument := JsonValue.document_render (Report.toJson w.cwd f)
  rw [hreport] at h
  rcases emits_of_leaves hcwd h with hemits | hemits
  · exact ⟨_, hemits, _, hdocument.1⟩
  · exact ⟨_, hemits, _, hdocument.2⟩

/-- A run with `--json` that ends with 0 or 1 emits one document, with the diagnostics of its files
and a summary, if it has files to check. Without files it ends with 0 and emits no document: it
prints nothing, or with `--verbose` a line of text, and writes no file. -/
theorem runProgram_emits_document {w : Workspace} {e : Environment} {words : List String}
    {a : CheckArguments} {r : RunResult} (hcwd : w.cwd.hasNul = false)
    (hwords : Request.ofWords words = .check a) (hjson : a.json = true)
    (hrun : runProgram w e words = .ok r) (hcode : r.code = 0 ∨ r.code = 1) :
    ∃ s, Settings.load w e (.ofString ".") = .ok s ∧
      if filesGiven w a s = [] then
        r.code = 0 ∧ r.out = (if a.verbose then "no files to check\n" else "") ∧ r.workspace = w
      else
        ∃ f text,
          pass w a s = .ok f ∧ Emits a r text ∧ ReportsJson w.cwd f text := by
  obtain ⟨s, hload, hrun⟩ := run_of_runProgram hwords hrun
  refine ⟨s, hload, ?_⟩
  cases outcome_of_run hrun with
  | nothing hpaths htwo hout hleft =>
    rw [htwo] at hcode
    omega
  | noFiles hpath hfiles hzero hout hleft =>
    rw [if_pos hfiles]
    exact ⟨hzero, hout, hleft⟩
  | reported f hpath hfiles hfound hcode hreport =>
    obtain ⟨text, hemits, hdocument⟩ := reportsJson_of_leaves hcwd hjson hreport
    rw [if_neg hfiles]
    exact ⟨f, text, pass_eq_ok hfound, hemits, hdocument⟩

/-- A directory with an import that is reported, and with a file that is hidden. -/
def sampleOptions : Workspace where
  entries :=
    [(["w"], .directory),
      (["w", "src"], .directory),
      (["w", "src", "a.js"], .file "import B from './b'\n".toUTF8.toList),
      (["w", "src", "b.js"], .file "export const x = 1\n".toUTF8.toList),
      (["w", "src", ".gitignore"], .file "b.js\n".toUTF8.toList)]
  cwd := ⟨.root, ["w"]⟩

/-- A document with a diagnostic, written to a file. -/
theorem runProgram_emits_document_sampleOptions :
    ∃ r, runProgram sampleOptions ⟨none, none, none, none⟩
        ["check", "--json", "--verbose", "-oreport.json", "src/a.js"] = .ok r ∧ r.code = 1 ∧
      r.out = "" ∧ ∃ f text,
        r.workspace.readBytes (.ofString "report.json") = .ok text.toUTF8.toList ∧
        ReportsJson sampleOptions.cwd f text := by
  let words := ["check", "--json", "--verbose", "-oreport.json", "src/a.js"]
  let a : CheckArguments :=
    { CheckArguments.default with
      paths := ["src/a.js"], json := true, verbose := true, output := some "report.json" }
  have hwords : Request.ofWords words = .check a := by decide +kernel
  have hone : (runProgram sampleOptions ⟨none, none, none, none⟩ words).map (·.code) = .ok 1 := by
    decide +kernel
  cases hrun : runProgram sampleOptions ⟨none, none, none, none⟩ words with
  | error err =>
    rw [hrun] at hone
    cases hone
  | ok r =>
    rw [hrun] at hone
    have hcode : r.code = 1 := Except.ok.inj hone
    obtain ⟨s, -, hreport⟩ := runProgram_emits_document (by decide) hwords rfl hrun (.inr hcode)
    split at hreport
    · exact absurd (hreport.1.symm.trans hcode) (by decide)
    · obtain ⟨f, text, -, hemits, hjson⟩ := hreport
      exact ⟨r, rfl, hcode, hemits.1, f, text, hemits.2, hjson⟩

/-- A directory without files. -/
def sampleEmpty : Workspace where
  entries := [(["w"], .directory)]
  cwd := ⟨.root, ["w"]⟩

/-- With nothing to check, `--json` leaves no document. -/
theorem runProgram_sampleEmpty :
    (runProgram sampleEmpty ⟨none, none, none, none⟩ ["check", "--json", "."]).map
      (fun r => (r.code, r.out)) = .ok (0, "") ∧
    (runProgram sampleEmpty ⟨none, none, none, none⟩ ["check", "--json", "--verbose", "."]).map
      (fun r => (r.code, r.out)) = .ok (0, "no files to check\n") ∧
    ∀ text ∈ ["", "no files to check\n"], ∀ fields,
      ¬ JsonValue.Document (.object fields) text.toList := by
  refine ⟨by decide +kernel, by decide +kernel, ?_⟩
  intro text htext fields hdocument
  have hbrace := JsonValue.brace_mem_of_object hdocument
  have hnone : ∀ text ∈ ["", "no files to check\n"], '\x7b' ∉ text.toList := by decide
  exact hnone text htext hbrace

end DefaultImports.Check
