import DefaultImports.Proofs.Binding.FirstLine
import DefaultImports.Proofs.Check.JsonReport
import DefaultImports.Proofs.Check.Origin
import DefaultImports.Proofs.Surface.NameShape

/-! The verdict of a run does not depend on how it is told, as long as it can be told: a text report
that shows a path with a raw byte breaks the run off. Main statement: `runProgram_verdict`. -/
namespace DefaultImports

namespace Workspace

variable {w : Workspace} {p : Path} {source : String}

/-- No text of a file has a character that stands for a raw byte of a name. -/
def KeepsApart (w : Workspace) : Prop :=
  ∀ place bytes, (place, Entry.file bytes) ∈ w.entries → w.Encodes (sourceText bytes)

theorem encodes_of_readSource (hapart : w.KeepsApart) (h : w.readSource p = .ok source) :
    w.Encodes source := by
  rw [readSource_eq_locate] at h
  cases hlocate : w.locate p with
  | error fault =>
    rw [hlocate] at h
    cases h
  | ok found =>
    obtain ⟨place, e⟩ := found
    rw [hlocate] at h
    cases e with
    | directory => cases h
    | file bytes =>
      obtain rfl := Except.ok.inj h
      exact hapart place bytes (mem_entries_of_entryAt? (entryAt?_of_locate hlocate))

end Workspace

namespace Binding

variable {b : Binding} {source : String} {file : Path}

/-- A bound name consists of characters of the text. -/
theorem name_subset (hb : b ∈ scan source file) : b.name.toList ⊆ source.toList := by
  obtain ⟨site, htext, -, rfl⟩ := exists_site_of_mem_scan hb
  intro c hc
  rw [Site.binding, String.toList_ofList] at hc
  rw [← htext, Site.start, Cursor.text, Site.rest]
  exact List.mem_append_right _ (List.mem_append_left _ hc)

end Binding

namespace Surface

variable {source : List Char} {name : String}

/-- A name consists of characters of the text. -/
theorem name_subset (h : name ∈ namesIn source) : name.toList ⊆ source := by
  rcases mem_namesIn.mp h with h | h
  · exact (isNameIn_of_mem_listedNames h).stands.subset
  · exact (isNameIn_of_mem_declaredNames h).stands.subset

end Surface

namespace Checker

variable {w : Workspace} {severity : String} {file : Path} {d : Diagnostic}

/-- Nothing but the path of its file can bring a raw byte into a diagnostic about an import. -/
theorem Origin.encodes (hapart : w.KeepsApart) (hseverity : w.Encodes severity)
    (hread : (w.readSource (w.absolute file)).isOk = true) (h : Origin w severity file d) :
    w.Encodes d.severity ∧ w.Encodes d.message := by
  have hoffered : ∀ name ∈ d.namedExports, w.Encodes name := by
    intro name hname c hc
    obtain ⟨target, source, -, hread, hname⟩ := h.offered hname
    exact Workspace.encodes_of_readSource hapart hread c (Surface.name_subset hname hc)
  cases h with
  | missing source b hsource hb hreports =>
    have hname : w.Encodes b.name := fun c hc =>
      Workspace.encodes_of_readSource hapart hsource c (Binding.name_subset hb hc)
    rw [hreports.severity, hreports.message]
    exact ⟨hseverity, Report.encodes_missingMessage hname hoffered⟩
  | unreadable e hfault heq =>
    rw [hfault] at hread
    cases hread

end Checker

namespace Check

open CommandLine

variable {w : Workspace} {a : CheckArguments} {s : Settings} {r : RunResult} {f : Findings}
  {e : Environment} {words : List String} {text : String}

/-- 2 if none of the paths is there, else 1 if there are diagnostics, and else 0. -/
def exitCode (w : Workspace) (paths : List String) (ds : List Diagnostic) : Nat :=
  if ∀ path ∈ paths, w.exists? (.ofString path) = false then 2 else if ds = [] then 0 else 1

/-- A text lists diagnostics in order and gives their number: as a JSON document if that is asked
for, and otherwise on lines. -/
def Lists (cwd : Path) (a : CheckArguments) (ds : List Diagnostic) (text : String) : Prop :=
  if a.json then
    ∃ summary, summary.lookup "issues_found" = some (.int ds.length) ∧
      text = (JsonValue.object [
        ("diagnostics", .list (ds.map (Report.diagnosticJson cwd))),
        ("summary", .object summary)]).render
  else
    ∃ summary, text = "\n".intercalate (ds.map (Report.diagnosticLine cwd a.absolute) ++
      Report.countLine ds.length :: summary)

theorem lists_report (w : Workspace) (a : CheckArguments) (f : Findings) :
    Lists w.cwd a f.diagnostics (report w a f) := by
  unfold Lists report
  split
  · exact ⟨_, rfl, rfl⟩
  · exact ⟨if a.verbose then Report.summaryLines f else [], by simp [Report.text, Report.textLines]⟩

/-- What a run reports and how it ends, by its findings. -/
theorem verdict_of_outcome (h : Outcome w a s r)
    (hf : Checker.plainFiles w (applyArguments a s).severity (filesGiven w a s) = .ok f) :
    r.code = exitCode w (givenPaths a) f.diagnostics ∧
      if filesGiven w a s = [] then Silent w r
      else ∃ text, Leaves w a text r ∧ Lists w.cwd a f.diagnostics text := by
  unfold exitCode
  cases h with
  | nothing hpaths hcode hout hleft =>
    rw [if_pos hpaths, if_pos (filesGiven_of_missing s hpaths)]
    exact ⟨hcode, Or.inl hout, hleft⟩
  | noFiles hpath hfiles hcode hout hleft =>
    have hthere : ¬ ∀ path ∈ givenPaths a, w.exists? (.ofString path) = false := by
      simpa using hpath
    rw [hfiles] at hf
    obtain rfl := Except.ok.inj hf
    rw [if_neg hthere, if_pos hfiles]
    refine ⟨hcode, ?_, hleft⟩
    rw [hout]
    cases a.verbose
    · exact Or.inl rfl
    · exact Or.inr rfl
  | reported g hpath hfiles hfound hcode hreport =>
    have hthere : ¬ ∀ path ∈ givenPaths a, w.exists? (.ofString path) = false := by
      simpa using hpath
    obtain rfl : f = g := Except.ok.inj (hf.symm.trans hfound)
    rw [if_neg hthere, if_neg hfiles]
    exact ⟨hcode, _, hreport, lists_report w a f⟩

/-- The arguments ask for the same check, perhaps told in another way. -/
structure SameCheck (a b : CheckArguments) : Prop where
  paths : a.paths = b.paths
  includeIgnored : a.includeIgnored = b.includeIgnored
  severity : a.severity = b.severity

theorem SameCheck.givenPaths_eq {b : CheckArguments} (h : SameCheck a b) :
    givenPaths a = givenPaths b := by
  rw [givenPaths, givenPaths, h.paths]

theorem SameCheck.respectIgnores_eq {b : CheckArguments} (h : SameCheck a b) (s : Settings) :
    (applyArguments a s).respectIgnores = (applyArguments b s).respectIgnores := by
  simp only [applyArguments, h.includeIgnored]

theorem SameCheck.severity_eq {b : CheckArguments} (h : SameCheck a b) (s : Settings) :
    (applyArguments a s).severity = (applyArguments b s).severity := by
  simp only [applyArguments, h.severity]

theorem SameCheck.filesGiven_eq {b : CheckArguments} (h : SameCheck a b) (w : Workspace)
    (s : Settings) : filesGiven w a s = filesGiven w b s := by
  have hfiles : filesOf w (applyArguments a s) = filesOf w (applyArguments b s) := by
    funext path
    simp only [filesOf, h.respectIgnores_eq s]
    rfl
  rw [filesGiven, filesGiven, hfiles, h.givenPaths_eq]

/-! ## Reports that can be told -/

/-- A report can be written: it is a JSON document, or no path that it shows has a raw byte. -/
def Showable (w : Workspace) (a : CheckArguments) (f : Findings) : Prop :=
  a.json = true ∨ ∀ d ∈ f.diagnostics, w.Encodes (Report.pathText w.cwd a.absolute d.file)

theorem encodes_report_iff (ht : w.IsTree) (hcwd : w.cwd.isAbsolute = true)
    (hapart : w.KeepsApart) (hseverity : (applyArguments a s).severity ∈ Settings.severities)
    (hf : Checker.plainFiles w (applyArguments a s).severity (filesGiven w a s) = .ok f) :
    w.Encodes (report w a f) ↔ Showable w a f := by
  have hknown : ∀ severity ∈ Settings.severities, JsonValue.Plain severity := by decide
  have hencodes : ∀ d ∈ f.diagnostics, w.Encodes d.severity ∧ w.Encodes d.message := by
    intro d hd
    obtain ⟨file, hfile, horigin⟩ := Checker.origin_of_mem_plainFiles hcwd hf hd
    obtain ⟨place, bytes, hlocate⟩ := locate_of_mem_filesGiven ht hfile
    refine horigin.encodes hapart (Workspace.encodes_of_plain (hknown _ hseverity)) ?_
    rw [Workspace.readSource_eq_locate, Workspace.locate_absolute hcwd, hlocate]
    rfl
  unfold report Showable
  cases a.json with
  | true => simp [Report.encodes_json]
  | false => simpa using Report.encodes_text a.verbose hencodes

/-- How a run ends whose pass has the findings `f`. -/
inductive Ends (w : Workspace) (a : CheckArguments) (s : Settings) (f : Findings) :
    Except RunError RunResult → Prop where
  /-- There is no file to check. -/
  | silent {r : RunResult} (hfiles : filesGiven w a s = [])
      (hcode : r.code = exitCode w (givenPaths a) f.diagnostics) (hsilent : Silent w r) :
      Ends w a s f (.ok r)
  /-- The findings are told. -/
  | told {r : RunResult} {text : String} (hfiles : filesGiven w a s ≠ [])
      (hshowable : Showable w a f) (hcode : r.code = exitCode w (givenPaths a) f.diagnostics)
      (hleaves : Leaves w a text r) (hlists : Lists w.cwd a f.diagnostics text) :
      Ends w a s f (.ok r)
  /-- The findings cannot be told, for the first stretch of raw bytes in their report. -/
  | broken {fault : Utf8.EncodeFault} {left : Workspace} (hfiles : filesGiven w a s ≠ [])
      (hshowable : ¬ Showable w a f)
      (hfault : Utf8.FirstStretch w.rawByte? (report w a f).toList fault)
      (hleft : Opens w a left) : Ends w a s f (.error (.encoding fault left))

theorem ends_run (ht : w.IsTree) (hcwd : w.cwd.isAbsolute = true) (hapart : w.KeepsApart)
    (hseverity : (applyArguments a s).severity ∈ Settings.severities)
    (haccess : Accessible w (applyArguments a s) (givenPaths a)) (hwrite : Writable w a)
    (hf : Checker.plainFiles w (applyArguments a s).severity (filesGiven w a s) = .ok f) :
    Ends w a s f (run w a s) := by
  have hrun := run_eq_deliver ht haccess hf
  by_cases hfiles : filesGiven w a s = []
  · rw [if_pos hfiles] at hrun
    obtain ⟨r, hr⟩ := hrun
    obtain ⟨hcode, hsilent⟩ := verdict_of_outcome (outcome_of_run hr) hf
    rw [if_pos hfiles] at hsilent
    rw [hr]
    exact .silent hfiles hcode hsilent
  · rw [if_neg hfiles] at hrun
    obtain ⟨err, hrun⟩ := hrun
    have hshow := encodes_report_iff ht hcwd hapart hseverity hf
    cases hencode : w.encode (report w a f) with
    | ok bytes =>
      have hencodes := (Workspace.encode_eq_ok_iff.mp hencode).1
      obtain ⟨r, hr⟩ := exists_deliver hwrite hencodes err
      replace hr := hrun.trans hr
      obtain ⟨hcode, htold⟩ := verdict_of_outcome (outcome_of_run hr) hf
      rw [if_neg hfiles] at htold
      obtain ⟨text, hleaves, hlists⟩ := htold
      rw [hr]
      exact .told hfiles (hshow.mp hencodes) hcode hleaves hlists
    | error fault =>
      obtain ⟨left, hdeliver, hleft⟩ := deliver_of_fault hwrite hencode err
      rw [hrun, hdeliver]
      refine .broken hfiles ?_ (Workspace.encode_eq_error_iff.mp hencode) hleft
      intro hshowable
      rw [Workspace.encode_eq_ok_iff.mpr ⟨hshow.mpr hshowable, rfl⟩] at hencode
      cases hencode

theorem Ends.code_eq (h : Ends w a s f (.ok r)) :
    r.code = exitCode w (givenPaths a) f.diagnostics := by
  cases h with
  | silent hfiles hcode => exact hcode
  | told hfiles hshowable hcode => exact hcode

/-- A run that is to write JSON always comes to an end. -/
theorem Ends.json {x : Except RunError RunResult} (h : Ends w a s f x) (hjson : a.json = true) :
    ∃ r, x = .ok r ∧ r.code = exitCode w (givenPaths a) f.diagnostics := by
  cases h with
  | silent hfiles hcode => exact ⟨_, rfl, hcode⟩
  | told hfiles hshowable hcode => exact ⟨_, rfl, hcode⟩
  | broken hfiles hshowable => exact absurd (.inl hjson) hshowable

/-- Two command lines that differ only in how the check is told, that is in `--json`, `--verbose`,
`--absolute`, `--no-cache`, `--debug` and `--output`, lead to runs over the same files with the same
findings, whatever the cache. A run that comes to an end has the code that these findings ask for,
and unless there is nothing to check it reports them all, in order and with their number; so two
runs that come to an end agree. With `--json` a run always comes to an end. With a text report it
breaks off iff a path in the report has a byte that is not UTF-8: it leaves no report then, but the
file that is named for it, empty. -/
theorem runProgram_verdict {w : Workspace} {e : Environment} {s : Settings}
    {words₁ words₂ : List String} {a₁ a₂ : CheckArguments} (htree : w.IsTree)
    (hcwd : w.cwd.isAbsolute = true) (hapart : w.KeepsApart)
    (hload : Settings.load w e (.ofString ".") = .ok s)
    (hwords₁ : Request.ofWords words₁ = .check a₁) (hwords₂ : Request.ofWords words₂ = .check a₂)
    (hsame : SameCheck a₁ a₂) (haccess : Accessible w (applyArguments a₁ s) (givenPaths a₁))
    (hwrite₁ : Writable w a₁) (hwrite₂ : Writable w a₂) :
    ∃ f,
      (∀ policy, (Checker.ofWorkspace w policy (applyArguments a₁ s).severity).checkFiles
        (filesGiven w a₁ s) = .ok f) ∧
      Ends w a₁ s f (runProgram w e words₁) ∧ Ends w a₂ s f (runProgram w e words₂) ∧
      ∀ r₁ r₂, runProgram w e words₁ = .ok r₁ → runProgram w e words₂ = .ok r₂ →
        r₁.code = r₂.code := by
  obtain ⟨f, hf₁⟩ := exists_findings htree a₁ s
  have hf₂ : Checker.plainFiles w (applyArguments a₂ s).severity (filesGiven w a₂ s) = .ok f := by
    rw [← hsame.severity_eq, ← hsame.filesGiven_eq, hf₁]
  have haccess₂ : Accessible w (applyArguments a₂ s) (givenPaths a₂) := by
    rw [← hsame.givenPaths_eq]
    exact ⟨haccess.probed, fun hrespect => haccess.usable (hsame.respectIgnores_eq s ▸ hrespect)⟩
  have hends₁ : Ends w a₁ s f (runProgram w e words₁) := by
    rw [runProgram_eq_run hwords₁ hload]
    exact ends_run htree hcwd hapart (severity_of_chosen hwords₁ hload) haccess hwrite₁ hf₁
  have hends₂ : Ends w a₂ s f (runProgram w e words₂) := by
    rw [runProgram_eq_run hwords₂ hload]
    exact ends_run htree hcwd hapart (severity_of_chosen hwords₂ hload) haccess₂ hwrite₂ hf₂
  refine ⟨f, ?_, hends₁, hends₂, ?_⟩
  · intro policy
    rw [Checker.checkFiles_eq_plainFiles, hf₁]
  · intro r₁ r₂ hr₁ hr₂
    rw [hr₁] at hends₁
    rw [hr₂] at hends₂
    rw [hends₁.code_eq, hends₂.code_eq, hsame.givenPaths_eq]

/-- A directory with an import that is reported, in a file whose name is the byte FF and `.js`. -/
def sampleRaw : Workspace where
  entries :=
    [(["w"], .directory),
      (["w", "\ue07f.js"], .file "import B from './b'\n".toUTF8.toList),
      (["w", "b.js"], .file "export const x = 1\n".toUTF8.toList)]
  cwd := ⟨.root, ["w"]⟩
  raw := some ⟨0xE000, by decide, by decide⟩

theorem keepsApart_sampleRaw : sampleRaw.KeepsApart := by
  have htexts :
      (["import B from './b'\n", "export const x = 1\n"].map (·.toUTF8.toList)).all (fun bytes =>
        (Workspace.sourceText bytes).toList.all fun c => (sampleRaw.rawByte? c).isNone) = true := by
    decide +kernel
  simp only [List.all_eq_true, Option.isNone_iff_eq_none] at htexts
  intro place bytes hmem
  apply htexts
  simp only [sampleRaw, List.mem_cons, Prod.mk.injEq, Entry.file.injEq, List.not_mem_nil, or_false,
    reduceCtorEq, and_false, false_or] at hmem
  rcases hmem with ⟨-, rfl⟩ | ⟨-, rfl⟩ <;> simp

def rawArguments : CheckArguments := { CheckArguments.default with paths := ["\ue07f.js"] }

theorem ofWords_rawJson :
    Request.ofWords ["check", "--json", "\ue07f.js"] = .check { rawArguments with json := true } := by
  decide +kernel

theorem accessible_sampleRaw (s : Settings) : Accessible sampleRaw s ["\ue07f.js"] :=
  ⟨by decide +kernel, fun _ _ _ top _ => IgnoreTree.usable_of_entries (by decide +kernel) top⟩

/-- With a JSON document the run ends, and with lines in a file it ends or breaks off. -/
theorem runProgram_verdict_sampleRaw :
    let lines : CheckArguments := { rawArguments with debug := true, output := some "report.txt" }
    ∃ (s : Settings) (f : Findings) (r : RunResult),
      runProgram sampleRaw ⟨none, none, none, none⟩ ["check", "--json", "\ue07f.js"] = .ok r ∧
      r.code = exitCode sampleRaw ["\ue07f.js"] f.diagnostics ∧
      Ends sampleRaw lines s f (runProgram sampleRaw ⟨none, none, none, none⟩
        ["check", "--debug", "-oreport.txt", "\ue07f.js"]) := by
  intro lines
  have hlines : Request.ofWords ["check", "--debug", "-oreport.txt", "\ue07f.js"] = .check lines := by
    decide +kernel
  obtain ⟨s, hload⟩ : ∃ s, Settings.load sampleRaw ⟨none, none, none, none⟩ (.ofString ".") =
      .ok s := ⟨_, rfl⟩
  obtain ⟨f, -, hjson, hends, -⟩ :=
    runProgram_verdict (by decide +kernel) (by decide) keepsApart_sampleRaw hload ofWords_rawJson
      hlines ⟨rfl, rfl, rfl⟩ (accessible_sampleRaw _) (by decide +kernel) (by decide +kernel)
  obtain ⟨r, hr, hcode⟩ := hjson.json rfl
  exact ⟨s, f, r, hr, hcode, hends⟩

/-- The exit code is 1 with a JSON document, and there is none with a text report. -/
theorem runProgram_sampleRaw :
    (runProgram sampleRaw ⟨none, none, none, none⟩ ["check", "--json", "\ue07f.js"]).map (·.code) =
      .ok 1 ∧
    (runProgram sampleRaw ⟨none, none, none, none⟩ ["check", "\ue07f.js"]).map (·.code) =
      .error (.encoding ⟨0, 0xFF, 1⟩ sampleRaw) ∧
    (runProgram sampleRaw ⟨none, none, none, none⟩ ["check", "-oreport.txt", "\ue07f.js"]).map (·.code) =
      .error (.encoding ⟨0, 0xFF, 1⟩ (sampleRaw.put ["w", "report.txt"] [])) := by
  refine ⟨?_, by decide +kernel, by decide +kernel⟩
  let a : CheckArguments := { rawArguments with json := true }
  obtain ⟨s, hload, hfound⟩ : ∃ s,
      Settings.load sampleRaw ⟨none, none, none, none⟩ (.ofString ".") = .ok s ∧
      (Checker.plainFiles sampleRaw (applyArguments a s).severity (filesGiven sampleRaw a s)).map
        (fun f => exitCode sampleRaw ["\ue07f.js"] f.diagnostics) = .ok 1 :=
    ⟨(Settings.default ⟨.root, ["w"]⟩).merge
      (.ofEnvironment ⟨.root, ["w"]⟩ ⟨none, none, none, none⟩), rfl, by decide +kernel⟩
  rw [runProgram_eq_run ofWords_rawJson hload]
  cases hf : Checker.plainFiles sampleRaw (applyArguments a s).severity
      (filesGiven sampleRaw a s) with
  | error err =>
    rw [hf] at hfound
    cases hfound
  | ok f =>
    rw [hf] at hfound
    have hends := ends_run (by decide +kernel) (by decide) keepsApart_sampleRaw
      (severity_of_chosen ofWords_rawJson hload) (accessible_sampleRaw _) (by decide +kernel) hf
    obtain ⟨r, hr, hcode⟩ := hends.json rfl
    rw [hr]
    exact congrArg Except.ok (hcode.trans (Except.ok.inj hfound))

end Check

end DefaultImports
