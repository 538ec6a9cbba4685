import DefaultImports.Proofs.Check.Pass
import DefaultImports.Proofs.Check.Selection
import DefaultImports.Proofs.Report.Encoding

/-! What a run can come to, and when it breaks off. Main statements: `outcome_of_run` and
`run_eq_deliver`. -/
namespace DefaultImports

namespace Checker

variable {w : Workspace} {severity : String} {file : Path} {files : List Path}

/-- Reading a path without a NUL never fails for a NUL. -/
theorem readSource_ne_nulCharacter (h : (w.cwd.join file).hasNul = false) (p : Path) :
    w.readSource (w.absolute file) ≠ .error ⟨.nulCharacter, p⟩ := by
  have hfull : (w.cwd.join (w.absolute file)).hasNul = false := by
    unfold Workspace.absolute Path.join at *
    split at h
    · dsimp only
      split
      · simp only [Path.hasNul, List.any_append, Bool.or_eq_false_iff] at h ⊢
        exact ⟨h.1, h⟩
      · exact h
    · split
      · contradiction
      · exact h
  have hwalk := w.walk_ne_nulCharacter [] .directory (w.cwd.join (w.absolute file)).parts
  simp only [Workspace.readSource, Workspace.readBytes, Workspace.entry, hfull,
    Bool.false_eq_true, if_false]
  cases hfound : w.walk [] .directory (w.cwd.join (w.absolute file)).parts with
  | error fault =>
    rw [hfound] at hwalk
    rintro h
    cases h
    exact hwalk rfl
  | ok found =>
    obtain ⟨place, e⟩ := found
    cases e <;> simp [Functor.map, Except.map]

/-- A pass over paths without a NUL has findings. -/
theorem exists_plainFiles (severity : String)
    (h : ∀ file ∈ files, (w.cwd.join file).hasNul = false) :
    ∃ f, plainFiles w severity files = .ok f := by
  induction files with
  | nil => exact ⟨_, rfl⟩
  | cons file rest ih =>
    have hfile : ∃ f, plainFile w severity file = .ok f := by
      unfold plainFile
      dsimp only
      split
      · exact ⟨_, rfl⟩
      · rename_i p hread
        exact absurd hread (readSource_ne_nulCharacter (h file List.mem_cons_self) p)
      · exact ⟨_, rfl⟩
    obtain ⟨f, hf⟩ := hfile
    obtain ⟨g, hg⟩ := ih fun other hother => h other (List.mem_cons_of_mem _ hother)
    simp only [plainFiles, hf, hg]
    exact ⟨_, rfl⟩

end Checker

namespace Check

open CommandLine

variable {w : Workspace} {a : CheckArguments} {s : Settings} {r : RunResult} {f : Findings}
  {e : Environment} {words : List String} {text : String}

/-- The files that a run checks. -/
def filesGiven (w : Workspace) (a : CheckArguments) (s : Settings) : List Path :=
  (givenPaths a).flatMap (filesOf w (applyArguments a s))

/-- A run leaves a text as its report: in the file that is named for it, or printed. -/
def Leaves (w : Workspace) (a : CheckArguments) (text : String) (r : RunResult) : Prop :=
  match Settings.given a.output with
  | none => r.out = text ++ "\n" ∧ r.workspace = w
  | some file => r.out = "" ∧ w.write (.ofString file) text.toUTF8.toList = .ok r.workspace

/-- A run leaves no report; it may say that there is nothing to check. -/
def Silent (w : Workspace) (r : RunResult) : Prop :=
  (r.out = "" ∨ r.out = "no files to check\n") ∧ r.workspace = w

/-- What a run can come to. -/
inductive Outcome (w : Workspace) (a : CheckArguments) (s : Settings) (r : RunResult) : Prop where
  /-- None of the paths is there. -/
  | nothing (hpaths : ∀ path ∈ givenPaths a, w.exists? (.ofString path) = false)
      (hcode : r.code = 2) (hout : r.out = "") (hleft : r.workspace = w)
  /-- The paths that are there hold no file to check. -/
  | noFiles (hpath : ∃ path ∈ givenPaths a, w.exists? (.ofString path) = true)
      (hfiles : filesGiven w a s = []) (hcode : r.code = 0)
      (hout : r.out = if a.verbose then "no files to check\n" else "") (hleft : r.workspace = w)
  | reported (f : Findings) (hpath : ∃ path ∈ givenPaths a, w.exists? (.ofString path) = true)
      (hfiles : filesGiven w a s ≠ [])
      (hfound : Checker.plainFiles w (applyArguments a s).severity (filesGiven w a s) = .ok f)
      (hcode : r.code = if f.diagnostics = [] then 0 else 1)
      (hreport : Leaves w a (report w a f) r) (hencodes : w.Encodes (report w a f))

theorem deliver_eq_ok {err : String} (h : deliver w a err f = .ok r) :
    r.code = (if f.diagnostics = [] then 0 else 1) ∧ Leaves w a (report w a f) r ∧
      w.Encodes (report w a f) := by
  unfold deliver at h
  unfold Leaves
  cases hfile : Settings.given a.output with
  | none =>
    simp only [hfile] at h
    obtain ⟨bytes, hbytes, h⟩ := of_bind_eq_ok h
    obtain rfl := Except.ok.inj h
    exact ⟨by simp, ⟨rfl, rfl⟩, (Workspace.encode_eq_ok_iff.mp (of_mapError_eq_ok hbytes)).1⟩
  | some file =>
    simp only [hfile] at h
    obtain ⟨opened, -, h⟩ := of_bind_eq_ok h
    obtain ⟨bytes, hbytes, h⟩ := of_bind_eq_ok h
    obtain ⟨written, hwrite, h⟩ := of_bind_eq_ok h
    obtain rfl := Except.ok.inj h
    obtain ⟨hencodes, rfl⟩ := Workspace.encode_eq_ok_iff.mp (of_mapError_eq_ok hbytes)
    exact ⟨by simp, ⟨rfl, of_mapError_eq_ok hwrite⟩, hencodes⟩

theorem outcome_of_run (h : run w a s = .ok r) : Outcome w a s r := by
  -- the three ways out of a run, in its own order
  obtain ⟨selection, hselect, h⟩ := of_bind_eq_ok h
  obtain ⟨hfiles, hvalid⟩ := select_eq_ok hselect
  change selection.files = filesGiven w a s at hfiles
  rw [hfiles, hvalid] at h
  split at h
  · rename_i hnone
    obtain rfl := Except.ok.inj h
    refine .nothing ?_ rfl rfl rfl
    simpa [List.countP_eq_zero] using hnone
  · rename_i hsome
    have hpath : ∃ path ∈ givenPaths a, w.exists? (.ofString path) = true := by
      simpa [List.countP_eq_zero] using hsome
    split at h
    · rename_i hempty
      obtain rfl := Except.ok.inj h
      exact .noFiles hpath (by simpa using hempty) rfl rfl rfl
    · rename_i hne
      obtain ⟨f, hfound, h⟩ := of_bind_eq_ok h
      replace hfound := of_mapError_eq_ok hfound
      rw [Checker.checkFiles_eq_plainFiles] at hfound
      obtain ⟨hcode, hreport, hencodes⟩ := deliver_eq_ok h
      exact .reported f hpath (by simpa using hne) hfound hcode hreport hencodes

/-! ## Runs that come to an end -/

theorem filesOf_of_missing {path : String} (h : w.exists? (.ofString path) = false) :
    filesOf w s path = [] := by
  unfold Workspace.exists? at h
  unfold filesOf
  cases hentry : w.entry (.ofString path) with
  | error fault => rfl
  | ok entry =>
    rw [hentry] at h
    cases h

theorem filesGiven_of_missing (s : Settings)
    (h : ∀ path ∈ givenPaths a, w.exists? (.ofString path) = false) : filesGiven w a s = [] :=
  List.flatMap_eq_nil_iff.mpr fun path hpath => filesOf_of_missing (h path hpath)

/-- The file that is named for the report, if any, can be written. -/
def Writable (w : Workspace) (a : CheckArguments) : Prop :=
  ∀ file ∈ Settings.given a.output, (w.write (.ofString file) []).isOk = true

instance (w : Workspace) (a : CheckArguments) : Decidable (Writable w a) :=
  inferInstanceAs (Decidable (∀ file ∈ Settings.given a.output, _))

theorem exists_deliver (hwrite : Writable w a) (h : w.Encodes (report w a f)) (err : String) :
    ∃ r, deliver w a err f = .ok r := by
  have hbytes := Workspace.encode_eq_ok_iff.mpr ⟨h, rfl⟩
  unfold deliver
  cases hfile : Settings.given a.output with
  | none =>
    simp only [hbytes]
    exact ⟨_, rfl⟩
  | some file =>
    obtain ⟨opened, hopened⟩ := Workspace.exists_write (hwrite file hfile) []
    obtain ⟨written, hwritten⟩ :=
      Workspace.exists_write (hwrite file hfile) (report w a f).toUTF8.toList
    simp only [hopened, hbytes, hwritten, bind, Except.bind, Except.mapError]
    exact ⟨_, rfl⟩

/-- The file that is named for a report, if any, is there and empty. -/
def Opens (w : Workspace) (a : CheckArguments) (left : Workspace) : Prop :=
  match Settings.given a.output with
  | none => left = w
  | some file => w.write (.ofString file) [] = .ok left

theorem deliver_of_fault {fault : Utf8.EncodeFault} (hwrite : Writable w a)
    (h : w.encode (report w a f) = .error fault) (err : String) :
    ∃ left, deliver w a err f = .error (.encoding fault left) ∧ Opens w a left := by
  unfold deliver Opens
  cases hfile : Settings.given a.output with
  | none =>
    simp only [h]
    exact ⟨w, rfl, rfl⟩
  | some file =>
    obtain ⟨opened, hopened⟩ := Workspace.exists_write (hwrite file hfile) []
    simp only [hopened, h, bind, Except.bind, Except.mapError]
    exact ⟨opened, rfl, rfl⟩

theorem locate_of_mem_filesGiven (ht : w.IsTree) {file : Path} (h : file ∈ filesGiven w a s) :
    ∃ place bytes, w.locate file = .ok (place, .file bytes) := by
  obtain ⟨path, -, hmem⟩ := List.mem_flatMap.mp h
  exact locate_of_mem_filesOf ht hmem

theorem exists_findings (ht : w.IsTree) (a : CheckArguments) (s : Settings) :
    ∃ f, Checker.plainFiles w (applyArguments a s).severity (filesGiven w a s) = .ok f := by
  apply Checker.exists_plainFiles
  intro file hfile
  obtain ⟨place, bytes, hlocate⟩ := locate_of_mem_filesGiven ht hfile
  exact (Workspace.locate_eq_ok hlocate).1

/-- A run that can look at its files ends at once if there are none, and otherwise with what
becomes of its report. -/
theorem run_eq_deliver (ht : w.IsTree)
    (haccess : Accessible w (applyArguments a s) (givenPaths a))
    (hf : Checker.plainFiles w (applyArguments a s).severity (filesGiven w a s) = .ok f) :
    if filesGiven w a s = [] then ∃ r, run w a s = .ok r
    else ∃ err, run w a s = deliver w a err f := by
  obtain ⟨selection, hselect⟩ := exists_select ht haccess a.debug
  obtain ⟨hfiles, hvalid⟩ := select_eq_ok hselect
  change selection.files = filesGiven w a s at hfiles
  simp only [run, hselect, bind, Except.bind, hfiles, List.isEmpty_iff]
  split
  · rename_i hnone
    split
    · exact ⟨_, rfl⟩
    · exact ⟨_, rfl⟩
  · rename_i hsome
    have hthere : (selection.valid == 0) = false := by
      rw [beq_eq_false_iff_ne, hvalid]
      intro hnone
      exact hsome (filesGiven_of_missing s (by simpa [List.countP_eq_zero] using hnone))
    rw [hthere, Checker.checkFiles_eq_plainFiles, hf]
    exact ⟨_, rfl⟩

theorem runProgram_eq_run (hwords : Request.ofWords words = .check a)
    (hload : Settings.load w e (.ofString ".") = .ok s) : runProgram w e words = run w a s := by
  simp only [runProgram, hwords, hload]
  rfl

end Check

end DefaultImports
