import DefaultImports.Proofs.Binding.Position
import DefaultImports.Proofs.Check.JsonReport
import DefaultImports.Proofs.Check.Repair
import DefaultImports.Proofs.Check.Spelling

/-! How often a run reports an import: once for each of its paths that reach the importing file.
Main statement: `runProgram_repetition`. -/
namespace DefaultImports

namespace Binding

/-- The file is only noted down. -/
theorem scan_eq_map (source : String) (f g : Path) :
    scan source f = (scan source g).map fun b => { b with file := f } := by
  rw [scan, scan, List.map_filterMap]
  apply List.filterMap_congr
  intro m _
  cases hname : m.capture? .name with
  | none => simp [ofFound?, hname]
  | some name =>
    cases hspecifier : m.capture? .specifier <;> simp [ofFound?, hname, hspecifier]

def standsAt (line column : Int) (b : Binding) : Bool := b.line == line && b.column == column

def isReportedAt (w : Workspace) (source : String) (line column : Int) (b : Binding) : Bool :=
  b.standsAt line column && b.isReported w source

/-- No two imports of a text stand at one position. -/
theorem countP_scan_le_one (source : String) (file : Path) (line column : Int) :
    (scan source file).countP (standsAt line column) ≤ 1 := by
  have hnodup : ((scan source file).map fun b => (b.line, b.column)).Nodup := by
    rw [List.Nodup, List.pairwise_map]
    refine (scan_sorted source file).imp ?_
    intro b c habove heq
    obtain ⟨hline, hcolumn⟩ := Prod.mk.inj heq
    unfold Above at habove
    omega
  have hcount := List.nodup_iff_count_le_one.mp hnodup (line, column)
  rw [List.count, List.countP_map] at hcount
  refine Nat.le_trans (List.countP_mono_left ?_) hcount
  intro b _ hb
  simp only [standsAt, Bool.and_eq_true, beq_iff_eq] at hb
  simp [hb.1, hb.2]

end Binding

namespace Checker

variable {w : Workspace} {severity : String} {file : Path} {files : List Path}
  {place : List String} {line column : Int} {bytes : List UInt8} {f : Findings}

/-- The diagnostic is about an import at a position in the file at a place. -/
def isAt (w : Workspace) (place : List String) (line column : Int) (d : Diagnostic) : Bool :=
  d.kind != .unreadable && w.leadsTo place d.file && (d.line == line && d.column == column)

/-- How many imports at a position in the file at a place are reported when it is checked. -/
def reportsAt (w : Workspace) (place : List String) (line column : Int) : Nat :=
  match w.entryAt? place with
  | some (.file bytes) =>
    let source := Workspace.sourceText bytes
    if (Suppression.ofSource source).fileDisabled then 0
    else (Binding.scan source ⟨.root, place⟩).countP (Binding.isReportedAt w source line column)
  | _ => 0

theorem reportsAt_le_one (w : Workspace) (place : List String) (line column : Int) :
    reportsAt w place line column ≤ 1 := by
  unfold reportsAt
  split
  · rename_i bytes _
    dsimp only
    split
    · exact Nat.zero_le 1
    · refine Nat.le_trans (List.countP_mono_left ?_)
        (Binding.countP_scan_le_one (Workspace.sourceText bytes) ⟨.root, place⟩ line column)
      intro b _ hb
      exact ((Bool.and_eq_true _ _).mp hb).1
  · exact Nat.zero_le 1

theorem isAt_of_reports {b : Binding} {d : Diagnostic} (h : Reports w severity b d) :
    isAt w place line column d = (w.leadsTo place b.file && b.standsAt line column) := by
  have hkind : (d.kind != .unreadable) = true := by
    rw [bne_iff_ne]
    intro hunreadable
    have hcode := h.kind
    rw [hunreadable] at hcode
    split at hcode <;> exact absurd hcode (by decide)
  rw [isAt, hkind, h.file, h.line, h.column, Bool.true_and, Binding.standsAt]

theorem countP_of_forall₂ {α β : Type} {R : α → β → Prop} {p : α → Bool} {q : β → Bool}
    {xs : List α} {ys : List β} (h : List.Forall₂ R xs ys)
    (hpq : ∀ x ∈ xs, ∀ y, R x y → q y = p x) : ys.countP q = xs.countP p := by
  induction h with
  | nil => rfl
  | cons hxy _ ih =>
    rw [List.countP_cons, List.countP_cons, hpq _ List.mem_cons_self _ hxy,
      ih fun x hx => hpq x (List.mem_cons_of_mem _ hx)]

theorem countP_plainSource (w : Workspace) (severity source : String) (file : Path)
    (place : List String) (line column : Int) :
    (plainSource w severity source file).diagnostics.countP (isAt w place line column) =
      if (Suppression.ofSource source).fileDisabled || !w.leadsTo place (w.absolute file) then 0
      else (Binding.scan source (w.absolute file)).countP
        (Binding.isReportedAt w source line column) := by
  cases hdis : (Suppression.ofSource source).fileDisabled with
  | true =>
    rw [plainSource_of_disabled w severity file hdis]
    rfl
  | false =>
    have hreports : List.Forall₂ (Reports w severity)
        ((Binding.scan source (w.absolute file)).filter (·.isReported w source))
        ((Binding.scan source (w.absolute file)).filterMap
          (report? w severity (.ofSource source))) :=
      forall₂_reports hdis fun _ hb => hb
    have hat : ∀ b ∈ (Binding.scan source (w.absolute file)).filter (·.isReported w source),
        ∀ d, Reports w severity b d → isAt w place line column d =
          (w.leadsTo place (w.absolute file) && b.standsAt line column) := by
      intro b hb d hd
      rw [isAt_of_reports hd, Binding.file_of_mem_scan (List.mem_filter.mp hb).1]
    rw [plainSource_of_not_disabled w severity file hdis, countP_of_forall₂ hreports hat,
      List.countP_filter]
    cases w.leadsTo place (w.absolute file) with
    | false => simp
    | true => rfl

/-- What is reported in a file does not depend on how the path to it is spelled. -/
theorem countP_scan_of_locate (ht : w.IsTree) (hcwd : w.cwd.isAbsolute = true) {e : Entry}
    (hlocate : w.locate file = .ok (place, e)) (source : String) (line column : Int) :
    (Binding.scan source file).countP (Binding.isReportedAt w source line column) =
      (Binding.scan source ⟨.root, place⟩).countP
        (Binding.isReportedAt w source line column) := by
  have hagain := ht.locate_eq (Workspace.entryAt?_of_locate hlocate)
  have hparts : (w.cwd.join file).collapse.parts =
      (w.cwd.join ⟨.root, place⟩).collapse.parts := by
    rw [Workspace.collapse_of_locate hlocate, Workspace.collapse_of_locate hagain]
  rw [Binding.scan_eq_map source file ⟨.root, place⟩, List.countP_map]
  apply List.countP_congr
  intro b hb
  have hreported : ({ b with file } : Binding).isReported w source = b.isReported w source := by
    refine Binding.isReported_of_parts hcwd ?_ ?_ ?_
    · rfl
    · rfl
    · rw [Binding.file_of_mem_scan hb]
      exact hparts
  rw [Function.comp_apply, Binding.isReportedAt, Binding.isReportedAt, hreported]
  rfl

/-- The check of a file reports what is reported at its place. -/
theorem countP_plainFile (ht : w.IsTree) (hcwd : w.cwd.isAbsolute = true)
    (hfile : ∃ place bytes, w.locate file = .ok (place, .file bytes))
    (h : plainFile w severity file = .ok f) :
    f.diagnostics.countP (isAt w place line column) =
      reportsAt w place line column * if w.leadsTo place file then 1 else 0 := by
  obtain ⟨other, bytes, hlocate⟩ := hfile
  rw [← Workspace.locate_absolute hcwd] at hlocate
  have hread : w.readSource (w.absolute file) = .ok (Workspace.sourceText bytes) := by
    rw [Workspace.readSource_eq_locate, hlocate]
  have hleads : w.leadsTo place (w.absolute file) = w.leadsTo place file := by
    rw [Workspace.leadsTo, Workspace.leadsTo, Workspace.locate_absolute hcwd]
  simp only [plainFile, hread] at h
  obtain rfl := Except.ok.inj h
  rw [countP_plainSource, Workspace.absolute_absolute hcwd, ← hleads]
  cases hto : w.leadsTo place (w.absolute file) with
  | false => simp
  | true =>
    obtain rfl : other = place := by simpa [Workspace.leadsTo_of_locate hlocate] using hto
    simp [reportsAt, Workspace.entryAt?_of_locate hlocate, countP_scan_of_locate ht hcwd hlocate]

/-- A pass reports an import once for each of its files that are the importing one. -/
theorem countP_plainFiles (ht : w.IsTree) (hcwd : w.cwd.isAbsolute = true)
    (hfiles : ∀ file ∈ files, ∃ place bytes, w.locate file = .ok (place, .file bytes))
    (h : plainFiles w severity files = .ok f) :
    f.diagnostics.countP (isAt w place line column) =
      reportsAt w place line column * files.countP (w.leadsTo place) := by
  induction files generalizing f with
  | nil =>
    obtain rfl := Except.ok.inj h
    rfl
  | cons file rest ih =>
    obtain ⟨first, hfirst, h⟩ := of_bind_eq_ok h
    obtain ⟨others, hothers, h⟩ := of_bind_eq_ok h
    obtain rfl := Except.ok.inj h
    have hrest := ih (fun other hother => hfiles other (List.mem_cons_of_mem _ hother)) hothers
    change (first.diagnostics ++ others.diagnostics).countP _ = _
    rw [List.countP_append, countP_plainFile ht hcwd (hfiles file List.mem_cons_self) hfirst, hrest,
      List.countP_cons, Nat.mul_add, Nat.add_comm]

end Checker

namespace Check

open CommandLine

variable {w : Workspace} {s : Settings} {path : String} {paths : List String}
  {place : List String}

/-- A path reaches a file: it is the path of the file, or that of a directory in which the file is
found. -/
def reaches (w : Workspace) (s : Settings) (place : List String) (path : String) : Bool :=
  (filesOf w s path).any (w.leadsTo place)

/-- No path reaches a file twice. -/
theorem countP_filesOf_le_one (ht : w.IsTree) (s : Settings) (place : List String) (path : String) :
    (filesOf w s path).countP (w.leadsTo place) ≤ 1 := by
  unfold filesOf
  split
  · rw [List.countP_singleton]
    split <;> omega
  · cases hfind : SourceFiles.find w s.filter s.respectIgnores (.ofString path) with
    | error e => exact Nat.zero_le 1
    | ok files =>
      obtain ⟨base, kept, -, hkept, rfl⟩ := SourceFiles.find_eq_ok hfind
      -- filters and sorting add nothing to a walk, and a walk of a tree meets each place once
      calc (kept.mergeSort Path.le).countP (w.leadsTo place)
          = kept.countP (w.leadsTo place) := (List.mergeSort_perm kept Path.le).countP_eq _
        _ ≤ (w.filesBelow base).countP (w.leadsTo place) := hkept.countP_le
        _ = (w.filesFrom w.height base.parts).count place := by
          rw [Workspace.filesBelow, List.countP_map]
          apply List.countP_congr
          intro other hother
          obtain ⟨-, -, -, -, hat⟩ := ht.mem_filesFrom.mp hother
          obtain ⟨bytes, hbytes⟩ := Workspace.isFileAt_iff.mp hat
          rw [Function.comp_apply, Workspace.leadsTo_of_locate (ht.locate_eq hbytes)]
        _ ≤ 1 := List.nodup_iff_count_le_one.mp ht.nodup_filesFrom place
  · exact Nat.zero_le 1

theorem countP_flatMap_filesOf (ht : w.IsTree) (s : Settings) (place : List String)
    (paths : List String) :
    (paths.flatMap (filesOf w s)).countP (w.leadsTo place) =
      paths.countP (reaches w s place) := by
  induction paths with
  | nil => rfl
  | cons path rest ih =>
    have hle := countP_filesOf_le_one ht s place path
    have hone : (filesOf w s path).countP (w.leadsTo place) =
        if reaches w s place path then 1 else 0 := by
      cases hreaches : reaches w s place path with
      | false => simpa [List.countP_eq_zero, reaches] using hreaches
      | true =>
        have hpos := List.countP_pos_iff.mpr (List.any_eq_true.mp hreaches)
        rw [if_pos rfl]
        omega
    rw [List.flatMap_cons, List.countP_append, ih, hone, List.countP_cons, Nat.add_comm]

/-- A run that has files to check reports what its pass has found, and at each position of each
file on disk there is either no diagnostic about an import, or one for every path that reaches the
file, however the paths are spelled and in whatever way they overlap. So an import is reported once
if and only if the file is reached by a single path. -/
theorem runProgram_repetition {w : Workspace} {e : Environment} {words : List String}
    {a : CheckArguments} {r : RunResult} (htree : w.IsTree) (hcwd : w.cwd.isAbsolute = true)
    (hwords : Request.ofWords words = .check a) (hrun : runProgram w e words = .ok r) :
    ∃ s, Settings.load w e (.ofString ".") = .ok s ∧
      (filesGiven w a s ≠ [] → ∃ f, pass w a s = .ok f ∧ Leaves w a (report w a f) r ∧
        ∀ place line column,
          f.diagnostics.countP (Checker.isAt w place line column) = 0 ∨
          f.diagnostics.countP (Checker.isAt w place line column) =
            (givenPaths a).countP (reaches w (applyArguments a s) place)) := by
  obtain ⟨s, hload, hrun⟩ := run_of_runProgram hwords hrun
  refine ⟨s, hload, fun hfiles => ?_⟩
  cases outcome_of_run hrun with
  | nothing hpaths hcode hout hleft =>
    exact absurd (filesGiven_of_missing s hpaths) hfiles
  | noFiles hpath hnone hcode hout hleft => exact absurd hnone hfiles
  | reported f hpath hfiles hfound hcode hreport =>
    refine ⟨f, pass_eq_ok hfound, hreport, ?_⟩
    intro place line column
    have hone := Checker.reportsAt_le_one w place line column
    rw [Checker.countP_plainFiles htree hcwd (fun _ => locate_of_mem_filesGiven htree) hfound,
      filesGiven, countP_flatMap_filesOf htree]
    rcases Nat.le_one_iff_eq_zero_or_eq_one.mp hone with hzero | hone
    · exact .inl (by rw [hzero, Nat.zero_mul])
    · exact .inr (by rw [hone, Nat.one_mul])

/-- A directory with an import that is reported. -/
def sampleTwice : Workspace where
  entries :=
    [(["w"], .directory),
      (["w", "a.js"], .file "import B from './b'\n".toUTF8.toList),
      (["w", "b.js"], .file "export const x = 1\n".toUTF8.toList)]
  cwd := ⟨.root, ["w"]⟩

/-- A file that is reached in three ways has its import reported three times. -/
theorem runProgram_repetition_sampleTwice :
    ∃ (r : RunResult) (f : Findings),
      runProgram sampleTwice ⟨none, none, none, none⟩ ["check", "a.js", "//w/../w/a.js", "./a.js"] =
        .ok r ∧
      r.out = Report.text sampleTwice.cwd false false f ++ "\n" ∧
      f.diagnostics.countP (Checker.isAt sampleTwice ["w", "a.js"] 1 7) = 3 := by
  let words := ["check", "a.js", "//w/../w/a.js", "./a.js"]
  let a : CheckArguments :=
    { CheckArguments.default with paths := ["a.js", "//w/../w/a.js", "./a.js"] }
  let s : Settings := (Settings.default ⟨.root, ["w"]⟩).merge
    (.ofEnvironment ⟨.root, ["w"]⟩ ⟨none, none, none, none⟩)
  have hwords : Request.ofWords words = .check a := by decide +kernel
  have hload : Settings.load sampleTwice ⟨none, none, none, none⟩ (.ofString ".") = .ok s := rfl
  have hsome : (pass sampleTwice a s).map (fun f =>
      f.diagnostics.any (Checker.isAt sampleTwice ["w", "a.js"] 1 7)) = .ok true := by
    decide +kernel
  have hreach : (givenPaths a).countP
      (reaches sampleTwice (applyArguments a s) ["w", "a.js"]) = 3 := by decide +kernel
  cases hrun : runProgram sampleTwice ⟨none, none, none, none⟩ words with
  | error err =>
    have hok : (runProgram sampleTwice ⟨none, none, none, none⟩ words).isOk = true := by
      decide +kernel
    rw [hrun] at hok
    cases hok
  | ok r =>
    obtain ⟨s', hload', hrepeat⟩ :=
      runProgram_repetition (by decide +kernel) (by decide) hwords hrun
    obtain rfl : s = s' := Except.ok.inj (hload.symm.trans hload')
    obtain ⟨f, hfound, hreport, hcount⟩ := hrepeat (by decide +kernel)
    refine ⟨r, f, rfl, hreport.1, ?_⟩
    rw [hfound] at hsome
    have hpos := List.countP_pos_iff.mpr (List.any_eq_true.mp (Except.ok.inj hsome))
    rcases hcount ["w", "a.js"] 1 7 with hzero | hall
    · omega
    · rw [hall, hreach]

/-- A file that is given twice has its imports reported twice. -/
theorem runProgram_sampleTwice :
    (runProgram sampleTwice ⟨none, none, none, none⟩ ["check", "a.js", "a.js"]).map
      (fun r => (r.code, r.out)) = .ok (1,
        "a.js:1:7: error: Default import 'B' not found. Available named exports: x " ++
          "[no-default-export]\n" ++
        "a.js:1:7: error: Default import 'B' not found. Available named exports: x " ++
          "[no-default-export]\n" ++
        "2 issues found\n") := by
  decide +kernel

end Check

end DefaultImports
