import DefaultImports.Proofs.Binding.Scan
import DefaultImports.Proofs.Check.Report
import DefaultImports.Proofs.Pattern.Preceding
import DefaultImports.Proofs.Text.Split

/-! A line put before a source text. Main statement: `checkSource_below`, all reports are the same,
one line down, if the line opens no import and does not disable the file. -/
namespace DefaultImports

/-- A line that opens no import and does not disable the file that it stands in. -/
structure UnrelatedLine (line : String) : Prop where
  unbroken : '\n' ∉ line.toList
  withoutImport : ¬ "import".toList <+: line.toList.dropWhile Binding.isBlank
  enabling : Suppression.disables line.toList = false

theorem toList_below (line source : String) :
    (line ++ "\n" ++ source).toList = line.toList ++ ['\n'] ++ source.toList := by
  simp

/-! ## Imports -/

namespace Binding

open Pattern

variable {line : String}

/-- The same import one line down. -/
def moveDown (b : Binding) : Binding := { b with line := b.line + 1 }

theorem ofFound?_behind {text : List Char} (htext : '\n' ∉ text) (file : Path) (m : Found Part) :
    ofFound? file (m.behind (text ++ ['\n'])) = (ofFound? file m).map moveDown := by
  simp only [ofFound?, capture?_behind]
  cases m.capture? .name with
  | none => rfl
  | some name =>
    cases m.capture? .specifier with
    | none => rfl
    | some specifier =>
      have hline : (name.behind (text ++ ['\n'])).start.line = name.start.line + 1 :=
        name.start.line_behind htext
      have hcolumn : (name.behind (text ++ ['\n'])).start.column = name.start.column :=
        name.start.column_behind text
      simp [Capture.text_behind, moveDown, hline, hcolumn]

/-- The search in a text finds the same imports, one line down, if it starts below a line. -/
theorem filterMap_findAllFrom_below {above : List Char} (habove : '\n' ∉ above)
    (text : List Char) (file : Path) :
    (statement.findAllFrom 0 (above ++ ['\n']).reverse text).filterMap (ofFound? file) =
      ((statement.findAll text).filterMap (ofFound? file)).map moveDown := by
  have hoverlooks : Overlooks (above ++ ['\n']) statement :=
    edgesAre_statement (Cursor.atLineStart_behind above)
  have hfound : statement.findAllFrom 0 (above ++ ['\n']).reverse text =
      (statement.findAll text).map (Found.behind (above ++ ['\n'])) :=
    findAllFrom_behind hoverlooks 0 [] text
  rw [hfound, List.filterMap_map, List.map_filterMap]
  apply List.filterMap_congr
  intro m _
  exact ofFound?_behind habove file m

/-- The imports below a line without one are those of the text alone, one line down. -/
theorem scan_below (h : UnrelatedLine line) (source : String) (file : Path) :
    scan (line ++ "\n" ++ source) file = (scan source file).map moveDown := by
  have hfound : statement.findAll (line ++ "\n" ++ source).toList =
      statement.findAllFrom 0 (line.toList ++ ['\n']).reverse source.toList := by
    rw [toList_below]
    refine (findAllFrom_line ⟨line.toList, h.unbroken, .other h.withoutImport⟩ [] _).trans ?_
    rw [List.append_nil]
  rw [scan, scan, hfound]
  exact filterMap_findAllFrom_below h.unbroken source.toList file

end Binding

/-! ## Comments -/

namespace Suppression

variable {source line : String} {number : Nat}

theorem lines_below (h : '\n' ∉ line.toList) (source : String) :
    Text.lines (line ++ "\n" ++ source).toList = line.toList :: Text.lines source.toList := by
  rw [toList_below, List.append_assoc, List.singleton_append, Text.lines_append_break,
    Text.lines_of_notMem h, List.singleton_append]

theorem fileDisabled_below (h : UnrelatedLine line) (source : String) :
    (ofSource (line ++ "\n" ++ source)).fileDisabled = (ofSource source).fileDisabled := by
  simp only [ofSource, lines_below h.unbroken, List.any_cons, h.enabling, Bool.false_or]

theorem covers_below (h : UnrelatedLine line) (hdis : (ofSource source).fileDisabled = false)
    (hnumber : 1 ≤ number) :
    (ofSource (line ++ "\n" ++ source)).covers (number + 1 : Nat) =
      (ofSource source).covers number := by
  have hdis' := (fileDisabled_below h source).trans hdis
  have hget : (Text.lines (line ++ "\n" ++ source).toList)[number + 1 - 1]? =
      (Text.lines source.toList)[number - 1]? := by
    rw [lines_below h.unbroken, Nat.add_sub_cancel, List.getElem?_cons, if_neg (by omega)]
  rw [Bool.eq_iff_iff, covers_ofSource_iff hdis', covers_ofSource_iff hdis, hget]
  simp [hnumber]

end Suppression

/-! ## Reports -/

/-- The same report one line down. -/
def Diagnostic.moveDown (d : Diagnostic) : Diagnostic := { d with line := d.line + 1 }

def Decision.moveDown : Decision → Decision
  | .flagged d => .flagged d.moveDown
  | d => d

def Findings.moveDown (f : Findings) : Findings :=
  { f with diagnostics := f.diagnostics.map Diagnostic.moveDown }

theorem Findings.moveDown_report (d : Diagnostic) (f : Findings) :
    (f.report d).moveDown = f.moveDown.report d.moveDown := by
  simp [report, moveDown]

theorem Decision.judge_moveDown (b : Binding) (target : Path) (s : Surface) :
    judge b.moveDown target s = (judge b target s).moveDown := by
  unfold judge
  split <;> rfl

namespace Checker

variable {k : Checker} {s s' : Suppression} {b : Binding} {c : SurfaceCache} {d : Diagnostic}

/-- The verdict on an import does not depend on its line. -/
theorem evaluate_moveDown (k : Checker) (b : Binding) (c : SurfaceCache) :
    k.evaluate b.moveDown c =
      ((k.evaluate b c).1.map Decision.moveDown, (k.evaluate b c).2) := by
  have htarget : b.moveDown.target? k.workspace = b.target? k.workspace := rfl
  unfold evaluate
  rw [htarget]
  split
  · rfl
  · split
    · simp [Except.map, Decision.judge_moveDown]
    · split <;> rfl

theorem line_of_evaluate (h : (k.evaluate b c).1 = .ok (.flagged d)) : d.line = b.line := by
  unfold evaluate at h
  split at h
  · cases h
  · split at h
    · simp only [Decision.judge, Except.ok.injEq] at h
      split at h
      · cases h
      · cases h
        rfl
    · dsimp only at h
      split at h <;> cases h

theorem record_moveDown (k : Checker) {verdict : Decision} (f : Findings)
    (hcovers : ∀ d, verdict = .flagged d → s'.covers (d.line + 1) = s.covers d.line) :
    k.record s' f.moveDown verdict.moveDown = (k.record s f verdict).moveDown := by
  cases verdict with
  | skipped | clean => rfl
  | flagged d =>
    have hline : s'.covers d.moveDown.line = s.covers d.line := hcovers d rfl
    simp only [record, Decision.moveDown, hline]
    split
    · rfl
    · exact (Findings.moveDown_report { d with severity := k.severity } f.countChecked).symm

/-- Imports that are one line down, with comments that are one line down too, are reported one line
down. -/
theorem checkBindings_moveDown (k : Checker) (bs : List Binding) (f : Findings) (c : SurfaceCache)
    (hcovers : ∀ b ∈ bs, s'.covers (b.line + 1) = s.covers b.line) :
    k.checkBindings s' (bs.map Binding.moveDown) f.moveDown c =
      ((k.checkBindings s bs f c).1.map Findings.moveDown, (k.checkBindings s bs f c).2) := by
  induction bs generalizing f c with
  | nil => rfl
  | cons b bs ih =>
    simp only [List.map_cons, checkBindings, evaluate_moveDown]
    cases h : k.evaluate b c with
    | mk verdict c' =>
      cases verdict with
      | error e => rfl
      | ok verdict =>
        have hrecord : k.record s' f.moveDown verdict.moveDown =
            (k.record s f verdict).moveDown := by
          apply record_moveDown
          rintro d rfl
          have hline : d.line = b.line := line_of_evaluate (by rw [h])
          rw [hline]
          exact hcovers b List.mem_cons_self
        simp only [Except.map, hrecord]
        exact ih _ _ fun b hb => hcovers b (List.mem_cons_of_mem _ hb)

/-- A line that opens no import and does not disable the file moves all reports on the text below
it down by one line, and changes nothing else. -/
theorem checkSource_below {line : String} (h : UnrelatedLine line) (k : Checker) (source : String)
    (file : Path) (c : SurfaceCache) :
    k.checkSource (line ++ "\n" ++ source) file c =
      ((k.checkSource source file c).1.map Findings.moveDown, (k.checkSource source file c).2) := by
  simp only [checkSource, Suppression.fileDisabled_below h, Binding.scan_below h]
  split
  · rfl
  · rename_i hdis
    refine checkBindings_moveDown k _ (.ofFile _) c ?_
    intro b hb
    obtain ⟨number, hline, hnumber⟩ := Binding.exists_line_of_mem_scan hb
    have hcovers := Suppression.covers_below h (by simpa using hdis) hnumber
    rw [hline]
    exact_mod_cast hcovers

def sampleBelow : Workspace where
  entries := [(["w"], .directory), (["w", "b.js"], .file "export const x = 1\n".toUTF8.toList)]
  cwd := ⟨.root, ["w"]⟩

/-- A comment on the new line covers no import below it, and the one on the second line moves with
its import. -/
theorem checkSource_sampleBelow :
    let line := "/*md:ignore*/ import"
    let source := "import A from './b'\nimport B from './b' //md:ignore"
    let k := ofWorkspace sampleBelow .default "error"
    let found := k.checkSource source ⟨.relative, ["a.js"]⟩ .empty
    UnrelatedLine line ∧
      found.1.map (fun f => f.diagnostics.map (·.line)) = .ok [1] ∧
      k.checkSource (line ++ "\n" ++ source) ⟨.relative, ["a.js"]⟩ .empty =
        (found.1.map Findings.moveDown, found.2) := by
  intro line source k found
  have hline : UnrelatedLine line := ⟨by decide +kernel, by decide +kernel, by decide +kernel⟩
  exact ⟨hline, by decide +kernel, checkSource_below hline k source ⟨.relative, ["a.js"]⟩ .empty⟩

end Checker

end DefaultImports
