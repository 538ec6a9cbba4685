import DefaultImports.Proofs.Report.Document
import DefaultImports.Proofs.Text.Split
import DefaultImports.Report.Basic
import Mathlib.Algebra.BigOperators.Group.List.Basic
import Mathlib.Algebra.Ring.Nat

/-! The lines of a text report: one for each diagnostic and one for their number, and one more for
each line break in the names that the diagnostics offer. -/
namespace DefaultImports

namespace Text

/-- The number of line breaks in a text. -/
def breaks (s : String) : Nat := s.toList.count '\n'

theorem breaks_eq_zero {s : String} : breaks s = 0 ↔ '\n' ∉ s.toList := List.count_eq_zero

theorem breaks_append (s t : String) : breaks (s ++ t) = breaks s + breaks t := by
  rw [breaks, String.toList_append, List.count_append]
  rfl

theorem breaks_intercalate {sep : String} (hsep : breaks sep = 0) (texts : List String) :
    breaks (sep.intercalate texts) = (texts.map breaks).sum := by
  induction texts with
  | nil => rfl
  | cons first rest ih =>
    cases rest with
    | nil => simp
    | cons next rest =>
      rw [String.intercalate_cons_cons, breaks_append, breaks_append, hsep, ih]
      rfl

theorem breaks_toString_nat (n : Nat) : breaks (toString n) = 0 := by
  rw [breaks_eq_zero]
  intro h
  exact absurd ((JsonValue.spellsNat_toString n).digits '\n' h) (by decide)

theorem breaks_toString_int (n : Int) : breaks (toString n) = 0 := by
  cases n with
  | ofNat n => exact breaks_toString_nat n
  | negSucc n =>
    have htext : toString (Int.negSucc n) = "-" ++ toString (n + 1) := rfl
    rw [htext, breaks_append, breaks_toString_nat]
    decide

theorem break_notMem_escapeCode (c : Char) : '\n' ∉ escapeCode c := by
  have hhex (width : Nat) : '\n' ∉ hex width c.toNat := fun h =>
    absurd (JsonValue.isHexDigit_of_mem_hex h) (by decide)
  unfold escapeCode
  dsimp only
  split
  · simp [hhex]
  · split <;> simp [hhex]

theorem break_notMem_escapeIn {mark : Char} (hmark : mark ≠ '\n') (c : Char) :
    '\n' ∉ escapeIn mark c := by
  unfold escapeIn
  split
  · rename_i hc
    rcases (by simpa using hc : c = '\\' ∨ c = mark) with rfl | rfl
    · decide
    · simp [hmark.symm]
  · split
    · decide
    · rename_i hbreak
      split
      · decide
      · split
        · decide
        · split
          · simpa using fun h => hbreak (by simp [← h])
          · exact break_notMem_escapeCode c

/-- A quoted text is on one line. -/
theorem breaks_quote (s : String) : breaks (quote s) = 0 := by
  have hmark : quoteMark s.toList ≠ '\n' := by
    unfold quoteMark
    split <;> decide
  rw [breaks_eq_zero, quote, String.toList_ofList]
  simp only [List.cons_append, List.mem_cons, List.mem_append, List.mem_flatMap, List.not_mem_nil,
    or_false, not_or, not_exists, not_and]
  exact ⟨hmark.symm, fun c _ => break_notMem_escapeIn hmark c, hmark.symm⟩

end Text

open Text

theorem PathError.breaks_message (e : PathError) : breaks e.message = 0 := by
  obtain ⟨fault, p⟩ := e
  cases fault <;> simp only [message, breaks_append, breaks_quote] <;> decide

namespace Report

variable {cwd : Path} {absolute : Bool} {d : Diagnostic} {f : Findings}

/-- The line breaks in the names that a diagnostic offers. -/
def nameBreaks (d : Diagnostic) : Nat := (d.namedExports.map breaks).sum

theorem nameBreaks_eq_zero : nameBreaks d = 0 ↔ ∀ name ∈ d.namedExports, '\n' ∉ name.toList := by
  simp only [nameBreaks, List.sum_eq_zero_iff_forall_eq_nat, List.forall_mem_map, breaks_eq_zero]

/-- Only the names that a diagnostic offers can break its line. -/
structure BrokenByNames (cwd : Path) (absolute : Bool) (d : Diagnostic) : Prop where
  path : '\n' ∉ (pathText cwd absolute d.file).toList
  severity : '\n' ∉ d.severity.toList
  message : breaks d.message = nameBreaks d

theorem breaks_missingMessage {name : String} (hname : '\n' ∉ name.toList) (names : List String) :
    breaks (Diagnostic.missingMessage name names) = (names.map breaks).sum := by
  have hstart : breaks ("Default import '" ++ name ++ "' not found") = 0 := by
    rw [breaks_append, breaks_append, breaks_eq_zero.mpr hname]
    decide
  unfold Diagnostic.missingMessage
  dsimp only
  split
  · rename_i hempty
    rw [hstart, List.isEmpty_iff.mp hempty]
    rfl
  · rw [breaks_append, breaks_append, hstart, breaks_intercalate (by decide)]
    simp [breaks]

theorem breaks_diagnosticLine (h : BrokenByNames cwd absolute d) :
    breaks (diagnosticLine cwd absolute d) = nameBreaks d := by
  have hkind : breaks d.kind.code = 0 := by cases d.kind <;> decide
  have hmarks : ∀ mark ∈ [":", ": ", " [", "]"], breaks mark = 0 := by decide
  simp only [List.forall_mem_cons] at hmarks
  obtain ⟨hcolon, hcolonBlank, hopen, hclose, -⟩ := hmarks
  simp only [diagnosticLine, breaks_append, breaks_toString_int, breaks_eq_zero.mpr h.path,
    breaks_eq_zero.mpr h.severity, h.message, hkind, hcolon, hcolonBlank, hopen, hclose]
  omega

theorem break_notMem_countLine (n : Nat) : '\n' ∉ (countLine n).toList := by
  rw [← breaks_eq_zero, countLine, breaks_append, breaks_append, breaks_toString_nat]
  split <;> decide

/-- A report that is not verbose has the lines of its diagnostics, and a last one. -/
theorem lines_text (cwd : Path) (absolute : Bool) (f : Findings) :
    lines (text cwd absolute false f).toList =
      (f.diagnostics.flatMap fun d => lines (diagnosticLine cwd absolute d).toList) ++
        [(countLine f.diagnostics.length).toList] := by
  have htext : (text cwd absolute false f).toList = ['\n'].intercalate
      (f.diagnostics.map (fun d => (diagnosticLine cwd absolute d).toList) ++
        [(countLine f.diagnostics.length).toList]) := by
    simp [text, textLines, String.toList_intercalate, Function.comp_def]
  rw [htext, lines_intercalate (by simp), List.flatMap_append, List.flatMap_map,
    List.flatMap_singleton, lines_of_notMem (break_notMem_countLine _)]

theorem length_lines_text (h : ∀ d ∈ f.diagnostics, BrokenByNames cwd absolute d) :
    (lines (text cwd absolute false f).toList).length =
      f.diagnostics.length + 1 + (f.diagnostics.map nameBreaks).sum := by
  have hline : ∀ d ∈ f.diagnostics,
      (lines (diagnosticLine cwd absolute d).toList).length = nameBreaks d + 1 := by
    intro d hd
    rw [length_lines, ← breaks_diagnosticLine (h d hd)]
    rfl
  rw [lines_text, List.length_append, List.length_flatMap, List.map_congr_left hline,
    List.sum_map_add]
  simp only [List.map_const', List.sum_replicate_nat, List.length_singleton]
  omega

/-- The lines are the diagnostics and their number iff no name is broken. -/
theorem lines_text_eq_iff (h : ∀ d ∈ f.diagnostics, BrokenByNames cwd absolute d) :
    lines (text cwd absolute false f).toList =
      (f.diagnostics.map fun d => (diagnosticLine cwd absolute d).toList) ++
        [(countLine f.diagnostics.length).toList] ↔
    ∀ d ∈ f.diagnostics, ∀ name ∈ d.namedExports, '\n' ∉ name.toList := by
  constructor
  · intro hlines d hd
    have hlength := congrArg List.length hlines
    rw [length_lines_text h] at hlength
    simp only [List.length_append, List.length_map, List.length_singleton] at hlength
    have hsum : (f.diagnostics.map nameBreaks).sum = 0 := by omega
    exact nameBreaks_eq_zero.mp
      (List.sum_eq_zero_iff_forall_eq_nat.mp hsum (nameBreaks d) (List.mem_map_of_mem hd))
  · intro hnames
    have hline : ∀ d ∈ f.diagnostics, lines (diagnosticLine cwd absolute d).toList =
        [(diagnosticLine cwd absolute d).toList] := by
      intro d hd
      apply lines_of_notMem
      rw [← breaks_eq_zero, breaks_diagnosticLine (h d hd), nameBreaks_eq_zero]
      exact hnames d hd
    rw [lines_text, List.flatMap_congr hline, List.map_eq_flatMap]

end Report

end DefaultImports
