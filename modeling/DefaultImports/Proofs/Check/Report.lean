import DefaultImports.Proofs.Check.Pass
import Mathlib.Data.List.Forall2

/-! What the check of a text reports, import by import: which imports are skipped, which are
reported, and what each report says. -/
namespace DefaultImports

namespace Suppression

variable {source : String}

/-- A line of a file that is not disabled is covered iff it carries a directive. -/
theorem covers_ofSource_iff (hdis : (ofSource source).fileDisabled = false) (n : Nat) :
    (ofSource source).covers n = true ↔
      ∃ line, 1 ≤ n ∧ (Text.lines source.toList)[n - 1]? = some line ∧ ignores line = true := by
  have hnone : ∀ line ∈ Text.lines source.toList, disables line = false := by
    simpa [ofSource] using hdis
  have hdirective : ∀ line number, line ∈ Text.lines source.toList →
      ((∃ d, directive? line number = some d ∧ (d.line : Int) = n) ↔
        ignores line = true ∧ number = n) := by
    intro line number hline
    by_cases hi : ignores line
    · have hd : directive? line number = some ⟨number, String.ofList (Text.trim line)⟩ := by
        simp [directive?, hnone line hline, hi]
      simp only [hd, Option.some.injEq, exists_eq_left', hi, true_and]
      omega
    · simp [directive?, hi]
  simp only [covers, hdis, Bool.false_or, List.any_eq_true, beq_iff_eq]
  constructor
  · rintro ⟨d, hd, hn⟩
    obtain ⟨⟨line, number⟩, hmem, hd⟩ := List.mem_filterMap.mp hd
    obtain ⟨hle, hget⟩ := List.mk_mem_zipIdx_iff_le_and_getElem?_sub.mp hmem
    obtain ⟨hi, rfl⟩ := (hdirective line number (List.mem_of_getElem? hget)).mp ⟨d, hd, hn⟩
    exact ⟨line, hle, hget, hi⟩
  · rintro ⟨line, hle, hget, hi⟩
    obtain ⟨d, hd, hn⟩ := (hdirective line n (List.mem_of_getElem? hget)).mpr ⟨hi, rfl⟩
    have hmem := List.mk_mem_zipIdx_iff_le_and_getElem?_sub.mpr ⟨hle, hget⟩
    exact ⟨d, List.mem_filterMap.mpr ⟨(line, n), hmem, hd⟩, hn⟩

end Suppression

namespace Binding

variable {w : Workspace} {b : Binding} {source : String} {file : Path}

/-- Lines are counted from 1. -/
theorem exists_line_of_mem_scan (hb : b ∈ scan source file) : ∃ n : Nat, b.line = n ∧ 1 ≤ n := by
  obtain ⟨m, -, hm⟩ := List.mem_filterMap.mp hb
  simp only [ofFound?, Option.bind_eq_bind, Option.bind_eq_some_iff] at hm
  obtain ⟨name, -, specifier, -, hm⟩ := hm
  cases Option.some.inj hm
  exact ⟨name.start.line, rfl, Nat.le_add_left 1 _⟩

/-- The first of the paths that the specifier may stand for that exists. -/
def found? (w : Workspace) (b : Binding) : Option Path :=
  (Specifier.candidates w.cwd b.specifier b.file).find? w.exists?

/-- Out of scope, without an existing candidate, or with a first one that is no source file. -/
def isSkipped (w : Workspace) (b : Binding) : Bool :=
  Specifier.isOutOfScope b.specifier ||
    match b.found? w with
    | none => true
    | some target => !Specifier.isSource target

/-- The exports of the first existing candidate; none if it cannot be read. -/
def exports (w : Workspace) (b : Binding) : Surface :=
  match b.found? w with
  | none => .empty
  | some target => Surface.read w target

/-- The line on which the name is bound carries an ignore directive. -/
def isIgnored (source : String) (b : Binding) : Bool :=
  ((Text.lines source.toList)[b.line.toNat - 1]?).any Suppression.ignores

def isReported (w : Workspace) (source : String) (b : Binding) : Bool :=
  !b.isSkipped w && !(b.exports w).hasDefault && !b.isIgnored source

/-- What decides about an import that is not skipped is its first existing candidate. -/
theorem target?_eq (w : Workspace) (b : Binding) :
    b.target? w = if b.isSkipped w then none else b.found? w := by
  unfold target? isSkipped
  by_cases hscope : Specifier.isOutOfScope b.specifier
  · simp [hscope]
  · have hrel : Specifier.isRelative b.specifier = true := by
      simp only [Specifier.isOutOfScope, Bool.or_eq_true, not_or] at hscope
      simpa using hscope.1
    have hresolve : Specifier.resolve? w b.specifier b.file = b.found? w := by
      simp [Specifier.resolve?, hrel, found?]
    rw [hresolve]
    cases b.found? w with
    | none => simp [hscope]
    | some target => by_cases hs : Specifier.isSource target <;> simp [hscope, hs]

theorem ofBinding_of_isSkipped (h : b.isSkipped w = true) : Decision.ofBinding w b = .skipped := by
  simp [Decision.ofBinding, target?_eq, h]

theorem ofBinding_of_not_isSkipped (h : b.isSkipped w = false) :
    ∃ target, b.found? w = some target ∧
      Decision.ofBinding w b = .judge b target (b.exports w) := by
  cases hf : b.found? w with
  | none => simp [isSkipped, hf] at h
  | some target =>
    refine ⟨target, rfl, ?_⟩
    simp [Decision.ofBinding, target?_eq, h, hf, exports]

/-- The verdict on an import depends on what it finds and on what that exports. -/
theorem ofBinding_of_exports {w' : Workspace} (hfound : b.found? w' = b.found? w)
    (hexports : b.isSkipped w = false → b.exports w' = b.exports w) :
    Decision.ofBinding w' b = Decision.ofBinding w b := by
  have hskip : b.isSkipped w' = b.isSkipped w := by rw [isSkipped, isSkipped, hfound]
  cases h : b.isSkipped w with
  | true => rw [ofBinding_of_isSkipped h, ofBinding_of_isSkipped (hskip.trans h)]
  | false =>
    obtain ⟨target, htarget, hd⟩ := ofBinding_of_not_isSkipped h
    obtain ⟨target', htarget', hd'⟩ := ofBinding_of_not_isSkipped (hskip.trans h)
    obtain rfl : target' = target :=
      Option.some.inj (htarget'.symm.trans (hfound.trans htarget))
    rw [hd, hd', hexports h]

theorem isIgnored_eq_covers (hb : b ∈ scan source file)
    (hdis : (Suppression.ofSource source).fileDisabled = false) :
    b.isIgnored source = (Suppression.ofSource source).covers b.line := by
  obtain ⟨n, hn, hpos⟩ := exists_line_of_mem_scan hb
  rw [Bool.eq_iff_iff, hn, Suppression.covers_ofSource_iff hdis, isIgnored, hn, Int.toNat_natCast,
    Option.any_eq_true]
  constructor
  · rintro ⟨line, hget, hi⟩
    exact ⟨line, hpos, hget, hi⟩
  · rintro ⟨line, -, hget, hi⟩
    exact ⟨line, hget, hi⟩

end Binding

namespace Checker

open SurfaceCache

variable {w : Workspace} {severity source : String} {s : Suppression} {b : Binding} {file : Path}

/-- The report on an import, if it is not skipped, clean or covered. -/
def report? (w : Workspace) (severity : String) (s : Suppression) (b : Binding) :
    Option Diagnostic :=
  match Decision.ofBinding w b with
  | .flagged d => if s.covers d.line then none else some { d with severity := severity }
  | _ => none

/-- One import adds to one of the counters, and its report if there is one. -/
theorem record_ofBinding (w : Workspace) (policy : CachePolicy) (severity : String)
    (s : Suppression) (f : Findings) (b : Binding) :
    (ofWorkspace w policy severity).record s f (.ofBinding w b) =
      ⟨f.diagnostics ++ (report? w severity s b).toList, f.files,
        f.checked + if b.isSkipped w then 0 else 1,
        f.skipped + if b.isSkipped w then 1 else 0⟩ := by
  cases hskip : b.isSkipped w with
  | true =>
    rw [report?, Binding.ofBinding_of_isSkipped hskip]
    simp [record, Findings.countSkipped]
  | false =>
    obtain ⟨target, -, hd⟩ := Binding.ofBinding_of_not_isSkipped hskip
    rw [report?, hd, Decision.judge]
    by_cases hdef : (b.exports w).hasDefault
    · simp [hdef, record, Findings.countChecked]
    · by_cases hcov : s.covers b.line <;>
        simp [hdef, record, Diagnostic.missing, hcov, Findings.countChecked, Findings.report,
          ofWorkspace]

/-- The findings of a list of imports, one field at a time. -/
theorem plainBindings_eq (w : Workspace) (severity : String) (s : Suppression)
    (bs : List Binding) (f : Findings) :
    plainBindings w severity s bs f =
      ⟨f.diagnostics ++ bs.filterMap (report? w severity s), f.files,
        f.checked + bs.countP (fun b => !b.isSkipped w),
        f.skipped + bs.countP (fun b => b.isSkipped w)⟩ := by
  induction bs generalizing f with
  | nil => simp [plainBindings]
  | cons b rest ih =>
    have hfold : plainBindings w severity s (b :: rest) f = plainBindings w severity s rest
        ((ofWorkspace w .default severity).record s f (.ofBinding w b)) := rfl
    rw [hfold, ih, record_ofBinding]
    cases hskip : b.isSkipped w <;> cases hr : report? w severity s b <;>
      simp [hskip, hr, Nat.add_assoc, Nat.add_comm 1]

theorem plainSource_of_disabled (w : Workspace) (severity : String) (file : Path)
    (hdis : (Suppression.ofSource source).fileDisabled = true) :
    plainSource w severity source file = .ofFile (w.absolute file) := by
  simp [plainSource, hdis]

/-- The findings in a text that is not disabled, one field at a time. -/
theorem plainSource_of_not_disabled (w : Workspace) (severity : String) (file : Path)
    (hdis : (Suppression.ofSource source).fileDisabled = false) :
    plainSource w severity source file =
      ⟨(Binding.scan source (w.absolute file)).filterMap (report? w severity (.ofSource source)),
        [w.absolute file],
        (Binding.scan source (w.absolute file)).countP (fun b => !b.isSkipped w),
        (Binding.scan source (w.absolute file)).countP (fun b => b.isSkipped w)⟩ := by
  simp [plainSource, hdis, plainBindings_eq, Findings.ofFile]

/-- What the report on an import says. -/
structure Reports (w : Workspace) (severity : String) (b : Binding) (d : Diagnostic) : Prop where
  file : d.file = b.file
  line : d.line = b.line
  column : d.column = b.column
  name : d.name = b.name
  specifier : d.specifier = b.specifier
  target : d.target = b.found? w
  namedExports : d.namedExports = (b.exports w).names
  kind : d.kind.code =
    if d.namedExports = [] then "no-default-export-simple" else "no-default-export"
  message : d.message = Diagnostic.missingMessage b.name d.namedExports
  severity : d.severity = severity

theorem report?_eq_none (hdis : (Suppression.ofSource source).fileDisabled = false)
    (hb : b ∈ Binding.scan source file) (h : b.isReported w source = false) :
    report? w severity (.ofSource source) b = none := by
  cases hskip : b.isSkipped w with
  | true => rw [report?, Binding.ofBinding_of_isSkipped hskip]
  | false =>
    obtain ⟨target, -, hd⟩ := Binding.ofBinding_of_not_isSkipped hskip
    rw [report?, hd, Decision.judge]
    by_cases hdef : (b.exports w).hasDefault
    · simp [hdef]
    · have hcov : (Suppression.ofSource source).covers b.line = true := by
        rw [← Binding.isIgnored_eq_covers hb hdis]
        simpa [Binding.isReported, hskip, hdef] using h
      simp [hdef, Diagnostic.missing, hcov]

theorem report?_eq_some (severity : String)
    (hdis : (Suppression.ofSource source).fileDisabled = false)
    (hb : b ∈ Binding.scan source file) (h : b.isReported w source = true) :
    ∃ d, report? w severity (.ofSource source) b = some d ∧ Reports w severity b d := by
  simp only [Binding.isReported, Bool.and_eq_true, Bool.not_eq_true'] at h
  obtain ⟨⟨hskip, hdef⟩, hign⟩ := h
  obtain ⟨target, hfound, hd⟩ := Binding.ofBinding_of_not_isSkipped hskip
  have hcov : (Suppression.ofSource source).covers b.line = false := by
    rw [← Binding.isIgnored_eq_covers hb hdis, hign]
  refine ⟨{ Diagnostic.missing b target (b.exports w) with severity := severity }, ?_, ?_⟩
  · rw [report?, hd, Decision.judge]
    simp [hdef, Diagnostic.missing, hcov]
  · refine ⟨rfl, rfl, rfl, rfl, rfl, hfound.symm, rfl, ?_, rfl, rfl⟩
    cases hnames : (b.exports w).names <;>
      simp [Diagnostic.missing, hnames, Diagnostic.Kind.code]

/-- The reports are those on the reported imports, in order. -/
theorem forall₂_reports (hdis : (Suppression.ofSource source).fileDisabled = false)
    {bs : List Binding} (hbs : ∀ b ∈ bs, b ∈ Binding.scan source file) :
    List.Forall₂ (Reports w severity) (bs.filter (·.isReported w source))
      (bs.filterMap (report? w severity (.ofSource source))) := by
  induction bs with
  | nil => exact .nil
  | cons b rest ih =>
    have hrest := ih fun b' hb' => hbs b' (List.mem_cons_of_mem b hb')
    have hb := hbs b List.mem_cons_self
    cases hrep : b.isReported w source with
    | false =>
      rw [List.filter_cons_of_neg (by simp [hrep]),
        List.filterMap_cons_none (report?_eq_none hdis hb hrep)]
      exact hrest
    | true =>
      obtain ⟨d, hd, hreports⟩ := report?_eq_some severity hdis hb hrep
      rw [List.filter_cons_of_pos hrep, List.filterMap_cons_some hd]
      exact .cons hreports hrest

/-- The check of a text always has a result. If a line disables the file, nothing is reported or
counted. Otherwise every import is counted as skipped or as checked, and the diagnostics are one
report for each import that is not skipped, whose target has no default export and whose line
carries no directive, in the order of the text. -/
theorem checkSource_exact (w : Workspace) (policy : CachePolicy) (severity source : String)
    (file : Path) :
    ∃ f, ((ofWorkspace w policy severity).checkSource source file .empty).1 = .ok f ∧
      f.files = [w.absolute file] ∧
      if (Text.lines source.toList).any Suppression.disables then
        f.diagnostics = [] ∧ f.checked = 0 ∧ f.skipped = 0
      else
        let bs := Binding.scan source (w.absolute file)
        f.skipped = bs.countP (·.isSkipped w) ∧ f.checked + f.skipped = bs.length ∧
          List.Forall₂ (Reports w severity) (bs.filter (·.isReported w source))
            f.diagnostics := by
  obtain ⟨d, -, hcheck⟩ :=
    checkSource_of_coherent (coherent_empty w) policy severity source file
  refine ⟨plainSource w severity source file, congrArg Prod.fst hcheck, ?_⟩
  have hflag : (Suppression.ofSource source).fileDisabled =
      (Text.lines source.toList).any Suppression.disables := rfl
  rw [← hflag]
  cases hdis : (Suppression.ofSource source).fileDisabled with
  | true =>
    rw [plainSource_of_disabled w severity file hdis]
    exact ⟨rfl, rfl, rfl, rfl⟩
  | false =>
    rw [plainSource_of_not_disabled w severity file hdis]
    refine ⟨rfl, rfl, ?_, forall₂_reports hdis fun _ hb => hb⟩
    rw [Nat.add_comm]
    simpa using (List.length_eq_countP_add_countP (Binding.isSkipped w)).symm

end Checker

end DefaultImports
