import DefaultImports.Proofs.Report.Unambiguous
import DefaultImports.Report.Basic

/-! The JSON report is a text of printable ASCII, and it says all that it is to say: reports of the
same text agree in everything that is reported. Main statement: `json_lossless`. -/
namespace DefaultImports

namespace JsonValue

/-- Printable ASCII, or the end of a line. -/
def IsPlain (c : Char) : Prop := c = '\n' ∨ 0x20 ≤ c.toNat ∧ c.toNat ≤ 0x7E

instance (c : Char) : Decidable (IsPlain c) := inferInstanceAs (Decidable (_ ∨ _))

/-- A text of plain characters only. -/
def Plain (s : String) : Prop := ∀ c ∈ s.toList, IsPlain c

instance (s : String) : Decidable (Plain s) := List.decidableBAll IsPlain s.toList

theorem Plain.append {a b : String} (ha : Plain a) (hb : Plain b) : Plain (a ++ b) := by
  intro c hc
  rw [String.toList_append] at hc
  rcases List.mem_append.mp hc with hc | hc
  · exact ha c hc
  · exact hb c hc

theorem plain_intercalate {sep : String} {texts : List String} (hsep : Plain sep)
    (h : ∀ t ∈ texts, Plain t) : Plain (sep.intercalate texts) := by
  induction texts with
  | nil => simp [Plain]
  | cons t texts ih =>
    have ht := h t List.mem_cons_self
    have hrest := ih fun u hu => h u (List.mem_cons_of_mem t hu)
    cases texts with
    | nil => simpa using ht
    | cons u texts =>
      rw [String.intercalate_cons_cons]
      exact (ht.append hsep).append hrest

theorem isPlain_of_mem_escapeUnit {n : Nat} {c : Char} (h : c ∈ escapeUnit n) : IsPlain c := by
  rcases List.mem_cons.mp h with rfl | h
  · decide
  · rcases List.mem_cons.mp h with rfl | h
    · decide
    · have hdigit := isHexDigit_of_mem_hex h
      simp only [Toml.isHexDigit, Text.isAsciiDigit, Bool.or_eq_true, Bool.and_eq_true,
        decide_eq_true_eq] at hdigit
      exact .inr (by omega)

theorem isPlain_of_mem_escape {c x : Char} (h : x ∈ escape c) : IsPlain x := by
  have hshort {letter : Char} (hletter : IsPlain letter) (h : x ∈ ['\\', letter]) : IsPlain x := by
    rcases List.mem_pair.mp h with rfl | rfl
    · decide
    · exact hletter
  unfold escape at h
  dsimp only at h
  split at h
  · rename_i hc
    rcases (by simpa using hc : c = '"' ∨ c = '\\') with rfl | rfl <;>
      exact hshort (by decide) h
  iterate 5
    split at h
    · exact hshort (by decide) h
  split at h
  · rename_i hc
    obtain rfl := List.mem_singleton.mp h
    simp only [Bool.and_eq_true, decide_eq_true_eq] at hc
    exact .inr (by omega)
  split at h
  · exact isPlain_of_mem_escapeUnit h
  · rcases List.mem_append.mp h with h | h
    · exact isPlain_of_mem_escapeUnit h
    · exact isPlain_of_mem_escapeUnit h

theorem plain_quoted (s : String) : Plain (quoted s) := by
  intro x hx
  have hmark : IsPlain '"' := by decide
  simp only [quoted, String.toList_ofList, List.cons_append, List.mem_cons, List.mem_append,
    List.mem_flatMap, List.not_mem_nil, or_false] at hx
  rcases hx with rfl | ⟨c, -, hc⟩ | rfl
  · exact hmark
  · exact isPlain_of_mem_escape hc
  · exact hmark

theorem plain_toString_nat (n : Nat) : Plain (toString n) := by
  intro c hc
  have hdigit := (spellsNat_toString n).digits c hc
  rw [Char.isDigit_iff_toNat, show '0'.toNat = 48 from rfl, show '9'.toNat = 57 from rfl] at hdigit
  exact .inr (by omega)

theorem plain_toString_int (n : Int) : Plain (toString n) := by
  cases n with
  | ofNat n => exact plain_toString_nat n
  | negSucc n => exact Plain.append (a := "-") (by decide) (plain_toString_nat (n + 1))

theorem plain_newline (depth : Nat) : Plain (newline depth) := by
  refine Plain.append (a := "\n") (by decide) ?_
  intro c hc
  rw [String.toList_ofList] at hc
  rw [List.eq_of_mem_replicate hc]
  decide

theorem plain_block {opening closing : String} {depth : Nat} {items : List String}
    (hopening : Plain opening) (hclosing : Plain closing) (hitems : ∀ t ∈ items, Plain t) :
    Plain (block opening closing depth items) := by
  have hline := plain_newline (depth + 1)
  have hcomma : Plain "," := by decide
  unfold block
  split
  · exact hopening.append hclosing
  · exact (((hopening.append hline).append (plain_intercalate (hcomma.append hline) hitems)).append
      (plain_newline depth)).append hclosing

mutual

theorem plain_renderAt (depth : Nat) : (v : JsonValue) → Plain (renderAt depth v)
  | .null => by simp only [renderAt]; decide
  | .int n => plain_toString_int n
  | .str s => plain_quoted s
  | .list items =>
    plain_block (by decide) (by decide) (plain_renderItems (depth + 1) items)
  | .object fields =>
    plain_block (by decide) (by decide) (plain_renderFields (depth + 1) fields)

theorem plain_renderItems (depth : Nat) :
    (items : List JsonValue) → ∀ t ∈ renderItems depth items, Plain t
  | [] => List.forall_mem_nil _
  | v :: rest => List.forall_mem_cons.mpr ⟨plain_renderAt depth v, plain_renderItems depth rest⟩

theorem plain_renderFields (depth : Nat) :
    (fields : List (String × JsonValue)) → ∀ t ∈ renderFields depth fields, Plain t
  | [] => List.forall_mem_nil _
  | (key, v) :: rest => by
    have hcolon : Plain ": " := by decide
    exact List.forall_mem_cons.mpr ⟨((plain_quoted key).append hcolon).append
      (plain_renderAt depth v), plain_renderFields depth rest⟩

end

end JsonValue

namespace Report

variable {cwd cwd' : Path} {d e : Diagnostic} {f g : Findings}

/-- Two diagnostics agree in all that a JSON report says about them. -/
structure SameReport (cwd cwd' : Path) (d e : Diagnostic) : Prop where
  file : (cwd.join d.file).toString = (cwd'.join e.file).toString
  line : d.line = e.line
  column : d.column = e.column
  message : d.message = e.message
  kind : d.kind = e.kind
  name : d.name = e.name
  specifier : d.specifier = e.specifier
  target : d.target.map Path.toString = e.target.map Path.toString
  namedExports : d.namedExports = e.namedExports
  severity : d.severity = e.severity

theorem code_inj {k l : Diagnostic.Kind} : k.code = l.code ↔ k = l := by
  cases k <;> cases l <;> simp [Diagnostic.Kind.code]

theorem diagnosticJson_eq_iff :
    diagnosticJson cwd d = diagnosticJson cwd' e ↔ SameReport cwd cwd' d e := by
  have hexports : d.namedExports.map JsonValue.str = e.namedExports.map JsonValue.str ↔
      d.namedExports = e.namedExports := List.map_inj_right fun _ _ => JsonValue.str.inj
  simp only [diagnosticJson, JsonValue.object.injEq, List.cons.injEq, Prod.mk.injEq,
    JsonValue.str.injEq, JsonValue.int.injEq, JsonValue.list.injEq, true_and, and_true,
    hexports, code_inj, pathText, if_true]
  constructor
  · rintro ⟨hfile, hline, hcolumn, hmessage, hkind, hname, hspecifier, htarget, hnames, hseverity⟩
    refine ⟨hfile, hline, hcolumn, hmessage, hkind, hname, hspecifier, ?_, hnames, hseverity⟩
    -- A missing target is written as null, which is no text.
    cases hd : d.target <;> cases he : e.target <;> simp_all
  · rintro ⟨hfile, hline, hcolumn, hmessage, hkind, hname, hspecifier, htarget, hnames, hseverity⟩
    refine ⟨hfile, hline, hcolumn, hmessage, hkind, hname, hspecifier, ?_, hnames, hseverity⟩
    cases hd : d.target <;> cases he : e.target <;> simp_all

theorem toJson_eq_iff : toJson cwd f = toJson cwd' g ↔
    List.Forall₂ (SameReport cwd cwd') f.diagnostics g.diagnostics ∧
      fileCount f = fileCount g ∧ f.checked = g.checked ∧ f.skipped = g.skipped ∧
      f.diagnostics.length = g.diagnostics.length := by
  have hdiagnostics : f.diagnostics.map (diagnosticJson cwd) =
      g.diagnostics.map (diagnosticJson cwd') ↔
      List.Forall₂ (SameReport cwd cwd') f.diagnostics g.diagnostics := by
    rw [← List.forall₂_eq_eq_eq, List.forall₂_map_left_iff, List.forall₂_map_right_iff]
    simp only [diagnosticJson_eq_iff]
  simp only [toJson, JsonValue.object.injEq, List.cons.injEq, Prod.mk.injEq, JsonValue.int.injEq,
    JsonValue.list.injEq, true_and, and_true, hdiagnostics, Int.natCast_inj]

/-- A JSON report holds printable ASCII and line ends only. Two reports have the same text iff their
diagnostics agree one by one in all that is reported about them, with the paths of the files made
absolute, and iff the numbers in their summaries agree. -/
theorem json_lossless (cwd cwd' : Path) (f g : Findings) :
    (∀ c ∈ (json cwd f).toList, c = '\n' ∨ 0x20 ≤ c.toNat ∧ c.toNat ≤ 0x7E) ∧
    (json cwd f = json cwd' g ↔
      List.Forall₂ (SameReport cwd cwd') f.diagnostics g.diagnostics ∧
        fileCount f = fileCount g ∧ f.checked = g.checked ∧ f.skipped = g.skipped ∧
        f.diagnostics.length = g.diagnostics.length) := by
  refine ⟨JsonValue.plain_renderAt 0 (toJson cwd f), ?_⟩
  rw [json, json, JsonValue.render_inj, toJson_eq_iff]

end Report

end DefaultImports
