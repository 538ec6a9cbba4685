import DefaultImports.Proofs.Report.Lossless
import DefaultImports.Proofs.Text.Run
import DefaultImports.Workspace

/-! Which reports can be written. A JSON document always can, and the lines of a text report can
unless one shows a raw byte in the path of its file. Main statements: `encode_eq_error_iff`,
`encodes_json` and `encodes_text`. -/
namespace DefaultImports

namespace Utf8

variable {raw? : Char → Option UInt8} {text : List Char} {fault : EncodeFault}

/-- A fault is about the first stretch of raw bytes in a text, which is as long as can be. -/
inductive FirstStretch (raw? : Char → Option UInt8) : List Char → EncodeFault → Prop where
  | intro {before run rest : List Char} {c : Char} {byte : UInt8}
      (hbefore : ∀ x ∈ before, raw? x = none) (hfirst : raw? c = some byte)
      (hrun : ∀ x ∈ run, (raw? x).isSome = true)
      (hrest : rest.head?.any (raw? · |>.isSome) = false) :
      FirstStretch raw? (before ++ c :: (run ++ rest)) ⟨before.length, byte, run.length + 1⟩

theorem encodeFault?_eq_none (position : Nat) : encodeFault? raw? position text = none ↔
    ∀ c ∈ text, raw? c = none := by
  induction text generalizing position with
  | nil => simp [encodeFault?]
  | cons c rest ih =>
    rw [encodeFault?, List.forall_mem_cons]
    cases hc : raw? c with
    | none => simpa using ih (position + 1)
    | some byte => simp

theorem encodeFault?_append {before : List Char} (h : ∀ x ∈ before, raw? x = none)
    (position : Nat) (text : List Char) : encodeFault? raw? position (before ++ text) =
      encodeFault? raw? (position + before.length) text := by
  induction before generalizing position with
  | nil => rfl
  | cons x before ih =>
    obtain ⟨hx, hbefore⟩ := List.forall_mem_cons.mp h
    rw [List.cons_append, encodeFault?, hx]
    dsimp only
    rw [ih hbefore, List.length_cons, Nat.add_assoc, Nat.add_comm 1]

theorem encodeFault?_eq_some_iff :
    encodeFault? raw? 0 text = some fault ↔ FirstStretch raw? text fault := by
  constructor
  · intro h
    obtain ⟨before, left, rfl, hbefore, hleft⟩ : ∃ before left, text = before ++ left ∧
        (∀ x ∈ before, raw? x = none) ∧ left.head?.any (raw? · |>.isNone) = false := by
      refine ⟨text.takeWhile (raw? · |>.isNone), text.dropWhile (raw? · |>.isNone),
        List.takeWhile_append_dropWhile.symm, ?_, Text.head?_dropWhile_any _ text⟩
      intro x hx
      simpa using Text.of_mem_takeWhile hx
    rw [encodeFault?_append hbefore, Nat.zero_add] at h
    cases left with
    | nil => cases h
    | cons c rest =>
      obtain ⟨byte, hc⟩ : ∃ byte, raw? c = some byte :=
        Option.isSome_iff_exists.mp (by simpa using hleft)
      rw [encodeFault?, hc] at h
      obtain rfl := Option.some.inj h
      have hstretch : ∀ x ∈ rest.takeWhile (raw? · |>.isSome), (raw? x).isSome = true :=
        fun _ => Text.of_mem_takeWhile
      have hfound := FirstStretch.intro hbefore hc hstretch
        (Text.head?_dropWhile_any (raw? · |>.isSome) rest)
      rwa [List.takeWhile_append_dropWhile] at hfound
  · rintro ⟨hbefore, hfirst, hrun, hrest⟩
    rename_i before run rest c byte
    have hstretch : (run ++ rest).takeWhile (raw? · |>.isSome) = run :=
      (Text.append_inj_of_run List.takeWhile_append_dropWhile (fun _ => Text.of_mem_takeWhile) hrun
        (Text.head?_dropWhile_any _ _) hrest).1
    rw [encodeFault?_append hbefore, encodeFault?, hfirst, Nat.zero_add]
    dsimp only
    rw [hstretch]

end Utf8

namespace Workspace

variable {w : Workspace} {s t : String} {bytes : List UInt8} {fault : Utf8.EncodeFault}

/-- A text without raw bytes. -/
def Encodes (w : Workspace) (text : String) : Prop := ∀ c ∈ text.toList, w.rawByte? c = none

theorem encode_eq_utf8 (w : Workspace) (text : String) :
    w.encode text = Utf8.encode w.rawByte? text := by
  obtain ⟨entries, cwd, raw⟩ := w
  cases raw with
  | none =>
    have hnone : Utf8.encodeFault? (fun _ => none) 0 text.toList = none :=
      (Utf8.encodeFault?_eq_none 0).mpr fun _ _ => rfl
    change _ = Utf8.encode (fun _ => none) text
    rw [Utf8.encode, hnone]
    rfl
  | some block => rfl

theorem encode_eq_ok_iff : w.encode t = .ok bytes ↔ w.Encodes t ∧ bytes = t.toUTF8.toList := by
  rw [encode_eq_utf8, Utf8.encode, Encodes, ← Utf8.encodeFault?_eq_none 0]
  cases Utf8.encodeFault? w.rawByte? 0 t.toList with
  | none => simp [eq_comm]
  | some fault => simp

theorem encode_eq_error_iff :
    w.encode t = .error fault ↔ Utf8.FirstStretch w.rawByte? t.toList fault := by
  rw [encode_eq_utf8, Utf8.encode, ← Utf8.encodeFault?_eq_some_iff]
  cases Utf8.encodeFault? w.rawByte? 0 t.toList with
  | none => simp
  | some fault => simp

theorem encodes_append : w.Encodes (s ++ t) ↔ w.Encodes s ∧ w.Encodes t := by
  simp only [Encodes, String.toList_append, List.forall_mem_append]

theorem Encodes.append (hs : w.Encodes s) (ht : w.Encodes t) : w.Encodes (s ++ t) :=
  encodes_append.mpr ⟨hs, ht⟩

theorem encodes_intercalate (hs : w.Encodes s) (texts : List String) :
    w.Encodes (s.intercalate texts) ↔ ∀ t ∈ texts, w.Encodes t := by
  induction texts with
  | nil => simp [Encodes]
  | cons first rest ih =>
    cases rest with
    | nil => simp
    | cons next rest =>
      rw [String.intercalate_cons_cons, encodes_append, encodes_append, ih, and_iff_left hs,
        List.forall_mem_cons (a := first)]

/-- Raw bytes are not ASCII. -/
theorem encodes_of_plain (h : JsonValue.Plain t) : w.Encodes t := by
  intro c hc
  have hlt : c.toNat < 0x80 := by
    rcases h c hc with rfl | hplain
    · decide
    · omega
  rw [rawByte?]
  cases w.raw with
  | none => rfl
  | some block =>
    have hstart := block.start_ge
    rw [Option.bind_some, Utf8.RawBlock.byte?, if_neg (by omega)]

end Workspace

namespace Report

open JsonValue

variable {w : Workspace} {cwd : Path} {absolute : Bool} {d : Diagnostic} {f : Findings}

theorem encodes_json (w : Workspace) (cwd : Path) (f : Findings) : w.Encodes (json cwd f) :=
  Workspace.encodes_of_plain (plain_renderAt 0 (toJson cwd f))

theorem encodes_missingMessage {name : String} {names : List String} (hname : w.Encodes name)
    (hnames : ∀ other ∈ names, w.Encodes other) :
    w.Encodes (Diagnostic.missingMessage name names) := by
  have hmarks : ∀ mark ∈ ["Default import '", "' not found", ". Available named exports: ", ", "],
      Plain mark := by decide
  simp only [List.forall_mem_cons] at hmarks
  obtain ⟨hopen, hclose, hlead, hcomma, -⟩ := hmarks
  have hstart := ((Workspace.encodes_of_plain hopen).append hname).append
    (Workspace.encodes_of_plain hclose)
  unfold Diagnostic.missingMessage
  dsimp only
  split
  · exact hstart
  · exact (hstart.append (Workspace.encodes_of_plain hlead)).append
      ((Workspace.encodes_intercalate (Workspace.encodes_of_plain hcomma) names).mpr hnames)

theorem encodes_diagnosticLine (hseverity : w.Encodes d.severity) (hmessage : w.Encodes d.message) :
    w.Encodes (diagnosticLine cwd absolute d) ↔ w.Encodes (pathText cwd absolute d.file) := by
  have hkind : Plain d.kind.code := by cases d.kind <;> decide
  have hmarks : ∀ mark ∈ [":", ": ", " [", "]"], Plain mark := by decide
  simp only [List.forall_mem_cons] at hmarks
  obtain ⟨hcolon, hcolonBlank, hopen, hclose, -⟩ := hmarks
  simp only [diagnosticLine, Workspace.encodes_append, Workspace.encodes_of_plain hcolon,
    Workspace.encodes_of_plain hcolonBlank, Workspace.encodes_of_plain hopen,
    Workspace.encodes_of_plain hclose, Workspace.encodes_of_plain hkind,
    Workspace.encodes_of_plain (plain_toString_int _), hseverity, hmessage, and_true]

theorem plain_countLine (n : Nat) : Plain (countLine n) := by
  refine ((plain_toString_nat n).append ?_).append (by decide)
  split <;> decide

theorem plain_summaryLines (f : Findings) : ∀ line ∈ summaryLines f, Plain line := by
  have htitles : ∀ title ∈ ["", "import summary:", "  files analysed: ", "  imports checked: ",
      "  imports skipped: "], Plain title := by decide
  simp only [List.forall_mem_cons] at htitles
  obtain ⟨hempty, htitle, hfiles, hchecked, hskipped, -⟩ := htitles
  simp only [summaryLines, List.forall_mem_cons]
  exact ⟨hempty, htitle, hfiles.append (plain_toString_nat _),
    hchecked.append (plain_toString_nat _), hskipped.append (plain_toString_nat _),
    List.forall_mem_nil _⟩

/-- A text report can be written iff the paths that it shows can be. -/
theorem encodes_text (verbose : Bool)
    (h : ∀ d ∈ f.diagnostics, w.Encodes d.severity ∧ w.Encodes d.message) :
    w.Encodes (text cwd absolute verbose f) ↔
      ∀ d ∈ f.diagnostics, w.Encodes (pathText cwd absolute d.file) := by
  have hcount := Workspace.encodes_of_plain (w := w) (plain_countLine f.diagnostics.length)
  have hsummary : ∀ line ∈ (if verbose then summaryLines f else []), w.Encodes line := by
    intro line hline
    split at hline
    · exact Workspace.encodes_of_plain (plain_summaryLines f line hline)
    · cases hline
  rw [text, Workspace.encodes_intercalate (Workspace.encodes_of_plain (by decide)), textLines]
  simp only [List.forall_mem_append, List.forall_mem_map, List.forall_mem_singleton]
  rw [and_iff_left hsummary, and_iff_left hcount]
  exact forall₂_congr fun d hd => encodes_diagnosticLine (h d hd).1 (h d hd).2

end Report

end DefaultImports
