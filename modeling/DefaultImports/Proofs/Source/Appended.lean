import DefaultImports.Proofs.Binding.Statement
import DefaultImports.Proofs.Pattern.Extension
import DefaultImports.Proofs.Text.Newline
import DefaultImports.Proofs.Text.Split
import DefaultImports.Binding
import DefaultImports.Suppression
import Mathlib.Data.List.Basic

/-! A default export at the end of a file, whatever bytes the file has. The imports in it and the
comments that switch checks off stay as they are, and the default is seen. -/
namespace DefaultImports

namespace Pattern

variable {ι : Type} {q : Char → Bool} {a b : Pattern ι}

theorem endsIn_one (p : Char → Bool) : EndsIn p (one p : Pattern ι) := by
  rintro text rest ⟨c, rfl, hc⟩
  exact ⟨[], c, rfl, hc⟩

theorem endsIn_append (a : Pattern ι) (hb : EndsIn q b) : EndsIn q (a ++ b) := by
  rintro text rest ⟨middle, ha, h⟩
  obtain ⟨before, rfl⟩ := leaves_suffix ha
  obtain ⟨xs, c, rfl, hc⟩ := hb _ _ h
  exact ⟨before ++ xs, c, by simp, hc⟩

theorem endsIn_orElse (ha : EndsIn q a) (hb : EndsIn q b) : EndsIn q (a <|> b) := by
  rintro text rest (h | h)
  · exact ha text rest h
  · exact hb text rest h

theorem EndsIn.mono {q' : Char → Bool} (h : EndsIn q a) (hq : ∀ c, q c = true → q' c = true) :
    EndsIn q' a := by
  intro text rest hleaves
  obtain ⟨xs, c, htext, hc⟩ := h text rest hleaves
  exact ⟨xs, c, htext, hq c hc⟩

theorem capture?_extend [BEq ι] (z : List Char) (m : Found ι) (label : ι) :
    (m.extend z).capture? label = (m.capture? label).map (Capture.extend z) :=
  List.find?_map

end Pattern

namespace Binding

open Pattern

variable {text z : List Char}

def isMark (c : Char) : Bool := c == '\x27' || c == '"'

theorem looksBack_statement : LooksBack statement := edgesAre_statement fun _ _ _ => rfl

theorem endsIn_statement : EndsIn isMark statement := by
  have hquoted (c : Char) (hc : isMark c = true) : EndsIn isMark (quoted c) := by
    refine endsIn_append _ ((endsIn_one (· == c)).mono ?_)
    intro d hd
    exact eq_of_beq hd ▸ hc
  exact endsIn_append _ (endsIn_orElse (hquoted '\x27' rfl) (hquoted '"' rfl))

theorem ofFound?_extend (file : Path) {m : Found Part} (hm : ∀ c ∈ m.captures, c.Within)
    (z : List Char) : ofFound? file (m.extend z) = ofFound? file m := by
  simp only [ofFound?, capture?_extend]
  cases hname : m.capture? .name with
  | none => rfl
  | some name =>
    cases hspec : m.capture? .specifier with
    | none => rfl
    | some specifier =>
      have hname' := Capture.text_extend (hm name (List.mem_of_find?_eq_some hname)) z
      have hspec' := Capture.text_extend (hm specifier (List.mem_of_find?_eq_some hspec)) z
      simp only [Option.map_some, Option.bind_eq_bind, Option.bind_some, hname', hspec']
      rfl

/-- Text without quotation marks completes no import and takes none away. -/
theorem scan_append (hz : z.any isMark = false) (text : List Char) (file : Path) :
    scan (String.ofList (text ++ z)) file = scan (String.ofList text) file := by
  have hmarks : ∀ c ∈ z, isMark c = false := by simpa using hz
  have hfound : statement.findAll (text ++ z) = (statement.findAll text).map (Found.extend z) :=
    findAllFrom_append looksBack_statement endsIn_statement hmarks 0 [] text
  rw [scan, scan, String.toList_ofList, String.toList_ofList, hfound, List.filterMap_map]
  apply List.filterMap_congr
  intro m hm
  exact ofFound?_extend file (within_of_mem_findAll hm) z

end Binding

namespace Suppression

variable {z : List Char}

/-- Lines without comments for the checker may be put behind a text. -/
theorem ofSource_append (hz : ∀ line ∈ Text.lines z, disables line = false ∧ ignores line = false)
    (text : List Char) :
    ofSource (String.ofList (text ++ '\n' :: z)) = ofSource (String.ofList text) := by
  have hdirectives : ∀ start,
      ((Text.lines z).zipIdx start).filterMap (fun l => directive? l.1 l.2) = [] := by
    intro start
    refine List.filterMap_eq_nil_iff.mpr ?_
    rintro ⟨line, number⟩ hline
    simp [directive?, hz line (List.fst_mem_of_mem_zipIdx hline)]
  have hdisables : (Text.lines z).any disables = false := by
    simpa using fun line hline => (hz line hline).1
  simp only [ofSource, String.toList_ofList, Text.lines_append_break, List.zipIdx_append,
    List.filterMap_append, hdirectives, List.append_nil, List.any_append, hdisables, Bool.or_false]

end Suppression

namespace Surface

open Pattern

/-- The statement that gives a module a default export. -/
def defaultText : List Char := "export default 0;\n".toList

/-- A default statement is seen whatever stands before it. -/
theorem hasDefaultIn_append (text : List Char) : hasDefaultIn (text ++ defaultText) = true := by
  have hreads : Reads defaultStatement "export default ".toList "0;\n".toList := by
    have hgap {next : List Char} (h : next.head?.any Text.isSpace = false) :
        Reads (someSpace : Pattern Empty) [' '] next :=
      reads_oneOrMore (by simp) (List.forall_mem_singleton.mpr (by decide)) h
    exact reads_append (reads_append (reads_append (reads_word "export") (hgap (by decide)))
      (reads_word "default")) (hgap (by decide))
  have hat := at?_of_takes (hreads ⟨⟨text.reverse ++ [], defaultText⟩, 0, []⟩ rfl)
  have hfound : (defaultStatement.findFrom? [] (text ++ defaultText)).isSome = true :=
    findFrom?_isSome_of_at? (Option.isSome_of_eq_some hat)
  rw [hasDefaultIn, occursIn, find?, hfound, Bool.true_or]

end Surface

namespace Workspace

open Surface

/-- The bytes of a line break and a default export on a line of its own. -/
def defaultLine : List UInt8 := "\nexport default 0;\n".toUTF8.toList

/-- The text of a file with a default export put at its end. A `\r` at the end of the file makes
one line break with the first byte of what is put there. -/
theorem sourceText_defaultLine (bytes : List UInt8) :
    ∃ text, sourceText (bytes ++ defaultLine) = String.ofList (text ++ '\n' :: defaultText) ∧
      (sourceText bytes = String.ofList text ∨
        sourceText bytes = String.ofList (text ++ ['\n'])) := by
  have hdecode : Utf8.decodeLossy (bytes ++ defaultLine) =
      Utf8.decodeLossy bytes ++ '\n' :: defaultText := by
    have hline : defaultLine = 0x0A :: "export default 0;\n".toUTF8.toList := by decide +kernel
    have hrest : Utf8.decodeLossy "export default 0;\n".toUTF8.toList = defaultText := by
      decide +kernel
    rw [hline, Utf8.decodeLossy_append (by decide), hrest]
    rfl
  have hreturn : Text.unifyNewlines defaultText = defaultText :=
    Text.unifyNewlines_of_notMem (by decide)
  obtain ⟨text, hnew, hold⟩ :=
    Text.unifyNewlines_append_break (Utf8.decodeLossy bytes) defaultText
  refine ⟨text, ?_, hold.imp (congrArg String.ofList) (congrArg String.ofList)⟩
  rw [sourceText, hdecode, hnew, hreturn]

theorem scan_defaultLine (bytes : List UInt8) (file : Path) :
    Binding.scan (sourceText (bytes ++ defaultLine)) file =
      Binding.scan (sourceText bytes) file := by
  obtain ⟨text, hnew, hold⟩ := sourceText_defaultLine bytes
  have hscan : Binding.scan (sourceText bytes) file = Binding.scan (String.ofList text) file := by
    rcases hold with hold | hold
    · rw [hold]
    · rw [hold, Binding.scan_append (by decide)]
  rw [hnew, hscan, Binding.scan_append (by decide)]

theorem suppression_defaultLine (bytes : List UInt8) :
    Suppression.ofSource (sourceText (bytes ++ defaultLine)) =
      Suppression.ofSource (sourceText bytes) := by
  obtain ⟨text, hnew, hold⟩ := sourceText_defaultLine bytes
  have hsource : Suppression.ofSource (sourceText bytes) =
      Suppression.ofSource (String.ofList text) := by
    rcases hold with hold | hold
    · rw [hold]
    · rw [hold, Suppression.ofSource_append (by decide +kernel)]
  rw [hnew, hsource, Suppression.ofSource_append (by decide +kernel)]

theorem hasDefault_defaultLine (bytes : List UInt8) :
    (Surface.ofSource (sourceText (bytes ++ defaultLine))).hasDefault = true := by
  obtain ⟨text, hnew, -⟩ := sourceText_defaultLine bytes
  have htext : text ++ '\n' :: defaultText = (text ++ ['\n']) ++ defaultText := by simp
  rw [hnew, htext, ofSource, String.toList_ofList]
  exact hasDefaultIn_append (text ++ ['\n'])

end Workspace

end DefaultImports
