import DefaultImports.Proofs.Binding.FirstLine
import DefaultImports.Proofs.Check.LineEndings
import DefaultImports.Proofs.Check.Spelling
import DefaultImports.Proofs.Suppression.Comment
import DefaultImports.Proofs.Surface.Default
import DefaultImports.Proofs.Surface.Names

/-! A byte order mark at the start of a file. Main statement: `checkFile_byteOrderMark`, exports and
comments are read as without it, but no import is found on the first line. -/
namespace DefaultImports

namespace Utf8

/-- The encoded form of U+FEFF, by which a file can say that it is in UTF-8. -/
def byteOrderMark : List UInt8 := [0xEF, 0xBB, 0xBF]

theorem decodeLossy_byteOrderMark (bytes : List UInt8) :
    decodeLossy (byteOrderMark ++ bytes) = '\uFEFF' :: decodeLossy bytes := rfl

end Utf8

open Utf8 (byteOrderMark)

/-- The mark is the first character of the text. -/
theorem Workspace.sourceText_byteOrderMark (bytes : List UInt8) :
    sourceText (byteOrderMark ++ bytes) =
      String.ofList ('\uFEFF' :: (sourceText bytes).toList) := by
  rw [sourceText, Utf8.decodeLossy_byteOrderMark, Text.unifyNewlines_cons (by decide), sourceText,
    String.toList_ofList]

/-! ## Exports -/

namespace Surface

open Pattern

variable {c : Char}

theorem edgesAre_braceList (P : (Cursor → Bool) → Prop) : EdgesAre P braceList := by
  simp [braceList]

theorem edgesAre_declarator (P : (Cursor → Bool) → Prop) : EdgesAre P declarator := by
  simp [declarator]

theorem edgesAre_declaration (P : (Cursor → Bool) → Prop) : EdgesAre P declaration := by
  simp [declaration, edgesAre_declarator]

theorem not_prefix_export (hc : c ≠ 'e') (text : List Char) :
    ¬ "export".toList <+: c :: text := by
  rintro ⟨rest, h⟩
  exact hc (List.cons.inj h).1.symm

theorem captured_behind (z : List Char) (found : List (Found Unit)) :
    captured (found.map (Found.behind z)) = captured found := by
  rw [captured, captured, List.filterMap_map]
  apply List.filterMap_congr
  intro m _
  rw [Function.comp_apply, capture?_behind, Option.map_map]
  rfl

/-- Before a text, a character that starts no export changes none. -/
theorem ofSource_cons (hc : c ≠ 'e') (text : List Char) :
    ofSource (String.ofList (c :: text)) = ofSource (String.ofList text) := by
  have hdefault : hasDefaultIn (c :: text) = hasDefaultIn text := by
    rw [Bool.eq_iff_iff, hasDefaultIn_iff, hasDefaultIn_iff]
    constructor
    · rintro ⟨form, hform, hinfix⟩
      refine ⟨form, hform, (List.infix_cons_iff.mp hinfix).resolve_left ?_⟩
      rintro ⟨rest, h⟩
      cases hform <;> exact hc (List.cons.inj h).1.symm
    · rintro ⟨form, hform, hinfix⟩
      exact ⟨form, hform, hinfix.trans (List.suffix_cons c text).isInfix⟩
  have hlists :
      braceList.findAll (c :: text) = (braceList.findAll text).map (Found.behind [c]) :=
    findAll_cons (edgesAre_braceList _) (marked_braceList _ (not_prefix_export hc text))
  have hdeclarations :
      declaration.findAll (c :: text) = (declaration.findAll text).map (Found.behind [c]) :=
    findAll_cons (edgesAre_declaration _) (marked_declaration _ (not_prefix_export hc text))
  simp only [ofSource, namesIn, listedNames, declaredNames, String.toList_ofList, hdefault, hlists,
    hdeclarations, captured_behind]

end Surface

/-! ## Comments -/

namespace Suppression

open Text

variable {action : String} {c : Char} {s s' : Suppression}

theorem carries_cons (hc : c ≠ '/') (line : List Char) :
    Carries action (c :: line) ↔ Carries action line := by
  constructor
  · rintro ⟨before, comment, after, hline, hafter⟩
    cases before with
    | nil =>
      rw [List.nil_append, Comment.text_append] at hline
      cases hopener : comment.opener <;> rw [hopener] at hline <;>
        exact absurd (List.cons.inj hline).1 hc
    | cons x before => exact ⟨before, comment, after, (List.cons.inj hline).2, hafter⟩
  · rintro ⟨before, comment, after, rfl, hafter⟩
    exact ⟨c :: before, comment, after, rfl, hafter⟩

theorem asks_cons (hc : c ≠ '/') (line : List Char) : asks (c :: line) = asks line := by
  have hdisables : disables (c :: line) = disables line := by
    rw [Bool.eq_iff_iff, disables_iff, disables_iff, carries_cons hc]
  have hignores : ignores (c :: line) = ignores line := by
    rw [Bool.eq_iff_iff, ignores_iff, ignores_iff, carries_cons hc]
  rw [asks, asks, hdisables, hignores]

theorem asks_lines_cons (hslash : c ≠ '/') (hbreak : c ≠ '\n') (text : List Char) :
    (lines (c :: text)).map asks = (lines text).map asks := by
  obtain ⟨others, h⟩ := lines_eq_cons text
  have hcons : lines (c :: text) = (c :: text.takeWhile (· != '\n')) :: others := by
    have hsplit : split (· == '\n') text = _ := h
    simp [lines, split, hbreak, hsplit]
  rw [hcons, h, List.map_cons, List.map_cons, asks_cons hslash]

theorem covers_of_lines (hdisabled : s'.fileDisabled = s.fileDisabled)
    (hlines : s'.directives.map (·.line) = s.directives.map (·.line)) (n : Int) :
    s'.covers n = s.covers n := by
  have hcovers (s : Suppression) : s.covers n =
      (s.fileDisabled || (s.directives.map (·.line)).any fun line : Nat => (line : Int) == n) := by
    rw [covers, List.any_map]
    rfl
  rw [hcovers, hcovers, hdisabled, hlines]

/-- Before a text, a character that starts no comment switches nothing off or on. -/
theorem ofSource_cons (hslash : c ≠ '/') (hbreak : c ≠ '\n') (source : String) :
    (ofSource (String.ofList (c :: source.toList))).fileDisabled = (ofSource source).fileDisabled ∧
      ∀ n, (ofSource (String.ofList (c :: source.toList))).covers n =
        (ofSource source).covers n := by
  have hasks : (lines (String.ofList (c :: source.toList)).toList).map asks =
      (lines source.toList).map asks := by
    rw [String.toList_ofList]
    exact asks_lines_cons hslash hbreak source.toList
  obtain ⟨hdisabled, hlines⟩ := ofSource_of_asks hasks
  exact ⟨hdisabled, covers_of_lines hdisabled hlines⟩

end Suppression

/-! ## Imports -/

/-- Behind a character that is neither blank nor the start of `import`, no import is found up to the
end of the line. -/
theorem Binding.scan_cons {c : Char} (hblank : isBlank c = false) (hword : c ≠ 'i')
    (hbreak : c ≠ '\n') (source : String) (file : Path) :
    scan (String.ofList (c :: source.toList)) file = scan (emptyFirstLine source) file := by
  have hsplit := List.takeWhile_append_dropWhile (p := (· != '\n')) (l := source.toList)
  have hline : WithoutDefault (c :: source.toList.takeWhile (· != '\n')) := by
    refine .other ?_
    rw [List.dropWhile_cons_of_neg (by simp [hblank])]
    rintro ⟨rest, h⟩
    exact hword (List.cons.inj h).1.symm
  have hunopened : statement.at? (.ofText (String.ofList (c :: source.toList)).toList) = none := by
    rw [Cursor.ofText, String.toList_ofList, ← hsplit, ← List.cons_append]
    exact at?_withoutDefault hline (Text.head?_dropWhile_any (· != '\n') source.toList)
  rw [← scan_of_unopened hunopened, emptyFirstLine, String.toList_ofList,
    List.dropWhile_cons_of_pos (by simpa using hbreak)]
  rfl

/-! ## Findings -/

namespace Workspace

variable {w : Workspace} {place : List String} {bytes : List UInt8} {p : Path}

theorem readSource_byteOrderMark (h : w.locate p = .ok (place, .file bytes)) :
    (w.put place (byteOrderMark ++ bytes)).readSource p =
      .ok (String.ofList ('\uFEFF' :: (sourceText bytes).toList)) := by
  have hedits := edits_put (entryAt?_of_locate h) (byteOrderMark ++ ·)
  rw [readSource_eq_locate, hedits.locate_eq, h]
  simp [Functor.map, Except.map, Entry.edit, sourceText_byteOrderMark]

/-- A path leads to the same exports, whether it leads to the file with the mark or not. -/
theorem read_byteOrderMark (h : w.entryAt? place = some (.file bytes)) (p : Path) :
    Surface.read (w.put place (byteOrderMark ++ bytes)) p = Surface.read w p := by
  rcases (edits_put h (byteOrderMark ++ ·)).readSource_cases p with
    ⟨other, content, -, hold, hnew⟩ | ⟨-, hsame⟩
  · rw [Surface.read, Surface.read, hold, hnew]
    by_cases hother : other = place
    · simp only [if_pos hother, sourceText_byteOrderMark]
      rw [Surface.ofSource_cons (by decide), String.ofList_toList]
    · simp only [if_neg hother, id]
  · rw [Surface.read, Surface.read, hsame]

end Workspace

namespace Checker

open Workspace SurfaceCache

variable {w : Workspace} {place : List String} {bytes : List UInt8} {severity : String}
  {s s' : Suppression} {file : Path}

/-- The findings in a file with the given imports and comments. -/
def findingsOn (w : Workspace) (severity : String) (s : Suppression) (file : Path)
    (bs : List Binding) : Findings :=
  if s.fileDisabled then .ofFile file else plainBindings w severity s bs (.ofFile file)

/-- Of the comments only the lines that they cover count. -/
theorem findingsOn_of_covers (hdisabled : s'.fileDisabled = s.fileDisabled)
    (hcovers : ∀ n, s'.covers n = s.covers n) (w : Workspace) (severity : String) (file : Path)
    (bs : List Binding) :
    findingsOn w severity s' file bs = findingsOn w severity s file bs := by
  have hrecord (k : Checker) : k.record s' = k.record s := by
    funext f d
    cases d with
    | skipped | clean => rfl
    | flagged d => rw [record, record, hcovers]
  simp only [findingsOn, plainBindings, hdisabled, hrecord]

theorem checkFile_of_readSource (hcwd : w.cwd.isAbsolute = true) {source : String}
    (hread : w.readSource (w.absolute file) = .ok source) (policy : CachePolicy)
    (severity : String) :
    ((ofWorkspace w policy severity).checkFile file .empty).1 =
      .ok (findingsOn w severity (.ofSource source) (w.absolute file)
        (Binding.scan source (w.absolute file))) := by
  obtain ⟨c, -, hcheck⟩ := checkFile_of_coherent (coherent_empty w) policy severity file
  rw [hcheck]
  simp only [plainFile, hread, plainSource, absolute_absolute hcwd]
  rfl

theorem findingsOn_byteOrderMark (h : w.entryAt? place = some (.file bytes)) (severity : String)
    (s : Suppression) (file : Path) (bs : List Binding) :
    findingsOn (w.put place (byteOrderMark ++ bytes)) severity s file bs =
      findingsOn w severity s file bs := by
  have hedits := edits_put h (byteOrderMark ++ ·)
  have hbindings (f : Findings) :
      plainBindings (w.put place (byteOrderMark ++ bytes)) severity s bs f =
        plainBindings w severity s bs f := by
    apply plainBindings_congr
    intro b _
    exact ofBinding_of_read hedits.cwd hedits.exists?_eq (read_byteOrderMark h) b
  rw [findingsOn, findingsOn, hbindings]

/-- With a byte order mark in front, a file is checked by the same comments and exports, but only
for the imports that are found when its first line is empty. These are the imports of the file,
unless one opens it: that one is not found any more, and it alone if it ends on its line. -/
theorem checkFile_byteOrderMark {w : Workspace} {file : Path} {place : List String}
    {bytes : List UInt8} (hcwd : w.cwd.isAbsolute = true)
    (h : w.locate file = .ok (place, .file bytes)) (policy : CachePolicy) (severity : String) :
    let marked := w.put place (byteOrderMark ++ bytes)
    let source := sourceText bytes
    let rest := Binding.emptyFirstLine source
    let findings := findingsOn w severity (.ofSource source) (w.absolute file)
    Binding.scanFile w file = .ok (Binding.scan source file) ∧
      Binding.scanFile marked file = .ok (Binding.scan rest file) ∧
      ((ofWorkspace w policy severity).checkFile file .empty).1 =
        .ok (findings (Binding.scan source (w.absolute file))) ∧
      ((ofWorkspace marked policy severity).checkFile file .empty).1 =
        .ok (findings (Binding.scan rest (w.absolute file))) ∧
      ∀ path, match Binding.statement.at? (.ofText source.toList) with
        | none => Binding.scan rest path = Binding.scan source path
        | some m => ∃ b others, Binding.ofFound? path m = some b ∧
            Binding.scan source path = b :: others ∧ b ∉ Binding.scan rest path ∧
            ('\n' ∉ source.toList.take m.size → Binding.scan rest path = others) := by
  intro marked source rest findings
  have hentry := entryAt?_of_locate h
  have habsolute := (locate_absolute hcwd file).trans h
  have hold {p : Path} (hp : w.locate p = .ok (place, .file bytes)) :
      w.readSource p = .ok source := by
    rw [readSource_eq_locate, hp]
  have hscan (p : Path) : Binding.scan (String.ofList ('\uFEFF' :: source.toList)) p =
      Binding.scan rest p := Binding.scan_cons (by decide) (by decide) (by decide) source p
  obtain ⟨hdisabled, hcovers⟩ :=
    Suppression.ofSource_cons (c := '\uFEFF') (by decide) (by decide) source
  refine ⟨?_, ?_, checkFile_of_readSource hcwd (hold habsolute) policy severity, ?_,
    Binding.scan_emptyFirstLine source⟩
  · rw [Binding.scanFile, hold h]
    rfl
  · rw [Binding.scanFile, readSource_byteOrderMark h, ← hscan]
    rfl
  · rw [checkFile_of_readSource (w := marked) hcwd (readSource_byteOrderMark habsolute) policy
      severity, findingsOn_byteOrderMark hentry, findingsOn_of_covers hdisabled hcovers, hscan]
    rfl

def samplePair (importer : String) : Workspace where
  entries :=
    [(["w"], .directory), (["w", "a.js"], .file importer.toUTF8.toList),
      (["w", "b.js"], .file "export default 1\n".toUTF8.toList)]
  cwd := ⟨.root, ["w"]⟩

/-- The import that opens the text holds another one, which is found in its place. -/
def sampleHeld : String :=
  "import A, \x7b\nimport B from './b'\n\x7d from './b'\nimport C from './b'"

theorem checkFile_sampleHeld :
    let w := samplePair sampleHeld
    let file : Path := ⟨.relative, ["a.js"]⟩
    let marked := w.put ["w", "a.js"] (byteOrderMark ++ sampleHeld.toUTF8.toList)
    w.cwd.isAbsolute = true ∧
      w.locate file = .ok (["w", "a.js"], .file sampleHeld.toUTF8.toList) ∧
      (Binding.scanFile w file).map (·.map (·.name)) = .ok ["A", "C"] ∧
      (Binding.scanFile marked file).map (·.map (·.name)) = .ok ["B", "C"] := by
  intro w file marked
  have hplace : w.locate file = .ok (["w", "a.js"], .file sampleHeld.toUTF8.toList) := by
    decide +kernel
  obtain ⟨hold, hnew, -⟩ := checkFile_byteOrderMark (by decide) hplace .default "error"
  refine ⟨by decide, hplace, ?_, ?_⟩
  · rw [hold]
    decide +kernel
  · rw [hnew]
    decide +kernel

/-- An import on the first line is found and checked without the mark, and neither with it. -/
theorem checkFile_sampleFirst :
    let source := "import X from './b'\n"
    let w := samplePair source
    let marked := w.put ["w", "a.js"] (byteOrderMark ++ source.toUTF8.toList)
    let file : Path := ⟨.relative, ["a.js"]⟩
    (Binding.scanFile w file).map (·.map (·.name)) = .ok ["X"] ∧
      (Binding.scanFile marked file).map (·.map (·.name)) = .ok [] ∧
      ((ofWorkspace w .default "error").checkFile file .empty).1.map (·.checked) = .ok 1 ∧
      ((ofWorkspace marked .default "error").checkFile file .empty).1.map (·.checked) = .ok 0 := by
  decide +kernel

end Checker

end DefaultImports
