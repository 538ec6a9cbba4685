import DefaultImports.Proofs.Path.Text
import DefaultImports.Specifier.Resolution

/-! The paths tried for a specifier, as a walk over the texts of the importing file and of the
specifier. Main statement: `candidates_exact`. -/
namespace DefaultImports

namespace Path

variable {stack : List String} {s t : List Char} {dir text : String} {p : Path}

/-! ## A walk over segments -/

/-- One segment of a path on a stack, whose top is the last segment so far: nothing and `.` leave
the stack as it is, and `..` takes the top away if there is one. -/
def advance (stack : List String) (segment : List Char) : List String :=
  if segment = [] ∨ segment = ['.'] then stack
  else if segment = ['.', '.'] then stack.tail
  else String.ofList segment :: stack

/-- All segments of a text on a stack, one after the other. -/
def follow (stack : List String) (text : String) : List String :=
  (text.toList.splitOn '/').foldl advance stack

/-- A segment that is the name of something, and neither a step up nor none at all. -/
def IsPlain (segment : String) : Prop :=
  segment ≠ "" ∧ segment ≠ "." ∧ segment ≠ ".." ∧ '/' ∉ segment.toList

theorem plain_advance {segment : List Char} (hslash : '/' ∉ segment)
    (h : ∀ part ∈ stack, IsPlain part) : ∀ part ∈ advance stack segment, IsPlain part := by
  unfold advance
  split
  · exact h
  · rename_i hself
    split
    · exact fun part hpart => h part (List.mem_of_mem_tail hpart)
    · rename_i hup
      rw [not_or] at hself
      intro part hpart
      rcases List.mem_cons.mp hpart with rfl | hpart
      · refine ⟨?_, ?_, ?_, by simpa using hslash⟩
        · simpa using hself.1
        · exact fun h => hself.2 (by simpa using congrArg String.toList h)
        · exact fun h => hup (by simpa using congrArg String.toList h)
      · exact h part hpart

theorem plain_follow (text : String) (h : ∀ part ∈ stack, IsPlain part) :
    ∀ part ∈ follow stack text, IsPlain part := by
  have hslash : ∀ segment ∈ text.toList.splitOn '/', '/' ∉ segment := by
    intro segment hsegment hc
    rw [List.splitOn_eq_splitOnP, ← Text.split_eq_splitOnP] at hsegment
    simpa using Text.of_mem_split hsegment hc
  unfold follow
  generalize text.toList.splitOn '/' = segments at hslash
  induction segments generalizing stack with
  | nil => exact h
  | cons segment segments ih =>
    exact ih (plain_advance (hslash segment List.mem_cons_self) h)
      fun other hother => hslash other (List.mem_cons_of_mem _ hother)

/-- Segments are walked as the parts of a path are. -/
theorem follow_eq_foldl_enter (stack : List String) (text : String) :
    follow stack text = (segments text.toList).foldl enter stack := by
  have hstep : ∀ stack segment, advance stack segment =
      if String.ofList segment != "" && String.ofList segment != "." then
        enter stack (String.ofList segment) else stack := by
    intro stack segment
    have hsame (t : String) : String.ofList segment = t ↔ segment = t.toList := by
      rw [← String.toList_inj, String.toList_ofList]
    by_cases hempty : segment = []
    · simp [advance, hempty]
    · by_cases hdot : segment = ['.']
      · simp [advance, hdot]
      · simp [advance, enter, hempty, hdot, hsame]
  rw [follow, segments, List.foldl_filter, List.foldl_map, Text.split_eq_splitOnP,
    List.splitOn_eq_splitOnP]
  congr 1
  funext stack segment
  exact hstep stack segment

/-- What is on a stack without `..` is walked to where it is. -/
theorem foldl_enter_reverse (h : ∀ part ∈ stack, IsPlain part) :
    stack.reverse.foldl enter [] = stack := by
  induction stack with
  | nil => rfl
  | cons part stack ih =>
    have hup : part ≠ ".." := (h part List.mem_cons_self).2.2.1
    rw [List.reverse_cons, List.foldl_append,
      ih fun other hother => h other (List.mem_cons_of_mem _ hother)]
    simp [enter, hup]

/-! ## Absolute texts -/

/-- A text as seen from a directory: a slash is put between the two unless there is one. -/
def absoluteText (dir text : String) : String :=
  if text.toList.head? = some '/' then text
  else if dir.toList.getLast? = some '/' then dir ++ text
  else dir ++ "/" ++ text

/-- The slashes in front of an absolute text: two if there are exactly two, else one. -/
def lead (text : String) : String :=
  if "//".toList <+: text.toList ∧ ¬ "///".toList <+: text.toList then "//" else "/"

theorem segments_append_slash (s t : List Char) :
    segments (s ++ '/' :: t) = segments s ++ segments t := by
  have hsplit : (s ++ '/' :: t).splitOnP (· == '/') =
      s.splitOnP (· == '/') ++ t.splitOnP (· == '/') := List.splitOnP_append_cons s t rfl
  simp only [segments, Text.split_eq_splitOnP, hsplit, List.map_append, List.filter_append]

/-- More text at the end keeps the anchor, unless it goes on with the slashes in front. -/
theorem anchorOf_append (hs : s.head? = some '/')
    (h : s.getLast? = some '/' → t.head? ≠ some '/') : anchorOf (s ++ t) = anchorOf s := by
  obtain ⟨s, rfl⟩ := List.head?_eq_some_iff.mp hs
  match s, h with
  | [], h =>
    have ht := h rfl
    exact (anchorOf_of_head? ht).2.1
  | [a], h =>
    by_cases ha : a = '/'
    · subst ha
      exact (anchorOf_of_head? (h rfl)).2.2
    · simp [anchorOf, ha]
  | a :: b :: s, _ =>
    by_cases ha : a = '/' <;> by_cases hb : b = '/' <;> simp [anchorOf, ha, hb]

theorem anchorOf_ne_relative (h : s.head? = some '/') : anchorOf s ≠ .relative := by
  obtain ⟨s, rfl⟩ := List.head?_eq_some_iff.mp h
  unfold anchorOf
  split <;> simp_all

theorem text_anchorOf (h : text.toList.head? = some '/') :
    (anchorOf text.toList).text = lead text := by
  obtain ⟨s, hs⟩ := List.head?_eq_some_iff.mp h
  unfold lead
  rw [hs]
  match s with
  | [] => rfl
  | [a] => by_cases ha : a = '/' <;> simp [anchorOf, Anchor.text, ha, eq_comm]
  | a :: b :: s =>
    by_cases ha : a = '/' <;> by_cases hb : b = '/' <;>
      simp [anchorOf, Anchor.text, ha, hb, eq_comm]

/-- The path that a text stands for, seen from a directory, can be read off one text. -/
theorem ofString_absoluteText (hdir : dir.toList.head? = some '/') (text : String) :
    ofString (absoluteText dir text) = (ofString dir).join (ofString text) := by
  by_cases htext : text.toList.head? = some '/'
  · rw [absoluteText, if_pos htext, join]
    split
    · exact absurd ‹_› (anchorOf_ne_relative htext)
    · rfl
  · have hrelative : (ofString text).anchor = .relative := (anchorOf_of_head? htext).1
    rw [absoluteText, if_neg htext, join, hrelative]
    by_cases hlast : dir.toList.getLast? = some '/'
    · obtain ⟨s, hs⟩ := List.getLast?_eq_some_iff.mp hlast
      have hparts : segments (dir.toList ++ text.toList) =
          segments dir.toList ++ segments text.toList := by
        rw [hs, List.append_assoc, List.singleton_append, segments_append_slash,
          segments_append_slash]
        simp [segments, Text.split]
      simp only [if_pos hlast, ofString, String.toList_append, hparts,
        anchorOf_append hdir fun _ => htext]
    · have hlist : (dir ++ "/" ++ text).toList = dir.toList ++ '/' :: text.toList := by simp
      simp only [if_neg hlast, ofString, hlist, segments_append_slash,
        anchorOf_append hdir fun h => absurd h hlast]

theorem head?_absoluteText (hdir : dir.toList.head? = some '/') (text : String) :
    (absoluteText dir text).toList.head? = some '/' := by
  obtain ⟨s, hs⟩ := List.head?_eq_some_iff.mp hdir
  unfold absoluteText
  split
  · assumption
  · split <;> simp [hs]

/-! ## Text at the end of a path -/

theorem intercalate_concat (sep : Char) (init : List (List Char)) (last more : List Char) :
    [sep].intercalate (init ++ [last ++ more]) = [sep].intercalate (init ++ [last]) ++ more := by
  induction init with
  | nil => simp
  | cons x init ih =>
    cases init with
    | nil => simp [List.intercalate_cons_cons]
    | cons y init =>
      simp only [List.cons_append, List.intercalate_cons_cons] at ih ⊢
      rw [ih]
      simp

theorem toString_append (hp : p.isAbsolute = true) (text : String) :
    (p.append text).toString = p.toString ++ text := by
  obtain ⟨anchor, parts⟩ := p
  have hanchor : anchor ≠ .relative := by simpa [isAbsolute] using hp
  rw [← String.toList_inj]
  rcases List.eq_nil_or_concat parts with rfl | ⟨init, last, rfl⟩
  · simp [append, toString, hanchor]
  · simp [append, toString, hanchor, String.toList_intercalate, intercalate_concat]

theorem proper_append (hp : p.Proper) (hlong : 2 ≤ text.toList.length)
    (hslash : '/' ∉ text.toList) : (p.append text).Proper := by
  have hpart : ∀ start : String, '/' ∉ start.toList →
      start ++ text ≠ "" ∧ start ++ text ≠ "." ∧ '/' ∉ (start ++ text).toList := by
    intro start hstart
    have hlength : 2 ≤ (start ++ text).toList.length := by
      rw [String.toList_append, List.length_append]
      omega
    refine ⟨?_, ?_, by simp [hstart, hslash]⟩
    · intro h
      rw [h] at hlength
      exact absurd hlength (by decide)
    · intro h
      rw [h] at hlength
      exact absurd hlength (by decide)
  obtain ⟨anchor, parts⟩ := p
  rcases List.eq_nil_or_concat parts with rfl | ⟨init, last, rfl⟩
  · intro part h
    obtain rfl : part = text := by simpa [append] using h
    simpa using hpart "" (by simp)
  · intro part h
    have hlast := hp last (by simp)
    rcases (by simpa [append] using h : part ∈ init ∨ part = last ++ text) with h | rfl
    · exact hp part (by simp [h])
    · exact hpart last hlast.2.2

end Path

namespace Specifier

open DefaultImports.Path

variable {dir specifier : String}

theorem head?_of_isRelative (h : isRelative specifier = true) :
    specifier.toList.head? = some '.' := by
  simp only [isRelative, Bool.or_eq_true, beq_iff_eq, List.any_eq_true, List.mem_cons,
    List.not_mem_nil, or_false, List.isPrefixOf_iff_prefix] at h
  rcases h with (rfl | rfl) | ⟨start, hstart, t, ht⟩
  · rfl
  · rfl
  · rw [← ht]
    rcases hstart with rfl | rfl | rfl | rfl <;> rfl

/-- The walk to the path that a specifier names. -/
theorem base_eq (hdir : dir.toList.head? = some '/')
    (hspecifier : specifier.toList.head? ≠ some '/') (file : String) :
    base (.ofString dir) specifier (.ofString file) =
      ⟨anchorOf (absoluteText dir file).toList,
        (follow (follow [] (absoluteText dir file)).tail specifier).reverse⟩ := by
  have hplain : ∀ part ∈ follow [] (absoluteText dir file), IsPlain part :=
    plain_follow _ (List.forall_mem_nil _)
  have hrelative : (ofString specifier).anchor = .relative := (anchorOf_of_head? hspecifier).1
  rw [base, ← ofString_absoluteText hdir, join, hrelative]
  simp only [collapse, parent, ofString]
  rw [← follow_eq_foldl_enter, List.dropLast_reverse, List.foldl_append,
    foldl_enter_reverse fun part hpart => hplain part (List.mem_of_mem_tail hpart),
    ← follow_eq_foldl_enter]

/-- An extension at the end of a path is one at the end of its text. -/
theorem append_eq_ofString {p : Path} (hp : p.Proper) (habsolute : p.isAbsolute = true)
    {extension : String} (h : extension ∈ sourceExtensions) :
    p.append extension = .ofString (p.toString ++ extension) := by
  have hsafe : ∀ extension ∈ sourceExtensions,
      2 ≤ extension.toList.length ∧ '/' ∉ extension.toList := by decide
  have hproper := proper_append hp (hsafe extension h).1 (hsafe extension h).2
  rw [← toString_append habsolute, ofString_toString hproper]

theorem extended_eq_texts {p : Path} (hp : p.Proper) (habsolute : p.isAbsolute = true) :
    p :: sourceExtensions.map p.append =
      (p.toString :: sourceExtensions.map (p.toString ++ ·)).map Path.ofString := by
  rw [List.map_cons, ofString_toString hp, List.map_map]
  exact congrArg (p :: ·) (List.map_congr_left fun _ h => append_eq_ofString hp habsolute h)

/-- The paths tried for a relative specifier are five. The first is where the segments of the
specifier lead from the directory of the importing file, with the path to that file, as seen from
the working directory, walked in the same way; it is absolute, and no segment in it is empty, `.`
or `..`. The others are that one with the source extensions at the end of its text. The specifier
stands for the first of the five that exists. -/
theorem candidates_exact (entries : List (List String × Entry)) (raw : Option Utf8.RawBlock)
    (dir file specifier : String) (hdir : dir.toList.head? = some '/')
    (hrelative : isRelative specifier = true) :
    let w : Workspace := ⟨entries, .ofString dir, raw⟩
    let paths := candidates w.cwd specifier (.ofString file)
    let importer := absoluteText dir file
    let stack := follow (follow [] importer).tail specifier
    let text := lead importer ++ "/".intercalate stack.reverse
    let texts := [text, text ++ ".js", text ++ ".jsx", text ++ ".ts", text ++ ".tsx"]
    paths = texts.map Path.ofString ∧ paths.map Path.toString = texts ∧
      (∃ first others, paths = first :: others ∧ first.isAbsolute = true ∧
        first.parts = stack.reverse ∧ ∀ part ∈ first.parts, IsPlain part) ∧
      (∀ p, resolve? w specifier (.ofString file) = some p ↔
        ∃ before after, paths = before ++ p :: after ∧ w.exists? p = true ∧
          ∀ q ∈ before, w.exists? q = false) ∧
      (resolve? w specifier (.ofString file) = none ↔ ∀ p ∈ paths, w.exists? p = false) := by
  intro w paths importer stack text texts
  have hspecifier : specifier.toList.head? ≠ some '/' := by
    simp [head?_of_isRelative hrelative]
  have himporter : importer.toList.head? = some '/' := head?_absoluteText hdir file
  have hplain : ∀ part ∈ stack.reverse, IsPlain part := by
    intro part hpart
    refine plain_follow specifier ?_ part (List.mem_reverse.mp hpart)
    intro part hpart
    exact plain_follow importer (List.forall_mem_nil _) part (List.mem_of_mem_tail hpart)
  let first : Path := ⟨anchorOf importer.toList, stack.reverse⟩
  have hpaths : paths = first :: sourceExtensions.map first.append := by
    simp only [paths, candidates, w, base_eq hdir hspecifier]
    rfl
  have habsolute : first.isAbsolute = true := by
    simpa [isAbsolute, first] using anchorOf_ne_relative himporter
  have hproper : first.Proper := by
    intro part hpart
    obtain ⟨hempty, hdot, -, hslash⟩ := hplain part hpart
    exact ⟨hempty, hdot, hslash⟩
  have htext : first.toString = text := by
    have hanchor : first.anchor ≠ .relative := anchorOf_ne_relative himporter
    rw [Path.toString, if_neg fun h => hanchor h.1]
    exact congrArg (· ++ _) (text_anchorOf himporter)
  have hresolve : resolve? w specifier (.ofString file) = paths.find? w.exists? := by
    rw [resolve?, if_pos hrelative]
  refine ⟨?_, ?_, ⟨first, _, hpaths, habsolute, rfl, hplain⟩, ?_, ?_⟩
  · rw [hpaths, extended_eq_texts hproper habsolute, htext]
    rfl
  · rw [hpaths, List.map_cons, List.map_map, htext]
    refine congrArg (text :: ·) (List.map_congr_left fun extension _ => ?_)
    rw [Function.comp, toString_append habsolute, htext]
  · intro p
    rw [hresolve, List.find?_eq_some_iff_append]
    constructor
    · rintro ⟨hp, before, after, hsplit, hbefore⟩
      exact ⟨before, after, hsplit, hp, by simpa using hbefore⟩
    · rintro ⟨before, after, hsplit, hp, hbefore⟩
      exact ⟨hp, before, after, hsplit, by simpa using hbefore⟩
  · rw [hresolve, List.find?_eq_none]
    simp

/-- The importing file is at the top, and the specifier goes up from there and comes back. -/
def sampleTop : List (List String × Entry) :=
  [(["b"], .directory), (["b", "c.jsx"], .file []), (["b", "c.tsx"], .file [])]

theorem candidates_sampleTop :
    let w : Workspace := ⟨sampleTop, .ofString "/w", none⟩
    let paths := candidates w.cwd "../.././/b/x/../c" (.ofString "//v/..//.//")
    isRelative "../.././/b/x/../c" = true ∧
      paths.map Path.toString = ["//b/c", "//b/c.js", "//b/c.jsx", "//b/c.ts", "//b/c.tsx"] ∧
      resolve? w "../.././/b/x/../c" (.ofString "//v/..//.//") =
        some (.ofString "//b/c.jsx") := by
  intro w paths
  have hrelative : isRelative "../.././/b/x/../c" = true := by decide +kernel
  obtain ⟨-, htexts, -, hresolve, -⟩ :=
    candidates_exact sampleTop none "/w" "//v/..//.//" "../.././/b/x/../c" (by decide) hrelative
  refine ⟨hrelative, htexts.trans (by decide +kernel), (hresolve _).mpr ?_⟩
  exact ⟨[.ofString "//b/c", .ofString "//b/c.js"], [.ofString "//b/c.ts", .ofString "//b/c.tsx"],
    by decide +kernel, by decide +kernel, by decide +kernel⟩

end Specifier

end DefaultImports
