import DefaultImports.Proofs.Binding.Position
import DefaultImports.Proofs.Binding.Statement
import DefaultImports.Proofs.Pattern.Occurrence
import DefaultImports.Proofs.Text.Split
import DefaultImports.Suppression

/-! Where default imports stand in a text. Main statement: `scan_sites`, each import is found at its
name, on the line that comments are looked for on, and its specifier stands in quotation marks
behind it and before the next import. -/
namespace DefaultImports

/-- The line of a place is the one with its number, and goes on there with what is left of it. -/
theorem Cursor.getElem?_lines (c : Cursor) :
    (Text.lines c.text)[c.line - 1]? =
      some ((c.passed.takeWhile (· != '\n')).reverse ++ c.rest.takeWhile (· != '\n')) := by
  obtain ⟨passed, rest⟩ := c
  simp only [line, text, Nat.add_sub_cancel]
  induction passed generalizing rest with
  | nil =>
    obtain ⟨others, h⟩ := Text.lines_eq_cons rest
    simp [h]
  | cons x passed ih =>
    by_cases hx : x = '\n'
    · obtain ⟨others, h⟩ := Text.lines_eq_cons rest
      have hlength : (Text.lines passed.reverse).length = passed.count '\n' + 1 := by
        rw [Text.length_lines, List.count_reverse]
      simp [hx, Text.lines_append_break, hlength, h]
    · simpa [hx] using ih (x :: rest)

namespace Suppression

variable {source : String} {line : List Char} {number : Nat} {d : Directive}

theorem line_of_directive? (h : directive? line number = some d) : d.line = number := by
  unfold directive? at h
  split at h
  · cases h
    rfl
  · cases h

/-- The comment with a number is the one on the line with that number. -/
theorem directive_iff (hpos : 1 ≤ number)
    (hline : (Text.lines source.toList)[number - 1]? = some line) :
    d ∈ (ofSource source).directives ∧ d.line = number ↔ directive? line number = some d := by
  constructor
  · rintro ⟨hd, hnumber⟩
    obtain ⟨⟨line', number'⟩, hmem, hd⟩ := List.mem_filterMap.mp hd
    obtain ⟨-, hget⟩ := List.mk_mem_zipIdx_iff_le_and_getElem?_sub.mp hmem
    obtain rfl : number' = number := (line_of_directive? hd).symm.trans hnumber
    rw [hline, Option.some.injEq] at hget
    rwa [hget]
  · intro hd
    have hmem := List.mk_mem_zipIdx_iff_le_and_getElem?_sub.mpr ⟨hpos, hline⟩
    exact ⟨List.mem_filterMap.mpr ⟨(line, number), hmem, hd⟩, line_of_directive? hd⟩

end Suppression

namespace Binding

open Text Pattern

/-- A default import in a text: what is before its name, between the name and the quotation mark,
and behind the closing mark. -/
structure Site where
  before : List Char
  name : Name
  between : List Char
  mark : Mark
  specifier : Run1 isSpecifierChar
  after : List Char

namespace Site

/-- The text from the bound name on. -/
def rest (s : Site) : List Char :=
  s.name.text ++ (s.between ++ s.mark.char :: (s.specifier.text ++ s.mark.char :: s.after))

/-- The place of the bound name. -/
def start (s : Site) : Cursor := ⟨s.before.reverse, s.rest⟩

/-- The text up to the closing quotation mark. -/
def through (s : Site) : List Char :=
  s.before ++ (s.name.text ++ (s.between ++ s.mark.char :: (s.specifier.text ++ [s.mark.char])))

def binding (s : Site) (file : Path) : Binding where
  name := String.ofList s.name.text
  specifier := String.ofList s.specifier.text
  file := file
  line := s.start.line
  column := s.start.column

end Site

variable {s t : Progress Part} {c : Cursor} {m : Found Part} {mark : Mark}

/-- What stands between the bound name and the quotation mark. -/
def betweenPart : Pattern Part := spaces ++ maybe otherImports ++ word "from" ++ spaces

theorem uncaptured_leadPart : Uncaptured (openingPart ++ maybe typePart) := by
  simp [openingPart, typePart]

theorem uncaptured_identifier : Uncaptured identifier := by
  simp [identifier]

theorem uncaptured_otherImports : Uncaptured otherImports := by
  simp [otherImports, uncaptured_identifier]

theorem uncaptured_betweenPart : Uncaptured betweenPart := by
  simp [betweenPart, uncaptured_otherImports]

/-- The four parts of a match: up to the name, the name, up to the quotation mark, and the rest. -/
theorem parts_of_mem_ends (ht : t ∈ statement.ends s) :
    ∃ u ∈ (openingPart ++ maybe typePart).ends s, ∃ v ∈ (capture .name identifier).ends u,
      ∃ w ∈ betweenPart.ends v, t ∈ quotedPart.ends w := by
  obtain ⟨w, hspaces, hquoted⟩ := mem_ends_append.mp ht
  obtain ⟨x, hword, hspaces⟩ := mem_ends_append.mp hspaces
  obtain ⟨y, hothers, hword⟩ := mem_ends_append.mp hword
  obtain ⟨z, hgap, hothers⟩ := mem_ends_append.mp hothers
  obtain ⟨v, hname, hgap⟩ := mem_ends_append.mp hgap
  obtain ⟨u, hlead, hname⟩ := mem_ends_append.mp hname
  have hbetween : w ∈ betweenPart.ends v := by
    simp only [betweenPart, mem_ends_append]
    exact ⟨x, ⟨y, ⟨z, hgap, hothers⟩, hword⟩, hspaces⟩
  exact ⟨u, hlead, v, hname, w, hbetween, hquoted⟩

theorem char_of_mem_ends {x : Char} (ht : t ∈ (char x).ends s) :
    ∃ rest, s.cursor.rest = x :: rest ∧ t = s.past [x] rest := by
  have hchar : Uncaptured (char x : Pattern Part) := by simp
  obtain ⟨xs, rest, hs, rfl, hleaves⟩ := past_of_mem_ends hchar ht
  obtain rfl : xs = [x] := List.append_cancel_right (leaves_char.mp hleaves)
  exact ⟨rest, hs, rfl⟩

theorem name_of_mem_ends (ht : t ∈ (capture .name identifier).ends s) :
    ∃ (name : Name) (rest : List Char), s.cursor.rest = name.text ++ rest ∧
      t = (s.past name.text rest).record .name s := by
  obtain ⟨xs, rest, hs, rfl, _, ⟨c, htext, hc⟩, others, rfl, hothers⟩ :=
    record_of_mem_ends uncaptured_identifier ht
  obtain rfl : xs = c :: others := List.append_cancel_right htext
  exact ⟨⟨c, ⟨others, hothers⟩, hc⟩, rest, hs, rfl⟩

theorem specifier_of_mem_ends (ht : t ∈ (quoted mark.char).ends s) :
    ∃ (specifier : Run1 isSpecifierChar) (rest : List Char),
      s.cursor.rest = mark.char :: (specifier.text ++ mark.char :: rest) ∧
      t.size = s.size + (specifier.text.length + 2) ∧
      t.captures = ⟨.specifier, ⟨mark.char :: s.cursor.passed, specifier.text ++ mark.char :: rest⟩,
        specifier.text.length⟩ :: s.captures := by
  rw [quoted, mem_ends_append] at ht
  obtain ⟨y, hy, ht⟩ := ht
  obtain ⟨x, hx, hy⟩ := mem_ends_append.mp hy
  have hspecifier : Uncaptured (oneOrMore isSpecifierChar : Pattern Part) := by simp
  obtain ⟨inside, hs, rfl⟩ := char_of_mem_ends hx
  obtain ⟨xs, closing, hinside, rfl, hleaves⟩ := record_of_mem_ends hspecifier hy
  obtain ⟨rest, hclosing, rfl⟩ := char_of_mem_ends ht
  obtain ⟨specifier, htext⟩ := leaves_run1.mp hleaves
  obtain rfl : xs = specifier.text := List.append_cancel_right htext
  obtain rfl : closing = mark.char :: rest := hclosing
  obtain rfl : inside = specifier.text ++ mark.char :: rest := hinside
  refine ⟨specifier, rest, hs, ?_, ?_⟩
  · simp
    omega
  · simp [Progress.past, Progress.moveTo]

theorem mark_of_mem_ends (ht : t ∈ quotedPart.ends s) :
    ∃ mark : Mark, t ∈ (quoted mark.char).ends s := by
  rcases List.mem_append.mp ht with ht | ht
  · exact ⟨.single, ht⟩
  · exact ⟨.double, ht⟩

/-- A match is that of an import which stands in its text from the start of the match, where it
opens, to its end. -/
theorem site_of_at? (hm : statement.at? c = some m) :
    ∃ (site : Site) (lead : List Char), site.start.text = c.text ∧
      site.before = c.passed.reverse ++ lead ∧
      Leaves (openingPart ++ maybe typePart) (lead ++ site.rest) site.rest ∧
      site.through.length = c.passed.length + m.size ∧
      ∀ file, ofFound? file m = some (site.binding file) := by
  rw [at?_eq_head?] at hm
  obtain ⟨t, ht, rfl⟩ := Option.map_eq_some_iff.mp hm
  obtain ⟨u, hu, v, hv, w, hw, ht⟩ := parts_of_mem_ends (List.mem_of_mem_head? ht)
  obtain ⟨lead, named, hlead, rfl, hopens⟩ := past_of_mem_ends uncaptured_leadPart hu
  obtain ⟨name, linked, hname, rfl⟩ := name_of_mem_ends hv
  obtain ⟨between, marked, hbetween, rfl, -⟩ := past_of_mem_ends uncaptured_betweenPart hw
  obtain ⟨mark, ht⟩ := mark_of_mem_ends ht
  obtain ⟨specifier, after, hmarked, hsize, hcaptures⟩ := specifier_of_mem_ends ht
  obtain rfl : marked = mark.char :: (specifier.text ++ mark.char :: after) := hmarked
  obtain rfl : linked = between ++ _ := hbetween
  obtain rfl : named = name.text ++ _ := hname
  refine ⟨⟨c.passed.reverse ++ lead, name, between, mark, specifier, after⟩, lead, ?_, rfl, hopens,
    ?_, ?_⟩
  · have hrest : c.rest = lead ++ _ := hlead
    simp [Site.start, Site.rest, Cursor.text, hrest]
  · rw [hsize]
    simp [Site.through]
    omega
  · intro file
    simp [ofFound?, Found.capture?, hcaptures, Capture.text, Site.binding, Site.start, Site.rest,
      Progress.past, Progress.moveTo]

theorem Site.length_before_lt_through (s : Site) : s.before.length < s.through.length := by
  simp only [Site.through, List.length_append, List.length_cons]
  omega

/-- A site in a text, behind the first `skip` characters from a place on. -/
structure Site.From (skip : Nat) (passed text : List Char) (s : Site) : Prop where
  whole : s.start.text = passed.reverse ++ text
  after : passed.length + skip ≤ s.before.length

theorem Site.From.back {skip skip' : Nat} {passed text : List Char} {x : Char} {s : Site}
    (h : s.From skip (x :: passed) text) (hskip : skip' ≤ skip + 1) :
    s.From skip' passed (x :: text) := by
  refine ⟨by simpa using h.whole, ?_⟩
  have hafter := h.after
  rw [List.length_cons] at hafter
  omega

/-- The sites of the matches from a place on, one behind the other. -/
theorem sites_of_findAllFrom (file : Path) (skip : Nat) (passed text : List Char) :
    ∃ sites : List Site,
      (statement.findAllFrom skip passed text).filterMap (ofFound? file) =
        sites.map (·.binding file) ∧
      (∀ s ∈ sites, s.From skip passed text) ∧
      sites.Pairwise fun s t => s.through.length ≤ t.before.length := by
  fun_induction findAllFrom statement skip passed text with
  | case1 => exact ⟨[], rfl, List.forall_mem_nil _, .nil⟩
  | case2 skip passed x rest ih =>
    obtain ⟨sites, hscan, hplace, hsorted⟩ := ih
    exact ⟨sites, hscan, fun s hs => (hplace s hs).back (Nat.le_refl _), hsorted⟩
  | case3 passed x rest m hat ih =>
    obtain ⟨site, lead, htext, hsite, -, hthrough, hbinding⟩ := site_of_at? hat
    have hbefore : passed.length ≤ site.before.length := by simp [hsite]
    obtain ⟨sites, hscan, hplace, hsorted⟩ := ih
    refine ⟨site :: sites, ?_, ?_, List.pairwise_cons.mpr ⟨?_, hsorted⟩⟩
    · rw [List.filterMap_cons_some (hbinding file), hscan, List.map_cons]
    · intro s hs
      rcases List.mem_cons.mp hs with rfl | hs
      · exact ⟨htext, hbefore⟩
      · exact (hplace s hs).back (Nat.zero_le _)
    · -- the search goes on behind the match, and that ends with the closing mark
      intro s hs
      have hafter := (hplace s hs).after
      have hsize := site.length_before_lt_through
      dsimp only at hthrough
      rw [List.length_cons] at hafter
      omega
  | case4 passed x rest hat ih =>
    obtain ⟨sites, hscan, hplace, hsorted⟩ := ih
    exact ⟨sites, hscan, fun s hs => (hplace s hs).back (Nat.zero_le _), hsorted⟩

/-! ## What is shown of an import -/

theorem Site.through_append (s : Site) : s.through ++ s.after = s.start.text := by
  simp [Site.through, Site.start, Site.rest, Cursor.text]

theorem through_of_length {s t : Site} (htext : s.start.text = t.start.text)
    (h : s.through.length ≤ t.before.length) : s.through <+: t.before := by
  have hs : s.through <+: t.start.text := ⟨s.after, by rw [s.through_append, htext]⟩
  have ht : t.before <+: t.start.text := ⟨t.rest, by simp [Site.start, Cursor.text]⟩
  exact List.prefix_of_prefix_length_le hs ht h

/-- The bound name stands at the position of the import, on the line where a comment with that
number is looked for. -/
def Standing (source : String) (b : Binding) : Prop :=
  ∃ (number : Nat) (left right : List Char),
    b.line = number ∧ 1 ≤ number ∧ b.column = left.length ∧
    (lines source.toList)[number - 1]? = some (left ++ (b.name.toList ++ right)) ∧
    ∀ d, d ∈ (Suppression.ofSource source).directives ∧ d.line = number ↔
      Suppression.directive? (left ++ (b.name.toList ++ right)) number = some d

theorem Site.takeWhile_rest (s : Site) : ∃ right,
    s.rest.takeWhile (· != '\n') = s.name.text ++ right := by
  refine ⟨_, List.takeWhile_append_of_pos ?_⟩
  intro c hc
  have hname := s.name.all c hc
  simp only [bne_iff_ne, ne_eq]
  rintro rfl
  exact absurd hname (by decide)

theorem standing_of_site {source : String} {s : Site} (htext : s.start.text = source.toList)
    (file : Path) : Standing source (s.binding file) := by
  obtain ⟨right, hright⟩ := s.takeWhile_rest
  have hline := s.start.getElem?_lines
  have hrest : s.start.rest = s.rest := rfl
  rw [hrest, hright, htext] at hline
  have hname : (s.binding file).name.toList = s.name.text := String.toList_ofList
  have hpos : 1 ≤ s.start.line := Nat.le_add_left 1 _
  refine ⟨s.start.line, _, right, rfl, hpos, ?_, by rw [hname]; exact hline, ?_⟩
  · simp [Site.binding, Cursor.column]
  · rw [hname]
    exact fun d => Suppression.directive_iff hpos hline

/-- Each import is found at its bound name, with its specifier in quotation marks behind it, and
the next one stands behind the closing mark. -/
theorem scan_sites (source : String) (file : Path) :
    ∃ sites : List Site, scan source file = sites.map (·.binding file) ∧
      (∀ s ∈ sites, s.start.text = source.toList) ∧
      sites.Pairwise (fun s t => s.through <+: t.before) ∧
      (scan source file).Pairwise Above ∧
      ∀ b ∈ scan source file, Standing source b := by
  obtain ⟨sites, hscan, hplace, hsorted⟩ := sites_of_findAllFrom file 0 [] source.toList
  have htext : ∀ s ∈ sites, s.start.text = source.toList := fun s hs => (hplace s hs).whole
  have hscan : scan source file = sites.map (·.binding file) := hscan
  refine ⟨sites, hscan, htext, ?_, scan_sorted source file, ?_⟩
  · refine hsorted.imp_of_mem ?_
    intro s t hs ht hbefore
    exact through_of_length ((htext s hs).trans (htext t ht).symm) hbefore
  · intro b hb
    rw [hscan] at hb
    obtain ⟨s, hs, rfl⟩ := List.mem_map.mp hb
    exact standing_of_site (htext s hs) file

end Binding

end DefaultImports
