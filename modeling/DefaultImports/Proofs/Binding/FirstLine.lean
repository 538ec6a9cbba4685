import DefaultImports.Proofs.Binding.Site
import DefaultImports.Proofs.Check.LineShift

/-! The first line of a text. Main statement: `scan_emptyFirstLine`, emptying that line takes away
the import that the text opens with, if there is one, and no other unless that one goes on below. -/
namespace DefaultImports.Binding

open Text Pattern

variable {line left lead text rest : List Char} {source : String} {file : Path} {m : Found Part}
  {b : Binding}

/-- The text without its first line, but for the line break. -/
def emptyFirstLine (source : String) : String :=
  String.ofList (source.toList.dropWhile (· != '\n'))

theorem notMem_takeWhile_break (text : List Char) : '\n' ∉ text.takeWhile (· != '\n') := by
  intro h
  simpa using of_mem_takeWhile h

/-! ## What is found below the first line -/

/-- From the end of a line on, the search does not depend on the line. -/
theorem filterMap_findAllFrom_break (hline : '\n' ∉ line)
    (hrest : rest.head?.any (· != '\n') = false) (file : Path) :
    (statement.findAllFrom 0 line.reverse rest).filterMap (ofFound? file) =
      (statement.findAll rest).filterMap (ofFound? file) := by
  cases rest with
  | nil => simp [findAll, findAllFrom]
  | cons c below =>
    obtain rfl : c = '\n' := by simpa using hrest
    have hbelow {above : List Char} (habove : '\n' ∉ above) :
        (statement.findAllFrom 0 above.reverse ('\n' :: below)).filterMap (ofFound? file) =
          ((statement.findAll below).filterMap (ofFound? file)).map moveDown := by
      have hbreak : statement.at? ⟨above.reverse, [] ++ '\n' :: below⟩ = none :=
        at?_withoutDefault (.other (by decide)) rfl
      rw [List.nil_append] at hbreak
      rw [findAllFrom, hbreak]
      simpa using filterMap_findAllFrom_below habove below file
    exact (hbelow hline).trans (hbelow List.not_mem_nil).symm

/-- A search that starts on the first line, where no import does, finds what is below. -/
theorem filterMap_findAllFrom_line (hline : '\n' ∉ line) (hleft : '\n' ∉ left)
    (hrest : rest.head?.any (· != '\n') = false)
    (hfirst : statement.at? ⟨line.reverse, left ++ rest⟩ = none) (file : Path) :
    (statement.findAllFrom 0 line.reverse (left ++ rest)).filterMap (ofFound? file) =
      (statement.findAll rest).filterMap (ofFound? file) := by
  have hmisses := misses_line hfirst fun h => hleft (List.dropLast_subset _ h)
  rw [findAllFrom_of_misses hmisses, ← List.reverse_append]
  exact filterMap_findAllFrom_break (by simp [hline, hleft]) hrest file

theorem scan_of_unopened (h : statement.at? (.ofText source.toList) = none) (file : Path) :
    scan (emptyFirstLine source) file = scan source file := by
  have hsplit := List.takeWhile_append_dropWhile (p := (· != '\n')) (l := source.toList)
  rw [Cursor.ofText, ← hsplit] at h
  have hfound := filterMap_findAllFrom_line List.not_mem_nil (notMem_takeWhile_break _)
    (head?_dropWhile_any _ _) h file
  rw [List.reverse_nil, hsplit] at hfound
  rw [scan, emptyFirstLine, String.toList_ofList]
  exact hfound.symm

/-- The import that opens a text is found first, and the search goes on behind it. -/
theorem findAll_of_opened (hm : statement.at? (.ofText source.toList) = some m) :
    ∃ site : Site, source.toList = site.through ++ site.after ∧ m.size = site.through.length ∧
      site.through ≠ [] ∧ (∀ file, ofFound? file m = some (site.binding file)) ∧
      statement.findAll source.toList =
        m :: statement.findAllFrom 0 site.through.reverse site.after := by
  obtain ⟨site, -, htext, -, -, hsize, hbinding⟩ := site_of_at? hm
  have hthrough : source.toList = site.through ++ site.after := by
    rw [site.through_append, htext]
    rfl
  have hlength : m.size = site.through.length := by
    rw [hsize]
    exact (Nat.zero_add m.size).symm
  have hne : site.through ≠ [] := by
    have hlt := site.length_before_lt_through
    exact List.ne_nil_of_length_pos (by omega)
  refine ⟨site, hthrough, hlength, hne, hbinding, ?_⟩
  rw [Cursor.ofText, hthrough] at hm
  rw [hthrough]
  exact (findAllFrom_of_at? hm hlength hne).trans (by rw [List.append_nil])

/-- An import that opens a text and ends on the first line is the only one that starts there. -/
theorem scan_of_opened_line (hm : statement.at? (.ofText source.toList) = some m)
    (hline : '\n' ∉ source.toList.take m.size) (hb : ofFound? file m = some b) :
    scan source file = b :: scan (emptyFirstLine source) file := by
  obtain ⟨site, hthrough, hlength, hne, -, hmatch⟩ := findAll_of_opened hm
  rw [hthrough, hlength, List.take_left] at hline
  have hinside : statement.at? ⟨site.through.reverse, site.after⟩ = none := by
    refine at?_inside_line ?_
    obtain ⟨c, cs, hreverse⟩ := List.exists_cons_of_ne_nil (List.reverse_ne_nil_iff.mpr hne)
    have hc : c ≠ '\n' := by
      rintro rfl
      exact hline (List.mem_reverse.mp (hreverse ▸ List.mem_cons_self))
    simpa [Cursor.atLineStart, hreverse] using hc
  have hsplit := List.takeWhile_append_dropWhile (p := (· != '\n')) (l := site.after)
  rw [← hsplit] at hinside
  have hbelow := filterMap_findAllFrom_line hline (notMem_takeWhile_break _)
    (head?_dropWhile_any _ _) hinside file
  rw [hsplit] at hbelow
  have hrest : (emptyFirstLine source).toList = site.after.dropWhile (· != '\n') := by
    rw [emptyFirstLine, String.toList_ofList, hthrough, List.dropWhile_append_of_pos]
    intro c hc
    simpa using fun h : c = '\n' => hline (h ▸ hc)
  rw [scan, scan, hmatch, hrest, ← hbelow, List.filterMap_cons_some hb]

/-! ## What is lost with the first line -/

/-- Up to the bound name, a statement has the letters of `import` on its first line, and none of
them elsewhere but those of `type`. -/
theorem lead_of_leaves (h : Leaves (openingPart ++ maybe typePart) (lead ++ rest) rest) :
    ∃ blanks gap, lead = blanks ++ ("import".toList ++ gap) ∧
      (∀ c ∈ blanks, isBlank c = true) ∧ 'm' ∉ gap := by
  obtain ⟨middle, hopening, htype⟩ := h
  obtain ⟨blanks, gap, htext, hblanks, hgap⟩ := leaves_openingPart hopening
  have hspaces {xs : List Char} (hxs : ∀ c ∈ xs, isSpace c = true) : 'm' ∉ xs := by
    intro hmem
    exact absurd (hxs 'm' hmem) (by decide)
  rcases leaves_maybe.mp htype with ⟨_, hword, hspace⟩ | rfl
  · obtain ⟨after, rfl⟩ := leaves_run1.mp hspace
    obtain rfl := leaves_word.mp hword
    refine ⟨blanks, gap ++ ("type".toList ++ after.text), ?_, hblanks, ?_⟩
    · apply List.append_cancel_right
      rw [htext]
      simp only [List.append_assoc]
    · have htypeLetters : 'm' ∉ "type".toList := by decide
      simp only [List.mem_append, not_or]
      exact ⟨hspaces hgap, htypeLetters, hspaces after.all⟩
  · refine ⟨blanks, gap, ?_, hblanks, hspaces hgap⟩
    apply List.append_cancel_right
    rw [htext]
    simp only [List.append_assoc]

theorem count_of_leaves (h : Leaves (openingPart ++ maybe typePart) (lead ++ rest) rest) :
    lead.count 'm' = 1 := by
  obtain ⟨blanks, gap, rfl, hblanks, hgap⟩ := lead_of_leaves h
  have hblank : 'm' ∉ blanks := fun hmem => absurd (hblanks 'm' hmem) (by decide)
  have hword : "import".toList.count 'm' = 1 := by decide
  rw [List.count_append, List.count_append, List.count_eq_zero.mpr hblank,
    List.count_eq_zero.mpr hgap, hword]

theorem mem_takeWhile_of_leaves (h : Leaves (openingPart ++ maybe typePart) (lead ++ rest) rest) :
    'm' ∈ (lead ++ rest).takeWhile (· != '\n') := by
  obtain ⟨blanks, gap, rfl, hblanks, -⟩ := lead_of_leaves h
  have hword : ∀ c ∈ "import".toList, (c != '\n') = true := List.all_eq_true.mp (by decide)
  rw [List.append_assoc, List.append_assoc,
    List.takeWhile_append_of_pos fun c hc => ne_newline_of_isBlank (hblanks c hc),
    List.takeWhile_append_of_pos hword]
  exact List.mem_append_right _ (List.mem_append_left _ (by decide))

theorem exists_site_of_mem_scan (hb : b ∈ scan source file) :
    ∃ site : Site, site.start.text = source.toList ∧ 'm' ∈ site.before ∧ b = site.binding file := by
  obtain ⟨m, hm, hfound⟩ := List.mem_filterMap.mp hb
  obtain ⟨c, htext, hat⟩ := mem_findAllFrom hm
  obtain ⟨site, lead, hstart, hbefore, hleaves, -, hbinding⟩ := site_of_at? hat
  refine ⟨site, hstart.trans htext, ?_, ?_⟩
  · have hlead : 'm' ∈ lead := List.count_pos_iff.mp (by rw [count_of_leaves hleaves]; decide)
    rw [hbefore]
    exact List.mem_append_right _ hlead
  · exact Option.some.inj (hfound.symm.trans (hbinding file))

/-- Behind an unbroken text, a place that is not on the first line keeps its line and column. -/
theorem position_behind_line {c : Cursor} (hline : '\n' ∉ line) (hc : '\n' ∈ c.passed) :
    (c.behind line).line = c.line ∧ (c.behind line).column = c.column := by
  constructor
  · simp [Cursor.line, Cursor.behind, List.count_eq_zero.mpr hline]
  · obtain ⟨xs, ys, hpassed, hxs⟩ := List.eq_append_cons_of_mem hc
    have hall : ∀ x ∈ xs, (x != '\n') = true := by
      intro x hx
      simpa using fun h : x = '\n' => hxs (h ▸ hx)
    rw [Cursor.column, Cursor.column, Cursor.behind, hpassed, List.append_assoc,
      List.takeWhile_append_of_pos hall, List.takeWhile_append_of_pos hall]
    simp

/-- The import that opens a text is not found if the first line is emptied. -/
theorem notMem_scan_emptyFirstLine (hm : statement.at? (.ofText source.toList) = some m)
    (hb : ofFound? file m = some b) : b ∉ scan (emptyFirstLine source) file := by
  intro hmem
  obtain ⟨site, lead, htext, hbefore, hleaves, -, hbinding⟩ := site_of_at? hm
  obtain rfl : site.before = lead := hbefore
  obtain ⟨site', htext', hletter, hsame⟩ := exists_site_of_mem_scan hmem
  have hposition : site.binding file = site'.binding file :=
    (Option.some.inj (hb.symm.trans (hbinding file))).symm.trans hsame
  have hsource : site.before ++ site.rest = source.toList := by
    simpa [Site.start, Cursor.text, Cursor.ofText] using htext
  have hrest : site'.before ++ site'.rest = source.toList.dropWhile (· != '\n') := by
    simpa [Site.start, Cursor.text, emptyFirstLine] using htext'
  -- the second place, in the whole text, has the line and the column of the first
  let line := source.toList.takeWhile (· != '\n')
  have hline : '\n' ∉ line := notMem_takeWhile_break _
  have hbreak : '\n' ∈ site'.start.passed := by
    obtain ⟨c, cs, hcs⟩ := List.exists_cons_of_ne_nil (List.ne_nil_of_mem hletter)
    have hhead := head?_dropWhile_any (· != '\n') source.toList
    rw [← hrest, hcs] at hhead
    obtain rfl : c = '\n' := by simpa using hhead
    simp [Site.start, hcs]
  obtain ⟨hsameLine, hsameColumn⟩ := position_behind_line hline hbreak
  have hplace : site'.start.behind line = site.start := by
    apply Cursor.eq_of_line_column
    · have hsplit : line ++ source.toList.dropWhile (· != '\n') = source.toList :=
        List.takeWhile_append_dropWhile
      simp [Cursor.behind, Cursor.text, Site.start, hrest, hsplit, hsource]
    · rw [hsameLine]
      exact Int.ofNat.inj (congrArg Binding.line hposition).symm
    · rw [hsameColumn]
      exact Int.ofNat.inj (congrArg Binding.column hposition).symm
  have hwhole : site.before = line ++ site'.before := by
    simpa [Cursor.behind, Site.start] using
      (congrArg (fun c : Cursor => c.passed.reverse) hplace).symm
  -- both would be behind an `m` of their own, but the first is behind one only
  have hfirst : 'm' ∈ line := by
    have hmem := mem_takeWhile_of_leaves hleaves
    rwa [hsource] at hmem
  have hcount := count_of_leaves hleaves
  rw [hwhole, List.count_append] at hcount
  have hpos := List.count_pos_iff.mpr hfirst
  have hpos' := List.count_pos_iff.mpr hletter
  omega

/-- With the first line emptied the same imports are found, unless one opens the text. That one is
lost then, and no other if it ends on its line. -/
theorem scan_emptyFirstLine (source : String) (file : Path) :
    match statement.at? (.ofText source.toList) with
    | none => scan (emptyFirstLine source) file = scan source file
    | some m => ∃ b others, ofFound? file m = some b ∧ scan source file = b :: others ∧
        b ∉ scan (emptyFirstLine source) file ∧
        ('\n' ∉ source.toList.take m.size → scan (emptyFirstLine source) file = others) := by
  cases hm : statement.at? (.ofText source.toList) with
  | none => exact scan_of_unopened hm file
  | some m =>
    obtain ⟨site, -, -, -, hbinding, hmatch⟩ := findAll_of_opened hm
    have hb := hbinding file
    obtain ⟨others, hscan⟩ : ∃ others, scan source file = site.binding file :: others := by
      rw [scan, hmatch, List.filterMap_cons_some hb]
      exact ⟨_, rfl⟩
    refine ⟨_, others, hb, hscan, notMem_scan_emptyFirstLine hm hb, ?_⟩
    intro hline
    have hfirst := scan_of_opened_line hm hline hb
    exact (List.cons.inj (hfirst.symm.trans hscan)).2

end DefaultImports.Binding
