import DefaultImports.Proofs.Binding.Statement

/-! Scanning a whole source text. Main statement: `scan_source`, the default imports of the text
are found, in order, and nothing else. -/
namespace DefaultImports.Binding

open Text Pattern

variable {xs line text middle passed rest : List Char} {file : Path}

theorem refuses_typePart_boundPart (h : text.head?.any isNameStart = false) :
    Refuses (maybe typePart ++ boundPart) text :=
  refuses_maybe_append (refuses_append_left (refuses_append_left
    (refuses_word (not_prefix_of_head? h rfl)))) (refuses_boundPart h)

theorem leaves_openingPart (h : Leaves openingPart text middle) :
    ∃ blanks gap, text = blanks ++ ("import".toList ++ (gap ++ middle)) ∧
      (∀ c ∈ blanks, isBlank c = true) ∧ ∀ c ∈ gap, isSpace c = true := by
  obtain ⟨_, ⟨_, ⟨_, rfl, blanks, rfl, hblanks⟩, hword⟩, hgap⟩ := h
  obtain ⟨gap, rfl, -, hgap⟩ := leaves_oneOrMore.mp hgap
  obtain rfl := leaves_word.mp hword
  exact ⟨blanks, gap, rfl, hblanks, hgap⟩

theorem leaves_openingPart_of_indent (indent : Run isBlank)
    (h : Leaves openingPart (indent.text ++ ("import".toList ++ text)) middle) :
    Leaves (spaces : Pattern Part) text middle := by
  obtain ⟨blanks, gap, h, hblanks, hgap⟩ := leaves_openingPart h
  obtain ⟨-, h⟩ := append_inj_of_run h indent.all hblanks rfl rfl
  exact ⟨gap, List.append_cancel_left h, hgap⟩

theorem ne_newline_of_isBlank {c : Char} (h : isBlank c = true) : (c != '\n') = true := by
  simp only [isBlank, Bool.or_eq_true, beq_iff_eq] at h
  rcases h with rfl | rfl <;> rfl

theorem refuses_openingPart (hline : ¬ "import".toList <+: line.dropWhile isBlank)
    (hrest : rest.head?.any (· != '\n') = false) : Refuses openingPart (line ++ rest) := by
  intro middle h
  obtain ⟨blanks, gap, h, hblanks, -⟩ := leaves_openingPart h
  rw [← List.takeWhile_append_dropWhile (p := isBlank) (l := line), List.append_assoc] at h
  have hend : (line.dropWhile isBlank ++ rest).head?.any isBlank = false := by
    cases hdrop : line.dropWhile isBlank with
    | nil => exact head?_any_mono (fun c => ne_newline_of_isBlank) hrest
    | cons c cs => simpa [hdrop] using List.head?_dropWhile_not isBlank line
  have hblank : ∀ c ∈ line.takeWhile isBlank, isBlank c = true :=
    List.all_eq_true.mp List.all_takeWhile
  obtain ⟨-, h⟩ := append_inj_of_run h hblank hblanks hend rfl
  refine hline (prefix_of_prefix_append ⟨_, h.symm⟩ ?_)
  intro c hc hhead
  rw [hhead] at hrest
  obtain rfl : c = '\n' := by simpa using hrest
  revert hc
  decide

theorem refuses_withoutDefault (h : WithoutDefault line)
    (hrest : rest.head?.any (· != '\n') = false) :
    Refuses (openingPart ++ (maybe typePart ++ boundPart)) (line ++ rest) := by
  cases h with
  | other h => exact refuses_append_left (refuses_openingPart h hrest)
  | opened indent gap o tail =>
    refine refuses_append ?_
    intro middle h
    simp only [List.append_assoc, List.cons_append] at h
    have ho := o.head?_isLinking (tail ++ rest)
    exact refuses_typePart_boundPart (head?_of_leaves_many (fun _ => isNameStart_of_isSpace) gap.all
      (head?_isSpace_of_isLinking ho) (head?_isNameStart_of_isLinking ho)
      (leaves_openingPart_of_indent indent h))
  | typed indent gap after o tail =>
    refine refuses_append ?_
    intro middle h
    simp only [List.append_assoc, List.cons_append] at h
    obtain ⟨us, h, hus⟩ := leaves_openingPart_of_indent indent h
    have ho := o.head?_isLinking (tail ++ rest)
    obtain ⟨zs, hgap, rfl⟩ := eq_append_of_run h hus rfl
    cases zs with
    | cons z zs =>
      have hz : isSpace z = true := gap.all z (by simp [hgap])
      exact refuses_typePart_boundPart (isNameStart_of_isSpace hz)
    | nil =>
      -- `type` is read as the keyword, before the opener, or as the name, without `from`
      refine refuses_maybe_append (refuses_append ?_) ?_
      · intro middle h
        have hspaces := leaves_many_of_oneOrMore (leaves_word_append h)
        exact refuses_boundPart (head?_of_leaves_many (fun _ => isNameStart_of_isSpace) after.all
          (head?_isSpace_of_isLinking ho) (head?_isNameStart_of_isLinking ho) hspaces)
      · exact refuses_boundPart_of_word (List.all_eq_true.mp rfl) (by decide) after.all ho

theorem at?_withoutDefault (h : WithoutDefault line)
    (hrest : rest.head?.any (· != '\n') = false) :
    statement.at? ⟨passed, line ++ rest⟩ = none :=
  (at?_statement_eq _).trans (at?_of_refuses (refuses_withoutDefault h hrest) passed)

theorem at?_inside_line {c : Cursor} (h : c.atLineStart = false) : statement.at? c = none := by
  have hedge : (edge Cursor.atLineStart : Pattern Part).ends ⟨c, 0, []⟩ = [] := by
    rw [ends, if_neg (by simp [h])]
  rw [at?_eq_head?]
  simp only [statement, ends_append, hedge]
  rfl

/-- Only the first place of a line can start a statement. -/
theorem misses_line (hfirst : statement.at? ⟨passed, xs ++ rest⟩ = none)
    (hxs : '\n' ∉ xs.dropLast) : Misses statement passed xs rest := by
  rintro ys zs rfl hzs
  rw [List.dropLast_append_of_ne_nil hzs] at hxs
  cases h : ys.reverse with
  | nil =>
    obtain rfl : ys = [] := by simpa using h
    exact hfirst
  | cons c cs =>
    refine at?_inside_line ?_
    have hc : c ∈ ys := List.mem_reverse.mp (h ▸ by simp)
    have hne : c ≠ '\n' := by
      rintro rfl
      exact hxs (List.mem_append_left _ hc)
    simp [Cursor.atLineStart, hne]

theorem findAllFrom_line (l : Line) (passed rest : List Char) :
    statement.findAllFrom 0 passed (l.text ++ ['\n'] ++ rest) =
      statement.findAllFrom 0 ((l.text ++ ['\n']).reverse ++ passed) rest := by
  have hfirst : statement.at? ⟨passed, l.text ++ ['\n'] ++ rest⟩ = none := by
    rw [List.append_assoc]
    exact at?_withoutDefault l.withoutDefault rfl
  have hline : '\n' ∉ (l.text ++ ['\n']).dropLast := by simpa using l.unbroken
  exact findAllFrom_of_misses (misses_line hfirst hline)

theorem Item.head?_reverse_text (i : Item) (passed : List Char) :
    (i.text.reverse ++ passed).head? = some '\n' := by
  cases i <;> simp [Item.text]

/-- One item is scanned from the start of its first line, and the scan goes on behind it. -/
theorem findAllFrom_item (i : Item) (hstart : passed.head?.all (· == '\n') = true) :
    (statement.findAllFrom 0 passed (i.text ++ rest)).filterMap (bound? file) =
      i.bound?.toList ++
        (statement.findAllFrom 0 (i.text.reverse ++ passed) rest).filterMap (bound? file) := by
  cases i with
  | statement i tail =>
    let ending := tail.text ++ ['\n']
    obtain ⟨m, hm, hsize, hbound⟩ := at?_statement i hstart (ending ++ rest)
    have hne : i.text ≠ [] := by simp [Statement.text, Statement.opening]
    have htail : '\n' ∉ ending.dropLast := by
      intro h
      simpa using tail.all '\n' (by simpa [ending] using h)
    have hfirst : statement.at? ⟨i.text.reverse ++ passed, ending ++ rest⟩ = none := by
      refine at?_inside_line ?_
      cases hmark : i.mark <;>
        simp [Cursor.atLineStart, Statement.text, Statement.origin_eq, hmark, Mark.char]
    have hmatch := findAllFrom_of_at? hm hsize hne
    rw [findAllFrom_of_misses (misses_line hfirst htail)] at hmatch
    rw [Item.text, List.append_assoc, hmatch, List.filterMap_cons, hbound]
    simp [Item.bound?, ending]
  | line l =>
    rw [Item.text, findAllFrom_line]
    rfl

theorem findAllFrom_items (items : List Item) (rest : List Char) (file : Path)
    (hstart : passed.head?.all (· == '\n') = true) :
    ∃ passed', passed'.head?.all (· == '\n') = true ∧
      (statement.findAllFrom 0 passed (items.flatMap Item.text ++ rest)).filterMap (bound? file) =
        items.filterMap Item.bound? ++
          (statement.findAllFrom 0 passed' rest).filterMap (bound? file) := by
  induction items generalizing passed with
  | nil => exact ⟨passed, hstart, rfl⟩
  | cons i items ih =>
    obtain ⟨passed', hstart', hitems⟩ := ih (by rw [i.head?_reverse_text passed]; rfl)
    refine ⟨passed', hstart', ?_⟩
    rw [List.flatMap_cons, List.append_assoc, findAllFrom_item i hstart, hitems]
    cases h : i.bound? <;> simp [h]

/-- A source text binds the names of its default imports, in order, and no others. -/
theorem scan_source (source : Source) (file : Path) :
    (scan (String.ofList source.text) file).map (fun b => (b.name, b.specifier)) =
      source.items.filterMap Item.bound? := by
  have hempty : ([] : List Char).head?.all (· == '\n') = true := rfl
  obtain ⟨passed, hstart, hitems⟩ :=
    findAllFrom_items source.items (source.last.elim [] Line.text) file hempty
  have hlast : statement.findAllFrom 0 passed (source.last.elim [] Line.text) = [] := by
    cases source.last with
    | none => rw [Option.elim, findAllFrom]
    | some l =>
      have hfirst : statement.at? ⟨passed, l.text ++ []⟩ = none :=
        at?_withoutDefault l.withoutDefault rfl
      have hline : '\n' ∉ l.text.dropLast := fun h => l.unbroken (List.dropLast_subset _ h)
      have hmiss := findAllFrom_of_misses (misses_line hfirst hline)
      rwa [List.append_nil, findAllFrom] at hmiss
  rw [hlast, List.filterMap_nil, List.append_nil] at hitems
  rw [scan, findAll, String.toList_ofList, List.map_filterMap]
  exact hitems

-- the words `type` and `from` can be names
example : (scan "import type from \x27./a\x27\nimport type from from \x27./b\x27\n"
    (Path.ofString "m.ts")).map (fun b => (b.name, b.specifier)) =
      [("type", "./a"), ("from", "./b")] := by decide +kernel

end DefaultImports.Binding
