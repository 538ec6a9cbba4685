import DefaultImports.Proofs.Surface.Entries

/-! The two export patterns at the start of an export statement. Main statements:
`yields_braceList` and `yields_declaration`, what each of them takes from a statement. -/
namespace DefaultImports.Surface

open Text Pattern

variable {s : Progress Unit} {gap text next inner rest : List Char} {c d : Char}

/-- At the start of `text`, which stands between `passed` and `rest`, the pattern captures
`found` and reads on to the end of `text`. -/
def Yields (p : Pattern Unit) (passed text rest found : List Char) : Prop :=
  ∃ m, p.at? ⟨passed, text ++ rest⟩ = some m ∧ m.size = text.length ∧
    (m.capture? ()).map Capture.text = some (String.ofList found)

theorem beq_of_isSpace (hc : isSpace c = true) (hd : isSpace d = false) : (c == d) = false := by
  refine beq_false_of_ne ?_
  rintro rfl
  rw [hc] at hd
  cases hd

/-! Declarations. -/

theorem reads_constEnum (between gap : Gap) (hrest : rest.head?.any isSpace = false) :
    Reads declarator (Introduction.constEnum between gap).text rest := by
  rw [Introduction.text_constEnum]
  exact reads_orElse_left (reads_append (reads_append (reads_append (reads_word "const")
      (reads_oneOrMore between.ne_nil between.all rfl)) (reads_word "enum"))
      (reads_oneOrMore gap.ne_nil gap.all hrest))

theorem reads_async (async : Option Gap) (rest : List Char) :
    Reads (maybe (word "async" ++ someSpace) : Pattern Unit) (asyncText async)
      ("function".toList ++ rest) := by
  cases async with
  | none => exact reads_maybe_skip (refuses_append_left (refuses_word (by simp)))
  | some gap =>
    exact reads_maybe (reads_append (reads_word "async") (reads_oneOrMore gap.ne_nil gap.all rfl))

/-- The alternative of the pattern for enumerations. -/
def constEnumPart : Pattern Unit := word "const" ++ someSpace ++ word "enum" ++ someSpace

theorem refuses_constEnumPart (h : Refuses (word "const" : Pattern Unit) text) :
    Refuses constEnumPart text := by
  simp only [constEnumPart, refuses_append_assoc]
  exact refuses_append_left h

theorem refuses_const_of_async (async : Option Gap) (rest : List Char) :
    Refuses (word "const" : Pattern Unit) (asyncText async ++ ("function".toList ++ rest)) := by
  refine refuses_word ?_
  cases async <;> simp

/-- The two ways to go on behind `function`. -/
def functionGap : Pattern Unit := (spaces ++ char '*' ++ spaces) <|> someSpace

theorem reads_function_of_gap (async : Option Gap) (h : Reads functionGap text rest) :
    Reads declarator (asyncText async ++ ("function".toList ++ text)) rest := by
  have hreads : Reads (maybe (word "async" ++ someSpace) ++ word "function" ++ functionGap)
      (asyncText async ++ "function".toList ++ text) rest :=
    reads_append (reads_append (reads_async async _) (reads_word "function")) h
  rw [List.append_assoc] at hreads
  refine reads_orElse_right ?_ (reads_orElse_left hreads)
  rw [List.append_assoc, List.append_assoc]
  exact refuses_constEnumPart (refuses_const_of_async async _)

theorem reads_functionGap (gap : Gap) (hspace : rest.head?.any isSpace = false)
    (hstar : rest.head?.any (· == '*') = false) : Reads functionGap gap.text rest := by
  refine reads_orElse_right (refuses_append_left (refuses_append ?_))
    (reads_oneOrMore gap.ne_nil gap.all hspace)
  intro middle h
  exact refuses_one
    (head?_of_leaves_many (fun c hc => beq_of_isSpace hc rfl) gap.all hspace hstar h)

theorem reads_generatorGap (before after : Spaces) (hspace : rest.head?.any isSpace = false) :
    Reads functionGap (before.text ++ '*' :: after.text) rest := by
  have hreads : Reads (spaces ++ char '*' ++ spaces : Pattern Unit)
      (before.text ++ ['*'] ++ after.text) rest :=
    reads_append (reads_append (reads_many before.all rfl) (reads_char '*'))
      (reads_many after.all hspace)
  exact reads_orElse_left (by simpa using hreads)

/-- `const` and a name other than `enum` do not introduce an enumeration. -/
theorem refuses_constEnum (gap : Gap) (n : Identifier) (hname : n.text ≠ "enum".toList)
    (hrest : rest.head?.any isNameChar = false) :
    Refuses constEnumPart ("const".toList ++ (gap.text ++ (n.text ++ rest))) := by
  rintro _ ⟨_, ⟨_, hgap, henum⟩, hspace⟩
  obtain ⟨us, h, -, hus⟩ := leaves_oneOrMore.mp (leaves_word_append hgap)
  obtain rfl := leaves_word.mp henum
  obtain ⟨vs, rfl, hne, hvs⟩ := leaves_oneOrMore.mp hspace
  obtain ⟨-, h⟩ := append_inj_of_run h gap.all hus (n.head?_isSpace rest) rfl
  let after : Gap := ⟨⟨vs, hvs⟩, hne⟩
  exact hname (append_inj_of_run h n.all (List.all_eq_true.mp rfl) hrest
    (after.head?_any (fun _ => isNameChar_of_isSpace) _)).1

/-- The keyword alternatives of the pattern. -/
def keywordPart : Pattern Unit :=
  word "const" <|> word "let" <|> word "var" <|> word "class" <|> word "enum"

theorem reads_keywordPart (k : Keyword) (rest : List Char) :
    Reads keywordPart k.word.toList rest := by
  have skip {v : String} {a : Pattern Unit} (h : ¬ v.toList <+: k.word.toList ++ rest)
      (ha : Reads a k.word.toList rest) : Reads (word v <|> a) k.word.toList rest :=
    reads_orElse_right (refuses_word h) ha
  cases k with
  | const => exact reads_orElse_left (reads_word "const")
  | «let» => exact skip (by simp [Keyword.word]) (reads_orElse_left (reads_word "let"))
  | var =>
    refine skip ?_ (skip ?_ (reads_orElse_left (reads_word "var")))
    all_goals simp [Keyword.word]
  | «class» =>
    refine skip ?_ (skip ?_ (skip ?_ (reads_orElse_left (reads_word "class"))))
    all_goals simp [Keyword.word]
  | enum =>
    refine skip ?_ (skip ?_ (skip ?_ (skip ?_ (reads_word "enum"))))
    all_goals simp [Keyword.word]

/-- The letters that the words of a declaration start with. -/
def startsWord (c : Char) : Bool := c ∈ "cafleve".toList

theorem startsWord_of_isSpace (hc : isSpace c = true) : startsWord c = false := by
  have hall : ∀ d ∈ "cafleve".toList, isNameChar d = true := List.all_eq_true.mp rfl
  exact disjoint_symm (fun d hd => isSpace_of_isNameChar (hall d (of_decide_eq_true hd))) hc

theorem refuses_function (h : text.head?.any (fun c => c == 'a' || c == 'f') = false) :
    Refuses (maybe (word "async" ++ someSpace) ++ word "function" ++ functionGap) text :=
  refuses_append_left (refuses_maybe_append
    (refuses_append_left (refuses_append_left (refuses_word (not_prefix_of_head? h rfl))))
    (refuses_word (not_prefix_of_head? h rfl)))

theorem reads_keyword (k : Keyword) (gap : Gap) (n : Identifier)
    (hname : k = .const → n.text ≠ "enum".toList) (hrest : rest.head?.any isNameChar = false) :
    Reads declarator (Introduction.keyword k gap).text (n.text ++ rest) := by
  have henum : Refuses constEnumPart (k.word.toList ++ (gap.text ++ (n.text ++ rest))) := by
    cases k with
    | const => exact refuses_constEnum gap n (hname rfl) hrest
    | _ => exact refuses_constEnumPart (refuses_word (by simp [Keyword.word]))
  have hfunction : Refuses (maybe (word "async" ++ someSpace) ++ word "function" ++ functionGap)
      (k.word.toList ++ (gap.text ++ (n.text ++ rest))) :=
    refuses_function (by cases k <;> rfl)
  rw [← List.append_assoc] at henum hfunction
  exact reads_orElse_right henum (reads_orElse_right hfunction (reads_append
    (reads_keywordPart k _) (reads_oneOrMore gap.ne_nil gap.all (n.head?_isSpace rest))))

theorem beq_star_of_isNameChar (hc : isNameChar c = true) : (c == '*') = false := by
  refine beq_false_of_ne ?_
  rintro rfl
  cases hc

theorem reads_introduction (d : Declaration) (hrest : rest.head?.any isNameChar = false) :
    Reads declarator d.introduction.text (d.name.text ++ rest) := by
  have hspace := d.name.head?_isSpace rest
  cases hintro : d.introduction with
  | keyword k gap =>
    refine reads_keyword k gap d.name ?_ hrest
    rintro rfl
    exact d.allowed gap hintro
  | constEnum between gap => exact reads_constEnum between gap hspace
  | function async gap =>
    have hstar := d.name.head?_any (fun _ => beq_star_of_isNameChar) rest
    exact reads_function_of_gap async (reads_functionGap gap hspace hstar)
  | generator async before after =>
    exact reads_function_of_gap async (reads_generatorGap before after hspace)

theorem refuses_declarator (h : text.head?.any startsWord = false) : Refuses declarator text := by
  have hword {c : Char} {w : List Char} (hc : startsWord c = true) : ¬ c :: w <+: text :=
    not_prefix_of_head? h hc
  refine refuses_orElse ?_ (refuses_orElse ?_ ?_)
  · exact refuses_constEnumPart (refuses_word (hword rfl))
  · refine refuses_function (head?_any_mono ?_ h)
    intro c hc
    simp only [Bool.or_eq_true, beq_iff_eq] at hc
    rcases hc with rfl | rfl <;> rfl
  · refine refuses_append_left (refuses_orElse ?_ (refuses_orElse ?_ (refuses_orElse ?_
      (refuses_orElse ?_ ?_))))
    all_goals exact refuses_word (hword rfl)

/-- Behind `export` and space, a declaration starts with one of its words. -/
theorem refuses_declaration (hgap : ∀ c ∈ gap, isSpace c = true)
    (hspace : next.head?.any isSpace = false) (hnext : next.head?.any startsWord = false) :
    Refuses declaration ("export".toList ++ (gap ++ next)) := by
  refine refuses_append_left (refuses_append ?_)
  intro middle h
  have hleaves := leaves_many_of_oneOrMore (leaves_word_append h)
  exact refuses_declarator
    (head?_of_leaves_many (fun c => startsWord_of_isSpace) hgap hspace hnext hleaves)

/-- Behind `export` and space, a brace list starts with its brace. -/
theorem refuses_braceList (hgap : ∀ c ∈ gap, isSpace c = true)
    (hspace : next.head?.any isSpace = false) (hnext : next.head?.any (· == '{') = false) :
    Refuses braceList ("export".toList ++ (gap ++ next)) := by
  refine refuses_append_left (refuses_append_left (refuses_append_left (refuses_append_left
    (refuses_append ?_))))
  intro middle h
  exact refuses_one (head?_of_leaves_many (fun c hc => beq_of_isSpace hc rfl) hgap hspace hnext
    (leaves_word_append h))

theorem Introduction.head?_any {q : Char → Bool} (i : Introduction)
    (h : "cafleve".toList.any q = false) (rest : List Char) :
    (i.text ++ rest).head?.any q = false := by
  have hall (c : Char) (hc : c ∈ "cafleve".toList) : q c = false :=
    eq_false_of_ne_true (List.any_eq_false.mp h c hc)
  cases i with
  | keyword k gap => cases k <;> exact hall _ (by decide)
  | constEnum between gap => exact hall 'c' (by decide)
  | function async gap => cases async <;> exact hall _ (by decide)
  | generator async before after => cases async <;> exact hall _ (by decide)

/-- A declaration gives its name. -/
theorem yields_declaration (d : Declaration) (hrest : rest.head?.any isNameChar = false)
    (passed : List Char) :
    Yields declaration passed (Statement.declaration d).text rest d.name.text := by
  let front := "export".toList ++ d.gap.text ++ d.introduction.text
  have hfront : Reads (word "export" ++ someSpace ++ declarator) front (d.name.text ++ rest) :=
    reads_append (reads_append (reads_word "export")
      (reads_oneOrMore d.gap.ne_nil d.gap.all (d.introduction.head?_any rfl _)))
      (reads_introduction d hrest)
  have hname : Reads (oneOrMore isNameChar : Pattern Unit) d.name.text rest :=
    reads_oneOrMore d.name.ne_nil d.name.all hrest
  have htext : (Statement.declaration d).text = front ++ d.name.text := by
    simp only [Statement.text_eq, Statement.body, front, List.append_assoc]
  let start : Progress Unit := ⟨⟨passed, front ++ (d.name.text ++ rest)⟩, 0, []⟩
  have htakes := takes_append (hfront start rfl)
    (takes_capture () (hname (start.past front (d.name.text ++ rest)) rfl))
  rw [htext, Yields, List.append_assoc]
  refine ⟨_, at?_of_takes htakes, ?_, ?_⟩
  · simp [start]
  · simp [start, Found.capture?, Capture.text]

/-! Brace lists. -/

def listOpening : Pattern Unit := word "export" ++ spaces ++ char '{'

/-- The entries and the closing brace. -/
def listEnd : Pattern Unit := capture () (oneOrMore notClosing) ++ (spaces ++ char '}')

theorem at?_braceList_eq (c : Cursor) :
    braceList.at? c = (listOpening ++ (spaces ++ listEnd)).at? c := by
  simp only [at?_eq_head?, braceList, listOpening, listEnd, ends_append_assoc]

theorem takes_listEnd (hs : s.cursor.rest = inner ++ '}' :: rest) (hne : inner ≠ [])
    (hinner : ∀ c ∈ inner, notClosing c = true) :
    ∃ t, Takes listEnd s t ∧ t.size = s.size + (inner.length + 1) ∧
      t.captures = ⟨(), s.cursor, inner.length⟩ :: s.captures := by
  let taken := (s.past inner ('}' :: rest)).record () s
  have hinner : Takes (capture () (oneOrMore notClosing)) s taken :=
    takes_capture () (reads_oneOrMore hne hinner rfl s hs)
  have hclose : Reads (spaces ++ char '}' : Pattern Unit) ([] ++ ['}']) rest :=
    reads_append (reads_many (List.forall_mem_nil _) rfl) (reads_char '}')
  refine ⟨_, takes_append hinner (hclose taken rfl), ?_, ?_⟩
  · simp [taken, Nat.add_assoc]
  · simp [taken]

/-- Space in front of the entries is not captured; where there is nothing else, its last
character is. -/
theorem takes_spaces_listEnd (hs : s.cursor.rest = inner ++ '}' :: rest) (hne : inner ≠ [])
    (hinner : ∀ c ∈ inner, notClosing c = true) :
    ∃ t before list start, inner = before ++ list ∧ (∀ c ∈ before, isSpace c = true) ∧
      Takes (spaces ++ listEnd) s t ∧ t.size = s.size + (inner.length + 1) ∧
      t.captures = ⟨(), start, list.length⟩ :: s.captures ∧ start.rest = list ++ '}' :: rest := by
  have hspaces : ∀ c ∈ inner.takeWhile isSpace, isSpace c = true :=
    List.all_eq_true.mp List.all_takeWhile
  have hsplit : inner.takeWhile isSpace ++ inner.dropWhile isSpace = inner :=
    List.takeWhile_append_dropWhile
  generalize inner.takeWhile isSpace = before at hspaces hsplit
  cases hlist : inner.dropWhile isSpace with
  | nil =>
    rw [hlist, List.append_nil] at hsplit
    subst hsplit
    have hlast := List.dropLast_concat_getLast hne
    generalize before.dropLast = xs, before.getLast hne = c at hlast
    subst hlast
    let back := s.past xs (c :: '}' :: rest)
    have hback : back.cursor.rest = [c] ++ '}' :: rest := rfl
    obtain ⟨t, ht, hsize, hcaptures⟩ := takes_listEnd hback (List.cons_ne_nil c [])
      (List.forall_mem_singleton.mpr (hinner c (by simp)))
    have hrefuses : Refuses listEnd ('}' :: rest) :=
      refuses_append_left (refuses_capture (refuses_oneOrMore rfl))
    refine ⟨t, xs, [c], back.cursor, rfl, fun d hd => hspaces d (by simp [hd]), ?_, ?_, hcaptures,
      rfl⟩
    · exact takes_many_append_shorter (fun d hd => hspaces d (by simp [hd]))
        (hspaces c (by simp)) rfl (by simpa using hs) hrefuses ht
    · rw [hsize]
      simp [back, Nat.add_assoc]
  | cons c cs =>
    have hhead : (c :: cs ++ '}' :: rest).head?.any isSpace = false := by
      simpa [hlist] using List.head?_dropWhile_not isSpace inner
    rw [hlist] at hsplit
    subst hsplit
    let behind := s.past before (c :: cs ++ '}' :: rest)
    obtain ⟨t, ht, hsize, hcaptures⟩ := takes_listEnd (s := behind) rfl (List.cons_ne_nil c cs)
      fun d hd => hinner d (List.mem_append_right before hd)
    have hread : Takes spaces s behind :=
      reads_many hspaces hhead s (by simpa using hs)
    refine ⟨t, before, c :: cs, behind.cursor, rfl, hspaces, takes_append hread ht, ?_, hcaptures,
      rfl⟩
    rw [hsize]
    simp [behind]
    omega

theorem reads_listOpening (gap : Spaces) (rest : List Char) :
    Reads listOpening ("export".toList ++ gap.text ++ ['{']) rest :=
  reads_append (reads_append (reads_word "export") (reads_many gap.all rfl)) (reads_char '{')

/-- A brace list gives its entries, less space in front of them. -/
theorem yields_braceList (gap : Spaces) (hne : inner ≠ [])
    (hinner : ∀ c ∈ inner, notClosing c = true) (passed rest : List Char) :
    ∃ before list, inner = before ++ list ∧ (∀ c ∈ before, isSpace c = true) ∧
      Yields braceList passed ("export".toList ++ (gap.text ++ '{' :: (inner ++ ['}']))) rest
        list := by
  let front := "export".toList ++ gap.text ++ ['{']
  have htext : "export".toList ++ (gap.text ++ '{' :: (inner ++ ['}'])) =
      front ++ (inner ++ ['}']) := by
    simp [front]
  have hrest : front ++ (inner ++ ['}']) ++ rest = front ++ (inner ++ '}' :: rest) := by
    simp
  let start : Progress Unit := ⟨⟨passed, front ++ (inner ++ '}' :: rest)⟩, 0, []⟩
  have hfront := reads_listOpening gap (inner ++ '}' :: rest) start rfl
  obtain ⟨t, before, list, cursor, hlist, hbefore, ht, hsize, hcaptures, hcursor⟩ :=
    takes_spaces_listEnd (s := start.past front (inner ++ '}' :: rest)) rfl hne hinner
  refine ⟨before, list, hlist, hbefore, ?_⟩
  rw [htext, Yields, hrest, at?_braceList_eq]
  refine ⟨_, at?_of_takes (takes_append hfront ht), ?_, ?_⟩
  · rw [hsize]
    simp [start]
  · simp [Found.capture?, hcaptures, Capture.text, hcursor]

/-- A list without any text is not found. -/
theorem refuses_braceList_empty (gap : Spaces) (rest : List Char) :
    Refuses braceList ("export".toList ++ (gap.text ++ '{' :: '}' :: rest)) := by
  refine refuses_append_left (refuses_append_left (refuses_append ?_))
  rintro middle ⟨_, ⟨_, hspaces, c, rfl, hc⟩, us, rfl, hus⟩
  obtain ⟨vs, h, hvs⟩ := leaves_word_append hspaces
  obtain rfl : c = '{' := beq_iff_eq.mp hc
  obtain ⟨-, h⟩ := append_inj_of_run h gap.all hvs rfl rfl
  have hempty : [] ++ '}' :: rest = us ++ middle := (List.cons.inj h).2
  obtain ⟨zs, hzs, rfl⟩ := eq_append_of_run hempty hus rfl
  obtain rfl := (List.append_eq_nil_iff.mp hzs.symm).2
  exact refuses_capture (refuses_oneOrMore rfl)

end DefaultImports.Surface
