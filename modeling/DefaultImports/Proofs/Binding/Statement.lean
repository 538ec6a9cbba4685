import DefaultImports.Proofs.Binding.Grammar
import DefaultImports.Proofs.Pattern.Occurrence

/-! The import pattern at a default import. Main statement: `at?_statement`, the import is read to
its end, with its name and its specifier. -/
namespace DefaultImports.Binding

open Text Pattern

variable {s : Progress Part} {c : Char} {cs sp text middle rest : List Char}

/-! The pattern is read in these parts. -/

def openingPart : Pattern Part :=
  edge Cursor.atLineStart ++ many isBlank ++ word "import" ++ someSpace

def typePart : Pattern Part := word "type" ++ someSpace

def quotedPart : Pattern Part := quoted '\x27' <|> quoted '"'

def originPart : Pattern Part := word "from" ++ (spaces ++ quotedPart)

/-- What follows the bound name. -/
def linkPart : Pattern Part := spaces ++ (maybe otherImports ++ originPart)

def boundPart : Pattern Part := capture .name identifier ++ linkPart

theorem at?_statement_eq (c : Cursor) :
    statement.at? c = (openingPart ++ (maybe typePart ++ boundPart)).at? c := by
  simp only [at?_eq_head?, statement, openingPart, typePart, boundPart, linkPart, originPart,
    quotedPart, ends_append_assoc]

theorem edgesAre_otherImports (P : (Cursor → Bool) → Prop) : EdgesAre P otherImports := by
  simp [otherImports, identifier]

theorem edgesAre_quoted (P : (Cursor → Bool) → Prop) (mark : Char) : EdgesAre P (quoted mark) := by
  simp [quoted]

/-- The start of a line is the only place that a statement looks for. -/
theorem edgesAre_statement {P : (Cursor → Bool) → Prop} (h : P Cursor.atLineStart) :
    EdgesAre P statement := by
  simp [statement, identifier, h, edgesAre_otherImports, edgesAre_quoted]

/-! Characters at which the parts of a statement meet. -/

/-- The characters that can stand behind a bound name or continue it. -/
def isLinking (c : Char) : Bool := isSpace c || Surface.isNameChar c || c == ','

/-- The characters that another clause or `from` starts with. -/
def isLinkStart (c : Char) : Bool := c == ',' || c == 'f'

theorem isLinkStart_of_isSpace (h : isSpace c = true) : isLinkStart c = false := by
  refine disjoint_symm ?_ h
  intro c hc
  simp only [isLinkStart, Bool.or_eq_true, beq_iff_eq] at hc
  rcases hc with rfl | rfl <;> rfl

theorem Name.all (n : Name) : ∀ c ∈ n.text, Surface.isNameChar c = true := by
  intro c hc
  rcases List.mem_cons.mp hc with rfl | hc
  · exact isNameChar_of_isNameStart n.starts
  · exact n.others.all c hc

theorem Name.head?_isSpace (n : Name) (rest : List Char) :
    (n.text ++ rest).head?.any isSpace = false :=
  isSpace_of_isNameChar (isNameChar_of_isNameStart n.starts)

theorem Link.head?_isNameChar (l : Link) (rest : List Char) :
    (l.text ++ rest).head?.any Surface.isNameChar = false := by
  cases l with
  | plain gap => exact gap.head?_any (fun _ => isNameChar_of_isSpace) rest
  | clause before after c =>
    rw [Link.text, List.append_assoc]
    exact head?_append_any (fun c hc => isNameChar_of_isSpace (before.all c hc)) rfl

theorem Mark.head?_isLinking (m : Mark) (rest : List Char) :
    (m.char :: rest).head?.any isLinking = false := by
  cases m <;> rfl

theorem Opener.head?_isLinking (o : Opener) (rest : List Char) :
    (o.char :: rest).head?.any isLinking = false := by
  cases o with
  | brace => rfl
  | star => rfl
  | mark m => exact m.head?_isLinking rest

theorem head?_isSpace_of_isLinking (h : rest.head?.any isLinking = false) :
    rest.head?.any isSpace = false :=
  head?_any_mono (fun c hc => by simp [isLinking, hc]) h

theorem head?_isLinkStart_of_isLinking (h : rest.head?.any isLinking = false) :
    rest.head?.any isLinkStart = false := by
  refine head?_any_mono ?_ h
  intro c hc
  simp only [isLinkStart, Bool.or_eq_true, beq_iff_eq] at hc
  rcases hc with rfl | rfl <;> rfl

theorem head?_isNameStart_of_isLinking (h : rest.head?.any isLinking = false) :
    rest.head?.any isNameStart = false :=
  head?_any_mono (fun c hc => by simp [isLinking, isNameChar_of_isNameStart hc]) h

/-! Where the parts match nothing. -/

theorem refuses_boundPart (h : text.head?.any isNameStart = false) : Refuses boundPart text :=
  refuses_append_left (refuses_capture (refuses_append_left (refuses_one h)))

theorem refuses_otherImports (h : text.head?.any (· == ',') = false) : Refuses otherImports text :=
  refuses_append_left (refuses_append_left (refuses_append_left (refuses_one h)))

theorem refuses_linkPart (hsp : ∀ c ∈ sp, isSpace c = true)
    (hspace : rest.head?.any isSpace = false) (hlink : rest.head?.any isLinkStart = false) :
    Refuses linkPart (sp ++ rest) := by
  refine refuses_append ?_
  intro middle h
  have hhead := head?_of_leaves_many (fun _ => isLinkStart_of_isSpace) hsp hspace hlink h
  refine refuses_maybe_append ?_ ?_
  · have hcomma : middle.head?.any (· == ',') = false :=
      head?_any_mono (fun c hc => by simp [isLinkStart, hc]) hhead
    exact refuses_append_left (refuses_otherImports hcomma)
  · exact refuses_append_left (refuses_word (not_prefix_of_head? hhead rfl))

/-- Behind a word without an `f`, its first letter apart, and space, there is no `from`. -/
theorem refuses_boundPart_of_word (hcs : ∀ d ∈ cs, Surface.isNameChar d = true)
    (hf : 'f' ∉ cs) (hsp : ∀ c ∈ sp, isSpace c = true)
    (hrest : rest.head?.any isLinking = false) :
    Refuses boundPart (c :: cs ++ (sp ++ rest)) := by
  refine refuses_append ?_
  rintro middle ⟨_, ⟨c', h, -⟩, xs, rfl, hxs⟩
  have hend : (sp ++ rest).head?.any Surface.isNameChar = false :=
    head?_append_any (fun c hc => isNameChar_of_isSpace (hsp c hc))
      (head?_any_mono (fun c hc => by simp [isLinking, hc]) hrest)
  obtain ⟨zs, rfl, rfl⟩ := eq_append_of_run (List.cons.inj h).2 hxs hend
  cases zs with
  | nil =>
    have hlink := refuses_linkPart hsp (head?_isSpace_of_isLinking hrest)
      (head?_isLinkStart_of_isLinking hrest)
    exact hlink
  | cons d zs =>
    -- the name stops inside the word, where neither space nor `from` follows
    have hd : Surface.isNameChar d = true := hcs d (by simp)
    have hd_f : d ≠ 'f' := by rintro rfl; exact hf (by simp)
    have hd_comma : d ≠ ',' := by rintro rfl; cases hd
    have hlink : Refuses linkPart ([] ++ d :: (zs ++ (sp ++ rest))) :=
      refuses_linkPart (List.forall_mem_nil _) (isSpace_of_isNameChar hd)
        (by simp [isLinkStart, hd_f, hd_comma])
    exact hlink

theorem leaves_typePart (h : Leaves typePart text middle) :
    ∃ gap : Gap, text = "type".toList ++ (gap.text ++ middle) := by
  obtain ⟨_, hword, hgap⟩ := h
  obtain ⟨gap, rfl, hne, hgap⟩ := leaves_oneOrMore.mp hgap
  exact ⟨⟨⟨gap, hgap⟩, hne⟩, leaves_word.mp hword⟩

/-- Without the word `type` the bound name is not taken for that word, even where it is `type`:
what follows cannot be read as another name and `from`. -/
theorem refuses_typePart_append (i : Statement) (rest : List Char) :
    Refuses (typePart ++ boundPart) (i.name.text ++ (i.link.text ++ (i.origin ++ rest))) := by
  refine refuses_append ?_
  intro middle h
  obtain ⟨gap, h⟩ := leaves_typePart h
  obtain ⟨-, h⟩ := append_inj_of_run h i.name.all (List.all_eq_true.mp rfl)
    (i.link.head?_isNameChar _) (gap.head?_any (fun _ => isNameChar_of_isSpace) middle)
  cases hlink : i.link with
  | plain after =>
    rw [hlink, Link.text] at h
    obtain ⟨zs, hafter, rfl⟩ := eq_append_of_run h gap.all rfl
    cases zs with
    | nil =>
      rw [Statement.origin_eq, List.append_assoc, List.append_assoc]
      exact refuses_boundPart_of_word (List.all_eq_true.mp rfl) (by decide) i.markGap.all
        (i.mark.head?_isLinking _)
    | cons z zs =>
      have hz : isSpace z = true := after.all z (by simp [hafter])
      exact refuses_boundPart (isNameStart_of_isSpace hz)
  | clause before after c =>
    rw [hlink, Link.text, List.append_assoc] at h
    have hmiddle : Leaves (spaces : Pattern Part) (before.text ++ _) middle :=
      ⟨gap.text, h, gap.all⟩
    exact refuses_boundPart
      (head?_of_leaves_many (fun _ => isNameStart_of_isSpace) before.all rfl rfl hmiddle)

/-! Reading a default import. -/

theorem takes_openingPart (i : Statement) (hstart : s.cursor.atLineStart = true)
    (h : s.cursor.rest = i.opening ++ rest) (hrest : rest.head?.any isSpace = false) :
    Takes openingPart s (s.past i.opening rest) := by
  have hreads : Reads (many isBlank ++ (word "import" ++ someSpace) : Pattern Part)
      i.opening rest :=
    reads_append (reads_many i.indent.all rfl)
      (reads_append (reads_word "import") (reads_oneOrMore i.gap.ne_nil i.gap.all hrest))
  rw [openingPart, takes_append_assoc, takes_append_assoc]
  exact takes_append (takes_edge hstart) (hreads s h)

theorem reads_typePart (gap : Gap) (hrest : rest.head?.any isSpace = false) :
    Reads typePart ("type".toList ++ gap.text) rest :=
  reads_append (reads_word "type") (reads_oneOrMore gap.ne_nil gap.all hrest)

theorem reads_identifier (n : Name) (hrest : rest.head?.any Surface.isNameChar = false) :
    Reads identifier n.text rest :=
  reads_append (reads_one n.starts) (reads_many n.others.all hrest)

theorem reads_otherImports (after : Spaces) (c : Clause) (hrest : rest.head?.any isSpace = false) :
    Reads otherImports (',' :: (after.text ++ c.text)) rest := by
  cases c with
  | names list sp =>
    have hreads : Reads otherImports
        ([','] ++ after.text ++ (['{'] ++ list.text ++ ['}']) ++ sp.text) rest :=
      reads_append (reads_append (reads_append (reads_char ',') (reads_many after.all rfl))
          (reads_orElse_left (reads_append (reads_append (reads_char '{')
            (reads_many list.all rfl)) (reads_char '}'))))
        (reads_many sp.all hrest)
    simpa [Clause.text] using hreads
  | everything sp gap name gap' =>
    have hreads : Reads otherImports ([','] ++ after.text ++
        (['*'] ++ sp.text ++ "as".toList ++ gap.text ++ name.text) ++ gap'.text) rest :=
      reads_append (reads_append (reads_append (reads_char ',') (reads_many after.all rfl))
          (reads_orElse_right (refuses_append_left (refuses_append_left (refuses_one rfl)))
            (reads_append (reads_append (reads_append (reads_append (reads_char '*')
              (reads_many sp.all rfl)) (reads_word "as"))
              (reads_oneOrMore gap.ne_nil gap.all (name.head?_isSpace _)))
              (reads_identifier name (gap'.head?_any (fun _ => isNameChar_of_isSpace) rest)))))
        (reads_many gap'.all hrest)
    simpa [Clause.text] using hreads

theorem reads_link (l : Link) (rest : List Char) :
    Reads (spaces ++ maybe otherImports) l.text ("from".toList ++ rest) := by
  cases l with
  | plain gap =>
    have hreads : Reads (spaces ++ maybe otherImports) (gap.text ++ []) ("from".toList ++ rest) :=
      reads_append (reads_many gap.all rfl) (reads_maybe_skip (refuses_otherImports rfl))
    simpa [Link.text] using hreads
  | clause before after c =>
    exact reads_append (reads_many before.all rfl) (reads_maybe (reads_otherImports after c rfl))

theorem takes_quoted (m : Mark) (spec : Run1 isSpecifierChar)
    (h : s.cursor.rest = m.char :: (spec.text ++ m.char :: rest)) :
    ∃ t, Takes (quoted m.char) s t ∧ t.size = s.size + (spec.text.length + 2) ∧
      t.captures = ⟨.specifier, ⟨m.char :: s.cursor.passed, spec.text ++ m.char :: rest⟩,
        spec.text.length⟩ :: s.captures := by
  let opened := s.past [m.char] (spec.text ++ m.char :: rest)
  let named := (opened.past spec.text (m.char :: rest)).record .specifier opened
  have hopen : Takes (char m.char) s opened := reads_char m.char s h
  have hmark : (m.char :: rest).head?.any isSpecifierChar = false := by cases m <;> rfl
  have hspec : Takes (capture .specifier (oneOrMore isSpecifierChar)) opened named :=
    takes_capture .specifier (reads_oneOrMore spec.ne_nil spec.all hmark opened rfl)
  have hclose : Takes (char m.char) named (named.past [m.char] rest) := reads_char m.char named rfl
  refine ⟨_, takes_append (takes_append hopen hspec) hclose, ?_, ?_⟩
  · simp [named, opened]
    omega
  · simp [named, opened, Progress.past, Progress.moveTo]

theorem takes_quotedPart (m : Mark) {t : Progress Part} (h : Takes (quoted m.char) s t)
    (hrest : s.cursor.rest.head? = some m.char) : Takes quotedPart s t := by
  cases m with
  | single => exact takes_orElse_left h
  | double =>
    refine takes_orElse_right (refuses_append_left (refuses_append_left (refuses_one ?_))) h
    rw [hrest]
    rfl

theorem takes_originPart (i : Statement) (h : s.cursor.rest = i.origin ++ rest) :
    ∃ t start, Takes originPart s t ∧ t.size = s.size + i.origin.length ∧
      t.captures = ⟨.specifier, start, i.specifier.text.length⟩ :: s.captures ∧
      start.rest = i.specifier.text ++ i.mark.char :: rest := by
  let quotation := i.mark.char :: (i.specifier.text ++ i.mark.char :: rest)
  have hfrom : Reads (word "from" ++ spaces : Pattern Part) ("from".toList ++ i.markGap.text)
      quotation :=
    reads_append (reads_word "from")
      (reads_many i.markGap.all (head?_isSpace_of_isLinking (i.mark.head?_isLinking _)))
  let before := s.past ("from".toList ++ i.markGap.text) quotation
  obtain ⟨t, ht, hsize, hcaptures⟩ := takes_quoted i.mark i.specifier (s := before) rfl
  refine ⟨t, _, ?_, ?_, hcaptures, rfl⟩
  · have hs : s.cursor.rest = ("from".toList ++ i.markGap.text) ++ quotation := by
      simpa [Statement.origin_eq, quotation] using h
    exact takes_append_assoc.mp (takes_append (hfrom s hs) (takes_quotedPart i.mark ht rfl))
  · rw [hsize]
    simp [before, Statement.origin_eq]
    omega

/-- The name and the specifier are captured, and all of the statement is read. -/
theorem takes_boundPart (i : Statement)
    (h : s.cursor.rest = i.name.text ++ (i.link.text ++ (i.origin ++ rest))) :
    ∃ t start, Takes boundPart s t ∧
      t.size = s.size + (i.name.text ++ (i.link.text ++ i.origin)).length ∧
      t.captures = ⟨.specifier, start, i.specifier.text.length⟩ ::
        ⟨.name, s.cursor, i.name.text.length⟩ :: s.captures ∧
      start.rest = i.specifier.text ++ i.mark.char :: rest := by
  let named := (s.past i.name.text (i.link.text ++ (i.origin ++ rest))).record .name s
  let linked := named.past i.link.text (i.origin ++ rest)
  have hname : Takes (capture .name identifier) s named :=
    takes_capture .name (reads_identifier i.name (i.link.head?_isNameChar _) s h)
  have hlink : Takes (spaces ++ maybe otherImports) named linked := reads_link i.link _ named rfl
  obtain ⟨t, start, ht, hsize, hcaptures, hstart⟩ := takes_originPart i (s := linked) rfl
  refine ⟨t, start, ?_, ?_, ?_, hstart⟩
  · exact takes_append hname (takes_append_assoc.mp (takes_append hlink ht))
  · rw [hsize]
    simp [linked, named]
    omega
  · rw [hcaptures]
    simp [linked, named]

theorem head?_isSpace_of_body (i : Statement) (rest : List Char) :
    (i.typeWord ++ (i.name.text ++ rest)).head?.any isSpace = false := by
  rw [Statement.typeWord]
  cases i.typeGap with
  | none => exact i.name.head?_isSpace rest
  | some gap => rfl

theorem takes_maybe_typePart (i : Statement) {t : Progress Part}
    (h : s.cursor.rest = i.typeWord ++ (i.name.text ++ (i.link.text ++ (i.origin ++ rest))))
    (ht : Takes boundPart
      (s.past i.typeWord (i.name.text ++ (i.link.text ++ (i.origin ++ rest)))) t) :
    Takes (maybe typePart ++ boundPart) s t := by
  cases hgap : i.typeGap with
  | none =>
    have hword : i.typeWord = [] := by simp only [Statement.typeWord, hgap]
    rw [hword, List.nil_append] at h
    rw [hword, Progress.past_nil h] at ht
    refine takes_maybe_append_skip ?_ ht
    rw [h]
    exact refuses_typePart_append i rest
  | some gap =>
    have hword : i.typeWord = "type".toList ++ gap.text := by simp only [Statement.typeWord, hgap]
    rw [hword] at h ht
    exact takes_append (reads_maybe (reads_typePart gap (i.name.head?_isSpace _)) s h) ht

/-- What a match binds, its position apart. -/
def bound? (file : Path) (m : Found Part) : Option (String × String) :=
  (ofFound? file m).map fun b => (b.name, b.specifier)

/-- The name and the specifier of a default import at the start of a line are found, and the
match ends where the import does. -/
theorem at?_statement (i : Statement) {passed : List Char}
    (hstart : passed.head?.all (· == '\n') = true) (rest : List Char) :
    ∃ m, statement.at? ⟨passed, i.text ++ rest⟩ = some m ∧ m.size = i.text.length ∧
      ∀ file, bound? file m =
        some (String.ofList i.name.text, String.ofList i.specifier.text) := by
  let bound := i.name.text ++ (i.link.text ++ (i.origin ++ rest))
  let s : Progress Part := ⟨⟨passed, i.text ++ rest⟩, 0, []⟩
  let opened := s.past i.opening (i.typeWord ++ bound)
  have hopen : Takes openingPart s opened :=
    takes_openingPart i hstart (by simp [s, Statement.text, bound]) (head?_isSpace_of_body i _)
  obtain ⟨t, start, ht, hsize, hcaptures, hrest⟩ :=
    takes_boundPart i (s := opened.past i.typeWord bound) rfl
  have hfound := at?_of_takes (takes_append hopen (takes_maybe_typePart i rfl ht))
  refine ⟨_, (at?_statement_eq _).trans hfound, ?_, ?_⟩
  · rw [hsize]
    simp [opened, s, Statement.text]
    omega
  · intro file
    simp [bound?, ofFound?, Found.capture?, hcaptures, Capture.text, hrest, bound]

end DefaultImports.Binding
