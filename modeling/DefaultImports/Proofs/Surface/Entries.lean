import DefaultImports.Proofs.Pattern.Search
import DefaultImports.Proofs.Surface.Grammar
import DefaultImports.Proofs.Text.Split
import DefaultImports.Proofs.Text.Trim

/-! The names in the text of a brace list. Main statements: `entryNames_entriesText`, the names
of the entries are read back, and `entryNames_append`, space in front is of no account. -/
namespace DefaultImports.Surface

open Text Pattern

variable {before passed xs rest list : List Char} {c : Char}

theorem Identifier.head?_isSpace (n : Identifier) (rest : List Char) :
    (n.text ++ rest).head?.any isSpace = false :=
  n.head?_any (fun _ => isSpace_of_isNameChar) rest

theorem Identifier.head?_reverse_isSpace (n : Identifier) (rest : List Char) :
    (n.text.reverse ++ rest).head?.any isSpace = false :=
  n.reverse.head?_any (fun _ => isSpace_of_isNameChar) rest

theorem trim_identifier (n : Identifier) : trim n.text = n.text := by
  have hfirst := n.head?_isSpace []
  have hlast := n.head?_reverse_isSpace []
  rw [List.append_nil] at hfirst hlast
  simpa using trim_surround (List.forall_mem_nil _) hfirst hlast (List.forall_mem_nil _)

theorem EntryBody.head?_isSpace (b : EntryBody) : b.text.head?.any isSpace = false := by
  cases b with
  | empty => rfl
  | plain n => simpa [EntryBody.text] using n.head?_isSpace []
  | renamed n beforeAs afterAs exported => exact n.head?_isSpace _

theorem EntryBody.head?_reverse_isSpace (b : EntryBody) :
    b.text.reverse.head?.any isSpace = false := by
  cases b with
  | empty => rfl
  | plain n => simpa [EntryBody.text] using n.head?_reverse_isSpace []
  | renamed n beforeAs afterAs exported =>
    simp only [EntryBody.text, List.reverse_append, List.append_assoc]
    exact exported.head?_reverse_isSpace _

/-- The space around `as` starts behind the name, never inside it. -/
theorem misses_aliasMark (n : Identifier) (passed rest : List Char) :
    Misses aliasMark passed n.text rest := by
  intro ys zs h hzs
  obtain ⟨z, zs, rfl⟩ := List.exists_cons_of_ne_nil hzs
  have hz : isSpace z = false := isSpace_of_isNameChar (n.all z (by simp [h]))
  refine at?_of_refuses ?_ _
  exact refuses_append_left (refuses_append_left (refuses_oneOrMore (by simpa using hz)))

theorem find?_aliasMark_plain (n : Identifier) : aliasMark.find? n.text = none := by
  have hmiss := findFrom?_of_misses (misses_aliasMark n [] [])
  rw [List.append_nil] at hmiss
  rw [find?, hmiss]
  exact at?_of_refuses (refuses_append_left (refuses_append_left (refuses_oneOrMore rfl))) _

theorem find?_aliasMark_renamed (n : Identifier) (beforeAs afterAs : Gap) (exported : Identifier) :
    ∃ m, aliasMark.find? (EntryBody.renamed n beforeAs afterAs exported).text = some m ∧
      m.start.passed = n.text.reverse := by
  let mark := beforeAs.text ++ "as".toList ++ afterAs.text
  have hmark : Reads aliasMark mark exported.text :=
    reads_append (reads_append (reads_oneOrMore beforeAs.ne_nil beforeAs.all rfl)
        (reads_word "as"))
      (reads_oneOrMore afterAs.ne_nil afterAs.all (by simpa using exported.head?_isSpace []))
  let start : Cursor := ⟨n.text.reverse ++ [], mark ++ exported.text⟩
  have hfound := at?_of_takes (hmark ⟨start, 0, []⟩ rfl)
  have hmiss := findFrom?_of_misses (misses_aliasMark n [] (mark ++ exported.text))
  have htext : (EntryBody.renamed n beforeAs afterAs exported).text =
      n.text ++ (mark ++ exported.text) := by
    simp only [EntryBody.text, mark, List.append_assoc]
  have hfind := hmiss.trans (findFrom?_of_at? hfound)
  rw [← htext] at hfind
  exact ⟨_, hfind, List.append_nil n.text.reverse⟩

theorem entryName_text (e : Entry) : entryName e.text = e.body.name?.getD [] := by
  have htrim : trim e.text = e.body.text :=
    trim_surround e.before.all e.body.head?_isSpace e.body.head?_reverse_isSpace e.after.all
  rw [entryName, htrim]
  cases hbody : e.body with
  | empty => rfl
  | plain n =>
    rw [EntryBody.text, find?_aliasMark_plain n]
    exact trim_identifier n
  | renamed n beforeAs afterAs exported =>
    obtain ⟨m, hm, hpassed⟩ := find?_aliasMark_renamed n beforeAs afterAs exported
    rw [hm]
    simp only [hpassed, List.reverse_reverse]
    exact trim_identifier n

theorem Entry.all (e : Entry) : ∀ c ∈ e.text, isSpace c = true ∨ isNameChar c = true := by
  intro c hc
  rcases List.mem_append.mp hc with hc | hc
  · exact .inl (e.before.all c hc)
  rcases List.mem_append.mp hc with hc | hc
  · cases hbody : e.body with
    | empty => simp [hbody, EntryBody.text] at hc
    | plain n => exact .inr (n.all c (by simpa [hbody, EntryBody.text] using hc))
    | renamed n beforeAs afterAs exported =>
      rw [hbody] at hc
      simp only [EntryBody.text, List.mem_append] at hc
      rcases hc with hc | hc | hc | hc | hc
      · exact .inr (n.all c hc)
      · exact .inl (beforeAs.all c hc)
      · have has : ∀ c ∈ "as".toList, isNameChar c = true := List.all_eq_true.mp rfl
        exact .inr (has c hc)
      · exact .inl (afterAs.all c hc)
      · exact .inr (exported.all c hc)
  · exact .inl (e.after.all c hc)

theorem Entry.notMem (e : Entry) (hspace : isSpace c = false) (hname : isNameChar c = false) :
    c ∉ e.text := by
  intro hc
  rcases e.all c hc with h | h
  · rw [h] at hspace
    cases hspace
  · rw [h] at hname
    cases hname

theorem EntryBody.ne_nil_of_name? {b : EntryBody} {name : List Char} (h : b.name? = some name) :
    name ≠ [] := by
  cases b with
  | empty => cases h
  | plain n =>
    obtain rfl := Option.some.inj h
    exact n.ne_nil
  | renamed n _ _ _ =>
    obtain rfl := Option.some.inj h
    exact n.ne_nil

theorem filter_entryNames (entries : List Entry) :
    (entries.map fun e => entryName e.text).filter (!·.isEmpty) =
      entries.filterMap fun e => e.body.name? := by
  induction entries with
  | nil => rfl
  | cons e entries ih =>
    rw [List.map_cons, entryName_text]
    cases h : e.body.name? with
    | none => simpa [h] using ih
    | some name => simpa [h, EntryBody.ne_nil_of_name? h] using ih

/-- The names of the entries are read back from the text of the list. -/
theorem entryNames_entriesText (first : Entry) (others : List Entry) :
    entryNames (entriesText (first :: others)) =
      ((first :: others).filterMap fun e => e.body.name?).map String.ofList := by
  have hcut : split (· == ',') (entriesText (first :: others)) =
      (first :: others).map Entry.text := by
    refine split_intercalate (by simp) ?_
    intro piece hpiece
    obtain ⟨e, -, rfl⟩ := List.mem_map.mp hpiece
    exact e.notMem rfl rfl
  rw [entryNames, hcut, List.map_map]
  exact congrArg (List.map String.ofList) (filter_entryNames (first :: others))

theorem entryNames_cons (hc : isSpace c = true) (list : List Char) :
    entryNames (c :: list) = entryNames list := by
  have hcomma : (c == ',') = false := by
    cases h : c == ',' with
    | false => rfl
    | true =>
      obtain rfl := beq_iff_eq.mp h
      cases hc
  obtain ⟨piece, pieces, hsplit⟩ := List.exists_cons_of_ne_nil (split_ne_nil (· == ',') list)
  have hname : entryName (c :: piece) = entryName piece := by
    have htrim := trim_append (List.forall_mem_singleton.mpr hc) piece
    rw [List.singleton_append] at htrim
    rw [entryName, htrim]
    rfl
  rw [entryNames, entryNames, split, hsplit]
  simp [hcomma, hname]

/-- Space in front of a list is of no account. -/
theorem entryNames_append (hbefore : ∀ c ∈ before, isSpace c = true) (list : List Char) :
    entryNames (before ++ list) = entryNames list := by
  induction before with
  | nil => rfl
  | cons c cs ih =>
    rw [List.cons_append, entryNames_cons (hbefore c (by simp)), ih]
    exact fun d hd => hbefore d (by simp [hd])

end DefaultImports.Surface
