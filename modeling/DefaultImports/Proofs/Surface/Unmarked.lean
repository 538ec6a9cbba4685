import DefaultImports.Proofs.Surface.Grammar

/-! Where the word `export` can start in a module text. Main statement: `unmarked_body`, it does
not start inside a statement. -/
namespace DefaultImports.Surface

open Text

variable {xs ys rest : List Char} {c : Char}

/-- The word `export` starts at no character of `xs`, where `xs` stands before `rest`. -/
def Unmarked (xs rest : List Char) : Prop :=
  ∀ ys zs, xs = ys ++ zs → zs ≠ [] → ¬ "export".toList <+: zs ++ rest

/-- The letters of `export` behind the first. -/
def isInner (c : Char) : Bool := c ∈ "xport".toList

theorem isNameChar_of_isInner (h : isInner c = true) : isNameChar c = true := by
  have hall : ∀ d ∈ "xport".toList, isNameChar d = true := List.all_eq_true.mp rfl
  exact hall c (of_decide_eq_true h)

theorem isInner_of_isSpace (h : isSpace c = true) : isInner c = false :=
  disjoint_symm (fun _ hc => isSpace_of_isNameChar (isNameChar_of_isInner hc)) h

theorem unmarked_append (hxs : Unmarked xs (ys ++ rest)) (hys : Unmarked ys rest) :
    Unmarked (xs ++ ys) rest := by
  intro us vs h hvs
  rcases List.append_eq_append_iff.mp h with ⟨as, rfl, rfl⟩ | ⟨bs, rfl, rfl⟩
  · exact hys as vs rfl hvs
  · cases bs with
    | nil => exact hys [] ys rfl hvs
    | cons b bs =>
      rw [List.append_assoc]
      exact hxs us (b :: bs) rfl (List.cons_ne_nil b bs)

theorem unmarked_of_notMem (h : 'e' ∉ xs) (rest : List Char) : Unmarked xs rest := by
  rintro ys zs rfl hzs ⟨_, heq⟩
  obtain ⟨z, zs, rfl⟩ := List.exists_cons_of_ne_nil hzs
  have hz : z = 'e' := (List.cons.inj heq).1.symm
  exact h (by simp [hz])

/-- A text that does not contain the word can only hold its first letters, and only where the
text behind goes on with the next one. -/
theorem unmarked_of_markless (h : ¬ "export".toList <:+: xs)
    (hrest : rest.head?.any isInner = false) : Unmarked xs rest := by
  rintro ys zs rfl hzs hmark
  obtain ⟨z, zs, rfl⟩ := List.exists_cons_of_ne_nil hzs
  obtain ⟨rfl, hinner⟩ := List.cons_prefix_cons.mp hmark
  have hword : "xport".toList <+: zs := by
    refine prefix_of_prefix_append hinner ?_
    intro c hc hhead
    rw [hhead] at hrest
    have hc : isInner c = true := decide_eq_true hc
    rw [Option.any_some, hc] at hrest
    cases hrest
  exact h (List.IsInfix.trans (List.cons_prefix_cons.mpr ⟨rfl, hword⟩).isInfix
    (List.suffix_append ys _).isInfix)

theorem unmarked_spaces (sp : Spaces) (rest : List Char) : Unmarked sp.text rest := by
  refine unmarked_of_notMem ?_ rest
  intro he
  cases sp.all 'e' he

theorem head?_isInner_of_spaces (sp : Spaces) (h : rest.head?.any isInner = false) :
    (sp.text ++ rest).head?.any isInner = false :=
  head?_append_any (fun c hc => isInner_of_isSpace (sp.all c hc)) h

theorem unmarked_nil (rest : List Char) : Unmarked [] rest :=
  unmarked_of_notMem List.not_mem_nil rest

theorem unmarked_cons (hc : c ≠ 'e') (h : Unmarked xs rest) : Unmarked (c :: xs) rest := by
  have hone : Unmarked [c] (xs ++ rest) := unmarked_of_notMem (by simpa using hc.symm) _
  exact unmarked_append hone h

theorem markless_of_notMem (h : 'x' ∉ xs) : ¬ "export".toList <:+: xs :=
  fun hmark => h (hmark.subset (by decide))

/-- A word and the space behind it. -/
theorem unmarked_append_gap (h : ¬ "export".toList <:+: xs) (gap : Gap) (rest : List Char) :
    Unmarked (xs ++ gap.text) rest :=
  unmarked_append (unmarked_of_markless h (gap.head?_any (fun _ => isInner_of_isSpace) rest))
    (unmarked_spaces gap.toRun rest)

theorem unmarked_entry (e : Entry) (h : rest.head?.any isInner = false) :
    Unmarked e.text rest := by
  have hafter := head?_isInner_of_spaces e.after h
  refine unmarked_append (unmarked_spaces _ _) (unmarked_append ?_ (unmarked_spaces _ _))
  cases e.body with
  | empty => exact unmarked_nil _
  | plain n => exact unmarked_of_markless n.unmarked hafter
  | renamed n beforeAs afterAs exported =>
    have htext : (EntryBody.renamed n beforeAs afterAs exported).text =
        (n.text ++ beforeAs.text) ++ (("as".toList ++ afterAs.text) ++ exported.text) := by
      simp only [EntryBody.text, List.append_assoc]
    rw [htext]
    exact unmarked_append (unmarked_append_gap n.unmarked beforeAs _)
      (unmarked_append (unmarked_append_gap (markless_of_notMem (by decide)) afterAs _)
        (unmarked_of_markless exported.unmarked hafter))

theorem unmarked_entriesText (entries : List Entry) (h : rest.head?.any isInner = false) :
    Unmarked (entriesText entries) rest := by
  induction entries with
  | nil => exact unmarked_nil rest
  | cons e entries ih =>
    cases entries with
    | nil =>
      rw [entriesText, List.map_singleton, List.intercalate_singleton]
      exact unmarked_entry e h
    | cons e' entries =>
      rw [entriesText, List.map_cons, List.map_cons, List.intercalate_cons_cons]
      exact unmarked_append (unmarked_append (unmarked_entry e rfl)
        (unmarked_of_notMem (by decide) _)) ih

theorem unmarked_asyncText (async : Option Gap) (rest : List Char) :
    Unmarked (asyncText async) rest := by
  cases async with
  | none => exact unmarked_nil rest
  | some gap => exact unmarked_append_gap (markless_of_notMem (by decide)) gap rest

theorem unmarked_introduction (i : Introduction) (rest : List Char) : Unmarked i.text rest := by
  cases i with
  | keyword k gap => exact unmarked_append_gap (markless_of_notMem (by cases k <;> decide)) gap rest
  | constEnum between gap =>
    rw [Introduction.text_constEnum, List.append_assoc]
    exact unmarked_append (unmarked_append_gap (markless_of_notMem (by decide)) between _)
      (unmarked_append_gap (markless_of_notMem (by decide)) gap rest)
  | function async gap =>
    exact unmarked_append (unmarked_asyncText async _)
      (unmarked_append_gap (markless_of_notMem (by decide)) gap rest)
  | generator async before after =>
    refine unmarked_append (unmarked_asyncText async _) (unmarked_append ?_ ?_)
    · refine unmarked_of_markless (markless_of_notMem (by decide)) ?_
      rw [List.append_assoc]
      exact head?_isInner_of_spaces before rfl
    · exact unmarked_append (unmarked_spaces before _)
        (unmarked_cons (by decide) (unmarked_spaces after _))

theorem unmarked_body (s : Statement) (h : s.EndsBefore rest) : Unmarked s.body rest := by
  cases s with
  | list gap first others =>
    refine unmarked_append (unmarked_spaces gap _) ?_
    exact unmarked_cons (by decide)
      (unmarked_append (unmarked_entriesText _ rfl) (unmarked_of_notMem (by decide) _))
  | declaration d =>
    have hrest := head?_any_mono (fun c => isNameChar_of_isInner) h
    exact unmarked_append (unmarked_spaces d.gap.toRun _) (unmarked_append
      (unmarked_introduction d.introduction _) (unmarked_of_markless d.name.unmarked hrest))
  | default gap after =>
    exact unmarked_append (unmarked_spaces gap.toRun _)
      (unmarked_append_gap (markless_of_notMem (by decide)) after rest)

end DefaultImports.Surface
