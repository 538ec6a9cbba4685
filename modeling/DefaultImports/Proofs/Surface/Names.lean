import DefaultImports.Proofs.Surface.Statement
import DefaultImports.Proofs.Surface.Unmarked

/-! The names that a module text exports. Main statement: `namesIn_moduleText`, the names of all
brace lists and then those of all declarations, each name once. -/
namespace DefaultImports.Surface

open Text Pattern

variable {p : Pattern Unit} {passed xs rest : List Char}

/-- The pattern matches only at the word `export`. -/
def Marked (p : Pattern Unit) : Prop := ∀ text, ¬ "export".toList <+: text → Refuses p text

theorem marked_export (p : Pattern Unit) : Marked (word "export" ++ p) :=
  fun _ h => refuses_append_left (refuses_word h)

theorem marked_braceList : Marked braceList := by
  simp only [Marked, braceList, refuses_append_assoc]
  exact marked_export _

theorem marked_declaration : Marked declaration := by
  simp only [Marked, declaration, refuses_append_assoc]
  exact marked_export _

theorem misses_of_unmarked (hp : Marked p) (h : Unmarked xs rest) (passed : List Char) :
    Misses p passed xs rest :=
  fun ys zs hsplit hzs => at?_of_refuses (hp _ (h ys zs hsplit hzs)) _

theorem misses_filler (hp : Marked p) (f : Filler) (pieces : List (Statement × Filler))
    (passed : List Char) : Misses p passed f.text (piecesText pieces) := by
  refine misses_of_unmarked hp (unmarked_of_markless f.unmarked ?_) passed
  cases pieces <;> rfl

theorem captured_of_yields {text found : List Char} (h : Yields p passed text rest found)
    (hne : text ≠ []) :
    captured (p.findAllFrom 0 passed (text ++ rest)) =
      String.ofList found :: captured (p.findAllFrom 0 (text.reverse ++ passed) rest) := by
  obtain ⟨m, hm, hsize, hfound⟩ := h
  rw [findAllFrom_of_at? hm hsize hne, captured, List.filterMap_cons, hfound]
  rfl

theorem findAllFrom_of_refuses (hp : Marked p) (s : Statement) (hends : s.EndsBefore rest)
    (h : Refuses p (s.text ++ rest)) :
    p.findAllFrom 0 passed (s.text ++ rest) = p.findAllFrom 0 (s.text.reverse ++ passed) rest := by
  have hinner : Unmarked ("xport".toList ++ s.body) rest :=
    unmarked_append (unmarked_of_notMem (by decide) _) (unmarked_body s hends)
  refine findAllFrom_of_misses (Misses.cons (at?_of_refuses h passed) ?_)
  exact misses_of_unmarked hp hinner _

theorem Statement.text_ne_nil (s : Statement) : s.text ≠ [] := by
  simp [Statement.text_eq]

theorem closing_notMem_entriesText (entries : List Entry) : '}' ∉ entriesText entries := by
  induction entries with
  | nil => exact List.not_mem_nil
  | cons e entries ih =>
    have he : '}' ∉ e.text := e.notMem rfl rfl
    cases entries with
    | nil => simpa [entriesText, List.intercalate_singleton] using he
    | cons e' entries =>
      rw [entriesText, List.map_cons, List.map_cons, List.intercalate_cons_cons]
      simpa [he, entriesText] using ih

/-- The names of all brace lists among the matches. -/
def listedIn (found : List (Found Unit)) : List String :=
  (captured found).flatMap fun list => entryNames list.toList

/-- One statement gives the names of its brace list, and the search goes on behind it. -/
theorem listedIn_statement (s : Statement) (hends : s.EndsBefore rest) :
    listedIn (braceList.findAllFrom 0 passed (s.text ++ rest)) =
      s.listed ++ listedIn (braceList.findAllFrom 0 (s.text.reverse ++ passed) rest) := by
  cases s with
  | list gap first others =>
    have hnames : entryNames (entriesText (first :: others)) =
        (Statement.list gap first others).listed := entryNames_entriesText first others
    by_cases hinner : entriesText (first :: others) = []
    · have hrefuses : Refuses braceList ((Statement.list gap first others).text ++ rest) := by
        simp only [Statement.text_eq, Statement.body, hinner, List.append_assoc]
        exact refuses_braceList_empty gap rest
      rw [findAllFrom_of_refuses marked_braceList _ hends hrefuses, ← hnames, hinner]
      rfl
    · have hopen : ∀ c ∈ entriesText (first :: others), notClosing c = true := by
        intro c hc
        refine bne_iff_ne.mpr ?_
        rintro rfl
        exact closing_notMem_entriesText _ hc
      obtain ⟨before, list, hlist, hbefore, hyields⟩ :=
        yields_braceList gap hinner hopen passed rest
      rw [hlist, entryNames_append hbefore] at hnames
      have hyields : Yields braceList passed (Statement.list gap first others).text rest list :=
        hyields
      rw [listedIn, captured_of_yields hyields (Statement.text_ne_nil _), List.flatMap_cons,
        String.toList_ofList, hnames]
      rfl
  | declaration d =>
    have hrefuses : Refuses braceList ((Statement.declaration d).text ++ rest) := by
      simp only [Statement.text_eq, Statement.body, List.append_assoc]
      exact refuses_braceList d.gap.all (d.introduction.head?_any rfl _)
        (d.introduction.head?_any rfl _)
    rw [findAllFrom_of_refuses marked_braceList _ hends hrefuses]
    rfl
  | default gap after =>
    have hrefuses : Refuses braceList ((Statement.default gap after).text ++ rest) := by
      simp only [Statement.text_eq, Statement.body, List.append_assoc]
      exact refuses_braceList gap.all rfl rfl
    rw [findAllFrom_of_refuses marked_braceList _ hends hrefuses]
    rfl

/-- One statement gives the name of its declaration, and the search goes on behind it. -/
theorem captured_statement (s : Statement) (hends : s.EndsBefore rest) :
    captured (declaration.findAllFrom 0 passed (s.text ++ rest)) =
      s.declared ++ captured (declaration.findAllFrom 0 (s.text.reverse ++ passed) rest) := by
  cases s with
  | list gap first others =>
    have hrefuses : Refuses declaration ((Statement.list gap first others).text ++ rest) := by
      simp only [Statement.text_eq, Statement.body, List.append_assoc]
      exact refuses_declaration gap.all rfl rfl
    rw [findAllFrom_of_refuses marked_declaration _ hends hrefuses]
    rfl
  | declaration d =>
    exact captured_of_yields (yields_declaration d hends passed) (Statement.text_ne_nil _)
  | default gap after =>
    have hrefuses : Refuses declaration ((Statement.default gap after).text ++ rest) := by
      simp only [Statement.text_eq, Statement.body, List.append_assoc]
      exact refuses_declaration gap.all rfl rfl
    rw [findAllFrom_of_refuses marked_declaration _ hends hrefuses]
    rfl

/-- A search that takes its names from one statement at a time takes them from all of them. -/
theorem findAll_moduleText (names : List (Found Unit) → List String)
    (given : Statement → List String) (hp : Marked p) (hnil : names [] = [])
    (hstep : ∀ s rest passed, s.EndsBefore rest →
      names (p.findAllFrom 0 passed (s.text ++ rest)) =
        given s ++ names (p.findAllFrom 0 (s.text.reverse ++ passed) rest)) (m : ModuleText) :
    names (p.findAll m.text) = m.pieces.flatMap fun piece => given piece.1 := by
  have hpieces (pieces : List (Statement × Filler)) (h : Delimited pieces) (passed : List Char) :
      names (p.findAllFrom 0 passed (piecesText pieces)) =
        pieces.flatMap fun piece => given piece.1 := by
    induction pieces generalizing passed with
    | nil => exact hnil
    | cons piece pieces ih =>
      rw [piecesText_cons, hstep _ _ _ h.1, findAllFrom_of_misses (misses_filler hp _ _ _)]
      exact congrArg (given piece.1 ++ ·) (ih h.2 _)
  rw [findAll, ModuleText.text, findAllFrom_of_misses (misses_filler hp _ _ _)]
  exact hpieces m.pieces m.delimited _

/-- The names in a module text are those of its brace lists, in order, and then those of its
declarations, in order, without the later ones of equal names. -/
theorem namesIn_moduleText (m : ModuleText) :
    namesIn m.text = (m.listed ++ m.declared).eraseDups := by
  have hlisted : listedNames m.text = m.listed :=
    findAll_moduleText listedIn Statement.listed marked_braceList rfl
      (fun s rest passed => listedIn_statement s) m
  have hdeclared : declaredNames m.text = m.declared :=
    findAll_moduleText captured Statement.declared marked_declaration rfl
      (fun s rest passed => captured_statement s) m
  rw [namesIn, hlisted, hdeclared]

example :
    namesIn "export \x7b a as b, , c \x7d; export async function* a() export const enum D".toList =
      ["a", "c", "D"] := by decide +kernel

end DefaultImports.Surface
