import DefaultImports.Proofs.Pattern.Captures
import DefaultImports.Proofs.Pattern.Occurrence
import DefaultImports.Proofs.Text.Split
import DefaultImports.Proofs.Text.Trim
import DefaultImports.Surface
import Mathlib.Data.List.Induction

/-! What the names that a text exports look like, whether the text is a module or not. Main
statement: `namesIn_shape`, they are distinct, each stands in the text without a comma, a closing
brace, space at its ends or an alias, and those of brace lists come first. -/
namespace DefaultImports

namespace Pattern

open Text

variable {ι : Type} {a : Pattern ι} {q : Char → Bool} {s t : Progress ι} {m : Found ι}
  {text : List Char}

/-- Everything that is captured is a run of the class `q`. -/
abbrev CapturesRuns (q : Char → Bool) : Pattern ι → Prop :=
  EveryPart fun
    | capture _ a => ∀ text rest, Leaves a text rest → ∃ run : Run1 q, text = run.text ++ rest
    | _ => True

/-- The capture holds a run of the class `q` that stands in the text. -/
def HoldsRun (q : Char → Bool) (text : List Char) (c : Capture ι) : Prop :=
  ∃ run : Run1 q, c.text = String.ofList run.text ∧ run.text <:+: text

theorem holdsRun_of_mem_ends (ha : CapturesRuns q a) (ht : t ∈ a.ends s) :
    ∀ c ∈ t.captures, c ∈ s.captures ∨ HoldsRun q s.cursor.text c := by
  intro c hc
  refine (made_of_mem_ends ha ht c hc).imp_right ?_
  rintro @⟨label, b, u, v, hruns, hends, htext, -, -⟩
  obtain ⟨run, hrun⟩ := hruns _ _ (leaves_of_mem_ends hends)
  have hsize := (size_of_mem_ends hends).2
  rw [hrun, List.length_append] at hsize
  have hlength : v.size - u.size = run.text.length := by omega
  refine ⟨run, ?_, u.cursor.passed.reverse, v.cursor.rest, ?_⟩
  · rw [Capture.text, hrun, hlength, List.take_left]
  · rw [← htext, Cursor.text, hrun, List.append_assoc]

theorem holdsRun_of_mem_findAll (ha : CapturesRuns q a) (hm : m ∈ a.findAll text) :
    ∀ c ∈ m.captures, HoldsRun q text c := by
  obtain ⟨start, htext, hat⟩ := mem_findAllFrom hm
  rw [at?_eq_head?] at hat
  obtain ⟨t, ht, rfl⟩ := Option.map_eq_some_iff.mp hat
  intro c hc
  rcases holdsRun_of_mem_ends ha (List.mem_of_mem_head? ht) c hc with hc | hc
  · cases hc
  · rwa [htext] at hc

end Pattern

namespace Surface

open Text Pattern

variable {source xs ys list passed rest : List Char} {name : String}

/-! ## The name of an entry -/

/-- The word `as` stands in the text with space on both sides. -/
def HoldsAlias (text : List Char) : Prop :=
  ∃ before after, isSpace before = true ∧ isSpace after = true ∧
    [before, 'a', 's', after] <:+: text

theorem HoldsAlias.mono (h : xs <:+: ys) : HoldsAlias xs → HoldsAlias ys := by
  rintro ⟨before, after, hbefore, hafter, hmark⟩
  exact ⟨before, after, hbefore, hafter, hmark.trans h⟩

theorem edgeless_aliasMark : Edgeless aliasMark := by
  simp [aliasMark]

theorem leaves_aliasMark {before after : Char} (hbefore : isSpace before = true)
    (hafter : isSpace after = true) (rest : List Char) :
    Leaves aliasMark (before :: ("as".toList ++ after :: rest)) rest := by
  let one (c : Char) (hc : isSpace c = true) : Gap := ⟨⟨[c], by simpa using hc⟩, by simp⟩
  simp only [aliasMark, leaves_append, someSpace, leaves_run1, leaves_word]
  exact ⟨_, ⟨_, ⟨one before hbefore, rfl⟩, rfl⟩, one after hafter, rfl⟩

theorem not_holdsAlias_of_misses (h : Misses aliasMark passed xs rest) : ¬ HoldsAlias xs := by
  rintro ⟨before, after, hbefore, hafter, front, behind, rfl⟩
  have hsome := (isSome_at?_iff edgeless_aliasMark (front.reverse ++ passed) _).mpr
    ⟨behind ++ rest, leaves_aliasMark hbefore hafter _⟩
  have hnone := h front ([before, 'a', 's', after] ++ behind) (by simp) (by simp)
  rw [List.append_assoc] at hnone
  exact absurd hsome (by simpa using hnone)

/-- The name is a part of the entry in front of every alias, without the space at its ends. -/
theorem entryName_eq_trim (entry : List Char) :
    ∃ front, front <+: trim entry ∧ ¬ HoldsAlias front ∧ entryName entry = trim front := by
  unfold entryName
  dsimp only
  split
  · rename_i hnone
    exact ⟨trim entry, List.prefix_rfl,
      not_holdsAlias_of_misses (misses_of_findFrom?_eq_none hnone), rfl⟩
  · rename_i m hsome
    obtain ⟨front, rest, hsplit, hat, hmiss⟩ := misses_of_findFrom?_eq_some hsome
    refine ⟨front, ⟨rest, hsplit.symm⟩, not_holdsAlias_of_misses hmiss, ?_⟩
    rw [start_of_at? hat, List.append_nil, List.reverse_reverse]

theorem isInfix_entryName (entry : List Char) : entryName entry <:+: entry := by
  obtain ⟨front, hfront, -, hname⟩ := entryName_eq_trim entry
  rw [hname]
  exact (isInfix_trim front).trans (hfront.isInfix.trans (isInfix_trim entry))

theorem not_holdsAlias_entryName (entry : List Char) : ¬ HoldsAlias (entryName entry) := by
  obtain ⟨front, -, hfront, hname⟩ := entryName_eq_trim entry
  rw [hname]
  exact fun h => hfront (h.mono (isInfix_trim front))

theorem mem_entryNames : name ∈ entryNames list ↔ ∃ entry ∈ split (· == ',') list,
    entryName entry ≠ [] ∧ String.ofList (entryName entry) = name := by
  simp [entryNames, and_assoc]

/-! ## What is captured -/

theorem capturesRuns_braceList : CapturesRuns notClosing braceList := by
  simp [braceList, leaves_run1]

theorem capturesRuns_declarator (q : Char → Bool) : CapturesRuns q declarator := by
  simp [declarator]

theorem capturesRuns_declaration : CapturesRuns isNameChar declaration := by
  simp [declaration, capturesRuns_declarator, leaves_run1]

theorem exists_run_of_mem_captured {q : Char → Bool} {p : Pattern Unit} (hp : CapturesRuns q p)
    (h : name ∈ captured (p.findAll source)) :
    ∃ run : Run1 q, name = String.ofList run.text ∧ run.text <:+: source := by
  obtain ⟨m, hm, htext⟩ := List.mem_filterMap.mp h
  obtain ⟨c, hc, rfl⟩ := Option.map_eq_some_iff.mp htext
  exact holdsRun_of_mem_findAll hp hm c (List.mem_of_find?_eq_some hc)

theorem exists_run_of_mem_declaredNames (h : name ∈ declaredNames source) :
    ∃ run : Run1 isNameChar, name = String.ofList run.text ∧ run.text <:+: source :=
  exists_run_of_mem_captured capturesRuns_declaration h

/-! ## All names of a text -/

/-- What a name is in any text: some characters of it in a row, without a comma or a closing brace,
without space at its ends, and without the word `as` between spaces. -/
structure IsNameIn (source name : List Char) : Prop where
  ne_nil : name ≠ []
  stands : name <:+: source
  comma : ',' ∉ name
  closing : '}' ∉ name
  first : name.head?.any isSpace = false
  last : name.getLast?.any isSpace = false
  unaliased : ¬ HoldsAlias name

theorem isNameIn_of_mem_listedNames (h : name ∈ listedNames source) :
    IsNameIn source name.toList := by
  obtain ⟨list, hlist, hname⟩ := List.mem_flatMap.mp h
  obtain ⟨run, rfl, hrun⟩ := exists_run_of_mem_captured capturesRuns_braceList hlist
  rw [String.toList_ofList] at hname
  obtain ⟨entry, hentry, hne, rfl⟩ := mem_entryNames.mp hname
  rw [String.toList_ofList]
  obtain ⟨front, -, -, htrim⟩ := entryName_eq_trim entry
  obtain ⟨hfirst, hlast, -⟩ := stripped_trim front
  have hlist : entryName entry <:+: run.text :=
    (isInfix_entryName entry).trans (isInfix_of_mem_split hentry)
  constructor
  case ne_nil => exact hne
  case stands => exact hlist.trans hrun
  case comma =>
    intro hcomma
    cases of_mem_split hentry ((isInfix_entryName entry).subset hcomma)
  case closing =>
    intro hclosing
    cases run.all '}' (hlist.subset hclosing)
  case first => rwa [htrim]
  case last => rwa [htrim, ← List.head?_reverse]
  case unaliased => exact not_holdsAlias_entryName entry

theorem isNameIn_of_mem_declaredNames (h : name ∈ declaredNames source) :
    IsNameIn source name.toList := by
  obtain ⟨run, rfl, hrun⟩ := exists_run_of_mem_declaredNames h
  rw [String.toList_ofList]
  have hspace : ∀ c ∈ run.text, isSpace c = false := fun c hc =>
    isSpace_of_isNameChar (run.all c hc)
  constructor
  case ne_nil => exact run.ne_nil
  case stands => exact hrun
  case comma =>
    intro hcomma
    cases run.all ',' hcomma
  case closing =>
    intro hclosing
    cases run.all '}' hclosing
  case first => exact (Option.any_eq_false _ _).mpr fun c hc => hspace c (List.mem_of_head? hc)
  case last => exact (Option.any_eq_false _ _).mpr fun c hc => hspace c (List.mem_of_getLast? hc)
  case unaliased =>
    rintro ⟨before, after, hbefore, -, hmark⟩
    have hnone := hspace before (hmark.subset List.mem_cons_self)
    rw [hbefore] at hnone
    cases hnone

theorem mem_namesIn : name ∈ namesIn source ↔
    name ∈ listedNames source ∨ name ∈ declaredNames source := by
  rw [namesIn, List.mem_eraseDups, List.mem_append]

/-- A name that was seen before changes nothing, and any other goes behind. -/
theorem eraseDups_concat (seen : List String) (name : String) : (seen ++ [name]).eraseDups =
    if name ∈ seen then seen.eraseDups else seen.eraseDups ++ [name] := by
  rw [List.eraseDups_append]
  split
  · rename_i hname
    have hdropped : [name].removeAll seen = [] := by simp [List.removeAll, hname]
    rw [hdropped, List.eraseDups_nil, List.append_nil]
  · rename_i hname
    have hkept : [name].removeAll seen = [name] := by simp [List.removeAll, hname]
    rw [hkept]
    rfl

theorem nodup_eraseDups (names : List String) : names.eraseDups.Nodup := by
  induction names using List.reverseRecOn with
  | nil => exact List.nodup_nil
  | append_singleton seen name ih =>
    rw [eraseDups_concat]
    split
    · exact ih
    · rename_i hname
      refine List.nodup_append.mpr ⟨ih, by simp, ?_⟩
      rintro other hother _ hmem rfl
      exact hname (List.mem_singleton.mp hmem ▸ List.mem_eraseDups.mp hother)

/-- In any text, the names are distinct and each has the shape of a name. Those that a brace list
gives come first, and behind them those that only a declaration gives. -/
theorem namesIn_shape (source : List Char) :
    (namesIn source).Nodup ∧ (∀ name ∈ namesIn source, IsNameIn source name.toList) ∧
      ∃ listed others, namesIn source = listed ++ others ∧
        (∀ name, name ∈ listed ↔ name ∈ listedNames source) ∧
        ∀ name, name ∈ others ↔ name ∈ declaredNames source ∧ name ∉ listedNames source := by
  refine ⟨nodup_eraseDups _, ?_, _, _, List.eraseDups_append, ?_, ?_⟩
  · intro name hname
    rcases mem_namesIn.mp hname with h | h
    · exact isNameIn_of_mem_listedNames h
    · exact isNameIn_of_mem_declaredNames h
  · intro name
    exact List.mem_eraseDups
  · intro name
    simp [List.mem_eraseDups, List.removeAll]

/-- A comment and a blank entry in a list, an alias between wide spaces, a name that is declared and
listed, and a list that nothing closes. -/
def sampleUnclosed : List Char :=
  "export let a; export\x7b // b,\u00a0\n,a\u3000as\u2003d\x7d export\x7b let export var c".toList

theorem namesIn_sampleUnclosed :
    namesIn sampleUnclosed = ["// b", "a", "c"] ∧ IsNameIn sampleUnclosed "// b".toList := by
  have hnames : namesIn sampleUnclosed = ["// b", "a", "c"] := by decide +kernel
  obtain ⟨-, hshape, -⟩ := namesIn_shape sampleUnclosed
  exact ⟨hnames, hshape "// b" (by rw [hnames]; decide)⟩

end Surface

end DefaultImports
