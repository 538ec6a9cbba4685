import DefaultImports.Proofs.Binding.Site
import DefaultImports.Proofs.Pattern.Shape
import DefaultImports.Proofs.Text.Case
import DefaultImports.Proofs.Text.Trim
import Mathlib.Data.Bool.AllAny

/-! Comments that switch checks off. Main statement: `ofSource_exact`, a file is disabled and a line
is ignored exactly by the comments of one shape, in letters of any case. -/
namespace DefaultImports.Suppression

open Text Pattern

/-! ## The shape of a comment -/

/-- The character `d` is the small letter `c` in some case. Of the letters in the words of a comment
two have forms outside ASCII: the dotted and the dotless i, and the long s. -/
def SameLetter (c d : Char) : Prop :=
  d.toLower = c ∨ c = 'i' ∧ (d = '\u0130' ∨ d = '\u0131') ∨ c = 's' ∧ d = '\u017F'

instance (c d : Char) : Decidable (SameLetter c d) := inferInstanceAs (Decidable (_ ∨ _))

/-- A text is the word in letters of any case. -/
def SameWord (word : String) (text : List Char) : Prop :=
  List.Forall₂ SameLetter word.toList text

/-- The two ways to start a comment. -/
inductive Opener where
  | line
  | block

def Opener.text : Opener → List Char
  | line => "//".toList
  | block => "/*".toList

/-- A comment from its start to the end of its action. -/
structure Comment (action : String) where
  opener : Opener
  beforeName : Spaces
  name : List Char
  beforeColon : Spaces
  afterColon : Spaces
  word : List Char
  isName : SameWord "missingdefault" name ∨ SameWord "md" name
  isAction : SameWord action word

def Comment.text {action : String} (c : Comment action) : List Char :=
  c.opener.text ++ (c.beforeName.text ++ (c.name ++ (c.beforeColon.text ++
    ':' :: (c.afterColon.text ++ c.word))))

/-- The line has a comment with the action, and the word for the action ends there. -/
def Carries (action : String) (line : List Char) : Prop :=
  ∃ (before : List Char) (c : Comment action) (after : List Char),
    line = before ++ (c.text ++ after) ∧ after.head?.any isWord = false

variable {action : String} {c d : Char} {line text rest : List Char}

/-- Letters that have no other forms outside ASCII than those of i and s. -/
def wordLetters : List Char := "abdefgilmnorstu".toList

/-- A word that comments are told by. -/
structure IsKeyword (word : String) : Prop where
  letters : ∀ c ∈ word.toList, c ∈ wordLetters
  ne_nil : word.toList ≠ []

theorem isCaseOf_iff (hc : c ∈ wordLetters) : isCaseOf c d = true ↔ SameLetter c d := by
  have hcapital : ∀ c ∈ wordLetters, ∀ n < 91, 65 ≤ n →
      (isCaseOf c (Char.ofNat n) = true ↔ SameLetter c (Char.ofNat n)) :=
    List.all_iff_forall_prop.mp (by decide +kernel)
  have hupper : ∀ c ∈ wordLetters, (65 ≤ c.toUpper.toNat ∧ c.toUpper.toNat ≤ 90) ∧ c ≠ 'k' :=
    List.all_iff_forall_prop.mp (by decide +kernel)
  by_cases hd : 65 ≤ d.toNat ∧ d.toNat ≤ 90
  · exact capital_forall (P := fun d => isCaseOf c d = true ↔ SameLetter c d) (hcapital c hc) hd
  · have hne : d ≠ c.toUpper := by
      rintro rfl
      exact hd (hupper c hc).1
    have hdotted : Char.ofNat 0x130 = '\u0130' := rfl
    have hdotless : Char.ofNat 0x131 = '\u0131' := rfl
    have hlong : Char.ofNat 0x17F = '\u017F' := rfl
    simp only [isCaseOf, hdotted, hdotless, hlong, SameLetter, toLower_of_not_capital hd,
      Bool.or_eq_true, Bool.and_eq_true, beq_iff_eq, hne, (hupper c hc).2, false_and, or_false,
      or_assoc]

theorem isCaseOf_toLower (hc : c ∈ wordLetters) (d : Char) :
    isCaseOf c d.toLower = isCaseOf c d := by
  have hdotted : d.toLower = '\u0130' ↔ d = '\u0130' := toLower_eq_iff (by decide)
  have hdotless : d.toLower = '\u0131' ↔ d = '\u0131' := toLower_eq_iff (by decide)
  have hlong : d.toLower = '\u017F' ↔ d = '\u017F' := toLower_eq_iff (by decide)
  rw [Bool.eq_iff_iff, isCaseOf_iff hc, isCaseOf_iff hc, SameLetter, SameLetter, toLower_toLower,
    hdotted, hdotless, hlong]

theorem isWord_of_sameLetter (hc : c ∈ wordLetters) (h : SameLetter c d) : isWord d = true := by
  have hletters : ∀ c ∈ wordLetters, isWord c = true := List.all_eq_true.mp (by decide +kernel)
  rcases h with rfl | ⟨-, rfl | rfl⟩ | ⟨-, rfl⟩
  · rw [← isWord_toLower]
    exact hletters _ hc
  · decide +kernel
  · decide +kernel
  · decide +kernel

theorem isWord_of_forall₂ {cs : List Char} (hcs : ∀ c ∈ cs, c ∈ wordLetters)
    (h : List.Forall₂ SameLetter cs text) : ∀ d ∈ text, isWord d = true := by
  induction h with
  | nil => exact List.forall_mem_nil _
  | cons hfirst _ ih =>
    have hd := isWord_of_sameLetter (hcs _ List.mem_cons_self) hfirst
    exact List.forall_mem_cons.mpr ⟨hd, ih fun c hc => hcs c (List.mem_cons_of_mem _ hc)⟩

theorem isWord_of_sameWord {word : String} (hword : IsKeyword word) (h : SameWord word text) :
    text ≠ [] ∧ ∀ d ∈ text, isWord d = true := by
  refine ⟨?_, isWord_of_forall₂ hword.letters h⟩
  rintro rfl
  exact hword.ne_nil (List.forall₂_nil_right_iff.mp h)

/-! ## Where the pattern for comments occurs -/

/-- The pattern for comments up to the end of the action. -/
def commentPart (action : String) : Pattern Empty :=
  (word "//" <|> word "/*") ++ spaces ++ (anyCase "missingdefault" <|> anyCase "md") ++ spaces ++
    char ':' ++ spaces ++ anyCase action

theorem comment_eq (action : String) :
    comment action = commentPart action ++ edge Cursor.atWordEdge := rfl

theorem edgeless_commentPart (action : String) : Edgeless (commentPart action) := by
  simp [commentPart]

theorem leaves_anyCase {w : String} (hw : IsKeyword w) :
    Leaves (anyCase w : Pattern Empty) text rest ↔
      ∃ xs, text = xs ++ rest ∧ SameWord w xs := by
  have hletters : ∀ cs : List Char, (∀ c ∈ cs, c ∈ wordLetters) → ∀ xs,
      List.Forall₂ (fun c d => isCaseOf c d = true) cs xs ↔ List.Forall₂ SameLetter cs xs := by
    intro cs hcs xs
    induction cs generalizing xs with
    | nil => simp
    | cons c cs ih =>
      cases xs with
      | nil => simp
      | cons x xs =>
        rw [List.forall₂_cons, List.forall₂_cons, isCaseOf_iff (hcs c List.mem_cons_self),
          ih fun e he => hcs e (List.mem_cons_of_mem c he)]
  simp only [anyCase, leaves_each_iff, hletters _ hw.letters, SameWord]

theorem leaves_opener : Leaves (word "//" <|> word "/*" : Pattern Empty) text rest ↔
    ∃ o : Opener, text = o.text ++ rest := by
  have hcases : Leaves (word "//" <|> word "/*" : Pattern Empty) text rest ↔
      text = "//".toList ++ rest ∨ text = "/*".toList ++ rest := or_congr leaves_word leaves_word
  rw [hcases]
  constructor
  · rintro (h | h)
    · exact ⟨.line, h⟩
    · exact ⟨.block, h⟩
  · rintro ⟨_ | _, h⟩
    · exact .inl h
    · exact .inr h

theorem isKeyword_missingdefault : IsKeyword "missingdefault" :=
  ⟨List.all_iff_forall_prop.mp (by decide), by decide⟩

theorem isKeyword_md : IsKeyword "md" := ⟨List.all_iff_forall_prop.mp (by decide), by decide⟩

theorem leaves_name :
    Leaves (anyCase "missingdefault" <|> anyCase "md" : Pattern Empty) text rest ↔
      ∃ name, text = name ++ rest ∧ (SameWord "missingdefault" name ∨ SameWord "md" name) := by
  refine (or_congr (leaves_anyCase isKeyword_missingdefault)
    (leaves_anyCase isKeyword_md)).trans ?_
  simp only [← exists_or, ← and_or_left]

theorem Comment.text_append (c : Comment action) (rest : List Char) :
    c.text ++ rest = c.opener.text ++ (c.beforeName.text ++ (c.name ++ (c.beforeColon.text ++
      ':' :: (c.afterColon.text ++ (c.word ++ rest))))) := by
  delta text
  simp only [List.append_assoc, List.cons_append]

theorem leaves_commentPart (haction : IsKeyword action) :
    Leaves (commentPart action) text rest ↔ ∃ c : Comment action, text = c.text ++ rest := by
  simp only [commentPart, leaves_append_assoc]
  simp only [leaves_append, leaves_opener, leaves_name, spaces, leaves_many, leaves_char,
    leaves_anyCase haction]
  constructor
  · rintro ⟨_, ⟨opener, rfl⟩, _, ⟨beforeName, rfl⟩, _, ⟨name, rfl, hname⟩, _, ⟨beforeColon, rfl⟩,
      _, rfl, _, ⟨afterColon, rfl⟩, word, rfl, hword⟩
    refine ⟨⟨opener, beforeName, name, beforeColon, afterColon, word, hname, hword⟩, ?_⟩
    rw [Comment.text_append]
  · rintro ⟨c, rfl⟩
    rw [Comment.text_append]
    exact ⟨_, ⟨c.opener, rfl⟩, _, ⟨c.beforeName, rfl⟩, _, ⟨c.name, rfl, c.isName⟩,
      _, ⟨c.beforeColon, rfl⟩, _, rfl, _, ⟨c.afterColon, rfl⟩, c.word, rfl, c.isAction⟩

theorem carries_iff_leaves (haction : IsKeyword action) : Carries action line ↔
    ∃ before text rest, line = before ++ text ∧ Leaves (commentPart action) text rest ∧
      rest.head?.any isWord = false := by
  simp only [leaves_commentPart haction]
  constructor
  · rintro ⟨before, c, after, rfl, hafter⟩
    exact ⟨before, _, after, rfl, ⟨c, rfl⟩, hafter⟩
  · rintro ⟨before, _, after, rfl, ⟨c, rfl⟩, hafter⟩
    exact ⟨before, c, after, rfl, hafter⟩

/-- The action is a word, so that behind it a word ends where no word character follows. -/
theorem Comment.atWordEdge_iff (haction : IsKeyword action) (c : Comment action)
    (before rest : List Char) :
    Cursor.atWordEdge ⟨c.text.reverse ++ before, rest⟩ = true ↔
      rest.head?.any isWord = false := by
  obtain ⟨hne, hall⟩ := isWord_of_sameWord haction c.isAction
  obtain ⟨d, others, hreverse⟩ := List.exists_cons_of_ne_nil (List.reverse_ne_nil_iff.mpr hne)
  have hd : isWord d = true := hall d (List.mem_reverse.mp (hreverse ▸ List.mem_cons_self))
  have hlast : (c.text.reverse ++ before).head?.any isWord = true := by
    simp [Comment.text, hreverse, hd]
  rw [Cursor.atWordEdge, hlast]
  simp

theorem occursIn_comment_iff (haction : IsKeyword action) (line : List Char) :
    (comment action).occursIn line = true ↔ Carries action line := by
  rw [comment_eq, occursIn_append_edge_iff (edgeless_commentPart action)]
  constructor
  · rintro ⟨before, found, rest, rfl, hleaves, hedge⟩
    obtain ⟨c, htext⟩ := (leaves_commentPart haction).mp hleaves
    obtain rfl : found = c.text := List.append_cancel_right htext
    exact ⟨before, c, rest, rfl, (c.atWordEdge_iff haction _ rest).mp hedge⟩
  · rintro ⟨before, c, rest, rfl, hrest⟩
    exact ⟨before, c.text, rest, rfl, (leaves_commentPart haction).mpr ⟨c, rfl⟩,
      (c.atWordEdge_iff haction _ rest).mpr hrest⟩

/-! ## Letters of any case -/

theorem blind_anyCase {w : String} (hw : IsKeyword w) :
    Blind Char.toLower (anyCase w : Pattern Empty) :=
  everyPart_anyCase.mpr ⟨fun _ => trivial, fun c hc => isCaseOf_toLower (hw.letters c hc)⟩

/-- A mark that stands before the letters in ASCII is no letter in another case. -/
theorem beq_toLower {c : Char} (hc : c.toNat < 65) (d : Char) : (d.toLower == c) = (d == c) := by
  rw [Bool.eq_iff_iff, beq_iff_eq, beq_iff_eq]
  exact toLower_eq_iff (by omega)

theorem blind_word {w : String} (hw : ∀ c ∈ w.toList, c.toNat < 65) :
    Blind Char.toLower (word w : Pattern Empty) :=
  everyPart_word.mpr ⟨fun _ => trivial, fun c hc => beq_toLower (hw c hc)⟩

theorem blind_opener : Blind Char.toLower (word "//" <|> word "/*" : Pattern Empty) :=
  ⟨blind_word (List.all_iff_forall_prop.mp (by decide)),
    blind_word (List.all_iff_forall_prop.mp (by decide))⟩

theorem blind_name :
    Blind Char.toLower (anyCase "missingdefault" <|> anyCase "md" : Pattern Empty) :=
  ⟨blind_anyCase isKeyword_missingdefault, blind_anyCase isKeyword_md⟩

theorem blind_spaces : Blind Char.toLower (spaces : Pattern Empty) := isSpace_toLower

theorem blind_colon : Blind Char.toLower (char ':' : Pattern Empty) := beq_toLower (by decide)

theorem blind_commentPart (haction : IsKeyword action) :
    Blind Char.toLower (commentPart action) := by
  simp only [commentPart, everyPart_append, blind_opener, blind_spaces, blind_name, blind_colon,
    blind_anyCase haction, and_self]

theorem carries_map_toLower (haction : IsKeyword action) (line : List Char) :
    Carries action (line.map Char.toLower) ↔ Carries action line := by
  have hedge (rest : List Char) :
      (rest.map Char.toLower).head?.any isWord = rest.head?.any isWord := by
    cases rest with
    | nil => rfl
    | cons c rest => exact isWord_toLower c
  rw [carries_iff_leaves haction, carries_iff_leaves haction]
  constructor
  · rintro ⟨_, _, _, hline, hleaves, hrest⟩
    obtain ⟨before, text, rfl, rfl, rfl⟩ := List.map_eq_append_iff.mp hline
    obtain ⟨rest, rfl, hshape⟩ := (leaves_map_iff (blind_commentPart haction)).mp hleaves
    exact ⟨before, text, rest, rfl, hshape, (hedge rest).symm.trans hrest⟩
  · rintro ⟨before, text, rest, rfl, hleaves, hrest⟩
    exact ⟨_, _, _, List.map_append,
      (leaves_map_iff (blind_commentPart haction)).mpr ⟨rest, rfl, hleaves⟩,
      (hedge rest).trans hrest⟩

/-! ## What the comments of a text switch off -/

theorem isKeyword_disable : IsKeyword "disable" :=
  ⟨List.all_iff_forall_prop.mp (by decide), by decide⟩

theorem isKeyword_ignore : IsKeyword "ignore" :=
  ⟨List.all_iff_forall_prop.mp (by decide), by decide⟩

theorem disables_iff (line : List Char) : disables line = true ↔ Carries "disable" line :=
  occursIn_comment_iff isKeyword_disable line

theorem ignores_iff (line : List Char) : ignores line = true ↔ Carries "ignore" line :=
  occursIn_comment_iff isKeyword_ignore line

theorem disables_toLower (line : List Char) : disables (line.map Char.toLower) = disables line := by
  rw [Bool.eq_iff_iff, disables_iff, disables_iff, carries_map_toLower isKeyword_disable]

theorem ignores_toLower (line : List Char) : ignores (line.map Char.toLower) = ignores line := by
  rw [Bool.eq_iff_iff, ignores_iff, ignores_iff, carries_map_toLower isKeyword_ignore]

variable {source : String} {number : Nat} {d : Directive}

theorem directive?_iff : directive? line number = some d ↔
    d.line = number ∧ Carries "ignore" line ∧ ¬ Carries "disable" line ∧
      Stripped line d.raw.toList := by
  rw [← disables_iff, ← ignores_iff, stripped_iff, directive?, Option.ite_none_right_eq_some]
  simp only [Bool.and_eq_true, Bool.not_eq_true', Option.some.injEq, Bool.not_eq_true]
  constructor
  · rintro ⟨⟨hdisables, hignores⟩, rfl⟩
    exact ⟨rfl, hignores, hdisables, String.toList_ofList⟩
  · rintro ⟨rfl, hignores, hdisables, hraw⟩
    refine ⟨⟨hdisables, hignores⟩, ?_⟩
    rw [← hraw, String.ofList_toList]

theorem mem_directives_iff : d ∈ (ofSource source).directives ↔
    ∃ line, 1 ≤ d.line ∧ (lines source.toList)[d.line - 1]? = some line ∧
      directive? line d.line = some d := by
  constructor
  · intro hd
    obtain ⟨⟨line, number⟩, hmem, hline⟩ := List.mem_filterMap.mp hd
    obtain rfl := line_of_directive? hline
    obtain ⟨hpos, hget⟩ := List.mk_mem_zipIdx_iff_le_and_getElem?_sub.mp hmem
    exact ⟨line, hpos, hget, hline⟩
  · rintro ⟨line, hpos, hget, hline⟩
    exact ((directive_iff hpos hget).mpr hline).1

theorem directives_sorted (source : String) :
    (ofSource source).directives.Pairwise fun d e => d.line < e.line := by
  have hnumbers : ((lines source.toList).zipIdx 1).Pairwise fun p q => p.2 < q.2 := by
    rw [← List.pairwise_map (f := Prod.snd), List.zipIdx_map_snd]
    exact List.pairwise_lt_range'
  rw [ofSource, List.pairwise_filterMap]
  refine hnumbers.imp ?_
  intro p q hlt d hd e he
  rw [line_of_directive? hd, line_of_directive? he]
  exact hlt

/-- What a line asks for: to disable the file, and to ignore the line. -/
def asks (line : List Char) : Bool × Bool := (disables line, ignores line)

/-- What is switched off depends on what each line asks for, and not on the rest of the text. -/
theorem ofSource_of_asks {source' : String}
    (h : (lines source'.toList).map asks = (lines source.toList).map asks) :
    (ofSource source').fileDisabled = (ofSource source).fileDisabled ∧
      (ofSource source').directives.map (·.line) = (ofSource source).directives.map (·.line) := by
  have hdisabled (s : String) :
      (ofSource s).fileDisabled = ((lines s.toList).map asks).any (·.1) := by
    rw [List.any_map]
    rfl
  have hnumbers (s : String) : (ofSource s).directives.map (·.line) =
      (((lines s.toList).map asks).zipIdx 1).filterMap fun p =>
        if !p.1.1 && p.1.2 then some p.2 else none := by
    rw [ofSource, List.map_filterMap, List.zipIdx_map, List.filterMap_map]
    apply List.filterMap_congr
    rintro ⟨line, number⟩ -
    simp only [directive?, asks, Function.comp_apply, Prod.map, apply_ite (Option.map _)]
    rfl
  rw [hdisabled, hdisabled, hnumbers, hnumbers, h]
  exact ⟨rfl, rfl⟩

theorem asks_toLower (line : List Char) : asks (line.map Char.toLower) = asks line := by
  rw [asks, asks, disables_toLower, ignores_toLower]

/-- A file is disabled iff one of its lines carries a comment that says so. Its directives are the
lines, each with its number and without the space around it, that carry a comment to ignore and none
to disable. The case of letters counts for neither. -/
theorem ofSource_exact (source : String) :
    ((ofSource source).fileDisabled = true ↔ ∃ line ∈ lines source.toList, Carries "disable" line) ∧
      (∀ d, d ∈ (ofSource source).directives ↔ ∃ line, 1 ≤ d.line ∧
        (lines source.toList)[d.line - 1]? = some line ∧ Carries "ignore" line ∧
        ¬ Carries "disable" line ∧ Stripped line d.raw.toList) ∧
      (ofSource source).directives.Pairwise (fun d e => d.line < e.line) ∧
      ∀ source' : String, source'.toList.map Char.toLower = source.toList.map Char.toLower →
        (ofSource source').fileDisabled = (ofSource source).fileDisabled ∧
          (ofSource source').directives.map (·.line) =
            (ofSource source).directives.map (·.line) := by
  refine ⟨?_, ?_, directives_sorted source, ?_⟩
  · simp only [ofSource, List.any_eq_true, disables_iff]
  · intro d
    simp only [mem_directives_iff, directive?_iff, true_and]
  · intro source' hlower
    have hasks (s : String) :
        (lines (s.toList.map Char.toLower)).map asks = (lines s.toList).map asks := by
      rw [lines_map_toLower, List.map_map]
      exact congrArg (List.map · _) (funext asks_toLower)
    apply ofSource_of_asks
    rw [← hasks, hlower, hasks]

/-- A word that only starts like one to ignore, letters from outside ASCII, and both actions on one
line. -/
def sampleComments : String :=
  "//md:ignored\n\t/*/* M\u0130\u017FSingDefault :Ignore*/\n//md:ignore //mD:disable"

def sampleCapitals : String :=
  "//MD:IGNORED\n\t/*/* M\u0130\u017FSINGDEFAULT :IGNORE*/\n//MD:IGNORE //MD:DISABLE"

theorem ofSource_sampleCapitals :
    sampleCapitals.toList.map Char.toLower = sampleComments.toList.map Char.toLower ∧
      (ofSource sampleComments).directives.map (·.line) = [2] ∧
      (ofSource sampleCapitals).fileDisabled = true ∧
      (ofSource sampleCapitals).directives.map (·.line) = [2] := by
  have hlower : sampleCapitals.toList.map Char.toLower =
      sampleComments.toList.map Char.toLower := by decide +kernel
  have hsample : (ofSource sampleComments).fileDisabled = true ∧
      (ofSource sampleComments).directives.map (·.line) = [2] := by decide +kernel
  obtain ⟨-, -, -, hcase⟩ := ofSource_exact sampleComments
  obtain ⟨hdisabled, hnumbers⟩ := hcase sampleCapitals hlower
  exact ⟨hlower, hsample.2, hdisabled.trans hsample.1, hnumbers.trans hsample.2⟩

end DefaultImports.Suppression
