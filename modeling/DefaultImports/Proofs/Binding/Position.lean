import DefaultImports.Binding
import DefaultImports.Proofs.Pattern.Captures
import DefaultImports.Proofs.Pattern.Search

/-! Where the matches of a pattern and their captures stand. Main statement: `scan_sorted`, no two
default imports of a text stand at the same position. -/
namespace DefaultImports

namespace Cursor

variable {c d : Cursor}

/-- Lines first, and on one line columns. -/
def Above (c d : Cursor) : Prop := c.line < d.line ∨ c.line = d.line ∧ c.column < d.column

/-- Of two places in one text, the one with more text left stands before the other. -/
theorem above_of_rest (htext : c.text = d.text) (h : d.rest.length < c.rest.length) :
    c.Above d := by
  have hpassed : ∃ x xs, d.passed = x :: xs ++ c.passed := by
    rcases List.append_eq_append_iff.mp htext with ⟨ys, hd, hc⟩ | ⟨ys, hc, hd⟩
    · have hne : ys.reverse ≠ [] := by
        intro hnil
        rw [List.reverse_eq_nil_iff] at hnil
        rw [hc, hnil] at h
        exact Nat.lt_irrefl _ h
      obtain ⟨x, xs, hxs⟩ := List.exists_cons_of_ne_nil hne
      refine ⟨x, xs, ?_⟩
      rw [← hxs, ← List.reverse_reverse d.passed, hd, List.reverse_append, List.reverse_reverse]
    · have hlength := congrArg List.length hd
      rw [List.length_append] at hlength
      omega
  obtain ⟨x, xs, hpassed⟩ := hpassed
  unfold Above line column
  rw [hpassed, List.count_append]
  by_cases hbreak : '\n' ∈ x :: xs
  · have hcount := List.count_pos_iff.mpr hbreak
    omega
  · -- no line ends in between, so the column grows by what lies in between
    have hcount := List.count_eq_zero.mpr hbreak
    have hcolumn : (x :: xs ++ c.passed).takeWhile (· != '\n') =
        x :: xs ++ c.passed.takeWhile (· != '\n') := by
      apply List.takeWhile_append_of_pos
      intro y hy
      simpa using fun hy' : y = '\n' => hbreak (hy' ▸ hy)
    rw [hcolumn, List.length_append, List.length_cons]
    omega

/-- A place in a text is told by its line and column. -/
theorem eq_of_line_column (htext : c.text = d.text) (hline : c.line = d.line)
    (hcolumn : c.column = d.column) : c = d := by
  have hlength : c.rest.length = d.rest.length := by
    rcases Nat.lt_trichotomy c.rest.length d.rest.length with h | h | h
    · have habove := above_of_rest htext.symm h
      unfold Above at habove
      omega
    · exact h
    · have habove := above_of_rest htext h
      unfold Above at habove
      omega
  obtain ⟨hpassed, hrest⟩ := List.append_inj' htext hlength
  obtain ⟨passed, rest⟩ := c
  obtain rfl : passed = d.passed := List.reverse_inj.mp hpassed
  obtain rfl : rest = d.rest := hrest
  rfl

end Cursor

namespace Pattern

variable {ι : Type} {a : Pattern ι} {s t : Progress ι} {skip : Nat} {passed text : List Char}
  {m : Found ι}

/-! ## What is captured -/

/-- Every match takes some text. -/
def TakesText (a : Pattern ι) : Prop :=
  ∀ text rest, Leaves a text rest → rest.length < text.length

theorem takesText_one_many (p q : Char → Bool) : TakesText (one p ++ many q : Pattern ι) := by
  rintro _ _ ⟨_, ⟨c, rfl, -⟩, xs, rfl, -⟩
  rw [List.length_cons, List.length_append]
  omega

/-- No capture is empty. -/
abbrev CapturesText : Pattern ι → Prop :=
  EveryPart fun
    | capture _ a => TakesText a
    | _ => True

/-- The capture starts between two places of its text, and before the second of them. -/
structure Inside (x : Capture ι) (c d : Cursor) : Prop where
  text : x.start.text = c.text
  after : x.start.rest.length ≤ c.rest.length
  before : d.rest.length < x.start.rest.length

theorem inside_of_mem_ends (ha : CapturesText a) (ht : t ∈ a.ends s) :
    ∀ c ∈ t.captures, c ∈ s.captures ∨ Inside c s.cursor t.cursor := by
  intro c hc
  refine (made_of_mem_ends ha ht c hc).imp_right ?_
  rintro ⟨htakes, hends, htext, hfrom, hto⟩
  have hshorter := htakes _ _ (leaves_of_mem_ends hends)
  exact ⟨htext, hfrom, Nat.lt_of_le_of_lt hto hshorter⟩

/-! ## Matches one after the other -/

/-- What a match captures stands in the text that it takes. -/
theorem inside_of_at? {c : Cursor} (ha : CapturesText a) (hm : a.at? c = some m) :
    ∀ x ∈ m.captures, x.start.text = c.text ∧
      x.start.rest.length ≤ c.rest.length ∧ c.rest.length < x.start.rest.length + m.size := by
  rw [at?_eq_head?] at hm
  obtain ⟨t, ht, rfl⟩ := Option.map_eq_some_iff.mp hm
  have ht := List.mem_of_mem_head? ht
  have hsize := size_of_mem_ends ht
  intro x hx
  rcases inside_of_mem_ends ha ht x hx with hx | hx
  · cases hx
  · have hbefore := hx.before
    dsimp only at hsize
    exact ⟨hx.text, hx.after, by dsimp only; omega⟩

/-- A capture of a match that is found from a place on. -/
structure From (skip : Nat) (passed text : List Char) (c : Capture ι) : Prop where
  whole : c.start.text = passed.reverse ++ text
  after : c.start.rest.length + skip ≤ text.length

theorem From.back {skip' : Nat} {x : Char} {c : Capture ι} (h : From skip (x :: passed) text c)
    (hskip : skip' ≤ skip + 1) : From skip' passed (x :: text) c := by
  refine ⟨by simpa using h.whole, ?_⟩
  have hafter := h.after
  rw [List.length_cons]
  omega

theorem from_of_mem_findAllFrom (ha : CapturesText a)
    (hm : m ∈ a.findAllFrom skip passed text) : ∀ c ∈ m.captures, From skip passed text c := by
  fun_induction findAllFrom a skip passed text with
  | case1 => cases hm
  | case2 skip passed x rest ih => exact fun c hc => (ih hm c hc).back (Nat.le_refl _)
  | case3 passed x rest m' hat ih =>
    rcases List.mem_cons.mp hm with rfl | hm
    · intro c hc
      obtain ⟨htext, hafter, -⟩ := inside_of_at? ha hat c hc
      exact ⟨htext, hafter⟩
    · exact fun c hc => (ih hm c hc).back (Nat.zero_le _)
  | case4 passed x rest hat ih => exact fun c hc => (ih hm c hc).back (Nat.zero_le _)

/-- What a match captures stands before what every later one captures. -/
theorem pairwise_findAllFrom (ha : CapturesText a) (skip : Nat) (passed text : List Char) :
    (a.findAllFrom skip passed text).Pairwise fun m m' =>
      ∀ c ∈ m.captures, ∀ c' ∈ m'.captures, c.start.Above c'.start := by
  fun_induction findAllFrom a skip passed text with
  | case1 => exact .nil
  | case2 skip passed x rest ih => exact ih
  | case3 passed x rest m hat ih =>
    refine List.pairwise_cons.mpr ⟨?_, ih⟩
    intro m' hm' c hc c' hc'
    obtain ⟨htext, -, hsize⟩ := inside_of_at? ha hat c hc
    obtain ⟨htext', hrest⟩ := from_of_mem_findAllFrom ha hm' c' hc'
    apply Cursor.above_of_rest
    · rw [htext, htext']
      simp [Cursor.text]
    · rw [List.length_cons] at hsize
      omega
  | case4 passed x rest hat ih => exact ih

end Pattern

namespace Binding

open Pattern

theorem capturesText_otherImports : CapturesText otherImports := by
  simp [otherImports, identifier]

theorem capturesText_quoted (mark : Char) : CapturesText (quoted mark) := by
  simp [quoted, oneOrMore, takesText_one_many]

theorem capturesText_statement : CapturesText statement := by
  simp [statement, identifier, takesText_one_many, capturesText_otherImports, capturesText_quoted]

/-- Lines first, and on one line columns. -/
def Above (b c : Binding) : Prop := b.line < c.line ∨ b.line = c.line ∧ b.column < c.column

theorem mem_captures_of_ofFound? {file : Path} {m : Found Part} {b : Binding}
    (h : ofFound? file m = some b) :
    ∃ c ∈ m.captures, b.line = c.start.line ∧ b.column = c.start.column := by
  simp only [ofFound?, Option.bind_eq_bind, Option.bind_eq_some_iff] at h
  obtain ⟨name, hname, specifier, -, h⟩ := h
  cases Option.some.inj h
  exact ⟨name, List.mem_of_find?_eq_some hname, rfl, rfl⟩

/-- The imports in a text stand one behind the other. -/
theorem scan_sorted (source : String) (file : Path) : (scan source file).Pairwise Above := by
  rw [scan, List.pairwise_filterMap]
  refine (pairwise_findAllFrom capturesText_statement 0 [] source.toList).imp ?_
  intro m m' habove b hb b' hb'
  obtain ⟨c, hc, hline, hcolumn⟩ := mem_captures_of_ofFound? hb
  obtain ⟨c', hc', hline', hcolumn'⟩ := mem_captures_of_ofFound? hb'
  have hbefore := habove c hc c' hc'
  unfold Cursor.Above at hbefore
  unfold Above
  rw [hline, hline', hcolumn, hcolumn']
  omega

end Binding

end DefaultImports
