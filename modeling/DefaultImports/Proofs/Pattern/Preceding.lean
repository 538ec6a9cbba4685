import DefaultImports.Proofs.Pattern.Occurrence

/-! Text before a text. A pattern whose edges do not see that text finds the same matches, further
down. -/
namespace DefaultImports

namespace Cursor

/-- The same place with the text `z` before. -/
def behind (z : List Char) (c : Cursor) : Cursor := ⟨c.passed ++ z.reverse, c.rest⟩

variable {line : List Char}

/-- One more line before a place puts it one line down. -/
theorem line_behind (hline : '\n' ∉ line) (c : Cursor) :
    (c.behind (line ++ ['\n'])).line = c.line + 1 := by
  have hcount := List.count_eq_zero.mpr hline
  simp [Cursor.line, behind, hcount]

theorem column_behind (line : List Char) (c : Cursor) :
    (c.behind (line ++ ['\n'])).column = c.column := by
  simp only [column, behind, List.reverse_append, List.takeWhile_append]
  split <;> simp_all

theorem atLineStart_behind (line : List Char) (c : Cursor) :
    (c.behind (line ++ ['\n'])).atLineStart = c.atLineStart := by
  obtain ⟨passed, rest⟩ := c
  cases passed <;> simp [atLineStart, behind]

end Cursor

def Capture.behind {ι : Type} (z : List Char) (c : Capture ι) : Capture ι :=
  { c with start := c.start.behind z }

theorem Capture.text_behind {ι : Type} (z : List Char) (c : Capture ι) :
    (c.behind z).text = c.text := rfl

namespace Pattern

variable {ι : Type} {p : Char → Bool} {a : Pattern ι} {z : List Char}

def Progress.behind (z : List Char) (s : Progress ι) : Progress ι :=
  ⟨s.cursor.behind z, s.size, s.captures.map (Capture.behind z)⟩

def Found.behind (z : List Char) (m : Found ι) : Found ι :=
  ⟨m.start.behind z, m.size, m.captures.map (Capture.behind z)⟩

/-- The edges of the pattern do not see the text `z` before. -/
def Overlooks (z : List Char) (a : Pattern ι) : Prop :=
  EdgesAre (fun p => ∀ c : Cursor, p (c.behind z) = p c) a

theorem manyEnds_behind (z : List Char) (n : Nat) (passed rest : List Char) :
    manyEnds p n (passed ++ z.reverse) rest =
      (manyEnds p n passed rest).map fun e => (e.1.behind z, e.2) := by
  induction rest generalizing n passed with
  | nil => rfl
  | cons c rest ih =>
    have hnext := ih (n + 1) (c :: passed)
    rw [List.cons_append] at hnext
    by_cases hc : p c <;> simp [manyEnds, hc, hnext, Cursor.behind]

theorem fewEnds_behind (z : List Char) (n : Nat) (passed rest : List Char) :
    fewEnds p n (passed ++ z.reverse) rest =
      (fewEnds p n passed rest).map fun e => (e.1.behind z, e.2) := by
  induction rest generalizing n passed with
  | nil => rfl
  | cons c rest ih =>
    have hnext := ih (n + 1) (c :: passed)
    rw [List.cons_append] at hnext
    by_cases hc : p c <;> simp [fewEnds, hc, hnext, Cursor.behind]

/-- The runs of a class, as ends of the pattern for them. -/
theorem map_moveTo_behind (s : Progress ι) {runs runs' : List (Cursor × Nat)}
    (h : runs' = runs.map fun e => (e.1.behind z, e.2)) :
    (runs'.map fun e => (s.behind z).moveTo e.1 e.2) =
      (runs.map fun e => s.moveTo e.1 e.2).map (Progress.behind z) := by
  rw [h, List.map_map, List.map_map]
  rfl

/-- A pattern that overlooks the text before matches in the same ways, in the same order. -/
theorem ends_behind (ha : Overlooks z a) (s : Progress ι) :
    a.ends (s.behind z) = (a.ends s).map (Progress.behind z) := by
  induction a generalizing s with
  | empty => rfl
  | one p =>
    obtain ⟨⟨passed, rest⟩, n, cs⟩ := s
    cases rest with
    | nil => rfl
    | cons c rest =>
      by_cases hc : p c <;> simp [ends, Progress.behind, Cursor.behind, Progress.moveTo, hc]
  | many p => exact map_moveTo_behind s (manyEnds_behind z s.size s.cursor.passed s.cursor.rest)
  | few p => exact map_moveTo_behind s (fewEnds_behind z s.size s.cursor.passed s.cursor.rest)
  | edge p =>
    have hedge : p (s.behind z).cursor = p s.cursor := ha s.cursor
    rw [ends, ends, hedge]
    split <;> rfl
  | seq a b iha ihb =>
    rw [ends, ends, iha ha.1, List.flatMap_map, List.map_flatMap]
    simp only [ihb ha.2]
  | alt a b iha ihb => simp only [ends, iha ha.1, ihb ha.2, List.map_append]
  | capture label a ih =>
    rw [ends, ends, ih ha.2, List.map_map, List.map_map]
    rfl

theorem at?_behind (ha : Overlooks z a) (c : Cursor) :
    a.at? (c.behind z) = (a.at? c).map (Found.behind z) := by
  have hends : a.ends ⟨c.behind z, 0, []⟩ = (a.ends ⟨c, 0, []⟩).map (Progress.behind z) :=
    ends_behind ha ⟨c, 0, []⟩
  rw [at?_eq_head?, at?_eq_head?, hends, List.head?_map, Option.map_map, Option.map_map]
  rfl

theorem findAllFrom_behind (ha : Overlooks z a) (skip : Nat) (passed text : List Char) :
    a.findAllFrom skip (passed ++ z.reverse) text =
      (a.findAllFrom skip passed text).map (Found.behind z) := by
  have hat (passed rest : List Char) : a.at? ⟨passed ++ z.reverse, rest⟩ =
      (a.at? ⟨passed, rest⟩).map (Found.behind z) := at?_behind ha ⟨passed, rest⟩
  fun_induction findAllFrom a skip passed text with
  | case1 => simp [findAllFrom]
  | case2 skip passed c rest ih => exact ih
  | case3 passed c rest m hm ih =>
    rw [findAllFrom, hat, hm]
    exact congrArg (m.behind z :: ·) ih
  | case4 passed c rest hm ih =>
    rw [findAllFrom, hat, hm]
    exact ih

/-- A character before a text hides no match if none can start at it. -/
theorem findAll_cons {x : Char} {text : List Char} (ha : Overlooks [x] a)
    (hx : Refuses a (x :: text)) :
    a.findAll (x :: text) = (a.findAll text).map (Found.behind [x]) := by
  rw [findAll, findAllFrom, at?_of_refuses hx]
  exact findAllFrom_behind ha 0 [] text

theorem capture?_behind [BEq ι] (z : List Char) (m : Found ι) (label : ι) :
    (m.behind z).capture? label = (m.capture? label).map (Capture.behind z) :=
  List.find?_map

end Pattern

end DefaultImports
