import DefaultImports.Pattern.Match

/-! All the ways to match a pattern, as a list in the order of preference. Main statement:
`run_eq_findSome?`, matching with backtracking takes the first of them that can go on. -/
namespace DefaultImports.Pattern

variable {ι α : Type}

/-- The ends of the runs of `p` from a place, longest first, each with the number of characters
matched. -/
def manyEnds (p : Char → Bool) : (size : Nat) → (passed rest : List Char) → List (Cursor × Nat)
  | size, passed, [] => [(⟨passed, []⟩, size)]
  | size, passed, c :: rest =>
    if p c then manyEnds p (size + 1) (c :: passed) rest ++ [(⟨passed, c :: rest⟩, size)]
    else [(⟨passed, c :: rest⟩, size)]

/-- The ends of the runs of `p` from a place, shortest first. -/
def fewEnds (p : Char → Bool) : (size : Nat) → (passed rest : List Char) → List (Cursor × Nat)
  | size, passed, [] => [(⟨passed, []⟩, size)]
  | size, passed, c :: rest =>
    (⟨passed, c :: rest⟩, size) :: if p c then fewEnds p (size + 1) (c :: passed) rest else []

/-- What a match of the pattern can reach, in the order of preference. -/
def ends : Pattern ι → Progress ι → List (Progress ι)
  | empty, s => [s]
  | one p, s =>
    match s.cursor.rest with
    | [] => []
    | c :: rest => if p c then [s.moveTo ⟨c :: s.cursor.passed, rest⟩ (s.size + 1)] else []
  | many p, s =>
    (manyEnds p s.size s.cursor.passed s.cursor.rest).map fun e => s.moveTo e.1 e.2
  | few p, s => (fewEnds p s.size s.cursor.passed s.cursor.rest).map fun e => s.moveTo e.1 e.2
  | edge p, s => if p s.cursor then [s] else []
  | seq a b, s => (a.ends s).flatMap b.ends
  | alt a b, s => a.ends s ++ b.ends s
  | capture label a, s => (a.ends s).map fun t => t.record label s

theorem runMany_eq_findSome? (p : Char → Bool) (k : Cursor → Nat → Option α) (size : Nat)
    (passed rest : List Char) :
    runMany p k size passed rest = (manyEnds p size passed rest).findSome? fun e => k e.1 e.2 := by
  induction rest generalizing size passed with
  | nil => simp [runMany, manyEnds]
  | cons c rest ih =>
    by_cases h : p c
    · simp only [runMany, manyEnds, h, if_true, ih, List.findSome?_append]
      cases (manyEnds p (size + 1) (c :: passed) rest).findSome? fun e => k e.1 e.2 <;> simp
    · simp [runMany, manyEnds, h]

theorem runFew_eq_findSome? (p : Char → Bool) (k : Cursor → Nat → Option α) (size : Nat)
    (passed rest : List Char) :
    runFew p k size passed rest = (fewEnds p size passed rest).findSome? fun e => k e.1 e.2 := by
  induction rest generalizing size passed with
  | nil => simp [runFew, fewEnds]
  | cons c rest ih =>
    rw [runFew, fewEnds, List.findSome?_cons]
    cases k ⟨passed, c :: rest⟩ size with
    | some a => rfl
    | none => by_cases h : p c <;> simp [h, ih]

theorem findSome?_flatMap {β γ : Type} (xs : List β) (f : β → List γ) (k : γ → Option α) :
    (xs.flatMap f).findSome? k = xs.findSome? fun x => (f x).findSome? k := by
  induction xs with
  | nil => rfl
  | cons x xs ih =>
    rw [List.flatMap_cons, List.findSome?_append, List.findSome?_cons, ih]
    cases (f x).findSome? k <;> rfl

/-- Matching with backtracking takes the preferred way to match that lets it go on. -/
theorem run_eq_findSome? (p : Pattern ι) (s : Progress ι) (k : Progress ι → Option α) :
    p.run s k = (p.ends s).findSome? k := by
  induction p generalizing s k with
  | empty => simp [run, ends]
  | one p =>
    rw [run, ends]
    cases s.cursor.rest with
    | nil => rfl
    | cons c rest => by_cases h : p c <;> simp [h]
  | many p => rw [run, ends, runMany_eq_findSome?, List.findSome?_map]; rfl
  | few p => rw [run, ends, runFew_eq_findSome?, List.findSome?_map]; rfl
  | edge p => by_cases h : p s.cursor <;> simp [run, ends, h]
  | seq a b iha ihb => simp only [run, ends, iha, ihb, findSome?_flatMap]
  | alt a b iha ihb =>
    rw [run, ends, List.findSome?_append, iha, ihb]
    cases (a.ends s).findSome? k <;> rfl
  | capture label a ih => rw [run, ends, ih, List.findSome?_map]; rfl

end DefaultImports.Pattern
