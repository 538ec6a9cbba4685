import DefaultImports.Proofs.Pattern.Captures
import DefaultImports.Proofs.Pattern.Occurrence
import Mathlib.Tactic.ByContra

/-! More text behind a text. A pattern whose matches end in some class of characters finds no new
matches when text without that class is put behind, and loses none. -/
namespace DefaultImports

/-- The same place with more text behind. -/
def Cursor.extend (z : List Char) (c : Cursor) : Cursor := ⟨c.passed, c.rest ++ z⟩

def Capture.extend {ι : Type} (z : List Char) (c : Capture ι) : Capture ι :=
  { c with start := c.start.extend z }

/-- What is captured lies in the text. -/
def Capture.Within {ι : Type} (c : Capture ι) : Prop := c.size ≤ c.start.rest.length

theorem Capture.text_extend {ι : Type} {c : Capture ι} (hc : c.Within) (z : List Char) :
    (c.extend z).text = c.text := by
  simp only [text, extend, Cursor.extend, List.take_append_of_le_length hc]

namespace Pattern

variable {ι : Type} {p q : Char → Bool} {a : Pattern ι} {s t : Progress ι} {n : Nat}
  {passed text rest z : List Char} {m : Found ι}

def Progress.extend (z : List Char) (s : Progress ι) : Progress ι :=
  ⟨s.cursor.extend z, s.size, s.captures.map (Capture.extend z)⟩

def Found.extend (z : List Char) (m : Found ι) : Found ι :=
  ⟨m.start.extend z, m.size, m.captures.map (Capture.extend z)⟩

/-- Edges depend on what lies before them only. -/
def LooksBack (a : Pattern ι) : Prop :=
  EdgesAre (fun p => ∀ passed rest rest', p ⟨passed, rest⟩ = p ⟨passed, rest'⟩) a

/-- Every match has a last character, and that is of the class `q`. -/
def EndsIn (q : Char → Bool) (a : Pattern ι) : Prop :=
  ∀ text rest, Leaves a text rest → ∃ xs c, text = xs ++ c :: rest ∧ q c = true

/-- The end of a match that does not reach into `z`, the text behind. -/
def stays (z : List Char) (t : Progress ι) : Bool := z.length ≤ t.cursor.rest.length

@[simp] theorem stays_extend (s : Progress ι) : stays z (s.extend z) = true := by
  simp [stays, Progress.extend, Cursor.extend]

theorem leaves_suffix (h : Leaves a text rest) : rest <:+ text := by
  induction a generalizing text rest with
  | empty | edge => exact h ▸ List.suffix_rfl
  | one p =>
    obtain ⟨c, rfl, -⟩ := h
    exact List.suffix_cons c rest
  | many p | few p =>
    obtain ⟨xs, rfl, -⟩ := h
    exact List.suffix_append xs rest
  | seq a b iha ihb =>
    obtain ⟨middle, ha, hb⟩ := h
    exact (ihb hb).trans (iha ha)
  | alt a b iha ihb => exact h.elim iha ihb
  | capture label a ih => exact ih h

/-- The ends of runs that do not reach into `z`, the text behind. -/
def staysRun (z : List Char) (e : Cursor × Nat) : Bool := z.length ≤ e.1.rest.length

theorem staysRun_append (passed rest z : List Char) (n : Nat) :
    staysRun z (⟨passed, rest ++ z⟩, n) = true := by
  simp [staysRun]

theorem not_staysRun_of_run {e : Cursor × Nat} {c : Char}
    (h : ∃ xs rest, text = xs ++ rest ∧ (∀ c ∈ xs, p c = true) ∧
      e = (⟨xs.reverse ++ passed, rest⟩, n + xs.length)) :
    ¬ staysRun (c :: text) e = true := by
  obtain ⟨xs, rest, rfl, -, rfl⟩ := h
  simp only [staysRun, List.length_cons, List.length_append, decide_eq_true_eq]
  omega

theorem filter_manyEnds (z : List Char) :
    (manyEnds p n passed (rest ++ z)).filter (staysRun z) =
      (manyEnds p n passed rest).map fun e => (e.1.extend z, e.2) := by
  induction rest generalizing n passed with
  | nil =>
    cases z with
    | nil => rfl
    | cons c z =>
      have hinner : (manyEnds p (n + 1) (c :: passed) z).filter (staysRun (c :: z)) = [] :=
        List.filter_eq_nil_iff.mpr fun _ he => not_staysRun_of_run (run_of_mem_manyEnds he)
      have hhere := staysRun_append passed [] (c :: z) n
      rw [List.nil_append] at hhere ⊢
      by_cases hc : p c <;> simp [manyEnds, hc, hinner, hhere, Cursor.extend]
  | cons c rest ih =>
    have hhere := staysRun_append passed (c :: rest) z n
    rw [List.cons_append] at hhere ⊢
    by_cases hc : p c <;> simp [manyEnds, hc, hhere, ih, Cursor.extend]

theorem filter_fewEnds (z : List Char) :
    (fewEnds p n passed (rest ++ z)).filter (staysRun z) =
      (fewEnds p n passed rest).map fun e => (e.1.extend z, e.2) := by
  induction rest generalizing n passed with
  | nil =>
    cases z with
    | nil => rfl
    | cons c z =>
      have hinner : (fewEnds p (n + 1) (c :: passed) z).filter (staysRun (c :: z)) = [] :=
        List.filter_eq_nil_iff.mpr fun _ he => not_staysRun_of_run (run_of_mem_fewEnds he)
      have hhere := staysRun_append passed [] (c :: z) n
      rw [List.nil_append] at hhere ⊢
      by_cases hc : p c <;> simp [fewEnds, hc, hinner, hhere, Cursor.extend]
  | cons c rest ih =>
    have hhere := staysRun_append passed (c :: rest) z n
    rw [List.cons_append] at hhere ⊢
    by_cases hc : p c <;> simp [fewEnds, hc, hhere, ih, Cursor.extend]

/-- The runs of a class, as ends of the pattern for them. -/
theorem filter_map_moveTo (s : Progress ι) (runs runs' : List (Cursor × Nat))
    (h : runs'.filter (staysRun z) = runs.map fun e => (e.1.extend z, e.2)) :
    (runs'.map fun e => (s.extend z).moveTo e.1 e.2).filter (stays z) =
      (runs.map fun e => s.moveTo e.1 e.2).map (Progress.extend z) := by
  rw [List.filter_map, List.map_map]
  have hstays : stays z ∘ (fun e => (s.extend z).moveTo e.1 e.2) = staysRun z := rfl
  rw [hstays, h, List.map_map]
  rfl

/-- Behind the end of a match that reaches into `z` there are only such ends. -/
theorem filter_ends_of_not_stays (h : ¬ stays z t = true) : (a.ends t).filter (stays z) = [] := by
  refine List.filter_eq_nil_iff.mpr ?_
  intro u hu
  have hle := (leaves_suffix (leaves_of_mem_ends hu)).length_le
  simp only [stays, decide_eq_true_eq] at h ⊢
  omega

/-- The matches that stay before the text behind are those without that text, in the same
order. -/
theorem ends_extend (ha : LooksBack a) (s : Progress ι) (z : List Char) :
    (a.ends (s.extend z)).filter (stays z) = (a.ends s).map (Progress.extend z) := by
  induction a generalizing s with
  | empty => simp [ends]
  | one p =>
    obtain ⟨⟨passed, rest⟩, n, cs⟩ := s
    cases rest with
    | nil =>
      cases z with
      | nil => rfl
      | cons c z =>
        by_cases hc : p c <;>
          simp [ends, Progress.extend, Cursor.extend, hc, stays, Progress.moveTo]
    | cons c rest =>
      by_cases hc : p c <;> simp [ends, Progress.extend, Cursor.extend, hc, stays, Progress.moveTo]
  | many p => exact filter_map_moveTo s _ _ (filter_manyEnds z)
  | few p => exact filter_map_moveTo s _ _ (filter_fewEnds z)
  | edge p =>
    have hedge : p (s.extend z).cursor = p s.cursor := ha _ _ _
    rw [ends, ends, hedge]
    split <;> simp
  | seq a b iha ihb =>
    have hskip : ∀ ts : List (Progress ι), (ts.flatMap b.ends).filter (stays z) =
        (ts.filter (stays z)).flatMap fun t => (b.ends t).filter (stays z) := by
      intro ts
      induction ts with
      | nil => rfl
      | cons t ts ih =>
        by_cases ht : stays z t
        · simp [ht, ih]
        · simp [ht, ih, filter_ends_of_not_stays ht]
    rw [ends, ends, hskip, iha ha.1, List.flatMap_map, List.map_flatMap]
    simp only [ihb ha.2]
  | alt a b iha ihb => simp [ends, iha ha.1, ihb ha.2]
  | capture label a ih =>
    rw [ends, ends, List.filter_map, List.map_map]
    have hstays : stays z ∘ (fun t => t.record label (s.extend z)) = stays z := rfl
    rw [hstays, ih ha.2, List.map_map]
    rfl

/-- The last character of a match is not in a text that has none of its class. -/
theorem stays_of_mem_ends (ha : EndsIn q a) (hz : ∀ c ∈ z, q c = false)
    (ht : t ∈ a.ends (s.extend z)) : stays z t = true := by
  obtain ⟨xs, c, htext, hc⟩ := ha _ _ (leaves_of_mem_ends ht)
  by_contra hstays
  have hshort : t.cursor.rest.length < z.length := by simpa [stays] using hstays
  have hwhole : c :: t.cursor.rest <:+ s.cursor.rest ++ z := ⟨xs, htext.symm⟩
  have hsuffix : c :: t.cursor.rest <:+ z :=
    List.suffix_of_suffix_length_le hwhole (List.suffix_append s.cursor.rest z) hshort
  have hmem : c ∈ z := hsuffix.subset List.mem_cons_self
  simp [hz c hmem] at hc

theorem at?_extend (hback : LooksBack a) (hends : EndsIn q a) (hz : ∀ c ∈ z, q c = false)
    (c : Cursor) : a.at? (c.extend z) = (a.at? c).map (Found.extend z) := by
  have hall : a.ends ⟨c.extend z, 0, []⟩ = (a.ends ⟨c, 0, []⟩).map (Progress.extend z) := by
    have h := ends_extend hback ⟨c, 0, []⟩ z
    rwa [List.filter_eq_self.mpr fun t ht => stays_of_mem_ends hends hz ht] at h
  rw [at?_eq_head?, at?_eq_head?, hall, List.head?_map, Option.map_map, Option.map_map]
  rfl

theorem at?_nil (hends : EndsIn q a) (passed : List Char) : a.at? ⟨passed, []⟩ = none := by
  refine at?_of_refuses ?_ passed
  intro rest h
  obtain ⟨xs, c, htext, -⟩ := hends _ _ h
  simp at htext

theorem findAllFrom_of_class (hback : LooksBack a) (hends : EndsIn q a)
    (hz : ∀ c ∈ z, q c = false) (skip : Nat) (passed : List Char) :
    a.findAllFrom skip passed z = [] := by
  induction z generalizing skip passed with
  | nil => simp [findAllFrom]
  | cons c z ih =>
    have hrest : ∀ d ∈ z, q d = false := fun d hd => hz d (List.mem_cons_of_mem c hd)
    cases skip with
    | succ skip => exact ih hrest skip (c :: passed)
    | zero =>
      have hnone : a.at? ⟨passed, c :: z⟩ = none := by
        have h := at?_extend hback hends hz ⟨passed, []⟩
        rwa [at?_nil hends] at h
      rw [findAllFrom, hnone]
      exact ih hrest 0 (c :: passed)

theorem findAllFrom_append (hback : LooksBack a) (hends : EndsIn q a)
    (hz : ∀ c ∈ z, q c = false) (skip : Nat) (passed text : List Char) :
    a.findAllFrom skip passed (text ++ z) =
      (a.findAllFrom skip passed text).map (Found.extend z) := by
  induction text generalizing skip passed with
  | nil =>
    rw [List.nil_append, findAllFrom_of_class hback hends hz]
    simp [findAllFrom]
  | cons c text ih =>
    cases skip with
    | succ skip => exact ih skip (c :: passed)
    | zero =>
      have hat : a.at? ⟨passed, c :: (text ++ z)⟩ =
          (a.at? ⟨passed, c :: text⟩).map (Found.extend z) :=
        at?_extend hback hends hz ⟨passed, c :: text⟩
      rw [List.cons_append, findAllFrom, findAllFrom, hat]
      cases a.at? ⟨passed, c :: text⟩ with
      | none => exact ih 0 (c :: passed)
      | some m => exact congrArg (m.extend z :: ·) (ih (m.size - 1) (c :: passed))

theorem within_of_mem_ends (hs : ∀ c ∈ s.captures, c.Within) (ht : t ∈ a.ends s) :
    ∀ c ∈ t.captures, c.Within := by
  have hall : EveryPart (fun _ => True) a := everyPart_of_forall (fun _ => trivial) a
  intro c hc
  rcases made_of_mem_ends hall ht c hc with hc | ⟨-, hends, -⟩
  · exact hs c hc
  · have hsize := size_of_mem_ends hends
    simp only [Capture.Within]
    omega

theorem within_of_mem_findAll (hm : m ∈ a.findAll text) : ∀ c ∈ m.captures, c.Within := by
  obtain ⟨c, -, hat⟩ := mem_findAllFrom hm
  rw [at?_eq_head?] at hat
  obtain ⟨t, ht, rfl⟩ := Option.map_eq_some_iff.mp hat
  exact within_of_mem_ends (by simp) (List.mem_of_mem_head? ht)

end Pattern

end DefaultImports
