import DefaultImports.Proofs.Pattern.Parts
import DefaultImports.Proofs.Pattern.Search

/-! Whether a pattern occurs in a text. Backtracking misses no way to match, so that a pattern
without edges occurs exactly where some part of the text has its shape. -/
namespace DefaultImports.Pattern

open Text

variable {ι : Type} {p : Char → Bool} {a : Pattern ι} {s : Progress ι} {c : Char}
  {xs passed text rest : List Char}

/-- All edges of the pattern are of the kind `P`. -/
abbrev EdgesAre (P : (Cursor → Bool) → Prop) : Pattern ι → Prop :=
  EveryPart fun
    | edge p => P p
    | _ => True

/-- Whether the pattern matches depends on the text that it takes, and not on what is around. -/
abbrev Edgeless (a : Pattern ι) : Prop := EdgesAre (fun _ => False) a

/-! ## Shapes -/

theorem leaves_maybe : Leaves (maybe a) text rest ↔ Leaves a text rest ∨ text = rest := Iff.rfl

theorem leaves_char : Leaves (char c : Pattern ι) text rest ↔ text = c :: rest := by
  simp [char, Leaves]

theorem leaves_many : Leaves (many p : Pattern ι) text rest ↔
    ∃ r : Run p, text = r.text ++ rest := by
  constructor
  · rintro ⟨xs, h, hxs⟩
    exact ⟨⟨xs, hxs⟩, h⟩
  · rintro ⟨r, h⟩
    exact ⟨r.text, h, r.all⟩

theorem leaves_few : Leaves (few p : Pattern ι) text rest ↔ ∃ r : Run p, text = r.text ++ rest :=
  leaves_many (ι := ι)

theorem leaves_run1 : Leaves (oneOrMore p : Pattern ι) text rest ↔
    ∃ r : Run1 p, text = r.text ++ rest := by
  rw [leaves_oneOrMore]
  constructor
  · rintro ⟨xs, h, hne, hxs⟩
    exact ⟨⟨⟨xs, hxs⟩, hne⟩, h⟩
  · rintro ⟨r, h⟩
    exact ⟨r.text, h, r.ne_nil, r.all⟩

/-! ## Every shape is tried -/

theorem exists_mem_manyEnds (hxs : ∀ c ∈ xs, p c = true) (n : Nat) (passed rest : List Char) :
    ∃ e ∈ manyEnds p n passed (xs ++ rest), e.1.rest = rest := by
  induction xs generalizing n passed with
  | nil =>
    refine ⟨(⟨passed, rest⟩, n), ?_, rfl⟩
    cases rest with
    | nil => exact List.mem_singleton_self _
    | cons c rest => by_cases hc : p c <;> simp [manyEnds, hc]
  | cons x xs ih =>
    obtain ⟨e, he, hrest⟩ :=
      ih (fun c hc => hxs c (List.mem_cons_of_mem x hc)) (n + 1) (x :: passed)
    refine ⟨e, ?_, hrest⟩
    rw [List.cons_append, manyEnds, if_pos (hxs x List.mem_cons_self)]
    exact List.mem_append_left _ he

theorem exists_mem_fewEnds (hxs : ∀ c ∈ xs, p c = true) (n : Nat) (passed rest : List Char) :
    ∃ e ∈ fewEnds p n passed (xs ++ rest), e.1.rest = rest := by
  induction xs generalizing n passed with
  | nil =>
    refine ⟨(⟨passed, rest⟩, n), ?_, rfl⟩
    cases rest <;> simp [fewEnds]
  | cons x xs ih =>
    obtain ⟨e, he, hrest⟩ :=
      ih (fun c hc => hxs c (List.mem_cons_of_mem x hc)) (n + 1) (x :: passed)
    refine ⟨e, ?_, hrest⟩
    rw [List.cons_append, fewEnds, if_pos (hxs x List.mem_cons_self)]
    exact List.mem_cons_of_mem _ he

/-- Whatever a pattern can leave of a text is left by one of the ways to match it. -/
theorem exists_mem_ends (ha : Edgeless a) (h : Leaves a s.cursor.rest rest) :
    ∃ t ∈ a.ends s, t.cursor.rest = rest := by
  induction a generalizing s rest with
  | empty => exact ⟨s, List.mem_singleton_self s, h⟩
  | one p =>
    obtain ⟨c, htext, hc⟩ := h
    rw [ends, htext]
    simp [hc, Progress.moveTo]
  | many p =>
    obtain ⟨xs, htext, hxs⟩ := h
    obtain ⟨e, he, hrest⟩ := exists_mem_manyEnds hxs s.size s.cursor.passed rest
    rw [← htext] at he
    exact ⟨_, List.mem_map_of_mem he, hrest⟩
  | few p =>
    obtain ⟨xs, htext, hxs⟩ := h
    obtain ⟨e, he, hrest⟩ := exists_mem_fewEnds hxs s.size s.cursor.passed rest
    rw [← htext] at he
    exact ⟨_, List.mem_map_of_mem he, hrest⟩
  | edge p => exact ha.elim
  | seq a b iha ihb =>
    obtain ⟨middle, hfirst, hsecond⟩ := h
    obtain ⟨u, hu, rfl⟩ := iha ha.1 hfirst
    obtain ⟨t, ht, hrest⟩ := ihb ha.2 hsecond
    exact ⟨t, List.mem_flatMap.mpr ⟨u, hu, ht⟩, hrest⟩
  | alt a b iha ihb =>
    rcases h with h | h
    · obtain ⟨t, ht, hrest⟩ := iha ha.1 h
      exact ⟨t, List.mem_append_left _ ht, hrest⟩
    · obtain ⟨t, ht, hrest⟩ := ihb ha.2 h
      exact ⟨t, List.mem_append_right _ ht, hrest⟩
  | capture label a ih =>
    obtain ⟨t, ht, hrest⟩ := ih ha.2 h
    exact ⟨_, List.mem_map_of_mem ht, hrest⟩

theorem isSome_at?_iff (ha : Edgeless a) (passed text : List Char) :
    (a.at? ⟨passed, text⟩).isSome = true ↔ ∃ rest, Leaves a text rest := by
  rw [at?_eq_head?, Option.isSome_map, List.isSome_head?]
  constructor
  · intro h
    obtain ⟨t, ht⟩ := List.exists_mem_of_ne_nil _ h
    exact ⟨t.cursor.rest, leaves_of_mem_ends ht⟩
  · rintro ⟨rest, h⟩
    obtain ⟨t, ht, -⟩ := exists_mem_ends ha (s := ⟨⟨passed, text⟩, 0, []⟩) h
    exact List.ne_nil_of_mem ht

/-! ## Search -/

/-- A match anywhere in a text is enough for the search to find one. -/
theorem findFrom?_isSome_of_at? (h : (a.at? ⟨xs.reverse ++ passed, rest⟩).isSome = true) :
    (a.findFrom? passed (xs ++ rest)).isSome = true := by
  induction xs generalizing passed with
  | nil =>
    obtain ⟨m, hm⟩ := Option.isSome_iff_exists.mp h
    exact Option.isSome_of_eq_some (findFrom?_of_at? hm)
  | cons x xs ih =>
    rw [List.cons_append, findFrom?]
    split
    · rfl
    · exact ih (by simpa using h)

theorem exists_at?_of_findFrom? (h : (a.findFrom? passed text).isSome = true) :
    ∃ xs rest, text = xs ++ rest ∧ (a.at? ⟨xs.reverse ++ passed, rest⟩).isSome = true := by
  fun_induction findFrom? a passed text with
  | case1 passed => exact ⟨[], [], rfl, h⟩
  | case2 passed c rest m hm => exact ⟨[], c :: rest, rfl, Option.isSome_of_eq_some hm⟩
  | case3 passed c rest hm ih =>
    obtain ⟨xs, rest', rfl, hat⟩ := ih h
    exact ⟨c :: xs, rest', rfl, by simpa using hat⟩

/-- A pattern without edges occurs in a text iff it has a shape that stands somewhere in it. -/
theorem occursIn_iff (ha : Edgeless a) (text : List Char) :
    a.occursIn text = true ↔ ∃ before found rest, text = before ++ found ∧ Leaves a found rest := by
  constructor
  · intro h
    obtain ⟨before, found, rfl, hat⟩ := exists_at?_of_findFrom? h
    obtain ⟨rest, hrest⟩ := (isSome_at?_iff ha _ _).mp hat
    exact ⟨before, found, rest, rfl, hrest⟩
  · rintro ⟨before, found, rest, rfl, hrest⟩
    exact findFrom?_isSome_of_at? ((isSome_at?_iff ha _ _).mpr ⟨rest, hrest⟩)

end DefaultImports.Pattern
