import DefaultImports.Proofs.Pattern.Occurrence
import Mathlib.Data.List.Forall2

/-! Shapes of patterns: a pattern before an edge, letter by letter, and in texts whose characters a
pattern does not tell apart. -/
namespace DefaultImports.Pattern

open Text

variable {ι : Type} {a : Pattern ι} {q : Cursor → Bool} {f : Char → Char} {text rest : List Char}

/-- A pattern without edges, and then an edge: they occur where the pattern has a shape that stands
before a place which passes the test. -/
theorem occursIn_append_edge_iff (ha : Edgeless a) (text : List Char) :
    (a ++ edge q).occursIn text = true ↔ ∃ before found rest, text = before ++ (found ++ rest) ∧
      Leaves a (found ++ rest) rest ∧ q ⟨found.reverse ++ before.reverse, rest⟩ = true := by
  have hends (s t : Progress ι) :
      t ∈ (a ++ edge q).ends s ↔ t ∈ a.ends s ∧ q t.cursor = true := by
    rw [ends_append, List.mem_flatMap]
    constructor
    · rintro ⟨u, hu, ht⟩
      rw [ends] at ht
      split at ht
      · obtain rfl := List.mem_singleton.mp ht
        exact ⟨hu, ‹_›⟩
      · cases ht
    · rintro ⟨ht, hq⟩
      exact ⟨t, ht, by simp [ends, hq]⟩
  constructor
  · intro h
    obtain ⟨before, text, rfl, hat⟩ := exists_at?_of_findFrom? h
    rw [at?_eq_head?, Option.isSome_map, List.isSome_head?] at hat
    obtain ⟨t, ht⟩ := List.exists_mem_of_ne_nil _ hat
    obtain ⟨hmem, hq⟩ := (hends _ t).mp ht
    obtain ⟨found, htext, hcursor⟩ := cursor_of_mem_ends hmem
    have hleaves := leaves_of_mem_ends hmem
    obtain rfl : text = found ++ t.cursor.rest := htext
    refine ⟨before, found, t.cursor.rest, rfl, hleaves, ?_⟩
    rw [hcursor] at hq
    simpa using hq
  · rintro ⟨before, found, rest, rfl, hleaves, hq⟩
    refine findFrom?_isSome_of_at? ?_
    rw [at?_eq_head?, Option.isSome_map, List.isSome_head?]
    obtain ⟨t, ht, rfl⟩ :=
      exists_mem_ends ha (s := ⟨⟨before.reverse ++ [], found ++ rest⟩, 0, []⟩) hleaves
    obtain ⟨xs, htext, hcursor⟩ := cursor_of_mem_ends ht
    obtain rfl : found = xs := List.append_cancel_right htext
    refine List.ne_nil_of_mem ((hends _ t).mpr ⟨ht, ?_⟩)
    rw [hcursor]
    simpa using hq

theorem leaves_each_iff (same : Char → Char → Bool) (cs : List Char) :
    Leaves (each same cs : Pattern ι) text rest ↔
      ∃ xs, text = xs ++ rest ∧ List.Forall₂ (fun c d => same c d = true) cs xs := by
  induction cs generalizing text with
  | nil => simp [each, Leaves]
  | cons c cs ih =>
    have hone (middle : List Char) : Leaves (one (same c) : Pattern ι) text middle ↔
        ∃ d, text = d :: middle ∧ same c d = true := Iff.rfl
    cases cs with
    | nil =>
      rw [each, hone]
      constructor
      · rintro ⟨d, rfl, hd⟩
        exact ⟨[d], rfl, .cons hd .nil⟩
      · rintro ⟨xs, rfl, hxs⟩
        cases hxs with
        | cons hd hnil =>
          cases hnil
          exact ⟨_, rfl, hd⟩
    | cons e cs =>
      have hseq : Leaves (each same (c :: e :: cs) : Pattern ι) text rest ↔
          ∃ middle, Leaves (one (same c) : Pattern ι) text middle ∧
            Leaves (each same (e :: cs) : Pattern ι) middle rest := Iff.rfl
      simp only [hseq, hone, ih]
      constructor
      · rintro ⟨_, ⟨d, rfl, hd⟩, xs, rfl, hxs⟩
        exact ⟨d :: xs, rfl, .cons hd hxs⟩
      · rintro ⟨_, rfl, _ | ⟨hd, hxs⟩⟩
        exact ⟨_, ⟨_, rfl, hd⟩, _, rfl, hxs⟩

/-! ## Characters that a pattern does not tell apart -/

/-- No class of the pattern tells a character from its image. -/
abbrev Blind (f : Char → Char) : Pattern ι → Prop :=
  EveryPart fun
    | one p | many p | few p => ∀ c, p (f c) = p c
    | _ => True

/-- The shapes of a pattern at the start of a text are those at the start of its image. -/
theorem leaves_map_iff (ha : Blind f a) :
    Leaves a (text.map f) rest ↔ ∃ left, rest = left.map f ∧ Leaves a text left := by
  induction a generalizing text rest with
  | empty | edge =>
    constructor
    · rintro rfl
      exact ⟨text, rfl, rfl⟩
    · rintro ⟨_, rfl, rfl⟩
      rfl
  | one p =>
    have hp : ∀ c, p (f c) = p c := ha
    constructor
    · rintro ⟨d, htext, hd⟩
      obtain ⟨c, left, rfl, rfl, rfl⟩ := List.map_eq_cons_iff.mp htext
      exact ⟨left, rfl, c, rfl, (hp c).symm.trans hd⟩
    · rintro ⟨left, rfl, c, rfl, hc⟩
      exact ⟨f c, rfl, (hp c).trans hc⟩
  | many p | few p =>
    have hp : ∀ c, p (f c) = p c := ha
    constructor
    · rintro ⟨ys, htext, hys⟩
      obtain ⟨xs, left, rfl, rfl, rfl⟩ := List.map_eq_append_iff.mp htext
      exact ⟨left, rfl, xs, rfl, fun c hc => (hp c).symm.trans (hys _ (List.mem_map_of_mem hc))⟩
    · rintro ⟨left, rfl, xs, rfl, hxs⟩
      refine ⟨xs.map f, List.map_append, ?_⟩
      intro d hd
      obtain ⟨c, hc, rfl⟩ := List.mem_map.mp hd
      exact (hp c).trans (hxs c hc)
  | seq a b iha ihb =>
    constructor
    · rintro ⟨_, hfirst, hsecond⟩
      obtain ⟨middle, rfl, hfirst'⟩ := (iha ha.1).mp hfirst
      obtain ⟨left, rfl, hsecond'⟩ := (ihb ha.2).mp hsecond
      exact ⟨left, rfl, middle, hfirst', hsecond'⟩
    · rintro ⟨left, rfl, middle, hfirst, hsecond⟩
      exact ⟨middle.map f, (iha ha.1).mpr ⟨middle, rfl, hfirst⟩,
        (ihb ha.2).mpr ⟨left, rfl, hsecond⟩⟩
  | alt a b iha ihb =>
    constructor
    · rintro (h | h)
      · obtain ⟨left, rfl, hleft⟩ := (iha ha.1).mp h
        exact ⟨left, rfl, .inl hleft⟩
      · obtain ⟨left, rfl, hleft⟩ := (ihb ha.2).mp h
        exact ⟨left, rfl, .inr hleft⟩
    · rintro ⟨left, rfl, h | h⟩
      · exact .inl ((iha ha.1).mpr ⟨left, rfl, h⟩)
      · exact .inr ((ihb ha.2).mpr ⟨left, rfl, h⟩)
  | capture label a ih => exact ih ha.2

end DefaultImports.Pattern
