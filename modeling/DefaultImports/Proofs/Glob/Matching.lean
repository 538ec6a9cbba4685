import DefaultImports.Glob.Basic
import Mathlib.Data.List.Basic

/-! What a wildcard pattern matches, told without the table of answers that decides it. Main
statement: `matchesAll_iff`. -/
namespace DefaultImports.Glob

variable {g : Glob} {item : Item} {c : Char} {text : List Char}

/-- A pattern takes a text item by item: a star any part of it, another item one character. -/
inductive Takes : Glob → List Char → Prop
  | nil : Takes [] []
  | star {g : Glob} {rest : List Char} (skipped : List Char) (h : Takes g rest) :
      Takes (.star :: g) (skipped ++ rest)
  | one {item : Item} {g : Glob} {c : Char} {rest : List Char} (hc : item.accepts c = true)
      (h : Takes g rest) : Takes (item :: g) (c :: rest)

theorem takes_nil_iff : Takes [] text ↔ text = [] := by
  constructor
  · rintro ⟨⟩
    rfl
  · rintro rfl
    exact .nil

theorem takes_star_iff :
    Takes (.star :: g) text ↔ ∃ skipped rest, text = skipped ++ rest ∧ Takes g rest := by
  constructor
  · intro h
    cases h with
    | star skipped h => exact ⟨skipped, _, rfl, h⟩
    | one hc h => cases hc
  · rintro ⟨skipped, rest, rfl, h⟩
    exact .star skipped h

theorem takes_cons_iff (hitem : item ≠ .star) :
    Takes (item :: g) text ↔ ∃ c rest, text = c :: rest ∧ item.accepts c = true ∧ Takes g rest := by
  constructor
  · intro h
    cases h with
    | star skipped h => exact absurd rfl hitem
    | one hc h => exact ⟨_, _, rfl, hc, h⟩
  · rintro ⟨c, rest, rfl, hc, h⟩
    exact .one hc h

/-! ## The table of answers -/

theorem ends_cons_of_ne_star (hitem : item ≠ .star) (text : List Char) (g : Glob) :
    ends text (item :: g) =
      List.zipWith (fun c b => item.accepts c && b) text (ends text g).tail ++ [false] := by
  cases item with
  | star => exact absurd rfl hitem
  | any | char _ | set _ => rfl

theorem length_starEnds (bs : List Bool) : (starEnds bs).length = bs.length := by
  induction bs with
  | nil => rfl
  | cons b rest ih => simp [starEnds, ih]

theorem length_ends (text : List Char) (g : Glob) : (ends text g).length = text.length + 1 := by
  induction g with
  | nil => simp [ends]
  | cons item g ih =>
    by_cases hitem : item = .star
    · rw [hitem, ends, length_starEnds, ih]
    · simp [ends_cons_of_ne_star hitem, ih]

/-- The answer for the whole text stands first. -/
theorem ends_eq_cons (text : List Char) (g : Glob) :
    ends text g = matchesAll g text :: (ends text g).tail := by
  have hne : ends text g ≠ [] := by
    intro h
    simpa [h] using length_ends text g
  obtain ⟨b, rest, h⟩ := List.exists_cons_of_ne_nil hne
  simp [matchesAll, h]

/-- The answers for the end pieces of a text are those that follow the first. -/
theorem tail_ends_cons (c : Char) (text : List Char) (g : Glob) :
    (ends (c :: text) g).tail = ends text g := by
  induction g with
  | nil => rfl
  | cons item g ih =>
    by_cases hitem : item = .star
    · have hcons := ends_eq_cons (c :: text) g
      rw [ih] at hcons
      rw [hitem, ends, ends, hcons, starEnds, List.tail_cons]
    · rw [ends_cons_of_ne_star hitem, ends_cons_of_ne_star hitem, ih, ends_eq_cons text g]
      rfl

/-! ## One item at a time -/

theorem matchesAll_nil (text : List Char) : matchesAll [] text = text.isEmpty := by
  cases text <;> rfl

theorem matchesAll_star_nil (g : Glob) : matchesAll (.star :: g) [] = matchesAll g [] := by
  have htail : (ends [] g).tail = [] := by
    rw [← List.length_eq_zero_iff, List.length_tail, length_ends]
    rfl
  rw [matchesAll, ends, ends_eq_cons, htail]
  simp [starEnds]

/-- A star skips a character or lets the rest of the pattern have its turn. -/
theorem matchesAll_star_cons (c : Char) (text : List Char) (g : Glob) :
    matchesAll (.star :: g) (c :: text) =
      (matchesAll g (c :: text) || matchesAll (.star :: g) text) := by
  have hcons := ends_eq_cons (c :: text) g
  rw [tail_ends_cons] at hcons
  rw [matchesAll, ends, hcons, starEnds, List.headD_cons]
  rfl

theorem matchesAll_item_nil (hitem : item ≠ .star) (g : Glob) :
    matchesAll (item :: g) [] = false := by
  rw [matchesAll, ends_cons_of_ne_star hitem]
  rfl

theorem matchesAll_item_cons (hitem : item ≠ .star) (c : Char) (text : List Char) (g : Glob) :
    matchesAll (item :: g) (c :: text) = (item.accepts c && matchesAll g text) := by
  rw [matchesAll, ends_cons_of_ne_star hitem, tail_ends_cons, ends_eq_cons text g]
  rfl

/-- The table decides whether a pattern takes a text. -/
theorem matchesAll_iff (g : Glob) (text : List Char) :
    matchesAll g text = true ↔ Takes g text := by
  induction g generalizing text with
  | nil => rw [matchesAll_nil, takes_nil_iff, List.isEmpty_iff]
  | cons item g ih =>
    by_cases hitem : item = .star
    · subst hitem
      induction text with
      | nil => simp [matchesAll_star_nil, ih, takes_star_iff]
      | cons c text ihText =>
        rw [matchesAll_star_cons, Bool.or_eq_true, ih, ihText, takes_star_iff, takes_star_iff]
        constructor
        · rintro (h | ⟨skipped, rest, rfl, h⟩)
          · exact ⟨[], c :: text, rfl, h⟩
          · exact ⟨c :: skipped, rest, rfl, h⟩
        · rintro ⟨skipped, rest, htext, h⟩
          cases skipped with
          | nil => exact Or.inl (htext ▸ h)
          | cons d skipped =>
            obtain ⟨rfl, rfl⟩ := List.cons.inj htext
            exact Or.inr ⟨skipped, rest, rfl, h⟩
    · cases text with
      | nil => simp [matchesAll_item_nil hitem, takes_cons_iff hitem]
      | cons c text =>
        rw [matchesAll_item_cons hitem, Bool.and_eq_true, ih, takes_cons_iff hitem]
        constructor
        · rintro ⟨hc, h⟩
          exact ⟨c, text, rfl, hc, h⟩
        · rintro ⟨d, rest, htext, hc, h⟩
          obtain ⟨rfl, rfl⟩ := List.cons.inj htext
          exact ⟨hc, h⟩

/-! ## Two stars and a slash -/

/-- The pattern `**/x` takes a text if `x` takes what follows one of its slashes. -/
theorem takes_doubleStar_iff {rest : List Char} :
    Takes (parseFrom 0 ('*' :: '*' :: '/' :: rest)) text ↔
      ∃ before behind, text = before ++ '/' :: behind ∧ Takes (parseFrom 0 rest) behind := by
  have hparse : parseFrom 0 ('*' :: '*' :: '/' :: rest) =
      .star :: .star :: .char '/' :: parseFrom 0 rest := rfl
  have hslash : ∀ c, (Item.char '/').accepts c = true ↔ c = '/' := by
    intro c
    exact beq_iff_eq.trans eq_comm
  have hchar : Item.char '/' ≠ .star := nofun
  simp only [hparse, takes_star_iff, takes_cons_iff hchar, hslash]
  constructor
  · rintro ⟨u, _, rfl, v, _, rfl, _, behind, rfl, rfl, h⟩
    exact ⟨u ++ v, behind, by simp, h⟩
  · rintro ⟨before, behind, rfl, h⟩
    exact ⟨before, _, rfl, [], _, rfl, '/', behind, rfl, rfl, h⟩

end DefaultImports.Glob
