import DefaultImports.Pattern.Basic

/-! Properties of a pattern that are properties of each of its parts, and how they are read off the
way in which a pattern is put together. -/
namespace DefaultImports.Pattern

variable {ι : Type} {Q : Pattern ι → Prop} {p : Char → Bool} {a b : Pattern ι} {w : String}

/-- `Q` holds of every part of the pattern that is not made of two others. -/
def EveryPart (Q : Pattern ι → Prop) : Pattern ι → Prop
  | seq a b | alt a b => EveryPart Q a ∧ EveryPart Q b
  | capture label a => Q (capture label a) ∧ EveryPart Q a
  | a => Q a

@[simp] theorem everyPart_append : EveryPart Q (a ++ b) ↔ EveryPart Q a ∧ EveryPart Q b := Iff.rfl

@[simp] theorem everyPart_orElse : EveryPart Q (a <|> b) ↔ EveryPart Q a ∧ EveryPart Q b := Iff.rfl

@[simp] theorem everyPart_maybe : EveryPart Q (maybe a) ↔ EveryPart Q a ∧ Q empty := Iff.rfl

@[simp] theorem everyPart_capture {label : ι} :
    EveryPart Q (capture label a) ↔ Q (capture label a) ∧ EveryPart Q a := Iff.rfl

@[simp] theorem everyPart_edge {p : Cursor → Bool} : EveryPart Q (edge p) ↔ Q (edge p) := Iff.rfl

@[simp] theorem everyPart_one : EveryPart Q (one p) ↔ Q (one p) := Iff.rfl

@[simp] theorem everyPart_many : EveryPart Q (many p) ↔ Q (many p) := Iff.rfl

@[simp] theorem everyPart_few : EveryPart Q (few p) ↔ Q (few p) := Iff.rfl

@[simp] theorem everyPart_oneOrMore : EveryPart Q (oneOrMore p) ↔ Q (one p) ∧ Q (many p) := Iff.rfl

@[simp] theorem everyPart_spaces : EveryPart Q spaces ↔ Q (many Text.isSpace) := Iff.rfl

@[simp] theorem everyPart_someSpace :
    EveryPart Q someSpace ↔ Q (one Text.isSpace) ∧ Q (many Text.isSpace) := Iff.rfl

@[simp] theorem everyPart_char {c : Char} : EveryPart Q (char c) ↔ Q (one (· == c)) := Iff.rfl

theorem everyPart_each (same : Char → Char → Bool) (cs : List Char) :
    EveryPart Q (each same cs) ↔ (cs = [] → Q empty) ∧ ∀ c ∈ cs, Q (one (same c)) := by
  induction cs with
  | nil => simp [each, EveryPart]
  | cons c cs ih =>
    cases cs with
    | nil => simp [each]
    | cons d cs => simp [each, ih]

@[simp] theorem everyPart_word : EveryPart Q (word w) ↔
    (w.toList = [] → Q empty) ∧ ∀ c ∈ w.toList, Q (one (· == c)) :=
  everyPart_each _ _

@[simp] theorem everyPart_anyCase : EveryPart Q (anyCase w) ↔
    (w.toList = [] → Q empty) ∧ ∀ c ∈ w.toList, Q (one (isCaseOf c)) :=
  everyPart_each _ _

theorem everyPart_of_forall (h : ∀ a, Q a) (a : Pattern ι) : EveryPart Q a := by
  induction a with
  | seq a b iha ihb | alt a b iha ihb => exact ⟨iha, ihb⟩
  | capture label a ih => exact ⟨h _, ih⟩
  | empty | one | many | few | edge => exact h _

end DefaultImports.Pattern
