import DefaultImports.Report.Json
import DefaultImports.Toml.Scalar
import Mathlib.Algebra.Group.Nat.Defs
import Mathlib.Data.List.Forall2

/-! The texts of JSON values, and that rendering gives one. Main statement: `document_render`. -/
namespace DefaultImports.JsonValue

/-- What may stand between the parts of a document. -/
def Blank (t : List Char) : Prop := ∀ c ∈ t, c ∈ [' ', '\t', '\n', '\r']

/-- The number of four hexadecimal digits. -/
structure SpellsUnit (n : Nat) (t : List Char) : Prop where
  length : t.length = 4
  digits : ∀ c ∈ t, Toml.isHexDigit c = true
  value : Toml.natOf 16 t = n

/-- The letters after a backslash, and what they stand for. -/
def shortEscapes : List (Char × Char) :=
  [('"', '"'), ('\\', '\\'), ('/', '/'), ('b', '\x08'), ('f', '\x0c'), ('n', '\n'), ('r', '\r'),
    ('t', '\t')]

/-- A character of a string. One above 16 bits may be spelled as a pair of surrogates. -/
inductive SpellsChar : Char → List Char → Prop where
  | plain {c : Char} (hcontrol : 0x20 ≤ c.toNat) (hmark : c ≠ '"') (hescape : c ≠ '\\') :
      SpellsChar c [c]
  | short {letter c : Char} (h : (letter, c) ∈ shortEscapes) : SpellsChar c ['\\', letter]
  | unit {c : Char} {t : List Char} (h : SpellsUnit c.toNat t) : SpellsChar c ('\\' :: 'u' :: t)
  | pair {c : Char} {high low : Nat} {t u : List Char} (hhigh : high < 0x400) (hlow : low < 0x400)
      (hvalue : c.toNat = 0x10000 + high * 0x400 + low) (ht : SpellsUnit (0xD800 + high) t)
      (hu : SpellsUnit (0xDC00 + low) u) :
      SpellsChar c ('\\' :: 'u' :: t ++ '\\' :: 'u' :: u)

inductive SpellsChars : List Char → List Char → Prop where
  | nil : SpellsChars [] []
  | cons {c : Char} {cs t u : List Char} (hc : SpellsChar c t) (hcs : SpellsChars cs u) :
      SpellsChars (c :: cs) (t ++ u)

inductive SpellsString : String → List Char → Prop where
  | quoted {s : String} {t : List Char} (h : SpellsChars s.toList t) :
      SpellsString s ('"' :: t ++ ['"'])

/-- A number in decimal digits, without leading zeros. -/
structure SpellsNat (n : Nat) (t : List Char) : Prop where
  nonempty : t ≠ []
  digits : ∀ c ∈ t, c.isDigit = true
  leading : t.head? = some '0' → t = ['0']
  value : Nat.ofDigitChars 10 t 0 = n

inductive SpellsInt : Int → List Char → Prop where
  | nonneg {n : Nat} {t : List Char} (h : SpellsNat n t) : SpellsInt n t
  | neg {n : Nat} {t : List Char} (h : SpellsNat n t) : SpellsInt (-n) ('-' :: t)

/-- Parts with commas between them, and with blanks around each. -/
inductive SpellsParts {α : Type} (Part : α → List Char → Prop) : List α → List Char → Prop where
  | last {x : α} {before t after : List Char} (hbefore : Blank before) (hx : Part x t)
      (hafter : Blank after) : SpellsParts Part [x] (before ++ t ++ after)
  | more {x : α} {xs : List α} {before t after u : List Char} (hbefore : Blank before)
      (hx : Part x t) (hafter : Blank after) (hxs : SpellsParts Part xs u) :
      SpellsParts Part (x :: xs) (before ++ t ++ after ++ ',' :: u)

mutual

/-- A text of a value. The logical constants and fractions are left out: no value has them. -/
inductive Spells : JsonValue → List Char → Prop where
  | null : Spells .null ['n', 'u', 'l', 'l']
  | int {n : Int} {t : List Char} (h : SpellsInt n t) : Spells (.int n) t
  | str {s : String} {t : List Char} (h : SpellsString s t) : Spells (.str s) t
  | emptyList {gap : List Char} (h : Blank gap) : Spells (.list []) ('[' :: gap ++ [']'])
  | list {items : List JsonValue} {t : List Char} (h : SpellsParts Spells items t) :
      Spells (.list items) ('[' :: t ++ [']'])
  | emptyObject {gap : List Char} (h : Blank gap) :
      Spells (.object []) ('\x7b' :: gap ++ ['\x7d'])
  | object {fields : List (String × JsonValue)} {t : List Char}
      (h : SpellsParts SpellsField fields t) : Spells (.object fields) ('\x7b' :: t ++ ['\x7d'])

inductive SpellsField : String × JsonValue → List Char → Prop where
  | field {key : String} {v : JsonValue} {t before after u : List Char} (hkey : SpellsString key t)
      (hbefore : Blank before) (hafter : Blank after) (hv : Spells v u) :
      SpellsField (key, v) (t ++ before ++ ':' :: (after ++ u))

end

/-- A document holds one value, and beside it only blanks. -/
inductive Document (v : JsonValue) : List Char → Prop where
  | intro {before t after : List Char} (hbefore : Blank before) (hv : Spells v t)
      (hafter : Blank after) : Document v (before ++ t ++ after)

theorem brace_mem_of_object {fields : List (String × JsonValue)} {t : List Char}
    (h : Document (.object fields) t) : '\x7b' ∈ t := by
  obtain ⟨-, hv, -⟩ := h
  cases hv <;> simp

/-! ## Strings -/

theorem isHexDigit_digitChar {n : Nat} (h : n < 16) : Toml.isHexDigit (Nat.digitChar n) = true := by
  decide +revert

theorem digitValue_digitChar {n : Nat} (h : n < 16) : Toml.digitValue (Nat.digitChar n) = n := by
  decide +revert

theorem isHexDigit_of_mem_hex {width n : Nat} {c : Char} (h : c ∈ Text.hex width n) :
    Toml.isHexDigit c = true := by
  induction width generalizing n with
  | zero => cases h
  | succ width ih =>
    rcases List.mem_append.mp h with h | h
    · exact ih h
    · obtain rfl := List.mem_singleton.mp h
      exact isHexDigit_digitChar (Nat.mod_lt n (by decide))

theorem length_hex (width n : Nat) : (Text.hex width n).length = width := by
  induction width generalizing n with
  | zero => rfl
  | succ width ih => simp [Text.hex, ih]

theorem natOf_hex (width n : Nat) : Toml.natOf 16 (Text.hex width n) = n % 16 ^ width := by
  induction width generalizing n with
  | zero => simp [Text.hex, Toml.natOf, Text.ofDigits, Nat.mod_one]
  | succ width ih =>
    have hdigit := digitValue_digitChar (Nat.mod_lt n (by decide : 0 < 16))
    have hsplit : n % 16 ^ (width + 1) = n % 16 + 16 * (n / 16 % 16 ^ width) := by
      rw [Nat.pow_succ', Nat.mod_mul]
    have hrest := ih (n / 16)
    simp only [Toml.natOf, Text.ofDigits] at hrest ⊢
    simp only [Text.hex, List.map_append, List.foldl_append, List.map_cons, List.map_nil,
      List.foldl_cons, List.foldl_nil, hrest, hdigit, hsplit]
    omega

theorem spellsUnit_hex {n : Nat} (h : n < 0x10000) : SpellsUnit n (Text.hex 4 n) where
  length := length_hex 4 n
  digits _ hc := isHexDigit_of_mem_hex hc
  value := by rw [natOf_hex, Nat.mod_eq_of_lt (by simpa using h)]

theorem spellsChar_escape (c : Char) : SpellsChar c (escape c) := by
  unfold escape
  dsimp only
  split
  · rename_i h
    rcases (by simpa using h : c = '"' ∨ c = '\\') with rfl | rfl <;>
      exact .short (by decide)
  iterate 3
    split
    · rename_i h
      obtain rfl := eq_of_beq h
      exact .short (by decide)
  split
  · rename_i h
    obtain rfl : c = '\x08' := Char.toNat_inj.mp (eq_of_beq h)
    exact .short (by decide)
  split
  · rename_i h
    obtain rfl : c = '\x0c' := Char.toNat_inj.mp (eq_of_beq h)
    exact .short (by decide)
  split
  · rename_i hmark _ _ _ _ _ h
    simp only [Bool.or_eq_true, beq_iff_eq, not_or] at hmark
    simp only [Bool.and_eq_true, decide_eq_true_eq] at h
    exact .plain h.1 hmark.1 hmark.2
  split
  · rename_i h
    exact .unit (spellsUnit_hex h)
  · rename_i h
    have hmax : c.toNat < 0x110000 := by
      rcases c.valid with hlow | hhigh
      · exact Nat.lt_trans hlow (by decide)
      · exact hhigh.2
    exact .pair (by omega) (Nat.mod_lt _ (by decide)) (by omega) (spellsUnit_hex (by omega))
      (spellsUnit_hex (by omega))

theorem spellsString_quoted (s : String) : SpellsString s (quoted s).toList := by
  have hchars : ∀ cs : List Char, SpellsChars cs (cs.flatMap escape) := by
    intro cs
    induction cs with
    | nil => exact .nil
    | cons c cs ih => exact .cons (spellsChar_escape c) ih
  rw [quoted, String.toList_ofList]
  exact .quoted (hchars s.toList)

/-! ## Numbers -/

theorem head?_toDigits_ne_zero {n : Nat} (h : 0 < n) : (Nat.toDigits 10 n).head? ≠ some '0' := by
  induction n using Nat.strongRecOn with
  | ind n ih =>
    rw [Nat.toDigits_eq_if (by decide)]
    split
    · rename_i hlt
      have hdigit : ∀ d < 10, 0 < d → [Nat.digitChar d].head? ≠ some '0' := by decide
      exact hdigit n hlt h
    · rename_i hge
      have hrest := ih (n / 10) (by omega) (by omega)
      rwa [List.head?_append_of_ne_nil _ Nat.toDigits_ne_nil]

theorem spellsNat_toString (n : Nat) : SpellsNat n (toString n).toList := by
  rw [Nat.toString_eq_ofList_toDigits, String.toList_ofList]
  constructor
  case nonempty => exact Nat.toDigits_ne_nil
  case digits =>
    intro c hc
    exact Nat.isDigit_of_mem_toDigits (by decide) (by decide) hc
  case leading =>
    intro hhead
    rcases Nat.eq_zero_or_pos n with rfl | hpos
    · rfl
    · exact absurd hhead (head?_toDigits_ne_zero hpos)
  case value => exact Nat.ofDigitChars_ten_toDigits

theorem spellsInt_toString (n : Int) : SpellsInt n (toString n).toList := by
  cases n with
  | ofNat n => exact .nonneg (spellsNat_toString n)
  | negSucc n =>
    have htext : (toString (Int.negSucc n)).toList = '-' :: (toString (n + 1)).toList := by
      rw [show toString (Int.negSucc n) = "-" ++ toString (n + 1) from rfl, String.toList_append]
      rfl
    rw [htext]
    exact .neg (spellsNat_toString (n + 1))

/-! ## Lists and objects -/

theorem blank_newline (depth : Nat) : Blank (newline depth).toList := by
  intro c hc
  simp only [newline, String.toList_append, String.toList_ofList, List.mem_append,
    List.mem_replicate] at hc
  rcases hc with hc | ⟨-, rfl⟩
  · rw [show "\n".toList = ['\n'] from rfl, List.mem_singleton] at hc
    simp [hc]
  · simp

theorem blank_nil : Blank [] := fun _ h => nomatch h

section

variable {α : Type} {Part : α → List Char → Prop} {xs : List α} {texts : List String}

theorem spellsParts_intercalate {gap after : String} (hgap : Blank gap.toList)
    (hafter : Blank after.toList) (hne : texts ≠ [])
    (h : List.Forall₂ (fun x t => Part x t.toList) xs texts) :
    SpellsParts Part xs (gap ++ ("," ++ gap).intercalate texts ++ after).toList := by
  simp only [String.toList_append, String.toList_intercalate]
  induction h with
  | nil => exact absurd rfl hne
  | @cons x t xs texts hx hrest ih =>
    cases hrest with
    | nil =>
      rw [List.map_cons, List.map_nil, List.intercalate_singleton]
      exact .last hgap hx hafter
    | @cons x₂ t₂ xs texts hx₂ hrest =>
      have hmore := SpellsParts.more hgap hx blank_nil (ih (by simp))
      simpa [List.intercalate_cons_cons] using hmore

/-- A block is empty, or has its parts between the two marks. -/
theorem spells_block {opening closing : String} {depth : Nat} {Whole : List Char → Prop}
    (h : List.Forall₂ (fun x t => Part x t.toList) xs texts)
    (hempty : xs = [] → Whole (opening ++ closing).toList)
    (hparts : ∀ t, SpellsParts Part xs t → Whole (opening.toList ++ t ++ closing.toList)) :
    Whole (block opening closing depth texts).toList := by
  unfold block
  split
  · rename_i hnil
    rw [List.isEmpty_iff] at hnil
    subst hnil
    exact hempty (List.forall₂_nil_right_iff.mp h)
  · rename_i hne
    rw [List.isEmpty_iff] at hne
    have ht := spellsParts_intercalate (blank_newline (depth + 1)) (blank_newline depth) hne h
    simpa using hparts _ ht

end

mutual

theorem spells_renderAt (depth : Nat) : (v : JsonValue) → Spells v (renderAt depth v).toList
  | .null => by simpa [renderAt] using Spells.null
  | .int n => .int (spellsInt_toString n)
  | .str s => .str (spellsString_quoted s)
  | .list items => by
    refine spells_block (spells_renderItems (depth + 1) items) ?_ fun _ => .list
    rintro rfl
    exact .emptyList blank_nil
  | .object fields => by
    refine spells_block (spells_renderFields (depth + 1) fields) ?_ fun _ => .object
    rintro rfl
    exact .emptyObject blank_nil

theorem spells_renderItems (depth : Nat) :
    (items : List JsonValue) →
      List.Forall₂ (fun v t => Spells v t.toList) items (renderItems depth items)
  | [] => .nil
  | v :: rest => .cons (spells_renderAt depth v) (spells_renderItems depth rest)

theorem spells_renderFields (depth : Nat) :
    (fields : List (String × JsonValue)) →
      List.Forall₂ (fun f t => SpellsField f t.toList) fields (renderFields depth fields)
  | [] => .nil
  | (key, v) :: rest => by
    refine .cons ?_ (spells_renderFields depth rest)
    have hgap : Blank [' '] := by simp [Blank]
    simpa using SpellsField.field (spellsString_quoted key) blank_nil hgap (spells_renderAt depth v)

end

/-- A value is rendered as a document of itself, also with a line break at the end. -/
theorem document_render (v : JsonValue) :
    Document v v.render.toList ∧ Document v (v.render ++ "\n").toList := by
  have hv : Spells v v.render.toList := spells_renderAt 0 v
  have hbreak : Blank "\n".toList := by simp [Blank]
  constructor
  · simpa using Document.intro blank_nil hv blank_nil
  · simpa using Document.intro blank_nil hv hbreak

end DefaultImports.JsonValue
