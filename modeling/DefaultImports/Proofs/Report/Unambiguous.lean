import DefaultImports.Proofs.Report.Document
import DefaultImports.Proofs.Text.Run

/-! No text is a document of two values: what stands at the front of a text, and where it ends, can
be read in one way only. Main statement: `eq_of_document`. -/
namespace DefaultImports.JsonValue

variable {c d x : Char} {cs ds t u r s before after : List Char}

/-! ## Strings -/

theorem eq_of_spellsUnit {n m : Nat} (ht : SpellsUnit n t) (hu : SpellsUnit m u)
    (h : t ++ r = u ++ s) : n = m ∧ r = s := by
  obtain ⟨rfl, rfl⟩ := List.append_inj h (ht.length.trans hu.length.symm)
  exact ⟨ht.value.symm.trans hu.value, rfl⟩

/-- A character that is not a backslash stands for itself. -/
theorem eq_of_plain (hu : SpellsChar d u) (hx : x ≠ '\\') (h : x :: r = u ++ s) :
    x = d ∧ r = s := by
  cases hu with
  | plain => simpa using h
  | short | unit | pair => exact absurd (List.cons.inj h).1 hx

/-- A backslash and a letter other than `u` are looked up. -/
theorem mem_shortEscapes (hu : SpellsChar d u) (hx : x ≠ 'u') (h : '\\' :: x :: r = u ++ s) :
    (x, d) ∈ shortEscapes ∧ r = s := by
  cases hu with
  | plain hcontrol hmark hescape => exact absurd (List.cons.inj h).1.symm hescape
  | short hletter =>
    obtain ⟨-, rfl, rfl⟩ : '\\' = '\\' ∧ x = _ ∧ r = s := by simpa using h
    exact ⟨hletter, rfl⟩
  | unit | pair => exact absurd (List.cons.inj (List.cons.inj h).2).1 hx

/-- Behind `\u` there is a number, and if it is that of a surrogate then there are two. -/
theorem unit_of_escape (hu : SpellsChar d u) (h : '\\' :: 'u' :: r = u ++ s) :
    (∃ v, SpellsUnit d.toNat v ∧ r = v ++ s) ∨
    ∃ high low v w, high < 0x400 ∧ low < 0x400 ∧ d.toNat = 0x10000 + high * 0x400 + low ∧
      SpellsUnit (0xD800 + high) v ∧ SpellsUnit (0xDC00 + low) w ∧
      r = v ++ '\\' :: 'u' :: (w ++ s) := by
  cases hu with
  | plain hcontrol hmark hescape => exact absurd (List.cons.inj h).1.symm hescape
  | short hletter =>
    have hother : ∀ p ∈ shortEscapes, 'u' ≠ p.1 := by decide
    exact absurd (List.cons.inj (List.cons.inj h).2).1 (hother _ hletter)
  | unit hv =>
    have hrest : r = _ ++ s := (List.cons.inj (List.cons.inj h).2).2
    exact .inl ⟨_, hv, hrest⟩
  | pair hhigh hlow hvalue hv hw =>
    exact .inr ⟨_, _, _, _, hhigh, hlow, hvalue, hv, hw, by simpa using h⟩

theorem not_surrogate (c : Char) : c.toNat < 0xD800 ∨ 0xDFFF < c.toNat := by
  rcases c.valid with h | h
  · exact .inl h
  · exact .inr h.1

theorem eq_of_spellsChar (ht : SpellsChar c t) (hu : SpellsChar d u) (h : t ++ r = u ++ s) :
    c = d ∧ r = s := by
  cases ht with
  | plain hcontrol hmark hescape => exact eq_of_plain hu hescape h
  | @short letter _ hletter =>
    have hother : ∀ p ∈ shortEscapes, p.1 ≠ 'u' := by decide
    have hsame : ∀ p ∈ shortEscapes, ∀ q ∈ shortEscapes, p.1 = q.1 → p.2 = q.2 := by decide
    obtain ⟨hletter', rfl⟩ := mem_shortEscapes hu (hother _ hletter) h
    exact ⟨hsame _ hletter _ hletter' rfl, rfl⟩
  | unit hv =>
    have hc := not_surrogate c
    rcases unit_of_escape hu h with ⟨v', hv', hr⟩ | ⟨high, low, v', w', hhigh, -, -, hv', -, hr⟩
    · obtain ⟨hvalue, rfl⟩ := eq_of_spellsUnit hv hv' hr
      exact ⟨Char.toNat_inj.mp hvalue, rfl⟩
    · have hvalue := (eq_of_spellsUnit hv hv' hr).1
      omega
  | @pair _ high low v w hhigh hlow hvalue hv hw =>
    have hd := not_surrogate d
    have hrest : '\\' :: 'u' :: (v ++ '\\' :: 'u' :: (w ++ r)) = u ++ s := by simpa using h
    rcases unit_of_escape hu hrest with ⟨v', hv', hr⟩ |
      ⟨high', low', v', w', hhigh', hlow', hvalue', hv', hw', hr⟩
    · have hsame := (eq_of_spellsUnit hv hv' hr).1
      omega
    · obtain ⟨hsame, hr⟩ := eq_of_spellsUnit hv hv' hr
      obtain ⟨hsame', rfl⟩ := eq_of_spellsUnit hw hw' (List.cons.inj (List.cons.inj hr).2).2
      exact ⟨Char.toNat_inj.mp (by omega), rfl⟩

/-- No character is spelled with a quotation mark in front. -/
theorem head_of_spellsChar (ht : SpellsChar c t) : ∃ x rest, t = x :: rest ∧ x ≠ '"' := by
  cases ht with
  | plain hcontrol hmark hescape => exact ⟨_, _, rfl, hmark⟩
  | short | unit | pair => exact ⟨_, _, rfl, by decide⟩

theorem eq_of_spellsChars (ht : SpellsChars cs t) (hu : SpellsChars ds u)
    (h : t ++ '"' :: r = u ++ '"' :: s) : cs = ds ∧ r = s := by
  induction ht generalizing ds u with
  | nil =>
    cases hu with
    | nil => exact ⟨rfl, (List.cons.inj h).2⟩
    | cons hd hds =>
      obtain ⟨x, rest, rfl, hx⟩ := head_of_spellsChar hd
      exact absurd (List.cons.inj h).1.symm hx
  | cons hc hcs ih =>
    cases hu with
    | nil =>
      obtain ⟨x, rest, rfl, hx⟩ := head_of_spellsChar hc
      exact absurd (List.cons.inj h).1 hx
    | cons hd hds =>
      rw [List.append_assoc, List.append_assoc] at h
      obtain ⟨rfl, h⟩ := eq_of_spellsChar hc hd h
      obtain ⟨rfl, rfl⟩ := ih hds h
      exact ⟨rfl, rfl⟩

theorem eq_of_spellsString {a b : String} (ht : SpellsString a t) (hu : SpellsString b u)
    (h : t ++ r = u ++ s) : a = b ∧ r = s := by
  obtain ⟨ht⟩ := ht
  obtain ⟨hu⟩ := hu
  obtain ⟨hchars, rfl⟩ := eq_of_spellsChars (r := r) (s := s) ht hu (by simpa using h)
  exact ⟨String.toList_inj.mp hchars, rfl⟩

/-! ## Numbers -/

/-- What follows a number has to tell where it ends. -/
def Stops (r : List Char) : Prop := r.head?.any Char.isDigit = false

theorem eq_of_spellsNat {n m : Nat} (ht : SpellsNat n t) (hu : SpellsNat m u)
    (h : t ++ r = u ++ s) (hr : Stops r) (hs : Stops s) : n = m ∧ r = s := by
  obtain ⟨rfl, rfl⟩ := Text.append_inj_of_run h ht.digits hu.digits hr hs
  exact ⟨ht.value.symm.trans hu.value, rfl⟩

theorem head_of_spellsNat {n : Nat} (ht : SpellsNat n t) :
    ∃ x rest, t = x :: rest ∧ x.isDigit = true := by
  obtain ⟨x, rest, rfl⟩ := List.exists_cons_of_ne_nil ht.nonempty
  exact ⟨x, rest, rfl, ht.digits x List.mem_cons_self⟩

theorem eq_of_spellsInt {n m : Int} (ht : SpellsInt n t) (hu : SpellsInt m u)
    (h : t ++ r = u ++ s) (hr : Stops r) (hs : Stops s) : n = m ∧ r = s := by
  have hminus : ∀ {k : Nat} {v w w' : List Char}, SpellsNat k v → v ++ w ≠ '-' :: w' := by
    intro k v w w' hv he
    obtain ⟨x, rest, rfl, hx⟩ := head_of_spellsNat hv
    rw [(List.cons.inj he).1] at hx
    exact absurd hx (by decide)
  cases ht with
  | nonneg ht =>
    cases hu with
    | nonneg hu =>
      obtain ⟨rfl, rfl⟩ := eq_of_spellsNat ht hu h hr hs
      exact ⟨rfl, rfl⟩
    | neg hu => exact absurd h (hminus ht)
  | neg ht =>
    cases hu with
    | nonneg hu => exact absurd h.symm (hminus hu)
    | neg hu =>
      obtain ⟨rfl, rfl⟩ := eq_of_spellsNat ht hu (List.cons.inj h).2 hr hs
      exact ⟨rfl, rfl⟩

/-! ## Parts of lists and objects -/

def isBlank (c : Char) : Bool := [' ', '\t', '\n', '\r'].contains c

theorem isBlank_of_blank (h : Blank t) : ∀ c ∈ t, isBlank c = true := by
  intro c hc
  simpa [isBlank] using h c hc

/-- A mark that ends a part: neither a blank nor a digit. -/
def IsMark (x : Char) : Prop := isBlank x = false ∧ x.isDigit = false

theorem append_inj_of_blank (h : before ++ x :: r = after ++ d :: s) (hbefore : Blank before)
    (hafter : Blank after) (hx : isBlank x = false) (hd : isBlank d = false) :
    x = d ∧ r = s := by
  obtain ⟨-, h⟩ := Text.append_inj_of_run h (isBlank_of_blank hbefore) (isBlank_of_blank hafter)
    (by simpa using hx) (by simpa using hd)
  exact List.cons.inj h

theorem isDigit_of_mem_blanks : ∀ c ∈ [' ', '\t', '\n', '\r'], c.isDigit = false := by
  simp

theorem stops_of_blank (hbefore : Blank before) (hr : Stops r) : Stops (before ++ r) :=
  Text.head?_append_any (fun c hc => isDigit_of_mem_blanks c (hbefore c hc)) hr

theorem IsMark.stops (hx : IsMark x) : Stops (x :: r) := by simpa [Stops] using hx.2

section

variable {α : Type} {Part : α → List Char → Prop} {xs ys : List α} {closing : Char}

/-- What is spelled at the front of a text, if it is `a`, is nothing else and ends at one place. -/
def Unique (Part : α → List Char → Prop) (a : α) : Prop :=
  ∀ ⦃b t u r s⦄, Part a t → Part b u → t ++ r = u ++ s → Stops r → Stops s → a = b ∧ r = s

/-- The first character of a part is neither a blank nor a mark that closes a list or an object. -/
def Leads (Part : α → List Char → Prop) : Prop :=
  ∀ ⦃a t⦄, Part a t → ∃ x rest, t = x :: rest ∧ isBlank x = false ∧ x ≠ ']' ∧ x ≠ '\x7d'

/-- Blanks before a part end where the part begins. -/
theorem eq_of_lead {a b : α} (hleads : Leads Part) (ht : Part a t) (hu : Part b u)
    (hbefore : Blank before) (hafter : Blank after)
    (h : before ++ (t ++ r) = after ++ (u ++ s)) : t ++ r = u ++ s := by
  obtain ⟨x, rest, rfl, hx, -⟩ := hleads ht
  obtain ⟨y, rest', rfl, hy, -⟩ := hleads hu
  exact (Text.append_inj_of_run h (isBlank_of_blank hbefore) (isBlank_of_blank hafter)
    (by simpa using hx) (by simpa using hy)).2

/-- One part with the blanks around it, up to the mark behind it. -/
theorem eq_of_part {a b : α} {before' after' : List Char} (hunique : Unique Part a)
    (hleads : Leads Part) (ht : Part a t) (hu : Part b u) (hbefore : Blank before)
    (hbefore' : Blank before') (hafter : Blank after) (hafter' : Blank after') (hx : IsMark x)
    (hd : IsMark d)
    (h : before ++ t ++ after ++ x :: r = before' ++ u ++ after' ++ d :: s) :
    a = b ∧ x = d ∧ r = s := by
  simp only [List.append_assoc] at h
  replace h := eq_of_lead hleads ht hu hbefore hbefore' h
  obtain ⟨rfl, h⟩ := hunique ht hu h (stops_of_blank hafter hx.stops)
    (stops_of_blank hafter' hd.stops)
  exact ⟨rfl, append_inj_of_blank h hafter hafter' hx.1 hd.1⟩

theorem eq_of_spellsParts (hunique : ∀ a ∈ xs, Unique Part a) (hleads : Leads Part)
    (hclosing : IsMark closing) (hcomma : closing ≠ ',') (ht : SpellsParts Part xs t)
    (hu : SpellsParts Part ys u) (h : t ++ closing :: r = u ++ closing :: s) :
    xs = ys ∧ r = s := by
  have hmark : IsMark ',' := ⟨by decide, by decide⟩
  induction ht generalizing ys u with
  | @last a before t after hbefore ha hafter =>
    have ha' := hunique a List.mem_cons_self
    cases hu with
    | last hbefore' hb hafter' =>
      obtain ⟨rfl, -, rfl⟩ :=
        eq_of_part ha' hleads ha hb hbefore hbefore' hafter hafter' hclosing hclosing h
      exact ⟨rfl, rfl⟩
    | more hbefore' hb hafter' hys =>
      rw [List.append_assoc _ (',' :: _), List.cons_append] at h
      exact absurd
        (eq_of_part ha' hleads ha hb hbefore hbefore' hafter hafter' hclosing hmark h).2.1
        hcomma
  | @more a xs before t after u' hbefore ha hafter hxs ih =>
    have ha' := hunique a List.mem_cons_self
    rw [List.append_assoc _ (',' :: _), List.cons_append] at h
    cases hu with
    | last hbefore' hb hafter' =>
      exact absurd
        (eq_of_part ha' hleads ha hb hbefore hbefore' hafter hafter' hmark hclosing h).2.1
        hcomma.symm
    | more hbefore' hb hafter' hys =>
      rw [List.append_assoc _ (',' :: _), List.cons_append] at h
      obtain ⟨rfl, -, h⟩ :=
        eq_of_part ha' hleads ha hb hbefore hbefore' hafter hafter' hmark hmark h
      obtain ⟨rfl, rfl⟩ := ih (fun b hb => hunique b (List.mem_cons_of_mem a hb)) hys h
      exact ⟨rfl, rfl⟩

/-- Where parts begin, no mark closes. -/
theorem ne_of_spellsParts {gap : List Char} (hleads : Leads Part)
    (hclosing : closing = ']' ∨ closing = '\x7d') (hblank : isBlank closing = false)
    (ht : SpellsParts Part xs t) (hgap : Blank gap) : gap ++ closing :: r ≠ t ++ s := by
  have hstart : ∃ start y rest, Blank start ∧ t = start ++ y :: rest ∧ isBlank y = false ∧
      y ≠ ']' ∧ y ≠ '\x7d' := by
    cases ht with
    | @last a before u after hbefore ha hafter =>
      obtain ⟨y, rest, rfl, hy⟩ := hleads ha
      exact ⟨before, y, rest ++ after, hbefore, by simp, hy⟩
    | @more a as before u after v hbefore ha hafter has =>
      obtain ⟨y, rest, rfl, hy⟩ := hleads ha
      exact ⟨before, y, rest ++ (after ++ ',' :: v), hbefore, by simp, hy⟩
  obtain ⟨start, y, rest, hstart, rfl, hy, hlist, hobject⟩ := hstart
  intro h
  rw [List.append_assoc, List.cons_append] at h
  obtain rfl := (append_inj_of_blank h hgap hstart hblank hy).1
  exact hclosing.elim hlist hobject

/-- A list or an object without its marks: blanks alone, or parts. -/
theorem eq_of_inside (hunique : ∀ a ∈ xs, Unique Part a) (hleads : Leads Part)
    (hclosing : closing = ']' ∨ closing = '\x7d')
    (ht : xs = [] ∧ Blank t ∨ SpellsParts Part xs t)
    (hu : ys = [] ∧ Blank u ∨ SpellsParts Part ys u)
    (h : t ++ closing :: r = u ++ closing :: s) : xs = ys ∧ r = s := by
  obtain ⟨hmark, hcomma⟩ : IsMark closing ∧ closing ≠ ',' := by
    rcases hclosing with rfl | rfl <;> exact ⟨⟨by decide, by decide⟩, by decide⟩
  rcases ht with ⟨rfl, ht⟩ | ht
  · rcases hu with ⟨rfl, hu⟩ | hu
    · exact ⟨rfl, (append_inj_of_blank h ht hu hmark.1 hmark.1).2⟩
    · exact absurd h (ne_of_spellsParts hleads hclosing hmark.1 hu ht)
  · rcases hu with ⟨rfl, hu⟩ | hu
    · exact absurd h.symm (ne_of_spellsParts hleads hclosing hmark.1 ht hu)
    · exact eq_of_spellsParts hunique hleads hmark hcomma ht hu h

end

/-! ## Values -/

inductive Shape where
  | null
  | number
  | string
  | list
  | object

def shape : JsonValue → Shape
  | .null => .null
  | .int _ => .number
  | .str _ => .string
  | .list _ => .list
  | .object _ => .object

/-- The first character of a value tells which kind of value it is. -/
def shapeOf : Char → Shape
  | 'n' => .null
  | '"' => .string
  | '[' => .list
  | '\x7b' => .object
  | _ => .number

variable {v w : JsonValue}

theorem shapeOf_digit (hx : x.isDigit = true) :
    shapeOf x = .number ∧ isBlank x = false ∧ x ≠ ']' ∧ x ≠ '\x7d' := by
  have hother : ∀ {y : Char}, y.isDigit = false → x ≠ y := by
    rintro y hy rfl
    rw [hy] at hx
    cases hx
  refine ⟨?_, ?_, hother (by decide), hother (by decide)⟩
  · unfold shapeOf
    split
    iterate 4 exact absurd hx (by decide)
    rfl
  · rw [Bool.eq_false_iff]
    intro hblank
    exact hother (isDigit_of_mem_blanks x (by simpa [isBlank] using hblank)) rfl

theorem head_of_spells (h : Spells v t) : ∃ x rest, t = x :: rest ∧ shapeOf x = v.shape ∧
    isBlank x = false ∧ x ≠ ']' ∧ x ≠ '\x7d' := by
  cases h with
  | null => exact ⟨_, _, rfl, rfl, by decide⟩
  | int h =>
    cases h with
    | nonneg h =>
      obtain ⟨x, rest, rfl, hx⟩ := head_of_spellsNat h
      exact ⟨x, rest, rfl, shapeOf_digit hx⟩
    | neg h => exact ⟨_, _, rfl, rfl, by decide⟩
  | str h =>
    cases h with
    | quoted h => exact ⟨_, _, rfl, rfl, by decide⟩
  | emptyList | list | emptyObject | object => exact ⟨_, _, rfl, rfl, by decide⟩

theorem leads_spells : Leads Spells := by
  intro v t h
  obtain ⟨x, rest, ht, -, hx⟩ := head_of_spells h
  exact ⟨x, rest, ht, hx⟩

theorem leads_spellsField : Leads SpellsField := by
  rintro ⟨key, v⟩ _ ⟨⟨hkey⟩, -, -, -⟩
  exact ⟨_, _, rfl, by decide⟩

theorem shape_eq (hv : Spells v t) (hw : Spells w u) (h : t ++ r = u ++ s) : v.shape = w.shape := by
  obtain ⟨x, rest, rfl, hx, -⟩ := head_of_spells hv
  obtain ⟨y, rest', rfl, hy, -⟩ := head_of_spells hw
  obtain rfl : x = y := (List.cons.inj h).1
  exact hx.symm.trans hy

/-- A field is unambiguous if its value is. -/
theorem unique_field {f : String × JsonValue} (hunique : Unique Spells f.2) :
    Unique SpellsField f := by
  intro g t u r s hf hg h hr hs
  cases hf with
  | @field key v t before after u hkey hbefore hafter hv =>
    cases hg with
    | @field key' v' t' before' after' u' hkey' hbefore' hafter' hv' =>
      simp only [List.append_assoc, List.cons_append] at h
      obtain ⟨rfl, h⟩ := eq_of_spellsString hkey hkey' h
      obtain ⟨-, h⟩ := append_inj_of_blank h hbefore hbefore' (by decide) (by decide)
      replace h := eq_of_lead leads_spells hv hv' hafter hafter' h
      obtain ⟨rfl, rfl⟩ := hunique hv hv' h hr hs
      exact ⟨rfl, rfl⟩

theorem number_of_int {n : Int} (h : Spells (.int n) t) : SpellsInt n t := by
  cases h with
  | int h => exact h

theorem string_of_str {a : String} (h : Spells (.str a) t) : SpellsString a t := by
  cases h with
  | str h => exact h

theorem inside_of_list {items : List JsonValue} (h : Spells (.list items) t) :
    ∃ inside, t = '[' :: inside ++ [']'] ∧
      (items = [] ∧ Blank inside ∨ SpellsParts Spells items inside) := by
  cases h with
  | emptyList h => exact ⟨_, rfl, .inl ⟨rfl, h⟩⟩
  | list h => exact ⟨_, rfl, .inr h⟩

theorem inside_of_object {fields : List (String × JsonValue)} (h : Spells (.object fields) t) :
    ∃ inside, t = '\x7b' :: inside ++ ['\x7d'] ∧
      (fields = [] ∧ Blank inside ∨ SpellsParts SpellsField fields inside) := by
  cases h with
  | emptyObject h => exact ⟨_, rfl, .inl ⟨rfl, h⟩⟩
  | object h => exact ⟨_, rfl, .inr h⟩

mutual

theorem unique_spells : (v : JsonValue) → Unique Spells v
  | .null => by
    intro w t u r s hv hw h _ _
    have hshape := shape_eq hv hw h
    cases w with
    | null =>
      cases hv
      cases hw
      exact ⟨rfl, by simpa using h⟩
    | int | str | list | object => cases hshape
  | .int n => by
    intro w t u r s hv hw h hr hs
    have hshape := shape_eq hv hw h
    cases w with
    | int m =>
      obtain ⟨rfl, rfl⟩ := eq_of_spellsInt (number_of_int hv) (number_of_int hw) h hr hs
      exact ⟨rfl, rfl⟩
    | null | str | list | object => cases hshape
  | .str a => by
    intro w t u r s hv hw h _ _
    have hshape := shape_eq hv hw h
    cases w with
    | str b =>
      obtain ⟨rfl, rfl⟩ := eq_of_spellsString (string_of_str hv) (string_of_str hw) h
      exact ⟨rfl, rfl⟩
    | null | int | list | object => cases hshape
  | .list items => by
    intro w t u r s hv hw h _ _
    have hshape := shape_eq hv hw h
    cases w with
    | list items' =>
      obtain ⟨inside, rfl, hinside⟩ := inside_of_list hv
      obtain ⟨inside', rfl, hinside'⟩ := inside_of_list hw
      obtain ⟨rfl, rfl⟩ :=
        eq_of_inside (unique_items items) leads_spells (.inl rfl) hinside hinside'
        (r := r) (s := s) (by simpa using h)
      exact ⟨rfl, rfl⟩
    | null | int | str | object => cases hshape
  | .object fields => by
    intro w t u r s hv hw h _ _
    have hshape := shape_eq hv hw h
    cases w with
    | object fields' =>
      obtain ⟨inside, rfl, hinside⟩ := inside_of_object hv
      obtain ⟨inside', rfl, hinside'⟩ := inside_of_object hw
      obtain ⟨rfl, rfl⟩ := eq_of_inside (unique_fields fields) leads_spellsField (.inr rfl) hinside
        hinside' (r := r) (s := s) (by simpa using h)
      exact ⟨rfl, rfl⟩
    | null | int | str | list => cases hshape

theorem unique_items : (items : List JsonValue) → ∀ v ∈ items, Unique Spells v
  | [] => List.forall_mem_nil _
  | v :: rest => List.forall_mem_cons.mpr ⟨unique_spells v, unique_items rest⟩

theorem unique_fields : (fields : List (String × JsonValue)) → ∀ f ∈ fields, Unique SpellsField f
  | [] => List.forall_mem_nil _
  | (key, v) :: rest =>
    List.forall_mem_cons.mpr ⟨unique_field (f := (key, v)) (unique_spells v), unique_fields rest⟩

end

theorem value_of_document (h : Document v t) :
    ∃ before u after, t = before ++ (u ++ after) ∧ Blank before ∧ Spells v u ∧ Blank after := by
  obtain ⟨hbefore, hv, hafter⟩ := h
  exact ⟨_, _, _, List.append_assoc .., hbefore, hv, hafter⟩

/-- A text is a document of at most one value. -/
theorem eq_of_document (hv : Document v t) (hw : Document w t) : v = w := by
  have hstops : ∀ {after : List Char}, Blank after → Stops after := by
    intro after hafter
    simpa using stops_of_blank hafter (r := []) rfl
  obtain ⟨before, u, after, rfl, hbefore, hv, hafter⟩ := value_of_document hv
  obtain ⟨before', u', after', h, hbefore', hw, hafter'⟩ := value_of_document hw
  replace h := eq_of_lead leads_spells hv hw hbefore hbefore' h
  exact (unique_spells v hv hw h (hstops hafter) (hstops hafter')).1

theorem render_inj : v.render = w.render ↔ v = w := by
  refine ⟨?_, congrArg render⟩
  intro h
  have hv := (document_render v).1
  rw [h] at hv
  exact eq_of_document hv (document_render w).1

end DefaultImports.JsonValue
