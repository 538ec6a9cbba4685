import DefaultImports.Path.Basic
import DefaultImports.Proofs.Text.Split

/-! The text of a path says all about it: a path as it is read off a text can be read off its
own text again. -/
namespace DefaultImports.Path

variable {p q : Path}

/-- The shape of the parts of every path that is read off a text. -/
def Proper (p : Path) : Prop := ∀ part ∈ p.parts, part ≠ "" ∧ part ≠ "." ∧ '/' ∉ part.toList

theorem proper_ofString (s : String) : (ofString s).Proper := by
  intro part hpart
  obtain ⟨hpart, hname⟩ := List.mem_filter.mp hpart
  obtain ⟨piece, hpiece, rfl⟩ := List.mem_map.mp hpart
  obtain ⟨hempty, hdot⟩ : String.ofList piece ≠ "" ∧ String.ofList piece ≠ "." := by
    simpa using hname
  refine ⟨hempty, hdot, ?_⟩
  intro hslash
  rw [String.toList_ofList] at hslash
  simpa using Text.of_mem_split hpiece hslash

theorem Proper.join (hp : p.Proper) (hq : q.Proper) : (p.join q).Proper := by
  unfold Path.join
  split
  · intro part hpart
    rcases List.mem_append.mp hpart with h | h
    · exact hp part h
    · exact hq part h
  · exact hq

theorem segments_slash (s : List Char) : segments ('/' :: s) = segments s := by
  simp [segments, Text.split]

/-- The parts of a path with slashes between them. -/
def body (p : Path) : List Char := ['/'].intercalate (p.parts.map String.toList)

theorem toList_intercalate_parts (p : Path) : ("/".intercalate p.parts).toList = p.body :=
  String.toList_intercalate

theorem split_body (hp : p.Proper) (hne : p.parts ≠ []) :
    Text.split (· == '/') p.body = p.parts.map String.toList := by
  apply Text.split_intercalate (by simpa using hne)
  intro piece hpiece
  obtain ⟨part, hpart, rfl⟩ := List.mem_map.mp hpiece
  exact (hp part hpart).2.2

theorem segments_body (hp : p.Proper) : segments p.body = p.parts := by
  by_cases hne : p.parts = []
  · simp [body, segments, Text.split, hne]
  · have hcut := split_body hp hne
    have hparts : (p.parts.map String.toList).map String.ofList = p.parts := by
      simp [Function.comp_def]
    rw [segments, hcut, hparts, List.filter_eq_self]
    intro part hpart
    simp [(hp part hpart).1, (hp part hpart).2.1]

theorem head?_body_ne_slash (hp : p.Proper) : p.body.head? ≠ some '/' := by
  unfold body
  cases h : p.parts with
  | nil => simp
  | cons part rest =>
    obtain ⟨hempty, _, hslash⟩ := hp part (by simp [h])
    obtain ⟨c, text, hc⟩ := List.exists_cons_of_ne_nil (l := part.toList) (by simpa using hempty)
    have hne : c ≠ '/' := by
      rintro rfl
      simp [hc] at hslash
    cases rest <;> simpa [List.intercalate_cons_cons, hc] using hne

theorem anchorOf_of_head? {s : List Char} (h : s.head? ≠ some '/') :
    anchorOf s = .relative ∧ anchorOf ('/' :: s) = .root ∧
      anchorOf ('/' :: '/' :: s) = .doubleRoot := by
  cases s with
  | nil => decide
  | cons c rest =>
    have hc : c ≠ '/' := by simpa using h
    simp [anchorOf, hc]

/-- A path can be read off its text. -/
theorem ofString_toString (hp : p.Proper) : ofString p.toString = p := by
  obtain ⟨hrelative, hroot, hdouble⟩ := anchorOf_of_head? (head?_body_ne_slash hp)
  have hsegments := segments_body hp
  by_cases hdot : p.anchor = .relative ∧ p.parts = []
  · obtain ⟨anchor, parts⟩ := p
    obtain ⟨rfl, rfl⟩ := hdot
    decide
  · obtain ⟨anchor, parts⟩ := p
    rw [toString, if_neg hdot, ofString, String.toList_append, toList_intercalate_parts]
    cases anchor with
    | relative => simpa [Anchor.text] using ⟨hrelative, hsegments⟩
    | root => simpa [Anchor.text, segments_slash] using ⟨hroot, hsegments⟩
    | doubleRoot => simpa [Anchor.text, segments_slash] using ⟨hdouble, hsegments⟩

theorem toString_inj (hp : p.Proper) (hq : q.Proper) : p.toString = q.toString ↔ p = q := by
  constructor
  · intro h
    rw [← ofString_toString hp, ← ofString_toString hq, h]
  · rintro rfl
    rfl

end DefaultImports.Path
