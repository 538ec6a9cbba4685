import DefaultImports.Proofs.Pattern.Ends
import DefaultImports.Proofs.Pattern.Parts

/-! What the matches of a pattern capture. Main statement: `made_of_mem_ends`, every capture is a
match of a captured part, somewhere between the start and the end of the whole match. -/
namespace DefaultImports.Pattern

variable {ι : Type} {Q : Pattern ι → Prop} {a b : Pattern ι} {s t u : Progress ι} {label : ι}

/-- A capture made on the way from `s` to `t`, by a part of which `Q` holds. -/
inductive Made (Q : Pattern ι → Prop) (s t : Progress ι) : Capture ι → Prop where
  | intro {label : ι} {b : Pattern ι} {u v : Progress ι} (hpart : Q (capture label b))
      (hends : v ∈ b.ends u) (htext : u.cursor.text = s.cursor.text)
      (hfrom : u.cursor.rest.length ≤ s.cursor.rest.length)
      (hto : t.cursor.rest.length ≤ v.cursor.rest.length) :
      Made Q s t ⟨label, u.cursor, v.size - u.size⟩

theorem Made.then {c : Capture ι} (h : Made Q s u c) (ht : t ∈ b.ends u) : Made Q s t c := by
  obtain ⟨hpart, hends, htext, hfrom, hto⟩ := h
  have hsize := size_of_mem_ends ht
  exact .intro hpart hends htext hfrom (by omega)

theorem Made.after {c : Capture ι} (h : Made Q u t c) (hu : u ∈ a.ends s) : Made Q s t c := by
  obtain ⟨hpart, hends, htext, hfrom, hto⟩ := h
  have hsize := size_of_mem_ends hu
  exact .intro hpart hends (htext.trans (text_of_mem_ends hu)) (by omega) hto

theorem made_of_mem_ends (ha : EveryPart Q a) (ht : t ∈ a.ends s) :
    ∀ c ∈ t.captures, c ∈ s.captures ∨ Made Q s t c := by
  induction a generalizing s t with
  | empty | one | many | few | edge =>
    obtain ⟨xs, rest, -, -, rfl⟩ := past_of_isSingle ht trivial
    exact fun c hc => .inl hc
  | seq a b iha ihb =>
    obtain ⟨u, hu, ht⟩ := List.mem_flatMap.mp ht
    intro c hc
    rcases ihb ha.2 ht c hc with hc | hmade
    · exact (iha ha.1 hu c hc).imp_right (Made.then · ht)
    · exact .inr (hmade.after hu)
  | alt a b iha ihb => exact (List.mem_append.mp ht).elim (iha ha.1) (ihb ha.2)
  | capture label a ih =>
    obtain ⟨u, hu, rfl⟩ := List.mem_map.mp ht
    intro c hc
    rcases List.mem_cons.mp hc with rfl | hc
    · exact .inr (.intro ha.1 hu rfl (Nat.le_refl _) (Nat.le_refl _))
    · rcases ih ha.2 hu c hc with hc | ⟨hpart, hends, htext, hfrom, hto⟩
      · exact .inl hc
      · exact .inr (.intro hpart hends htext hfrom hto)

/-! ## Patterns without captures -/

/-- Nothing is captured in the pattern. -/
abbrev Uncaptured : Pattern ι → Prop :=
  EveryPart fun
    | capture _ _ => False
    | _ => True

theorem captures_of_mem_ends (ha : Uncaptured a) (ht : t ∈ a.ends s) :
    t.captures = s.captures := by
  induction a generalizing s t with
  | empty | one | many | few | edge =>
    obtain ⟨xs, rest, -, -, rfl⟩ := past_of_isSingle ht trivial
    rfl
  | seq a b iha ihb =>
    obtain ⟨u, hu, ht⟩ := List.mem_flatMap.mp ht
    exact (ihb ha.2 ht).trans (iha ha.1 hu)
  | alt a b iha ihb => exact (List.mem_append.mp ht).elim (iha ha.1) (ihb ha.2)
  | capture label a ih => exact ha.1.elim

/-- A match without captures only moves on over the text that it takes. -/
theorem past_of_mem_ends (ha : Uncaptured a) (ht : t ∈ a.ends s) :
    ∃ xs rest, s.cursor.rest = xs ++ rest ∧ t = s.past xs rest ∧ Leaves a (xs ++ rest) rest := by
  obtain ⟨xs, hxs⟩ := exists_takesOff ht
  have hcaptures := captures_of_mem_ends ha ht
  obtain ⟨⟨passed, rest⟩, size, captures⟩ := t
  obtain ⟨hrest, rfl, rfl, hleaves⟩ := hxs
  obtain rfl : captures = s.captures := hcaptures
  exact ⟨xs, rest, hrest, rfl, hrest ▸ hleaves⟩

theorem record_of_mem_ends (ha : Uncaptured a) (ht : t ∈ (capture label a).ends s) :
    ∃ xs rest, s.cursor.rest = xs ++ rest ∧ t = (s.past xs rest).record label s ∧
      Leaves a (xs ++ rest) rest := by
  obtain ⟨u, hu, rfl⟩ := List.mem_map.mp ht
  obtain ⟨xs, rest, hs, rfl, hleaves⟩ := past_of_mem_ends ha hu
  exact ⟨xs, rest, hs, rfl, hleaves⟩

end DefaultImports.Pattern
