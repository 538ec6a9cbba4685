import DefaultImports.Pattern.Ends
import DefaultImports.Proofs.Text.Run

/-! What a pattern can match in a text, by the text it leaves, and when it can match nothing. Main
statement: `exists_takesOff`, a match takes text of a shape of the pattern, and moves on over it. -/
namespace DefaultImports.Pattern

variable {ι : Type} {p : Char → Bool} {a b c : Pattern ι} {s t : Progress ι} {n : Nat}
  {passed text rest : List Char} {w : String}

/-- The pattern can match the text up to `rest`. Edges and captures are left out of account. -/
def Leaves : Pattern ι → (text rest : List Char) → Prop
  | empty, text, rest => text = rest
  | one p, text, rest => ∃ c, text = c :: rest ∧ p c = true
  | many p, text, rest => ∃ xs, text = xs ++ rest ∧ ∀ c ∈ xs, p c = true
  | few p, text, rest => ∃ xs, text = xs ++ rest ∧ ∀ c ∈ xs, p c = true
  | edge _, text, rest => text = rest
  | seq a b, text, rest => ∃ middle, Leaves a text middle ∧ Leaves b middle rest
  | alt a b, text, rest => Leaves a text rest ∨ Leaves b text rest
  | capture _ a, text, rest => Leaves a text rest

theorem leaves_append : Leaves (a ++ b) text rest ↔
    ∃ middle, Leaves a text middle ∧ Leaves b middle rest := Iff.rfl

theorem leaves_append_assoc :
    Leaves (a ++ b ++ c) text rest ↔ Leaves (a ++ (b ++ c)) text rest := by
  constructor
  · rintro ⟨_, ⟨_, ha, hb⟩, hc⟩
    exact ⟨_, ha, _, hb, hc⟩
  · rintro ⟨_, ha, _, hb, hc⟩
    exact ⟨_, ⟨_, ha, hb⟩, hc⟩

theorem leaves_oneOrMore : Leaves (oneOrMore p : Pattern ι) text rest ↔
    ∃ xs, text = xs ++ rest ∧ xs ≠ [] ∧ ∀ c ∈ xs, p c = true := by
  constructor
  · rintro ⟨_, ⟨c, rfl, hc⟩, xs, rfl, hxs⟩
    exact ⟨c :: xs, rfl, by simp, by simpa [hc] using hxs⟩
  · rintro ⟨xs, rfl, hne, hxs⟩
    obtain ⟨c, xs, rfl⟩ := List.exists_cons_of_ne_nil hne
    exact ⟨xs ++ rest, ⟨c, rfl, hxs c (by simp)⟩, xs, rfl, fun x hx => hxs x (by simp [hx])⟩

/-- However much of a run before a text is read, a class that neither the run nor the text
starts with does not come next. -/
theorem head?_of_leaves_many {q : Char → Bool} {xs next : List Char}
    (hq : ∀ c, p c = true → q c = false) (hxs : ∀ c ∈ xs, p c = true)
    (hp : next.head?.any p = false) (hnext : next.head?.any q = false)
    (h : Leaves (many p : Pattern ι) (xs ++ next) rest) : rest.head?.any q = false := by
  obtain ⟨us, h, hus⟩ := h
  obtain ⟨zs, rfl, rfl⟩ := Text.eq_append_of_run h hus hp
  exact Text.head?_append_any (fun c hc => hq c (hxs c (by simp [hc]))) hnext

theorem leaves_many_of_oneOrMore (h : Leaves (oneOrMore p : Pattern ι) text rest) :
    Leaves (many p : Pattern ι) text rest := by
  obtain ⟨xs, h, -, hxs⟩ := leaves_oneOrMore.mp h
  exact ⟨xs, h, hxs⟩

theorem leaves_each (cs : List Char) :
    Leaves (each (fun c d => d == c) cs : Pattern ι) text rest ↔ text = cs ++ rest := by
  induction cs generalizing text with
  | nil => exact Iff.rfl
  | cons c cs ih =>
    have hone (middle : List Char) :
        Leaves (one (· == c) : Pattern ι) text middle ↔ text = c :: middle := by
      simp [Leaves]
    cases cs with
    | nil => exact hone rest
    | cons d cs =>
      change (∃ middle, Leaves (one (· == c)) text middle ∧
        Leaves (each _ (d :: cs)) middle rest) ↔ _
      simp [hone, ih]

theorem leaves_word : Leaves (word w : Pattern ι) text rest ↔ text = w.toList ++ rest :=
  leaves_each w.toList

theorem leaves_word_append (h : Leaves (word w ++ b) (w.toList ++ text) rest) :
    Leaves b text rest := by
  obtain ⟨middle, hword, h⟩ := h
  obtain rfl := List.append_cancel_left (leaves_word.mp hword)
  exact h

/-! ## What a match does -/

/-- The state after the characters `xs` are matched and `rest` is left. -/
def Progress.past (s : Progress ι) (xs rest : List Char) : Progress ι :=
  s.moveTo ⟨xs.reverse ++ s.cursor.passed, rest⟩ (s.size + xs.length)

namespace Progress

@[simp] theorem past_rest (s : Progress ι) (xs rest : List Char) :
    (s.past xs rest).cursor.rest = rest := rfl

@[simp] theorem past_size (s : Progress ι) (xs rest : List Char) :
    (s.past xs rest).size = s.size + xs.length := rfl

@[simp] theorem past_captures (s : Progress ι) (xs rest : List Char) :
    (s.past xs rest).captures = s.captures := rfl

theorem past_past (s : Progress ι) (xs ys rest rest' : List Char) :
    (s.past xs rest).past ys rest' = s.past (xs ++ ys) rest' := by
  simp [past, moveTo, Nat.add_assoc]

theorem past_nil (h : s.cursor.rest = rest) : s.past [] rest = s := by
  subst h
  rfl

@[simp] theorem record_size (s : Progress ι) (label : ι) (before : Progress ι) :
    (s.record label before).size = s.size := rfl

@[simp] theorem record_captures (s : Progress ι) (label : ι) (before : Progress ι) :
    (s.record label before).captures =
      ⟨label, before.cursor, s.size - before.size⟩ :: s.captures := rfl

end Progress

theorem run_of_mem_manyEnds {e : Cursor × Nat} (he : e ∈ manyEnds p n passed text) :
    ∃ xs rest, text = xs ++ rest ∧ (∀ c ∈ xs, p c = true) ∧
      e = (⟨xs.reverse ++ passed, rest⟩, n + xs.length) := by
  induction text generalizing n passed with
  | nil => exact ⟨[], [], rfl, List.forall_mem_nil _, List.mem_singleton.mp he⟩
  | cons c text ih =>
    rw [manyEnds] at he
    split at he
    · rename_i hc
      rcases List.mem_append.mp he with he | he
      · obtain ⟨xs, rest, rfl, hxs, rfl⟩ := ih he
        have hsize : n + 1 + xs.length = n + (c :: xs).length := Nat.add_right_comm n 1 xs.length
        exact ⟨c :: xs, rest, rfl, List.forall_mem_cons.mpr ⟨hc, hxs⟩, by simp [hsize]⟩
      · exact ⟨[], _, rfl, List.forall_mem_nil _, List.mem_singleton.mp he⟩
    · exact ⟨[], _, rfl, List.forall_mem_nil _, List.mem_singleton.mp he⟩

theorem run_of_mem_fewEnds {e : Cursor × Nat} (he : e ∈ fewEnds p n passed text) :
    ∃ xs rest, text = xs ++ rest ∧ (∀ c ∈ xs, p c = true) ∧
      e = (⟨xs.reverse ++ passed, rest⟩, n + xs.length) := by
  induction text generalizing n passed with
  | nil => exact ⟨[], [], rfl, List.forall_mem_nil _, List.mem_singleton.mp he⟩
  | cons c text ih =>
    rw [fewEnds] at he
    rcases List.mem_cons.mp he with rfl | he
    · exact ⟨[], _, rfl, List.forall_mem_nil _, rfl⟩
    · split at he
      · rename_i hc
        obtain ⟨xs, rest, rfl, hxs, rfl⟩ := ih he
        have hsize : n + 1 + xs.length = n + (c :: xs).length := Nat.add_right_comm n 1 xs.length
        exact ⟨c :: xs, rest, rfl, List.forall_mem_cons.mpr ⟨hc, hxs⟩, by simp [hsize]⟩
      · cases he

/-- The pattern is not made of others. -/
def IsSingle : Pattern ι → Prop
  | seq _ _ | alt _ _ | capture _ _ => False
  | _ => True

/-- A pattern that is not made of others takes some text, and does nothing else. -/
theorem past_of_isSingle (ht : t ∈ a.ends s) (ha : IsSingle a) :
    ∃ xs rest, s.cursor.rest = xs ++ rest ∧ Leaves a (xs ++ rest) rest ∧ t = s.past xs rest := by
  cases a with
  | empty => exact ⟨[], _, rfl, rfl, List.mem_singleton.mp ht⟩
  | one p =>
    rw [ends] at ht
    split at ht
    · cases ht
    · rename_i c rest hrest
      split at ht
      · rename_i hc
        exact ⟨[c], rest, hrest, ⟨c, rfl, hc⟩, List.mem_singleton.mp ht⟩
      · cases ht
  | many p =>
    obtain ⟨e, he, rfl⟩ := List.mem_map.mp ht
    obtain ⟨xs, rest, hrest, hxs, rfl⟩ := run_of_mem_manyEnds he
    exact ⟨xs, rest, hrest, ⟨xs, rfl, hxs⟩, rfl⟩
  | few p =>
    obtain ⟨e, he, rfl⟩ := List.mem_map.mp ht
    obtain ⟨xs, rest, hrest, hxs, rfl⟩ := run_of_mem_fewEnds he
    exact ⟨xs, rest, hrest, ⟨xs, rfl, hxs⟩, rfl⟩
  | edge p =>
    rw [ends] at ht
    split at ht
    · exact ⟨[], _, rfl, rfl, List.mem_singleton.mp ht⟩
    · cases ht
  | seq a b | alt a b | capture label a => exact ha.elim

/-- What a match does to a text that has `xs` in front, its captures aside. -/
structure TakesOff (a : Pattern ι) (s t : Progress ι) (xs : List Char) : Prop where
  rest : s.cursor.rest = xs ++ t.cursor.rest
  passed : t.cursor.passed = xs.reverse ++ s.cursor.passed
  size : t.size = s.size + xs.length
  leaves : Leaves a s.cursor.rest t.cursor.rest

theorem exists_takesOff (ht : t ∈ a.ends s) : ∃ xs, TakesOff a s t xs := by
  induction a generalizing s t with
  | empty | one | many | few | edge =>
    obtain ⟨xs, rest, hrest, hleaves, rfl⟩ := past_of_isSingle ht trivial
    exact ⟨xs, hrest, rfl, rfl, hrest ▸ hleaves⟩
  | seq a b iha ihb =>
    obtain ⟨u, hu, ht⟩ := List.mem_flatMap.mp ht
    obtain ⟨xs, hxs⟩ := iha hu
    obtain ⟨ys, hys⟩ := ihb ht
    refine ⟨xs ++ ys, ?_, ?_, ?_, u.cursor.rest, hxs.leaves, hys.leaves⟩
    · rw [hxs.rest, hys.rest, List.append_assoc]
    · rw [hys.passed, hxs.passed, List.reverse_append, List.append_assoc]
    · rw [hys.size, hxs.size, List.length_append, Nat.add_assoc]
  | alt a b iha ihb =>
    rcases List.mem_append.mp ht with ht | ht
    · obtain ⟨xs, hxs⟩ := iha ht
      exact ⟨xs, hxs.rest, hxs.passed, hxs.size, .inl hxs.leaves⟩
    · obtain ⟨xs, hxs⟩ := ihb ht
      exact ⟨xs, hxs.rest, hxs.passed, hxs.size, .inr hxs.leaves⟩
  | capture label a ih =>
    obtain ⟨u, hu, rfl⟩ := List.mem_map.mp ht
    obtain ⟨xs, hxs⟩ := ih hu
    exact ⟨xs, hxs.rest, hxs.passed, hxs.size, hxs.leaves⟩

theorem leaves_of_mem_ends (ht : t ∈ a.ends s) : Leaves a s.cursor.rest t.cursor.rest := by
  obtain ⟨xs, hxs⟩ := exists_takesOff ht
  exact hxs.leaves

/-- A match moves on in its text. -/
theorem text_of_mem_ends (ht : t ∈ a.ends s) : t.cursor.text = s.cursor.text := by
  obtain ⟨xs, hxs⟩ := exists_takesOff ht
  simp [Cursor.text, hxs.passed, hxs.rest]

/-- The size of a match is what it takes off the text. -/
theorem size_of_mem_ends (ht : t ∈ a.ends s) :
    s.size ≤ t.size ∧ t.size + t.cursor.rest.length = s.size + s.cursor.rest.length := by
  obtain ⟨xs, hxs⟩ := exists_takesOff ht
  rw [hxs.size, hxs.rest, List.length_append]
  omega

/-- A match moves on over the text that it takes. -/
theorem cursor_of_mem_ends (ht : t ∈ a.ends s) :
    ∃ xs, s.cursor.rest = xs ++ t.cursor.rest ∧
      t.cursor = ⟨xs.reverse ++ s.cursor.passed, t.cursor.rest⟩ := by
  obtain ⟨xs, hxs⟩ := exists_takesOff ht
  exact ⟨xs, hxs.rest, by rw [← hxs.passed]⟩

/-! ## When a pattern matches nothing -/

/-- The pattern matches nothing at the start of the text. -/
def Refuses (a : Pattern ι) (text : List Char) : Prop := ∀ rest, ¬ Leaves a text rest

theorem ends_of_refuses (h : Refuses a s.cursor.rest) : a.ends s = [] :=
  List.eq_nil_iff_forall_not_mem.mpr fun _ ht => h _ (leaves_of_mem_ends ht)

theorem refuses_append_left (h : Refuses a text) : Refuses (a ++ b) text := by
  rintro rest ⟨middle, ha, -⟩
  exact h middle ha

theorem refuses_append_assoc : Refuses (a ++ b ++ c) text ↔ Refuses (a ++ (b ++ c)) text :=
  forall_congr' fun _ => not_congr leaves_append_assoc

theorem refuses_append (h : ∀ middle, Leaves a text middle → Refuses b middle) :
    Refuses (a ++ b) text := by
  rintro rest ⟨middle, ha, hb⟩
  exact h middle ha rest hb

theorem refuses_orElse (ha : Refuses a text) (hb : Refuses b text) : Refuses (a <|> b) text := by
  rintro rest (h | h)
  · exact ha rest h
  · exact hb rest h

theorem refuses_maybe_append (ha : Refuses (a ++ b) text) (hb : Refuses b text) :
    Refuses (maybe a ++ b) text := by
  rintro rest ⟨middle, h | rfl, hrest⟩
  · exact ha rest ⟨middle, h, hrest⟩
  · exact hb rest hrest

theorem refuses_capture {label : ι} (h : Refuses a text) : Refuses (capture label a) text := h

theorem refuses_one (h : text.head?.any p = false) : Refuses (one p : Pattern ι) text := by
  rintro rest ⟨c, rfl, hc⟩
  simp [hc] at h

theorem refuses_oneOrMore (h : text.head?.any p = false) :
    Refuses (oneOrMore p : Pattern ι) text :=
  refuses_append_left (refuses_one h)

theorem refuses_word (h : ¬ w.toList <+: text) : Refuses (word w : Pattern ι) text := by
  intro rest hrest
  exact h ⟨rest, (leaves_word.mp hrest).symm⟩

end DefaultImports.Pattern
