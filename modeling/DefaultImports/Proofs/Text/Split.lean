import DefaultImports.Text.Split

/-! Cutting and joining. Cutting agrees with the library's, so that its facts carry over. -/
namespace DefaultImports.Text

theorem split_eq_splitOnP (p : Char → Bool) (s : List Char) : split p s = s.splitOnP p := by
  induction s with
  | nil => rfl
  | cons c rest ih =>
    rw [split, List.splitOnP_cons_eq_if_modifyHead, ih]
    obtain ⟨piece, pieces, h⟩ := List.exists_cons_of_ne_nil (List.splitOnP_ne_nil p rest)
    rw [h, List.modifyHead_cons]

theorem split_ne_nil (p : Char → Bool) (s : List Char) : split p s ≠ [] := by
  rw [split_eq_splitOnP]
  exact List.splitOnP_ne_nil p s

/-- No piece has a character at which the text was cut. -/
theorem of_mem_split {p : Char → Bool} {s piece : List Char} (h : piece ∈ split p s) {c : Char}
    (hc : c ∈ piece) : p c = false := by
  induction s generalizing piece with
  | nil =>
    obtain rfl : piece = [] := by simpa [split] using h
    simp at hc
  | cons d rest ih =>
    obtain ⟨first, pieces, hs⟩ := List.exists_cons_of_ne_nil (split_ne_nil p rest)
    have hcut : ∀ q ∈ first :: pieces, c ∈ q → p c = false := by
      intro q hq
      exact ih (by rwa [hs])
    by_cases hd : p d
    · simp only [split, hd, if_true, hs] at h
      rcases List.mem_cons.mp h with rfl | h
      · simp at hc
      · exact hcut piece h hc
    · simp only [split, hd, hs] at h
      rcases List.mem_cons.mp h with rfl | h
      · rcases List.mem_cons.mp hc with rfl | hc
        · simpa using hd
        · exact hcut first (by simp) hc
      · exact hcut piece (by simp [h]) hc

/-- The first piece starts the text, and each of the others stands somewhere in it. -/
theorem split_eq_cons (p : Char → Bool) (s : List Char) :
    ∃ others, split p s = s.takeWhile (fun c => !p c) :: others ∧
      ∀ piece ∈ others, piece <:+: s := by
  induction s with
  | nil => exact ⟨[], rfl, List.forall_mem_nil _⟩
  | cons c rest ih =>
    obtain ⟨others, hrest, hothers⟩ := ih
    have hcons : ∀ piece ∈ others, piece <:+: c :: rest :=
      fun piece h => (hothers piece h).trans (List.suffix_cons c rest).isInfix
    by_cases hc : p c
    · refine ⟨split p rest, by simp [split, hc], ?_⟩
      rw [hrest, List.forall_mem_cons]
      have hfirst := List.takeWhile_prefix (fun c => !p c) (l := rest)
      exact ⟨hfirst.isInfix.trans (List.suffix_cons c rest).isInfix, hcons⟩
    · exact ⟨others, by simp [split, hc, hrest], hcons⟩

theorem isInfix_of_mem_split {p : Char → Bool} {s piece : List Char} (h : piece ∈ split p s) :
    piece <:+: s := by
  obtain ⟨others, hsplit, hothers⟩ := split_eq_cons p s
  rw [hsplit] at h
  rcases List.mem_cons.mp h with rfl | h
  · exact (List.takeWhile_prefix _).isInfix
  · exact hothers piece h

/-- Cutting undoes putting a separator between pieces that do not have it. -/
theorem split_intercalate {sep : Char} {pieces : List (List Char)} (hne : pieces ≠ [])
    (h : ∀ piece ∈ pieces, sep ∉ piece) :
    split (· == sep) ([sep].intercalate pieces) = pieces := by
  rw [split_eq_splitOnP, ← List.splitOn_eq_splitOnP]
  exact List.splitOn_intercalate sep h hne

/-! ## Lines -/

theorem lines_append_break (s z : List Char) : lines (s ++ '\n' :: z) = lines s ++ lines z := by
  simp only [lines, split_eq_splitOnP]
  exact List.splitOnP_append_cons s z rfl

theorem lines_eq_cons (s : List Char) :
    ∃ others, lines s = s.takeWhile (· != '\n') :: others := by
  obtain ⟨others, h, -⟩ := split_eq_cons (· == '\n') s
  exact ⟨others, h⟩

theorem length_lines (s : List Char) : (lines s).length = s.count '\n' + 1 := by
  induction s with
  | nil => rfl
  | cons c rest ih =>
    by_cases hc : c = '\n'
    · have hbreak : lines (c :: rest) = [] :: lines rest := by
        subst hc
        exact lines_append_break [] rest
      rw [hbreak, List.length_cons, ih, hc, List.count_cons_self]
    · obtain ⟨others, hrest⟩ := lines_eq_cons rest
      have hsplit : split (· == '\n') rest = _ := hrest
      rw [List.count_cons_of_ne hc, ← ih]
      simp [lines, split, hc, hsplit]

theorem lines_of_notMem {s : List Char} (h : '\n' ∉ s) : lines s = [s] := by
  rw [lines, split_eq_splitOnP]
  refine List.splitOnP_eq_singleton ?_
  intro c hc
  exact beq_false_of_ne (ne_of_mem_of_not_mem hc h)

/-- The lines of texts that are put one below the other. -/
theorem lines_intercalate {texts : List (List Char)} (hne : texts ≠ []) :
    lines (['\n'].intercalate texts) = texts.flatMap lines := by
  induction texts with
  | nil => contradiction
  | cons first rest ih =>
    cases rest with
    | nil => simp
    | cons next rest =>
      have hjoin : ['\n'].intercalate (first :: next :: rest) =
          first ++ '\n' :: ['\n'].intercalate (next :: rest) := by simp
      rw [hjoin, lines_append_break, ih (List.cons_ne_nil next rest)]
      rfl

end DefaultImports.Text
