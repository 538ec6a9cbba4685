import DefaultImports.Proofs.Text.Run

/-! Space taken off the two ends of a text. Main statement: `stripped_iff`, trimming takes off all
of it and nothing else. -/
namespace DefaultImports.Text

variable {before core after xs line raw : List Char}

theorem dropWhile_of_head? {p : Char → Bool} (h : xs.head?.any p = false) :
    xs.dropWhile p = xs := by
  cases xs with
  | nil => rfl
  | cons x xs =>
    have hx : p x = false := by simpa using h
    rw [List.dropWhile_cons_of_neg (by simp [hx])]

theorem trim_append (hbefore : ∀ c ∈ before, isSpace c = true) (core : List Char) :
    trim (before ++ core) = trim core := by
  rw [trim, trimStart, List.dropWhile_append_of_pos hbefore]
  rfl

/-- Trimming takes off the space around a text that neither starts nor ends with space. -/
theorem trim_surround (hbefore : ∀ c ∈ before, isSpace c = true)
    (hfirst : core.head?.any isSpace = false) (hlast : core.reverse.head?.any isSpace = false)
    (hafter : ∀ c ∈ after, isSpace c = true) : trim (before ++ (core ++ after)) = core := by
  rw [trim_append hbefore]
  cases core with
  | nil =>
    have hdrop := trim_append hafter []
    rwa [List.append_nil] at hdrop
  | cons c cs =>
    have hstart : (c :: cs ++ after).dropWhile isSpace = c :: cs ++ after :=
      dropWhile_of_head? hfirst
    rw [trim, trimStart, hstart, trimEnd, List.reverse_append,
      List.dropWhile_append_of_pos (by simpa using hafter), dropWhile_of_head? hlast,
      List.reverse_reverse]

/-- The text `raw` is a line without the space at its two ends. -/
def Stripped (line raw : List Char) : Prop :=
  raw.head?.any isSpace = false ∧ raw.reverse.head?.any isSpace = false ∧
    ∃ before after : Spaces, line = before.text ++ (raw ++ after.text)

theorem stripped_trim (line : List Char) : Stripped line (trim line) := by
  have hstart := List.takeWhile_append_dropWhile (p := isSpace) (l := line)
  have hend := List.takeWhile_append_dropWhile (p := isSpace) (l := (trimStart line).reverse)
  have hsplit : trim line ++ ((trimStart line).reverse.takeWhile isSpace).reverse =
      trimStart line := by
    rw [trim, trimEnd, ← List.reverse_append, hend, List.reverse_reverse]
  refine ⟨?_, ?_, ⟨line.takeWhile isSpace, fun _ => of_mem_takeWhile⟩,
    ⟨((trimStart line).reverse.takeWhile isSpace).reverse, ?_⟩, ?_⟩
  · have hfirst := head?_dropWhile_any isSpace line
    rw [← trimStart, ← hsplit] at hfirst
    cases htrim : trim line with
    | nil => rfl
    | cons c cs => simpa [htrim] using hfirst
  · rw [trim, trimEnd, List.reverse_reverse]
    exact head?_dropWhile_any isSpace _
  · intro c hc
    exact of_mem_takeWhile (List.mem_reverse.mp hc)
  · rw [hsplit]
    exact hstart.symm

theorem isInfix_trim (line : List Char) : trim line <:+: line := by
  obtain ⟨-, -, before, after, hline⟩ := stripped_trim line
  exact ⟨before.text, after.text, by rw [List.append_assoc, ← hline]⟩

theorem stripped_iff : Stripped line raw ↔ raw = trim line := by
  constructor
  · rintro ⟨hfirst, hlast, before, after, rfl⟩
    exact (trim_surround before.all hfirst hlast after.all).symm
  · rintro rfl
    exact stripped_trim line

end DefaultImports.Text
