import DefaultImports.Binding

/-! Runs of characters of one class, and how a text splits after a part of such a run. -/
namespace DefaultImports.Text

variable {p q : Char → Bool} {c : Char} {w xs ys xs' ys' : List Char}

/-- Any number of characters of a class. -/
structure Run (p : Char → Bool) where
  text : List Char
  all : ∀ c ∈ text, p c = true

/-- At least one character of a class. -/
structure Run1 (p : Char → Bool) extends Run p where
  ne_nil : text ≠ []

abbrev Spaces := Run isSpace

abbrev Gap := Run1 isSpace

def Run1.reverse (r : Run1 p) : Run1 p where
  text := r.text.reverse
  all := by simpa using r.all
  ne_nil := by simpa using r.ne_nil

theorem disjoint_symm (h : ∀ c, p c = true → q c = false) (hq : q c = true) : p c = false := by
  cases hp : p c with
  | false => rfl
  | true => rw [h c hp] at hq; cases hq

theorem Run1.head?_any (r : Run1 p) (h : ∀ c, p c = true → q c = false) (rest : List Char) :
    (r.text ++ rest).head?.any q = false := by
  obtain ⟨c, cs, hr⟩ := List.exists_cons_of_ne_nil r.ne_nil
  simpa [hr] using h c (r.all c (by simp [hr]))

theorem head?_append_any (hxs : ∀ c ∈ xs, q c = false) (hys : ys.head?.any q = false) :
    (xs ++ ys).head?.any q = false := by
  cases xs with
  | nil => exact hys
  | cons x xs => simpa using hxs x (by simp)

theorem head?_any_mono (h : ∀ c, p c = true → q c = true) (hq : xs.head?.any q = false) :
    xs.head?.any p = false := by
  cases xs with
  | nil => rfl
  | cons x xs =>
    cases hx : p x with
    | false => exact hx
    | true => simp [h x hx] at hq

theorem head?_dropWhile_any (p : Char → Bool) (s : List Char) :
    (s.dropWhile p).head?.any p = false := by
  cases hdrop : s.dropWhile p with
  | nil => rfl
  | cons c cs => simpa [hdrop] using List.head?_dropWhile_not p s

theorem of_mem_takeWhile {s : List Char} (h : c ∈ s.takeWhile p) : p c = true :=
  List.all_eq_true.mp List.all_takeWhile c h

/-- Characters of a class that are split off at the front of a text come from the run that
the text starts with. -/
theorem eq_append_of_run (h : xs ++ ys = xs' ++ ys') (hxs' : ∀ c ∈ xs', p c = true)
    (hys : ys.head?.any p = false) : ∃ zs, xs = xs' ++ zs ∧ ys' = zs ++ ys := by
  rcases List.append_eq_append_iff.mp h with ⟨zs, rfl, rfl⟩ | ⟨zs, rfl, rfl⟩
  · -- the split would reach into `ys`, which starts with another class
    cases zs with
    | nil => exact ⟨[], by simp, by simp⟩
    | cons z zs =>
      have hz : p z = true := hxs' z (by simp)
      simp [hz] at hys
  · exact ⟨zs, rfl, rfl⟩

/-- A text has one run of a class at its front that is followed by something else. -/
theorem append_inj_of_run (h : xs ++ ys = xs' ++ ys') (hxs : ∀ c ∈ xs, p c = true)
    (hxs' : ∀ c ∈ xs', p c = true) (hys : ys.head?.any p = false)
    (hys' : ys'.head?.any p = false) : xs = xs' ∧ ys = ys' := by
  obtain ⟨zs, rfl, rfl⟩ := eq_append_of_run h hxs' hys
  cases zs with
  | nil => exact ⟨List.append_nil xs', rfl⟩
  | cons z zs =>
    have hz : p z = true := hxs z (by simp)
    simp [hz] at hys'

theorem prefix_of_prefix_append (h : w <+: xs ++ ys) (hys : ∀ c ∈ w, ys.head? ≠ some c) :
    w <+: xs := by
  obtain ⟨zs, hzs⟩ := h
  rcases List.append_eq_append_iff.mp hzs with ⟨as, rfl, -⟩ | ⟨as, rfl, rfl⟩
  · exact List.prefix_append w as
  · cases as with
    | nil => simp
    | cons a as => exact absurd rfl (hys a (by simp))

/-- The first character of a word tells that a text does not start with it. -/
theorem not_prefix_of_head? (hys : ys.head?.any p = false) (hc : p c = true) :
    ¬ c :: w <+: ys := by
  rintro ⟨zs, rfl⟩
  simp [hc] at hys

/-- The code points of the spaces. -/
def spaceCodes : List Nat :=
  List.range' 9 5 ++ List.range' 28 5 ++ [0x85, 0xA0, 0x1680] ++ List.range' 0x2000 11 ++
    [0x2028, 0x2029, 0x202F, 0x205F, 0x3000]

theorem mem_spaceCodes (h : isSpace c = true) : c.toNat ∈ spaceCodes := by
  simp only [isSpace, Bool.or_eq_true, Bool.and_eq_true, decide_eq_true_eq, beq_iff_eq] at h
  simp only [spaceCodes, List.mem_append, List.mem_range'_1, List.mem_cons, List.not_mem_nil,
    or_false]
  omega

/-- No space is part of an identifier. -/
theorem isNameChar_of_isSpace (h : isSpace c = true) : Surface.isNameChar c = false := by
  have hall : ∀ n ∈ spaceCodes, Surface.isNameChar (Char.ofNat n) = false := by decide +kernel
  rw [← Char.ofNat_toNat c]
  exact hall _ (mem_spaceCodes h)

theorem isSpace_of_isNameChar (h : Surface.isNameChar c = true) : isSpace c = false :=
  disjoint_symm (fun _ => isNameChar_of_isSpace) h

theorem isNameChar_of_isNameStart (h : Binding.isNameStart c = true) :
    Surface.isNameChar c = true := by
  have hall : ∀ n < 128, Binding.isNameStart (Char.ofNat n) = true →
      Surface.isNameChar (Char.ofNat n) = true := by decide +kernel
  have hascii : c.toNat < 128 := by
    simp only [Binding.isNameStart, isAsciiLetter, Bool.or_eq_true, Bool.and_eq_true,
      decide_eq_true_eq, beq_iff_eq] at h
    rcases h with (h | rfl) | rfl
    · omega
    · decide
    · decide
  rw [← Char.ofNat_toNat c] at h ⊢
  exact hall _ hascii h

theorem isNameStart_of_isSpace (h : isSpace c = true) : Binding.isNameStart c = false :=
  disjoint_symm (fun _ hc => isSpace_of_isNameChar (isNameChar_of_isNameStart hc)) h

end DefaultImports.Text
