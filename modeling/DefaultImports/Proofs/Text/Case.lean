import DefaultImports.Text.Space
import DefaultImports.Text.Split
import DefaultImports.Text.Word

/-! Texts in small letters. Only the 26 capital letters of ASCII are changed, so that no space, no
line break and no end of a word is made or lost. -/
namespace DefaultImports.Text

variable {c d : Char}

theorem toLower_of_not_capital (hc : ¬ (65 ≤ c.toNat ∧ c.toNat ≤ 90)) : c.toLower = c := by
  unfold Char.toLower
  refine dif_neg fun h => hc ?_
  exact ⟨UInt32.le_iff_toNat_le.mp h.1, UInt32.le_iff_toNat_le.mp h.2⟩

theorem toNat_toLower (hc : 65 ≤ c.toNat ∧ c.toNat ≤ 90) : c.toLower.toNat = c.toNat + 32 := by
  have hcapital : 'A'.val ≤ c.val ∧ c.val ≤ 'Z'.val :=
    ⟨UInt32.le_iff_toNat_le.mpr hc.1, UInt32.le_iff_toNat_le.mpr hc.2⟩
  have hvalue : c.toLower.val = c.val + ('a'.val - 'A'.val) := by
    unfold Char.toLower
    rw [dif_pos hcapital]
  have hsum := congrArg UInt32.toNat hvalue
  rw [UInt32.toNat_add] at hsum
  have hsmall : c.val.toNat + ('a'.val - 'A'.val).toNat < 2 ^ 32 := by
    have hle : c.val.toNat ≤ 90 := hc.2
    exact Nat.lt_of_le_of_lt (Nat.add_le_add_right hle _) (by decide)
  rwa [Nat.mod_eq_of_lt hsmall] at hsum

/-- Only letters are changed, and only into letters. -/
theorem toLower_eq_iff (hc : ¬ (65 ≤ c.toNat ∧ c.toNat ≤ 90) ∧ ¬ (97 ≤ c.toNat ∧ c.toNat ≤ 122)) :
    d.toLower = c ↔ d = c := by
  by_cases hd : 65 ≤ d.toNat ∧ d.toNat ≤ 90
  · have hlower := toNat_toLower hd
    constructor
    · rintro rfl
      omega
    · rintro rfl
      omega
  · rw [toLower_of_not_capital hd]

theorem toLower_toLower (c : Char) : c.toLower.toLower = c.toLower := by
  by_cases hc : 65 ≤ c.toNat ∧ c.toNat ≤ 90
  · have hlower := toNat_toLower hc
    exact toLower_of_not_capital (by omega)
  · rw [toLower_of_not_capital hc, toLower_of_not_capital hc]

/-- A property of the capital letters of ASCII, checked one by one. -/
theorem capital_forall {P : Char → Prop} (h : ∀ n < 91, 65 ≤ n → P (Char.ofNat n))
    (hc : 65 ≤ c.toNat ∧ c.toNat ≤ 90) : P c := by
  have hletter := h c.toNat (Nat.lt_succ_of_le hc.2) hc.1
  rwa [Char.ofNat_toNat] at hletter

/-- A class that does not tell the capital letters from the small ones does not see the case of a
text. -/
theorem apply_toLower {p : Char → Bool}
    (h : ∀ n < 91, 65 ≤ n → p (Char.ofNat n).toLower = p (Char.ofNat n)) (c : Char) :
    p c.toLower = p c := by
  by_cases hc : 65 ≤ c.toNat ∧ c.toNat ≤ 90
  · exact capital_forall (P := fun c => p c.toLower = p c) h hc
  · rw [toLower_of_not_capital hc]

theorem isSpace_toLower (c : Char) : isSpace c.toLower = isSpace c :=
  apply_toLower (by decide +kernel) c

theorem isWord_toLower (c : Char) : isWord c.toLower = isWord c :=
  apply_toLower (by decide +kernel) c

theorem lines_map_toLower (s : List Char) :
    lines (s.map Char.toLower) = (lines s).map (List.map Char.toLower) := by
  have hbreak (c : Char) : (c.toLower == '\n') = (c == '\n') := by
    rw [Bool.eq_iff_iff, beq_iff_eq, beq_iff_eq, toLower_eq_iff (by decide)]
  unfold lines
  induction s with
  | nil => rfl
  | cons c s ih =>
    rw [List.map_cons, split, split, hbreak, ih]
    split
    · rfl
    · cases split (· == '\n') s <;> rfl

end DefaultImports.Text
