import DefaultImports.Text.Utf8
import Mathlib.Tactic.ByContra

/-! Decoding starts afresh at every ASCII byte, whatever stands before it, and only ASCII bytes
give ASCII characters. -/
namespace DefaultImports.Utf8

variable {b x : UInt8} {xs ys bytes : List UInt8} {n acc size m : Nat} {c : Char}

/-- What a piece reads as. -/
def Piece.shown : Piece → Char
  | .char c _ => c
  | .bad _ _ => replacement

theorem decodeLossy_eq (bytes : List UInt8) :
    decodeLossy bytes = (pieces bytes).map Piece.shown := by
  apply List.map_congr_left
  intro piece _
  cases piece <;> rfl

theorem isContinuation_of_ascii (hb : b < 0x80) : isContinuation b = false := by
  have hlt : ¬ 0x80 ≤ b := UInt8.not_le.mpr hb
  simp [isContinuation, hlt]

/-- A second byte is no ASCII byte, and it is too large for an overlong form. -/
theorem isSecond_bounds (h : isSecond b x = true) :
    0x80 ≤ x.toNat ∧ x.toNat ≤ 0xBF ∧ (b.toNat = 0xE0 → 0xA0 ≤ x.toNat) ∧
      (b.toNat = 0xF0 → 0x90 ≤ x.toNat) := by
  simp only [isSecond, Bool.and_eq_true, decide_eq_true_eq, beq_iff_eq, UInt8.le_iff_toNat_le,
    ← UInt8.toNat_inj, apply_ite UInt8.toNat, UInt8.reduceToNat] at h
  grind

theorem isSecond_of_ascii (hb : b < 0x80) (x : UInt8) : isSecond x b = false := by
  by_contra h
  have hbounds := isSecond_bounds (eq_true_of_ne_false h)
  simp only [UInt8.lt_iff_toNat_lt, UInt8.reduceToNat] at hb
  omega

/-- An ASCII byte behind some bytes ends a piece just where the end of the text does. -/
theorem continuation_append (hb : b < 0x80) (n acc size : Nat) (xs ys : List UInt8) :
    (continuation n acc size (xs ++ b :: ys)).shown = (continuation n acc size xs).shown ∧
      (continuation n acc size (xs ++ b :: ys)).size = (continuation n acc size xs).size ∧
      (continuation n acc size xs).size ≤ size + xs.length := by
  induction xs generalizing n acc size with
  | nil =>
    cases n with
    | zero => simp [continuation, Piece.size]
    | succ n => simp [continuation, isContinuation_of_ascii hb, Piece.shown, Piece.size]
  | cons x xs ih =>
    cases n with
    | zero => simp [continuation, Piece.size]
    | succ n =>
      rw [List.cons_append, continuation, continuation]
      split
      · obtain ⟨hshown, hsize, hle⟩ := ih n (acc * 64 + x.toNat % 64) (size + 1)
        refine ⟨hshown, hsize, ?_⟩
        simp only [List.length_cons]
        omega
      · simp [Piece.size]

theorem firstPiece_append (hb : b < 0x80) (x : UInt8) (xs ys : List UInt8) :
    (firstPiece x (xs ++ b :: ys)).shown = (firstPiece x xs).shown ∧
      (firstPiece x (xs ++ b :: ys)).size = (firstPiece x xs).size ∧
      (firstPiece x xs).size ≤ xs.length + 1 := by
  unfold firstPiece
  split
  · simp [Piece.size]
  · split
    · simp [Piece.size]
    · cases xs with
      | nil => simp [isSecond_of_ascii hb, Piece.shown, Piece.size]
      | cons c xs =>
        simp only [List.cons_append]
        split
        · obtain ⟨hshown, hsize, hle⟩ := continuation_append hb _ _ _ xs ys
          refine ⟨hshown, hsize, ?_⟩
          simp only [List.length_cons]
          omega
        · simp [Piece.size]

theorem piecesFrom_append (hb : b < 0x80) {skip : Nat} (hskip : skip ≤ xs.length) :
    (piecesFrom skip (xs ++ b :: ys)).map Piece.shown =
      (piecesFrom skip xs).map Piece.shown ++
        Char.ofNat b.toNat :: (pieces ys).map Piece.shown := by
  induction xs generalizing skip with
  | nil =>
    obtain rfl : skip = 0 := Nat.le_zero.mp hskip
    simp [piecesFrom, firstPiece, hb, Piece.shown, Piece.size, pieces]
  | cons x xs ih =>
    cases skip with
    | succ skip =>
      simp only [List.cons_append, piecesFrom]
      exact ih (Nat.le_of_succ_le_succ hskip)
    | zero =>
      obtain ⟨hshown, hsize, hle⟩ := firstPiece_append hb x xs ys
      simp only [List.cons_append, piecesFrom, List.map_cons, hshown, hsize]
      rw [ih (by omega)]

/-- Decoding can be cut at an ASCII byte. -/
theorem decodeLossy_append (hb : b < 0x80) (xs ys : List UInt8) :
    decodeLossy (xs ++ b :: ys) = decodeLossy xs ++ Char.ofNat b.toNat :: decodeLossy ys := by
  simp only [decodeLossy_eq, pieces]
  exact piecesFrom_append hb (Nat.zero_le _)

/-- How many bytes follow a start, by the range that the start is in. -/
theorem followers?_cases (h : followers? b = some n) :
    (n = 1 ∧ 0xC2 ≤ b.toNat ∧ b.toNat < 0xE0) ∨ (n = 2 ∧ 0xE0 ≤ b.toNat ∧ b.toNat < 0xF0) ∨
      (n = 3 ∧ 0xF0 ≤ b.toNat ∧ b.toNat < 0xF5) := by
  simp only [followers?, UInt8.lt_iff_toNat_lt, UInt8.reduceToNat] at h
  grind

/-- Every byte that follows makes the code larger. -/
theorem continuation_eq_char (h : continuation n acc size xs = .char c m) :
    ∃ k, acc ≤ k ∧ (n ≠ 0 → acc * 64 ≤ k) ∧ c = Char.ofNat k := by
  induction n generalizing acc size xs with
  | zero =>
    obtain ⟨rfl, -⟩ := Piece.char.inj h
    exact ⟨acc, Nat.le_refl acc, fun hn => absurd rfl hn, rfl⟩
  | succ n ih =>
    cases xs with
    | nil => cases h
    | cons x xs =>
      rw [continuation] at h
      split at h
      · obtain ⟨k, hk, -, rfl⟩ := ih h
        exact ⟨k, by omega, fun _ => by omega, rfl⟩
      · cases h

/-- No other piece than an ASCII byte reads as an ASCII character: the second bytes that are
allowed leave no overlong forms. -/
theorem firstPiece_eq_char (h : firstPiece b xs = .char c m) :
    (b < 0x80 ∧ c = Char.ofNat b.toNat) ∨ ∃ k, 0x80 ≤ k ∧ c = Char.ofNat k := by
  unfold firstPiece at h
  split at h
  · rename_i hb
    obtain ⟨rfl, -⟩ := Piece.char.inj h
    exact Or.inl ⟨hb, rfl⟩
  · right
    split at h
    · cases h
    · rename_i n hn
      cases xs with
      | nil => cases h
      | cons x xs =>
        simp only at h
        split at h
        · rename_i hsecond
          obtain ⟨k, hk, hmore, rfl⟩ := continuation_eq_char h
          refine ⟨k, ?_, rfl⟩
          have hbounds := isSecond_bounds hsecond
          rcases followers?_cases hn with
            ⟨rfl, hlow, hhigh⟩ | ⟨rfl, hlow, hhigh⟩ | ⟨rfl, hlow, hhigh⟩
          · simp only [Nat.pow_eq, Nat.reduceSub, Nat.reducePow] at hk
            omega
          · have hthird := hmore (by decide)
            simp only [Nat.pow_eq, Nat.reduceSub, Nat.reducePow] at hthird
            omega
          · have hthird := hmore (by decide)
            simp only [Nat.pow_eq, Nat.reduceSub, Nat.reducePow] at hthird
            omega
        · cases h

theorem toNat_ofNat_cases (k : Nat) : (Char.ofNat k).toNat = k ∨ (Char.ofNat k).toNat = 0 := by
  by_cases h : k.isValidChar
  · left
    rw [Char.ofNat, dif_pos h]
    rfl
  · right
    rw [Char.ofNat, dif_neg h]
    rfl

theorem ofNat_shown_firstPiece (hpos : 0 < (firstPiece b xs).shown.toNat)
    (hascii : (firstPiece b xs).shown.toNat < 0x80) :
    UInt8.ofNat (firstPiece b xs).shown.toNat = b := by
  cases h : firstPiece b xs with
  | bad size reason =>
    rw [h] at hascii
    cases (by decide : ¬ replacement.toNat < 0x80) hascii
  | char c size =>
    rw [h, Piece.shown] at hpos hascii
    rw [Piece.shown]
    rcases firstPiece_eq_char h with ⟨hb, rfl⟩ | ⟨k, hk, rfl⟩
    · rcases toNat_ofNat_cases b.toNat with hcode | hcode
      · rw [hcode, UInt8.ofNat_toNat]
      · omega
    · rcases toNat_ofNat_cases k with hcode | hcode <;> omega

/-- An ASCII character is read off the byte with its code. -/
theorem mem_of_mem_decodeLossy (hc : c ∈ decodeLossy bytes) (hpos : 0 < c.toNat)
    (hascii : c.toNat < 0x80) : UInt8.ofNat c.toNat ∈ bytes := by
  have hpieces : ∀ skip, ∀ piece ∈ piecesFrom skip bytes, piece.shown = c →
      UInt8.ofNat c.toNat ∈ bytes := by
    clear hc
    induction bytes with
    | nil => simp [piecesFrom]
    | cons b rest ih =>
      intro skip piece hpiece hshown
      cases skip with
      | succ skip => exact List.mem_cons_of_mem b (ih skip piece hpiece hshown)
      | zero =>
        rcases List.mem_cons.mp hpiece with rfl | hpiece
        · subst hshown
          rw [ofNat_shown_firstPiece hpos hascii]
          exact List.mem_cons_self
        · exact List.mem_cons_of_mem b (ih _ piece hpiece hshown)
  rw [decodeLossy_eq] at hc
  obtain ⟨piece, hpiece, hshown⟩ := List.mem_map.mp hc
  exact hpieces 0 piece hpiece hshown

end DefaultImports.Utf8
