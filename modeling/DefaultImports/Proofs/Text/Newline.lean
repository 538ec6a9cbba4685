import DefaultImports.Proofs.Text.Utf8
import DefaultImports.Workspace

/-! How the text of a file depends on its line breaks, and on what is put at its end. -/
namespace DefaultImports

namespace Text

variable {cs z : List Char}

theorem unifyNewlines_cons {c : Char} (hc : c ≠ '\r') (cs : List Char) :
    unifyNewlines (c :: cs) = c :: unifyNewlines cs := by
  simp [unifyNewlines, hc]

theorem unifyNewlines_return (h : cs.head? ≠ some '\n') :
    unifyNewlines ('\r' :: cs) = '\n' :: unifyNewlines cs := by
  cases cs with
  | nil => rfl
  | cons c cs =>
    have hc : c ≠ '\n' := by simpa using h
    simp [unifyNewlines, hc]

theorem unifyNewlines_of_notMem (h : '\r' ∉ cs) : unifyNewlines cs = cs := by
  induction cs with
  | nil => rfl
  | cons c cs ih =>
    obtain ⟨hc, hcs⟩ := not_or.mp (mt List.mem_cons.mpr h)
    rw [unifyNewlines_cons (Ne.symm hc), ih hcs]

/-- A line break behind a text stays, unless it makes one break with the end of the text. -/
theorem unifyNewlines_append_break (cs z : List Char) :
    ∃ ds, unifyNewlines (cs ++ '\n' :: z) = ds ++ '\n' :: unifyNewlines z ∧
      (unifyNewlines cs = ds ∨ unifyNewlines cs = ds ++ ['\n']) := by
  fun_induction unifyNewlines cs with
  | case1 => exact ⟨[], rfl, Or.inl rfl⟩
  | case2 rest ih =>
    obtain ⟨ds, happend, htext⟩ := ih
    refine ⟨'\n' :: ds, congrArg ('\n' :: ·) happend, ?_⟩
    exact htext.imp (congrArg ('\n' :: ·)) (congrArg ('\n' :: ·))
  | case3 rest hrest ih =>
    cases rest with
    | nil => exact ⟨[], rfl, Or.inr rfl⟩
    | cons c rest =>
      obtain ⟨ds, happend, htext⟩ := ih
      have hhead : (c :: (rest ++ '\n' :: z)).head? ≠ some '\n' := by
        intro hc
        exact hrest rest (by rw [← Option.some.inj hc])
      refine ⟨'\n' :: ds, ?_, ?_⟩
      · rw [List.cons_append, List.cons_append, unifyNewlines_return hhead]
        exact congrArg ('\n' :: ·) happend
      · exact htext.imp (congrArg ('\n' :: ·)) (congrArg ('\n' :: ·))
  | case4 c rest hcrlf hcr ih =>
    obtain ⟨ds, happend, htext⟩ := ih
    refine ⟨c :: ds, ?_, ?_⟩
    · rw [List.cons_append, unifyNewlines_cons hcr]
      exact congrArg (c :: ·) happend
    · exact htext.imp (congrArg (c :: ·)) (congrArg (c :: ·))

/-- Puts `ys` in the place of every `a`. -/
def replaceEach {α : Type} [BEq α] (a : α) (ys xs : List α) : List α :=
  xs.flatMap fun b => if b == a then ys else [b]

section ReplaceEach

variable {α : Type} [BEq α] {a b : α} {ys xs : List α}

theorem replaceEach_append (xs zs : List α) :
    replaceEach a ys (xs ++ zs) = replaceEach a ys xs ++ replaceEach a ys zs :=
  List.flatMap_append

variable [LawfulBEq α]

theorem replaceEach_cons_self (xs : List α) :
    replaceEach a ys (a :: xs) = ys ++ replaceEach a ys xs := by
  simp [replaceEach]

theorem replaceEach_cons_ne (h : b ≠ a) (xs : List α) :
    replaceEach a ys (b :: xs) = b :: replaceEach a ys xs := by
  simp [replaceEach, h]

theorem replaceEach_of_notMem (h : a ∉ xs) : replaceEach a ys xs = xs := by
  induction xs with
  | nil => rfl
  | cons b xs ih =>
    obtain ⟨hb, hxs⟩ := not_or.mp (mt List.mem_cons.mpr h)
    rw [replaceEach_cons_ne (Ne.symm hb), ih hxs]

theorem notMem_replaceEach (h : a ∉ ys) : a ∉ replaceEach a ys xs := by
  intro hmem
  obtain ⟨b, -, hb⟩ := List.mem_flatMap.mp hmem
  split at hb
  · exact h hb
  · rename_i hne
    obtain rfl := List.mem_singleton.mp hb
    exact hne (beq_self_eq_true a)

end ReplaceEach

end Text

/-- The ways to end a line other than `\n` alone. -/
inductive LineEnding where
  | crlf
  | cr
deriving DecidableEq, Repr

namespace LineEnding

def bytes : LineEnding → List UInt8
  | crlf => [0x0D, 0x0A]
  | cr => [0x0D]

def chars : LineEnding → List Char
  | crlf => ['\r', '\n']
  | cr => ['\r']

/-- Writes every `\n` of a file in another way. -/
def convert (e : LineEnding) (xs : List UInt8) : List UInt8 := Text.replaceEach 0x0A e.bytes xs

variable (e : LineEnding) {xs : List UInt8} {cs : List Char}

theorem decodeLossy_bytes_append (xs ys : List UInt8) :
    Utf8.decodeLossy (xs ++ (e.bytes ++ ys)) =
      Utf8.decodeLossy xs ++ (e.chars ++ Utf8.decodeLossy ys) := by
  have hcr (zs : List UInt8) : Utf8.decodeLossy (xs ++ 0x0D :: zs) =
      Utf8.decodeLossy xs ++ '\r' :: Utf8.decodeLossy zs :=
    Utf8.decodeLossy_append (by decide) xs zs
  cases e with
  | crlf =>
    have hlf : Utf8.decodeLossy (0x0A :: ys) = '\n' :: Utf8.decodeLossy ys :=
      Utf8.decodeLossy_append (by decide) [] ys
    exact (hcr (0x0A :: ys)).trans (by rw [hlf]; rfl)
  | cr => exact hcr ys

/-- Converting the bytes converts the text, well-formed or not. -/
theorem decodeLossy_convert (xs : List UInt8) :
    Utf8.decodeLossy (e.convert xs) = Text.replaceEach '\n' e.chars (Utf8.decodeLossy xs) := by
  induction hn : xs.length using Nat.strongRecOn generalizing xs with
  | ind n ih =>
    have hline {zs : List UInt8} (hzs : 0x0A ∉ zs) : '\n' ∉ Utf8.decodeLossy zs := by
      intro hmem
      exact hzs (Utf8.mem_of_mem_decodeLossy hmem (by decide) (by decide))
    by_cases hmem : 0x0A ∈ xs
    · -- up to the first line break nothing changes, and behind it decoding starts afresh
      obtain ⟨zs, ys, rfl, hzs⟩ := List.eq_append_cons_of_mem hmem
      have hys := ih ys.length (by simp at hn; omega) ys rfl
      have hcut : Utf8.decodeLossy (zs ++ 0x0A :: ys) =
          Utf8.decodeLossy zs ++ '\n' :: Utf8.decodeLossy ys :=
        Utf8.decodeLossy_append (by decide) zs ys
      rw [convert, Text.replaceEach_append, Text.replaceEach_of_notMem hzs,
        Text.replaceEach_cons_self, decodeLossy_bytes_append, hcut, Text.replaceEach_append,
        Text.replaceEach_of_notMem (hline hzs), Text.replaceEach_cons_self]
      exact congrArg (fun ds => _ ++ (e.chars ++ ds)) hys
    · rw [convert, Text.replaceEach_of_notMem hmem, Text.replaceEach_of_notMem (hline hmem)]

/-- Line breaks read the same however they are written. -/
theorem unifyNewlines_replaceEach (h : '\r' ∉ cs) :
    Text.unifyNewlines (Text.replaceEach '\n' e.chars cs) = cs := by
  induction cs with
  | nil => rfl
  | cons c cs ih =>
    obtain ⟨hc, hcs⟩ := not_or.mp (mt List.mem_cons.mpr h)
    by_cases hline : c = '\n'
    · subst hline
      rw [Text.replaceEach_cons_self]
      cases e with
      | crlf => exact congrArg ('\n' :: ·) (ih hcs)
      | cr =>
        have hhead : (Text.replaceEach '\n' ['\r'] cs).head? ≠ some '\n' := fun hhead =>
          Text.notMem_replaceEach (by decide) (List.mem_of_mem_head? hhead)
        exact (Text.unifyNewlines_return hhead).trans (congrArg ('\n' :: ·) (ih hcs))
    · rw [Text.replaceEach_cons_ne hline, Text.unifyNewlines_cons (Ne.symm hc), ih hcs]

/-- The text of a file without `\r` does not depend on how its lines end. -/
theorem sourceText_convert (h : 0x0D ∉ xs) :
    Workspace.sourceText (e.convert xs) = Workspace.sourceText xs := by
  have hreturn : '\r' ∉ Utf8.decodeLossy xs := by
    intro hmem
    exact h (Utf8.mem_of_mem_decodeLossy hmem (by decide) (by decide))
  rw [Workspace.sourceText, decodeLossy_convert, unifyNewlines_replaceEach e hreturn,
    Workspace.sourceText, Text.unifyNewlines_of_notMem hreturn]

end LineEnding

end DefaultImports
