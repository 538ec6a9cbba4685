import DefaultImports.Proofs.Pattern.Ends

/-! The preferred match of a pattern, followed part by part along the text it reads, and the
search for matches in a text that is known piece by piece. -/
namespace DefaultImports.Pattern

variable {ι : Type} {p : Char → Bool} {a b c : Pattern ι} {s t u : Progress ι}
  {passed text xs ys rest : List Char} {w : String} {m : Found ι}

theorem ends_append (a b : Pattern ι) (s : Progress ι) :
    (a ++ b).ends s = (a.ends s).flatMap b.ends := rfl

theorem mem_ends_append : t ∈ (a ++ b).ends s ↔ ∃ u ∈ a.ends s, t ∈ b.ends u :=
  List.mem_flatMap

theorem ends_append_assoc (a b c : Pattern ι) (s : Progress ι) :
    (a ++ b ++ c).ends s = (a ++ (b ++ c)).ends s := by
  simp only [ends_append, List.flatMap_assoc]
  rfl

theorem ends_orElse (a b : Pattern ι) (s : Progress ι) :
    (a <|> b).ends s = a.ends s ++ b.ends s := rfl

theorem ends_maybe (a : Pattern ι) (s : Progress ι) : (maybe a).ends s = a.ends s ++ [s] := rfl

/-- The preferred way to match the pattern leads from one state to the other. -/
def Takes (a : Pattern ι) (s t : Progress ι) : Prop := (a.ends s).head? = some t

theorem takes_append (ha : Takes a s t) (hb : Takes b t u) : Takes (a ++ b) s u := by
  obtain ⟨others, h⟩ := List.head?_eq_some_iff.mp ha
  rw [Takes, ends_append, h, List.flatMap_cons, List.head?_append,
    show (b.ends t).head? = _ from hb]
  rfl

theorem takes_append_assoc : Takes (a ++ b ++ c) s t ↔ Takes (a ++ (b ++ c)) s t := by
  rw [Takes, ends_append_assoc, Takes]

theorem takes_orElse_left (ha : Takes a s t) : Takes (a <|> b) s t := by
  rw [Takes, ends_orElse, List.head?_append, show (a.ends s).head? = _ from ha]
  rfl

theorem takes_orElse_right (ha : Refuses a s.cursor.rest) (hb : Takes b s t) :
    Takes (a <|> b) s t := by
  rw [Takes, ends_orElse, ends_of_refuses ha]
  exact hb

/-- An optional part is left out when nothing that follows can go on behind it. -/
theorem takes_maybe_append_skip (ha : Refuses (a ++ b) s.cursor.rest) (hb : Takes b s t) :
    Takes (maybe a ++ b) s t := by
  have h : (a.ends s).flatMap b.ends = [] := ends_of_refuses ha
  rw [Takes, ends_append, ends_maybe, List.flatMap_append, h, List.nil_append,
    List.flatMap_singleton]
  exact hb

theorem takes_edge {p : Cursor → Bool} (h : p s.cursor = true) : Takes (edge p) s s := by
  rw [Takes, ends, if_pos h]
  rfl

theorem takes_capture (label : ι) (h : Takes a s t) :
    Takes (capture label a) s (t.record label s) := by
  rw [Takes, ends, List.head?_map, show (a.ends s).head? = _ from h]
  rfl

/-- Before `xs ++ rest`, the preferred match of the pattern is `xs`, and nothing is captured. -/
def Reads (a : Pattern ι) (xs rest : List Char) : Prop :=
  ∀ s : Progress ι, s.cursor.rest = xs ++ rest → Takes a s (s.past xs rest)

theorem reads_empty : Reads (empty : Pattern ι) [] rest := by
  intro s hs
  obtain rfl : s.cursor.rest = rest := hs
  rfl

theorem reads_append (ha : Reads a xs (ys ++ rest)) (hb : Reads b ys rest) :
    Reads (a ++ b) (xs ++ ys) rest := by
  intro s hs
  have htail := hb (s.past xs (ys ++ rest)) rfl
  rw [Progress.past_past] at htail
  exact takes_append (ha s (by simpa using hs)) htail

theorem reads_orElse_left (ha : Reads a xs rest) : Reads (a <|> b) xs rest :=
  fun s hs => takes_orElse_left (ha s hs)

theorem reads_orElse_right (ha : Refuses a (xs ++ rest)) (hb : Reads b xs rest) :
    Reads (a <|> b) xs rest :=
  fun s hs => takes_orElse_right (hs ▸ ha) (hb s hs)

theorem reads_maybe (ha : Reads a xs rest) : Reads (maybe a) xs rest := reads_orElse_left ha

theorem reads_maybe_skip (ha : Refuses a rest) : Reads (maybe a) [] rest :=
  reads_orElse_right ha reads_empty

theorem reads_one {c : Char} (hc : p c = true) : Reads (one p : Pattern ι) [c] rest := by
  intro s hs
  rw [Takes, ends, hs]
  simp [hc, Progress.past]

theorem reads_char (c : Char) : Reads (char c : Pattern ι) [c] rest :=
  reads_one (beq_self_eq_true c)

theorem reads_each (cs : List Char) : Reads (each (fun c d => d == c) cs : Pattern ι) cs rest := by
  induction cs with
  | nil => exact reads_empty
  | cons c cs ih =>
    cases cs with
    | nil => exact reads_char c
    | cons d cs => exact reads_append (reads_char c) ih

theorem reads_word (w : String) : Reads (word w : Pattern ι) w.toList rest := reads_each w.toList

/-- The longest run comes first. -/
theorem reads_many (hxs : ∀ c ∈ xs, p c = true) (hrest : rest.head?.any p = false) :
    Reads (many p : Pattern ι) xs rest := by
  have hrun : ∀ n passed, (manyEnds p n passed (xs ++ rest)).head? =
      some (⟨xs.reverse ++ passed, rest⟩, n + xs.length) := by
    induction xs with
    | nil =>
      intro n passed
      cases rest with
      | nil => rfl
      | cons c rest =>
        have hc : p c = false := by simpa using hrest
        simp [manyEnds, hc]
    | cons c xs ih =>
      intro n passed
      rw [List.cons_append, manyEnds, if_pos (hxs c (by simp)), List.head?_append,
        ih (fun x hx => hxs x (by simp [hx]))]
      simp [Nat.add_assoc, Nat.add_comm 1]
  intro s hs
  rw [Takes, ends, hs, List.head?_map, hrun]
  rfl

/-- A run gives its last character back when what follows needs it. -/
theorem takes_many_append_shorter {c : Char} (hxs : ∀ d ∈ xs, p d = true) (hc : p c = true)
    (hrest : rest.head?.any p = false) (hs : s.cursor.rest = xs ++ c :: rest)
    (hb : Refuses b rest) (ht : Takes b (s.past xs (c :: rest)) t) : Takes (many p ++ b) s t := by
  have hrun : ∀ n passed, ∃ others, manyEnds p n passed (xs ++ c :: rest) =
      (⟨(xs ++ [c]).reverse ++ passed, rest⟩, n + (xs.length + 1)) ::
        (⟨xs.reverse ++ passed, c :: rest⟩, n + xs.length) :: others := by
    clear hs ht
    induction xs with
    | nil =>
      intro n passed
      refine ⟨[], ?_⟩
      cases rest with
      | nil => simp [manyEnds, hc]
      | cons d rest =>
        have hd : p d = false := by simpa using hrest
        simp [manyEnds, hc, hd]
    | cons d xs ih =>
      intro n passed
      obtain ⟨others, h⟩ := ih (fun x hx => hxs x (by simp [hx])) (n + 1) (d :: passed)
      refine ⟨others ++ [(⟨passed, d :: (xs ++ c :: rest)⟩, n)], ?_⟩
      rw [List.cons_append, manyEnds, if_pos (hxs d (by simp)), h]
      simp [Nat.add_assoc, Nat.add_comm 1]
  obtain ⟨others, h⟩ := hrun s.size s.cursor.passed
  have hfirst : b.ends (s.past (xs ++ [c]) rest) = [] := ends_of_refuses hb
  have hmany : (many p).ends s = s.past (xs ++ [c]) rest :: s.past xs (c :: rest) ::
      others.map fun e => s.moveTo e.1 e.2 := by
    rw [ends, hs, h]
    simp [Progress.past]
  rw [Takes, ends_append, hmany, List.flatMap_cons, hfirst, List.nil_append, List.flatMap_cons,
    List.head?_append, show (b.ends _).head? = _ from ht]
  rfl

theorem reads_oneOrMore (hne : xs ≠ []) (hxs : ∀ c ∈ xs, p c = true)
    (hrest : rest.head?.any p = false) : Reads (oneOrMore p : Pattern ι) xs rest := by
  obtain ⟨c, xs, rfl⟩ := List.exists_cons_of_ne_nil hne
  exact reads_append (reads_one (hxs c (by simp)))
    (reads_many (fun x hx => hxs x (by simp [hx])) hrest)

theorem at?_eq_head? (a : Pattern ι) (c : Cursor) :
    a.at? c = (a.ends ⟨c, 0, []⟩).head?.map fun s => ⟨c, s.size, s.captures⟩ := by
  rw [at?, run_eq_findSome?]
  cases a.ends ⟨c, 0, []⟩ <;> rfl

theorem start_of_at? {c : Cursor} (hm : a.at? c = some m) : m.start = c := by
  rw [at?_eq_head?] at hm
  obtain ⟨t, -, rfl⟩ := Option.map_eq_some_iff.mp hm
  rfl

theorem at?_of_takes {c : Cursor} (h : Takes a ⟨c, 0, []⟩ t) :
    a.at? c = some ⟨c, t.size, t.captures⟩ := by
  rw [at?_eq_head?, show (a.ends _).head? = _ from h]
  rfl

theorem at?_of_refuses (h : Refuses a rest) (passed : List Char) : a.at? ⟨passed, rest⟩ = none := by
  have hends : a.ends ⟨⟨passed, rest⟩, 0, []⟩ = [] := ends_of_refuses h
  rw [at?_eq_head?, hends]
  rfl

/-- No match starts at a character of `xs`, where `xs` stands between `passed` and `rest`. -/
def Misses (a : Pattern ι) (passed xs rest : List Char) : Prop :=
  ∀ ys zs, xs = ys ++ zs → zs ≠ [] → a.at? ⟨ys.reverse ++ passed, zs ++ rest⟩ = none

theorem misses_nil (a : Pattern ι) (passed rest : List Char) : Misses a passed [] rest :=
  fun _ _ hnil hzs => absurd (List.append_eq_nil_iff.mp hnil.symm).2 hzs

theorem Misses.of_cons {x : Char} (h : Misses a passed (x :: xs) rest) :
    Misses a (x :: passed) xs rest := by
  rintro ys zs rfl hzs
  simpa using h (x :: ys) zs rfl hzs

theorem Misses.cons {x : Char} (hx : a.at? ⟨passed, x :: (xs ++ rest)⟩ = none)
    (h : Misses a (x :: passed) xs rest) : Misses a passed (x :: xs) rest := by
  intro ys zs hsplit hzs
  cases ys with
  | nil =>
    obtain rfl : x :: xs = zs := hsplit
    exact hx
  | cons y ys =>
    obtain ⟨rfl, htail⟩ := List.cons.inj hsplit
    simpa using h ys zs htail hzs

theorem findAllFrom_of_misses (h : Misses a passed xs rest) :
    a.findAllFrom 0 passed (xs ++ rest) = a.findAllFrom 0 (xs.reverse ++ passed) rest := by
  induction xs generalizing passed with
  | nil => rfl
  | cons x xs ih =>
    have hx : a.at? ⟨passed, x :: (xs ++ rest)⟩ = none := h [] (x :: xs) rfl (by simp)
    rw [List.cons_append, findAllFrom, hx]
    simpa using ih h.of_cons

theorem findFrom?_of_misses (h : Misses a passed xs rest) :
    a.findFrom? passed (xs ++ rest) = a.findFrom? (xs.reverse ++ passed) rest := by
  induction xs generalizing passed with
  | nil => rfl
  | cons x xs ih =>
    have hx : a.at? ⟨passed, x :: (xs ++ rest)⟩ = none := h [] (x :: xs) rfl (by simp)
    rw [List.cons_append, findFrom?, hx]
    simpa using ih h.of_cons

theorem misses_of_findFrom?_eq_none (h : a.findFrom? passed text = none) :
    Misses a passed text [] := by
  fun_induction findFrom? a passed text with
  | case1 passed => exact misses_nil a passed []
  | case2 passed c rest m hm => cases h
  | case3 passed c rest hm ih => exact (ih h).cons (by simpa using hm)

/-- Nothing matches before the match that is found. -/
theorem misses_of_findFrom?_eq_some (h : a.findFrom? passed text = some m) :
    ∃ xs rest, text = xs ++ rest ∧ a.at? ⟨xs.reverse ++ passed, rest⟩ = some m ∧
      Misses a passed xs rest := by
  fun_induction findFrom? a passed text with
  | case1 passed => exact ⟨[], [], rfl, h, misses_nil a passed []⟩
  | case2 passed c rest m' hm => exact ⟨[], c :: rest, rfl, hm.trans h, misses_nil a passed _⟩
  | case3 passed c rest hm ih =>
    obtain ⟨xs, rest', rfl, hat, hmiss⟩ := ih h
    exact ⟨c :: xs, rest', rfl, by simpa using hat, hmiss.cons hm⟩

theorem findFrom?_of_at? (hm : a.at? ⟨passed, rest⟩ = some m) :
    a.findFrom? passed rest = some m := by
  cases rest with
  | nil => exact hm
  | cons c rest => rw [findFrom?, hm]

theorem findAllFrom_skip (a : Pattern ι) (passed xs rest : List Char) :
    a.findAllFrom xs.length passed (xs ++ rest) = a.findAllFrom 0 (xs.reverse ++ passed) rest := by
  induction xs generalizing passed with
  | nil => rfl
  | cons x xs ih =>
    rw [List.cons_append, List.length_cons, findAllFrom, ih]
    simp

/-- A match is found where it starts, and the search goes on behind it. -/
theorem findAllFrom_of_at? (hm : a.at? ⟨passed, xs ++ rest⟩ = some m) (hsize : m.size = xs.length)
    (hne : xs ≠ []) :
    a.findAllFrom 0 passed (xs ++ rest) = m :: a.findAllFrom 0 (xs.reverse ++ passed) rest := by
  obtain ⟨x, xs, rfl⟩ := List.exists_cons_of_ne_nil hne
  rw [List.cons_append] at hm ⊢
  have hskip : m.size - 1 = xs.length := by simp [hsize]
  rw [findAllFrom, hm]
  simp [hskip, findAllFrom_skip]

theorem mem_findAllFrom {skip : Nat} (hm : m ∈ a.findAllFrom skip passed text) :
    ∃ c : Cursor, c.text = passed.reverse ++ text ∧ a.at? c = some m := by
  have hback (x : Char) (passed rest : List Char) :
      (x :: passed).reverse ++ rest = passed.reverse ++ x :: rest := by simp
  fun_induction findAllFrom a skip passed text with
  | case1 => cases hm
  | case2 skip passed c rest ih => exact hback c passed rest ▸ ih hm
  | case3 passed c rest m' hat ih =>
    rcases List.mem_cons.mp hm with rfl | hm
    · exact ⟨_, rfl, hat⟩
    · exact hback c passed rest ▸ ih hm
  | case4 passed c rest hat ih => exact hback c passed rest ▸ ih hm

end DefaultImports.Pattern
