import DefaultImports.Workspace

/-! What changes for a reader when files are rewritten in place, and what does not. -/
namespace DefaultImports

/-- The same entry, with the content of a file rewritten. -/
def Entry.edit (f : List UInt8 → List UInt8) : Entry → Entry
  | .file bytes => .file (f bytes)
  | .directory => .directory

namespace Workspace

variable {w w' : Workspace} {edit : List String → List UInt8 → List UInt8} {p : Path}
  {place stack parts : List String} {e : Entry} {bytes : List UInt8}

/-- The place that a path leads to, and what is there. -/
def locate (w : Workspace) (p : Path) : Except Fault (List String × Entry) :=
  let full := w.cwd.join p
  if full.hasNul then .error .nulCharacter
  else (fun found => (found.1.reverse, found.2)) <$> w.walk [] .directory full.parts

theorem entry_eq_locate (w : Workspace) (p : Path) : w.entry p = (·.2) <$> w.locate p := by
  simp only [entry, locate]
  split
  · rfl
  · cases w.walk [] .directory (w.cwd.join p).parts <;> rfl

theorem readSource_eq_locate (w : Workspace) (p : Path) : w.readSource p =
    match w.locate p with
    | .ok (_, .file bytes) => .ok (sourceText bytes)
    | .ok (_, .directory) => .error ⟨.isDirectory, p⟩
    | .error fault => .error ⟨fault, p⟩ := by
  rw [readSource, readBytes, entry_eq_locate]
  cases w.locate p with
  | error fault => rfl
  | ok found =>
    obtain ⟨place, e⟩ := found
    cases e <;> rfl

/-- The top of the stack holds `e`, and all above it are directories. -/
def Visited (w : Workspace) (stack : List String) (e : Entry) : Prop :=
  w.entryAt? stack.reverse = some e ∧
    ∀ above, above <:+ stack → above ≠ stack → w.entryAt? above.reverse = some .directory

theorem visited_tail (h : w.Visited stack .directory) : w.Visited stack.tail .directory := by
  cases stack with
  | nil => exact h
  | cons part stack =>
    refine ⟨h.2 stack (List.suffix_cons part stack) List.ne_cons_self, ?_⟩
    intro above habove hne
    refine h.2 above (habove.trans (List.suffix_cons part stack)) ?_
    rintro rfl
    exact absurd habove.length_le (by simp)

theorem visited_cons (h : w.Visited stack .directory) {part : String}
    (he : w.entryAt? (part :: stack).reverse = some e) : w.Visited (part :: stack) e := by
  refine ⟨he, ?_⟩
  intro above habove hne
  rcases List.suffix_cons_iff.mp habove with rfl | habove
  · exact absurd rfl hne
  · by_cases hsame : above = stack
    · exact hsame ▸ h.1
    · exact h.2 above habove hsame

/-- A walk ends at a place of the tree, with what is there. -/
theorem visited_walk (h : w.Visited stack e) {found : List String × Entry}
    (hwalk : w.walk stack e parts = .ok found) : w.Visited found.1 found.2 := by
  fun_induction w.walk stack e parts with
  | case1 stack e =>
    obtain rfl := Except.ok.inj hwalk
    exact h
  | case2 => cases hwalk
  | case3 stack part parts hup ih => exact ih (visited_tail h) hwalk
  | case4 => cases hwalk
  | case5 => cases hwalk
  | case6 stack part parts hup hlong e he ih => exact ih (visited_cons h he) hwalk

theorem visited_top (w : Workspace) : w.Visited [] .directory := by
  refine ⟨rfl, ?_⟩
  intro above habove hne
  exact absurd (List.suffix_nil.mp habove) hne

/-- A path leads to an entry of the tree. -/
theorem entryAt?_of_locate (h : w.locate p = .ok (place, e)) : w.entryAt? place = some e := by
  simp only [locate] at h
  split at h
  · cases h
  · cases hwalk : w.walk [] .directory (w.cwd.join p).parts with
    | error fault => simp [hwalk, Functor.map, Except.map] at h
    | ok found =>
      rw [hwalk] at h
      obtain ⟨rfl, rfl⟩ := Prod.mk.inj (Except.ok.inj h)
      exact (visited_walk w.visited_top hwalk).1

/-- The files of `w'` are those of `w`, rewritten by `edit`. -/
structure Edits (w w' : Workspace) (edit : List String → List UInt8 → List UInt8) : Prop where
  cwd : w'.cwd = w.cwd
  entries : ∀ place, w'.entryAt? place = (w.entryAt? place).map (Entry.edit (edit place))

theorem Edits.walk_eq (h : Edits w w' edit) (stack : List String) (e : Entry)
    (parts : List String) :
    w'.walk stack (e.edit (edit stack.reverse)) parts =
      (fun found => (found.1, found.2.edit (edit found.1.reverse))) <$> w.walk stack e parts := by
  fun_induction w.walk stack e parts with
  | case1 stack e => rfl
  | case2 => rfl
  | case3 stack part parts hup ih =>
    rw [Entry.edit, walk, if_pos hup]
    exact ih
  | case4 stack part parts hup hlong =>
    rw [Entry.edit, walk, if_neg hup, if_pos hlong]
    rfl
  | case5 stack part parts hup hlong he =>
    rw [Entry.edit, walk, if_neg hup, if_neg hlong, h.entries, he]
    rfl
  | case6 stack part parts hup hlong e he ih =>
    rw [Entry.edit, walk, if_neg hup, if_neg hlong, h.entries, he]
    exact ih

theorem Edits.locate_eq (h : Edits w w' edit) (p : Path) :
    w'.locate p = (fun found => (found.1, found.2.edit (edit found.1))) <$> w.locate p := by
  have hwalk := h.walk_eq [] .directory (w.cwd.join p).parts
  simp only [Entry.edit] at hwalk
  simp only [locate, h.cwd]
  split
  · rfl
  · rw [hwalk]
    cases w.walk [] .directory (w.cwd.join p).parts <;> rfl

theorem Edits.exists?_eq (h : Edits w w' edit) (p : Path) : w'.exists? p = w.exists? p := by
  rw [exists?, exists?, entry_eq_locate, entry_eq_locate, h.locate_eq]
  cases w.locate p <;> rfl

/-- A path that leads to a file gives the rewritten text, and any other the same as before. -/
theorem Edits.readSource_cases (h : Edits w w' edit) (p : Path) :
    (∃ place bytes, w.locate p = .ok (place, .file bytes) ∧
      w.readSource p = .ok (sourceText bytes) ∧
      w'.readSource p = .ok (sourceText (edit place bytes))) ∨
    ((∀ place bytes, w.locate p ≠ .ok (place, .file bytes)) ∧
      w'.readSource p = w.readSource p) := by
  rw [readSource_eq_locate, readSource_eq_locate, h.locate_eq]
  cases w.locate p with
  | error fault => exact Or.inr ⟨by simp, rfl⟩
  | ok found =>
    obtain ⟨place, e⟩ := found
    cases e with
    | file bytes => exact Or.inl ⟨place, bytes, rfl, rfl, rfl⟩
    | directory => exact Or.inr ⟨by simp, rfl⟩

theorem mem_entries_of_entryAt? (h : w.entryAt? place = some (.file bytes)) :
    (place, Entry.file bytes) ∈ w.entries := by
  unfold entryAt? at h
  split at h
  · cases h
  · obtain ⟨before, after, he, -⟩ := List.lookup_eq_some_iff.mp h
    simp [he]

/-- The tree with every file rewritten in place. -/
def rewrite (edit : List String → List UInt8 → List UInt8) (w : Workspace) : Workspace :=
  { w with entries := w.entries.map fun f => (f.1, f.2.edit (edit f.1)) }

theorem edits_rewrite (edit : List String → List UInt8 → List UInt8) (w : Workspace) :
    Edits w (w.rewrite edit) edit := by
  have hlookup : ∀ (fs : List (List String × Entry)) (place : List String),
      (fs.map fun f => (f.1, f.2.edit (edit f.1))).lookup place =
        (fs.lookup place).map (Entry.edit (edit place)) := by
    intro fs place
    induction fs with
    | nil => rfl
    | cons f fs ih =>
      rw [List.map_cons, List.lookup_cons, List.lookup_cons, ih]
      cases hf : place == f.1 with
      | false => rfl
      | true =>
        obtain rfl : place = f.1 := eq_of_beq hf
        rfl
  refine ⟨rfl, ?_⟩
  intro place
  unfold entryAt?
  split
  · rfl
  · exact hlookup w.entries place

theorem lookup_filter_ne {fs : List (List String × Entry)} {other : List String}
    (h : other ≠ place) : (fs.filter (·.1 != place)).lookup other = fs.lookup other := by
  induction fs with
  | nil => rfl
  | cons f fs ih =>
    by_cases hf : f.1 = place
    · have hother : (other == f.1) = false := by simpa [hf] using h
      rw [List.filter_cons_of_neg (by simp [hf]), ih, List.lookup_cons, hother]
    · rw [List.filter_cons_of_pos (by simp [hf]), List.lookup_cons, List.lookup_cons, ih]

/-- A file that is replaced is rewritten in place, wherever it is listed. -/
theorem edits_put (h : w.entryAt? place = some (.file bytes)) (f : List UInt8 → List UInt8) :
    Edits w (w.put place (f bytes)) fun other => if other = place then f else id := by
  refine ⟨rfl, ?_⟩
  intro other
  have hput : (w.put place (f bytes)).entryAt? other =
      if other = [] then some .directory
      else ((w.entries.filter (·.1 != place)).lookup other).or
        ([(place, Entry.file (f bytes))].lookup other) := by
    rw [entryAt?, put, List.lookup_append]
  by_cases hother : other = place
  · subst hother
    have hne : other ≠ [] := by
      rintro rfl
      cases h
    have hnone : (w.entries.filter (·.1 != other)).lookup other = none := by
      rw [List.lookup_eq_none_iff]
      intro g hg
      rw [bne_comm]
      exact (List.mem_filter.mp hg).2
    rw [hput, h, hnone]
    simp [hne, Entry.edit]
  · have hlast : [(place, Entry.file (f bytes))].lookup other = none := by
      rw [List.lookup_cons, beq_false_of_ne hother]
      rfl
    have hkeep : ∀ e : Entry, e.edit id = e := by
      intro e
      cases e <;> rfl
    have hsame : (if other = place then f else id) = id := if_neg hother
    rw [hput, hlast, lookup_filter_ne hother, Option.or_none, hsame, entryAt?]
    simp only [show Entry.edit id = id from funext hkeep, Option.map_id_fun, id]

end Workspace

end DefaultImports
