import DefaultImports.Proofs.Workspace.Edit
import Mathlib.Data.List.Induction
import Mathlib.Data.List.Nodup

/-! Trees of files: what is listed is what is there, in whatever order, and each place is reached by
its path from the top. -/
namespace DefaultImports.Workspace

variable {w w' : Workspace} {place dir rest : List String} {e : Entry} {bytes : List UInt8}

/-- A name that something on disk can have. -/
structure IsName (name : String) : Prop where
  ne_up : name ≠ ".."
  noNul : '\x00' ∉ name.toList
  size_le : name.utf8ByteSize ≤ maxNameBytes

/-- The listing is that of a tree: every place is listed once and lies in a directory. -/
structure IsTree (w : Workspace) : Prop where
  nodup : (w.entries.map (·.1)).Nodup
  parents : ∀ f ∈ w.entries, w.entryAt? f.1.dropLast = some .directory
  names : ∀ f ∈ w.entries, ∀ name ∈ f.1, IsName name

instance (name : String) : Decidable (IsName name) :=
  decidable_of_iff (name ≠ ".." ∧ '\x00' ∉ name.toList ∧ name.utf8ByteSize ≤ maxNameBytes)
    ⟨fun h => ⟨h.1, h.2.1, h.2.2⟩, fun h => ⟨h.ne_up, h.noNul, h.size_le⟩⟩

instance (w : Workspace) : Decidable w.IsTree :=
  decidable_of_iff ((w.entries.map (·.1)).Nodup ∧
      (∀ f ∈ w.entries, w.entryAt? f.1.dropLast = some .directory) ∧
      ∀ f ∈ w.entries, ∀ name ∈ f.1, IsName name)
    ⟨fun h => ⟨h.1, h.2.1, h.2.2⟩, fun h => ⟨h.nodup, h.parents, h.names⟩⟩

def isFileAt (w : Workspace) (place : List String) : Bool := (w.entryAt? place).any Entry.isFile

theorem isFileAt_iff :
    w.isFileAt place = true ↔ ∃ bytes, w.entryAt? place = some (.file bytes) := by
  constructor
  · intro h
    obtain ⟨e, he, hfile⟩ := (Option.any_eq_true _ _).mp h
    cases e with
    | file bytes => exact ⟨bytes, he⟩
    | directory => cases hfile
  · rintro ⟨bytes, h⟩
    rw [isFileAt, h]
    rfl

theorem entryAt?_nil (w : Workspace) : w.entryAt? [] = some .directory := if_pos rfl

/-! ## What is listed and what is there -/

theorem lookup_of_mem {fs : List (List String × Entry)} (hnodup : (fs.map (·.1)).Nodup)
    (h : (place, e) ∈ fs) : fs.lookup place = some e := by
  induction fs with
  | nil => cases h
  | cons f fs ih =>
    obtain ⟨hf, hfs⟩ := List.nodup_cons.mp hnodup
    rw [List.lookup_cons]
    rcases List.mem_cons.mp h with rfl | h
    · rw [beq_self_eq_true]
    · have hne : place ≠ f.1 := by
        rintro rfl
        exact hf (List.mem_map.mpr ⟨_, h, rfl⟩)
      rw [beq_false_of_ne hne]
      exact ih hfs h

theorem entryAt?_iff_of_nodup (hnodup : (w.entries.map (·.1)).Nodup) (hne : place ≠ []) :
    w.entryAt? place = some e ↔ (place, e) ∈ w.entries := by
  rw [entryAt?, if_neg hne]
  constructor
  · intro h
    obtain ⟨before, after, he, -⟩ := List.lookup_eq_some_iff.mp h
    simp [he]
  · exact lookup_of_mem hnodup

theorem IsTree.entryAt?_iff (ht : w.IsTree) (hne : place ≠ []) :
    w.entryAt? place = some e ↔ (place, e) ∈ w.entries :=
  entryAt?_iff_of_nodup ht.nodup hne

theorem ne_nil_of_isFileAt (h : w.isFileAt place = true) : place ≠ [] := by
  rintro rfl
  simp [isFileAt, entryAt?_nil, Entry.isFile] at h

/-- What is above something is a directory. -/
theorem IsTree.directory_above (ht : w.IsTree) (hne : rest ≠ [])
    (h : w.entryAt? (dir ++ rest) = some e) : w.entryAt? dir = some .directory := by
  induction rest using List.reverseRecOn generalizing e with
  | nil => exact absurd rfl hne
  | append_singleton rest name ih =>
    have hlisted := (ht.entryAt?_iff (by simp)).mp h
    have hparent := ht.parents _ hlisted
    rw [← List.append_assoc, List.dropLast_concat] at hparent
    by_cases hrest : rest = []
    · simpa [hrest] using hparent
    · exact ih hrest hparent

theorem IsTree.names_of_entryAt? (ht : w.IsTree) (h : w.entryAt? place = some e) :
    ∀ name ∈ place, IsName name := by
  by_cases hne : place = []
  · simp [hne]
  · exact ht.names _ ((ht.entryAt?_iff hne).mp h)

/-- The order of the listing does not matter for what is where. -/
theorem IsTree.entryAt?_perm (ht : w.IsTree) (hperm : w'.entries.Perm w.entries)
    (place : List String) : w'.entryAt? place = w.entryAt? place := by
  by_cases hne : place = []
  · rw [hne, entryAt?_nil, entryAt?_nil]
  · have hnodup : (w'.entries.map (·.1)).Nodup := (hperm.map _).nodup_iff.mpr ht.nodup
    apply Option.ext
    intro e
    rw [ht.entryAt?_iff hne, entryAt?_iff_of_nodup hnodup hne, hperm.mem_iff]

theorem IsTree.perm (ht : w.IsTree) (hperm : w'.entries.Perm w.entries) : w'.IsTree := by
  constructor
  case nodup => exact (hperm.map _).nodup_iff.mpr ht.nodup
  case parents =>
    intro f hf
    rw [ht.entryAt?_perm hperm]
    exact ht.parents f (hperm.mem_iff.mp hf)
  case names =>
    intro f hf
    exact ht.names f (hperm.mem_iff.mp hf)

/-! ## Paths to places -/

theorem IsTree.walk_append (ht : w.IsTree) (dir : List String) {e₀ : Entry}
    (he₀ : w.entryAt? dir = some e₀) (h : w.entryAt? (dir ++ rest) = some e) :
    w.walk dir.reverse e₀ rest = .ok ((dir ++ rest).reverse, e) := by
  induction rest generalizing dir e₀ with
  | nil =>
    rw [List.append_nil] at h ⊢
    obtain rfl : e₀ = e := Option.some.inj (he₀.symm.trans h)
    rfl
  | cons part rest ih =>
    obtain rfl : e₀ = .directory :=
      Option.some.inj (he₀.symm.trans (ht.directory_above (by simp) h))
    have hpart : IsName part := ht.names_of_entryAt? h part (by simp)
    have hmid : dir ++ part :: rest = (dir ++ [part]) ++ rest := by simp
    rw [hmid] at h ⊢
    have hnext : ∃ e₁, w.entryAt? (dir ++ [part]) = some e₁ := by
      by_cases hrest : rest = []
      · exact ⟨e, by simpa [hrest] using h⟩
      · exact ⟨.directory, ht.directory_above hrest h⟩
    obtain ⟨e₁, he₁⟩ := hnext
    have hstep := ih (dir ++ [part]) he₁ h
    rw [List.reverse_append] at hstep
    have hup : (part == "..") = false := beq_false_of_ne hpart.ne_up
    have hlong : ¬ maxNameBytes < part.utf8ByteSize := Nat.not_lt.mpr hpart.size_le
    rw [walk, hup, if_neg Bool.false_ne_true, if_neg hlong, List.reverse_cons,
      List.reverse_reverse, he₁]
    exact hstep

theorem hasNul_of_names {p : Path} (h : ∀ name ∈ p.parts, IsName name) : p.hasNul = false := by
  rw [Path.hasNul, List.any_eq_false]
  intro name hname
  simpa using (h name hname).noNul

/-- Every place of a tree can be reached by its path from the top. -/
theorem IsTree.entry_eq (ht : w.IsTree) (h : w.entryAt? place = some e) :
    w.entry ⟨.root, place⟩ = .ok e := by
  have hnul : (⟨.root, place⟩ : Path).hasNul = false := hasNul_of_names (ht.names_of_entryAt? h)
  have hwalk := ht.walk_append [] w.entryAt?_nil h
  simp only [List.reverse_nil, List.nil_append] at hwalk
  simp only [entry, Path.join, hnul, Bool.false_eq_true, if_false, hwalk]
  rfl

theorem IsTree.readBytes_eq (ht : w.IsTree) (h : w.entryAt? place = some (.file bytes)) :
    w.readBytes ⟨.root, place⟩ = .ok bytes := by
  rw [readBytes, ht.entry_eq h]

theorem collapse_of_names {parts stack : List String} (h : ".." ∉ parts) :
    parts.foldl Path.enter stack = parts.reverse ++ stack := by
  induction parts generalizing stack with
  | nil => rfl
  | cons part parts ih =>
    obtain ⟨hpart, hparts⟩ := not_or.mp (mt List.mem_cons.mpr h)
    rw [List.foldl_cons, Path.enter, beq_false_of_ne (Ne.symm hpart), if_neg Bool.false_ne_true,
      ih hparts]
    simp

/-- A path from the top through names only is already resolved. -/
theorem resolve_of_names (w : Workspace) {parts : List String}
    (h : ∀ name ∈ parts, IsName name) : w.resolve ⟨.root, parts⟩ = .ok ⟨.root, parts⟩ := by
  have hup : ".." ∉ parts := fun hmem => (h _ hmem).ne_up rfl
  have hnul : (⟨.root, parts⟩ : Path).hasNul = false := hasNul_of_names h
  rw [resolve, hnul, if_neg Bool.false_ne_true, Path.resolve, Path.join, Path.collapse,
    collapse_of_names hup]
  simp

end DefaultImports.Workspace
