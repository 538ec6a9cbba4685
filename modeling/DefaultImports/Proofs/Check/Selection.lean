import DefaultImports.Check
import DefaultImports.Proofs.SourceFiles.Search
import DefaultImports.Proofs.Workspace.Place

/-! The files that a run checks, by the paths that it is given. -/
namespace DefaultImports

variable {ε ε' α β : Type}

/-- A sequence of two actions succeeds if the first does and then the second. -/
theorem of_bind_eq_ok {x : Except ε α} {f : α → Except ε β} {b : β} (h : x >>= f = .ok b) :
    ∃ a, x = .ok a ∧ f a = .ok b := by
  cases x with
  | error e => cases h
  | ok a => exact ⟨a, rfl, h⟩

theorem of_mapError_eq_ok {g : ε → ε'} {x : Except ε α} {a : α} (h : x.mapError g = .ok a) :
    x = .ok a := by
  cases x with
  | error e => cases h
  | ok b => exact congrArg Except.ok (Except.ok.inj h)

namespace SourceFiles

variable {w : Workspace} {filter : FileFilter} {root : Path} {ignores : Option IgnoreTree}
  {files : List Path} {respect : Bool}

theorem keep_sublist {kept : List Path} (h : keep w filter root ignores files = .ok kept) :
    kept.Sublist files := by
  induction files generalizing kept with
  | nil =>
    obtain rfl := Except.ok.inj h
    exact .slnil
  | cons file rest ih =>
    rw [keep_cons] at h
    obtain ⟨hidden, -, h⟩ := of_bind_eq_ok h
    obtain ⟨others, hothers, h⟩ := of_bind_eq_ok h
    obtain rfl := Except.ok.inj h
    cases hidden with
    | true => exact (ih hothers).cons file
    | false => exact (ih hothers).cons_cons file

/-- A search that does not break off finds some of the files below its root, in order. -/
theorem find_eq_ok (h : find w filter respect root = .ok files) :
    ∃ (base : Path) (kept : List Path), w.resolve root = .ok base ∧
      kept.Sublist (w.filesBelow base) ∧ files = kept.mergeSort Path.le := by
  obtain ⟨base, hbase, h⟩ := of_bind_eq_ok h
  obtain ⟨found, -, h⟩ := of_bind_eq_ok h
  have hkept : ∃ kept : List Path,
      kept.Sublist (w.filesBelow base) ∧ files = kept.mergeSort Path.le := by
    match found with
    | some .directory =>
      cases respect <;>
      · obtain ⟨ignores, -, h⟩ := of_bind_eq_ok h
        obtain ⟨kept, hkept, h⟩ := of_bind_eq_ok h
        exact ⟨kept, keep_sublist hkept, (Except.ok.inj h).symm⟩
    | some (.file bytes) => exact ⟨[], List.nil_sublist _, by simpa using (Except.ok.inj h).symm⟩
    | none => exact ⟨[], List.nil_sublist _, by simpa using (Except.ok.inj h).symm⟩
  obtain ⟨kept, hsublist, hfiles⟩ := hkept
  exact ⟨base, kept, of_mapError_eq_ok hbase, hsublist, hfiles⟩

end SourceFiles

namespace Check

open CommandLine

variable {w : Workspace} {s : Settings} {debug : Bool} {path : String} {paths : List String}
  {selection : Selection} {file : Path}

/-- The files that a path stands for: a file for itself, and a directory for what a search of it
finds. -/
def filesOf (w : Workspace) (s : Settings) (path : String) : List Path :=
  match w.entry (.ofString path) with
  | .ok (.file _) => [.ofString path]
  | .ok .directory =>
    (SourceFiles.find w s.filter s.respectIgnores (.ofString path)).toOption.getD []
  | .error _ => []

theorem toOption_entry_of_probe {p : Path} {found : Option Entry} (h : w.probe p = .ok found) :
    (w.entry p).toOption = found := by
  unfold Workspace.probe at h
  split at h
  · rename_i entry hentry
    rw [hentry]
    exact Except.ok.inj h
  · cases h
  · rename_i fault hlong hfault
    rw [hfault]
    exact Except.ok.inj h

theorem entry_of_probe {p : Path} {entry : Entry} (h : w.probe p = .ok (some entry)) :
    w.entry p = .ok entry := by
  have hfound := toOption_entry_of_probe h
  cases hentry : w.entry p with
  | error fault =>
    rw [hentry] at hfound
    cases hfound
  | ok other =>
    rw [hentry] at hfound
    rw [Option.some.inj hfound]

/-- What a path that does not break off the run comes to. -/
theorem selectPath_eq_ok (h : selectPath w s debug path = .ok selection) :
    selection.files = filesOf w s path ∧
      selection.valid = if w.exists? (.ofString path) then 1 else 0 := by
  obtain ⟨found, hprobe, h⟩ := of_bind_eq_ok h
  replace hprobe := of_mapError_eq_ok hprobe
  unfold filesOf Workspace.exists?
  match found with
  | none =>
    have hfound := toOption_entry_of_probe hprobe
    cases hentry : w.entry (.ofString path) with
    | ok entry =>
      rw [hentry] at hfound
      cases hfound
    | error fault =>
      obtain rfl := Except.ok.inj h
      exact ⟨rfl, rfl⟩
  | some (.file bytes) =>
    rw [entry_of_probe hprobe]
    obtain rfl := Except.ok.inj h
    exact ⟨rfl, rfl⟩
  | some .directory =>
    obtain ⟨files, hfind, h⟩ := of_bind_eq_ok h
    rw [entry_of_probe hprobe, of_mapError_eq_ok hfind]
    obtain rfl := Except.ok.inj h
    exact ⟨rfl, rfl⟩

/-- The files are those of the paths, one path after the other, and the paths that are there are
counted. -/
theorem select_eq_ok (h : select w s debug paths = .ok selection) :
    selection.files = paths.flatMap (filesOf w s) ∧
      selection.valid = paths.countP fun path => w.exists? (.ofString path) := by
  induction paths generalizing selection with
  | nil =>
    obtain rfl := Except.ok.inj h
    exact ⟨rfl, rfl⟩
  | cons path rest ih =>
    obtain ⟨first, hfirst, h⟩ := of_bind_eq_ok h
    obtain ⟨others, hothers, h⟩ := of_bind_eq_ok h
    obtain rfl := Except.ok.inj h
    obtain ⟨hfiles, hvalid⟩ := selectPath_eq_ok hfirst
    obtain ⟨hfiles', hvalid'⟩ := ih hothers
    rw [List.flatMap_cons, List.countP_cons, hfiles, hfiles', hvalid, hvalid']
    exact ⟨rfl, Nat.add_comm ..⟩

/-- Every file that a run checks is a file of the tree. -/
theorem locate_of_mem_filesOf (ht : w.IsTree) (h : file ∈ filesOf w s path) :
    ∃ place bytes, w.locate file = .ok (place, .file bytes) := by
  unfold filesOf at h
  split at h
  · rename_i bytes hentry
    obtain rfl := List.mem_singleton.mp h
    obtain ⟨place, hplace⟩ := Workspace.exists_locate hentry
    exact ⟨place, bytes, hplace⟩
  · cases hfind : SourceFiles.find w s.filter s.respectIgnores (.ofString path) with
    | error e =>
      rw [hfind] at h
      cases h
    | ok files =>
      rw [hfind] at h
      obtain ⟨base, kept, -, hkept, rfl⟩ := SourceFiles.find_eq_ok hfind
      have hbelow := hkept.subset (List.mem_mergeSort.mp h)
      obtain ⟨hanchor, -, -, hat⟩ := ht.mem_filesBelow.mp hbelow
      obtain ⟨bytes, hbytes⟩ := Workspace.isFileAt_iff.mp hat
      obtain ⟨anchor, parts⟩ := file
      obtain rfl : anchor = .root := hanchor
      exact ⟨parts, bytes, ht.locate_eq hbytes⟩
  · cases h

/-- A run can look at the paths: no name in them is too long, and the ignore files in them can be
used if they are to be respected. -/
structure Accessible (w : Workspace) (s : Settings) (paths : List String) : Prop where
  probed : ∀ path ∈ paths, (w.probe (.ofString path)).isOk = true
  usable : s.respectIgnores = true → ∀ path ∈ paths, ∀ top,
    w.locate (.ofString path) = .ok (top, .directory) → IgnoreTree.Usable w top

theorem exists_selectPath (ht : w.IsTree) (h : Accessible w s paths) (hpath : path ∈ paths)
    (debug : Bool) : ∃ selection, selectPath w s debug path = .ok selection := by
  have hprobed := h.probed path hpath
  cases hprobe : w.probe (.ofString path) with
  | error e =>
    rw [hprobe] at hprobed
    cases hprobed
  | ok found =>
    simp only [selectPath, hprobe]
    match found with
    | none => exact ⟨_, rfl⟩
    | some (.file bytes) => exact ⟨_, rfl⟩
    | some .directory =>
      obtain ⟨top, hlocate⟩ := Workspace.exists_locate (entry_of_probe hprobe)
      have hfind := SourceFiles.find_eq ht (Workspace.resolve_of_locate hlocate)
        (Workspace.entryAt?_of_locate hlocate)
        (fun hrespect => h.usable hrespect path hpath top hlocate) s.filter
      simp only [hfind]
      exact ⟨_, rfl⟩

theorem exists_select (ht : w.IsTree) (h : Accessible w s paths) (debug : Bool) :
    ∃ selection, select w s debug paths = .ok selection := by
  induction paths with
  | nil => exact ⟨⟨[], 0, []⟩, rfl⟩
  | cons path rest ih =>
    have hrest : Accessible w s rest := by
      constructor
      case probed =>
        intro other hother
        exact h.probed other (List.mem_cons_of_mem _ hother)
      case usable =>
        intro hrespect other hother
        exact h.usable hrespect other (List.mem_cons_of_mem _ hother)
    obtain ⟨first, hfirst⟩ := exists_selectPath ht h List.mem_cons_self debug
    obtain ⟨others, hothers⟩ := ih hrest
    simp only [select, hfirst, hothers]
    exact ⟨_, rfl⟩

end Check

end DefaultImports
