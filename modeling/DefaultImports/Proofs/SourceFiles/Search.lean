import DefaultImports.Proofs.Ignore.Verdict
import DefaultImports.SourceFiles
import Mathlib.Data.List.Sort
import Mathlib.Data.String.Basic

/-! The search for source files finds the accepted files that are not hidden, each once and in the
order of their paths, however directories are listed. -/
namespace DefaultImports

namespace Path

theorem partsLe_iff (as bs : List String) : partsLe as bs = true ↔ as ≤ bs := by
  rw [← not_lt]
  fun_induction partsLe as bs with
  | case1 bs => simp
  | case2 a as => simp
  | case3 a as b bs hab ih =>
    obtain rfl : a = b := eq_of_beq hab
    rw [ih, List.cons_lt_cons_self]
  | case4 a as b bs hab =>
    have hne : a ≠ b := fun h => hab (beq_iff_eq.mpr h)
    rw [decide_eq_true_iff, List.cons_lt_cons_iff, or_iff_left fun h => hne h.1.symm, not_lt]
    exact ⟨le_of_lt, fun h => lt_of_le_of_ne h hne⟩

theorem le_iff (p q : Path) : p.le q = true ↔ p.parts ≤ q.parts := partsLe_iff p.parts q.parts

end Path

namespace SourceFiles

variable {w : Workspace} {filter : FileFilter} {root : Path} {ignores : Option IgnoreTree}
  {top : List String} {files : List Path} {respect : Bool}

/-- What the ignore files say about a file, if they are asked. -/
def verdictOn (w : Workspace) (ignores : Option IgnoreTree) (file : Path) :
    Except SearchError Bool :=
  match ignores with
  | none => .ok false
  | some t => t.isIgnored w file

theorem keep_cons (file : Path) : keep w filter root ignores (file :: files) = (do
    let hidden ← (if filter.accepts file root then verdictOn w ignores file else .ok true)
    let others ← keep w filter root ignores files
    return if hidden then others else file :: others) := by
  rw [keep.eq_def]
  cases haccepts : filter.accepts file root with
  | false =>
    simp only [haccepts]
    rfl
  | true =>
    simp only [haccepts]
    cases ignores <;> rfl

theorem keep_eq {hidden : Path → Bool} (filter : FileFilter) (root : Path)
    (h : ∀ file ∈ files, filter.accepts file root = true →
      verdictOn w ignores file = .ok (hidden file)) :
    keep w filter root ignores files =
      .ok (files.filter fun file => filter.accepts file root && !hidden file) := by
  induction files with
  | nil => rfl
  | cons file rest ih =>
    have hrest := ih fun f hf => h f (List.mem_cons_of_mem _ hf)
    have hfile := h file List.mem_cons_self
    rw [keep_cons, hrest, List.filter_cons]
    cases haccepts : filter.accepts file root with
    | false => rfl
    | true =>
      rw [if_pos rfl, hfile haccepts]
      cases hidden file <;> rfl

/-- The ignore files that a search asks. -/
def asked (w : Workspace) (respect : Bool) (top : List String) : Option IgnoreTree :=
  if respect then some (IgnoreTree.treeAt w top) else none

/-- A file that a walk meets is at the path by which it is met. -/
theorem resolve_of_mem_filesBelow (ht : w.IsTree) {file : Path}
    (hfile : file ∈ w.filesBelow ⟨.root, top⟩) :
    ∃ rest, rest ≠ [] ∧ file.parts = top ++ rest ∧ w.resolve file = .ok ⟨.root, top ++ rest⟩ := by
  obtain ⟨hanchor, ⟨rest, hrest⟩, hne, hat⟩ := ht.mem_filesBelow.mp hfile
  obtain ⟨bytes, hbytes⟩ := Workspace.isFileAt_iff.mp hat
  refine ⟨rest, ?_, hrest.symm, ?_⟩
  · rintro rfl
    exact hne (by simpa using hrest.symm)
  · obtain ⟨anchor, parts⟩ := file
    obtain rfl : anchor = .root := hanchor
    obtain rfl : top ++ rest = parts := hrest
    exact w.resolve_of_names (ht.names_of_entryAt? hbytes)

theorem verdictOn_asked (ht : w.IsTree) {file : Path}
    (hs : respect = true → IgnoreTree.SoundTo w top file.parts)
    (hfile : file ∈ w.filesBelow ⟨.root, top⟩) :
    verdictOn w (asked w respect top) file =
      .ok (respect && IgnoreTree.isHidden w top file.parts) := by
  cases respect with
  | false => rfl
  | true =>
    obtain ⟨rest, hne, hparts, hresolve⟩ := resolve_of_mem_filesBelow ht hfile
    have hsound := hs rfl
    rw [hparts] at hsound ⊢
    exact IgnoreTree.isIgnored_of_soundTo ht hsound hne hresolve

/-- Whether a search keeps a file that it meets. -/
def isKept (w : Workspace) (filter : FileFilter) (respect : Bool) (top : List String)
    (file : Path) : Bool :=
  filter.accepts file ⟨.root, top⟩ && !(respect && IgnoreTree.isHidden w top file.parts)

/-- Nothing in the ignore files breaks off a search that respects them: they can be read to the end,
and no malformed rule has a say on a file that the filter accepts. -/
def Searchable (w : Workspace) (filter : FileFilter) (top : List String) : Prop :=
  IgnoreTree.Readable w top ∧ ∀ file ∈ w.filesBelow ⟨.root, top⟩,
    filter.accepts file ⟨.root, top⟩ = true → IgnoreTree.SoundTo w top file.parts

theorem searchable_of_usable (hu : IgnoreTree.Usable w top) (filter : FileFilter) :
    Searchable w filter top := ⟨hu.readable, fun file _ _ => hu.soundTo file.parts⟩

/-- Once the ignore files are read, a search walks through the directory and sorts what it keeps. -/
theorem find_of_readable (ht : w.IsTree) (hroot : w.resolve root = .ok ⟨.root, top⟩)
    (htop : w.entryAt? top = some .directory) (hr : respect = true → IgnoreTree.Readable w top)
    (filter : FileFilter) : find w filter respect root =
      (keep w filter ⟨.root, top⟩ (asked w respect top) (w.filesBelow ⟨.root, top⟩)).map
        (·.mergeSort Path.le) := by
  have hprobe : w.probe ⟨.root, top⟩ = .ok (some .directory) := by
    rw [Workspace.probe, ht.entry_eq htop]
  have hagain : w.resolve ⟨.root, top⟩ = .ok ⟨.root, top⟩ :=
    w.resolve_of_names (ht.names_of_entryAt? htop)
  simp only [find, hroot, Except.mapError, bind, Except.bind, hprobe]
  cases respect with
  | false => rfl
  | true =>
    rw [if_pos rfl, IgnoreTree.read_of_readable ht (hr rfl) hagain hprobe]
    rfl

theorem find_of_searchable (ht : w.IsTree) (hroot : w.resolve root = .ok ⟨.root, top⟩)
    (htop : w.entryAt? top = some .directory) (hs : respect = true → Searchable w filter top) :
    find w filter respect root =
      .ok (((w.filesBelow ⟨.root, top⟩).filter
        (isKept w filter respect top)).mergeSort Path.le) := by
  have hkeep : keep w filter ⟨.root, top⟩ (asked w respect top) (w.filesBelow ⟨.root, top⟩) =
      .ok ((w.filesBelow ⟨.root, top⟩).filter (isKept w filter respect top)) := by
    apply keep_eq filter ⟨.root, top⟩
    intro file hfile haccepts
    exact verdictOn_asked ht (fun hrespect => (hs hrespect).2 file hfile haccepts) hfile
  rw [find_of_readable ht hroot htop fun hrespect => (hs hrespect).1, hkeep]
  rfl

theorem find_eq (ht : w.IsTree) (hroot : w.resolve root = .ok ⟨.root, top⟩)
    (htop : w.entryAt? top = some .directory) (hu : respect = true → IgnoreTree.Usable w top)
    (filter : FileFilter) : find w filter respect root =
      .ok (((w.filesBelow ⟨.root, top⟩).filter
        (isKept w filter respect top)).mergeSort Path.le) :=
  find_of_searchable ht hroot htop fun hrespect => searchable_of_usable (hu hrespect) filter

/-- Files with different parts are in strict order once sorted. -/
theorem pairwise_mergeSort_lt (h : files.Pairwise fun p q => p.parts ≠ q.parts) :
    (files.mergeSort Path.le).Pairwise fun p q => p.parts < q.parts := by
  have hle : (files.mergeSort Path.le).Pairwise fun p q => p.le q = true := by
    apply List.pairwise_mergeSort
    · intro p q r hpq hqr
      rw [Path.le_iff] at *
      exact le_trans hpq hqr
    · intro p q
      rw [Bool.or_eq_true, Path.le_iff, Path.le_iff]
      exact le_total p.parts q.parts
  have hne : (files.mergeSort Path.le).Pairwise fun p q => p.parts ≠ q.parts :=
    ((List.mergeSort_perm files Path.le).pairwise_iff Ne.symm).mpr h
  refine (hle.and hne).imp ?_
  rintro p q ⟨hpq, hpq'⟩
  exact lt_of_le_of_ne ((Path.le_iff p q).mp hpq) hpq'

/-- What a search is to find: the files below `top` that the filter accepts and, if the ignore files
are respected, that are not hidden. -/
structure IsFound (w : Workspace) (filter : FileFilter) (respect : Bool) (top : List String)
    (p : Path) : Prop where
  anchor : p.anchor = .root
  below : top <+: p.parts
  strict : p.parts ≠ top
  file : w.isFileAt p.parts = true
  accepted : filter.accepts p ⟨.root, top⟩ = true
  shown : respect = true → IgnoreTree.isHidden w top p.parts = false

theorem find_sorted_of_searchable (ht : w.IsTree) (hroot : w.resolve root = .ok ⟨.root, top⟩)
    (htop : w.entryAt? top = some .directory) (hs : respect = true → Searchable w filter top) :
    ∃ files, find w filter respect root = .ok files ∧
      files.Pairwise (fun p q => p.parts < q.parts) ∧
      ∀ p, p ∈ files ↔ IsFound w filter respect top p := by
  refine ⟨_, find_of_searchable ht hroot htop hs, ?_, ?_⟩
  · apply pairwise_mergeSort_lt
    have hdistinct : (w.filesBelow ⟨.root, top⟩).Pairwise fun p q => p.parts ≠ q.parts := by
      rw [Workspace.filesBelow, List.pairwise_map]
      exact ht.nodup_filesFrom
    exact hdistinct.filter _
  · intro p
    rw [List.mem_mergeSort, List.mem_filter, ht.mem_filesBelow, isKept, Bool.and_eq_true,
      Bool.not_eq_true', Bool.and_eq_false_imp]
    constructor
    · rintro ⟨⟨hanchor, hbelow, hstrict, hfile⟩, haccepted, hshown⟩
      exact ⟨hanchor, hbelow, hstrict, hfile, haccepted, hshown⟩
    · rintro ⟨hanchor, hbelow, hstrict, hfile, haccepted, hshown⟩
      exact ⟨⟨hanchor, hbelow, hstrict, hfile⟩, haccepted, hshown⟩

theorem find_sorted (ht : w.IsTree) (hroot : w.resolve root = .ok ⟨.root, top⟩)
    (htop : w.entryAt? top = some .directory) (hu : respect = true → IgnoreTree.Usable w top)
    (filter : FileFilter) : ∃ files, find w filter respect root = .ok files ∧
      files.Pairwise (fun p q => p.parts < q.parts) ∧
      ∀ p, p ∈ files ↔ IsFound w filter respect top p :=
  find_sorted_of_searchable ht hroot htop fun hrespect => searchable_of_usable (hu hrespect) filter

/-- What is found depends on what is where, and not on how it is listed. -/
theorem isFound_congr {w' : Workspace} (h : ∀ place, w'.entryAt? place = w.entryAt? place)
    {p : Path} : IsFound w' filter respect top p ↔ IsFound w filter respect top p := by
  have hfile : w'.isFileAt p.parts = w.isFileAt p.parts := by
    rw [Workspace.isFileAt, Workspace.isFileAt, h]
  have hhidden := IgnoreTree.isHidden_congr h
  constructor
  · rintro ⟨hanchor, hbelow, hstrict, hat, haccepted, hshown⟩
    exact ⟨hanchor, hbelow, hstrict, hfile ▸ hat, haccepted, hhidden ▸ hshown⟩
  · rintro ⟨hanchor, hbelow, hstrict, hat, haccepted, hshown⟩
    exact ⟨hanchor, hbelow, hstrict, hfile ▸ hat, haccepted, hhidden ▸ hshown⟩

/-- In a directory of a tree whose ignore files can be used, a search finds exactly the files at any
depth that the filter accepts and that are not hidden, in strictly increasing order of their parts,
and it finds the same whatever the order in which directories list what they hold. -/
theorem find_exact {w : Workspace} {root : Path} {top : List String} {respect : Bool}
    (htree : w.IsTree) (hroot : w.resolve root = .ok ⟨.root, top⟩)
    (htop : w.entryAt? top = some .directory)
    (husable : respect = true → IgnoreTree.Usable w top) (filter : FileFilter) :
    ∃ files, find w filter respect root = .ok files ∧
      files.Pairwise (fun p q => p.parts < q.parts) ∧
      (∀ p, p ∈ files ↔ IsFound w filter respect top p) ∧
      ∀ w' : Workspace, w'.cwd = w.cwd → w'.entries.Perm w.entries →
        find w' filter respect root = .ok files := by
  obtain ⟨files, hfind, hsorted, hmem⟩ := find_sorted htree hroot htop husable filter
  refine ⟨files, hfind, hsorted, hmem, ?_⟩
  intro w' hcwd hperm
  have hentry := htree.entryAt?_perm hperm
  have hroot' : w'.resolve root = .ok ⟨.root, top⟩ := by
    rw [Workspace.resolve, hcwd]
    exact hroot
  have husable' : respect = true → IgnoreTree.Usable w' top := by
    intro hrespect dir hdir
    rw [IgnoreTree.linesIn_congr hentry]
    exact husable hrespect dir hdir
  obtain ⟨files', hfind', hsorted', hmem'⟩ :=
    find_sorted (htree.perm hperm) hroot' ((hentry top).trans htop) husable' filter
  have hsame : files' = files := by
    have : Std.Irrefl fun p q : Path => p.parts < q.parts := ⟨fun p => lt_irrefl p.parts⟩
    have : Std.Antisymm fun p q : Path => p.parts < q.parts :=
      ⟨fun p q hpq hqp => absurd hpq hqp.asymm⟩
    apply hsorted'.eq_of_mem_iff hsorted
    intro p
    rw [hmem, hmem', isFound_congr hentry]
  rw [hfind', hsame]

/-- A tree in which the order of the parts is neither that of the texts nor that of a walk, and in
which inner files are listed before outer ones. -/
def sampleSearch : Workspace where
  entries :=
    [(["w", "a-b.js"], .file []),
      (["w", "a", "deep", ".gitignore"], .file "!y.js\n".toUTF8.toList),
      (["w", "a", "deep", "y.js"], .file []),
      (["w", "a", "deep"], .directory),
      (["w", "a", "y.js"], .file []),
      (["w", "a", "x.js"], .file []),
      (["w", "a"], .directory),
      (["w", ".gitignore"], .file "y.js\n".toUTF8.toList),
      (["w"], .directory)]
  cwd := ⟨.root, []⟩

theorem find_sampleSearch :
    let root : Path := ⟨.relative, ["w"]⟩
    sampleSearch.IsTree ∧ sampleSearch.resolve root = .ok ⟨.root, ["w"]⟩ ∧
      sampleSearch.entryAt? ["w"] = some .directory ∧ IgnoreTree.Usable sampleSearch ["w"] ∧
      (sampleSearch.filesBelow ⟨.root, ["w"]⟩).filter (isKept sampleSearch .default true ["w"]) =
        [⟨.root, ["w", "a-b.js"]⟩, ⟨.root, ["w", "a", "x.js"]⟩,
          ⟨.root, ["w", "a", "deep", "y.js"]⟩] ∧
      ∃ files, find sampleSearch .default true root = .ok files ∧
        files.Pairwise (fun p q => p.parts < q.parts) ∧
        (∀ p, p ∈ files ↔ IsFound sampleSearch .default true ["w"] p) ∧
        ∀ w' : Workspace, w'.cwd = sampleSearch.cwd → w'.entries.Perm sampleSearch.entries →
          find w' .default true root = .ok files := by
  intro root
  have htree : sampleSearch.IsTree := by decide +kernel
  have hroot : sampleSearch.resolve root = .ok ⟨.root, ["w"]⟩ := by decide +kernel
  have htop : sampleSearch.entryAt? ["w"] = some .directory := by decide +kernel
  have husable : IgnoreTree.Usable sampleSearch ["w"] :=
    IgnoreTree.usable_of_entries (by decide +kernel) ["w"]
  exact ⟨htree, hroot, htop, husable, by decide +kernel,
    find_exact htree hroot htop (fun _ => husable) .default⟩

end SourceFiles

end DefaultImports
