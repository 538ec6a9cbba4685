import DefaultImports.Proofs.Ignore.Failure
import DefaultImports.Proofs.SourceFiles.Search

/-! What breaks off a search for source files that respects the ignore files. Main statement:
`find_breaks_off`. -/
namespace DefaultImports.SourceFiles

variable {w : Workspace} {filter : FileFilter} {root : Path} {ignores : Option IgnoreTree}
  {top : List String} {files : List Path}

/-- A walk is broken off by an accepted file on which there is no verdict, if that is the only way
in which verdicts fail. -/
theorem keep_of_error {e : SearchError} {file : Path} (hfile : file ∈ files)
    (haccepts : filter.accepts file root = true) (hverdict : verdictOn w ignores file = .error e)
    (h : ∀ file ∈ files, filter.accepts file root = true →
      verdictOn w ignores file = .error e ∨ ∃ hidden, verdictOn w ignores file = .ok hidden) :
    keep w filter root ignores files = .error e := by
  induction files with
  | nil => cases hfile
  | cons first rest ih =>
    have hlater : file ≠ first → keep w filter root ignores rest = .error e :=
      fun hne => ih (List.mem_of_ne_of_mem hne hfile) fun f hf => h f (List.mem_cons_of_mem _ hf)
    rw [keep_cons]
    cases hfirst : filter.accepts first root with
    | false =>
      have hne : file ≠ first := by
        rintro rfl
        simp [haccepts] at hfirst
      rw [hlater hne]
      rfl
    | true =>
      rw [if_pos rfl]
      rcases h first List.mem_cons_self hfirst with hfails | ⟨hidden, hgives⟩
      · rw [hfails]
        rfl
      · have hne : file ≠ first := by
          rintro rfl
          simp [hverdict] at hgives
        rw [hgives, hlater hne]
        rfl

theorem verdictOn_of_not_soundTo (ht : w.IsTree) {file : Path}
    (hfile : file ∈ w.filesBelow ⟨.root, top⟩) (hs : ¬ IgnoreTree.SoundTo w top file.parts) :
    verdictOn w (asked w true top) file = .error (.ignore .malformed) := by
  obtain ⟨-, -, -, hat⟩ := ht.mem_filesBelow.mp hfile
  obtain ⟨rest, hne, hparts, hresolve⟩ := resolve_of_mem_filesBelow ht hfile
  rw [hparts] at hs hat
  exact IgnoreTree.isIgnored_of_not_soundTo ht hat hs hne hresolve

/-- The ways in which ignore files break off a search. -/
inductive BreaksOff (w : Workspace) (filter : FileFilter) (top : List String) :
    SearchError → Prop where
  /-- An ignore file anywhere below cannot be read to the end. -/
  | unread (h : ¬ IgnoreTree.Readable w top) : BreaksOff w filter top (.ignore .truncated)
  /-- All can be read, but there is a malformed rule on the way to an accepted file. -/
  | unsound (hr : IgnoreTree.Readable w top) {file : Path}
      (hfile : file ∈ w.filesBelow ⟨.root, top⟩)
      (haccepts : filter.accepts file ⟨.root, top⟩ = true)
      (hs : ¬ IgnoreTree.SoundTo w top file.parts) : BreaksOff w filter top (.ignore .malformed)

theorem find_of_not_readable (ht : w.IsTree) (hroot : w.resolve root = .ok ⟨.root, top⟩)
    (htop : w.entryAt? top = some .directory) (hr : ¬ IgnoreTree.Readable w top)
    (filter : FileFilter) : find w filter true root = .error (.ignore .truncated) := by
  have hprobe : w.probe ⟨.root, top⟩ = .ok (some .directory) := by
    rw [Workspace.probe, ht.entry_eq htop]
  have hagain : w.resolve ⟨.root, top⟩ = .ok ⟨.root, top⟩ :=
    w.resolve_of_names (ht.names_of_entryAt? htop)
  simp only [find, hroot, Except.mapError, bind, Except.bind, hprobe, if_true]
  rw [IgnoreTree.read_of_not_readable ht hr hagain hprobe]
  rfl

theorem find_of_breaksOff (ht : w.IsTree) (hroot : w.resolve root = .ok ⟨.root, top⟩)
    (htop : w.entryAt? top = some .directory) {e : SearchError} (h : BreaksOff w filter top e) :
    find w filter true root = .error e := by
  cases h with
  | unread hr => exact find_of_not_readable ht hroot htop hr filter
  | unsound hr hfile haccepts hs =>
    have hkeep : keep w filter ⟨.root, top⟩ (asked w true top) (w.filesBelow ⟨.root, top⟩) =
        .error (.ignore .malformed) := by
      apply keep_of_error hfile haccepts (verdictOn_of_not_soundTo ht hfile hs)
      intro other hother _
      by_cases hsound : IgnoreTree.SoundTo w top other.parts
      · exact Or.inr ⟨_, verdictOn_asked ht (fun _ => hsound) hother⟩
      · exact Or.inl (verdictOn_of_not_soundTo ht hother hsound)
    rw [find_of_readable ht hroot htop fun _ => hr, hkeep]
    rfl

theorem searchable_or_breaksOff (w : Workspace) (filter : FileFilter) (top : List String) :
    Searchable w filter top ∨ ∃ e, BreaksOff w filter top e := by
  by_cases hr : IgnoreTree.Readable w top
  · by_cases hs : ∀ file ∈ w.filesBelow ⟨.root, top⟩,
        filter.accepts file ⟨.root, top⟩ = true → IgnoreTree.SoundTo w top file.parts
    · exact Or.inl ⟨hr, hs⟩
    · obtain ⟨file, hfile, haccepts, hnot⟩ : ∃ file ∈ w.filesBelow ⟨.root, top⟩,
          filter.accepts file ⟨.root, top⟩ = true ∧ ¬ IgnoreTree.SoundTo w top file.parts := by
        simpa using hs
      exact Or.inr ⟨_, .unsound hr hfile haccepts hnot⟩
  · exact Or.inr ⟨_, .unread hr⟩

/-- In a directory of a tree, ignore files break off a search in two ways and no other: a line of
which no rule can be made, in any of them, and a malformed rule on the way to an accepted file. A
search that is not broken off finds the accepted files that are not hidden. -/
theorem find_breaks_off {w : Workspace} {root : Path} {top : List String} (htree : w.IsTree)
    (hroot : w.resolve root = .ok ⟨.root, top⟩) (htop : w.entryAt? top = some .directory)
    (filter : FileFilter) :
    (∀ e, find w filter true root = .error e ↔ BreaksOff w filter top e) ∧
      ((∀ e, ¬ BreaksOff w filter top e) → ∃ files, find w filter true root = .ok files ∧
        files.Pairwise (fun p q => p.parts < q.parts) ∧
        ∀ p, p ∈ files ↔ IsFound w filter true top p) := by
  rcases searchable_or_breaksOff w filter top with hs | ⟨e, he⟩
  · obtain ⟨files, hfind, hfound⟩ := find_sorted_of_searchable htree hroot htop fun _ => hs
    have hnever : ∀ e, ¬ BreaksOff w filter top e := by
      intro e he
      cases hfind.symm.trans (find_of_breaksOff htree hroot htop he)
    refine ⟨?_, fun _ => ⟨files, hfind, hfound⟩⟩
    intro e
    rw [hfind]
    exact ⟨nofun, fun he => absurd he (hnever e)⟩
  · have hfind := find_of_breaksOff htree hroot htop he
    refine ⟨?_, fun hnever => absurd he (hnever e)⟩
    intro e'
    constructor
    · intro hfind'
      obtain rfl : e = e' := Except.error.inj (hfind.symm.trans hfind')
      exact he
    · exact find_of_breaksOff htree hroot htop

/-- A malformed rule where there is no file to check, and an ignore file that is no text. -/
def sampleAside : Workspace where
  entries :=
    [(["w"], .directory),
      (["w", "a.js"], .file []),
      (["w", ".gitignore"], .file [0xff]),
      (["w", "docs"], .directory),
      (["w", "docs", "notes.md"], .file []),
      (["w", "docs", ".gitignore"], .file "[z-a]\n".toUTF8.toList)]
  cwd := ⟨.root, ["w"]⟩

theorem find_sampleAside :
    let root : Path := ⟨.relative, []⟩
    sampleAside.IsTree ∧ sampleAside.resolve root = .ok ⟨.root, ["w"]⟩ ∧
      sampleAside.entryAt? ["w"] = some .directory ∧
      ¬ IgnoreTree.SoundTo sampleAside ["w"] ["w", "docs"] ∧
      find sampleAside .default true root = .ok [⟨.root, ["w", "a.js"]⟩] ∧
      (∀ e, ¬ BreaksOff sampleAside .default ["w"] e) ∧
      ∃ files, find sampleAside .default true root = .ok files ∧
        files.Pairwise (fun p q => p.parts < q.parts) ∧
        ∀ p, p ∈ files ↔ IsFound sampleAside .default true ["w"] p := by
  intro root
  have htree : sampleAside.IsTree := by decide +kernel
  have hroot : sampleAside.resolve root = .ok ⟨.root, ["w"]⟩ := by decide +kernel
  have htop : sampleAside.entryAt? ["w"] = some .directory := by decide +kernel
  have hunsound : ¬ IgnoreTree.SoundTo sampleAside ["w"] ["w", "docs"] := by
    intro hs
    have hrules : (IgnoreTree.rulesIn sampleAside ["w", "docs"]).all (·.expression.isSome) =
        false := by decide +kernel
    simp [List.all_eq_true.mpr (hs ["w", "docs"] (by decide) (by decide))] at hrules
  have hfind : find sampleAside .default true root = .ok [⟨.root, ["w", "a.js"]⟩] := by
    decide +kernel
  obtain ⟨herror, hfound⟩ := find_breaks_off htree hroot htop .default
  have hnever : ∀ e, ¬ BreaksOff sampleAside .default ["w"] e := by
    intro e he
    cases hfind.symm.trans ((herror e).mpr he)
  exact ⟨htree, hroot, htop, hunsound, hfind, hnever, hfound hnever⟩

/-- A source file beside an ignore file with the given text. -/
def sampleIgnore (text : String) : Workspace where
  entries :=
    [(["w"], .directory),
      (["w", ".gitignore"], .file text.toUTF8.toList),
      (["w", "a.js"], .file [])]
  cwd := ⟨.root, ["w"]⟩

/-- A search finds the source file beside an empty ignore file, but is broken off by a negation of
nothing, by two stars alone, and by a set whose ends are the wrong way around. -/
theorem find_sampleIgnore :
    let found (text : String) := find (sampleIgnore text) .default true ⟨.relative, []⟩
    found "" = .ok [⟨.root, ["w", "a.js"]⟩] ∧
      found "!\n" = .error (.ignore .truncated) ∧
      found "**\n" = .error (.ignore .truncated) ∧
      found "[z-a]\n" = .error (.ignore .malformed) := by
  decide +kernel

end DefaultImports.SourceFiles
