import DefaultImports.Proofs.Ignore.Hidden
import DefaultImports.Proofs.Workspace.Walk

/-! The verdict on a path that comes of asking the ignore files in the order of a walk is that of the
rules on the way to the path. -/
namespace DefaultImports.IgnoreTree

variable {w : Workspace} {top dir rest : List String} {rules : List IgnoreRule}
  {files : List IgnoreFile} {p : Path}

/-! ## Rules in turn -/

/-- What the last of some rules says, and `ignored` if there is none. -/
def verdict (ignored : Bool) (rules : List IgnoreRule) : Bool :=
  (rules.getLast?.map (!·.negated)).getD ignored

theorem verdict_append (ignored : Bool) (xs ys : List IgnoreRule) :
    verdict ignored (xs ++ ys) = verdict (verdict ignored xs) ys := by
  rw [verdict, verdict, verdict, List.getLast?_append]
  cases ys.getLast? <;> rfl

theorem verdict_false (rules : List IgnoreRule) :
    verdict false rules = rules.getLast?.any (!·.negated) := by
  rw [verdict]
  cases rules.getLast? <;> rfl

theorem applyRules_eq (h : ∀ r ∈ rules, r.expression.isSome = true) (rel : String)
    (ignored : Bool) :
    applyRules rel rules ignored = .ok (verdict ignored (rules.filter (·.matchesPath rel))) := by
  induction rules generalizing ignored with
  | nil => rfl
  | cons r rest ih =>
    have hrest := ih fun r hr => h r (List.mem_cons_of_mem _ hr)
    rw [applyRules, IgnoreRule.applies_eq (h r List.mem_cons_self)]
    refine (hrest _).trans (congrArg Except.ok ?_)
    cases hr : r.matchesPath rel with
    | false => simp [hr]
    | true =>
      rw [List.filter_cons, if_pos hr, ← List.singleton_append, verdict_append]
      rfl

/-- The rules of a file that apply to a path. -/
def spoken (p : Path) (f : IgnoreFile) : List IgnoreRule :=
  match p.relativeTo? f.directory with
  | none => []
  | some rel => f.rules.filter (·.matchesPath rel.toString)

/-- None of the files that have a say on a path holds a malformed rule. -/
def SoundFor (p : Path) (files : List IgnoreFile) : Prop :=
  ∀ f ∈ files, (p.relativeTo? f.directory).isSome = true →
    ∀ r ∈ f.rules, r.expression.isSome = true

theorem applyFiles_eq (h : SoundFor p files) (ignored : Bool) :
    applyFiles p files ignored = .ok (verdict ignored (files.flatMap (spoken p))) := by
  induction files generalizing ignored with
  | nil => rfl
  | cons f rest ih =>
    have hrest := ih fun f hf => h f (List.mem_cons_of_mem _ hf)
    have hf := h f List.mem_cons_self
    rw [applyFiles, List.flatMap_cons, spoken, verdict_append]
    cases hrel : p.relativeTo? f.directory with
    | none => exact hrest ignored
    | some rel =>
      rw [hrel] at hf
      simp only [applyRules_eq (hf rfl)]
      exact hrest _

theorem anyIgnored_eq (t : IgnoreTree) {ps : List Path} (h : ∀ p ∈ ps, SoundFor p t.files) :
    t.anyIgnored ps = .ok (ps.any fun p => verdict false (t.files.flatMap (spoken p))) := by
  induction ps with
  | nil => rfl
  | cons p ps ih =>
    have hrest := ih fun q hq => h q (List.mem_cons_of_mem p hq)
    rw [anyIgnored, applyFiles_eq (h p List.mem_cons_self), hrest, List.any_cons]
    cases verdict false (t.files.flatMap (spoken p)) <;> rfl

/-! ## Reading the files -/

theorem rulesOfLines_eq {lines : List (List Char)}
    (h : ∀ line ∈ lines, IgnoreRule.isReadable line = true) : rulesOfLines lines =
      .ok (lines.filterMap fun line => (IgnoreRule.ofLine? line).toOption.join) := by
  induction lines with
  | nil => rfl
  | cons line rest ih =>
    have hline := h line List.mem_cons_self
    have hrest := ih fun line hline => h line (List.mem_cons_of_mem _ hline)
    rw [rulesOfLines, hrest]
    cases hrule : IgnoreRule.ofLine? line with
    | error e => simp [IgnoreRule.isReadable, hrule, Except.isOk, Except.toBool] at hline
    | ok rule => cases rule <;> simp [hrule, Except.toOption] <;> rfl

theorem isFileAt_of_mem_linesIn {line : List Char} (h : line ∈ linesIn w dir) :
    w.isFileAt (dir ++ [fileName]) = true := by
  rw [linesIn, textIn] at h
  split at h
  · rename_i bytes hbytes
    exact Workspace.isFileAt_iff.mpr ⟨bytes, hbytes⟩
  · cases h

theorem isFileAt_of_mem_rulesIn {r : IgnoreRule} (h : r ∈ rulesIn w dir) :
    w.isFileAt (dir ++ [fileName]) = true := by
  obtain ⟨line, hline, -⟩ := List.mem_filterMap.mp h
  exact isFileAt_of_mem_linesIn hline

theorem text?_eq (ht : w.IsTree) (hfile : w.isFileAt (dir ++ [fileName]) = true) :
    text? w ⟨.root, dir ++ [fileName]⟩ = textIn w dir := by
  obtain ⟨bytes, hbytes⟩ := Workspace.isFileAt_iff.mp hfile
  rw [text?, ht.readBytes_eq hbytes, textIn, hbytes]

/-- The rules of an ignore file by its place. -/
def fileAt (w : Workspace) (place : List String) : IgnoreFile :=
  ⟨⟨.root, place.dropLast⟩, rulesIn w place.dropLast⟩

theorem rulesOf_eq (ht : w.IsTree) (hr : Readable w top) (hdir : top <+: dir)
    (hfile : w.isFileAt (dir ++ [fileName]) = true) :
    rulesOf w ⟨.root, dir ++ [fileName]⟩ = .ok (fileAt w (dir ++ [fileName])) := by
  have hlines := hr dir hdir
  rw [linesIn] at hlines
  rw [rulesOf, text?_eq ht hfile, fileAt, Path.parent, List.dropLast_concat, rulesIn, linesIn]
  cases htext : textIn w dir with
  | none => rfl
  | some text =>
    rw [htext] at hlines
    have hrules : rulesOfLines (Text.breakLines text) = .ok _ := rulesOfLines_eq hlines
    simp only [hrules]
    rfl

theorem fileRules_eq {ps : List Path} {g : Path → IgnoreFile}
    (h : ∀ p ∈ ps, rulesOf w p = .ok (g p)) :
    fileRules w ps = .ok ((ps.map g).filter (!·.rules.isEmpty)) := by
  induction ps with
  | nil => rfl
  | cons p ps ih =>
    have hrest := ih fun p hp => h p (List.mem_cons_of_mem _ hp)
    have hstep : fileRules w (p :: ps) = .ok (if (g p).rules.isEmpty
        then (ps.map g).filter (!·.rules.isEmpty)
        else g p :: (ps.map g).filter (!·.rules.isEmpty)) := by
      rw [fileRules, h p List.mem_cons_self, hrest]
      rfl
    rw [hstep, List.map_cons, List.filter_cons]
    cases (g p).rules.isEmpty <;> rfl

/-- The places of the ignore files at or below a directory, as a walk meets them. -/
def placesBelow (w : Workspace) (top : List String) : List (List String) :=
  (w.filesFrom w.height top).filter (·.getLast? == some fileName)

theorem ignoreFiles_eq (w : Workspace) (top : List String) :
    ignoreFiles w ⟨.root, top⟩ = (placesBelow w top).map (⟨.root, ·⟩) := by
  have hname : ((·.name == fileName) ∘ fun place => (⟨.root, place⟩ : Path)) =
      fun place : List String => place.getLast? == some fileName := by
    funext place
    rw [Function.comp_apply, Path.name]
    cases place.getLast? with
    | none => rfl
    | some name => simp
  rw [ignoreFiles, Workspace.filesBelow, List.filter_map, hname, placesBelow]

theorem mem_placesBelow (ht : w.IsTree) {place : List String} : place ∈ placesBelow w top ↔
    ∃ dir, place = dir ++ [fileName] ∧ top <+: dir ∧ w.isFileAt place = true := by
  rw [placesBelow, List.mem_filter, ht.mem_filesFrom_height]
  constructor
  · rintro ⟨⟨⟨rest, rfl⟩, hne, hfile⟩, hname⟩
    have hrest : rest ≠ [] := by simpa using hne
    refine ⟨top ++ rest.dropLast, ?_, List.prefix_append .., hfile⟩
    rw [← List.dropLast_append_of_ne_nil hrest]
    exact (List.dropLast_append_getLast? _ (beq_iff_eq.mp hname)).symm
  · rintro ⟨dir, rfl, hdir, hfile⟩
    refine ⟨⟨hdir.trans (List.prefix_append ..), ?_, hfile⟩, by simp⟩
    rintro rfl
    have hlength := hdir.length_le
    simp only [List.length_append, List.length_singleton] at hlength
    omega

/-- The ignore files at or below a directory, by what they hold. -/
def treeAt (w : Workspace) (top : List String) : IgnoreTree :=
  ⟨⟨.root, top⟩, ((placesBelow w top).map (fileAt w)).filter (!·.rules.isEmpty)⟩

theorem soundFor_treeAt (ht : w.IsTree) {place q : List String} (hs : SoundTo w top place)
    (hq : q <+: place) : SoundFor ⟨.root, q⟩ (treeAt w top).files := by
  intro f hf hsays
  obtain ⟨file, hfile, rfl⟩ := List.mem_map.mp (List.mem_filter.mp hf).1
  obtain ⟨dir, rfl, hdir, -⟩ := (mem_placesBelow ht).mp hfile
  simp only [fileAt, List.dropLast_concat, Path.relativeTo?, true_and] at hsays ⊢
  split at hsays
  · rename_i hbelow
    exact hs dir hdir ((List.isPrefixOf_iff_prefix.mp hbelow).trans hq)
  · cases hsays

/-- Reading the ignore files of a tree gives what they hold. -/
theorem read_of_readable (ht : w.IsTree) (hr : Readable w top) {root : Path}
    (hroot : w.resolve root = .ok ⟨.root, top⟩) {found : Option Entry}
    (hprobe : w.probe ⟨.root, top⟩ = .ok found) : read w root = .ok (treeAt w top) := by
  have hrules : ∀ p ∈ (placesBelow w top).map (⟨.root, ·⟩),
      rulesOf w p = .ok (fileAt w p.parts) := by
    intro p hp
    obtain ⟨place, hplace, rfl⟩ := List.mem_map.mp hp
    obtain ⟨dir, rfl, hdir, hfile⟩ := (mem_placesBelow ht).mp hplace
    exact rulesOf_eq ht hr hdir hfile
  have hfiles : fileRules w (ignoreFiles w ⟨.root, top⟩) = .ok (treeAt w top).files := by
    rw [ignoreFiles_eq, fileRules_eq hrules, List.map_map]
    rfl
  simp only [read, hroot, Except.mapError, bind, Except.bind, hprobe, hfiles]
  rfl

theorem read_eq_treeAt (ht : w.IsTree) (hu : Usable w top) {root : Path}
    (hroot : w.resolve root = .ok ⟨.root, top⟩) {found : Option Entry}
    (hprobe : w.probe ⟨.root, top⟩ = .ok found) : read w root = .ok (treeAt w top) :=
  read_of_readable ht hu.readable hroot hprobe

theorem flatMap_filter_of {α β : Type} {xs : List α} {keep : α → Bool} {g : α → List β}
    (h : ∀ x ∈ xs, keep x = false → g x = []) : (xs.filter keep).flatMap g = xs.flatMap g := by
  induction xs with
  | nil => rfl
  | cons x xs ih =>
    have hrest := ih fun y hy => h y (List.mem_cons_of_mem _ hy)
    cases hx : keep x with
    | false => simp [hx, hrest, h x List.mem_cons_self hx]
    | true => simp [hx, hrest]

theorem directoriesTo_append (top rest : List String) :
    directoriesTo top (top ++ rest) = rest.inits.map (top ++ ·) := by
  rw [directoriesTo]
  induction top with
  | nil => simp
  | cons x top ih =>
    have hcons : (x :: top).isPrefixOf ∘ (x :: ·) = top.isPrefixOf := by
      funext xs
      simp [List.isPrefixOf]
    rw [List.cons_append, List.inits_cons, List.filter_cons_of_neg (by simp), List.filter_map,
      hcons, ih, List.map_map]
    rfl

theorem spoken_fileAt {q place : List String} (h : place.dropLast <+: q) :
    spoken ⟨.root, q⟩ (fileAt w place) = applyingIn w q place.dropLast := by
  simp only [spoken, fileAt, Path.relativeTo?, true_and, List.isPrefixOf_iff_prefix.mpr h, if_true]
  rfl

theorem spoken_fileAt_of_not_prefix {q place : List String} (h : ¬ place.dropLast <+: q) :
    spoken ⟨.root, q⟩ (fileAt w place) = [] := by
  simp only [spoken, fileAt, Path.relativeTo?, true_and, List.isPrefixOf_iff_prefix, if_neg h]

theorem spoken_of_rules_nil {f : IgnoreFile} (h : f.rules = []) : spoken p f = [] := by
  rw [spoken, h]
  split <;> rfl

/-- What the files that a walk meets say about a place is what those on the way to it say, the
outer ones first. -/
theorem flatMap_spoken (ht : w.IsTree) (top rest : List String) :
    (treeAt w top).files.flatMap (spoken ⟨.root, top ++ rest⟩) =
      (directoriesTo top (top ++ rest)).flatMap (applyingIn w (top ++ rest)) := by
  have hempty : ∀ f ∈ (placesBelow w top).map (fileAt w), (!f.rules.isEmpty) = false →
      spoken ⟨.root, top ++ rest⟩ f = [] :=
    fun f _ hf => spoken_of_rules_nil (by simpa using hf)
  have haside : ∀ place ∈ placesBelow w top, place.dropLast.isPrefixOf (top ++ rest) = false →
      spoken ⟨.root, top ++ rest⟩ (fileAt w place) = [] :=
    fun place _ hplace =>
      spoken_fileAt_of_not_prefix (by simpa [← List.isPrefixOf_iff_prefix] using hplace)
  have hway : (placesBelow w top).filter (·.dropLast.isPrefixOf (top ++ rest)) =
      (rest.inits.map fun xs => top ++ xs ++ [fileName]).filter w.isFileAt := by
    have hdepth : ∀ f ∈ w.entries, f.1.length ≤ top.length + w.height :=
      fun f hf => Nat.le_trans (Workspace.length_le_height hf) (Nat.le_add_left ..)
    rw [placesBelow, List.filter_filter, ← ht.filter_filesFrom fileName rest hdepth]
    exact List.filter_congr fun place _ => Bool.and_comm _ _
  have hmissing : ∀ place ∈ rest.inits.map fun xs => top ++ xs ++ [fileName],
      w.isFileAt place = false → spoken ⟨.root, top ++ rest⟩ (fileAt w place) = [] := by
    intro place hplace hfile
    obtain ⟨xs, -, rfl⟩ := List.mem_map.mp hplace
    apply spoken_of_rules_nil
    rw [fileAt, List.dropLast_concat, List.eq_nil_iff_forall_not_mem]
    intro r hr
    exact Bool.false_ne_true (hfile.symm.trans (isFileAt_of_mem_rulesIn hr))
  rw [treeAt, flatMap_filter_of hempty, List.flatMap_map, ← flatMap_filter_of haside, hway,
    flatMap_filter_of hmissing, directoriesTo_append, List.flatMap_map, List.flatMap_map]
  apply List.flatMap_congr
  intro xs hxs
  have hprefix : top ++ xs <+: top ++ rest :=
    (List.prefix_append_right_inj top).mpr ((List.mem_inits ..).mp hxs)
  rw [spoken_fileAt] <;> rw [List.dropLast_concat]
  exact hprefix

/-! ## Paths -/

/-- The paths asked about are the path itself and the directories between it and the root. -/
theorem mem_between {q : Path} (hne : rest ≠ []) :
    q ∈ between ⟨.root, top⟩ ⟨.root, top ++ rest⟩ ++ [⟨.root, top ++ rest⟩] ↔
      q.anchor = .root ∧ top <+: q.parts ∧ q.parts ≠ top ∧ q.parts <+: top ++ rest := by
  have hrelative : (⟨.root, top ++ rest⟩ : Path).relativeTo? ⟨.root, top⟩ =
      some ⟨.relative, rest⟩ := by simp [Path.relativeTo?]
  obtain ⟨anchor, q⟩ := q
  simp only [between, hrelative, List.mem_append, List.mem_reverse, List.mem_map, List.mem_range,
    List.mem_singleton, Path.mk.injEq]
  constructor
  · rintro (⟨i, -, rfl, rfl⟩ | ⟨rfl, rfl⟩)
    · refine ⟨rfl, List.prefix_append .., by simpa using hne, ?_⟩
      exact (List.prefix_append_right_inj top).mpr (List.take_prefix ..)
    · exact ⟨rfl, List.prefix_append .., by simpa using hne, List.prefix_rfl⟩
  · rintro ⟨rfl, ⟨xs, rfl⟩, hxs, hprefix⟩
    have hrest : xs <+: rest := (List.prefix_append_right_inj top).mp hprefix
    have hpos : 0 < xs.length := List.length_pos_iff.mpr (by simpa using hxs)
    rcases Nat.lt_or_ge xs.length rest.length with hlt | hge
    · refine Or.inl ⟨xs.length - 1, by omega, rfl, ?_⟩
      rw [Nat.sub_add_cancel hpos, ← List.prefix_iff_eq_take.mp hrest]
    · exact Or.inr ⟨rfl, by rw [hrest.eq_of_length_le hge]⟩

/-- The verdict on a path below the root, by what the ignore files on the way to it hold. -/
theorem isIgnored_of_soundTo (ht : w.IsTree) (hs : SoundTo w top (top ++ rest)) (hne : rest ≠ [])
    (hresolve : w.resolve p = .ok ⟨.root, top ++ rest⟩) :
    isIgnored w (treeAt w top) p = .ok (isHidden w top (top ++ rest)) := by
  have hsaid : ∀ q, top <+: q → verdict false ((treeAt w top).files.flatMap (spoken ⟨.root, q⟩)) =
      ((directoriesTo top q).flatMap (applyingIn w q)).getLast?.any (!·.negated) := by
    rintro q ⟨xs, rfl⟩
    rw [flatMap_spoken ht, verdict_false]
  have hsound : ∀ q ∈ between ⟨.root, top⟩ ⟨.root, top ++ rest⟩ ++ [(⟨.root, top ++ rest⟩ : Path)],
      SoundFor q (treeAt w top).files := by
    rintro ⟨_, q⟩ hq
    obtain ⟨rfl, -, -, hbelow⟩ := (mem_between hne).mp hq
    exact soundFor_treeAt ht hs hbelow
  have hanswer := anyIgnored_eq (treeAt w top) hsound
  have hany : ((between ⟨.root, top⟩ ⟨.root, top ++ rest⟩ ++ [(⟨.root, top ++ rest⟩ : Path)]).any
      fun q => verdict false ((treeAt w top).files.flatMap (spoken q))) =
        isHidden w top (top ++ rest) := by
    rw [isHidden, isHiddenIn, Bool.eq_iff_iff, List.any_eq_true, List.any_eq_true]
    simp only [mem_between hne, List.mem_filter, List.mem_inits, Bool.and_eq_true,
      List.isPrefixOf_iff_prefix, bne_iff_ne]
    constructor
    · rintro ⟨⟨_, q⟩, ⟨rfl, htop, hne', hq⟩, hhidden⟩
      exact ⟨q, ⟨hq, htop, hne'⟩, hsaid q htop ▸ hhidden⟩
    · rintro ⟨q, ⟨hq, htop, hne'⟩, hhidden⟩
      exact ⟨⟨.root, q⟩, ⟨rfl, htop, hne', hq⟩, (hsaid q htop).trans hhidden⟩
  rw [hany] at hanswer
  simp only [isIgnored, hresolve, Except.mapError, bind, Except.bind]
  have hroot : (treeAt w top).root = ⟨.root, top⟩ := rfl
  rw [hroot, hanswer]

theorem isIgnored_treeAt (ht : w.IsTree) (hu : Usable w top) (hne : rest ≠ [])
    (hresolve : w.resolve p = .ok ⟨.root, top ++ rest⟩) :
    isIgnored w (treeAt w top) p = .ok (isHidden w top (top ++ rest)) :=
  isIgnored_of_soundTo ht (hu.soundTo _) hne hresolve

/-- On a tree whose ignore files can be used, the files are read, and the verdict on each path
below the root is that of the last rule that applies to it or to a directory above it. A directory
is subject to the rules that are in it, as far as they apply to it by the name `.`. -/
theorem isIgnored_exact {w : Workspace} {root : Path} {top : List String} (htree : w.IsTree)
    (husable : Usable w top) (hroot : w.resolve root = .ok ⟨.root, top⟩)
    (htop : w.entryAt? top = some .directory) :
    ∃ t, read w root = .ok t ∧ ∀ p rest, rest ≠ [] → w.resolve p = .ok ⟨.root, top ++ rest⟩ →
      t.isIgnored w p = .ok (isHidden w top (top ++ rest)) := by
  have hprobe : w.probe ⟨.root, top⟩ = .ok (some .directory) := by
    rw [Workspace.probe, htree.entry_eq htop]
  refine ⟨treeAt w top, read_eq_treeAt htree husable hroot hprobe, ?_⟩
  intro p rest hne hresolve
  exact isIgnored_treeAt htree husable hne hresolve

/-- The outer file hides all scripts, and the inner one takes one of them back. -/
def sampleNested : Workspace where
  entries :=
    [(["w"], .directory),
      (["w", "sub"], .directory),
      (["w", "sub", "b.js"], .file []),
      (["w", "sub", ".gitignore"], .file "!a.js\n".toUTF8.toList),
      (["w", ".gitignore"], .file "*.js\n".toUTF8.toList),
      (["w", "sub", "a.js"], .file [])]
  cwd := ⟨.root, ["w"]⟩

theorem isIgnored_sampleNested :
    let root : Path := ⟨.relative, []⟩
    sampleNested.IsTree ∧ Usable sampleNested ["w"] ∧
      sampleNested.resolve root = .ok ⟨.root, ["w"]⟩ ∧
      sampleNested.entryAt? ["w"] = some .directory ∧
      isHidden sampleNested ["w"] ["w", "sub", "a.js"] = false ∧
      isHidden sampleNested ["w"] ["w", "sub", "b.js"] = true ∧
      ∃ t, read sampleNested root = .ok t ∧ ∀ p rest, rest ≠ [] →
        sampleNested.resolve p = .ok ⟨.root, ["w"] ++ rest⟩ →
          t.isIgnored sampleNested p = .ok (isHidden sampleNested ["w"] (["w"] ++ rest)) := by
  intro root
  have htree : sampleNested.IsTree := by decide +kernel
  have husable : Usable sampleNested ["w"] := usable_of_entries (by decide +kernel) ["w"]
  have hroot : sampleNested.resolve root = .ok ⟨.root, ["w"]⟩ := by decide +kernel
  have htop : sampleNested.entryAt? ["w"] = some .directory := by decide +kernel
  exact ⟨htree, husable, hroot, htop, by decide +kernel, by decide +kernel,
    isIgnored_exact htree husable hroot htop⟩

/-- The directories from `top` down to `q`, without `q` itself. -/
def directoriesAbove (top q : List String) : List (List String) :=
  q.inits.filter fun dir => top.isPrefixOf dir && dir != q

/-- A directory with the rules `*` and `!keep.js`. -/
def sampleKept : Workspace where
  entries :=
    [(["w"], .directory),
      (["w", "sub"], .directory),
      (["w", "sub", ".gitignore"], .file "*\n!keep.js\n".toUTF8.toList),
      (["w", "sub", "keep.js"], .file [])]
  cwd := ⟨.root, ["w"]⟩

/-- The file that is to be kept is ignored with its directory, to which the rule `*` in it applies.
If the rules in a directory did not count for the directory itself, the file would be kept. -/
theorem isIgnored_sampleKept :
    (do
      let t ← read sampleKept ⟨.relative, []⟩
      t.isIgnored sampleKept ⟨.relative, ["sub", "keep.js"]⟩) = .ok true ∧
    isHiddenIn (directoriesAbove ["w"]) sampleKept ["w"] ["w", "sub", "keep.js"] = false := by
  constructor <;> decide +kernel

end DefaultImports.IgnoreTree
