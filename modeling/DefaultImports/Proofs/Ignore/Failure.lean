import DefaultImports.Proofs.Ignore.Verdict

/-! Lines that break off the use of ignore files. A line of which no rule can be made does so when
the files are read, and a malformed rule when it is first asked about a path. -/
namespace DefaultImports

namespace IgnoreRule

variable {α β : Type} {line : List Char}

/-! ## Lines of which no rule can be made -/

/-- The making of a rule never ends in the error that is left for its use. -/
def Makes (x : Except IgnoreError α) : Prop := x ≠ .error .malformed

theorem makes_ok (a : α) : Makes (.ok a) := nofun

theorem makes_bind {x : Except IgnoreError α} {f : α → Except IgnoreError β} (hx : Makes x)
    (hf : ∀ a, Makes (f a)) : Makes (x >>= f) := by
  cases x with
  | error e =>
    intro h
    exact hx (congrArg Except.error (Except.error.inj h))
  | ok a => exact hf a

theorem makes_map {x : Except IgnoreError α} (hx : Makes x) (f : α → β) : Makes (f <$> x) :=
  makes_bind hx fun a => makes_ok (f a)

theorem makes_ite {x y : Except IgnoreError α} (c : Prop) [Decidable c] (hx : Makes x)
    (hy : Makes y) : Makes (if c then x else y) := by
  split
  · exact hx
  · exact hy

theorem makes_dropSlash (s : List Char) : Makes (dropSlash s) := by
  unfold dropSlash
  split <;> nofun

theorem makes_dropLastSlash (s : List Char) : Makes (dropLastSlash s) := by
  unfold dropLastSlash
  split <;> nofun

theorem makes_dropStars (s : List Char) : Makes (dropStars s) := by
  unfold dropStars
  split <;> nofun

theorem makes_unescapeStart (s : List Char) : Makes (unescapeStart s) := by
  unfold unescapeStart
  split <;> nofun

theorem makes_setText (body : List Char) : Makes (setText body) := by
  unfold setText
  split <;> nofun

theorem makes_writeFrom (skip : Nat) (s : List Char) : Makes (writeFrom skip s) := by
  fun_induction writeFrom skip s with
  | case1 => nofun
  | case2 skip c rest ih => exact ih
  | case3 tail ih | case4 tail _ ih | case5 rest _ _ ih | case6 rest ih | case7 rest ih
  | case10 rest c _ _ _ _ _ _ ih => exact makes_map ih _
  | case8 rest hbody ih =>
    rw [hbody]
    exact makes_map ih _
  | case9 rest body hbody ih =>
    rw [hbody]
    exact makes_bind (makes_setText body) fun text => makes_bind ih fun _ => makes_ok _

theorem makes_ofBody (negated : Bool) (body : List Char) : Makes (ofBody negated body) := by
  unfold ofBody
  split
  · refine makes_bind (makes_dropSlash _) fun _ => makes_bind (makes_dropStars _) ?_
    rintro ⟨rest, anyDepth⟩
    refine makes_bind (makes_dropSlash _) fun _ => makes_bind (makes_dropLastSlash _) fun _ => ?_
    refine makes_bind (makes_unescapeStart _) fun _ => makes_bind (makes_writeFrom _ _) fun _ => ?_
    exact makes_ok _
  · nofun

theorem makes_ofLine? (line : List Char) : Makes (ofLine? line) :=
  makes_ite _ (makes_ok none) (makes_ite _ (makes_ok none) (makes_map (makes_ofBody _ _) some))

/-- There is one way only in which the making of a rule fails. -/
theorem ofLine?_of_not_isReadable (h : isReadable line = false) :
    ofLine? line = .error .truncated := by
  have hmakes := makes_ofLine? line
  cases hrule : ofLine? line with
  | ok rule => simp [isReadable, hrule, Except.isOk, Except.toBool] at h
  | error e =>
    cases e with
    | truncated => rfl
    | malformed => exact absurd hrule hmakes

end IgnoreRule

namespace IgnoreTree

variable {w : Workspace} {top dir rest : List String} {rules : List IgnoreRule}
  {files : List IgnoreFile} {p : Path}

theorem rulesOfLines_of_not_isReadable {lines : List (List Char)} {line : List Char}
    (hline : line ∈ lines) (h : IgnoreRule.isReadable line = false) :
    rulesOfLines lines = .error .truncated := by
  induction lines with
  | nil => cases hline
  | cons first lines ih =>
    rw [rulesOfLines]
    cases hfirst : IgnoreRule.isReadable first with
    | false =>
      rw [IgnoreRule.ofLine?_of_not_isReadable hfirst]
      rfl
    | true =>
      have hne : line ≠ first := by
        rintro rfl
        simp [h] at hfirst
      rw [ih (List.mem_of_ne_of_mem hne hline)]
      cases hrule : IgnoreRule.ofLine? first with
      | error e => simp [IgnoreRule.isReadable, hrule, Except.isOk, Except.toBool] at hfirst
      | ok rule => rfl

/-! ## Files that cannot be read to the end -/

/-- Each ignore file is read to the end, or its reading breaks off in the same way. -/
theorem rulesOf_cases (w : Workspace) (file : Path) :
    rulesOf w file = .error .truncated ∨ ∃ f, rulesOf w file = .ok f := by
  unfold rulesOf
  split
  · exact Or.inr ⟨_, rfl⟩
  · rename_i text _
    by_cases h : ∀ line ∈ Text.breakLines text, IgnoreRule.isReadable line = true
    · rw [rulesOfLines_eq h]
      exact Or.inr ⟨_, rfl⟩
    · obtain ⟨line, hline, hnot⟩ : ∃ line ∈ Text.breakLines text,
          IgnoreRule.isReadable line = false := by simpa using h
      rw [rulesOfLines_of_not_isReadable hline hnot]
      exact Or.inl rfl

theorem rulesOf_of_not_isReadable (ht : w.IsTree) {line : List Char} (hline : line ∈ linesIn w dir)
    (h : IgnoreRule.isReadable line = false) :
    rulesOf w ⟨.root, dir ++ [fileName]⟩ = .error .truncated := by
  rw [rulesOf, text?_eq ht (isFileAt_of_mem_linesIn hline)]
  rw [linesIn] at hline
  cases htext : textIn w dir with
  | none =>
    rw [htext] at hline
    cases hline
  | some text =>
    rw [htext] at hline
    have hlines : rulesOfLines (Text.breakLines text) = .error .truncated :=
      rulesOfLines_of_not_isReadable hline h
    simp only [hlines]
    rfl

theorem fileRules_of_error {files : List Path} {file : Path} (hfile : file ∈ files)
    (h : rulesOf w file = .error .truncated) : fileRules w files = .error .truncated := by
  induction files with
  | nil => cases hfile
  | cons first rest ih =>
    rw [fileRules]
    rcases rulesOf_cases w first with hfirst | ⟨f, hfirst⟩
    · rw [hfirst]
      rfl
    · have hne : file ≠ first := by
        rintro rfl
        simp [h] at hfirst
      rw [hfirst, ih (List.mem_of_ne_of_mem hne hfile)]
      rfl

/-- One line of which no rule can be made leaves all the ignore files unread. -/
theorem read_of_not_readable (ht : w.IsTree) (hr : ¬ Readable w top) {root : Path}
    (hroot : w.resolve root = .ok ⟨.root, top⟩) {found : Option Entry}
    (hprobe : w.probe ⟨.root, top⟩ = .ok found) :
    read w root = .error (.ignore .truncated) := by
  obtain ⟨dir, hdir, line, hline, hnot⟩ : ∃ dir, top <+: dir ∧
      ∃ line ∈ linesIn w dir, IgnoreRule.isReadable line = false := by simpa [Readable] using hr
  have hplace : (⟨.root, dir ++ [fileName]⟩ : Path) ∈ ignoreFiles w ⟨.root, top⟩ := by
    rw [ignoreFiles_eq, List.mem_map]
    have hfile := isFileAt_of_mem_linesIn hline
    exact ⟨_, (mem_placesBelow ht).mpr ⟨dir, rfl, hdir, hfile⟩, rfl⟩
  have hfiles : fileRules w (ignoreFiles w ⟨.root, top⟩) = .error .truncated :=
    fileRules_of_error hplace (rulesOf_of_not_isReadable ht hline hnot)
  simp only [read, hroot, Except.mapError, bind, Except.bind, hprobe, hfiles]

/-! ## Rules that cannot be applied -/

theorem applyRules_of_malformed {r : IgnoreRule} (hr : r ∈ rules)
    (hmalformed : r.expression.isSome = false) (rel : String) (ignored : Bool) :
    applyRules rel rules ignored = .error .malformed := by
  induction rules generalizing ignored with
  | nil => cases hr
  | cons first rest ih =>
    rw [applyRules]
    cases hfirst : first.expression with
    | none =>
      rw [IgnoreRule.applies, hfirst]
      rfl
    | some e =>
      have hne : r ≠ first := by
        rintro rfl
        simp [hfirst] at hmalformed
      rw [IgnoreRule.applies, hfirst]
      exact ih (List.mem_of_ne_of_mem hne hr) _

theorem applyFiles_of_not_soundFor (h : ¬ SoundFor p files) (ignored : Bool) :
    applyFiles p files ignored = .error .malformed := by
  induction files generalizing ignored with
  | nil => exact absurd nofun h
  | cons f rest ih =>
    rw [SoundFor, List.forall_mem_cons, not_and] at h
    rw [applyFiles]
    cases hrel : p.relativeTo? f.directory with
    | none => exact ih (h (by simp [hrel])) ignored
    | some rel =>
      by_cases hrules : ∀ r ∈ f.rules, r.expression.isSome = true
      · simp only [applyRules_eq hrules]
        exact ih (h fun _ => hrules) _
      · obtain ⟨r, hr, hmalformed⟩ : ∃ r ∈ f.rules, r.expression.isSome = false := by
          simpa using hrules
        simp only [applyRules_of_malformed hr hmalformed]
        rfl

/-- A malformed rule on the way to a file has a say on all that is in the directory of the file. -/
theorem not_soundFor_treeAt (ht : w.IsTree) {place q : List String}
    (hplace : w.isFileAt place = true) (hs : ¬ SoundTo w top place) (hq : place.dropLast <+: q) :
    ¬ SoundFor ⟨.root, q⟩ (treeAt w top).files := by
  refine mt ?_ hs
  intro hsound dir hdir hbelow r hr
  have hfile := isFileAt_of_mem_rulesIn hr
  -- nothing is below a file, so that the rule is in a directory above it
  have hne : dir ≠ place := by
    rintro rfl
    obtain ⟨bytes, hbytes⟩ := Workspace.isFileAt_iff.mp hfile
    obtain ⟨bytes', hbytes'⟩ := Workspace.isFileAt_iff.mp hplace
    cases hbytes'.symm.trans (ht.directory_above (by simp) hbytes)
  have hseen : dir <+: q := by
    obtain ⟨rest, rfl⟩ := hbelow
    have hrest : rest ≠ [] := by simpa using hne
    rw [List.dropLast_append_of_ne_nil hrest] at hq
    exact (List.prefix_append ..).trans hq
  refine hsound (fileAt w (dir ++ [fileName])) ?_ ?_ r (by simpa [fileAt] using hr)
  · have hmem := (mem_placesBelow ht).mpr ⟨dir, rfl, hdir, hfile⟩
    refine List.mem_filter.mpr ⟨List.mem_map_of_mem hmem, ?_⟩
    simpa [fileAt] using List.ne_nil_of_mem hr
  · simp [fileAt, Path.relativeTo?, hseen]

/-- The first path asked about is the directory of a path, or the path itself if that directory is
the root. -/
theorem between_eq_cons (top : List String) {rest : List String} (hne : rest ≠ []) :
    ∃ q others, between ⟨.root, top⟩ ⟨.root, top ++ rest⟩ ++ [(⟨.root, top ++ rest⟩ : Path)] =
      ⟨.root, q⟩ :: others ∧ (top ++ rest).dropLast <+: q := by
  have hrelative : (⟨.root, top ++ rest⟩ : Path).relativeTo? ⟨.root, top⟩ =
      some ⟨.relative, rest⟩ := by simp [Path.relativeTo?]
  simp only [between, hrelative]
  cases hlength : rest.length - 1 with
  | zero => exact ⟨_, _, rfl, List.dropLast_prefix _⟩
  | succ n =>
    rw [List.range_succ, List.map_append, List.reverse_append]
    refine ⟨_, _, rfl, ?_⟩
    rw [← hlength, List.dropLast_append_of_ne_nil hne, List.dropLast_eq_take]

/-- No verdict is given on a file with a malformed rule on the way to it. -/
theorem isIgnored_of_not_soundTo (ht : w.IsTree) (hfile : w.isFileAt (top ++ rest) = true)
    (hs : ¬ SoundTo w top (top ++ rest)) (hne : rest ≠ [])
    (hresolve : w.resolve p = .ok ⟨.root, top ++ rest⟩) :
    isIgnored w (treeAt w top) p = .error (.ignore .malformed) := by
  obtain ⟨q, others, hasked, hq⟩ := between_eq_cons top hne
  have hanswer : (treeAt w top).anyIgnored (⟨.root, q⟩ :: others) = .error .malformed := by
    rw [anyIgnored, applyFiles_of_not_soundFor (not_soundFor_treeAt ht hfile hs hq)]
    rfl
  rw [← hasked] at hanswer
  have hroot : (treeAt w top).root = ⟨.root, top⟩ := rfl
  simp only [isIgnored, hresolve, Except.mapError, bind, Except.bind]
  rw [hroot, hanswer]

end IgnoreTree

end DefaultImports
