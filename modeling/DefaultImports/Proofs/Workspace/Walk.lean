import DefaultImports.Proofs.Workspace.Tree
import Mathlib.Data.List.Infix

/-! Walks through a tree of files. A walk meets every file once, and the files of one name that it
meets on the way to a place come from the outside in, however directories are listed. -/
namespace DefaultImports.Workspace

variable {w : Workspace} {place dir : List String} {name : String} {depth : Nat}

/-! ## What a walk meets -/

theorem mem_children {f : List String × Entry} :
    f ∈ w.children dir ↔ f ∈ w.entries ∧ ∃ name, f.1 = dir ++ [name] := by
  simp only [children, List.mem_filter, Bool.and_eq_true, bne_iff_ne, beq_iff_eq]
  refine and_congr_right fun _ => ?_
  constructor
  · rintro ⟨hne, rfl⟩
    exact ⟨f.1.getLast hne, (List.dropLast_append_getLast hne).symm⟩
  · rintro ⟨name, hf⟩
    simp [hf]

/-- The files in a directory itself. -/
def ownFiles (w : Workspace) (dir : List String) : List (List String) :=
  ((w.children dir).filter (·.2.isFile)).map (·.1)

/-- The directories in a directory. -/
def innerDirectories (w : Workspace) (dir : List String) : List (List String) :=
  ((w.children dir).filter (!·.2.isFile)).map (·.1)

theorem filesFrom_succ (w : Workspace) (depth : Nat) (dir : List String) :
    w.filesFrom (depth + 1) dir =
      w.ownFiles dir ++ (w.innerDirectories dir).flatMap (w.filesFrom depth) := by
  rw [filesFrom, innerDirectories, List.flatMap_map]
  rfl

theorem IsTree.mem_ownFiles (ht : w.IsTree) :
    place ∈ w.ownFiles dir ↔ (∃ name, place = dir ++ [name]) ∧ w.isFileAt place = true := by
  simp only [ownFiles, List.mem_map, List.mem_filter, mem_children]
  constructor
  · rintro ⟨⟨place, e⟩, ⟨⟨hlisted, hname⟩, hfile⟩, rfl⟩
    have hne : place ≠ [] := by
      rintro rfl
      simp at hname
    exact ⟨hname, by simp [isFileAt, (ht.entryAt?_iff hne).mpr hlisted, hfile]⟩
  · rintro ⟨hname, hfile⟩
    obtain ⟨bytes, hbytes⟩ := isFileAt_iff.mp hfile
    have hlisted := (ht.entryAt?_iff (ne_nil_of_isFileAt hfile)).mp hbytes
    exact ⟨(place, .file bytes), ⟨⟨hlisted, hname⟩, rfl⟩, rfl⟩

theorem IsTree.mem_innerDirectories (ht : w.IsTree) : place ∈ w.innerDirectories dir ↔
    (∃ name, place = dir ++ [name]) ∧ w.entryAt? place = some .directory := by
  simp only [innerDirectories, List.mem_map, List.mem_filter, mem_children]
  constructor
  · rintro ⟨⟨_, e⟩, ⟨⟨hlisted, name, rfl⟩, hfile⟩, rfl⟩
    cases e with
    | file bytes => cases hfile
    | directory => exact ⟨⟨name, rfl⟩, (ht.entryAt?_iff (by simp)).mpr hlisted⟩
  · rintro ⟨⟨name, rfl⟩, h⟩
    have hlisted := (ht.entryAt?_iff (by simp)).mp h
    exact ⟨(dir ++ [name], .directory), ⟨⟨hlisted, name, rfl⟩, rfl⟩, rfl⟩

theorem IsTree.nodup_filter_children (ht : w.IsTree) (p : List String × Entry → Bool) :
    (((w.children dir).filter p).map (·.1)).Nodup :=
  ht.nodup.sublist ((List.filter_sublist.trans List.filter_sublist).map _)

theorem IsTree.nodup_ownFiles (ht : w.IsTree) : (w.ownFiles dir).Nodup :=
  ht.nodup_filter_children _

theorem IsTree.nodup_innerDirectories (ht : w.IsTree) : (w.innerDirectories dir).Nodup :=
  ht.nodup_filter_children _

theorem length_le_height {f : List String × Entry} (hf : f ∈ w.entries) :
    f.1.length ≤ w.height := by
  have hmax : ∀ ns : List Nat, ∀ n ∈ ns, n ≤ ns.foldr max 0 := by
    intro ns
    induction ns with
    | nil => simp
    | cons m ns ih =>
      intro n hn
      rw [List.foldr_cons]
      rcases List.mem_cons.mp hn with rfl | hn
      · exact Nat.le_max_left ..
      · exact Nat.le_trans (ih n hn) (Nat.le_max_right ..)
  exact hmax _ _ (List.mem_map.mpr ⟨f, hf, rfl⟩)

theorem IsTree.mem_filesFrom (ht : w.IsTree) : place ∈ w.filesFrom depth dir ↔
    ∃ rest, place = dir ++ rest ∧ rest ≠ [] ∧ rest.length ≤ depth ∧ w.isFileAt place = true := by
  induction depth generalizing dir with
  | zero =>
    simp only [filesFrom, List.not_mem_nil, false_iff]
    rintro ⟨rest, -, hne, hlength, -⟩
    exact hne (List.length_eq_zero_iff.mp (Nat.le_zero.mp hlength))
  | succ depth ih =>
    simp only [filesFrom_succ, List.mem_append, List.mem_flatMap, ht.mem_ownFiles,
      ht.mem_innerDirectories]
    constructor
    · rintro (⟨⟨name, rfl⟩, hfile⟩ | ⟨_, ⟨⟨name, rfl⟩, -⟩, h⟩)
      · exact ⟨[name], rfl, by simp, by simp, hfile⟩
      · obtain ⟨rest, rfl, -, hlength, hfile⟩ := ih.mp h
        exact ⟨name :: rest, by simp, by simp, by simpa using hlength, hfile⟩
    · rintro ⟨rest, hplace, hne, hlength, hfile⟩
      obtain ⟨name, rest, rfl⟩ := List.exists_cons_of_ne_nil hne
      by_cases hrest : rest = []
      · exact Or.inl ⟨⟨name, by rw [hplace, hrest]⟩, hfile⟩
      · have hsplit : place = (dir ++ [name]) ++ rest := by simp [hplace]
        obtain ⟨bytes, hbytes⟩ := isFileAt_iff.mp hfile
        have hdirectory := ht.directory_above hrest (hsplit ▸ hbytes)
        refine Or.inr ⟨dir ++ [name], ⟨⟨name, rfl⟩, hdirectory⟩, ih.mpr ?_⟩
        exact ⟨rest, hsplit, hrest, by simpa using hlength, hfile⟩

/-- A walk of full depth meets the files below its start, and nothing else. -/
theorem IsTree.mem_filesFrom_height (ht : w.IsTree) : place ∈ w.filesFrom w.height dir ↔
    dir <+: place ∧ place ≠ dir ∧ w.isFileAt place = true := by
  rw [ht.mem_filesFrom]
  constructor
  · rintro ⟨rest, rfl, hne, -, hfile⟩
    exact ⟨List.prefix_append .., by simpa using hne, hfile⟩
  · rintro ⟨⟨rest, rfl⟩, hne, hfile⟩
    obtain ⟨bytes, hbytes⟩ := isFileAt_iff.mp hfile
    have hheight := length_le_height ((ht.entryAt?_iff (ne_nil_of_isFileAt hfile)).mp hbytes)
    have hlength : rest.length ≤ w.height := by
      simp only [List.length_append] at hheight
      omega
    exact ⟨rest, rfl, by simpa using hne, hlength, hfile⟩

theorem IsTree.mem_filesBelow (ht : w.IsTree) {root p : Path} : p ∈ w.filesBelow root ↔
    p.anchor = .root ∧ root.parts <+: p.parts ∧ p.parts ≠ root.parts ∧
      w.isFileAt p.parts = true := by
  simp only [filesBelow, List.mem_map, ht.mem_filesFrom_height]
  constructor
  · rintro ⟨place, hplace, rfl⟩
    exact ⟨rfl, hplace⟩
  · rintro ⟨hanchor, hplace⟩
    obtain ⟨anchor, parts⟩ := p
    obtain rfl : anchor = .root := hanchor
    exact ⟨parts, hplace, rfl⟩

theorem IsTree.nodup_filesFrom (ht : w.IsTree) : (w.filesFrom depth dir).Nodup := by
  induction depth generalizing dir with
  | zero => exact List.nodup_nil
  | succ depth ih =>
    rw [filesFrom_succ, List.nodup_append]
    refine ⟨ht.nodup_ownFiles, ?_, ?_⟩
    · rw [List.nodup_flatMap]
      refine ⟨fun _ _ => ih, ht.nodup_innerDirectories.imp_of_mem ?_⟩
      intro c d hc hd hne p hpc hpd
      -- the part behind `dir` tells in which of the two directories a place lies
      obtain ⟨⟨x, rfl⟩, -⟩ := ht.mem_innerDirectories.mp hc
      obtain ⟨⟨y, rfl⟩, -⟩ := ht.mem_innerDirectories.mp hd
      obtain ⟨us, rfl, -⟩ := ht.mem_filesFrom.mp hpc
      obtain ⟨vs, heq, -⟩ := ht.mem_filesFrom.mp hpd
      simp only [List.append_assoc, List.append_cancel_left_eq, List.cons_append,
        List.nil_append, List.cons.injEq] at heq
      exact hne (by rw [heq.1])
    · intro p hp q hq
      obtain ⟨⟨x, rfl⟩, -⟩ := ht.mem_ownFiles.mp hp
      obtain ⟨d, hd, hq⟩ := List.mem_flatMap.mp hq
      obtain ⟨⟨y, rfl⟩, -⟩ := ht.mem_innerDirectories.mp hd
      obtain ⟨rest, rfl, hne, -⟩ := ht.mem_filesFrom.mp hq
      simpa using fun _ => hne.symm

/-! ## The way to a place -/

/-- The place is in a directory on the way to `q` and has the given name. -/
def isOnWay (name : String) (q place : List String) : Bool :=
  place.getLast? == some name && place.dropLast.isPrefixOf q

theorem isOnWay_iff {q : List String} :
    isOnWay name q place = true ↔ ∃ dir, place = dir ++ [name] ∧ dir <+: q := by
  simp only [isOnWay, Bool.and_eq_true, beq_iff_eq, List.isPrefixOf_iff_prefix]
  constructor
  · rintro ⟨hname, hq⟩
    exact ⟨place.dropLast, (List.dropLast_append_getLast? name hname).symm, hq⟩
  · rintro ⟨dir, rfl, hq⟩
    simpa using hq

theorem filter_beq_of_nodup {α : Type} [BEq α] [LawfulBEq α] {xs : List α} (h : xs.Nodup) (a : α) :
    xs.filter (· == a) = if xs.contains a then [a] else [] := by
  rw [List.filter_beq]
  by_cases ha : a ∈ xs
  · simp [List.count_eq_one_of_mem h ha, ha]
  · simp [List.count_eq_zero_of_not_mem ha, ha]

/-- Where only one of distinct elements gives anything, that is all there is. -/
theorem flatMap_of_nodup {α β : Type} [BEq α] [LawfulBEq α] {xs : List α} (h : xs.Nodup) {a : α}
    {g : α → List β} (hg : ∀ b ∈ xs, b ≠ a → g b = []) :
    xs.flatMap g = if xs.contains a then g a else [] := by
  have hkeep : xs.flatMap g = (xs.filter (· == a)).flatMap g := by
    clear h
    induction xs with
    | nil => rfl
    | cons b xs ih =>
      have hrest := ih fun c hc => hg c (List.mem_cons_of_mem b hc)
      by_cases hb : b = a
      · simp [hb, hrest]
      · simp [hb, hrest, hg b List.mem_cons_self hb]
  rw [hkeep, filter_beq_of_nodup h]
  split <;> simp

theorem IsTree.filter_ownFiles (ht : w.IsTree) (name : String) (rest : List String) :
    (w.ownFiles dir).filter (isOnWay name (dir ++ rest)) = [dir ++ [name]].filter w.isFileAt := by
  have hbeq : ∀ place ∈ w.ownFiles dir,
      isOnWay name (dir ++ rest) place = (place == dir ++ [name]) := by
    intro place hplace
    obtain ⟨⟨x, rfl⟩, -⟩ := ht.mem_ownFiles.mp hplace
    rw [Bool.eq_iff_iff, isOnWay_iff, beq_iff_eq]
    constructor
    · rintro ⟨above, habove, -⟩
      rw [habove, (List.append_inj' habove rfl).1]
    · intro h
      exact ⟨dir, h, List.prefix_append ..⟩
  have hcontains : (w.ownFiles dir).contains (dir ++ [name]) = w.isFileAt (dir ++ [name]) := by
    rw [Bool.eq_iff_iff, List.contains_iff_mem, ht.mem_ownFiles]
    exact and_iff_right ⟨name, rfl⟩
  rw [List.filter_congr hbeq, filter_beq_of_nodup ht.nodup_ownFiles, hcontains]
  cases h : w.isFileAt (dir ++ [name]) <;> simp [h]

/-- A walk through a directory that is not on the way to `q` meets nothing on that way. -/
theorem IsTree.filter_filesFrom_of_not_prefix (ht : w.IsTree) {q : List String} (h : ¬ dir <+: q) :
    (w.filesFrom depth dir).filter (isOnWay name q) = [] := by
  rw [List.filter_eq_nil_iff]
  intro place hplace hway
  obtain ⟨rest, rfl, hne, -⟩ := ht.mem_filesFrom.mp hplace
  obtain ⟨above, habove, hq⟩ := isOnWay_iff.mp hway
  have hdir : dir <+: above := by
    have hdrop := congrArg List.dropLast habove
    rw [List.dropLast_append_of_ne_nil hne, List.dropLast_concat] at hdrop
    exact ⟨rest.dropLast, hdrop⟩
  exact h (hdir.trans hq)

theorem isFileAt_eq_false (h : ∀ bytes, w.entryAt? place ≠ some (.file bytes)) :
    w.isFileAt place = false := by
  rw [Bool.eq_false_iff]
  intro hfile
  obtain ⟨bytes, hbytes⟩ := isFileAt_iff.mp hfile
  exact h bytes hbytes

/-- Nothing is below what is no directory. -/
theorem IsTree.filter_below (ht : w.IsTree) (h : w.entryAt? dir ≠ some .directory)
    (inner : List (List String)) :
    (inner.map fun xs => dir ++ xs ++ [name]).filter w.isFileAt = [] := by
  rw [List.filter_eq_nil_iff]
  intro place hplace
  obtain ⟨xs, -, rfl⟩ := List.mem_map.mp hplace
  rw [Bool.not_eq_true]
  refine isFileAt_eq_false ?_
  intro bytes hbytes
  rw [List.append_assoc] at hbytes
  exact h (ht.directory_above (by simp) hbytes)

/-- The files of one name that a walk meets in directories on the way to a place are those that
are there, from the outside in. -/
theorem IsTree.filter_filesFrom (ht : w.IsTree) (name : String) (rest : List String)
    (hdepth : ∀ f ∈ w.entries, f.1.length ≤ dir.length + depth) :
    (w.filesFrom depth dir).filter (isOnWay name (dir ++ rest)) =
      (rest.inits.map fun xs => dir ++ xs ++ [name]).filter w.isFileAt := by
  induction depth generalizing dir rest with
  | zero =>
    rw [filesFrom, List.filter_nil, eq_comm, List.filter_eq_nil_iff]
    intro place hplace
    obtain ⟨xs, -, rfl⟩ := List.mem_map.mp hplace
    rw [Bool.not_eq_true]
    refine isFileAt_eq_false ?_
    intro bytes hbytes
    have hlength := hdepth _ ((ht.entryAt?_iff (by simp)).mp hbytes)
    simp only [List.length_append, List.length_singleton] at hlength
    omega
  | succ depth ih =>
    rw [filesFrom_succ, List.filter_append, ht.filter_ownFiles, List.filter_flatMap]
    cases rest with
    | nil =>
      have hinner : ∀ d ∈ w.innerDirectories dir,
          (w.filesFrom depth d).filter (isOnWay name (dir ++ [])) = [] := by
        intro d hd
        obtain ⟨⟨x, rfl⟩, -⟩ := ht.mem_innerDirectories.mp hd
        apply ht.filter_filesFrom_of_not_prefix
        intro hprefix
        have hlength := hprefix.length_le
        simp only [List.length_append, List.length_singleton, List.length_nil] at hlength
        omega
      rw [List.flatMap_eq_nil_iff.mpr hinner]
      simp
    | cons x rest =>
      -- of the inner directories only the next one on the way counts
      have hinner : ∀ d ∈ w.innerDirectories dir, d ≠ dir ++ [x] →
          (w.filesFrom depth d).filter (isOnWay name (dir ++ x :: rest)) = [] := by
        intro d hd hne
        obtain ⟨⟨y, rfl⟩, -⟩ := ht.mem_innerDirectories.mp hd
        apply ht.filter_filesFrom_of_not_prefix
        intro hprefix
        obtain ⟨rfl, -⟩ := List.cons_prefix_cons.mp ((List.prefix_append_right_inj dir).mp hprefix)
        exact hne rfl
      have hsplit : dir ++ x :: rest = (dir ++ [x]) ++ rest := by simp
      have hrest := @ih (dir ++ [x]) rest (by
        intro f hf
        have hlength := hdepth f hf
        simp only [List.length_append, List.length_singleton]
        omega)
      have hnext : (if (w.innerDirectories dir).contains (dir ++ [x]) then
          (rest.inits.map fun xs => dir ++ [x] ++ xs ++ [name]).filter w.isFileAt else []) =
          (rest.inits.map fun xs => dir ++ [x] ++ xs ++ [name]).filter w.isFileAt := by
        split
        · rfl
        · rename_i hcontains
          rw [List.contains_iff_mem, ht.mem_innerDirectories] at hcontains
          exact (ht.filter_below (fun h => hcontains ⟨⟨x, rfl⟩, h⟩) _).symm
      have hinits : ((x :: rest).inits.map fun xs => dir ++ xs ++ [name]) =
          [dir ++ [name]] ++ rest.inits.map fun xs => dir ++ [x] ++ xs ++ [name] := by
        simp [Function.comp_def]
      rw [flatMap_of_nodup ht.nodup_innerDirectories hinner, hsplit, hrest, hnext, hinits,
        List.filter_append]

end DefaultImports.Workspace
