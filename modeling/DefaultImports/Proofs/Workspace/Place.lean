import DefaultImports.Proofs.Workspace.Tree

/-! Where paths lead to, and what is there once a file is written or taken away. -/
namespace DefaultImports.Workspace

variable {w w' : Workspace} {place other dir stack parts : List String} {e : Entry}
  {bytes : List UInt8} {p : Path} {name : String}

/-! ## Walks -/

/-- A walk ends where its steps lead, whatever is on the way. -/
theorem foldl_enter_of_walk {found : List String × Entry}
    (h : w.walk stack e parts = .ok found) : parts.foldl Path.enter stack = found.1 := by
  fun_induction w.walk stack e parts with
  | case1 stack e =>
    obtain rfl := Except.ok.inj h
    rfl
  | case2 => cases h
  | case3 stack part parts hup ih =>
    rw [List.foldl_cons, Path.enter, if_pos hup]
    exact ih h
  | case4 => cases h
  | case5 => cases h
  | case6 stack part parts hup hlong e he ih =>
    rw [List.foldl_cons, Path.enter, if_neg hup]
    exact ih h

theorem walk_append_eq_bind (w : Workspace) (stack : List String) (e : Entry)
    (xs ys : List String) : w.walk stack e (xs ++ ys) = (do
      let found ← w.walk stack e xs
      w.walk found.1 found.2 ys) := by
  fun_induction w.walk stack e xs with
  | case1 stack e => rfl
  | case2 => rfl
  | case3 stack part parts hup ih =>
    rw [List.cons_append, walk, if_pos hup]
    exact ih
  | case4 stack part parts hup hlong =>
    rw [List.cons_append, walk, if_neg hup, if_pos hlong]
    rfl
  | case5 stack part parts hup hlong he =>
    rw [List.cons_append, walk, if_neg hup, if_neg hlong, he]
    rfl
  | case6 stack part parts hup hlong e he ih =>
    rw [List.cons_append, walk, if_neg hup, if_neg hlong, he]
    exact ih

/-- Only a path can hold a NUL, not a step of a walk. -/
theorem walk_ne_nulCharacter (w : Workspace) (stack : List String) (e : Entry)
    (parts : List String) : w.walk stack e parts ≠ .error .nulCharacter := by
  fun_induction w.walk stack e parts with
  | case3 stack part parts hup ih => exact ih
  | case6 stack part parts hup hlong e he ih => exact ih
  | case1 | case2 | case4 | case5 => simp

theorem locate_eq_ok (h : w.locate p = .ok (place, e)) :
    (w.cwd.join p).hasNul = false ∧
      w.walk [] .directory (w.cwd.join p).parts = .ok (place.reverse, e) := by
  simp only [locate] at h
  split at h
  · cases h
  · rename_i hnul
    refine ⟨by simpa using hnul, ?_⟩
    cases hwalk : w.walk [] .directory (w.cwd.join p).parts with
    | error fault => simp [hwalk, Functor.map, Except.map] at h
    | ok found =>
      rw [hwalk] at h
      obtain ⟨rfl, rfl⟩ := Prod.mk.inj (Except.ok.inj h)
      simp

theorem exists_locate (h : w.entry p = .ok e) : ∃ place, w.locate p = .ok (place, e) := by
  rw [entry_eq_locate] at h
  cases hlocate : w.locate p with
  | error fault => simp [hlocate, Functor.map, Except.map] at h
  | ok found =>
    rw [hlocate] at h
    obtain rfl : found.2 = e := Except.ok.inj h
    exact ⟨found.1, rfl⟩

theorem hasNul_of_join (h : (w.cwd.join p).hasNul = false) : p.hasNul = false := by
  unfold Path.join at h
  split at h
  · simp only [Path.hasNul, List.any_append, Bool.or_eq_false_iff] at h
    exact h.2
  · exact h

/-- The parts of a path that leads somewhere, once `..` is taken out, are the place itself. -/
theorem collapse_of_locate (h : w.locate p = .ok (place, e)) :
    (w.cwd.join p).collapse.parts = place := by
  rw [Path.collapse, foldl_enter_of_walk (locate_eq_ok h).2, List.reverse_reverse]

theorem resolve_of_locate (h : w.locate p = .ok (place, e)) :
    w.resolve p = .ok ⟨.root, place⟩ := by
  rw [resolve, hasNul_of_join (locate_eq_ok h).1, if_neg Bool.false_ne_true, Path.resolve,
    ← collapse_of_locate h]

/-- The path from the top to a place of a tree leads to that place. -/
theorem IsTree.locate_eq (ht : w.IsTree) (h : w.entryAt? place = some e) :
    w.locate ⟨.root, place⟩ = .ok (place, e) := by
  have hnul : (⟨.root, place⟩ : Path).hasNul = false := hasNul_of_names (ht.names_of_entryAt? h)
  have hwalk := ht.walk_append [] w.entryAt?_nil h
  simp only [List.reverse_nil, List.nil_append] at hwalk
  simp only [locate, Path.join, hnul, Bool.false_eq_true, if_false, hwalk]
  simp [Functor.map, Except.map]

/-- Nothing is at a name that is not listed in its directory. -/
theorem IsTree.entry_of_none (ht : w.IsTree) (hdir : w.entryAt? dir = some .directory)
    (hname : IsName name) (h : w.entryAt? (dir ++ [name]) = none) :
    w.entry ⟨.root, dir ++ [name]⟩ = .error .missing := by
  have hwalk := ht.walk_append [] w.entryAt?_nil hdir
  have hnul : (⟨.root, dir ++ [name]⟩ : Path).hasNul = false := by
    apply hasNul_of_names
    intro part hpart
    rcases List.mem_append.mp hpart with hpart | hpart
    · exact ht.names_of_entryAt? hdir part hpart
    · exact List.mem_singleton.mp hpart ▸ hname
  have hlong : ¬ maxNameBytes < name.utf8ByteSize := Nat.not_lt.mpr hname.size_le
  simp only [List.reverse_nil, List.nil_append] at hwalk
  have hmissing : w.walk [] .directory (dir ++ [name]) = .error .missing := by
    simp only [walk_append_eq_bind, hwalk, bind, Except.bind, walk, beq_false_of_ne hname.ne_up,
      Bool.false_eq_true, if_false, hlong, List.reverse_cons, List.reverse_reverse, h]
  simp only [entry, Path.join, hnul, Bool.false_eq_true, if_false, hmissing]
  rfl

/-! ## Files that are written -/

theorem lookup_filter_self (entries : List (List String × Entry)) (place : List String) :
    (entries.filter (·.1 != place)).lookup place = none := by
  rw [List.lookup_eq_none_iff]
  intro f hf
  rw [bne_comm]
  exact (List.mem_filter.mp hf).2

theorem entryAt?_put_self (hne : place ≠ []) :
    (w.put place bytes).entryAt? place = some (.file bytes) := by
  rw [entryAt?, if_neg hne, put, List.lookup_append, lookup_filter_self]
  simp

theorem entryAt?_put_of_ne (h : other ≠ place) :
    (w.put place bytes).entryAt? other = w.entryAt? other := by
  have hlast : [(place, Entry.file bytes)].lookup other = none := by
    rw [List.lookup_cons, beq_false_of_ne h]
    rfl
  rw [entryAt?, entryAt?, put, List.lookup_append, lookup_filter_ne h, hlast, Option.or_none]

/-- A walk from directory to directory does not notice a file that is written. -/
theorem walk_put (bytes : List UInt8) (hplace : w.entryAt? place ≠ some .directory)
    (h : w.walk stack e parts = .ok (dir, .directory)) :
    (w.put place bytes).walk stack e parts = .ok (dir, .directory) := by
  fun_induction w.walk stack e parts with
  | case1 stack e => exact h
  | case2 => cases h
  | case3 stack part parts hup ih =>
    rw [walk, if_pos hup]
    exact ih h
  | case4 => cases h
  | case5 => cases h
  | case6 stack part parts hup hlong e he ih =>
    have hne : (part :: stack).reverse ≠ place := by
      rintro rfl
      cases e with
      | directory => exact hplace he
      | file bytes => cases parts <;> simp [walk] at h
    rw [walk, if_neg hup, if_neg hlong, entryAt?_put_of_ne hne, he]
    exact ih h

theorem placeFor_eq_ok (h : w.placeFor dir name = .ok place) :
    name ≠ ".." ∧ name.utf8ByteSize ≤ maxNameBytes ∧ place = (name :: dir).reverse ∧
      w.entryAt? place ≠ some .directory := by
  unfold placeFor at h
  split at h
  · cases h
  · rename_i hup
    split at h
    · cases h
    · rename_i hlong
      dsimp only at h
      split at h
      · cases h
      · rename_i hentry
        obtain rfl := Except.ok.inj h
        exact ⟨by simpa using hup, Nat.not_lt.mp hlong, rfl, fun hd => hentry hd⟩

/-- What a successful writing does: it puts the file where its path leads. -/
theorem write_eq_ok (h : w.write p bytes = .ok w') :
    ∃ dir name place, p.hasNul = false ∧
      (w.cwd.join p).parts = (w.cwd.join p).parts.dropLast ++ [name] ∧
      w.walk [] .directory (w.cwd.join p).parts.dropLast = .ok (dir, .directory) ∧
      w.placeFor dir name = .ok place ∧ w' = w.put place bytes := by
  unfold write at h
  split at h
  · cases h
  · rename_i hnul
    dsimp only at h
    split at h
    · rename_i name hlast
      split at h
      · cases h
      · cases h
      · rename_i dir hwalk
        cases hplace : w.placeFor dir name with
        | error fault =>
          rw [hplace] at h
          cases h
        | ok place =>
          rw [hplace] at h
          obtain rfl := Except.ok.inj h
          exact ⟨dir, name, place, by simpa using hnul,
            (List.dropLast_append_getLast? name hlast).symm, hwalk, hplace, rfl⟩
    · cases h

/-- A file that was written holds what was written to it. -/
theorem readBytes_write (hcwd : w.cwd.hasNul = false) (h : w.write p bytes = .ok w') :
    w'.readBytes p = .ok bytes := by
  obtain ⟨dir, name, place, hnul, hparts, hwalk, hplace, rfl⟩ := write_eq_ok h
  obtain ⟨hup, hlong, rfl, hentry⟩ := placeFor_eq_ok hplace
  have hfull : (w.cwd.join p).hasNul = false := by
    unfold Path.join
    split
    · simp only [Path.hasNul, List.any_append, Bool.or_eq_false_iff] at hcwd hnul ⊢
      exact ⟨hcwd, hnul⟩
    · exact hnul
  have hagain := walk_put bytes hentry hwalk
  have hfile : (w.put (name :: dir).reverse bytes).entryAt? (name :: dir).reverse =
      some (.file bytes) := entryAt?_put_self (by simp)
  have hput : (w.put (name :: dir).reverse bytes).cwd = w.cwd := rfl
  have hfound : (w.put (name :: dir).reverse bytes).walk [] .directory (w.cwd.join p).parts =
      .ok (name :: dir, .file bytes) := by
    rw [hparts, walk_append_eq_bind, hagain]
    simp only [bind, Except.bind, walk, beq_false_of_ne hup, Nat.not_lt.mpr hlong,
      Bool.false_eq_true, if_false, hfile]
  simp only [readBytes, entry, hput, hfull, Bool.false_eq_true, if_false, hfound]
  rfl

/-- Whether a file can be written does not depend on what is written. -/
theorem exists_write {other : List UInt8} (h : (w.write p other).isOk = true)
    (bytes : List UInt8) : ∃ w', w.write p bytes = .ok w' := by
  cases hwrite : w.write p other with
  | error e =>
    rw [hwrite] at h
    cases h
  | ok w₁ =>
    obtain ⟨dir, name, place, hnul, hparts, hwalk, hplace, -⟩ := write_eq_ok hwrite
    have hlast : (w.cwd.join p).parts.getLast? = some name := by rw [hparts]; simp
    refine ⟨w.put place bytes, ?_⟩
    simp only [write, hnul, Bool.false_eq_true, if_false, hlast, hwalk, hplace, bind,
      Except.bind, Except.mapError]
    rfl

/-! ## Files that are taken away -/

/-- The tree without what is at a place. -/
def without (w : Workspace) (place : List String) : Workspace :=
  { w with entries := w.entries.filter (·.1 != place) }

theorem entryAt?_without_self (hne : place ≠ []) : (w.without place).entryAt? place = none := by
  rw [entryAt?, if_neg hne, without, lookup_filter_self]

theorem entryAt?_without_of_ne (h : other ≠ place) :
    (w.without place).entryAt? other = w.entryAt? other := by
  rw [entryAt?, entryAt?, without, lookup_filter_ne h]

/-- A tree stays one if a file is taken away. -/
theorem IsTree.without (ht : w.IsTree) (hfile : w.isFileAt place = true) :
    (w.without place).IsTree := by
  obtain ⟨bytes, hbytes⟩ := isFileAt_iff.mp hfile
  constructor
  case nodup => exact ht.nodup.sublist (List.filter_sublist.map _)
  case parents =>
    intro f hf
    have hparent := ht.parents f (List.mem_filter.mp hf).1
    have hne : f.1.dropLast ≠ place := by
      rintro rfl
      rw [hbytes] at hparent
      cases hparent
    rw [entryAt?_without_of_ne hne, hparent]
  case names =>
    intro f hf
    exact ht.names f (List.mem_filter.mp hf).1

end DefaultImports.Workspace
