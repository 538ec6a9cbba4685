import DefaultImports.FileFilter
import DefaultImports.Proofs.Glob.Matching
import DefaultImports.Proofs.Path.Text

/-! Which files a filter accepts, by the patterns that match them and the directories above them.
A directory is left out with all that is in it, except that a pattern `**/x` does not leave out a
directory that only `x` itself matches. Main statement: `accepts_unless_excluded`. -/
namespace DefaultImports

theorem Text.join_eq_intercalate (sep : Char) (pieces : List (List Char)) :
    join sep pieces = [sep].intercalate pieces := by
  fun_induction join sep pieces with
  | case1 => rfl
  | case2 piece => simp
  | case3 piece pieces hne ih =>
    obtain ⟨next, rest, rfl⟩ := List.exists_cons_of_ne_nil (show pieces ≠ [] from hne)
    rw [ih, List.intercalate_cons_cons]
    simp

namespace Path

variable {p root rel : Path}

theorem relativeTo?_eq_some (h : p.relativeTo? root = some rel) :
    rel.anchor = .relative ∧ p.parts = root.parts ++ rel.parts := by
  unfold relativeTo? at h
  split at h
  · rename_i hbelow
    obtain rfl := Option.some.inj h
    obtain ⟨rest, hrest⟩ := List.isPrefixOf_iff_prefix.mp hbelow.2
    exact ⟨rfl, by simp [← hrest]⟩
  · cases h

/-- A path below the root ends as it does when seen from there. -/
theorem name_of_relativeTo? (h : p.relativeTo? root = some rel) (hne : rel.parts ≠ []) :
    p.name = rel.name := by
  rw [name, (relativeTo?_eq_some h).2, List.getLast?_append_of_ne_nil _ hne]
  rfl

theorem Proper.of_relativeTo? (hp : p.Proper) (h : p.relativeTo? root = some rel) :
    rel.Proper := by
  intro part hpart
  refine hp part ?_
  rw [(relativeTo?_eq_some h).2]
  exact List.mem_append_right _ hpart

end Path

namespace FileFilter

open Glob (Takes parseFrom)

variable {f : FileFilter} {pattern : String} {place d : List String} {p root rel : Path}

/-! ## Patterns and places -/

/-- A place below the root as the patterns see it. -/
def pathTo (place : List String) : Path := ⟨.relative, place⟩

/-- A pattern matches a place by its path or by its name, or by its path without a leading `**/`. -/
def appliesTo (pattern : String) (place : List String) : Bool :=
  patternMatches (pathTo place).toString (pathTo place).name pattern

/-- What is tried on the directories above a file: a leading `**/` is not taken off. -/
def appliesAsWritten (pattern : String) (place : List String) : Bool :=
  globMatches pattern (pathTo place).name || globMatches pattern (pathTo place).toString

/-- A pattern `**/x` that matches a place only as `x`, because `x` does not match anything behind
one of the slashes of the path. -/
def OnlyAtTop (pattern : String) (place : List String) : Prop :=
  ∃ x, pattern.toList = '*' :: '*' :: '/' :: x ∧ Takes (parseFrom 0 x) (pathTo place).body ∧
    ∀ before behind, (pathTo place).body = before ++ '/' :: behind → ¬ Takes (parseFrom 0 x) behind

/-- The directories between the root and a place. -/
def IsAbove (d place : List String) : Prop := d <+: place ∧ d ≠ [] ∧ d ≠ place

theorem toList_toString_pathTo (hne : place ≠ []) :
    (pathTo place).toString.toList = (pathTo place).body := by
  rw [Path.toString, if_neg (by simp [pathTo, hne]), String.toList_append,
    Path.toList_intercalate_parts]
  rfl

theorem globMatches_iff (pattern text : String) :
    globMatches pattern text = true ↔ Takes (parseFrom 0 pattern.toList) text.toList :=
  Glob.matchesAll_iff _ _

theorem appliesTo_iff (hne : place ≠ []) : appliesTo pattern place = true ↔
    appliesAsWritten pattern place = true ∨
      ∃ x, pattern.toList = '*' :: '*' :: '/' :: x ∧ Takes (parseFrom 0 x) (pathTo place).body := by
  rw [appliesTo, patternMatches, appliesAsWritten, Bool.or_eq_true, ← toList_toString_pathTo hne]
  refine or_congr (by rw [Bool.or_comm]) ?_
  split
  · rename_i x hx
    rw [Glob.matchesAll_iff]
    constructor
    · intro h
      exact ⟨x, hx, h⟩
    · rintro ⟨x', hx', h⟩
      rw [hx] at hx'
      cases hx'
      exact h
  · rename_i hother
    simp only [Bool.false_eq_true, false_iff]
    rintro ⟨x, hx, -⟩
    exact hother x hx

/-- A part of a path has no slash, so that no pattern `**/x` matches it. -/
theorem not_takes_doubleStar_name (hp : (pathTo place).Proper) (x : List Char) :
    ¬ Takes (parseFrom 0 ('*' :: '*' :: '/' :: x)) (pathTo place).name.toList := by
  intro h
  obtain ⟨before, behind, hname, -⟩ := Glob.takes_doubleStar_iff.mp h
  have hslash : '/' ∈ (pathTo place).name.toList := by simp [hname]
  unfold Path.name at hslash
  cases hlast : (pathTo place).parts.getLast? with
  | none => simp [hlast] at hslash
  | some part =>
    rw [hlast] at hslash
    exact (hp part (List.mem_of_getLast? hlast)).2.2 hslash

/-- What is tried on a directory misses just the matches at the top. -/
theorem appliesAsWritten_iff (hp : (pathTo place).Proper) (hne : place ≠ []) :
    appliesAsWritten pattern place = true ↔
      appliesTo pattern place = true ∧ ¬ OnlyAtTop pattern place := by
  rw [appliesTo_iff hne]
  constructor
  · intro h
    refine ⟨Or.inl h, ?_⟩
    rintro ⟨x, hx, -, hnone⟩
    rw [appliesAsWritten, Bool.or_eq_true, globMatches_iff, globMatches_iff,
      toList_toString_pathTo hne, hx] at h
    rcases h with h | h
    · exact not_takes_doubleStar_name hp x h
    · obtain ⟨before, behind, hbody, hbehind⟩ := Glob.takes_doubleStar_iff.mp h
      exact hnone before behind hbody hbehind
  · rintro ⟨h | ⟨x, hx, htop⟩, hnot⟩
    · exact h
    · have hbehind : ∃ before behind, (pathTo place).body = before ++ '/' :: behind ∧
          Takes (parseFrom 0 x) behind := by
        by_contra hnone
        refine hnot ⟨x, hx, htop, ?_⟩
        intro before behind hbody h
        exact hnone ⟨before, behind, hbody, h⟩
      rw [appliesAsWritten, Bool.or_eq_true, globMatches_iff, globMatches_iff,
        toList_toString_pathTo hne, hx]
      exact Or.inr (Glob.takes_doubleStar_iff.mpr hbehind)

/-! ## The directories above a file -/

theorem ancestors_eq (hp : (pathTo place).Proper) (hne : place ≠ []) :
    ancestors (pathTo place).toString = (List.range (place.length - 1)).map fun i =>
      ((pathTo (place.take (i + 1))).name, (pathTo (place.take (i + 1))).toString) := by
  have hcut : Text.split (· == '/') (pathTo place).body = place.map String.toList :=
    Path.split_body hp hne
  simp only [ancestors, toList_toString_pathTo hne, hcut, List.length_map]
  apply List.map_congr_left
  intro i hi
  have hlt : i < place.length := by
    have := List.mem_range.mp hi
    omega
  have hsome : place.take (i + 1) ≠ [] := by simp [hne]
  congr 1
  · have hname : (pathTo (place.take (i + 1))).name = place[i] := by
      simp [Path.name, pathTo, List.getLast?_take, hlt]
    simp [hname, hlt]
  · rw [Text.join_eq_intercalate, ← List.map_take, ← String.toList_inj, String.toList_ofList,
      toList_toString_pathTo hsome]
    rfl

theorem any_ancestors (hp : (pathTo place).Proper) (hne : place ≠ [])
    {test : String × String → Bool} : (ancestors (pathTo place).toString).any test = true ↔
      ∃ d, IsAbove d place ∧ test ((pathTo d).name, (pathTo d).toString) = true := by
  simp only [ancestors_eq hp hne, List.any_map, List.any_eq_true, List.mem_range,
    Function.comp_apply]
  constructor
  · rintro ⟨i, hi, h⟩
    refine ⟨place.take (i + 1), ⟨List.take_prefix .., by simp [hne], ?_⟩, h⟩
    intro hall
    have hlength := congrArg List.length hall
    simp only [List.length_take] at hlength
    omega
  · rintro ⟨d, ⟨hbelow, hd, hstrict⟩, h⟩
    have hpos : 0 < d.length := List.length_pos_iff.mpr hd
    have hlt : d.length < place.length := by
      refine Nat.lt_of_le_of_ne hbelow.length_le ?_
      intro hlength
      exact hstrict (hbelow.eq_of_length hlength)
    refine ⟨d.length - 1, by omega, ?_⟩
    rwa [Nat.sub_add_cancel hpos, ← List.prefix_iff_eq_take.mp hbelow]

/-- A pattern leaves out a place that it matches, and what is in a directory that it matches as
written. -/
theorem excludes_iff (hp : (pathTo place).Proper) (hne : place ≠ []) :
    excludes pattern (pathTo place).toString (pathTo place).name = true ↔
      appliesTo pattern place = true ∨
        ∃ d, IsAbove d place ∧ appliesAsWritten pattern d = true := by
  rw [excludes, Bool.or_eq_true, any_ancestors hp hne]
  rfl

/-- A file below the root is seen by its path from there. -/
theorem seen_of_relativeTo? (hrel : p.relativeTo? root = some rel) (hne : rel.parts ≠ []) :
    relative p root = (pathTo rel.parts).toString ∧ p.name = (pathTo rel.parts).name := by
  have hname := Path.name_of_relativeTo? hrel hne
  obtain ⟨anchor, place⟩ := rel
  obtain rfl : anchor = .relative := (Path.relativeTo?_eq_some hrel).1
  rw [relative, hrel]
  exact ⟨rfl, hname⟩

theorem accepts_iff (hp : p.Proper) (hrel : p.relativeTo? root = some rel) (hne : rel.parts ≠ []) :
    f.accepts p root = true ↔
      (∀ pattern ∈ f.excluded, appliesTo pattern rel.parts = false ∧
        ∀ d, IsAbove d rel.parts → appliesTo pattern d = true → OnlyAtTop pattern d) ∧
      (f.included = [] ∨ ∃ pattern ∈ f.included, appliesTo pattern rel.parts = true) := by
  obtain ⟨hseen, hname⟩ := seen_of_relativeTo? hrel hne
  have hproper : (pathTo rel.parts).Proper := show rel.Proper from hp.of_relativeTo? hrel
  have habove : ∀ pattern d, IsAbove d rel.parts → (appliesAsWritten pattern d = false ↔
      (appliesTo pattern d = true → OnlyAtTop pattern d)) := by
    intro pattern d hd
    rw [← Bool.not_eq_true, appliesAsWritten_iff
      (fun part hpart => hproper part (hd.1.subset hpart)) hd.2.1, not_and, not_not]
  have hexcludes : ∀ pattern, excludes pattern (relative p root) p.name = false ↔
      appliesTo pattern rel.parts = false ∧
        ∀ d, IsAbove d rel.parts → appliesTo pattern d = true → OnlyAtTop pattern d := by
    intro pattern
    rw [hseen, hname, ← Bool.not_eq_true, excludes_iff hproper hne, not_or, Bool.not_eq_true,
      not_exists]
    refine and_congr_right fun _ => forall_congr' fun d => ?_
    rw [not_and, Bool.not_eq_true]
    exact forall_congr' fun hd => habove pattern d hd
  have hincluded : f.included.any (patternMatches (relative p root) p.name) =
      f.included.any fun pattern => appliesTo pattern rel.parts := by
    rw [hseen, hname]
    rfl
  simp only [accepts, hincluded, Bool.and_eq_true, Bool.not_eq_true', Bool.or_eq_true,
    List.isEmpty_iff, List.any_eq_true, List.any_eq_false, Bool.not_eq_true, hexcludes]

/-- A filter accepts a file below the root iff no exclude pattern matches the file, none matches a
directory above it except that `**/x` may match it as `x` alone, and an include pattern matches the
file if there are any. So if no exclude pattern starts with `**/`, leaving out a directory leaves
out all that is in it. -/
theorem accepts_unless_excluded {f : FileFilter} {p root rel : Path} (hp : p.Proper)
    (hrel : p.relativeTo? root = some rel) (hne : rel.parts ≠ []) :
    (f.accepts p root = true ↔
      (∀ pattern ∈ f.excluded, appliesTo pattern rel.parts = false ∧
        ∀ d, IsAbove d rel.parts → appliesTo pattern d = true → OnlyAtTop pattern d) ∧
      (f.included = [] ∨ ∃ pattern ∈ f.included, appliesTo pattern rel.parts = true)) ∧
    ((∀ pattern ∈ f.excluded, ¬ ['*', '*', '/'] <+: pattern.toList) →
      (f.accepts p root = true ↔
        (∀ pattern ∈ f.excluded, appliesTo pattern rel.parts = false ∧
          ∀ d, IsAbove d rel.parts → appliesTo pattern d = false) ∧
        (f.included = [] ∨ ∃ pattern ∈ f.included, appliesTo pattern rel.parts = true))) := by
  refine ⟨accepts_iff hp hrel hne, ?_⟩
  intro hplain
  rw [accepts_iff hp hrel hne]
  refine and_congr_left fun _ => forall₂_congr fun pattern hmem => and_congr_right fun _ => ?_
  refine forall₂_congr fun d _ => ?_
  -- without `**/` in front a pattern has no match of its own at the top
  have hnever : ¬ OnlyAtTop pattern d := by
    rintro ⟨x, hx, -⟩
    exact hplain pattern hmem ⟨x, hx.symm⟩
  simp [hnever]

/-- A file in a directory that is left out by its name. -/
theorem accepts_sampleNested :
    let f : FileFilter := ⟨["*.js"], ["dist*"]⟩
    let p : Path := ⟨.root, ["w", "src", "dist-a", "a.js"]⟩
    let root : Path := ⟨.root, ["w"]⟩
    p.Proper ∧ p.relativeTo? root = some (pathTo ["src", "dist-a", "a.js"]) ∧
      (∀ pattern ∈ f.excluded, ¬ ['*', '*', '/'] <+: pattern.toList) ∧
      appliesTo "dist*" ["src", "dist-a"] = true ∧ f.accepts p root = false := by
  intro f p root
  have hp : p.Proper := by
    unfold Path.Proper
    decide +kernel
  have hrel : p.relativeTo? root = some (pathTo ["src", "dist-a", "a.js"]) := by decide +kernel
  have hplain : ∀ pattern ∈ f.excluded, ¬ ['*', '*', '/'] <+: pattern.toList := by decide +kernel
  have hdir : appliesTo "dist*" ["src", "dist-a"] = true := by decide +kernel
  refine ⟨hp, hrel, hplain, hdir, ?_⟩
  rw [← Bool.not_eq_true, (accepts_unless_excluded hp hrel (by decide)).2 hplain]
  rintro ⟨hnone, -⟩
  have habove : IsAbove ["src", "dist-a"] ["src", "dist-a", "a.js"] :=
    ⟨⟨["a.js"], rfl⟩, by decide, by decide⟩
  exact absurd hdir (by simp [(hnone "dist*" List.mem_cons_self).2 _ habove])

/-- The directory `build` at the top is matched by `**/build`, and yet its files are accepted. -/
theorem accepts_sampleTopBuild :
    let f : FileFilter := ⟨[], ["**/build"]⟩
    IsAbove ["build"] ["build", "a.js"] ∧ appliesTo "**/build" ["build"] = true ∧
      f.accepts ⟨.root, ["w", "build", "a.js"]⟩ ⟨.root, ["w"]⟩ = true := by
  refine ⟨⟨⟨["a.js"], rfl⟩, by decide, by decide⟩, ?_, ?_⟩ <;> decide +kernel

end FileFilter

end DefaultImports
