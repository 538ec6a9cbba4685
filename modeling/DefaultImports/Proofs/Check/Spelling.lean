import DefaultImports.Proofs.Check.Footprint
import DefaultImports.Proofs.Workspace.Place

/-! The verdict on an import depends on where its file is, and not on how the path to it is spelled.
Main statement: `isReported_of_parts`. -/
namespace DefaultImports

namespace Path

variable {p q : Path}

/-- The same path with one slash in front. -/
def rooted (p : Path) : Path := { p with anchor := .root }

theorem join_of_isAbsolute (p : Path) (hq : q.isAbsolute = true) : p.join q = q := by
  obtain ⟨anchor, parts⟩ := q
  cases anchor with
  | relative => cases hq
  | root | doubleRoot => rfl

theorem isAbsolute_join (hp : p.isAbsolute = true) (q : Path) : (p.join q).isAbsolute = true := by
  obtain ⟨anchor, parts⟩ := q
  cases anchor with
  | relative => exact hp
  | root | doubleRoot => rfl

theorem rooted_join (h : p.parts = q.parts) (r : Path) : (p.join r).rooted = (q.join r).rooted := by
  obtain ⟨anchor, parts⟩ := r
  cases anchor with
  | relative => simp only [join, rooted, h]
  | root | doubleRoot => rfl

theorem isAbsolute_append (p : Path) (text : String) :
    (p.append text).isAbsolute = p.isAbsolute := by
  unfold append
  split <;> rfl

theorem rooted_append (p : Path) (text : String) :
    (p.append text).rooted = p.rooted.append text := by
  unfold append rooted
  dsimp only
  split <;> rfl

end Path

namespace Workspace

variable {w : Workspace} {p : Path}

/-- Two slashes in front lead to the same place as one. -/
theorem entry_rooted (hp : p.isAbsolute = true) : w.entry p.rooted = w.entry p := by
  have hjoin := Path.join_of_isAbsolute w.cwd hp
  have hjoin' : w.cwd.join p.rooted = p.rooted := Path.join_of_isAbsolute w.cwd rfl
  simp only [entry, hjoin, hjoin']
  rfl

theorem exists?_rooted (hp : p.isAbsolute = true) : w.exists? p.rooted = w.exists? p := by
  rw [exists?, exists?, entry_rooted hp]

theorem absolute_absolute (hcwd : w.cwd.isAbsolute = true) (p : Path) :
    w.absolute (w.absolute p) = w.absolute p :=
  Path.join_of_isAbsolute w.cwd (Path.isAbsolute_join hcwd p)

theorem locate_absolute (hcwd : w.cwd.isAbsolute = true) (p : Path) :
    w.locate (w.absolute p) = w.locate p := by
  have hjoin : w.cwd.join (w.absolute p) = w.cwd.join p := absolute_absolute hcwd p
  simp only [locate, hjoin]

end Workspace

namespace Specifier

variable {cwd : Path} {specifier : String} {f g : Path}

theorem isAbsolute_of_mem_candidates (hcwd : cwd.isAbsolute = true) {p : Path}
    (h : p ∈ candidates cwd specifier f) : p.isAbsolute = true := by
  have himporter : (cwd.join f).isAbsolute = true := Path.isAbsolute_join hcwd f
  have hparent : (cwd.join f).collapse.parent.isAbsolute = true := himporter
  have hbase : (base cwd specifier f).isAbsolute = true :=
    Path.isAbsolute_join hparent (.ofString specifier)
  rcases List.mem_cons.mp h with rfl | h
  · exact hbase
  · obtain ⟨extension, -, rfl⟩ := List.mem_map.mp h
    rw [Path.isAbsolute_append, hbase]

theorem isSource_rooted (p : Path) : isSource p.rooted = isSource p := rfl

/-- What a specifier may stand for is decided by where the importing file is. -/
theorem rooted_candidates (h : (cwd.join f).collapse.parts = (cwd.join g).collapse.parts) :
    (candidates cwd specifier f).map Path.rooted =
      (candidates cwd specifier g).map Path.rooted := by
  have hparent : (cwd.join f).collapse.parent.parts = (cwd.join g).collapse.parent.parts :=
    congrArg List.dropLast h
  have hjoin := Path.rooted_join hparent (.ofString specifier)
  have hbase : (base cwd specifier f).rooted = (base cwd specifier g).rooted :=
    congrArg Path.collapse hjoin
  have happend : ∀ importer, (Path.rooted ∘ (base cwd specifier importer).append) =
      (base cwd specifier importer).rooted.append :=
    fun importer => funext fun extension => Path.rooted_append _ extension
  simp only [candidates, List.map_cons, List.map_map, hbase, happend]

end Specifier

namespace Binding

variable {w : Workspace} {source : String} {b c : Binding}

theorem rooted_found? (hcwd : w.cwd.isAbsolute = true) (b : Binding) :
    (b.found? w).map Path.rooted =
      ((Specifier.candidates w.cwd b.specifier b.file).map Path.rooted).find? w.exists? := by
  rw [found?, List.find?_map]
  congr 1
  apply List.find?_congr
  intro p hp
  exact (Workspace.exists?_rooted (Specifier.isAbsolute_of_mem_candidates hcwd hp)).symm

theorem isAbsolute_of_found? (hcwd : w.cwd.isAbsolute = true) {target : Path}
    (h : b.found? w = some target) : target.isAbsolute = true :=
  Specifier.isAbsolute_of_mem_candidates hcwd (List.mem_of_find?_eq_some h)

/-- An import is reported from all spellings of its file or from none. -/
theorem isReported_of_parts (hcwd : w.cwd.isAbsolute = true)
    (hspecifier : b.specifier = c.specifier) (hline : b.line = c.line)
    (hparts : (w.cwd.join b.file).collapse.parts = (w.cwd.join c.file).collapse.parts) :
    b.isReported w source = c.isReported w source := by
  have hfound : (b.found? w).map Path.rooted = (c.found? w).map Path.rooted := by
    rw [rooted_found? hcwd, rooted_found? hcwd, hspecifier, Specifier.rooted_candidates hparts]
  unfold isReported isSkipped exports isIgnored
  rw [hspecifier, hline]
  cases hb : b.found? w with
  | none =>
    rw [hb] at hfound
    rw [Option.map_eq_none_iff.mp hfound.symm]
  | some target =>
    rw [hb] at hfound
    obtain ⟨target', hc, htarget⟩ := Option.map_eq_some_iff.mp hfound.symm
    have hread : Surface.read w target = Surface.read w target' := by
      apply SurfaceCache.read_eq_of_entry_eq
      rw [← Workspace.entry_rooted (isAbsolute_of_found? hcwd hb), ← htarget,
        Workspace.entry_rooted (isAbsolute_of_found? hcwd hc)]
    have hsource : Specifier.isSource target = Specifier.isSource target' := by
      rw [← Specifier.isSource_rooted target, ← htarget, Specifier.isSource_rooted]
    simp only [hc, hsource, hread]

end Binding

end DefaultImports
