import DefaultImports.Proofs.Check.Spelling
import DefaultImports.Proofs.Specifier.Candidates

/-! Why an import that is in scope is skipped. A path with a source extension put at its end has
that extension as its suffix, so only the path as the specifier names it can be there and be no
source file. Main statement: `evaluate_skipped_iff`. -/
namespace DefaultImports

namespace Path

variable {p : Path}

/-- Walking a path adds no parts of its own. -/
theorem mem_foldl_enter {part : String} {parts stack : List String}
    (h : part ∈ parts.foldl enter stack) : part ∈ stack ∨ part ∈ parts := by
  induction parts generalizing stack with
  | nil => exact .inl h
  | cons first parts ih =>
    rcases ih h with h | h
    · unfold enter at h
      split at h
      · exact .inl (List.mem_of_mem_tail h)
      · rcases List.mem_cons.mp h with rfl | h
        · exact .inr List.mem_cons_self
        · exact .inl h
    · exact .inr (List.mem_cons_of_mem first h)

theorem Proper.collapse (hp : p.Proper) : p.collapse.Proper := by
  intro part hpart
  rcases mem_foldl_enter (List.mem_reverse.mp hpart) with h | h
  · cases h
  · exact hp part h

theorem Proper.parent (hp : p.Proper) : p.parent.Proper :=
  fun part hpart => hp part (List.dropLast_subset _ hpart)

/-- The last dot of a name is the one that was put there last, and it is in neither first nor last
place. -/
theorem suffixOf_append {name tail : List Char} (hname : name ≠ []) (htail : tail ≠ [])
    (hdot : '.' ∉ tail) : suffixOf (name ++ '.' :: tail) = '.' :: tail := by
  have hlast : (name ++ '.' :: tail).reverse.takeWhile (· != '.') = tail.reverse := by
    have hrun : ∀ c ∈ tail.reverse, (c != '.') = true := by
      intro c hc
      rw [bne_iff_ne]
      rintro rfl
      exact hdot (List.mem_reverse.mp hc)
    rw [List.reverse_append, List.reverse_cons, List.append_assoc,
      List.takeWhile_append_of_pos hrun]
    simp
  have hlong : ¬ (name ++ '.' :: tail).length ≤ tail.reverse.length + 1 := by
    have hpos : 0 < name.length := List.length_pos_of_ne_nil hname
    simp only [List.length_append, List.length_cons, List.length_reverse]
    omega
  have hempty : tail.reverse.isEmpty = false := by simpa using htail
  rw [suffixOf, hlast, hempty, Bool.false_or, decide_eq_false hlong, List.reverse_reverse]
  rfl

end Path

namespace Workspace

variable {w : Workspace} {p : Path}

/-- The top is there, with one slash or two. -/
theorem exists?_top (hp : p.isAbsolute = true) (htop : p.parts = []) : w.exists? p = true := by
  simp only [exists?, entry, Path.join_of_isAbsolute w.cwd hp, Path.hasNul, htop]
  rfl

end Workspace

namespace Specifier

variable {cwd importer p : Path} {specifier extension : String}

theorem isSource_append (hp : p.Proper) (hparts : p.parts ≠ [])
    (h : extension ∈ sourceExtensions) : isSource (p.append extension) = true := by
  obtain ⟨anchor, parts⟩ := p
  rcases List.eq_nil_or_concat' parts with rfl | ⟨init, last, rfl⟩
  · exact absurd rfl hparts
  · have hshape : ∀ extension ∈ sourceExtensions, ∃ tail,
        extension.toList = '.' :: tail ∧ tail ≠ [] ∧ '.' ∉ tail := by
      intro extension h
      refine ⟨extension.toList.tail, ?_⟩
      revert extension
      decide
    obtain ⟨tail, htext, htail, hdot⟩ := hshape extension h
    have hlast : last.toList ≠ [] := by simpa using (hp last (by simp)).1
    have hsuffix : (Path.append ⟨anchor, init ++ [last]⟩ extension).suffix = extension := by
      have hname : (Path.append ⟨anchor, init ++ [last]⟩ extension).name = last ++ extension := by
        simp [Path.name, Path.append]
      rw [Path.suffix, hname, String.toList_append, htext, Path.suffixOf_append hlast htail hdot,
        ← htext, String.ofList_toList]
    rw [isSource, hsuffix]
    simpa using h

theorem proper_base (hcwd : cwd.Proper) (himporter : importer.Proper) (specifier : String) :
    (base cwd specifier importer).Proper :=
  ((hcwd.join himporter).collapse.parent.join (Path.proper_ofString specifier)).collapse

end Specifier

namespace Binding

variable {w : Workspace} {b : Binding} {target : Path}

theorem ofBinding_eq_skipped_iff (w : Workspace) (b : Binding) :
    Decision.ofBinding w b = .skipped ↔ b.isSkipped w = true := by
  refine ⟨?_, ofBinding_of_isSkipped⟩
  intro h
  by_contra hskip
  obtain ⟨target, -, hd⟩ := ofBinding_of_not_isSkipped (Bool.eq_false_iff.mpr hskip)
  rw [hd, Decision.judge] at h
  split at h <;> cases h

theorem resolve?_eq_found? (w : Workspace) (hscope : Specifier.isOutOfScope b.specifier = false) :
    Specifier.resolve? w b.specifier b.file = b.found? w := by
  have hrelative : Specifier.isRelative b.specifier = true := by
    rw [Specifier.isOutOfScope, Bool.or_eq_false_iff] at hscope
    simpa using hscope.1
  rw [Specifier.resolve?, if_pos hrelative, found?]

/-- An existing candidate with an extension put at its end is a source file: if there is no name to
put it at, the top itself comes first. -/
theorem isSource_of_found? (hcwd : w.cwd.isAbsolute = true) (hdir : w.cwd.Proper)
    (hfile : b.file.Proper) (h : b.found? w = some target)
    (hother : target ≠ Specifier.base w.cwd b.specifier b.file) :
    Specifier.isSource target = true := by
  have hbase : (Specifier.base w.cwd b.specifier b.file).isAbsolute = true :=
    Specifier.isAbsolute_of_mem_candidates hcwd List.mem_cons_self
  have hparts : (Specifier.base w.cwd b.specifier b.file).parts ≠ [] := by
    intro htop
    have hexists := Workspace.exists?_top (w := w) hbase htop
    rw [found?, Specifier.candidates, List.find?_cons_of_pos hexists] at h
    exact hother (Option.some.inj h).symm
  rcases List.mem_cons.mp (List.mem_of_find?_eq_some h) with h | h
  · exact absurd h hother
  · obtain ⟨extension, hextension, rfl⟩ := List.mem_map.mp h
    exact Specifier.isSource_append (Specifier.proper_base hdir hfile b.specifier) hparts hextension

theorem isSkipped_iff (hcwd : w.cwd.isAbsolute = true) (hdir : w.cwd.Proper)
    (hfile : b.file.Proper) (hscope : Specifier.isOutOfScope b.specifier = false) :
    b.isSkipped w = true ↔
      (∀ p ∈ Specifier.candidates w.cwd b.specifier b.file, w.exists? p = false) ∨
      (w.exists? (Specifier.base w.cwd b.specifier b.file) = true ∧
        Specifier.isSource (Specifier.base w.cwd b.specifier b.file) = false) := by
  let base := Specifier.base w.cwd b.specifier b.file
  have hfirst (hexists : w.exists? base = true) : b.found? w = some base :=
    List.find?_cons_of_pos hexists
  cases hfound : b.found? w with
  | none =>
    have hnone : ∀ p ∈ Specifier.candidates w.cwd b.specifier b.file, w.exists? p = false := by
      simpa [found?] using hfound
    exact ⟨fun _ => .inl hnone, fun _ => by simp [isSkipped, hfound]⟩
  | some target =>
    have hexists : w.exists? target = true := List.find?_some hfound
    have hthere : ¬ ∀ p ∈ Specifier.candidates w.cwd b.specifier b.file, w.exists? p = false := by
      intro hnone
      rw [hnone target (List.mem_of_find?_eq_some hfound)] at hexists
      cases hexists
    have hskip : b.isSkipped w = !Specifier.isSource target := by
      simp [isSkipped, hscope, hfound]
    rw [hskip, Bool.not_eq_true', or_iff_right hthere]
    by_cases hbase : target = base
    · subst hbase
      exact ⟨fun h => ⟨hexists, h⟩, And.right⟩
    · have hsource := isSource_of_found? hcwd hdir hfile hfound hbase
      constructor
      · intro h
        rw [hsource] at h
        cases h
      · rintro ⟨hbaseExists, -⟩
        exact absurd (Option.some.inj (hfound.symm.trans (hfirst hbaseExists))) hbase

end Binding

namespace Checker

open SurfaceCache Specifier

/-- An import in scope is skipped for one of two reasons only: there is nothing at any of its five
candidates, or there is something at the path as the specifier names it, and the suffix of that path
is not that of a source file. A candidate with an extension put at the end of its text, once it is
the one that was found, counts as a source file, whatever the name before the extension is. All this
holds with and without a cache. -/
theorem evaluate_skipped_iff {w : Workspace} {b : Binding} (hcwd : w.cwd.isAbsolute = true)
    (hdir : w.cwd.Proper) (hfile : b.file.Proper) (hscope : isOutOfScope b.specifier = false)
    (policy : CachePolicy) (severity : String) (actions : List Action) :
    let text := (base w.cwd b.specifier b.file).toString
    let texts := [text, text ++ ".js", text ++ ".jsx", text ++ ".ts", text ++ ".tsx"]
    let reason := (∀ t ∈ texts, w.exists? (.ofString t) = false) ∨
      (w.exists? (.ofString text) = true ∧
        (Path.ofString text).suffix ∉ [".js", ".jsx", ".ts", ".tsx"])
    let session := Session.run policy w.cwd (actions.map (Action.reading (.ofWorkspace w)))
    (Decision.ofBinding w b = .skipped ↔ reason) ∧
      (((ofWorkspace w policy severity).evaluate b session.cache).1 = .ok .skipped ↔ reason) ∧
      ∀ extension ∈ sourceExtensions,
        resolve? w b.specifier b.file = some (.ofString (text ++ extension)) →
          isSource (.ofString (text ++ extension)) = true := by
  intro text texts reason session
  let first := base w.cwd b.specifier b.file
  have hproper : first.Proper := proper_base hdir hfile b.specifier
  have habsolute : first.isAbsolute = true :=
    isAbsolute_of_mem_candidates hcwd List.mem_cons_self
  have htext : Path.ofString text = first := Path.ofString_toString hproper
  have hcandidates : candidates w.cwd b.specifier b.file = texts.map Path.ofString :=
    extended_eq_texts hproper habsolute
  have hreason : Decision.ofBinding w b = .skipped ↔ reason := by
    rw [Binding.ofBinding_eq_skipped_iff, Binding.isSkipped_iff hcwd hdir hfile hscope, hcandidates,
      List.forall_mem_map, show base w.cwd b.specifier b.file = Path.ofString text from htext.symm]
    simp only [reason, isSource, List.contains_eq_mem, decide_eq_false_iff_not]
    rfl
  refine ⟨hreason, ?_, ?_⟩
  · obtain ⟨d, -, heval⟩ :=
      evaluate_of_coherent (coherent_run w policy actions) policy severity b
    rw [heval, ← hreason]
    exact ⟨Except.ok.inj, congrArg Except.ok⟩
  · intro extension hextension hresolve
    rw [Binding.resolve?_eq_found? w hscope] at hresolve
    refine Binding.isSource_of_found? hcwd hdir hfile hresolve ?_
    rw [← append_eq_ofString hproper habsolute hextension]
    intro (hsame : first.append extension = first)
    have hlonger := congrArg (·.toString.toList.length) hsame
    have hnonempty : ∀ extension ∈ sourceExtensions, extension.toList ≠ [] := by decide
    have hpos := List.length_pos_of_ne_nil (hnonempty extension hextension)
    simp only [Path.toString_append habsolute, String.toList_append, List.length_append] at hlonger
    omega

/-- A style sheet beside a file with its name and a source extension, and a file whose name before
the extension starts and ends with a dot. -/
def sampleDots : Workspace where
  entries :=
    [(["w"], .directory),
      (["w", "theme.css"], .file []),
      (["w", "theme.css.js"], .file []),
      (["w", ".env..tsx"], .file [])]
  cwd := .ofString "/w"

def sampleDotted (specifier : String) : Binding := ⟨"X", specifier, .ofString "a.js", 1, 7⟩

theorem evaluate_sampleDots :
    Decision.ofBinding sampleDots (sampleDotted "./theme.css") = .skipped ∧
      Decision.ofBinding sampleDots (sampleDotted "./none") = .skipped ∧
      Decision.ofBinding sampleDots (sampleDotted "./.env.") ≠ .skipped ∧
      resolve? sampleDots "./.env." (.ofString "a.js") = some (.ofString "/w/.env..tsx") ∧
      isSource (.ofString "/w/.env..tsx") = true := by
  have hreasons (specifier : String) (hscope : isOutOfScope specifier = false) :=
    evaluate_skipped_iff (w := sampleDots) (b := sampleDotted specifier) (by decide)
      (Path.proper_ofString "/w") (Path.proper_ofString "a.js") hscope .default "error" []
  have hresolve : resolve? sampleDots "./.env." (.ofString "a.js") =
      some (.ofString "/w/.env..tsx") := by decide +kernel
  refine ⟨(hreasons "./theme.css" (by decide +kernel)).1.mpr (by decide +kernel),
    (hreasons "./none" (by decide +kernel)).1.mpr (by decide +kernel),
    (hreasons "./.env." (by decide +kernel)).1.not.mpr (by decide +kernel), hresolve, ?_⟩
  exact (hreasons "./.env." (by decide +kernel)).2.2 ".tsx" (by decide) hresolve

end Checker

end DefaultImports
