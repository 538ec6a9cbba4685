import DefaultImports.Checker
import DefaultImports.Proofs.Cache.Coherence

/-! A pass over files as it would be without a cache, and why a cache makes no difference to
it. The findings of a pass are then those of its parts, one after the other. -/
namespace DefaultImports

namespace Findings

theorem empty_append (f : Findings) : empty ++ f = f := by
  obtain ⟨ds, fs, n, m⟩ := f
  change Findings.mk ([] ++ ds) ([] ++ fs) (0 + n) (0 + m) = _
  simp

theorem append_empty (f : Findings) : f ++ empty = f := by
  obtain ⟨ds, fs, n, m⟩ := f
  change Findings.mk (ds ++ []) (fs ++ []) (n + 0) (m + 0) = _
  simp

theorem append_assoc (f g h : Findings) : f ++ g ++ h = f ++ (g ++ h) := by
  change Findings.mk _ _ _ _ = Findings.mk _ _ _ _
  congr 1
  · exact List.append_assoc ..
  · exact List.append_assoc ..
  · exact Nat.add_assoc ..
  · exact Nat.add_assoc ..

end Findings

namespace Checker

open SurfaceCache

variable {w : Workspace} {c : SurfaceCache}

/-- Records the verdicts on imports by what is on disk. -/
def plainBindings (w : Workspace) (severity : String) (s : Suppression) (bs : List Binding)
    (f : Findings) : Findings :=
  bs.foldl (fun f b => (ofWorkspace w .default severity).record s f (.ofBinding w b)) f

/-- The findings in a text when every target is read anew. -/
def plainSource (w : Workspace) (severity source : String) (file : Path) : Findings :=
  let file := w.absolute file
  let s := Suppression.ofSource source
  if s.fileDisabled then .ofFile file
  else plainBindings w severity s (Binding.scan source file) (.ofFile file)

/-- The findings in a file when every target is read anew. -/
def plainFile (w : Workspace) (severity : String) (file : Path) : Except Failure Findings :=
  let file := w.absolute file
  match w.readSource file with
  | .ok source => .ok (plainSource w severity source file)
  | .error ⟨.nulCharacter, p⟩ => .error (.path ⟨.nulCharacter, p⟩)
  | .error e => .ok (.unreadable file e)

/-- The findings in each of some files, put together. -/
def plainFiles (w : Workspace) (severity : String) : List Path → Except Failure Findings
  | [] => .ok .empty
  | file :: rest => do
    let f ← plainFile w severity file
    let g ← plainFiles w severity rest
    return f ++ g

theorem evaluate_of_coherent (hc : Coherent w c) (policy : CachePolicy) (severity : String)
    (b : Binding) : ∃ d, Coherent w d ∧
      (ofWorkspace w policy severity).evaluate b c = (.ok (.ofBinding w b), d) := by
  cases ht : b.target? w with
  | none => exact ⟨c, hc, by simp [evaluate, ofWorkspace, Decision.ofBinding, ht]⟩
  | some target =>
    refine ⟨_, hc.get policy target, ?_⟩
    have hanswer := hc.get_answer policy target
    generalize hget : c.get policy (.ofWorkspace w) w.cwd target = r at hanswer
    obtain ⟨answer, d⟩ := r
    obtain rfl : answer = .ok (Surface.read w target) := hanswer
    simp [evaluate, ofWorkspace, Decision.ofBinding, ht, hget]

theorem checkBindings_of_coherent (policy : CachePolicy) (severity : String) (s : Suppression)
    (bs : List Binding) (f : Findings) (hc : Coherent w c) : ∃ d, Coherent w d ∧
      (ofWorkspace w policy severity).checkBindings s bs f c =
        (.ok (plainBindings w severity s bs f), d) := by
  induction bs generalizing f c with
  | nil => exact ⟨c, hc, rfl⟩
  | cons b rest ih =>
    obtain ⟨d, hd, he⟩ := evaluate_of_coherent hc policy severity b
    obtain ⟨d', hd', hrest⟩ :=
      ih ((ofWorkspace w policy severity).record s f (.ofBinding w b)) hd
    refine ⟨d', hd', ?_⟩
    rw [checkBindings, he]
    exact hrest

theorem checkSource_of_coherent (hc : Coherent w c) (policy : CachePolicy)
    (severity source : String) (file : Path) : ∃ d, Coherent w d ∧
      (ofWorkspace w policy severity).checkSource source file c =
        (.ok (plainSource w severity source file), d) := by
  unfold checkSource plainSource
  simp only [ofWorkspace]
  split
  · exact ⟨c, hc, rfl⟩
  · exact checkBindings_of_coherent policy severity _ _ _ hc

theorem checkFile_of_coherent (hc : Coherent w c) (policy : CachePolicy) (severity : String)
    (file : Path) : ∃ d, Coherent w d ∧
      (ofWorkspace w policy severity).checkFile file c = (plainFile w severity file, d) := by
  cases hread : w.readSource (w.absolute file) with
  | ok source =>
    obtain ⟨d, hd, hsource⟩ :=
      checkSource_of_coherent hc policy severity source (w.absolute file)
    refine ⟨d, hd, ?_⟩
    rw [plainFile, hread, ← hsource]
    simp [checkFile, ofWorkspace, hread]
  | error e =>
    obtain ⟨fault, p⟩ := e
    refine ⟨c, hc, ?_⟩
    cases fault <;> simp [checkFile, plainFile, ofWorkspace, hread]

theorem checkFilesFrom_of_coherent (policy : CachePolicy) (severity : String)
    (files : List Path) (f : Findings) (hc : Coherent w c) :
    ((ofWorkspace w policy severity).checkFilesFrom files f c).1 =
      (f ++ ·) <$> plainFiles w severity files := by
  induction files generalizing f c with
  | nil => exact congrArg Except.ok (Findings.append_empty f).symm
  | cons file rest ih =>
    obtain ⟨d, hd, hfile⟩ := checkFile_of_coherent hc policy severity file
    rw [checkFilesFrom, hfile, plainFiles]
    cases plainFile w severity file with
    | error e => rfl
    | ok g =>
      refine (ih (f ++ g) hd).trans ?_
      cases plainFiles w severity rest with
      | error e => rfl
      | ok h => exact congrArg Except.ok (Findings.append_assoc f g h)

/-- The cache of a pass makes no difference to what it finds. -/
theorem checkFiles_eq_plainFiles (w : Workspace) (policy : CachePolicy) (severity : String)
    (files : List Path) :
    (ofWorkspace w policy severity).checkFiles files = plainFiles w severity files := by
  rw [checkFiles, checkFilesFrom_of_coherent policy severity files _ (coherent_empty w)]
  cases plainFiles w severity files with
  | error e => rfl
  | ok f => exact congrArg Except.ok (Findings.empty_append f)

theorem plainFiles_append (w : Workspace) (severity : String) (xs ys : List Path) :
    plainFiles w severity (xs ++ ys) = (do
      let f ← plainFiles w severity xs
      let g ← plainFiles w severity ys
      return f ++ g) := by
  induction xs with
  | nil =>
    rw [List.nil_append, plainFiles]
    cases plainFiles w severity ys with
    | error e => rfl
    | ok g => exact congrArg Except.ok (Findings.empty_append g).symm
  | cons file rest ih =>
    rw [List.cons_append, plainFiles, plainFiles, ih]
    cases plainFile w severity file with
    | error e => rfl
    | ok f =>
      cases plainFiles w severity rest with
      | error e => rfl
      | ok g =>
        cases plainFiles w severity ys with
        | error e => rfl
        | ok h => exact congrArg Except.ok (Findings.append_assoc f g h).symm

/-- Whatever the caches, a pass over two lists of files finds what passes over each of them
find, or fails as the first of these that does. A cache that was only filled from the same files
never changes the verdict on an import. -/
theorem checkFiles_cache_independent (w : Workspace) (severity : String) (p₁ p₂ : CachePolicy) :
    (∀ xs ys, (ofWorkspace w p₁ severity).checkFiles (xs ++ ys) = (do
      let f ← (ofWorkspace w p₂ severity).checkFiles xs
      let g ← (ofWorkspace w p₂ severity).checkFiles ys
      return f ++ g)) ∧
    ∀ (actions : List Action) (b : Binding),
      let session := Session.run p₁ w.cwd (actions.map (Action.reading (.ofWorkspace w)))
      ((ofWorkspace w p₁ severity).evaluate b session.cache).1 = .ok (.ofBinding w b) := by
  constructor
  · intro xs ys
    simp only [checkFiles_eq_plainFiles, plainFiles_append]
  · intro actions b
    obtain ⟨d, -, he⟩ := evaluate_of_coherent (coherent_run w p₁ actions) p₁ severity b
    exact congrArg Prod.fst he

end Checker

end DefaultImports
