import DefaultImports.Proofs.Cache.Session

/-! A cache that is filled from files that do not change agrees with them, whatever it has
forgotten. -/
namespace DefaultImports.SurfaceCache

variable {w : Workspace} {policy : CachePolicy} {p q : Path} {c : SurfaceCache}

theorem read_eq_of_entry_eq (h : w.entry p = w.entry q) : Surface.read w p = Surface.read w q := by
  simp only [Surface.read, Workspace.readSource, Workspace.readBytes, h]
  cases w.entry q with
  | error fault => rfl
  | ok entry => cases entry <;> rfl

/-- A surface depends on the absolute form of a path only. -/
theorem read_eq_of_join_eq (h : w.cwd.join p = w.cwd.join q) :
    Surface.read w p = Surface.read w q := by
  apply read_eq_of_entry_eq
  simp only [Workspace.entry, h]

/-- Every entry is what a reading of its file would give now, however the file is spelled. -/
def Coherent (w : Workspace) (c : SurfaceCache) : Prop :=
  ∀ p s, (w.cwd.join p, s) ∈ c.entries → s = Surface.read w p

theorem coherent_empty (w : Workspace) : Coherent w .empty := by
  intro p s hs
  simp [empty] at hs

theorem Coherent.of_subset {d : SurfaceCache} (hc : Coherent w c)
    (hd : d.entries ⊆ c.entries) : Coherent w d :=
  fun p s hs => hc p s (hd hs)

theorem Coherent.get (hc : Coherent w c) (policy : CachePolicy) (p : Path) :
    Coherent w (c.get policy (.ofWorkspace w) w.cwd p).2 := by
  have hg := got policy (.ofWorkspace w) w.cwd p c
  generalize c.get policy (.ofWorkspace w) w.cwd p = r at hg ⊢
  cases hg with
  | hit hon hs => exact hc
  | failed hmiss he => exact hc
  | passed hoff hs => exact hc
  | stored hon hmiss hs =>
    intro q s hq
    rcases List.mem_append.mp ((evict_sublist policy _).subset hq) with hq | hq
    · exact hc q s hq
    · obtain ⟨hjoin, rfl⟩ := Prod.mk.inj (List.mem_singleton.mp hq)
      rw [read_eq_of_join_eq hjoin]
      exact (Except.ok.inj hs).symm

/-- Remembered or not, the answer is what the file says. -/
theorem Coherent.get_answer (hc : Coherent w c) (policy : CachePolicy) (p : Path) :
    (c.get policy (.ofWorkspace w) w.cwd p).1 = .ok (Surface.read w p) := by
  have hg := got policy (.ofWorkspace w) w.cwd p c
  generalize c.get policy (.ofWorkspace w) w.cwd p = r at hg ⊢
  cases hg with
  | hit hon hs => rw [hc p _ hs]
  | failed hmiss he => cases he
  | passed hoff hs => exact hs.symm
  | stored hon hmiss hs => exact hs.symm

/-- The same operation with another reader. -/
def Action.reading (reader : Reader) : Action → Action
  | .get _ spelling => .get reader spelling
  | a => a

theorem Coherent.perform (hc : Coherent w c) (policy : CachePolicy) (a : Action) :
    Coherent w ((a.reading (.ofWorkspace w)).perform policy w.cwd c) := by
  cases a with
  | get reader spelling => exact hc.get policy _
  | invalidate spelling => exact hc.of_subset List.filter_sublist.subset
  | clear => exact hc.of_subset (List.nil_subset _)

/-- A session that reads only the files of a workspace leaves a coherent cache. -/
theorem coherent_run (w : Workspace) (policy : CachePolicy) (actions : List Action) :
    Coherent w
      (Session.run policy w.cwd (actions.map (Action.reading (.ofWorkspace w)))).cache := by
  induction actions using List.reverseRecOn with
  | nil => exact coherent_empty w
  | append_singleton actions a ih =>
    rw [List.map_append, List.map_singleton, Session.run_concat]
    exact ih.perform policy a

end DefaultImports.SurfaceCache
