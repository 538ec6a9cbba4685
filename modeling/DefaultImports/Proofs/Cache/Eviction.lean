import DefaultImports.Proofs.Cache.Session

/-! Eviction by age. A cache that is only asked for surfaces holds the latest ones it has read,
as many as its limit allows; hits have no part in it. -/
namespace DefaultImports.SurfaceCache

variable {policy : CachePolicy} {cwd k : Path} {c d : SurfaceCache} {s v : Surface} {e : Event}
  {h : List Event}

namespace Event

/-- The entry that a successful read makes. -/
def stored? : Event → Option (Path × Surface)
  | .read k (.ok s) => some (k, s)
  | _ => none

/-- A miss whose reader gave a surface. -/
def isSuccess (e : Event) : Bool := e.stored?.isSome

theorem stored?_read : (read k (.ok s)).stored? = some (k, s) := rfl

theorem stored?_eq_some_iff : e.stored? = some (k, s) ↔ e = .read k (.ok s) := by
  unfold stored?
  split <;> simp_all

end Event

/-- What is evicted early would be evicted later. -/
theorem evict_evict_concat (policy : CachePolicy) (es : List (Path × Surface))
    (x : Path × Surface) : evict policy (evict policy es ++ [x]) = evict policy (es ++ [x]) := by
  have hdrop : evict policy es ++ [x] = (es ++ [x]).drop (excess policy es) := by
    rw [evict, List.drop_append_of_le_length]
    exact Nat.sub_le _ _
  rw [hdrop, evict, List.drop_drop, evict]
  congr 1
  simp only [excess, List.length_drop, List.length_append, List.length_singleton]
  omega

/-- One step of a cache that is only asked. -/
theorem entries_get_step (ht : Step policy c e d) (hon : policy.enabled = true)
    (hget : e.isGet = true) (hc : c.entries = evict policy (h.filterMap Event.stored?)) :
    d.entries = evict policy ((h ++ [e]).filterMap Event.stored?) := by
  rw [List.filterMap_append]
  cases ht with
  | hit _ hk => simpa [List.filterMap_cons, Event.stored?] using hc
  | failed hmiss => simpa [List.filterMap_cons, Event.stored?] using hc
  | passed hoff => simp [hoff] at hon
  | stored _ hmiss =>
    simp only [insert_entries, countMiss_entries]
    rw [hc, evict_evict_concat]
    rfl
  | invalidated => simp [Event.isGet] at hget
  | cleared => simp [Event.isGet] at hget

/-- A session that only asks holds the latest successful reads. -/
theorem entries_run_gets (hon : policy.enabled = true) (cwd : Path) {actions : List Action}
    (hgets : ∀ a ∈ actions, a.isGet = true) :
    (Session.run policy cwd actions).cache.entries =
      evict policy ((Session.run policy cwd actions).history.filterMap Event.stored?) := by
  induction actions using List.reverseRecOn with
  | nil => simp [Session.run, Session.start, empty, evict]
  | append_singleton actions a ih =>
    rw [Session.run_concat]
    refine entries_get_step (step_perform policy cwd _ a) hon ?_ (ih ?_)
    · rw [isGet_event]
      exact hgets a (by simp)
    · intro b hb
      exact hgets b (by simp [hb])

/-- The latest of the entries under a key survives iff there are few enough behind it. -/
theorem mem_evict_iff (policy : CachePolicy) (before : List (Path × Surface))
    {after : List (Path × Surface)} (hafter : ∀ u, (k, u) ∉ after) :
    (∃ u, (k, u) ∈ evict policy (before ++ (k, v) :: after)) ↔
      after.length < policy.maxEntries.toNat := by
  constructor
  · rintro ⟨u, hu⟩
    by_contra hfew
    have hn : excess policy (before ++ (k, v) :: after) =
        before.length + 1 + (after.length - policy.maxEntries.toNat) := by
      simp only [excess, List.length_append, List.length_cons]
      omega
    have hdrop : evict policy (before ++ (k, v) :: after) =
        after.drop (after.length - policy.maxEntries.toNat) := by
      rw [evict, hn, ← List.drop_drop, ← List.drop_drop, List.drop_left, List.drop_one,
        List.tail_cons]
    rw [hdrop] at hu
    exact hafter u (List.mem_of_mem_drop hu)
  · intro hfew
    refine ⟨v, ?_⟩
    rw [evict, List.drop_append_of_le_length]
    · simp
    · simp only [excess, List.length_append, List.length_cons]
      omega

/-- Of the successful reads of a key one is the latest. -/
theorem exists_latest_success {u : Surface} (hread : .read k (.ok u) ∈ h) :
    ∃ before v after, h = before ++ .read k (.ok v) :: after ∧ ∀ w, .read k (.ok w) ∉ after := by
  induction h using List.reverseRecOn with
  | nil => simp at hread
  | append_singleton h e ih =>
    by_cases he : ∃ v, e = .read k (.ok v)
    · obtain ⟨v, rfl⟩ := he
      exact ⟨h, v, [], rfl, by simp⟩
    · have hne : ∀ w, .read k (.ok w) ≠ e := fun w hw => he ⟨w, hw.symm⟩
      obtain ⟨before, v, after, rfl, hafter⟩ := ih (by simpa [hne u] using hread)
      refine ⟨before, v, after ++ [e], by simp, ?_⟩
      intro w hw
      rcases List.mem_append.mp hw with hw | hw
      · exact hafter w hw
      · exact hne w (List.mem_singleton.mp hw)

theorem mem_filterMap_stored?_iff : (k, s) ∈ h.filterMap Event.stored? ↔ .read k (.ok s) ∈ h := by
  rw [List.mem_filterMap]
  constructor
  · rintro ⟨e, he, hs⟩
    rwa [← Event.stored?_eq_some_iff.mp hs]
  · intro hread
    exact ⟨_, hread, rfl⟩

/-- A key is held iff its latest successful read has fewer successes behind it than the limit
allows entries. -/
theorem mem_keys_iff_recent (hc : c.entries = evict policy (h.filterMap Event.stored?)) :
    k ∈ c.keys ↔ ∃ before v after, h = before ++ .read k (.ok v) :: after ∧
      (∀ w, .read k (.ok w) ∉ after) ∧ after.countP Event.isSuccess < policy.maxEntries.toNat := by
  have hkeys : k ∈ c.keys ↔ ∃ u, (k, u) ∈ evict policy (h.filterMap Event.stored?) := by
    rw [← hc]
    simp [keys]
  have hcut : ∀ before v after, h = before ++ .read k (.ok v) :: after →
      (∀ w, .read k (.ok w) ∉ after) →
      ((∃ u, (k, u) ∈ evict policy (h.filterMap Event.stored?)) ↔
        after.countP Event.isSuccess < policy.maxEntries.toNat) := by
    rintro before v after rfl hafter
    have hlen : (after.filterMap Event.stored?).length = after.countP Event.isSuccess :=
      List.length_filterMap_eq_countP
    rw [List.filterMap_append, List.filterMap_cons_some Event.stored?_read, ← hlen]
    exact mem_evict_iff policy _ fun u hu => hafter u (mem_filterMap_stored?_iff.mp hu)
  rw [hkeys]
  constructor
  · rintro ⟨u, hu⟩
    have hread := mem_filterMap_stored?_iff.mp ((evict_sublist policy _).subset hu)
    obtain ⟨before, v, after, hh, hafter⟩ := exists_latest_success hread
    exact ⟨before, v, after, hh, hafter, (hcut before v after hh hafter).mp ⟨u, hu⟩⟩
  · rintro ⟨before, v, after, hh, hafter, hfew⟩
    exact (hcut before v after hh hafter).mpr hfew

/-- Oldest entries go first: a call hits iff its key was read with success before, and fewer
successful reads than the limit came after the latest one of these. A hit leaves the entries and
their order as they are, so it does not count. -/
theorem hit_iff_recent_read (maxEntries : Int) (cwd : Path) (calls : List (Reader × String))
    (reader : Reader) (p : String) :
    let policy : CachePolicy := ⟨true, maxEntries⟩
    let s := Session.run policy cwd (calls.map fun call => .get call.1 call.2)
    let hit := (Action.get reader p).event policy cwd s.cache = .hit (keyOf cwd p)
    (hit ↔ ∃ before v after, s.history = before ++ .read (keyOf cwd p) (.ok v) :: after ∧
      (∀ w, .read (keyOf cwd p) (.ok w) ∉ after) ∧
      (after.countP Event.isSuccess : Int) < max 0 maxEntries) ∧
    (hit → (s.cache.get policy reader cwd (.ofString p)).2.entries = s.cache.entries) := by
  intro policy s hit
  have hgets : ∀ a ∈ calls.map fun call => Action.get call.1 call.2, a.isGet = true := by
    intro a ha
    obtain ⟨call, -, rfl⟩ := List.mem_map.mp ha
    rfl
  have hentries : s.cache.entries = evict policy (s.history.filterMap Event.stored?) :=
    entries_run_gets rfl cwd hgets
  have hlimit : ∀ n : Nat, (n : Int) < max 0 maxEntries ↔ n < policy.maxEntries.toNat := by
    intro n
    change (n : Int) < max 0 maxEntries ↔ n < maxEntries.toNat
    omega
  have hhit : hit ↔ keyOf cwd p ∈ s.cache.keys := by
    simp [hit, policy, event_get_eq_hit_iff]
  refine ⟨?_, ?_⟩
  · simp only [hhit, hlimit]
    exact mem_keys_iff_recent hentries
  · intro h
    have hon : policy.enabled = true := rfl
    obtain ⟨v, -, hget⟩ := get_of_mem_keys reader hon (hhit.mp h)
    rw [hget, countHit_entries]

end DefaultImports.SurfaceCache
