import DefaultImports.Proofs.Cache.Session
import DefaultImports.Proofs.Path.Text
import Mathlib.Data.List.Nodup

/-! What holds of a cache after every session: its size, its counters, its keys, and where the
values it holds come from. -/
namespace DefaultImports.SurfaceCache

variable {policy : CachePolicy} {cwd k : Path} {c d : SurfaceCache} {s : Surface} {e : Event}
  {h : List Event}

/-- After such an event no earlier answer for the key `k` counts. -/
def Event.Outdates (k : Path) : Event → Prop
  | .hit _ => False
  | .read j _ | .invalidated j => j = k
  | .cleared => True

/-- The reader answered `s` when it was last asked about `k`, and since then neither was `k`
invalidated nor the cache cleared. -/
def LastRead (k : Path) (s : Surface) (h : List Event) : Prop :=
  ∃ before after, h = before ++ .read k (.ok s) :: after ∧ ∀ e ∈ after, ¬ e.Outdates k

theorem LastRead.concat (hr : LastRead k s h) (he : ¬ e.Outdates k) : LastRead k s (h ++ [e]) := by
  obtain ⟨before, after, rfl, hafter⟩ := hr
  refine ⟨before, after ++ [e], by simp, ?_⟩
  intro x hx
  rcases List.mem_append.mp hx with hx | hx
  · exact hafter x hx
  · rwa [List.mem_singleton.mp hx]

theorem lastRead_concat_read (h : List Event) : LastRead k s (h ++ [.read k (.ok s)]) :=
  ⟨h, [], rfl, by simp⟩

theorem length_evict_le (policy : CachePolicy) (es : List (Path × Surface)) :
    (evict policy es).length ≤ policy.maxEntries.toNat := by
  simp only [evict, excess, List.length_drop]
  omega

/-- Every transition but that of a stored surface only takes entries away. -/
theorem entries_step (ht : Step policy c e d) :
    d.entries.Sublist c.entries ∨ ∃ k s, policy.enabled = true ∧ k ∉ c.keys ∧
      e = .read k (.ok s) ∧ d.entries = evict policy (c.entries ++ [(k, s)]) := by
  cases ht with
  | hit hon hk => exact Or.inl (.refl _)
  | failed hmiss => exact Or.inl (.refl _)
  | passed hoff => exact Or.inl (.refl _)
  | stored hon hmiss => exact Or.inr ⟨_, _, hon, hmiss, rfl, rfl⟩
  | invalidated => exact Or.inl List.filter_sublist
  | cleared => exact Or.inl (List.nil_sublist _)

theorem size_step (ht : Step policy c e d) (hc : c.entries.length ≤ policy.maxEntries.toNat) :
    d.entries.length ≤ policy.maxEntries.toNat := by
  obtain hs | ⟨k, s, -, -, -, hd⟩ := entries_step ht
  · exact Nat.le_trans hs.length_le hc
  · rw [hd]
    exact length_evict_le policy _

theorem disabled_step (ht : Step policy c e d) (hoff : policy.enabled = false)
    (hc : c.entries = []) : d.entries = [] := by
  obtain hs | ⟨k, s, hon, -⟩ := entries_step ht
  · rw [hc] at hs
    exact List.sublist_nil.mp hs
  · simp [hoff] at hon

theorem distinct_step (ht : Step policy c e d) (hc : c.keys.Nodup) : d.keys.Nodup := by
  obtain hs | ⟨k, s, -, hk, -, hd⟩ := entries_step ht
  · exact hc.sublist (hs.map _)
  · have hall : ((c.entries ++ [(k, s)]).map (·.1)).Nodup := by
      rw [List.map_append]
      exact hc.append (List.nodup_singleton k) (by simpa using hk)
    rw [keys, hd]
    exact hall.sublist ((evict_sublist policy _).map _)

theorem counted_step (ht : Step policy c e d) :
    d.hits + d.misses = c.hits + c.misses + if e.isGet then 1 else 0 := by
  cases ht <;> simp [Event.isGet, countHit, countMiss, insert, clear] <;> omega

theorem lastRead_step (ht : Step policy c e d) (hoff : policy.enabled = false → c.entries = [])
    (hc : ∀ k s, (k, s) ∈ c.entries → LastRead k s h) {k : Path} {s : Surface}
    (hk : (k, s) ∈ d.entries) : LastRead k s (h ++ [e]) := by
  cases ht with
  | hit hon hj => exact (hc k s hk).concat id
  | failed hmiss =>
    apply (hc k s hk).concat
    rintro rfl
    cases hon : policy.enabled with
    | false => simp [hoff hon] at hk
    | true => exact hmiss hon (mem_keys_of_mem hk)
  | passed hdis => simp [hoff hdis] at hk
  | stored hon hmiss =>
    rcases List.mem_append.mp ((evict_sublist policy _).subset hk) with hk | hk
    · apply (hc k s hk).concat
      rintro rfl
      exact hmiss (mem_keys_of_mem hk)
    · obtain ⟨rfl, rfl⟩ := Prod.mk.inj (List.mem_singleton.mp hk)
      exact lastRead_concat_read h
  | invalidated =>
    obtain ⟨hk, hne⟩ := List.mem_filter.mp hk
    apply (hc k s hk).concat
    rintro rfl
    simp at hne
  | cleared => simp at hk

/-- What a cache and its history have in common at any time. -/
structure Kept (policy : CachePolicy) (h : List Event) (c : SurfaceCache) : Prop where
  size : c.entries.length ≤ policy.maxEntries.toNat
  disabled : policy.enabled = false → c.entries = []
  distinct : c.keys.Nodup
  counted : c.hits + c.misses = h.countP Event.isGet
  lastRead : ∀ k s, (k, s) ∈ c.entries → LastRead k s h

theorem kept_empty (policy : CachePolicy) : Kept policy [] .empty where
  size := Nat.zero_le _
  disabled := fun _ => rfl
  distinct := List.nodup_nil
  counted := rfl
  lastRead := by simp [empty]

theorem kept_step (hc : Kept policy h c) (ht : Step policy c e d) : Kept policy (h ++ [e]) d where
  size := size_step ht hc.size
  disabled := fun hoff => disabled_step ht hoff (hc.disabled hoff)
  distinct := distinct_step ht hc.distinct
  counted := by
    rw [counted_step ht, hc.counted, List.countP_append, List.countP_singleton]
  lastRead := fun _ _ => lastRead_step ht hc.disabled hc.lastRead

namespace Session

theorem kept_run (policy : CachePolicy) (cwd : Path) (actions : List Action) :
    Kept policy (run policy cwd actions).history (run policy cwd actions).cache := by
  induction actions using List.reverseRecOn with
  | nil => exact kept_empty policy
  | append_singleton actions a ih =>
    rw [run_concat]
    exact kept_step ih (step_perform policy cwd _ a)

theorem countP_history (policy : CachePolicy) (cwd : Path) (actions : List Action) :
    (run policy cwd actions).history.countP Event.isGet = actions.countP Action.isGet := by
  induction actions using List.reverseRecOn with
  | nil => rfl
  | append_singleton actions a ih => simp [run_concat, next, ih, isGet_event]

/-- Only keys of spelled paths are ever read. -/
theorem keyOf_of_read_mem {answer : Except Failure Surface} (actions : List Action)
    (hk : .read k answer ∈ (run policy cwd actions).history) : ∃ p, k = keyOf cwd p := by
  induction actions using List.reverseRecOn with
  | nil => simp [run, start] at hk
  | append_singleton actions a ih =>
    rw [run_concat] at hk
    rcases List.mem_append.mp hk with hk | hk
    · exact ih hk
    · cases a with
      | get reader spelling =>
        simp only [Action.event, List.mem_singleton] at hk
        split at hk
        · exact ⟨spelling, (Event.read.inj hk).1⟩
        · cases hk
      | invalidate spelling => simp [Action.event] at hk
      | clear => simp [Action.event] at hk

end Session

theorem proper_keyOf (dir p : String) : (keyOf (.ofString dir) p).Proper :=
  (Path.proper_ofString dir).join (Path.proper_ofString p)

/-- Two spellings have one key iff their absolute texts are the same. -/
theorem keyOf_eq_iff (dir p q : String) : keyOf (.ofString dir) p = keyOf (.ofString dir) q ↔
    (keyOf (.ofString dir) p).toString = (keyOf (.ofString dir) q).toString :=
  (Path.toString_inj (proper_keyOf dir p) (proper_keyOf dir q)).symm

theorem proper_of_mem_keys {dir : String} {actions : List Action}
    (hk : k ∈ (Session.run policy (.ofString dir) actions).cache.keys) : k.Proper := by
  obtain ⟨e, he, rfl⟩ := List.mem_map.mp hk
  obtain ⟨before, after, hh, -⟩ := (Session.kept_run policy _ actions).lastRead _ _ he
  have hread : .read e.1 (.ok e.2) ∈ (Session.run policy (.ofString dir) actions).history := by
    simp [hh]
  obtain ⟨p, hp⟩ := Session.keyOf_of_read_mem actions hread
  rw [hp]
  exact proper_keyOf dir p

/-- What a session with a cache, seen from the directory `cwd`, never breaks. -/
structure Invariant (policy : CachePolicy) (cwd : Path) (actions : List Action) (s : Session) :
    Prop where
  size : (s.cache.entries.length : Int) ≤ max 0 policy.maxEntries
  disabled : policy.enabled = false → s.cache.entries = []
  /-- Calls whose reader failed are counted as well. -/
  counted : s.cache.hits + s.cache.misses = actions.countP Action.isGet
  distinct : (s.cache.keys.map Path.toString).Nodup
  /-- Two spellings share an entry iff there is one and their absolute texts are the same. -/
  shared : ∀ p q, (∃ e ∈ s.cache.entries, e.1 = keyOf cwd p ∧ e.1 = keyOf cwd q) ↔
    (∃ e ∈ s.cache.entries, e.1 = keyOf cwd p) ∧ (keyOf cwd p).toString = (keyOf cwd q).toString
  /-- A call is a hit iff its spelling has an entry. -/
  hit_iff : ∀ reader p, (Action.get reader p).event policy cwd s.cache = .hit (keyOf cwd p) ↔
    ∃ e ∈ s.cache.entries, e.1 = keyOf cwd p
  lastRead : ∀ e ∈ s.cache.entries, LastRead e.1 e.2 s.history
  hit_answer : ∀ reader p, (Action.get reader p).event policy cwd s.cache = .hit (keyOf cwd p) →
    ∃ v, (s.cache.get policy reader cwd (.ofString p)).1 = .ok v ∧
      LastRead (keyOf cwd p) v s.history

/-- The invariant of the cache as a state machine, for every policy, all readers and every
sequence of operations. -/
theorem invariant_run (policy : CachePolicy) (dir : String) (actions : List Action) :
    Invariant policy (.ofString dir) actions (Session.run policy (.ofString dir) actions) := by
  have hkept := Session.kept_run policy (.ofString dir) actions
  refine ⟨?_, hkept.disabled, ?_, ?_, ?_, ?_, fun e he => hkept.lastRead _ _ he, ?_⟩
  · have := hkept.size
    omega
  · rw [hkept.counted, Session.countP_history]
  · refine hkept.distinct.map_on ?_
    intro j hj k hk hjk
    exact (Path.toString_inj (proper_of_mem_keys hj) (proper_of_mem_keys hk)).mp hjk
  · intro p q
    rw [← keyOf_eq_iff]
    constructor
    · rintro ⟨e, he, hp, hq⟩
      exact ⟨⟨e, he, hp⟩, hp.symm.trans hq⟩
    · rintro ⟨⟨e, he, hp⟩, hpq⟩
      exact ⟨e, he, hp, hp.trans hpq⟩
  · intro reader p
    rw [event_get_eq_hit_iff]
    constructor
    · rintro ⟨-, hk⟩
      exact List.mem_map.mp hk
    · rintro ⟨e, he, hp⟩
      refine ⟨?_, List.mem_map.mpr ⟨e, he, hp⟩⟩
      by_contra hoff
      simp [hkept.disabled (by simpa using hoff)] at he
  · intro reader p hhit
    obtain ⟨hon, hk⟩ := (event_get_eq_hit_iff reader p).mp hhit
    obtain ⟨v, hv, hget⟩ := get_of_mem_keys reader hon hk
    exact ⟨v, congrArg Prod.fst hget, hkept.lastRead _ _ hv⟩

end DefaultImports.SurfaceCache
