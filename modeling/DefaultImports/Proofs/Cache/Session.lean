import DefaultImports.SurfaceCache
import Mathlib.Data.List.Induction

/-! Sessions: any sequence of operations on a cache that starts empty, with a record of what
each of them did. -/
namespace DefaultImports.SurfaceCache

variable {policy : CachePolicy} {reader : Reader} {cwd p : Path} {c : SurfaceCache}

@[simp] theorem countHit_entries (c : SurfaceCache) : c.countHit.entries = c.entries := rfl

@[simp] theorem countHit_hits (c : SurfaceCache) : c.countHit.hits = c.hits + 1 := rfl

@[simp] theorem countMiss_entries (c : SurfaceCache) : c.countMiss.entries = c.entries := rfl

@[simp] theorem countMiss_hits (c : SurfaceCache) : c.countMiss.hits = c.hits := rfl

@[simp] theorem insert_entries (policy : CachePolicy) (k : Path) (s : Surface)
    (c : SurfaceCache) : (c.insert policy k s).entries = evict policy (c.entries ++ [(k, s)]) := rfl

@[simp] theorem insert_hits (policy : CachePolicy) (k : Path) (s : Surface) (c : SurfaceCache) :
    (c.insert policy k s).hits = c.hits := rfl

@[simp] theorem clear_entries (c : SurfaceCache) : c.clear.entries = [] := rfl

/-- All that a call of `get` can do. -/
inductive Got (policy : CachePolicy) (reader : Reader) (cwd p : Path) (c : SurfaceCache) :
    Except Failure Surface × SurfaceCache → Prop
  | hit {s : Surface} (hon : policy.enabled = true) (hs : (cwd.join p, s) ∈ c.entries) :
    Got policy reader cwd p c (.ok s, c.countHit)
  | failed {e : Failure} (hmiss : policy.enabled = true → cwd.join p ∉ c.keys)
    (he : reader p = .error e) : Got policy reader cwd p c (.error e, c.countMiss)
  | passed {s : Surface} (hoff : policy.enabled = false) (hs : reader p = .ok s) :
    Got policy reader cwd p c (.ok s, c.countMiss)
  | stored {s : Surface} (hon : policy.enabled = true) (hmiss : cwd.join p ∉ c.keys)
    (hs : reader p = .ok s) :
    Got policy reader cwd p c (.ok s, c.countMiss.insert policy (cwd.join p) s)

theorem evict_sublist (policy : CachePolicy) (es : List (Path × Surface)) :
    (evict policy es).Sublist es :=
  List.drop_sublist _ _

theorem mem_of_lookup {k : Path} {s : Surface} (h : c.entries.lookup k = some s) :
    (k, s) ∈ c.entries := by
  obtain ⟨before, after, he, _⟩ := List.lookup_eq_some_iff.mp h
  simp [he]

theorem notMem_keys_of_lookup {k : Path} (h : c.entries.lookup k = none) : k ∉ c.keys := by
  intro hk
  obtain ⟨e, he, rfl⟩ := List.mem_map.mp hk
  simpa using List.lookup_eq_none_iff.mp h e he

theorem got (policy : CachePolicy) (reader : Reader) (cwd p : Path) (c : SurfaceCache) :
    Got policy reader cwd p c (c.get policy reader cwd p) := by
  unfold get
  cases hon : policy.enabled with
  | false =>
    cases hr : reader p with
    | error e => simpa using Got.failed (by simp [hon]) hr
    | ok s => simpa using Got.passed hon hr
  | true =>
    cases hl : c.entries.lookup (cwd.join p) with
    | some s => simpa [hl] using Got.hit hon (mem_of_lookup hl)
    | none =>
      cases hr : reader p with
      | error e => simpa [hl] using Got.failed (fun _ => notMem_keys_of_lookup hl) hr
      | ok s => simpa [hl] using Got.stored hon (notMem_keys_of_lookup hl) hr

/-- A file whose key is held is not read again: the cache gives what it holds and stays as it
is, but for the counter. -/
theorem get_of_mem_keys (reader : Reader) (hon : policy.enabled = true)
    (hk : cwd.join p ∈ c.keys) :
    ∃ s, (cwd.join p, s) ∈ c.entries ∧ c.get policy reader cwd p = (.ok s, c.countHit) := by
  have hg := got policy reader cwd p c
  generalize c.get policy reader cwd p = r at hg ⊢
  cases hg with
  | hit _ hs => exact ⟨_, hs, rfl⟩
  | failed hmiss he => exact (hmiss hon hk).elim
  | passed hoff hs => simp [hoff] at hon
  | stored _ hmiss hs => exact (hmiss hk).elim

/-- An operation, with its path as it is spelled. Every `get` brings a reader of its own, so
the answers for a file may change from one call to the next. -/
inductive Action where
  | get (reader : Reader) (spelling : String)
  | invalidate (spelling : String)
  | clear

/-- What an operation did, and to which key. -/
inductive Event where
  | hit (key : Path)
  /-- The reader was asked. -/
  | read (key : Path) (answer : Except Failure Surface)
  | invalidated (key : Path)
  | cleared

def Event.isGet : Event → Bool
  | .hit _ | .read _ _ => true
  | _ => false

/-- The key of a file that is spelled in some way. -/
def keyOf (cwd : Path) (spelling : String) : Path := cwd.join (.ofString spelling)

namespace Action

def isGet : Action → Bool
  | .get _ _ => true
  | _ => false

def perform (policy : CachePolicy) (cwd : Path) (c : SurfaceCache) : Action → SurfaceCache
  | .get reader spelling => (c.get policy reader cwd (.ofString spelling)).2
  | .invalidate spelling => c.invalidate cwd (.ofString spelling)
  | .clear => c.clear

/-- The counters tell whether a call of `get` was a hit; if not, its reader was asked. -/
def event (policy : CachePolicy) (cwd : Path) (c : SurfaceCache) : Action → Event
  | .get reader spelling =>
    if (c.get policy reader cwd (.ofString spelling)).2.hits = c.hits then
      .read (keyOf cwd spelling) (reader (.ofString spelling))
    else .hit (keyOf cwd spelling)
  | .invalidate spelling => .invalidated (keyOf cwd spelling)
  | .clear => .cleared

end Action

/-- The transitions of a cache, by what they did. -/
inductive Step (policy : CachePolicy) (c : SurfaceCache) : Event → SurfaceCache → Prop
  | hit {k : Path} (hon : policy.enabled = true) (hk : k ∈ c.keys) :
    Step policy c (.hit k) c.countHit
  | failed {k : Path} {e : Failure} (hmiss : policy.enabled = true → k ∉ c.keys) :
    Step policy c (.read k (.error e)) c.countMiss
  | passed {k : Path} {s : Surface} (hoff : policy.enabled = false) :
    Step policy c (.read k (.ok s)) c.countMiss
  | stored {k : Path} {s : Surface} (hon : policy.enabled = true) (hmiss : k ∉ c.keys) :
    Step policy c (.read k (.ok s)) (c.countMiss.insert policy k s)
  | invalidated {k : Path} :
    Step policy c (.invalidated k) { c with entries := c.entries.filter (·.1 != k) }
  | cleared : Step policy c .cleared c.clear

theorem mem_keys_of_mem {k : Path} {s : Surface} (h : (k, s) ∈ c.entries) : k ∈ c.keys :=
  List.mem_map_of_mem h

theorem step_perform (policy : CachePolicy) (cwd : Path) (c : SurfaceCache) (a : Action) :
    Step policy c (a.event policy cwd c) (a.perform policy cwd c) := by
  cases a with
  | get reader spelling =>
    have hg := got policy reader cwd (.ofString spelling) c
    simp only [Action.event, Action.perform, keyOf]
    generalize c.get policy reader cwd (.ofString spelling) = r at hg ⊢
    cases hg with
    | hit hon hs => simpa using Step.hit hon (mem_keys_of_mem hs)
    | failed hmiss he => simpa [he] using Step.failed hmiss
    | passed hoff hs => simpa [hs] using Step.passed hoff
    | stored hon hmiss hs => simpa [hs] using Step.stored hon hmiss
  | invalidate spelling => exact .invalidated
  | clear => exact .cleared

theorem event_get_eq_hit_iff (reader : Reader) (spelling : String) :
    (Action.get reader spelling).event policy cwd c = .hit (keyOf cwd spelling) ↔
      policy.enabled = true ∧ keyOf cwd spelling ∈ c.keys := by
  have hg := got policy reader cwd (.ofString spelling) c
  simp only [Action.event, keyOf]
  generalize c.get policy reader cwd (.ofString spelling) = r at hg ⊢
  cases hg with
  | hit hon hs => simp [hon, mem_keys_of_mem hs]
  | failed hmiss he => simpa using hmiss
  | passed hoff hs => simp [hoff]
  | stored hon hmiss hs => simp [hmiss]

theorem isGet_event (policy : CachePolicy) (cwd : Path) (c : SurfaceCache) (a : Action) :
    (a.event policy cwd c).isGet = a.isGet := by
  cases a with
  | get reader spelling =>
    simp only [Action.event]
    split <;> rfl
  | invalidate spelling => rfl
  | clear => rfl

/-- A cache and the record of what was done with it, in order. -/
structure Session where
  cache : SurfaceCache
  history : List Event

namespace Session

def start : Session := ⟨.empty, []⟩

def next (policy : CachePolicy) (cwd : Path) (s : Session) (a : Action) : Session :=
  ⟨a.perform policy cwd s.cache, s.history ++ [a.event policy cwd s.cache]⟩

def run (policy : CachePolicy) (cwd : Path) (actions : List Action) : Session :=
  actions.foldl (next policy cwd) start

theorem run_concat (policy : CachePolicy) (cwd : Path) (actions : List Action) (a : Action) :
    run policy cwd (actions ++ [a]) = (run policy cwd actions).next policy cwd a := by
  simp [run]

end Session

end DefaultImports.SurfaceCache
