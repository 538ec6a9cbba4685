import DefaultImports.CommandLine.Request
import DefaultImports.Settings.Load
import Mathlib.Logic.Function.Basic

/-! What each source of settings says about each setting, and settings as a record of what was
said. Merging lets the later source have its say first. -/
namespace DefaultImports

open Toml CommandLine

/-- The value of a setting. -/
inductive Datum where
  | patterns (texts : List String)
  | flag (b : Bool)
  | level (severity : String)
  | limit (n : Int)
  | place (p : Path)
deriving DecidableEq, Repr

namespace Datum

/-- A list of patterns is accepted if each of them has a text. -/
def patterns? : Option Value → Option Datum
  | some (.array items) => (items.mapM Value.text?).map .patterns
  | _ => none

def flag? : Option Value → Option Datum
  | some (.bool b) => some (.flag b)
  | _ => none

/-- One of the three severities, in any case. -/
def level? (text : String) : Option Datum :=
  if Settings.lower text ∈ Settings.severities then some (.level (Settings.lower text)) else none

def levelIn? : Option Value → Option Datum
  | some (.str text) => level? text
  | _ => none

/-- Limits are not negative. -/
def limit? (n : Int) : Option Datum := if 0 ≤ n then some (.limit n) else none

def limitIn? : Option Value → Option Datum
  | some (.int n) => limit? n
  | _ => none

end Datum

/-- Where settings come from. -/
inductive Source where
  | defaults (root : Path)
  /-- A configuration file, if there is one. -/
  | file (t : Option Table)
  | environment (e : Environment)
  | arguments (a : CheckArguments)

namespace Source

/-- The settings of the cache have a table of their own. -/
def cacheTable (t : Table) : Table :=
  match t.lookup "cache" with
  | some (.table cache) => cache
  | _ => []

def tableGives (t : Table) : Setting → Option Datum
  | .included => Datum.patterns? (t.lookup "include")
  | .excluded => Datum.patterns? (t.lookup "exclude")
  | .respectIgnores => Datum.flag? (t.lookup "respect_gitignore")
  | .severity => Datum.levelIn? (t.lookup "severity")
  | .cacheEnabled => Datum.flag? ((cacheTable t).lookup "enabled")
  | .cacheMaxEntries => Datum.limitIn? ((cacheTable t).lookup "max_entries")
  | .projectRoot => none

/-- An empty variable says nothing. -/
def environmentGives (e : Environment) : Setting → Option Datum
  | .respectIgnores =>
    (e.respectIgnores.filter (· ≠ "")).map fun text => .flag (Settings.isTruthy text)
  | .severity => (e.severity.filter (· ≠ "")).bind Datum.level?
  | .cacheEnabled => (e.noCache.filter (· ≠ "")).map fun text => .flag (!Settings.isTruthy text)
  | .cacheMaxEntries =>
    ((e.maxEntries.filter (· ≠ "")).bind Settings.integer?).bind Datum.limit?
  | _ => none

def argumentsGive (a : CheckArguments) : Setting → Option Datum
  | .respectIgnores => if a.includeIgnored then some (.flag false) else none
  | .severity => a.severity.map .level
  | .cacheEnabled => if a.noCache then some (.flag false) else none
  | _ => none

end Source

/-- The value of each setting. -/
def Settings.value (s : Settings) : Setting → Datum
  | .included => .patterns s.filter.included
  | .excluded => .patterns s.filter.excluded
  | .respectIgnores => .flag s.respectIgnores
  | .severity => .level s.severity
  | .cacheEnabled => .flag s.cache.enabled
  | .cacheMaxEntries => .limit s.cache.maxEntries
  | .projectRoot => .place s.projectRoot

/-- What a source sets a setting to, if it sets it and the value is accepted. -/
def Source.gives : Source → Setting → Option Datum
  | .defaults root, k => some ((Settings.default root).value k)
  | .file t, k => t.bind (tableGives · k)
  | .environment e, k => environmentGives e k
  | .arguments a, k => argumentsGive a k

namespace Source

def isTable : Value → Bool
  | .table _ => true
  | _ => false

/-- The table of this program in the content of a file that several tools share. -/
def sharedTable (content : Option Table) : Option Table :=
  match content.bind (·.lookup "tool") with
  | some (.table tools) =>
    match tools.lookup "missingdefault" with
    | some (.table own) => some own
    | _ => none
  | _ => none

/-- All sources for a project with the given contents of its configuration files. Later ones
override earlier ones. -/
def all (root : Path) (shared own : Option Table) (e : Environment) (a : CheckArguments) :
    List Source :=
  [.defaults root, .file (sharedTable shared), .file own, .environment e, .arguments a]

end Source

namespace Settings

variable {root root' : Path} {g g' : Setting → Option Datum} {s t : Settings} {k : Setting}
  {d : Datum}

/-- The settings are the defaults but for what `g` gives, and these are the explicit ones. -/
structure Records (root : Path) (g : Setting → Option Datum) (s : Settings) : Prop where
  value : ∀ k, s.value k = (g k).getD ((default root).value k)
  explicit : ∀ k, s.explicit k = (g k).isSome

theorem records_default (root : Path) : Records root (fun _ => none) (default root) :=
  ⟨fun _ => rfl, fun _ => rfl⟩

theorem Records.congr (h : Records root g s) (hg : ∀ k, g k = g' k) : Records root g' s := by
  obtain rfl : g = g' := funext hg
  exact h

/-- `t` is `s` after the setting `k` was given the value `d`. -/
structure Puts (s : Settings) (k : Setting) (d : Datum) (t : Settings) : Prop where
  value : ∀ j, t.value j = if j = k then d else s.value j
  explicit : ∀ j, t.explicit j = (j == k || s.explicit j)

theorem puts_setIncluded (s : Settings) (texts : List String) :
    Puts s .included (.patterns texts) (s.setIncluded texts) :=
  ⟨fun j => by cases j <;> rfl, fun _ => rfl⟩

theorem puts_setExcluded (s : Settings) (texts : List String) :
    Puts s .excluded (.patterns texts) (s.setExcluded texts) :=
  ⟨fun j => by cases j <;> rfl, fun _ => rfl⟩

theorem puts_setRespectIgnores (s : Settings) (b : Bool) :
    Puts s .respectIgnores (.flag b) (s.setRespectIgnores b) :=
  ⟨fun j => by cases j <;> rfl, fun _ => rfl⟩

theorem puts_setSeverity (s : Settings) (severity : String) :
    Puts s .severity (.level severity) (s.setSeverity severity) :=
  ⟨fun j => by cases j <;> rfl, fun _ => rfl⟩

theorem puts_setCacheEnabled (s : Settings) (b : Bool) :
    Puts s .cacheEnabled (.flag b) (s.setCacheEnabled b) :=
  ⟨fun j => by cases j <;> rfl, fun _ => rfl⟩

theorem puts_setMaxEntries (s : Settings) (n : Int) :
    Puts s .cacheMaxEntries (.limit n) (s.setMaxEntries n) :=
  ⟨fun j => by cases j <;> rfl, fun _ => rfl⟩

theorem Records.put (h : Records root g s) (hput : Puts s k d t) :
    Records root (Function.update g k (some d)) t := by
  constructor
  · intro j
    rw [hput.value]
    by_cases hj : j = k
    · subst hj
      simp
    · rw [if_neg hj, h.value, Function.update_of_ne hj]
  · intro j
    rw [hput.explicit]
    by_cases hj : j = k
    · subst hj
      simp
    · rw [beq_false_of_ne hj, Bool.false_or, h.explicit, Function.update_of_ne hj]

theorem value_merge (s t : Settings) (k : Setting) :
    (s.merge t).value k = if t.explicit k then t.value k else s.value k := by
  cases k <;> simp only [value, merge, pick] <;> split <;> rfl

/-- What the later source gives comes before what the earlier one gives. -/
theorem Records.merge (hs : Records root g s) (ht : Records root' g' t) :
    Records root (fun k => (g' k).or (g k)) (s.merge t) := by
  constructor
  · intro k
    rw [value_merge, ht.explicit, ht.value, hs.value]
    cases g' k <;> rfl
  · intro k
    change (s.explicit k || t.explicit k) = _
    rw [hs.explicit, ht.explicit]
    cases g' k <;> cases g k <;> rfl

end Settings

end DefaultImports
