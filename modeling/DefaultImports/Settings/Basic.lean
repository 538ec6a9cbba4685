import DefaultImports.FileFilter
import DefaultImports.SurfaceCache

/-! The settings of a run, and how those of one source override those of another. -/
namespace DefaultImports

/-- The settings that a source can give. -/
inductive Setting where
  | cacheEnabled
  | cacheMaxEntries
  | excluded
  | included
  | projectRoot
  | respectIgnores
  | severity
deriving DecidableEq, Repr

namespace Setting

def name : Setting → String
  | .cacheEnabled => "cache.enabled"
  | .cacheMaxEntries => "cache.max_entries"
  | .excluded => "exclude"
  | .included => "include"
  | .projectRoot => "project_root"
  | .respectIgnores => "respect_gitignore"
  | .severity => "severity"

/-- All settings in the order of their names. -/
def all : List Setting :=
  [.cacheEnabled, .cacheMaxEntries, .excluded, .included, .projectRoot, .respectIgnores, .severity]

def ofName? (s : String) : Option Setting := all.find? (·.name == s)

end Setting

structure Settings where
  projectRoot : Path
  filter : FileFilter
  respectIgnores : Bool
  severity : String
  cache : CachePolicy
  /-- The settings that a source has given; the others have their defaults. -/
  explicit : Setting → Bool

namespace Settings

def severities : List String := ["error", "warning", "info"]

def default (root : Path) : Settings where
  projectRoot := root
  filter := .default
  respectIgnores := true
  severity := "error"
  cache := .default
  explicit := fun _ => false

def mark (s : Settings) (k : Setting) : Settings :=
  { s with explicit := fun j => j == k || s.explicit j }

def setIncluded (s : Settings) (patterns : List String) : Settings :=
  { s with filter := { s.filter with included := patterns } }.mark .included

def setExcluded (s : Settings) (patterns : List String) : Settings :=
  { s with filter := { s.filter with excluded := patterns } }.mark .excluded

def setRespectIgnores (s : Settings) (b : Bool) : Settings :=
  { s with respectIgnores := b }.mark .respectIgnores

def setSeverity (s : Settings) (severity : String) : Settings :=
  { s with severity }.mark .severity

def setCacheEnabled (s : Settings) (b : Bool) : Settings :=
  { s with cache := { s.cache with enabled := b } }.mark .cacheEnabled

def setMaxEntries (s : Settings) (n : Int) : Settings :=
  { s with cache := { s.cache with maxEntries := n } }.mark .cacheMaxEntries

/-- A value from `other` if it was explicitly given the setting, and from `s` otherwise. -/
def pick {α : Type} (s other : Settings) (k : Setting) (f : Settings → α) : α :=
  if other.explicit k then f other else f s

/-- Takes from `other` what it was explicitly given, and the rest from `s`. -/
def merge (s other : Settings) : Settings where
  projectRoot := s.pick other .projectRoot (·.projectRoot)
  filter :=
    { included := s.pick other .included (·.filter.included)
      excluded := s.pick other .excluded (·.filter.excluded) }
  respectIgnores := s.pick other .respectIgnores (·.respectIgnores)
  severity := s.pick other .severity (·.severity)
  cache :=
    { enabled := s.pick other .cacheEnabled (·.cache.enabled)
      maxEntries := s.pick other .cacheMaxEntries (·.cache.maxEntries) }
  explicit := fun k => s.explicit k || other.explicit k

end Settings

end DefaultImports
