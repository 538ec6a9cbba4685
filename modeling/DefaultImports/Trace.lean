import DefaultImports.Checker
import DefaultImports.SourceFiles

/-! The steps of a run in words, for its log. Nothing here has a part in the verdicts. -/
namespace DefaultImports.Trace

def line (part text : String) : String := "[missingdefault." ++ part ++ "] " ++ text

/-! ## The search for files -/

/-- Ignore files that cannot be read. -/
def ignoreFiles (w : Workspace) (root : Path) : List String :=
  ((IgnoreTree.ignoreFiles w root).filter fun file => (IgnoreTree.text? w file).isNone).map
    fun file => line "discovery" ("could not read " ++ file.toString)

/-- The search for files below a directory, which has found `count` of them. -/
def search (w : Workspace) (respectIgnores : Bool) (root : Path) (count : Nat) : List String :=
  let root := root.resolve w.cwd
  (if respectIgnores then ignoreFiles w root else []) ++
    [line "discovery" ("found " ++ toString count ++ " source files under " ++ root.toString)]

/-! ## Checks -/

def binding (b : Binding) : String :=
  line "scanner" ("found default import '" ++ b.name ++ "' from '" ++ b.specifier ++ "' at line " ++
    toString b.line)

def resolution (w : Workspace) (b : Binding) : List String :=
  if Specifier.isOutOfScope b.specifier then []
  else match Specifier.resolve? w b.specifier b.file with
    | some target => [line "resolver" ("resolved '" ++ b.specifier ++ "' to " ++ target.toString)]
    | none =>
      [line "resolver" ("could not resolve '" ++ b.specifier ++ "' from " ++ b.file.toString)]

/-- The surface of a target is read unless it is remembered. -/
def reading (k : Checker) (target : Path) (c : SurfaceCache) : List String :=
  let key := k.workspace.cwd.join target
  if k.policy.enabled && (c.entries.lookup key).isSome then []
  else
    let failed := match k.workspace.readSource target with
      | .ok _ => []
      | .error e => [line "exports" ("could not read " ++ target.toString ++ ": " ++ e.message)]
    let dropped := SurfaceCache.excess k.policy (c.entries ++ [(key, .empty)])
    if k.policy.enabled && dropped != 0 then
      failed ++
        [line "cache" ("evicted " ++ toString dropped ++ " export surface cache entries")]
    else failed

def verdict (s : Suppression) (target : Path) : Decision → List String
  | .flagged d =>
    let found := line "policy" ("no default export in " ++ target.toString ++ " for '" ++ d.name ++
      "' (" ++ toString d.namedExports.length ++ " named exports)")
    if s.covers d.line then
      [found, line "analyzer" ("ignored diagnostic at " ++ d.file.toString ++ ":" ++
        toString d.line)]
    else [found]
  | _ => []

def evaluation (k : Checker) (s : Suppression) (b : Binding) (c : SurfaceCache) : List String :=
  resolution k.workspace b ++
    match b.target? k.workspace with
    | none => []
    | some target =>
      reading k target c ++
        match (k.evaluate b c).1 with
        | .ok d => verdict s target d
        | .error _ => []

def evaluations (k : Checker) (s : Suppression) : List Binding → SurfaceCache → List String
  | [], _ => []
  | b :: rest, c => evaluation k s b c ++ evaluations k s rest (k.evaluate b c).2

def source (k : Checker) (text : String) (file : Path) (c : SurfaceCache) : List String :=
  let s := Suppression.ofSource text
  if s.fileDisabled then [line "analyzer" ("checking disabled for " ++ file.toString)]
  else
    let bindings := Binding.scan text file
    bindings.map binding ++ evaluations k s bindings c

def file (k : Checker) (file : Path) (c : SurfaceCache) : List String :=
  let file := k.workspace.absolute file
  match k.workspace.readSource file with
  | .ok text => source k text file c
  | .error _ => []

def stats (c : SurfaceCache) : String :=
  line "analyzer" ("export surface cache: \x7b'entries': " ++ toString c.entries.length ++
    ", 'hits': " ++ toString c.hits ++ ", 'misses': " ++ toString c.misses ++ "\x7d")

/-- A pass over some files from a state of the cache on. -/
def filesFrom (k : Checker) : List Path → SurfaceCache → List String
  | [], c => [stats c]
  | p :: rest, c => file k p c ++ filesFrom k rest (k.checkFile p c).2

def files (k : Checker) (paths : List Path) : List String := filesFrom k paths .empty

end DefaultImports.Trace
