import DefaultImports.Surface

/-! A memory of export surfaces for one pass, oldest first. -/
namespace DefaultImports

/-- Why the exports of a module, or the text of a file, cannot be had. -/
inductive Failure where
  | path (e : PathError)
  /-- The module may not be read. -/
  | access (message : String)
  /-- The module has no readable content. -/
  | value (message : String)
  | other (message : String)
deriving DecidableEq, Repr

/-- Failures that only mean that a module cannot be inspected. -/
def Failure.isInspection : Failure → Bool
  | .other _ => false
  | _ => true

def Failure.message : Failure → String
  | .path e => e.message
  | .access m | .value m | .other m => m

/-- How the surface of a module is found out. -/
abbrev Reader := Path → Except Failure Surface

/-- The reader that takes an unreadable module for an empty one. -/
def Reader.ofWorkspace (w : Workspace) : Reader := fun p => .ok (Surface.read w p)

structure CachePolicy where
  enabled : Bool
  /-- Below zero the limit is zero. -/
  maxEntries : Int
deriving DecidableEq, Repr

def CachePolicy.default : CachePolicy := ⟨true, 10000⟩

structure SurfaceCache where
  entries : List (Path × Surface)
  hits : Nat
  misses : Nat
deriving DecidableEq, Repr

namespace SurfaceCache

def empty : SurfaceCache := ⟨[], 0, 0⟩

def keys (c : SurfaceCache) : List Path := c.entries.map (·.1)

/-- How many of the oldest entries are too many. -/
def excess (policy : CachePolicy) (entries : List (Path × Surface)) : Nat :=
  entries.length - policy.maxEntries.toNat

def evict (policy : CachePolicy) (entries : List (Path × Surface)) : List (Path × Surface) :=
  entries.drop (excess policy entries)

def countHit (c : SurfaceCache) : SurfaceCache := { c with hits := c.hits + 1 }

def countMiss (c : SurfaceCache) : SurfaceCache := { c with misses := c.misses + 1 }

/-- Adds the surface of a key that has none, then drops the oldest entries over the limit. -/
def insert (policy : CachePolicy) (key : Path) (s : Surface) (c : SurfaceCache) : SurfaceCache :=
  { c with entries := evict policy (c.entries ++ [(key, s)]) }

/-- The surface of the file `p` as seen from `cwd`: remembered, or read and then remembered.
A failure to read is passed on and not remembered. -/
def get (policy : CachePolicy) (reader : Reader) (cwd p : Path) (c : SurfaceCache) :
    Except Failure Surface × SurfaceCache :=
  let key := cwd.join p
  match if policy.enabled then c.entries.lookup key else none with
  | some s => (.ok s, c.countHit)
  | none =>
    match reader p with
    | .error e => (.error e, c.countMiss)
    | .ok s => (.ok s, if policy.enabled then c.countMiss.insert policy key s else c.countMiss)

def invalidate (cwd p : Path) (c : SurfaceCache) : SurfaceCache :=
  { c with entries := c.entries.filter (·.1 != cwd.join p) }

def clear (c : SurfaceCache) : SurfaceCache := { c with entries := [] }

end SurfaceCache

end DefaultImports
