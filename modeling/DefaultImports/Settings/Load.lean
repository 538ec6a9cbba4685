import DefaultImports.Settings.Table

/-! Settings from the environment, and from all sources together. -/
namespace DefaultImports

/-- The environment variables that are looked at. An empty value counts as none. -/
structure Environment where
  severity : Option String
  noCache : Option String
  respectIgnores : Option String
  maxEntries : Option String
deriving Repr

namespace Settings

def isTruthy (s : String) : Bool := ["true", "1", "yes"].contains (lower s)

/-- Blanks that may surround a number. -/
def isNumberSpace (c : Char) : Bool := Text.isSpace c && !(28 ≤ c.toNat && c.toNat ≤ 31)

/-- Digits with single underscores between them. -/
def digitValues? : List Char → Option (List Nat)
  | [] => none
  | [c] => (Text.digit? c).map ([·])
  | c :: '_' :: rest => do
    let d ← Text.digit? c
    return d :: (← digitValues? rest)
  | c :: rest => do
    let d ← Text.digit? c
    return d :: (← digitValues? rest)

/-- A decimal integer with digits of any script, an optional sign and blanks around it. -/
def integer? (s : String) : Option Int := do
  let s := ((s.toList.dropWhile isNumberSpace).reverse.dropWhile isNumberSpace).reverse
  let (negative, digits) := match s with
    | '-' :: rest => (true, rest)
    | '+' :: rest => (false, rest)
    | s => (false, s)
  let ds ← digitValues? digits
  guard (ds.length ≤ Toml.Value.maxDigits)
  let n : Int := Text.ofDigits 10 ds
  return if negative then -n else n

def given (v : Option String) : Option String := v.filter (!·.isEmpty)

def readEnvSeverity (s : Settings) (v : Option String) : Settings :=
  (((given v).bind severity?).map s.setSeverity).getD s

def readEnvNoCache (s : Settings) (v : Option String) : Settings :=
  ((given v).map fun v => s.setCacheEnabled (!isTruthy v)).getD s

def readEnvRespectIgnores (s : Settings) (v : Option String) : Settings :=
  ((given v).map fun v => s.setRespectIgnores (isTruthy v)).getD s

def readEnvMaxEntries (s : Settings) (v : Option String) : Settings :=
  match (given v).bind integer? with
  | some n => if 0 ≤ n then s.setMaxEntries n else s
  | none => s

def ofEnvironment (cwd : Path) (e : Environment) : Settings :=
  ((((default cwd).readEnvSeverity e.severity).readEnvNoCache e.noCache).readEnvRespectIgnores
    e.respectIgnores).readEnvMaxEntries e.maxEntries

def mergeSome (s : Settings) (other : Option Settings) : Settings := (other.map s.merge).getD s

/-- The settings of a project: each source overrides the ones before it, from the defaults over
the two files to the environment. -/
def load (w : Workspace) (e : Environment) (root : Path) : Except SettingsError Settings := do
  let root ← (w.resolve root).mapError .path
  let s := (default root).mergeSome (← ofSharedFile? w root)
  let s := s.mergeSome (← ofOwnFile? w root)
  return s.merge (ofEnvironment w.cwd e)

end Settings

end DefaultImports
