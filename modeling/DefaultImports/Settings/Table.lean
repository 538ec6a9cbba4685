import DefaultImports.Settings.Basic
import DefaultImports.Toml.Reader

/-! Settings from configuration files. -/
namespace DefaultImports

inductive SettingsError where
  | path (e : PathError)
  | encoding (f : Utf8.Fault)
  /-- The name `tool` stands for a value of the given type and not for a table. -/
  | toolNotTable (typeName : String)
  | integerTooLong (digits : Nat)
  /-- An integer in a list of patterns has too many digits to be written. -/
  | integerUnprintable
deriving DecidableEq, Repr

/-- What to do about integers that are too long. -/
def digitLimitHint : String := "use sys.set_int_max_str_digits() to increase the limit"

def digitLimitText : String :=
  "Exceeds the limit (" ++ toString Toml.Value.maxDigits ++ " digits) for integer string conversion"

def SettingsError.message : SettingsError → String
  | .path e => e.message
  | .encoding f => f.message
  | .toolNotTable typeName => "'" ++ typeName ++ "' object has no attribute 'get'"
  | .integerTooLong digits =>
    digitLimitText ++ ": value has " ++ toString digits ++ " digits; " ++ digitLimitHint
  | .integerUnprintable => digitLimitText ++ "; " ++ digitLimitHint

namespace Settings

open Toml

/-- ASCII capitals become small. No other character is a capital form of a letter in the words
that are compared here. -/
def lower (s : String) : String := String.ofList (s.toList.map Char.toLower)

/-- A known severity, in any case. -/
def severity? (s : String) : Option String := severities.find? (· == lower s)

def texts : List Value → Except SettingsError (List String)
  | [] => .ok []
  | v :: rest =>
    match v.text? with
    | none => .error .integerUnprintable
    | some text => (text :: ·) <$> texts rest

def readIncluded (s : Settings) : Option Value → Except SettingsError Settings
  | some (.array items) => s.setIncluded <$> texts items
  | _ => .ok s

def readExcluded (s : Settings) : Option Value → Except SettingsError Settings
  | some (.array items) => s.setExcluded <$> texts items
  | _ => .ok s

def readRespectIgnores (s : Settings) : Option Value → Settings
  | some (.bool b) => s.setRespectIgnores b
  | _ => s

def readSeverity (s : Settings) : Option Value → Settings
  | some (.str text) => ((severity? text).map s.setSeverity).getD s
  | _ => s

def readCacheEnabled (s : Settings) : Option Value → Settings
  | some (.bool b) => s.setCacheEnabled b
  | _ => s

def readMaxEntries (s : Settings) : Option Value → Settings
  | some (.int n) => if 0 ≤ n then s.setMaxEntries n else s
  | _ => s

def readCache (s : Settings) : Option Value → Settings
  | some (.table t) =>
    (s.readCacheEnabled (t.lookup "enabled")).readMaxEntries (t.lookup "max_entries")
  | _ => s

/-- The settings in a table. Unknown keys and values of the wrong kind count as absent. -/
def ofTable (root : Path) (t : Table) : Except SettingsError Settings := do
  let s ← (default root).readIncluded (t.lookup "include")
  let s ← s.readExcluded (t.lookup "exclude")
  return ((s.readRespectIgnores (t.lookup "respect_gitignore")).readSeverity
    (t.lookup "severity")).readCache (t.lookup "cache")

/-- The content of a configuration file. A file that is missing, cannot be opened or is
malformed has none. -/
def readTable? (w : Workspace) (file : Path) : Except SettingsError (Option Table) := do
  let some _ ← (w.probe file).mapError .path | return none
  match w.readBytes file with
  | .error _ => return none
  | .ok bytes =>
    match parse (← (Utf8.decode bytes).mapError .encoding) with
    | .ok t => return some t
    | .error .malformed => return none
    | .error (.integerTooLong digits) => throw (.integerTooLong digits)

/-- The table of this program in a file that several tools share. -/
def toolTable? (t : Table) : Except SettingsError (Option Table) :=
  match t.lookup "tool" with
  | none => .ok none
  | some (.table tools) =>
    match tools.lookup "missingdefault" with
    | some (.table own) => .ok (some own)
    | _ => .ok none
  | some v => .error (.toolNotTable v.typeName)

/-- The settings in the shared configuration file of a project. -/
def ofSharedFile? (w : Workspace) (root : Path) : Except SettingsError (Option Settings) := do
  let some t ← readTable? w (root.child "pyproject.toml") | return none
  let some own ← toolTable? t | return none
  some <$> ofTable root own

/-- The settings in a project's own configuration file. -/
def ofOwnFile? (w : Workspace) (root : Path) : Except SettingsError (Option Settings) := do
  let some t ← readTable? w (root.child ".missingdefault.toml") | return none
  some <$> ofTable root t

end Settings

end DefaultImports
