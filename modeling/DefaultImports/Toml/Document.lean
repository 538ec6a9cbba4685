import DefaultImports.Toml.Value

/-! A document while it is read: the tables so far, and which of them are closed. -/
namespace DefaultImports.Toml

abbrev Key := List String

/-- Why a document cannot be read. -/
inductive Error where
  | malformed
  /-- A decimal integer with this many digits. -/
  | integerTooLong (digits : Nat)
deriving DecidableEq, Repr

namespace Table

/-- Replaces the value of a key that is there. -/
def replace (key : String) (v : Value) (t : Table) : Table :=
  t.map fun e => if e.1 == key then (key, v) else e

/-- Changes the table behind a key by `f` and makes the tables on the way that are missing. A
list of tables stands for its last one if `throughLists` holds. Fails if something else is on
the way. -/
def modifyAt (throughLists : Bool) (f : Table → Option Table) : Key → Table → Option Table
  | [], t => f t
  | k :: ks, t =>
    match t.lookup k with
    | none => (modifyAt throughLists f ks []).map fun sub => t ++ [(k, .table sub)]
    | some (.table sub) =>
      (modifyAt throughLists f ks sub).map fun sub => replace k (.table sub) t
    | some (.array items) =>
      match throughLists, items.getLast? with
      | true, some (.table sub) =>
        (modifyAt throughLists f ks sub).map fun sub =>
          replace k (.array (items.dropLast ++ [.table sub])) t
      | _, _ => none
    | some _ => none

/-- Adds a key that is not there yet. -/
def insertNew (key : String) (v : Value) (t : Table) : Option Table :=
  if (t.lookup key).isSome then none else some (t ++ [(key, v)])

/-- Adds an empty table to the list behind a key, which may be missing. -/
def appendTable (key : String) (t : Table) : Option Table :=
  match t.lookup key with
  | none => some (t ++ [(key, .array [.table []])])
  | some (.array items) => some (replace key (.array (items ++ [.table []])) t)
  | some _ => none

end Table

def Value.isNested : Value → Bool
  | .array _ | .table _ => true
  | _ => false

structure Document where
  root : Table
  /-- The table that keys are added to. -/
  header : Key
  /-- Tables that no header may open and no dotted key may extend any more. -/
  declared : List Key
  /-- Tables made by dotted keys; they become declared at the next header. -/
  pending : List Key
  /-- Lists and tables given as values. Nothing may be added at or below them. -/
  frozen : List Key

namespace Document

def empty : Document := ⟨[], [], [], [], []⟩

def isFrozen (d : Document) (key : Key) : Bool := d.frozen.any (·.isPrefixOf key)

def settle (d : Document) : Document :=
  { d with declared := d.declared ++ d.pending, pending := [] }

/-- Opens a table by a header `[key]`. -/
def openTable (d : Document) (key : Key) : Option Document := do
  let d := d.settle
  guard (!d.declared.contains key && !d.isFrozen key)
  let root ← Table.modifyAt true some key d.root
  return { d with root, header := key, declared := key :: d.declared }

/-- Adds a table to a list by a header `[[key]]`. What was below the key before is forgotten. -/
def openItem (d : Document) (key : Key) : Option Document := do
  let d := d.settle
  guard (!d.isFrozen key)
  let keep (ks : List Key) := ks.filter fun k => !key.isPrefixOf k
  let last ← key.getLast?
  let root ← Table.modifyAt true (Table.appendTable last) key.dropLast d.root
  return { d with
    root, header := key, declared := key :: keep d.declared, frozen := keep d.frozen }

/-- The proper prefixes of a dotted key, seen from the open table. -/
def dottedTables (d : Document) (key : Key) : List Key :=
  (List.range (key.length - 1)).map fun i => d.header ++ key.take (i + 1)

/-- Adds a key to the open table. -/
def add (d : Document) (key : Key) (v : Value) : Option Document := do
  let tables := d.dottedTables key
  guard (!tables.any d.declared.contains)
  let parent := d.header ++ key.dropLast
  guard (!d.isFrozen parent)
  let last ← key.getLast?
  let root ← Table.modifyAt true (Table.insertNew last v) parent d.root
  let frozen := if v.isNested then (d.header ++ key) :: d.frozen else d.frozen
  return { d with root, frozen, pending := tables ++ d.pending }

end Document

end DefaultImports.Toml
