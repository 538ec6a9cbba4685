import DefaultImports.Decimal.Shortest
import DefaultImports.Text.Quoted
import DefaultImports.Toml.Moment

/-! The values of configuration files and their texts. -/
namespace DefaultImports.Toml

/-- A table keeps its keys in the order in which they were first given. -/
inductive Value where
  /-- No document has it; it stands for an absent value in data from elsewhere. -/
  | null
  | bool (b : Bool)
  | int (n : Int)
  | float (x : Double)
  | str (s : String)
  | date (d : Date)
  | time (t : Time)
  | moment (m : Moment)
  | array (items : List Value)
  | table (entries : List (String × Value))
deriving Repr

abbrev Table := List (String × Value)

namespace Value

/-- The name of a value's type in messages. -/
def typeName : Value → String
  | .null => "NoneType"
  | .bool _ => "bool"
  | .int _ => "int"
  | .float _ => "float"
  | .str _ => "str"
  | .date _ => "datetime.date"
  | .time _ => "datetime.time"
  | .moment _ => "datetime.datetime"
  | .array _ => "list"
  | .table _ => "dict"

/-- Integers with more decimal digits than this are neither read nor written. -/
def maxDigits : Nat := 4300

/-- The decimal text of an integer, unless it has too many digits. -/
def intText? (n : Int) : Option String :=
  if (Nat.toDigits 10 n.natAbs).length ≤ maxDigits then some (toString n) else none

mutual

/-- The text of a value inside a list or table. It is missing if an integer is too long. -/
def display? : Value → Option String
  | .null => some "None"
  | .bool b => some (if b then "True" else "False")
  | .int n => intText? n
  | .float x => some x.toText
  | .str s => some (Text.quote s)
  | .date d => some d.display
  | .time t => some t.display
  | .moment m => some m.display
  | .array items => do return "[" ++ ", ".intercalate (← displayItems? items) ++ "]"
  | .table entries => do
    return "\x7b" ++ ", ".intercalate (← displayEntries? entries) ++ "\x7d"

def displayItems? : List Value → Option (List String)
  | [] => some []
  | v :: rest => do
    let text ← display? v
    return text :: (← displayItems? rest)

def displayEntries? : List (String × Value) → Option (List String)
  | [] => some []
  | (key, v) :: rest => do
    let text ← display? v
    return (Text.quote key ++ ": " ++ text) :: (← displayEntries? rest)

end

/-- The text of a value on its own: strings and times as they are. -/
def text? : Value → Option String
  | .str s => some s
  | .date d => some d.text
  | .time t => some t.text
  | .moment m => some m.text
  | v => display? v

end Value

end DefaultImports.Toml
