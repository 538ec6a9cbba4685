import DefaultImports.Text.Quoted

/-! JSON documents in plain ASCII, indented by two blanks a level. -/
namespace DefaultImports

inductive JsonValue where
  | null
  | int (n : Int)
  | str (s : String)
  | list (items : List JsonValue)
  | object (fields : List (String × JsonValue))
deriving Repr

namespace JsonValue

/-- A 16-bit unit as an escape. -/
def escapeUnit (n : Nat) : List Char := '\\' :: 'u' :: Text.hex 4 n

/-- Everything but printable ASCII is escaped; above 16 bits, as two surrogates. -/
def escape (c : Char) : List Char :=
  let n := c.toNat
  if c == '"' || c == '\\' then ['\\', c]
  else if c == '\n' then ['\\', 'n']
  else if c == '\r' then ['\\', 'r']
  else if c == '\t' then ['\\', 't']
  else if n == 8 then ['\\', 'b']
  else if n == 12 then ['\\', 'f']
  else if 32 ≤ n && n < 127 then [c]
  else if n < 0x10000 then escapeUnit n
  else escapeUnit (0xD800 + (n - 0x10000) / 0x400) ++ escapeUnit (0xDC00 + (n - 0x10000) % 0x400)

def quoted (s : String) : String := String.ofList ('"' :: s.toList.flatMap escape ++ ['"'])

/-- The start of a line at some depth. -/
def newline (depth : Nat) : String := "\n" ++ String.ofList (List.replicate (2 * depth) ' ')

/-- Items between an opening and a closing mark, one on each line. -/
def block (opening closing : String) (depth : Nat) (items : List String) : String :=
  if items.isEmpty then opening ++ closing
  else
    opening ++ newline (depth + 1) ++ ("," ++ newline (depth + 1)).intercalate items ++
      newline depth ++ closing

mutual

def renderAt (depth : Nat) : JsonValue → String
  | .null => "null"
  | .int n => toString n
  | .str s => quoted s
  | .list items => block "[" "]" depth (renderItems (depth + 1) items)
  | .object fields => block "\x7b" "\x7d" depth (renderFields (depth + 1) fields)

def renderItems (depth : Nat) : List JsonValue → List String
  | [] => []
  | v :: rest => renderAt depth v :: renderItems depth rest

def renderFields (depth : Nat) : List (String × JsonValue) → List String
  | [] => []
  | (key, v) :: rest => (quoted key ++ ": " ++ renderAt depth v) :: renderFields depth rest

end

def render (v : JsonValue) : String := renderAt 0 v

end JsonValue

end DefaultImports
