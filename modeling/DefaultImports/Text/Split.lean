/-! Cutting a text at a character. -/
namespace DefaultImports.Text

/-- The pieces between the characters that satisfy `p`, in order; always at least one. -/
def split (p : Char → Bool) : List Char → List (List Char)
  | [] => [[]]
  | c :: rest =>
    if p c then [] :: split p rest
    else match split p rest with
      | [] => [[c]]
      | piece :: pieces => (c :: piece) :: pieces

/-- `split` undone for a separator of one character. -/
def join (sep : Char) : List (List Char) → List Char
  | [] => []
  | [piece] => piece
  | piece :: pieces => piece ++ sep :: join sep pieces

def lines (s : List Char) : List (List Char) := split (· == '\n') s

/-- Every line break, `\r\n` and a lone `\r` included, becomes `\n`. -/
def unifyNewlines : List Char → List Char
  | [] => []
  | '\r' :: '\n' :: rest => '\n' :: unifyNewlines rest
  | '\r' :: rest => '\n' :: unifyNewlines rest
  | c :: rest => c :: unifyNewlines rest

/-- The characters that end a line of a rule file. -/
def isLineBreak (c : Char) : Bool :=
  let n := c.toNat
  (10 ≤ n && n ≤ 13) || (28 ≤ n && n ≤ 30) || n == 0x85 || n == 0x2028 || n == 0x2029

/-- The lines of a text whose newlines are unified. A break at the very end starts no line. -/
def breakLines (s : List Char) : List (List Char) :=
  let pieces := split isLineBreak s
  if pieces.getLast? = some [] then pieces.dropLast else pieces

end DefaultImports.Text
