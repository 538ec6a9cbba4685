import DefaultImports.Text.Printable

/-! Text in quotes on one line, as messages show it. -/
namespace DefaultImports.Text

/-- `n` in base 16 with lower-case digits, padded with zeros to `width` places; higher
digits are dropped. -/
def hex : (width n : Nat) → List Char
  | 0, _ => []
  | w + 1, n => hex w (n / 16) ++ [Nat.digitChar (n % 16)]

/-- The shortest of the three numeric escapes that holds the code point of `c`. -/
def escapeCode (c : Char) : List Char :=
  let n := c.toNat
  if n < 0x100 then '\\' :: 'x' :: hex 2 n
  else if n < 0x10000 then '\\' :: 'u' :: hex 4 n
  else '\\' :: 'U' :: hex 8 n

def escapeIn (mark : Char) (c : Char) : List Char :=
  if c == '\\' || c == mark then ['\\', c]
  else if c == '\n' then ['\\', 'n']
  else if c == '\t' then ['\\', 't']
  else if c == '\r' then ['\\', 'r']
  else if isPrintable c then [c]
  else escapeCode c

/-- Single quotes, unless the text has a single quote and no double quote. -/
def quoteMark (s : List Char) : Char :=
  if s.contains '\x27' && !s.contains '"' then '"' else '\x27'

/-- The text between quotes; the quote, the backslash and everything unprintable is escaped. -/
def quote (s : String) : String :=
  let mark := quoteMark s.toList
  String.ofList (mark :: s.toList.flatMap (escapeIn mark) ++ [mark])

end DefaultImports.Text
