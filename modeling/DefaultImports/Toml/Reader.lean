import DefaultImports.Text.Split
import DefaultImports.Text.Utf8
import DefaultImports.Toml.Scalar

/-! Reading whole documents. -/
namespace DefaultImports.Toml

open DefaultImports.Text (isAsciiDigit isAsciiLetter)

def orMalformed {α : Type} : Option α → Except Error α
  | some a => .ok a
  | none => .error .malformed

/-! ## Blanks and comments -/

def isBlank (c : Char) : Bool := c == ' ' || c == '\t'

def skipBlanks (s : List Char) : List Char := s.dropWhile isBlank

/-- Control characters; a tab is none. -/
def isControl (c : Char) : Bool := (c.toNat < 32 && c != '\t') || c.toNat == 127

/-- Skips a comment up to the end of its line. -/
def skipComment : List Char → Except Error (List Char)
  | '#' :: rest =>
    if (rest.takeWhile (· != '\n')).any isControl then .error .malformed
    else .ok (rest.dropWhile (· != '\n'))
  | s => .ok s

/-- Skips blanks, line breaks and comments between the items of a list. -/
def skipFiller : (inComment : Bool) → List Char → Except Error (List Char)
  | _, [] => .ok []
  | true, c :: rest =>
    if c == '\n' then skipFiller false rest
    else if isControl c then .error .malformed
    else skipFiller true rest
  | false, c :: rest =>
    if isBlank c || c == '\n' then skipFiller false rest
    else if c == '#' then skipFiller true rest
    else .ok (c :: rest)

/-! ## Strings -/

/-- The character with a code of `n` hexadecimal digits. Surrogates are no characters. -/
def codePoint? (n : Nat) (s : List Char) : Option Char := do
  let ds := s.take n
  guard (ds.length == n && ds.all isHexDigit)
  let code := natOf 16 ds
  guard (code < 0xD800 || (0xDFFF < code && code ≤ 0x10FFFF))
  return Char.ofNat code

/-- How many characters a backslash at the end of a line takes away: the rest of the line, and
all blanks and line breaks after it. -/
def lineEnd? (s : List Char) : Option Nat :=
  match skipBlanks s with
  | [] => some s.length
  | '\n' :: rest => some (s.length - (rest.dropWhile fun c => isBlank c || c == '\n').length)
  | _ => none

/-- What stands for a backslash and the text `s` behind it, and how many characters of `s`
belong to it. -/
def escape? (multiline : Bool) (s : List Char) : Option (List Char × Nat) :=
  match s with
  | [] => none
  | c :: rest =>
    if multiline && (isBlank c || c == '\n') then (lineEnd? s).map ([], ·)
    else match c with
      | 'b' => some (['\x08'], 1)
      | 't' => some (['\t'], 1)
      | 'n' => some (['\n'], 1)
      | 'f' => some (['\x0c'], 1)
      | 'r' => some (['\r'], 1)
      | '"' => some (['"'], 1)
      | '\\' => some (['\\'], 1)
      | 'u' => (codePoint? 4 rest).map fun c => ([c], 5)
      | 'U' => (codePoint? 8 rest).map fun c => ([c], 9)
      | _ => none

def prepend (cs : List Char) (r : Option (List Char × List Char)) :
    Option (List Char × List Char) :=
  r.map fun (body, rest) => (cs ++ body, rest)

/-- The rest of a string in double quotes; the first `skip` characters are read already. Three
quotes end a string of several lines. -/
def basicFrom (multiline : Bool) : (skip : Nat) → List Char → Option (List Char × List Char)
  | _, [] => none
  | skip + 1, _ :: rest => basicFrom multiline skip rest
  | 0, c :: rest =>
    if c == '"' then
      if !multiline then some ([], rest)
      else if ['"', '"'].isPrefixOf rest then some ([], rest.drop 2)
      else prepend [c] (basicFrom multiline 0 rest)
    else if c == '\\' then do
      let (cs, n) ← escape? multiline rest
      prepend cs (basicFrom multiline n rest)
    else if isControl c && !(multiline && c == '\n') then none
    else prepend [c] (basicFrom multiline 0 rest)

/-- The rest of a string in single quotes, in which nothing is escaped. -/
def literalFrom (multiline : Bool) : List Char → Option (List Char × List Char)
  | [] => none
  | c :: rest =>
    if c == '\x27' && (!multiline || ['\x27', '\x27'].isPrefixOf rest) then
      some ([], if multiline then rest.drop 2 else rest)
    else if isControl c && !(multiline && c == '\n') then none
    else prepend [c] (literalFrom multiline rest)

/-- Up to two quotes right before the closing three belong to the string. -/
def closingQuotes (mark : Char) (body : List Char) : List Char → List Char × List Char
  | c :: d :: rest =>
    if c != mark then (body, c :: d :: rest)
    else if d != mark then (body ++ [mark], d :: rest)
    else (body ++ [mark, mark], rest)
  | [c] => if c == mark then (body ++ [mark], []) else (body, [c])
  | [] => (body, [])

/-- A string of several lines; a line break right behind the opening quotes does not count. -/
def multilineFrom (mark : Char) (s : List Char) : Option (List Char × List Char) := do
  let s := if s.head? == some '\n' then s.tail else s
  let (body, rest) ← if mark == '"' then basicFrom true 0 s else literalFrom true s
  return closingQuotes mark body rest

/-- A string on one line, given the text behind the opening quote. -/
def lineFrom (mark : Char) (s : List Char) : Option (List Char × List Char) :=
  if mark == '"' then basicFrom false 0 s else literalFrom false s

/-- A string, given the text behind the opening quote. -/
def stringFrom (mark : Char) (s : List Char) : Option (List Char × List Char) :=
  if [mark, mark].isPrefixOf s then multilineFrom mark (s.drop 2) else lineFrom mark s

/-! ## Keys -/

def isBareKeyChar (c : Char) : Bool := isAsciiLetter c || isAsciiDigit c || c == '-' || c == '_'

def isQuote (c : Char) : Bool := c == '"' || c == '\x27'

def keyPart : List Char → Except Error (String × List Char)
  | [] => .error .malformed
  | c :: rest =>
    if isBareKeyChar c then
      .ok (String.ofList ((c :: rest).takeWhile isBareKeyChar), (c :: rest).dropWhile isBareKeyChar)
    else if isQuote c then do
      let (body, rest) ← orMalformed (lineFrom c rest)
      return (String.ofList body, rest)
    else .error .malformed

/-- A key, perhaps dotted, and the blanks behind it. -/
def key : (fuel : Nat) → List Char → Except Error (Key × List Char)
  | 0, _ => .error .malformed
  | fuel + 1, s => do
    let (part, s) ← keyPart s
    match skipBlanks s with
    | '.' :: rest =>
      let (parts, s) ← key fuel (skipBlanks rest)
      return (part :: parts, s)
    | s => return ([part], s)

/-! ## Values -/

/-- The entries of a table in braces so far, and the keys in it whose values are closed. -/
structure Inline where
  entries : Table
  frozen : List Key

def Inline.add (t : Inline) (key : Key) (v : Value) : Option Inline := do
  guard (!t.frozen.any (·.isPrefixOf key))
  let last ← key.getLast?
  let entries ← Table.modifyAt false (Table.insertNew last v) key.dropLast t.entries
  return ⟨entries, if v.isNested then key :: t.frozen else t.frozen⟩

mutual

/-- A value. Each step down or on takes at least one character, so the length of the document
is fuel enough. -/
def value : (fuel : Nat) → List Char → Except Error (Value × List Char)
  | 0, _ => .error .malformed
  | fuel + 1, s =>
    match s with
    | '[' :: rest => do
      match ← skipFiller false rest with
      | ']' :: rest => return (.array [], rest)
      | rest =>
        let (items, rest) ← items fuel rest
        return (.array items, rest)
    | '\x7b' :: rest =>
      match skipBlanks rest with
      | '\x7d' :: rest => .ok (.table [], rest)
      | rest => entries fuel ⟨[], []⟩ rest
    | 't' :: 'r' :: 'u' :: 'e' :: rest => .ok (.bool true, rest)
    | 'f' :: 'a' :: 'l' :: 's' :: 'e' :: rest => .ok (.bool false, rest)
    | c :: rest =>
      if isQuote c then do
        let (body, rest) ← orMalformed (stringFrom c rest)
        return (.str (String.ofList body), rest)
      else scalar (c :: rest)
    | [] => .error .malformed

/-- The items of a list up to its end. A comma may stand behind the last one. -/
def items : (fuel : Nat) → List Char → Except Error (List Value × List Char)
  | 0, _ => .error .malformed
  | fuel + 1, s => do
    let (v, s) ← value fuel s
    match ← skipFiller false s with
    | ']' :: rest => return ([v], rest)
    | ',' :: rest =>
      match ← skipFiller false rest with
      | ']' :: rest => return ([v], rest)
      | rest =>
        let (vs, rest) ← items fuel rest
        return (v :: vs, rest)
    | _ => throw .malformed

/-- The entries of a table in braces up to its end. -/
def entries : (fuel : Nat) → Inline → List Char → Except Error (Value × List Char)
  | 0, _, _ => .error .malformed
  | fuel + 1, t, s => do
    let (key, s) ← key fuel s
    let s ← orMalformed (mark? '=' s)
    let (v, s) ← value fuel (skipBlanks s)
    let t ← orMalformed (t.add key v)
    match skipBlanks s with
    | '\x7d' :: rest => return (.table t.entries, rest)
    | ',' :: rest => entries fuel t (skipBlanks rest)
    | _ => throw .malformed

end

/-! ## Documents -/

/-- A header in brackets, given the text behind the first one. -/
def header (fuel : Nat) (d : Document) : List Char → Except Error (Document × List Char)
  | '[' :: rest => do
    let (key, s) ← key fuel (skipBlanks rest)
    let d ← orMalformed (d.openItem key)
    return (d, ← orMalformed (mark? ']' (← orMalformed (mark? ']' s))))
  | s => do
    let (key, s) ← key fuel (skipBlanks s)
    let d ← orMalformed (d.openTable key)
    return (d, ← orMalformed (mark? ']' s))

def keyValue (fuel : Nat) (d : Document) (s : List Char) : Except Error (Document × List Char) := do
  let (key, s) ← key fuel s
  let s ← orMalformed (mark? '=' s)
  let (v, s) ← value fuel (skipBlanks s)
  return (← orMalformed (d.add key v), s)

/-- What a line holds before its comment. -/
def statement (fuel : Nat) (d : Document) : List Char → Except Error (Document × List Char)
  | [] => .ok (d, [])
  | c :: rest =>
    if c == '\n' || c == '#' then .ok (d, c :: rest)
    else if c == '[' then header fuel d rest
    else if isBareKeyChar c || isQuote c then keyValue fuel d (c :: rest)
    else .error .malformed

def statements : (fuel : Nat) → Document → List Char → Except Error Table
  | 0, _, _ => .error .malformed
  | fuel + 1, d, s => do
    let (d, s) ← statement fuel d (skipBlanks s)
    match ← skipComment (skipBlanks s) with
    | [] => return d.root
    | '\n' :: rest => statements fuel d rest
    | _ => throw .malformed

/-- Line breaks of two characters count as one; a lone `\r` is an error where it stands. -/
def joinNewlines : List Char → List Char
  | [] => []
  | '\r' :: '\n' :: rest => '\n' :: joinNewlines rest
  | c :: rest => c :: joinNewlines rest

def parse (text : List Char) : Except Error Table :=
  let text := joinNewlines text
  statements (text.length + 1) .empty text

end DefaultImports.Toml
