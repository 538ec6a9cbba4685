import DefaultImports.Ignore.Expression.Reader
import DefaultImports.Text.Space

/-! The lines of an ignore file and the paths they apply to. The wildcards of a line are written as
an expression, and the rule applies where that expression occurs. -/
namespace DefaultImports

/-- Why a line cannot be used. -/
inductive IgnoreError where
  /-- Nothing is left of the line, or of a bracket in it. -/
  | truncated
  /-- The line makes no expression. This shows when the rule is applied. -/
  | malformed
deriving DecidableEq, Repr

def IgnoreError.message : IgnoreError → String
  | .truncated => "string index out of range"
  | .malformed => "malformed rule"

structure IgnoreRule where
  negated : Bool
  /-- Missing for a malformed rule. -/
  expression : Option Expression

namespace IgnoreRule

/-! ## The text of a rule -/

def countStars (s : List Char) : Nat := (s.takeWhile (· == '*')).length

/-- Two or more stars behind anything but a slash count as one. -/
def squeezeAfter : (skip : Nat) → List Char → List Char
  | _, [] => []
  | skip + 1, _ :: rest => squeezeAfter skip rest
  | 0, c :: rest =>
    let n := countStars rest
    if c != '/' && 2 ≤ n then c :: '*' :: squeezeAfter n rest else c :: squeezeAfter 0 rest

/-- Two or more stars before anything but a slash count as one. With a slash or nothing behind
them, the last of three or more stars is itself what the others stand before. -/
def squeezeBefore : (skip : Nat) → List Char → List Char
  | _, [] => []
  | skip + 1, _ :: rest => squeezeBefore skip rest
  | 0, c :: rest =>
    let n := countStars (c :: rest)
    if n < 2 then c :: squeezeBefore 0 rest
    else match (rest.drop (n - 1)).head?.filter (· != '/') with
      | some d => '*' :: d :: squeezeBefore n rest
      | none =>
        if n == 2 then c :: squeezeBefore 0 rest
        else '*' :: '*' :: squeezeBefore (n - 1) rest

/-- Takes blanks off the end of a text that is given last character first. An escaped blank
loses its backslash and stays, and so do the blanks before it. The first two characters of the
text are left alone. -/
def trimBlanks : (strip : Bool) → List Char → List Char
  | strip, ' ' :: c :: d :: rest =>
    if c == '\\' then ' ' :: trimBlanks false (d :: rest)
    else if strip then trimBlanks true (c :: d :: rest)
    else ' ' :: trimBlanks false (c :: d :: rest)
  | _, s => s

/-- Takes a slash off the front of what must not be empty. -/
def dropSlash : List Char → Except IgnoreError (List Char)
  | [] => .error .truncated
  | '/' :: rest => .ok rest
  | s => .ok s

/-- Takes a slash off the end of what must not be empty. -/
def dropLastSlash (s : List Char) : Except IgnoreError (List Char) :=
  match s.getLast? with
  | none => .error .truncated
  | some c => .ok (if c == '/' then s.dropLast else s)

/-- Two stars in front let a rule apply at any depth: the answer says whether they were
there. -/
def dropStars : List Char → Except IgnoreError (List Char × Bool)
  | [] => .error .truncated
  | '*' :: '*' :: rest => .ok (rest, true)
  | s => .ok (s, false)

/-- A leading `#` or `!` is escaped by a backslash. -/
def unescapeStart : List Char → Except IgnoreError (List Char)
  | [] | ['\\'] => .error .truncated
  | '\\' :: c :: rest => .ok (if c == '#' || c == '!' then c :: rest else '\\' :: c :: rest)
  | s => .ok s

/-! ## The expression of a rule -/

/-- The text that stands for one character. -/
def literal (c : Char) : List Char := ['\\', c]

/-- The set with the given text. Slashes do not count, and something must be left. -/
def setText (body : List Char) : Except IgnoreError (List Char) :=
  match (body.filter (· != '/')).flatMap fun c => if c == '\\' then literal c else [c] with
  | [] => .error .truncated
  | '!' :: rest => .ok ('[' :: '^' :: rest ++ [']'])
  | '^' :: rest => .ok ('[' :: literal '^' ++ rest ++ [']'])
  | s => .ok ('[' :: s ++ [']'])

/-- Writes wildcards as an expression; the first `skip` characters belong to the wildcard
before. Two stars and a slash are any number of directories, two stars elsewhere any text on
one line, and one star any text without a slash. A set that is left with nothing but its
negation goes on through the text of what follows, up to the next closing bracket there. -/
def writeFrom : (skip : Nat) → List Char → Except IgnoreError (List Char)
  | _, [] => .ok []
  | skip + 1, _ :: rest => writeFrom skip rest
  | 0, c :: rest =>
    match c, rest with
    | '*', '*' :: '/' :: _ => ("(.*[/])?".toList ++ ·) <$> writeFrom 2 rest
    | '*', '*' :: _ => (".*".toList ++ ·) <$> writeFrom 1 rest
    | '*', _ => ("[^/]*".toList ++ ·) <$> writeFrom 0 rest
    | '?', _ => ("[^/]".toList ++ ·) <$> writeFrom 0 rest
    | '/', _ => ("[/]".toList ++ ·) <$> writeFrom 0 rest
    | '[', _ =>
      match CharSet.body? rest with
      | none => (literal '[' ++ ·) <$> writeFrom 0 rest
      | some body => do
        let text ← setText body
        return text ++ (← writeFrom (body.length + 1) rest)
    | c, _ => (literal c ++ ·) <$> writeFrom 0 rest

/-- What follows the wildcards: the end of the path, or for a directory also a slash. A negated
rule for directories wants both. -/
def ending (negated directoryOnly : Bool) : String :=
  if !directoryOnly then "$" else if negated then "/$" else "($|/)"

/-- What precedes the wildcards: the start of the path, or for a rule without a slash inside also
the start of any part of it. -/
def beginning (anchored : Bool) : String := if anchored then "^" else "(^|[/])"

/-! ## Rules -/

/-- The rule of a line without its leading `!`. -/
def ofBody (negated : Bool) (body : List Char) : Except IgnoreError IgnoreRule := do
  let some last := body.getLast? | throw .truncated
  let directoryOnly := last == '/'
  let inside := body.dropLast.contains '/'
  let (rest, anyDepth) ← dropStars (← dropSlash body)
  let rest ← unescapeStart (← dropLastSlash (← dropSlash rest))
  let text ← writeFrom 0 (trimBlanks true rest.reverse).reverse
  return ⟨negated, Expression.parse?
    ((beginning (inside && !anyDepth)).toList ++ text ++ (ending negated directoryOnly).toList)⟩

/-- The rule of a line. Blank lines, comments and a lone slash give none. -/
def ofLine? (line : List Char) : Except IgnoreError (Option IgnoreRule) :=
  if (Text.trim line).isEmpty || line.head? == some '#' then .ok none
  else
    let negated := line.head? == some '!'
    let body := squeezeBefore 0 (squeezeAfter 0 (if negated then line.tail else line))
    if Text.trimEnd body == ['/'] then .ok none
    else some <$> ofBody negated body

/-- Whether a rule applies to a path, seen from the directory of the rule. -/
def applies (r : IgnoreRule) (rel : String) : Except IgnoreError Bool :=
  match r.expression with
  | none => .error .malformed
  | some e => .ok (e.occursIn rel.toList)

end IgnoreRule

end DefaultImports
