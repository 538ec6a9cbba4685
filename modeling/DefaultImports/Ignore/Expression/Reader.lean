import DefaultImports.Glob.CharSet
import DefaultImports.Ignore.Expression.Basic
import DefaultImports.Text.Digit

/-! Reading expressions. An expression is read from left to right with a stack of the groups
that are still open. -/
namespace DefaultImports.Expression

open CharSet (Mark ranges?)

/-- A character as written. An escaped one stands for itself. -/
inductive Token where
  | plain (c : Char)
  | escaped (c : Char)
deriving DecidableEq, Repr

namespace Token

def ofText : List Char → List Token
  | [] => []
  | '\\' :: c :: rest => .escaped c :: ofText rest
  | c :: rest => .plain c :: ofText rest

def char : Token → Char
  | .plain c | .escaped c => c

/-- A character inside a set. -/
def mark : Token → Mark
  | .plain '-' => .dash
  | t => .lit t.char

def isDigit : Token → Bool
  | .plain c => Text.isAsciiDigit c
  | .escaped _ => false

end Token

/-! ## Sets of characters -/

/-- The text of a set up to the bracket that closes it, and what follows. -/
def marksTo? : List Token → Option (List Mark × List Token)
  | [] => none
  | .plain ']' :: rest => some ([], rest)
  | t :: rest => (marksTo? rest).map fun (marks, rest) => (t.mark :: marks, rest)

/-- The text of a set. A bracket in first place closes nothing. -/
def marks? : List Token → Option (List Mark × List Token)
  | .plain ']' :: rest => (marksTo? rest).map fun (marks, rest) => (.lit ']' :: marks, rest)
  | tokens => marksTo? tokens

/-- A set, given what follows its opening bracket. -/
def set? (tokens : List Token) : Option (Expression × List Token) := do
  let (negated, tokens) := match tokens with
    | .plain '^' :: rest => (true, rest)
    | tokens => (false, tokens)
  let (marks, rest) ← marks? tokens
  let ranges ← ranges? marks
  return (.one (CharSet.mk negated ranges).contains, rest)

/-! ## Repetition -/

/-- How often something is repeated. -/
structure Quantity where
  least : Nat
  most : Option Nat

def number? (digits : List Token) : Option Nat :=
  if digits.isEmpty then none
  else some (Text.ofDigits 10 (digits.map fun t => t.char.toNat - '0'.toNat))

/-- A quantity in braces, given what follows the opening one. -/
def braces? (tokens : List Token) : Option (Quantity × List Token) :=
  let least := tokens.takeWhile Token.isDigit
  match tokens.dropWhile Token.isDigit with
  | .plain ',' :: rest =>
    let most := rest.takeWhile Token.isDigit
    match rest.dropWhile Token.isDigit with
    | .plain '\x7d' :: rest => some (⟨(number? least).getD 0, number? most⟩, rest)
    | _ => none
  | .plain '\x7d' :: rest => (number? least).map fun n => (⟨n, some n⟩, rest)
  | _ => none

/-- The quantity that `c` and what follows it stand for. Braces that hold none stand for
themselves. -/
def quantity? (c : Char) (rest : List Token) : Option (Quantity × List Token) :=
  match c with
  | '?' => some (⟨0, some 1⟩, rest)
  | '*' => some (⟨0, none⟩, rest)
  | '+' => some (⟨1, none⟩, rest)
  | '\x7b' => braces? rest
  | _ => none

/-- Repeats an expression as the mark behind the quantity says: few times first, or as often as
possible without giving anything back, or many times first. -/
def repeatBy (q : Quantity) (e : Expression) : List Token → Expression × List Token
  | .plain '?' :: rest => (.repeated q.least q.most false e, rest)
  | .plain '+' :: rest => (.committed (.repeated q.least q.most true (.committed e)), rest)
  | rest => (.repeated q.least q.most true e, rest)

/-! ## Groups -/

/-- What a group does with its content. -/
inductive Group where
  | plain
  | committed
  | ahead (wanted : Bool)
  | behind (wanted : Bool)
deriving DecidableEq, Repr

/-- The expression of a group. What is looked for behind a place must have a fixed width. -/
def Group.close? (e : Expression) : Group → Option Expression
  | .plain => some e
  | .committed => some (.committed e)
  | .ahead wanted => some (.look 0 wanted e)
  | .behind wanted => e.width?.map (.look · wanted e)

/-- The kind of a group, given what follows its opening bracket. -/
def group? : List Token → Option (Group × List Token)
  | .plain '?' :: .plain ':' :: rest => some (.plain, rest)
  | .plain '?' :: .plain '>' :: rest => some (.committed, rest)
  | .plain '?' :: .plain '=' :: rest => some (.ahead true, rest)
  | .plain '?' :: .plain '!' :: rest => some (.ahead false, rest)
  | .plain '?' :: .plain '<' :: .plain '=' :: rest => some (.behind true, rest)
  | .plain '?' :: .plain '<' :: .plain '!' :: rest => some (.behind false, rest)
  | .plain '?' :: _ => none
  | rest => some (.plain, rest)

/-- What follows a comment, given what follows its opening bracket. -/
def afterComment? : List Token → Option (List Token)
  | .plain '?' :: .plain '#' :: rest =>
    match rest.dropWhile (· != .plain ')') with
    | [] => none
    | _ :: rest => some rest
  | _ => none

/-- A part of a sequence. Edges and repetitions cannot be repeated. -/
structure Item where
  expression : Expression
  repeatable : Bool

/-- A group that is still open: the alternatives before the current one, and the items of that
one, each last first. -/
structure Frame where
  group : Group
  alternatives : List Expression
  items : List Item

namespace Frame

def start (g : Group) : Frame := ⟨g, [], []⟩

def add (f : Frame) (e : Expression) : Frame := { f with items := ⟨e, true⟩ :: f.items }

def addFinal (f : Frame) (e : Expression) : Frame := { f with items := ⟨e, false⟩ :: f.items }

def sequence (f : Frame) : Expression := f.items.foldl (fun e item => .seq item.expression e) .empty

/-- Starts another alternative. -/
def next (f : Frame) : Frame := ⟨f.group, f.sequence :: f.alternatives, []⟩

def expression (f : Frame) : Expression :=
  f.alternatives.foldl (fun later e => .alt e later) f.sequence

def close? (f : Frame) : Option Expression := f.group.close? f.expression

/-- Repeats the last item. -/
def repeat? (f : Frame) (q : Quantity) (rest : List Token) : Option (Frame × List Token) := do
  let item :: items := f.items | none
  guard (item.repeatable && q.most.all (q.least ≤ ·))
  let (e, rest) := repeatBy q item.expression rest
  return (Frame.addFinal { f with items } e, rest)

end Frame

/-! ## Whole expressions -/

/-- Reads on in the group `f`, which the groups `outer` surround, the nearest first. Each step
takes at least one token, so their number is fuel enough. -/
def readFrom : (fuel : Nat) → (f : Frame) → (outer : List Frame) → List Token → Option Expression
  | 0, _, _, _ => none
  | _ + 1, f, outer, [] => if outer.isEmpty then f.close? else none
  | fuel + 1, f, outer, .escaped c :: rest => readFrom fuel (f.add (.char c)) outer rest
  | fuel + 1, f, outer, .plain c :: rest =>
    match quantity? c rest with
    | some (q, rest) => do
      let (f, rest) ← f.repeat? q rest
      readFrom fuel f outer rest
    | none =>
      match c with
      | '|' => readFrom fuel f.next outer rest
      | '(' =>
        match afterComment? rest with
        | some rest => readFrom fuel f outer rest
        | none => do
          let (g, rest) ← group? rest
          readFrom fuel (.start g) (f :: outer) rest
      | ')' =>
        match outer with
        | [] => none
        | g :: outer => do readFrom fuel (g.add (← f.close?)) outer rest
      | '[' => do
        let (e, rest) ← set? rest
        readFrom fuel (f.add e) outer rest
      | '.' => readFrom fuel (f.add (.one (· != '\n'))) outer rest
      | '^' => readFrom fuel (f.addFinal (.edge Cursor.atStart)) outer rest
      | '$' => readFrom fuel (f.addFinal (.edge Cursor.atEnd)) outer rest
      | c => readFrom fuel (f.add (.char c)) outer rest

/-- The expression with the given text, if it is one. -/
def parse? (text : List Char) : Option Expression :=
  let tokens := Token.ofText text
  readFrom (tokens.length + 1) (.start .plain) [] tokens

end DefaultImports.Expression
