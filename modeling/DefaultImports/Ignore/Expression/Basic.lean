import DefaultImports.Text.Cursor

/-! Regular expressions and the search for them in a text. Only whether there is a match counts,
but a part that commits to its preferred match makes the order of preference show. -/
namespace DefaultImports

inductive Expression where
  | empty
  /-- One character of a class. -/
  | one (p : Char → Bool)
  /-- No characters, at a place that passes a test. -/
  | edge (p : Cursor → Bool)
  | seq (a b : Expression)
  /-- The first expression, or else the second. -/
  | alt (a b : Expression)
  /-- `least` times or more, up to `most` if that is given; more comes first if `eager`. -/
  | repeated (least : Nat) (most : Option Nat) (eager : Bool) (a : Expression)
  /-- The preferred match, or none. -/
  | committed (a : Expression)
  /-- No characters, at a place where a match that starts `back` characters earlier is there or
  is missing. -/
  | look (back : Nat) (wanted : Bool) (a : Expression)

namespace Expression

def char (c : Char) : Expression := one (· == c)

/-- The number of characters that every match has, if it is always the same. -/
def width? : Expression → Option Nat
  | empty | edge _ | look _ _ _ => some 0
  | one _ => some 1
  | seq a b => do return (← a.width?) + (← b.width?)
  | alt a b => if a.width? = b.width? then a.width? else none
  | repeated least most _ a =>
    if most = some 0 || a.width? = some 0 then some 0
    else if most = some least then a.width?.map (least * ·)
    else none
  | committed a => a.width?

/-- What to do at the end of a match; the answer is the end of the whole. -/
abbrev Next := Cursor → Option Cursor

/-- `n` rounds of an expression. -/
def rounds (body : Cursor → Next → Option Cursor) (k : Next) : (n : Nat) → Cursor → Option Cursor
  | 0, c => k c
  | n + 1, c => body c (rounds body k n)

/-- Up to `n` rounds. A round that takes no characters is the last one. -/
def roundsUpTo (eager : Bool) (body : Cursor → Next → Option Cursor) (k : Next) :
    (n : Nat) → Cursor → Option Cursor
  | 0, c => k c
  | n + 1, c =>
    let after (d : Cursor) := if d == c then k d else roundsUpTo eager body k n d
    if eager then body c after <|> k c else k c <|> body c after

/-- Matches an expression and goes on with `k`, trying the ways to match in order until `k`
succeeds. Rounds beyond the number of characters left are empty and change nothing. -/
def run : Expression → Cursor → Next → Option Cursor
  | empty, c, k => k c
  | one p, c, k =>
    match c.rest with
    | [] => none
    | x :: rest => if p x then k ⟨x :: c.passed, rest⟩ else none
  | edge p, c, k => if p c then k c else none
  | seq a b, c, k => a.run c fun d => b.run d k
  | alt a b, c, k => a.run c k <|> b.run c k
  | repeated least most eager a, c, k =>
    let room := c.rest.length + 1
    let further := (most.map (· - least)).getD room
    rounds a.run (roundsUpTo eager a.run k (min further room)) (min least room) c
  | committed a, c, k => (a.run c some).bind k
  | look back wanted a, c, k =>
    if (c.back? back).any (fun d => (a.run d some).isSome) == wanted then k c else none

/-- Whether a match starts at a place or later. -/
def occursFrom (e : Expression) : (passed rest : List Char) → Bool
  | passed, [] => (e.run ⟨passed, []⟩ some).isSome
  | passed, c :: rest => (e.run ⟨passed, c :: rest⟩ some).isSome || occursFrom e (c :: passed) rest

def occursIn (e : Expression) (text : List Char) : Bool := e.occursFrom [] text

end Expression

end DefaultImports
