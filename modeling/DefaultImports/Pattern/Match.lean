import DefaultImports.Pattern.Basic

/-! Matching with backtracking: alternatives are tried in the order of the pattern, and the
first that lets the rest of the pattern succeed decides. -/
namespace DefaultImports

/-- A labelled stretch of the text: where it starts, and how many characters it has. -/
structure Capture (ι : Type) where
  label : ι
  start : Cursor
  size : Nat

def Capture.text {ι : Type} (c : Capture ι) : String := String.ofList (c.start.rest.take c.size)

namespace Pattern

variable {ι α : Type}

/-- What a partial match has reached: its place, the number of characters matched, and its
captures, latest first. -/
structure Progress (ι : Type) where
  cursor : Cursor
  size : Nat
  captures : List (Capture ι)

def Progress.moveTo (s : Progress ι) (c : Cursor) (size : Nat) : Progress ι :=
  { s with cursor := c, size := size }

/-- Records what was matched since an earlier state. -/
def Progress.record (s : Progress ι) (label : ι) (before : Progress ι) : Progress ι :=
  { s with captures := ⟨label, before.cursor, s.size - before.size⟩ :: s.captures }

/-- Tries `k` after the longest run of `p` from a place, then after each shorter one. `size`
counts the characters matched. -/
def runMany (p : Char → Bool) (k : Cursor → Nat → Option α) :
    (size : Nat) → (passed rest : List Char) → Option α
  | size, passed, [] => k ⟨passed, []⟩ size
  | size, passed, c :: rest =>
    if p c then
      match runMany p k (size + 1) (c :: passed) rest with
      | some a => some a
      | none => k ⟨passed, c :: rest⟩ size
    else k ⟨passed, c :: rest⟩ size

/-- Tries `k` after the empty run of `p` from a place, then after each longer one. -/
def runFew (p : Char → Bool) (k : Cursor → Nat → Option α) :
    (size : Nat) → (passed rest : List Char) → Option α
  | size, passed, [] => k ⟨passed, []⟩ size
  | size, passed, c :: rest =>
    match k ⟨passed, c :: rest⟩ size with
    | some a => some a
    | none => if p c then runFew p k (size + 1) (c :: passed) rest else none

/-- Matches a pattern and goes on with `k`, trying the ways to match in order until `k`
succeeds. -/
def run : Pattern ι → Progress ι → (Progress ι → Option α) → Option α
  | empty, s, k => k s
  | one p, s, k =>
    match s.cursor.rest with
    | [] => none
    | c :: rest => if p c then k (s.moveTo ⟨c :: s.cursor.passed, rest⟩ (s.size + 1)) else none
  | many p, s, k => runMany p (fun c n => k (s.moveTo c n)) s.size s.cursor.passed s.cursor.rest
  | few p, s, k => runFew p (fun c n => k (s.moveTo c n)) s.size s.cursor.passed s.cursor.rest
  | edge p, s, k => if p s.cursor then k s else none
  | seq a b, s, k => a.run s fun s' => b.run s' k
  | alt a b, s, k =>
    match a.run s k with
    | some x => some x
    | none => b.run s k
  | capture label a, s, k => a.run s fun s' => k (s'.record label s)

/-- A stretch of text that a pattern matches. -/
structure Found (ι : Type) where
  start : Cursor
  size : Nat
  captures : List (Capture ι)

def Found.capture? [BEq ι] (m : Found ι) (label : ι) : Option (Capture ι) :=
  m.captures.find? (·.label == label)

/-- The preferred match that starts at a place. -/
def at? (p : Pattern ι) (c : Cursor) : Option (Found ι) :=
  p.run ⟨c, 0, []⟩ fun s => some ⟨c, s.size, s.captures⟩

/-- The preferred match at the first place where there is one, in the text from a place on. -/
def findFrom? (p : Pattern ι) : (passed rest : List Char) → Option (Found ι)
  | passed, [] => p.at? ⟨passed, []⟩
  | passed, c :: rest =>
    match p.at? ⟨passed, c :: rest⟩ with
    | some m => some m
    | none => findFrom? p (c :: passed) rest

def find? (p : Pattern ι) (text : List Char) : Option (Found ι) := p.findFrom? [] text

def occursIn (p : Pattern ι) (text : List Char) : Bool := (p.find? text).isSome

/-- The matches from a place on, each looked for behind the one before; the first `skip`
characters belong to the match before. The pattern matches no empty text. -/
def findAllFrom (p : Pattern ι) : (skip : Nat) → (passed rest : List Char) → List (Found ι)
  | _, _, [] => []
  | skip + 1, passed, c :: rest => findAllFrom p skip (c :: passed) rest
  | 0, passed, c :: rest =>
    match p.at? ⟨passed, c :: rest⟩ with
    | some m => m :: findAllFrom p (m.size - 1) (c :: passed) rest
    | none => findAllFrom p 0 (c :: passed) rest

/-- The matches in a text from left to right, without overlaps. -/
def findAll (p : Pattern ι) (text : List Char) : List (Found ι) := p.findAllFrom 0 [] text

end Pattern

end DefaultImports
