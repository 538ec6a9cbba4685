import DefaultImports.Text.Split

/-! Paths as an anchor and a list of parts. -/
namespace DefaultImports

/-- Where a path starts. A path that begins with exactly two slashes keeps both. -/
inductive Anchor where
  | relative
  | root
  | doubleRoot
deriving DecidableEq, Repr

def Anchor.text : Anchor → String
  | .relative => ""
  | .root => "/"
  | .doubleRoot => "//"

/-- The parts are neither empty nor `.` and hold no slash; `..` is a part like any other. -/
structure Path where
  anchor : Anchor
  parts : List String
deriving DecidableEq, Repr

namespace Path

def anchorOf : List Char → Anchor
  | '/' :: '/' :: '/' :: _ => .root
  | '/' :: '/' :: _ => .doubleRoot
  | '/' :: _ => .root
  | _ => .relative

/-- The segments of a text between slashes, without those that name the place itself. -/
def segments (s : List Char) : List String :=
  ((Text.split (· == '/') s).map String.ofList).filter fun part => part != "" && part != "."

def ofString (s : String) : Path := ⟨anchorOf s.toList, segments s.toList⟩

def toString (p : Path) : String :=
  if p.anchor = .relative ∧ p.parts = [] then "."
  else p.anchor.text ++ "/".intercalate p.parts

instance : ToString Path := ⟨toString⟩

def isAbsolute (p : Path) : Bool := p.anchor != .relative

/-- `q` seen from the directory `p`. -/
def join (p q : Path) : Path :=
  match q.anchor with
  | .relative => ⟨p.anchor, p.parts ++ q.parts⟩
  | _ => q

def child (p : Path) (name : String) : Path := ⟨p.anchor, p.parts ++ [name]⟩

def parent (p : Path) : Path := ⟨p.anchor, p.parts.dropLast⟩

/-- The last part, empty for an anchor alone. -/
def name (p : Path) : String := p.parts.getLast?.getD ""

/-- One step of a walk from a directory, whose parts are listed last first: `..` goes up, and
stays where it is at the top. -/
def enter (stack : List String) (part : String) : List String :=
  if part == ".." then stack.tail else part :: stack

/-- The same path without `..`, read as a walk from the anchor. -/
def collapse (p : Path) : Path := ⟨p.anchor, (p.parts.foldl enter []).reverse⟩

/-- The path from the top with no `..` and one slash in front. -/
def resolve (p cwd : Path) : Path := { (cwd.join p).collapse with anchor := .root }

/-- The path with more text at its end. -/
def append (p : Path) (text : String) : Path :=
  match p.parts.getLast? with
  | none => ⟨p.anchor, [text]⟩
  | some last => ⟨p.anchor, p.parts.dropLast ++ [last ++ text]⟩

/-- The end of a file name from its last dot on. A dot in first or last place does not
count. -/
def suffixOf (name : List Char) : List Char :=
  let tail := name.reverse.takeWhile (· != '.')
  if tail.isEmpty || name.length ≤ tail.length + 1 then []
  else '.' :: tail.reverse

def suffix (p : Path) : String := String.ofList (suffixOf p.name.toList)

def hasNul (p : Path) : Bool := p.parts.any (·.toList.contains '\x00')

/-- The path as seen from the directory `base`, if it is that directory or below it. -/
def relativeTo? (p base : Path) : Option Path :=
  if p.anchor = base.anchor ∧ base.parts.isPrefixOf p.parts then
    some ⟨.relative, p.parts.drop base.parts.length⟩
  else none

/-- Part by part, each by code points, so that what is below `a` comes before `a-b`. -/
def partsLe : List String → List String → Bool
  | [], _ => true
  | _ :: _, [] => false
  | a :: as, b :: bs => if a == b then partsLe as bs else a < b

def le (p q : Path) : Bool := partsLe p.parts q.parts

end Path

end DefaultImports
