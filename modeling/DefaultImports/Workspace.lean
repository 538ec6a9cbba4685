import DefaultImports.Path.Basic
import DefaultImports.Text.Quoted
import DefaultImports.Text.RawByte
import DefaultImports.Text.Utf8

/-! The files that a run can see, and the directory it runs in.

There are no symbolic links, and no permissions: a file that is there can be read and written. The
length of a name is limited, that of a whole path is not. Nothing but the run itself changes the
files while it lasts. Its report is printed and written as UTF-8, and a character that has no such
form is an error. -/
namespace DefaultImports

inductive Entry where
  | file (bytes : List UInt8)
  | directory
deriving DecidableEq, Repr

def Entry.isFile : Entry → Bool
  | .file _ => true
  | .directory => false

/-- Why a path cannot be followed or opened. -/
inductive Fault where
  | missing
  | notDirectory
  | isDirectory
  | nameTooLong
  | nulCharacter
deriving DecidableEq, Repr

/-- A fault met on the way to a path. -/
structure PathError where
  fault : Fault
  path : Path
deriving DecidableEq, Repr

def PathError.message (e : PathError) : String :=
  let numbered (code text : String) :=
    "[Errno " ++ code ++ "] " ++ text ++ ": " ++ Text.quote e.path.toString
  match e.fault with
  | .missing => numbered "2" "No such file or directory"
  | .notDirectory => numbered "20" "Not a directory"
  | .isDirectory => numbered "21" "Is a directory"
  | .nameTooLong => numbered "36" "File name too long"
  | .nulCharacter => "embedded null byte"

/-- A tree of files as the list of its places, each by its parts from the top, together with
the working directory. The top is a directory and need not be listed. -/
structure Workspace where
  entries : List (List String × Entry)
  cwd : Path
  /-- The characters that stand for bytes of names that are not UTF-8, if there are such names. They
  are chosen so that none of them is in a name for itself, or in the text of a file. Where a text
  shows the number of a character, it shows that of the chosen one, and a name has the size of its
  characters. -/
  raw : Option Utf8.RawBlock := none
deriving DecidableEq, Repr

namespace Workspace

def entryAt? (w : Workspace) (place : List String) : Option Entry :=
  if place = [] then some .directory else w.entries.lookup place

/-- The byte that a character of a name stands for, if it does not stand for itself. -/
def rawByte? (w : Workspace) (c : Char) : Option UInt8 := w.raw.bind (·.byte? c)

/-- The bytes that a text is written as. -/
def encode (w : Workspace) (text : String) : Except Utf8.EncodeFault (List UInt8) :=
  match w.raw with
  | none => .ok text.toUTF8.toList
  | some block => Utf8.encode block.byte? text

/-- No name on disk has more than 255 bytes. -/
def maxNameBytes : Nat := 255

/-- Follows `parts` from a place, given by its parts last first, one directory at a time, to
another place and what is there. -/
def walk (w : Workspace) :
    (place : List String) → Entry → List String → Except Fault (List String × Entry)
  | place, entry, [] => .ok (place, entry)
  | _, .file _, _ :: _ => .error .notDirectory
  | place, .directory, part :: parts =>
    if part == ".." then w.walk place.tail .directory parts
    else if maxNameBytes < part.utf8ByteSize then .error .nameTooLong
    else match w.entryAt? (part :: place).reverse with
      | none => .error .missing
      | some entry => w.walk (part :: place) entry parts

/-- What is at a path as seen from the working directory. -/
def entry (w : Workspace) (p : Path) : Except Fault Entry :=
  let full := w.cwd.join p
  if full.hasNul then .error .nulCharacter
  else (·.2) <$> w.walk [] .directory full.parts

/-- Whether something is at a path, for callers that take every fault for an absence. -/
def exists? (w : Workspace) (p : Path) : Bool := (w.entry p).isOk

/-- What is at a path, or nothing. A name that is too long is an error and not an absence. -/
def probe (w : Workspace) (p : Path) : Except PathError (Option Entry) :=
  match w.entry p with
  | .ok entry => .ok (some entry)
  | .error .nameTooLong => .error ⟨.nameTooLong, p⟩
  | .error _ => .ok none

def readBytes (w : Workspace) (p : Path) : Except PathError (List UInt8) :=
  match w.entry p with
  | .ok (.file bytes) => .ok bytes
  | .ok .directory => .error ⟨.isDirectory, p⟩
  | .error fault => .error ⟨fault, p⟩

/-- Puts a file at a place. -/
def put (w : Workspace) (place : List String) (bytes : List UInt8) : Workspace :=
  { w with entries := w.entries.filter (·.1 != place) ++ [(place, .file bytes)] }

/-- The place at which the file `name` can be made in a directory. -/
def placeFor (w : Workspace) (directory : List String) (name : String) :
    Except Fault (List String) :=
  if name == ".." then .error .isDirectory
  else if maxNameBytes < name.utf8ByteSize then .error .nameTooLong
  else
    let place := (name :: directory).reverse
    match w.entryAt? place with
    | some .directory => .error .isDirectory
    | _ => .ok place

/-- Writes a file whose directory exists. -/
def write (w : Workspace) (p : Path) (bytes : List UInt8) : Except PathError Workspace := do
  if p.hasNul then throw ⟨.nulCharacter, p⟩
  let parts := (w.cwd.join p).parts
  let some name := parts.getLast? | throw ⟨.isDirectory, p⟩
  match w.walk [] .directory parts.dropLast with
  | .error fault => throw ⟨fault, p⟩
  | .ok (_, .file _) => throw ⟨.notDirectory, p⟩
  | .ok (directory, .directory) =>
    let place ← (w.placeFor directory name).mapError (⟨·, p⟩)
    return w.put place bytes

/-- The text of a source file: malformed bytes are replaced, and every line ends in `\n`. -/
def sourceText (bytes : List UInt8) : String :=
  String.ofList (Text.unifyNewlines (Utf8.decodeLossy bytes))

def readSource (w : Workspace) (p : Path) : Except PathError String :=
  sourceText <$> w.readBytes p

/-- The absolute form of a path; `..` stays. -/
def absolute (w : Workspace) (p : Path) : Path := w.cwd.join p

/-- The absolute form of a path without `..`. -/
def resolve (w : Workspace) (p : Path) : Except PathError Path :=
  if p.hasNul then .error ⟨.nulCharacter, p⟩ else .ok (p.resolve w.cwd)

/-- What a directory holds, in the order in which it is listed. -/
def children (w : Workspace) (directory : List String) : List (List String × Entry) :=
  w.entries.filter fun (place, _) => place != [] && place.dropLast == directory

/-- The files that a walk from a directory meets, at most `depth` levels down: those of the
directory itself first, and then those of each directory in it. -/
def filesFrom (w : Workspace) : (depth : Nat) → (directory : List String) → List (List String)
  | 0, _ => []
  | depth + 1, directory =>
    ((w.children directory).filter (·.2.isFile)).map (·.1) ++
      ((w.children directory).filter (!·.2.isFile)).flatMap fun d => w.filesFrom depth d.1

/-- The number of parts of the deepest place. -/
def height (w : Workspace) : Nat := (w.entries.map (·.1.length)).foldr max 0

/-- The files at any depth below a directory, in the order of a walk. -/
def filesBelow (w : Workspace) (root : Path) : List Path :=
  (w.filesFrom w.height root.parts).map (⟨.root, ·⟩)

end Workspace

end DefaultImports
