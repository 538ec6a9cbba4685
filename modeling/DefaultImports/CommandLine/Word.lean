import DefaultImports.Text.Digit
import DefaultImports.Text.Quoted

/-! The words of a command line, and what each of them could mean. `α` is the type of the
options that are known. -/
namespace DefaultImports.CommandLine

/-- A known option: all its names, and whether it takes a value. -/
structure Known (α : Type) where
  option : α
  names : List String
  takesValue : Bool

namespace Known

variable {α : Type}

/-- The name of an option in messages. -/
def title (k : Known α) : String := "/".intercalate k.names

/-- The names of all options, each with its option. -/
def byName (known : List (Known α)) : List (String × Known α) :=
  known.flatMap fun k => k.names.map (·, k)

def find? (known : List (Known α)) (name : String) : Option (Known α) :=
  (byName known).lookup name

end Known

/-- An option as written: the name that it goes by, whether an equals sign follows that name,
and the text that belongs to the option in the same word. -/
structure Use (α : Type) where
  known : Known α
  name : String
  equals : Bool
  attached : Option String

inductive Word (α : Type) where
  /-- The word that ends the options. -/
  | dashes
  | operand (s : String)
  | option (u : Use α)
  /-- A word that looks like an option and is none. -/
  | unknown (s : String)

namespace Word

variable {α : Type}

/-- `name=value` cut at the first equals sign. -/
def cutAtEquals (s : List Char) : List Char × Option (List Char) :=
  match s.dropWhile (· != '=') with
  | [] => (s, none)
  | _ :: value => (s.takeWhile (· != '='), some value)

/-- Behind the first sign of a negative number, only digits and at most one point, before
which there may be nothing. -/
def isNumberTail (s : List Char) : Bool :=
  let isDigit (c : Char) := (Text.digit? c).isSome
  match s.dropWhile isDigit with
  | [] => !s.isEmpty
  | '.' :: rest => !rest.isEmpty && rest.all isDigit
  | _ => false

/-- A line break at the very end does not count. -/
def isNegativeNumber (s : List Char) : Bool :=
  match s with
  | '-' :: rest =>
    isNumberTail rest || (rest.getLast? == some '\n' && isNumberTail rest.dropLast)
  | _ => false

/-- The options that a word could stand for. After two dashes a name may be cut short. After one
dash the first letter alone can be the name, with its value or further letters behind it. -/
def uses (known : List (Known α)) (s : List Char) : List (Use α) :=
  match s with
  | '-' :: '-' :: _ =>
    let (start, value) := cutAtEquals s
    (Known.byName known).filterMap fun (name, k) =>
      if start.isPrefixOf name.toList then
        some ⟨k, name, value.isSome, value.map String.ofList⟩
      else none
  | _ =>
    (Known.byName known).filterMap fun (name, k) =>
      if name.toList == s.take 2 then some ⟨k, name, false, some (String.ofList (s.drop 2))⟩
      else if s.isPrefixOf name.toList then some ⟨k, name, false, none⟩
      else none

/-- What a word that is no `--` means. The error lists the names that a word could stand for
if there are several. -/
def classify (known : List (Known α)) (word : String) : Except (List String) (Word α) :=
  let s := word.toList
  if s.head? != some '-' || s.length == 1 then .ok (.operand word)
  else match Known.find? known word with
    | some k => .ok (.option ⟨k, word, false, none⟩)
    | none =>
      let (start, value) := cutAtEquals s
      match value, Known.find? known (String.ofList start) with
      | some v, some k => .ok (.option ⟨k, String.ofList start, true, some (String.ofList v)⟩)
      | _, _ =>
        match uses known s with
        | [u] => .ok (.option u)
        | [] =>
          if isNegativeNumber s || s.contains ' ' then .ok (.operand word)
          else .ok (.unknown word)
        | us => .error (us.map (·.name))

/-- A word with several meanings. -/
structure Ambiguity where
  word : String
  names : List String

def Ambiguity.message (a : Ambiguity) : String :=
  "ambiguous option: " ++ a.word ++ " could match " ++ ", ".intercalate a.names

/-- The meaning of all words. Behind `--` there are operands only. -/
def classifyAll (known : List (Known α)) : List String → Except Ambiguity (List (Word α))
  | [] => .ok []
  | word :: rest =>
    if word == "--" then .ok (.dashes :: rest.map .operand)
    else match classify known word with
      | .error names => .error ⟨word, names⟩
      | .ok w => (w :: ·) <$> classifyAll known rest

end Word

/-- Why an option cannot be used as written. -/
inductive Misuse where
  | valueExpected
  | valueIgnored (value : String)
  | invalidChoice (value : String) (choices : List String)

def Misuse.message : Misuse → String
  | .valueExpected => "expected one argument"
  | .valueIgnored value => "ignored explicit argument " ++ Text.quote value
  | .invalidChoice value choices =>
    "invalid choice: " ++ Text.quote value ++ " (choose from " ++
      ", ".intercalate (choices.map Text.quote) ++ ")"

/-- An error about the argument called `title`. -/
structure ArgumentError where
  title : String
  misuse : Misuse

def ArgumentError.message (e : ArgumentError) : String :=
  "argument " ++ e.title ++ ": " ++ e.misuse.message

/-- What one word with options amounts to: the options in it with their values, an option that
still waits for a value from the next word, and a rest that means nothing. -/
structure Cluster (α : Type) where
  options : List (Known α × Option String)
  waiting : Option (Known α)
  leftover : Option String

namespace Cluster

variable {α : Type}

def empty : Cluster α := ⟨[], none, none⟩

def add (k : Known α) (value : Option String) (c : Cluster α) : Cluster α :=
  { c with options := (k, value) :: c.options }

/-- Reads the letters `attached` behind the option `k`, which goes by one letter. An option that
takes a value takes all that is left; others leave it to the options that follow. -/
def ofLetters (known : List (Known α)) (k : Known α) (equals : Bool) :
    (attached : List Char) → Except ArgumentError (Cluster α)
  | [] =>
    if k.takesValue then .ok (empty.add k (some ""))
    else .error ⟨k.title, .valueIgnored ""⟩
  | c :: rest =>
    if k.takesValue then .ok (empty.add k (some (String.ofList (c :: rest))))
    else if equals || c == '-' then .error ⟨k.title, .valueIgnored (String.ofList (c :: rest))⟩
    else match Known.find? known (String.ofList ['-', c]) with
      | none => .ok { empty.add k none with leftover := some (String.ofList ('-' :: c :: rest)) }
      | some next =>
        match rest with
        | [] =>
          if next.takesValue then .ok { empty.add k none with waiting := some next }
          else .ok ((empty.add next none).add k none)
        | '=' :: value => (add k none) <$> ofLetters known next true value
        | c' :: rest' => (add k none) <$> ofLetters known next false (c' :: rest')

/-- Reads a word with an option. -/
def ofUse (known : List (Known α)) (u : Use α) : Except ArgumentError (Cluster α) :=
  match u.attached with
  | none => .ok (if u.known.takesValue then ⟨[], some u.known, none⟩ else empty.add u.known none)
  | some value =>
    if u.known.takesValue then .ok (empty.add u.known (some value))
    else if ['-', '-'].isPrefixOf u.name.toList then .error ⟨u.known.title, .valueIgnored value⟩
    else ofLetters known u.known u.equals value.toList

end Cluster

end DefaultImports.CommandLine
