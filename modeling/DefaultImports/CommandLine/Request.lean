import DefaultImports.CommandLine.Usage
import DefaultImports.CommandLine.Word
import DefaultImports.Settings.Basic

/-! What a command line asks for. -/
namespace DefaultImports.CommandLine

/-- The arguments of a check. -/
structure CheckArguments where
  paths : List String
  includeIgnored : Bool
  json : Bool
  output : Option String
  verbose : Bool
  absolute : Bool
  severity : Option String
  noCache : Bool
  debug : Bool
deriving DecidableEq, Repr

def CheckArguments.default : CheckArguments where
  paths := []
  includeIgnored := false
  json := false
  output := none
  verbose := false
  absolute := false
  severity := none
  noCache := false
  debug := false

inductive Request where
  | check (a : CheckArguments)
  /-- Print texts and stop. -/
  | stop (code : Nat) (out err : String)
deriving DecidableEq, Repr

/-- Complains about the command line of the program or of its command. -/
def complain (usage : List String) (prog message : String) : Request :=
  .stop 2 "" (unlines (usage ++ [prog ++ ": error: " ++ message]))

/-! ## The arguments of a check -/

inductive CheckOption where
  | help
  | includeIgnored
  | json
  | output
  | verbose
  | absolute
  | severity
  | noCache
  | debug
deriving DecidableEq, Repr

def checkOptions : List (Known CheckOption) := [
  ⟨.help, ["-h", "--help"], false⟩,
  ⟨.includeIgnored, ["--include-ignored"], false⟩,
  ⟨.json, ["--json"], false⟩,
  ⟨.output, ["--output", "-o"], true⟩,
  ⟨.verbose, ["--verbose", "-v"], false⟩,
  ⟨.absolute, ["--absolute"], false⟩,
  ⟨.severity, ["--severity"], true⟩,
  ⟨.noCache, ["--no-cache"], false⟩,
  ⟨.debug, ["--debug"], false⟩]

def complainCheck (message : String) : Request :=
  complain checkUsageLines (program ++ " check") message

/-- Applies options in order. Help ends everything at once. -/
def applyOptions :
    List (Known CheckOption × Option String) → CheckArguments → Except Request CheckArguments
  | [], a => .ok a
  | (k, value) :: rest, a =>
    match k.option with
    | .help => .error (.stop 0 (unlines checkHelpLines) "")
    | .includeIgnored => applyOptions rest { a with includeIgnored := true }
    | .json => applyOptions rest { a with json := true }
    | .output => applyOptions rest { a with output := value }
    | .verbose => applyOptions rest { a with verbose := true }
    | .absolute => applyOptions rest { a with absolute := true }
    | .severity =>
      match value with
      | none => applyOptions rest a
      | some s =>
        if Settings.severities.contains s then applyOptions rest { a with severity := some s }
        else
          let misuse := .invalidChoice s Settings.severities
          .error (complainCheck (ArgumentError.message ⟨k.title, misuse⟩))
    | .noCache => applyOptions rest { a with noCache := true }
    | .debug => applyOptions rest { a with debug := true }

/-- The run of operands that gives the paths: still to come, being read, or over. -/
inductive Run where
  | pending
  | reading
  | over
deriving DecidableEq, Repr

/-- The arguments so far and the words that mean nothing. -/
structure CheckState where
  arguments : CheckArguments
  run : Run
  extras : List String

/-- The first run of operands gives the paths; later ones mean nothing. -/
def CheckState.operand (st : CheckState) (s : String) : CheckState :=
  if st.run == .over then { st with extras := st.extras ++ [s] }
  else
    { st with
      run := .reading
      arguments := { st.arguments with paths := st.arguments.paths ++ [s] } }

/-- The word that ends the options belongs to the run of operands, but gives no path. -/
def CheckState.dashes (st : CheckState) : CheckState :=
  if st.run == .over then { st with extras := st.extras ++ ["--"] } else { st with run := .reading }

/-- An option ends a run of operands. -/
def CheckState.endRun (st : CheckState) : CheckState :=
  if st.run == .reading then { st with run := .over } else st

def CheckState.extra (st : CheckState) (s : Option String) : CheckState :=
  { st with extras := st.extras ++ s.toList }

def readCheckWords : List (Word CheckOption) → CheckState → Except Request CheckState
  | [], st => .ok st
  | .dashes :: rest, st => readCheckWords rest st.dashes
  | .operand s :: rest, st => readCheckWords rest (st.operand s)
  | .unknown s :: rest, st => readCheckWords rest (st.endRun.extra (some s))
  | .option u :: rest, st =>
    match Cluster.ofUse checkOptions u with
    | .error e => .error (complainCheck e.message)
    | .ok cluster =>
      let st := st.endRun.extra cluster.leftover
      match cluster.waiting, rest with
      | none, rest => do
        let arguments ← applyOptions cluster.options st.arguments
        readCheckWords rest { st with arguments }
      | some k, .operand s :: rest => do
        let arguments ← applyOptions (cluster.options ++ [(k, some s)]) st.arguments
        readCheckWords rest { st with arguments }
      | some k, _ => .error (complainCheck (ArgumentError.message ⟨k.title, .valueExpected⟩))

/-- Reads the words behind the command. -/
def readCheck (words : List String) : Except Request CheckState := do
  let words ← (Word.classifyAll checkOptions words).mapError fun a => complainCheck a.message
  readCheckWords words ⟨.default, .pending, []⟩

/-! ## The whole command line -/

inductive TopOption where
  | help
  | version
deriving DecidableEq, Repr

def topOptions : List (Known TopOption) :=
  [⟨.help, ["-h", "--help"], false⟩, ⟨.version, ["--version"], false⟩]

def complainTop (message : String) : Request := complain usageLines program message

def stopAt : List (Known TopOption × Option String) → Option Request
  | [] => none
  | (k, _) :: _ =>
    match k.option with
    | .help => some (.stop 0 (unlines helpLines) "")
    | .version => some (.stop 0 (unlines [program ++ " " ++ version]) "")

def unrecognized (extras : List String) : Request :=
  complainTop ("unrecognized arguments: " ++ " ".intercalate extras)

def unknownCommand (name : String) : Request :=
  complainTop (ArgumentError.message ⟨"command", .invalidChoice name ["check"]⟩)

/-- Runs the command `name` on the words behind it. -/
def dispatch (name : String) (words extras : List String) : Request :=
  if name != "check" then unknownCommand name
  else match readCheck words with
    | .error r => r
    | .ok st =>
      let extras := extras ++ st.extras
      if extras.isEmpty then .check st.arguments else unrecognized extras

/-- Reads the words up to the command. `words` are the same words as they were written. -/
def readTop : List (Word TopOption) → (words extras : List String) → Request
  | [], _, extras =>
    if extras.isEmpty then .stop 2 (unlines helpLines) "" else unrecognized extras
  | .dashes :: rest, _, extras =>
    if rest.isEmpty then unrecognized (extras ++ ["--"]) else unknownCommand "--"
  | .operand s :: _, words, extras => dispatch s words.tail extras
  | .unknown s :: rest, words, extras => readTop rest words.tail (extras ++ [s])
  | .option u :: rest, words, extras =>
    match Cluster.ofUse topOptions u with
    | .error e => complainTop e.message
    | .ok cluster =>
      match stopAt cluster.options with
      | some r => r
      | none => readTop rest words.tail (extras ++ cluster.leftover.toList)

def Request.ofWords (words : List String) : Request :=
  match Word.classifyAll topOptions words with
  | .error a => complainTop a.message
  | .ok ws => readTop ws words []

end DefaultImports.CommandLine
