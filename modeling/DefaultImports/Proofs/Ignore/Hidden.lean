import DefaultImports.Ignore.Tree
import DefaultImports.Proofs.Workspace.Edit
import Mathlib.Data.List.Infix

/-! Which paths the ignore files of a tree are to hide, by what is in the tree alone. The last rule
that applies to a path decides, with outer files before inner ones, and what is in a hidden directory
is hidden too. -/
namespace DefaultImports

namespace IgnoreRule

variable {r : IgnoreRule}

/-- Whether the rule applies, for a rule that is not malformed. -/
def matchesPath (r : IgnoreRule) (rel : String) : Bool := r.expression.any (·.occursIn rel.toList)

theorem applies_eq (h : r.expression.isSome = true) (rel : String) :
    r.applies rel = .ok (r.matchesPath rel) := by
  obtain ⟨e, he⟩ := Option.isSome_iff_exists.mp h
  simp [applies, matchesPath, he]

/-- The line breaks off neither the reading of its rule nor the use of it. -/
def isUsable (line : List Char) : Bool :=
  match ofLine? line with
  | .error _ => false
  | .ok rule => rule.all (·.expression.isSome)

theorem ofLine?_of_isUsable {line : List Char} (h : isUsable line = true) :
    ∃ rule, ofLine? line = .ok rule ∧ ∀ r ∈ rule, r.expression.isSome = true := by
  rw [isUsable] at h
  cases hrule : ofLine? line with
  | error e => simp [hrule] at h
  | ok rule =>
    refine ⟨rule, rfl, ?_⟩
    intro r hr
    obtain rfl : rule = some r := hr
    simpa [hrule] using h

/-- The line does not break off the reading of the file, though its rule may be malformed. -/
def isReadable (line : List Char) : Bool := (ofLine? line).isOk

theorem isReadable_of_isUsable {line : List Char} (h : isUsable line = true) :
    isReadable line = true := by
  obtain ⟨rule, hrule, -⟩ := ofLine?_of_isUsable h
  rw [isReadable, hrule]
  rfl

end IgnoreRule

namespace IgnoreTree

variable {w : Workspace} {top : List String}

/-- The text of the ignore file in a directory, if there is one and it is well-formed. -/
def textIn (w : Workspace) (dir : List String) : Option (List Char) :=
  match w.entryAt? (dir ++ [fileName]) with
  | some (.file bytes) => (Utf8.decode bytes).toOption.map Text.unifyNewlines
  | _ => none

def linesIn (w : Workspace) (dir : List String) : List (List Char) :=
  ((textIn w dir).map Text.breakLines).getD []

def rulesIn (w : Workspace) (dir : List String) : List IgnoreRule :=
  (linesIn w dir).filterMap fun line => (IgnoreRule.ofLine? line).toOption.join

/-- All lines of the ignore files at or below `top` can be used. -/
def Usable (w : Workspace) (top : List String) : Prop :=
  ∀ dir, top <+: dir → ∀ line ∈ linesIn w dir, IgnoreRule.isUsable line = true

/-- All ignore files at or below `top` can be read to the end. -/
def Readable (w : Workspace) (top : List String) : Prop :=
  ∀ dir, top <+: dir → ∀ line ∈ linesIn w dir, IgnoreRule.isReadable line = true

/-- No rule in a directory from `top` down to a place is malformed. -/
def SoundTo (w : Workspace) (top place : List String) : Prop :=
  ∀ dir, top <+: dir → dir <+: place → ∀ r ∈ rulesIn w dir, r.expression.isSome = true

theorem Usable.readable (hu : Usable w top) : Readable w top :=
  fun dir hdir line hline => IgnoreRule.isReadable_of_isUsable (hu dir hdir line hline)

theorem Usable.soundTo (hu : Usable w top) (place : List String) : SoundTo w top place := by
  intro dir hdir _ r hr
  obtain ⟨line, hline, hr⟩ := List.mem_filterMap.mp hr
  obtain ⟨rule, hrule, hsound⟩ := IgnoreRule.ofLine?_of_isUsable (hu dir hdir line hline)
  rw [hrule] at hr
  exact hsound r hr

/-- The place `q` as the rules in a directory see it. -/
def seenFrom (dir q : List String) : String := (⟨.relative, q.drop dir.length⟩ : Path).toString

/-- The rules in a directory that apply to `q`, in the order of the file. -/
def applyingIn (w : Workspace) (q dir : List String) : List IgnoreRule :=
  (rulesIn w dir).filter (·.matchesPath (seenFrom dir q))

/-- The directories from `top` down to `q`, the outermost first and `q` itself last. -/
def directoriesTo (top q : List String) : List (List String) := q.inits.filter top.isPrefixOf

/-- Whether a place below `top`, or a directory between the two, is such that the last rule that
applies to it exists and is no negation. `scope` gives the directories whose rules count. -/
def isHiddenIn (scope : List String → List (List String)) (w : Workspace)
    (top place : List String) : Bool :=
  (place.inits.filter fun q => top.isPrefixOf q && q != top).any fun q =>
    ((scope q).flatMap (applyingIn w q)).getLast?.any (!·.negated)

/-- The rules of a directory count for all that is in it, and for the directory itself. -/
def isHidden (w : Workspace) (top place : List String) : Bool :=
  isHiddenIn (directoriesTo top) w top place

theorem linesIn_congr {w' : Workspace} (h : ∀ place, w'.entryAt? place = w.entryAt? place) :
    linesIn w' = linesIn w := by
  funext dir
  rw [linesIn, linesIn, textIn, textIn, h]

theorem isHidden_congr {w' : Workspace} (h : ∀ place, w'.entryAt? place = w.entryAt? place) :
    isHidden w' = isHidden w := by
  have happlying : applyingIn w' = applyingIn w := by
    funext q dir
    rw [applyingIn, applyingIn, rulesIn, rulesIn, linesIn_congr h]
  funext top place
  rw [isHidden, isHidden, isHiddenIn, isHiddenIn, happlying]

/-- Only listed files have lines. -/
theorem usable_of_entries
    (h : ∀ f ∈ w.entries, (linesIn w f.1.dropLast).all IgnoreRule.isUsable = true)
    (top : List String) : Usable w top := by
  intro dir _ line hline
  have hlisted : ∃ bytes, (dir ++ [fileName], Entry.file bytes) ∈ w.entries := by
    rw [linesIn, textIn] at hline
    split at hline
    · rename_i bytes hbytes
      exact ⟨bytes, Workspace.mem_entries_of_entryAt? hbytes⟩
    · cases hline
  obtain ⟨bytes, hmem⟩ := hlisted
  have hall := h _ hmem
  rw [List.dropLast_concat] at hall
  exact List.all_eq_true.mp hall line hline

end IgnoreTree

end DefaultImports
