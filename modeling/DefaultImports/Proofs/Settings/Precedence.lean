import DefaultImports.Check
import DefaultImports.Proofs.CommandLine.Severity
import DefaultImports.Proofs.Settings.Reading

/-! Which source decides about a setting: the last one that gives it an accepted value. Main
statement: `run_settings_precedence`. -/
namespace DefaultImports

open Toml CommandLine

namespace Settings

variable {root : Path} {g : Setting → Option Datum} {s : Settings}

/-- Both configuration files have only patterns with a text. -/
def filesWritable (shared own : Option Table) : Bool :=
  (Source.sharedTable shared).all tableWritable && own.all tableWritable

/-- The settings of a file that may be missing. -/
def ofTable? (root : Path) : Option Table → Except SettingsError (Option Settings)
  | none => .ok none
  | some t => some <$> ofTable root t

theorem ofTable?_of_writable {t : Option Table} (ht : t.all tableWritable = true)
    (h : Records root g s) : ∃ other, ofTable? root t = .ok other ∧
      Records root (fun k => ((Source.file t).gives k).or (g k)) (s.mergeSome other) := by
  cases t with
  | none => exact ⟨none, rfl, h⟩
  | some t =>
    obtain ⟨other, hother, hrecords⟩ := ofTable_of_writable root ht
    refine ⟨some other, ?_, h.merge hrecords⟩
    rw [ofTable?, hother]
    rfl

theorem ofTable?_of_not_writable (root : Path) {t : Option Table}
    (ht : t.all tableWritable = false) : ofTable? root t = .error .integerUnprintable := by
  cases t with
  | none => cases ht
  | some t =>
    rw [ofTable?, ofTable_of_not_writable root ht]
    rfl

/-- What the configuration files of the project at `root` hold: `none` stands for a file that is
missing or malformed. The name that tools share, if it is there, stands for a table. -/
structure Contents (w : Workspace) (root dir : Path) (shared own : Option Table) : Prop where
  resolved : w.resolve root = .ok dir
  sharedFile : readTable? w (dir.child "pyproject.toml") = .ok shared
  ownFile : readTable? w (dir.child ".missingdefault.toml") = .ok own
  toolTable : (shared.bind (·.lookup "tool")).all Source.isTable = true

/-- The content of a configuration file; `none` also if reading it fails. -/
def contentOf (w : Workspace) (file : Path) : Option Table :=
  match readTable? w file with
  | .ok content => content
  | .error _ => none

variable {w : Workspace} {e : Environment} {dir : Path} {shared own : Option Table}

theorem readTable?_eq_ok {file : Path} (h : (readTable? w file).isOk = true) :
    readTable? w file = .ok (contentOf w file) := by
  unfold contentOf
  cases hread : readTable? w file with
  | ok content => rfl
  | error e =>
    rw [hread] at h
    cases h

theorem ofSharedFile?_eq (h : Contents w root dir shared own) :
    ofSharedFile? w dir = ofTable? dir (Source.sharedTable shared) := by
  have htool := h.toolTable
  rw [ofSharedFile?, h.sharedFile]
  cases shared with
  | none => rfl
  | some t =>
    rw [Option.bind_some] at htool
    simp only [bind, Except.bind, toolTable?_eq htool]
    cases Source.sharedTable (some t) <;> rfl

theorem ofOwnFile?_eq (h : Contents w root dir shared own) :
    ofOwnFile? w dir = ofTable? dir own := by
  unfold ofOwnFile?
  rw [h.ownFile]
  cases own <;> rfl

theorem load_eq (h : Contents w root dir shared own) :
    load w e root = (do
      let s := (default dir).mergeSome (← ofTable? dir (Source.sharedTable shared))
      let s := s.mergeSome (← ofTable? dir own)
      return s.merge (ofEnvironment w.cwd e)) := by
  rw [load, h.resolved, ← ofSharedFile?_eq h, ← ofOwnFile?_eq h]
  rfl

/-- What the sources give before any argument is looked at. -/
def loadGives (shared own : Option Table) (e : Environment) (k : Setting) : Option Datum :=
  ((Source.environment e).gives k).or
    (((Source.file own).gives k).or ((Source.file (Source.sharedTable shared)).gives k))

theorem load_of_writable (h : Contents w root dir shared own)
    (hw : filesWritable shared own = true) :
    ∃ s, load w e root = .ok s ∧ Records dir (loadGives shared own e) s := by
  obtain ⟨hshared, hown⟩ := (Bool.and_eq_true _ _).mp hw
  obtain ⟨s₁, hs₁, h₁⟩ := ofTable?_of_writable hshared (records_default dir)
  obtain ⟨s₂, hs₂, h₂⟩ := ofTable?_of_writable hown h₁
  refine ⟨_, ?_, (h₂.merge (records_ofEnvironment w.cwd e)).congr ?_⟩
  · rw [load_eq h, hs₁]
    simp only [bind, Except.bind, hs₂]
    rfl
  · intro k
    simp only [loadGives, Source.gives, Option.or_none]

theorem load_of_not_writable (h : Contents w root dir shared own)
    (hw : filesWritable shared own = false) : load w e root = .error .integerUnprintable := by
  rw [load_eq h]
  cases hshared : (Source.sharedTable shared).all tableWritable with
  | false =>
    rw [ofTable?_of_not_writable dir hshared]
    rfl
  | true =>
    obtain ⟨s₁, hs₁, -⟩ := ofTable?_of_writable hshared (records_default dir)
    have hown : own.all tableWritable = false := by simpa [filesWritable, hshared] using hw
    rw [hs₁, ofTable?_of_not_writable dir hown]
    rfl

/-! ## Which values can occur -/

end Settings

/-- The values that a severity and a limit may have. -/
def Datum.Accepted : Datum → Prop
  | .level severity => severity ∈ Settings.severities
  | .limit n => 0 ≤ n
  | _ => True

namespace Datum

variable {v : Option Value} {d : Datum}

theorem accepted_level? {text : String} (h : level? text = some d) : d.Accepted := by
  unfold level? at h
  split at h
  · cases h
    assumption
  · cases h

theorem accepted_limit? {n : Int} (h : limit? n = some d) : d.Accepted := by
  unfold limit? at h
  split at h
  · cases h
    assumption
  · cases h

theorem accepted_levelIn? (h : levelIn? v = some d) : d.Accepted := by
  unfold levelIn? at h
  split at h
  · exact accepted_level? h
  · cases h

theorem accepted_limitIn? (h : limitIn? v = some d) : d.Accepted := by
  unfold limitIn? at h
  split at h
  · exact accepted_limit? h
  · cases h

theorem accepted_flag? (h : flag? v = some d) : d.Accepted := by
  unfold flag? at h
  split at h <;> cases h
  trivial

theorem accepted_patterns? (h : patterns? v = some d) : d.Accepted := by
  unfold patterns? at h
  split at h
  · obtain ⟨texts, -, rfl⟩ := Option.map_eq_some_iff.mp h
    trivial
  · cases h

end Datum

namespace Source

variable {k : Setting} {d : Datum}

theorem accepted_tableGives {t : Table} (h : tableGives t k = some d) : d.Accepted := by
  cases k with
  | severity => exact Datum.accepted_levelIn? h
  | cacheMaxEntries => exact Datum.accepted_limitIn? h
  | cacheEnabled | respectIgnores => exact Datum.accepted_flag? h
  | included | excluded => exact Datum.accepted_patterns? h
  | projectRoot => cases h

theorem accepted_environmentGives {e : Environment} (h : environmentGives e k = some d) :
    d.Accepted := by
  cases k with
  | severity =>
    obtain ⟨text, -, htext⟩ := Option.bind_eq_some_iff.mp h
    exact Datum.accepted_level? htext
  | cacheMaxEntries =>
    obtain ⟨n, -, hn⟩ := Option.bind_eq_some_iff.mp h
    exact Datum.accepted_limit? hn
  | cacheEnabled | respectIgnores =>
    obtain ⟨text, -, rfl⟩ := Option.map_eq_some_iff.mp h
    trivial
  | included | excluded | projectRoot => cases h

end Source

namespace Settings

variable {root dir : Path} {s : Settings} {shared own : Option Table} {e : Environment}

theorem accepted_default (root : Path) (k : Setting) : ((default root).value k).Accepted := by
  cases k <;> simp [value, default, Datum.Accepted, severities, CachePolicy.default]

theorem accepted_file {t : Option Table} {k : Setting} {d : Datum}
    (h : (Source.file t).gives k = some d) : d.Accepted := by
  obtain ⟨t, -, ht⟩ := Option.bind_eq_some_iff.mp h
  exact Source.accepted_tableGives ht

theorem accepted_loadGives {k : Setting} {d : Datum} (h : loadGives shared own e k = some d) :
    d.Accepted := by
  rcases Option.or_eq_some_iff.mp h with h | ⟨-, h⟩
  · exact Source.accepted_environmentGives h
  · rcases Option.or_eq_some_iff.mp h with h | ⟨-, h⟩
    · exact accepted_file h
    · exact accepted_file h

theorem accepted_value (h : Records dir (loadGives shared own e) s) (k : Setting) :
    (s.value k).Accepted := by
  rw [h.value]
  cases hg : loadGives shared own e k with
  | none => exact accepted_default dir k
  | some d => exact accepted_loadGives hg

/-- No source of a project moves its root. -/
theorem loadGives_projectRoot (shared own : Option Table) (e : Environment) :
    loadGives shared own e .projectRoot = none := by
  simp [loadGives, Source.gives, Source.environmentGives, Source.tableGives]

end Settings

namespace Check

variable {a : CheckArguments} {s : Settings} {k : Setting}

/-- An argument decides about a setting if it says anything about it. -/
theorem value_applyArguments (a : CheckArguments) (s : Settings) (k : Setting) :
    (applyArguments a s).value k = (Source.argumentsGive a k).getD (s.value k) := by
  cases k with
  | respectIgnores =>
    cases h : a.includeIgnored <;> simp [applyArguments, Settings.value, Source.argumentsGive, h]
  | cacheEnabled =>
    cases h : a.noCache <;> simp [applyArguments, Settings.value, Source.argumentsGive, h]
  | severity =>
    cases h : a.severity <;> simp [applyArguments, Settings.value, Source.argumentsGive, h]
  | cacheMaxEntries | included | excluded | projectRoot => rfl

/-- The arguments that are left when the settings among them are taken out. -/
def withoutSettings (a : CheckArguments) : CheckArguments :=
  { a with includeIgnored := false, noCache := false, severity := none }

/-- A run depends on the settings only through what the arguments make of them. -/
theorem run_eq_run_applyArguments (w : Workspace) (a : CheckArguments) (s : Settings) :
    run w a s = run w (withoutSettings a) (applyArguments a s) := by
  have h : applyArguments (withoutSettings a) (applyArguments a s) = applyArguments a s := by
    simp [applyArguments, withoutSettings]
  unfold run
  rw [h]
  rfl

/-- The last source that gives a value is asked first. -/
theorem findSome?_gives (dir : Path) (shared own : Option Table) (e : Environment)
    (a : CheckArguments) (k : Setting) :
    (Source.all dir shared own e a).reverse.findSome? (·.gives k) =
      some ((Source.argumentsGive a k).getD
        ((Settings.loadGives shared own e k).getD ((Settings.default dir).value k))) := by
  simp only [Source.all, List.reverse_cons, List.reverse_nil, List.nil_append, List.cons_append,
    List.findSome?_cons, Settings.loadGives, Source.gives]
  cases Source.argumentsGive a k with
  | some d => rfl
  | none =>
    cases Source.environmentGives e k with
    | some d => rfl
    | none =>
      cases own.bind (Source.tableGives · k) with
      | some d => rfl
      | none => cases (Source.sharedTable shared).bind (Source.tableGives · k) <;> rfl

/-- Every setting of a run has the value of the last source that gives it an accepted one: the
defaults, the shared file, the project's own file, the environment, the arguments, in this order.
Values of the wrong kind, unknown severities and limits that are negative or no numbers are
given by no source, so they hide nothing; the two settings of the cache are told apart like all
others. A configuration file fails to load only if a pattern in it has no text. -/
theorem run_settings_precedence {w : Workspace} {root dir : Path} {shared own : Option Table}
    (h : Settings.Contents w root dir shared own) (e : Environment) :
    (Settings.filesWritable shared own = false →
      Settings.load w e root = .error .integerUnprintable) ∧
    (Settings.filesWritable shared own = true → ∃ s, Settings.load w e root = .ok s ∧
      (s.severity ∈ Settings.severities ∧ 0 ≤ s.cache.maxEntries ∧
        s.explicit .projectRoot = false ∧
        ∀ k, s.explicit k = false → s.value k = (Settings.default dir).value k) ∧
      ∀ a : CheckArguments,
        (∀ k, (Source.all dir shared own e a).reverse.findSome? (·.gives k) =
          some ((applyArguments a s).value k)) ∧
        run w a s = run w (withoutSettings a) (applyArguments a s) ∧
        ∀ words, Request.ofWords words = .check a →
          (applyArguments a s).severity ∈ Settings.severities ∧
          (root = .ofString "." → runProgram w e words = run w a s)) := by
  refine ⟨Settings.load_of_not_writable h, ?_⟩
  intro hw
  obtain ⟨s, hload, hs⟩ := Settings.load_of_writable (e := e) h hw
  have hseverity : s.severity ∈ Settings.severities := Settings.accepted_value hs .severity
  refine ⟨s, hload, ⟨hseverity, Settings.accepted_value hs .cacheMaxEntries, ?_, ?_⟩, ?_⟩
  · rw [hs.explicit, Settings.loadGives_projectRoot]
    rfl
  · intro k hk
    rw [hs.explicit, Option.isSome_eq_false_iff, Option.isNone_iff_eq_none] at hk
    rw [hs.value, hk]
    rfl
  · intro a
    refine ⟨?_, run_eq_run_applyArguments w a s, ?_⟩
    · intro k
      rw [findSome?_gives, value_applyArguments, hs.value]
    · intro words hwords
      constructor
      · have hchosen := chosen_ofWords hwords
        change a.severity.getD s.severity ∈ Settings.severities
        cases ha : a.severity with
        | none => exact hseverity
        | some severity => exact hchosen severity ha
      · rintro rfl
        simp only [runProgram, hwords, hload]
        rfl

/-- A project whose two files disagree, and one of which gives a limit that is no number. -/
def sampleProject : Workspace where
  entries :=
    [(["w"], .directory),
      (["w", "pyproject.toml"], .file
        "[tool.missingdefault]\nseverity = \"warning\"\ncache.max_entries = 5\n".toUTF8.toList),
      (["w", ".missingdefault.toml"], .file
        "severity = \"Info\"\ncache.max_entries = true\ncache.enabled = false\n".toUTF8.toList)]
  cwd := ⟨.root, ["w"]⟩

/-- Neither the severity nor the limit is accepted. -/
def sampleEnvironment : Environment := ⟨some "loud", none, none, some "-1"⟩

def sampleArguments : CheckArguments := { CheckArguments.default with includeIgnored := true }

/-- What is not accepted hides nothing, and the cache has its two settings from two files. -/
theorem run_settings_sampleProject :
    ∃ s, Settings.load sampleProject sampleEnvironment (.ofString ".") = .ok s ∧
      ∀ p ∈ [(Setting.severity, Datum.level "info"), (.cacheMaxEntries, .limit 5),
        (.cacheEnabled, .flag false), (.respectIgnores, .flag false)],
        (applyArguments sampleArguments s).value p.1 = p.2 := by
  let dir : Path := ⟨.root, ["w"]⟩
  let shared := Settings.contentOf sampleProject (dir.child "pyproject.toml")
  let own := Settings.contentOf sampleProject (dir.child ".missingdefault.toml")
  have hcontents : Settings.Contents sampleProject (.ofString ".") dir shared own := by
    constructor
    case resolved => rfl
    case sharedFile => exact Settings.readTable?_eq_ok (by decide +kernel)
    case ownFile => exact Settings.readTable?_eq_ok (by decide +kernel)
    case toolTable => decide +kernel
  obtain ⟨s, hload, -, hrun⟩ :=
    (run_settings_precedence hcontents sampleEnvironment).2 (by decide +kernel)
  have hgives : ∀ p ∈ [(Setting.severity, Datum.level "info"), (.cacheMaxEntries, .limit 5),
      (.cacheEnabled, .flag false), (.respectIgnores, .flag false)],
      (Source.all dir shared own sampleEnvironment sampleArguments).reverse.findSome?
        (·.gives p.1) = some p.2 := by
    decide +kernel
  refine ⟨s, hload, ?_⟩
  intro p hp
  exact Option.some.inj (((hrun sampleArguments).1 p.1).symm.trans (hgives p hp))

end Check

end DefaultImports
