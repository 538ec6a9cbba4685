import DefaultImports.Proofs.Settings.Reading
import DefaultImports.Proofs.Workspace.Place

/-! Which configuration files are passed over, and which break a run off. Main statement:
`load_broken_files`. -/
namespace DefaultImports

open Toml

/-- The configuration files of a project: one that several tools share, and its own. -/
inductive ConfigFile where
  | shared
  | own
deriving DecidableEq

namespace ConfigFile

variable {k : ConfigFile} {bytes : List UInt8} {err : SettingsError} {root : Path}

def name : ConfigFile → String
  | .shared => "pyproject.toml"
  | .own => ".missingdefault.toml"

theorem name_inj {j k : ConfigFile} (h : j.name = k.name) : j = k := by
  cases j <;> cases k <;> simp [name] at h ⊢

theorem isName_name (k : ConfigFile) : Workspace.IsName k.name := by
  cases k <;> decide

/-- The bytes are those of a document. -/
def Reads (bytes : List UInt8) (t : Table) : Prop :=
  ∃ text, Utf8.decode bytes = .ok text ∧ parse text = .ok t

/-- The table in a document with the settings, for a document whose `tool`, if it matters and is
there, is a table. -/
inductive Holds : ConfigFile → Table → Option Table → Prop where
  | own (t : Table) : Holds .own t (some t)
  | shared {t : Table} (h : (t.lookup "tool").all Source.isTable = true) :
      Holds .shared t (Source.sharedTable (some t))

/-- Why the bytes of a file break a run off. -/
inductive Breaks (k : ConfigFile) (bytes : List UInt8) : SettingsError → Prop where
  | encoding {f : Utf8.Fault} (h : Utf8.decode bytes = .error f) : Breaks k bytes (.encoding f)
  | integerTooLong {text : List Char} {digits : Nat} (htext : Utf8.decode bytes = .ok text)
      (h : parse text = .error (.integerTooLong digits)) : Breaks k bytes (.integerTooLong digits)
  | toolNotTable {t : Table} {v : Value} (hk : k = .shared) (ht : Reads bytes t)
      (htool : t.lookup "tool" = some v) (hv : Source.isTable v = false) :
      Breaks k bytes (.toolNotTable v.typeName)
  | integerUnprintable {t held : Table} (ht : Reads bytes t) (hheld : Holds k t (some held))
      (h : Settings.tableWritable held = false) : Breaks k bytes .integerUnprintable

/-- The bytes are a text that is malformed, or do not hold the table with the settings. -/
inductive PassedOver (k : ConfigFile) (bytes : List UInt8) : Prop where
  | malformed {text : List Char} (htext : Utf8.decode bytes = .ok text)
      (h : parse text = .error .malformed) : PassedOver k bytes
  | noTable {t : Table} (ht : Reads bytes t) (h : Holds k t none) : PassedOver k bytes

/-! ## What the bytes of a file come to -/

def table? : ConfigFile → Table → Except SettingsError (Option Table)
  | .shared, t => Settings.toolTable? t
  | .own, t => .ok (some t)

/-- The content of a file with the given bytes. -/
def content? (bytes : List UInt8) : Except SettingsError (Option Table) := do
  match parse (← (Utf8.decode bytes).mapError .encoding) with
  | .ok t => return some t
  | .error .malformed => return none
  | .error (.integerTooLong digits) => throw (.integerTooLong digits)

/-- The settings in a file with the given content. -/
def settings? (k : ConfigFile) (root : Path) (content : Option Table) :
    Except SettingsError (Option Settings) := do
  let some t := content | return none
  let some held ← k.table? t | return none
  some <$> Settings.ofTable root held

theorem content?_of_reads {t : Table} (h : Reads bytes t) : content? bytes = .ok (some t) := by
  obtain ⟨text, htext, ht⟩ := h
  simp only [content?, htext, Except.mapError, bind, Except.bind, ht]
  rfl

theorem table?_of_holds {t : Table} {held : Option Table} (h : Holds k t held) :
    k.table? t = .ok held := by
  cases h with
  | own => rfl
  | shared h => exact Settings.toolTable?_eq h

/-- A document holds its settings, or its `tool` is not a table. -/
theorem holds_or_toolNotTable (k : ConfigFile) (t : Table) :
    (∃ held, Holds k t held) ∨
      k = .shared ∧ ∃ v, t.lookup "tool" = some v ∧ Source.isTable v = false := by
  cases k with
  | own => exact .inl ⟨_, .own t⟩
  | shared =>
    cases hall : (t.lookup "tool").all Source.isTable with
    | true => exact .inl ⟨_, .shared hall⟩
    | false =>
      cases htool : t.lookup "tool" with
      | none =>
        rw [htool] at hall
        cases hall
      | some v =>
        rw [htool] at hall
        exact .inr ⟨rfl, v, rfl, hall⟩

theorem table?_of_toolNotTable {t : Table} {v : Value} (htool : t.lookup "tool" = some v)
    (hv : Source.isTable v = false) : table? .shared t = .error (.toolNotTable v.typeName) := by
  rw [table?, Settings.toolTable?, htool]
  cases v with
  | table => cases hv
  | _ => rfl

/-- What the bytes of a file come to, and why. -/
inductive Comes (k : ConfigFile) (root : Path) (bytes : List UInt8) :
    Except SettingsError (Option Settings) → Prop where
  | error {err : SettingsError} (h : Breaks k bytes err) : Comes k root bytes (.error err)
  | none (h : PassedOver k bytes) : Comes k root bytes (.ok none)
  | some (s : Settings) : Comes k root bytes (.ok (some s))

theorem comes_settings? (k : ConfigFile) (root : Path) (bytes : List UInt8) :
    Comes k root bytes (content? bytes >>= k.settings? root) := by
  -- the bytes are decoded, parsed, searched for the table and read, and each step can end it
  cases htext : Utf8.decode bytes with
  | error f =>
    simp only [content?, htext]
    exact .error (.encoding htext)
  | ok text =>
    cases ht : parse text with
    | error err =>
      simp only [content?, htext, Except.mapError, bind, Except.bind, ht]
      cases err with
      | malformed => exact .none (.malformed htext ht)
      | integerTooLong digits => exact .error (.integerTooLong htext ht)
    | ok t =>
      have hreads : Reads bytes t := ⟨text, htext, ht⟩
      rw [content?_of_reads hreads]
      simp only [bind, Except.bind, settings?]
      rcases holds_or_toolNotTable k t with ⟨held, hheld⟩ | ⟨rfl, v, htool, hv⟩
      · rw [table?_of_holds hheld]
        cases held with
        | none => exact .none (.noTable hreads hheld)
        | some held =>
          cases hwritable : Settings.tableWritable held with
          | true =>
            obtain ⟨s, hs, -⟩ := Settings.ofTable_of_writable root hwritable
            simp only [hs]
            exact .some s
          | false =>
            simp only [Settings.ofTable_of_not_writable root hwritable]
            exact .error (.integerUnprintable hreads hheld hwritable)
      · rw [table?_of_toolNotTable htool hv]
        exact .error (.toolNotTable rfl hreads htool hv)

theorem settings?_of_breaks (root : Path) (h : Breaks k bytes err) :
    content? bytes >>= k.settings? root = .error err := by
  cases h with
  | encoding h =>
    simp only [content?, h]
    rfl
  | integerTooLong htext h =>
    simp only [content?, htext, Except.mapError, bind, Except.bind, h]
    rfl
  | toolNotTable hk ht htool hv =>
    subst hk
    simp only [content?_of_reads ht, bind, Except.bind, settings?, table?_of_toolNotTable htool hv]
  | integerUnprintable ht hheld h =>
    simp only [content?_of_reads ht, bind, Except.bind, settings?, table?_of_holds hheld,
      Settings.ofTable_of_not_writable root h]
    rfl

theorem settings?_of_passedOver (root : Path) (h : PassedOver k bytes) :
    content? bytes >>= k.settings? root = .ok none := by
  cases h with
  | malformed htext h =>
    simp only [content?, htext, Except.mapError, bind, Except.bind, h]
    rfl
  | noTable ht h =>
    simp only [content?_of_reads ht, bind, Except.bind, settings?, table?_of_holds h]
    rfl

/-! ## Files of a project -/

section

variable {w : Workspace} {e : Environment} {dir : List String}

def ofFile? : ConfigFile → Workspace → Path → Except SettingsError (Option Settings)
  | .shared => Settings.ofSharedFile?
  | .own => Settings.ofOwnFile?

theorem ofFile?_eq (k : ConfigFile) (w : Workspace) (root : Path) :
    k.ofFile? w root = Settings.readTable? w (root.child k.name) >>= k.settings? root := by
  cases k with
  | shared =>
    rw [ofFile?, Settings.ofSharedFile?, name]
    cases Settings.readTable? w (root.child "pyproject.toml") with
    | error err => rfl
    | ok content => cases content <;> rfl
  | own =>
    rw [ofFile?, Settings.ofOwnFile?, name]
    cases Settings.readTable? w (root.child ".missingdefault.toml") with
    | error err => rfl
    | ok content => cases content <;> rfl

/-- What a file of a tree holds is decided by its entry. -/
theorem readTable?_eq (ht : w.IsTree) (hdir : w.entryAt? dir = some .directory)
    (k : ConfigFile) :
    Settings.readTable? w (Path.child ⟨.root, dir⟩ k.name) =
      match w.entryAt? (dir ++ [k.name]) with
      | some (.file bytes) => content? bytes
      | _ => .ok none := by
  unfold Settings.readTable? Path.child Workspace.probe Workspace.readBytes
  dsimp only
  cases hentry : w.entryAt? (dir ++ [k.name]) with
  | none =>
    rw [ht.entry_of_none hdir k.isName_name hentry]
    rfl
  | some entry =>
    rw [ht.entry_eq hentry]
    cases entry <;> rfl

/-- The run breaks off at a file. -/
def BreaksAt (w : Workspace) (dir : List String) (k : ConfigFile) (err : SettingsError) : Prop :=
  ∃ bytes, w.entryAt? (dir ++ [k.name]) = some (.file bytes) ∧ Breaks k bytes err

theorem ofFile?_eq_error_iff (ht : w.IsTree) (hdir : w.entryAt? dir = some .directory) :
    k.ofFile? w ⟨.root, dir⟩ = .error err ↔ BreaksAt w dir k err := by
  rw [ofFile?_eq, readTable?_eq ht hdir]
  constructor
  · intro h
    cases hentry : w.entryAt? (dir ++ [k.name]) with
    | none =>
      rw [hentry] at h
      cases h
    | some entry =>
      rw [hentry] at h
      cases entry with
      | directory => cases h
      | file bytes =>
        have hcomes := comes_settings? k ⟨.root, dir⟩ bytes
        dsimp only at h
        rw [h] at hcomes
        cases hcomes with
        | error hbreaks => exact ⟨bytes, hentry, hbreaks⟩
  · rintro ⟨bytes, hentry, hbreaks⟩
    rw [hentry]
    exact settings?_of_breaks _ hbreaks

/-- A file that is passed over gives no settings, as one that is missing. -/
theorem ofFile?_of_passedOver (ht : w.IsTree) (hdir : w.entryAt? dir = some .directory)
    (hentry : w.entryAt? (dir ++ [k.name]) = some (.file bytes)) (h : PassedOver k bytes) :
    k.ofFile? w ⟨.root, dir⟩ = .ok none := by
  rw [ofFile?_eq, readTable?_eq ht hdir, hentry]
  exact settings?_of_passedOver _ h

theorem ofFile?_of_missing (ht : w.IsTree) (hdir : w.entryAt? dir = some .directory)
    (hentry : w.entryAt? (dir ++ [k.name]) = none) : k.ofFile? w ⟨.root, dir⟩ = .ok none := by
  rw [ofFile?_eq, readTable?_eq ht hdir, hentry]
  rfl

end

end ConfigFile

namespace Settings

variable {w : Workspace} {e : Environment} {dir : List String} {root : Path}

open ConfigFile

theorem load_eq_bind (hroot : w.resolve root = .ok ⟨.root, dir⟩) :
    load w e root = (do
      let shared ← ConfigFile.shared.ofFile? w ⟨.root, dir⟩
      let own ← ConfigFile.own.ofFile? w ⟨.root, dir⟩
      return (((default ⟨.root, dir⟩).mergeSome shared).mergeSome own).merge
        (ofEnvironment w.cwd e)) := by
  rw [load, hroot]
  rfl

/-- The first file that breaks the run off decides about the error. -/
theorem load_eq_error_iff (ht : w.IsTree) (hroot : w.resolve root = .ok ⟨.root, dir⟩)
    (hdir : w.entryAt? dir = some .directory) {err : SettingsError} :
    load w e root = .error err ↔
      BreaksAt w dir .shared err ∨
        (∀ other, ¬ BreaksAt w dir .shared other) ∧ BreaksAt w dir .own err := by
  simp only [load_eq_bind hroot, ← ofFile?_eq_error_iff ht hdir]
  cases ConfigFile.shared.ofFile? w ⟨.root, dir⟩ with
  | error other => simp [bind, Except.bind]
  | ok shared =>
    cases ConfigFile.own.ofFile? w ⟨.root, dir⟩ with
    | error other => simp [bind, Except.bind]
    | ok own => simp [bind, Except.bind, pure, Except.pure]

/-- Taking a file away that is passed over changes nothing. -/
theorem load_without (ht : w.IsTree) (hroot : w.resolve root = .ok ⟨.root, dir⟩)
    (hdir : w.entryAt? dir = some .directory) {k : ConfigFile} {bytes : List UInt8}
    (hentry : w.entryAt? (dir ++ [k.name]) = some (.file bytes)) (h : PassedOver k bytes) :
    load (w.without (dir ++ [k.name])) e root = load w e root := by
  have ht' : (w.without (dir ++ [k.name])).IsTree :=
    ht.without (Workspace.isFileAt_iff.mpr ⟨bytes, hentry⟩)
  have hdir' : (w.without (dir ++ [k.name])).entryAt? dir = some .directory := by
    rw [Workspace.entryAt?_without_of_ne (by simp), hdir]
  have hfile : ∀ j : ConfigFile,
      j.ofFile? (w.without (dir ++ [k.name])) ⟨.root, dir⟩ = j.ofFile? w ⟨.root, dir⟩ := by
    intro j
    by_cases hj : j.name = k.name
    · obtain rfl := name_inj hj
      rw [ofFile?_of_passedOver ht hdir hentry h,
        ofFile?_of_missing ht' hdir' (Workspace.entryAt?_without_self (by simp))]
    · have hne : dir ++ [j.name] ≠ dir ++ [k.name] := by simpa using hj
      rw [ofFile?_eq, ofFile?_eq, readTable?_eq ht hdir, readTable?_eq ht' hdir',
        Workspace.entryAt?_without_of_ne hne]
  have hroot' : (w.without (dir ++ [k.name])).resolve root = .ok ⟨.root, dir⟩ := hroot
  rw [load_eq_bind hroot, load_eq_bind hroot', hfile, hfile]
  rfl

/-- Loading the settings fails exactly at a file that is not UTF-8, has an integer that is too long,
has one that cannot be written in a list of patterns, or gives `tool` another value than a table,
and the shared file comes first. A file that is a text but malformed, or does not hold the expected
table, is as good as missing. Values may be nested to any depth here: an interpreter that reads them
with a stack of limited height fails at deeper ones as well, and its limit is not modelled. -/
theorem load_broken_files {w : Workspace} {e : Environment} {root : Path} {dir : List String}
    (htree : w.IsTree) (hroot : w.resolve root = .ok ⟨.root, dir⟩)
    (hdir : w.entryAt? dir = some .directory) :
    (∀ err, load w e root = .error err ↔
      BreaksAt w dir .shared err ∨
        (∀ other, ¬ BreaksAt w dir .shared other) ∧ BreaksAt w dir .own err) ∧
    ∀ k bytes, w.entryAt? (dir ++ [k.name]) = some (.file bytes) → PassedOver k bytes →
      load (w.without (dir ++ [k.name])) e root = load w e root := by
  constructor
  · intro err
    exact load_eq_error_iff htree hroot hdir
  · intro k bytes hentry hpassed
    exact load_without htree hroot hdir hentry hpassed

/-- A project whose shared file has the given bytes. -/
def sampleConfig (bytes : List UInt8) : Workspace where
  entries :=
    [(["w"], .directory),
      (["w", "pyproject.toml"], .file bytes),
      (["w", ".missingdefault.toml"], .file "severity = \"warning\"\n".toUTF8.toList)]
  cwd := ⟨.root, ["w"]⟩

/-- A malformed file beside a good one is as good as missing. -/
theorem load_sampleConfig :
    let w := sampleConfig "this is = = not toml".toUTF8.toList
    load (w.without ["w", "pyproject.toml"]) ⟨none, none, none, some "7"⟩ (.ofString ".") =
      load w ⟨none, none, none, some "7"⟩ (.ofString ".") := by
  intro w
  have htext : Utf8.decode "this is = = not toml".toUTF8.toList =
      .ok "this is = = not toml".toList := by decide +kernel
  have hpassed : PassedOver .shared "this is = = not toml".toUTF8.toList := .malformed htext rfl
  have hroot : w.resolve (.ofString ".") = .ok ⟨.root, ["w"]⟩ := by decide +kernel
  exact (load_broken_files (by decide +kernel) hroot (by decide +kernel)).2 .shared _ rfl hpassed

/-- Bytes that are not UTF-8, and a `tool` that is not a table, break a run off that has settings
without that file. -/
theorem load_sampleConfig_broken :
    (load (sampleConfig [0xFF]) ⟨none, none, none, none⟩ (.ofString ".")).isOk = false ∧
    (load (sampleConfig "tool = 1\n".toUTF8.toList) ⟨none, none, none, none⟩
      (.ofString ".")).isOk = false ∧
    (load ((sampleConfig [0xFF]).without ["w", "pyproject.toml"]) ⟨none, none, none, none⟩
      (.ofString ".")).isOk = true := by
  decide +kernel

end Settings

end DefaultImports
