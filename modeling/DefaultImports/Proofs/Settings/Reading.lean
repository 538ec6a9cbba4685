import DefaultImports.Proofs.Settings.Source

/-! What is read from a table and from the environment is what these give. -/
namespace DefaultImports

open Toml

/-- Severities are told apart by their lower-case form. -/
theorem Datum.map_severity? (text : String) :
    (Settings.severity? text).map .level = level? text := by
  unfold Settings.severity? level?
  by_cases h : Settings.lower text ∈ Settings.severities
  · rw [if_pos h]
    cases hfind : Settings.severities.find? (· == Settings.lower text) with
    | none => simpa using List.find?_eq_none.mp hfind _ h
    | some found =>
      have hfound := List.find?_some hfind
      simp only [beq_iff_eq] at hfound
      rw [hfound]
      rfl
  · have hnone : Settings.severities.find? (· == Settings.lower text) = none := by
      rw [List.find?_eq_none]
      rintro found hfound
      simp only [beq_iff_eq]
      rintro rfl
      exact h hfound
    rw [if_neg h, hnone]
    rfl

namespace Settings

variable {root : Path} {g : Setting → Option Datum} {s : Settings}

/-- What is there is read into the setting `k`, and without it nothing changes. -/
theorem records_option {α : Type} {k : Setting} {f : α → Datum} {set : α → Settings}
    (h : Records root g s) (hset : ∀ x, Puts s k (f x) (set x)) (x : Option α) :
    Records root (Function.update g k ((x.map f).or (g k))) ((x.map set).getD s) := by
  cases x with
  | none => simpa using h
  | some x => exact h.put (hset x)

/-- A text is read into the severity if it is a known one. -/
theorem records_level (h : Records root g s) (text : String) :
    Records root (Function.update g .severity ((Datum.level? text).or (g .severity)))
      (((severity? text).map s.setSeverity).getD s) := by
  rw [← Datum.map_severity?]
  exact records_option h (puts_setSeverity s) (severity? text)

/-- A number is read into the limit unless it is negative. -/
theorem records_limit (h : Records root g s) (n : Int) :
    Records root
      (Function.update g .cacheMaxEntries ((Datum.limit? n).or (g .cacheMaxEntries)))
      (if 0 ≤ n then s.setMaxEntries n else s) := by
  unfold Datum.limit?
  split
  · exact h.put (puts_setMaxEntries s n)
  · simpa using h

/-! ## Tables -/

/-- Every item of a list has a text. -/
def writable : Option Value → Bool
  | some (.array items) => items.all (·.text?.isSome)
  | _ => true

theorem texts_eq (items : List Value) :
    texts items = match items.mapM Value.text? with
      | some texts => .ok texts
      | none => .error .integerUnprintable := by
  induction items with
  | nil => rfl
  | cons v rest ih =>
    rw [texts, ih, List.mapM_cons]
    cases v.text? with
    | none => rfl
    | some text => cases rest.mapM Value.text? <;> rfl

theorem isSome_mapM_text? (items : List Value) :
    (items.mapM Value.text?).isSome = items.all (·.text?.isSome) := by
  induction items with
  | nil => rfl
  | cons v rest ih =>
    rw [List.mapM_cons, List.all_cons, ← ih]
    cases v.text? with
    | none => rfl
    | some text => cases rest.mapM Value.text? <;> rfl

/-- A list of patterns is read into the setting `k`, unless an item has no text. -/
theorem records_patterns {k : Setting} {set : List String → Settings} (h : Records root g s)
    (hset : ∀ texts, Puts s k (.patterns texts) (set texts)) (v : Option Value)
    {r : Except SettingsError Settings}
    (hr : r = match v with
      | some (.array items) => set <$> texts items
      | _ => .ok s) :
    (writable v = true → ∃ t, r = .ok t ∧
      Records root (Function.update g k ((Datum.patterns? v).or (g k))) t) ∧
    (writable v = false → r = .error .integerUnprintable) := by
  subst hr
  unfold Datum.patterns? writable
  split
  · rename_i items
    simp only [texts_eq, ← isSome_mapM_text?]
    cases items.mapM Value.text? with
    | none => exact ⟨nofun, fun _ => rfl⟩
    | some texts => exact ⟨fun _ => ⟨set texts, rfl, h.put (hset texts)⟩, nofun⟩
  · exact ⟨fun _ => ⟨s, rfl, by simpa using h⟩, nofun⟩

theorem records_readIncluded (h : Records root g s) (v : Option Value) :
    (writable v = true → ∃ t, s.readIncluded v = .ok t ∧
      Records root (Function.update g .included ((Datum.patterns? v).or (g .included))) t) ∧
    (writable v = false → s.readIncluded v = .error .integerUnprintable) :=
  records_patterns h (puts_setIncluded s) v rfl

theorem records_readExcluded (h : Records root g s) (v : Option Value) :
    (writable v = true → ∃ t, s.readExcluded v = .ok t ∧
      Records root (Function.update g .excluded ((Datum.patterns? v).or (g .excluded))) t) ∧
    (writable v = false → s.readExcluded v = .error .integerUnprintable) :=
  records_patterns h (puts_setExcluded s) v rfl

/-- A flag is read into the setting `k`. -/
theorem records_flag {k : Setting} {set : Bool → Settings} (h : Records root g s)
    (hset : ∀ b, Puts s k (.flag b) (set b)) (v : Option Value) {t : Settings}
    (ht : t = match v with
      | some (.bool b) => set b
      | _ => s) :
    Records root (Function.update g k ((Datum.flag? v).or (g k))) t := by
  subst ht
  unfold Datum.flag?
  split
  · exact h.put (hset _)
  · simpa using h

theorem records_readRespectIgnores (h : Records root g s) (v : Option Value) :
    Records root (Function.update g .respectIgnores ((Datum.flag? v).or (g .respectIgnores)))
      (s.readRespectIgnores v) :=
  records_flag h (puts_setRespectIgnores s) v rfl

theorem records_readSeverity (h : Records root g s) (v : Option Value) :
    Records root (Function.update g .severity ((Datum.levelIn? v).or (g .severity)))
      (s.readSeverity v) := by
  unfold readSeverity Datum.levelIn?
  split
  · exact records_level h _
  · simpa using h

theorem records_readCacheEnabled (h : Records root g s) (v : Option Value) :
    Records root (Function.update g .cacheEnabled ((Datum.flag? v).or (g .cacheEnabled)))
      (s.readCacheEnabled v) :=
  records_flag h (puts_setCacheEnabled s) v rfl

theorem records_readMaxEntries (h : Records root g s) (v : Option Value) :
    Records root
      (Function.update g .cacheMaxEntries ((Datum.limitIn? v).or (g .cacheMaxEntries)))
      (s.readMaxEntries v) := by
  unfold readMaxEntries Datum.limitIn?
  split
  · exact records_limit h _
  · simpa using h

/-- The pattern lists of a table have only items with a text. -/
def tableWritable (t : Table) : Bool :=
  writable (t.lookup "include") && writable (t.lookup "exclude")

theorem readCache_eq (s : Settings) (t : Table) :
    s.readCache (t.lookup "cache") =
      (s.readCacheEnabled ((Source.cacheTable t).lookup "enabled")).readMaxEntries
        ((Source.cacheTable t).lookup "max_entries") := by
  unfold readCache Source.cacheTable
  cases t.lookup "cache" with
  | none => rfl
  | some v => cases v <;> rfl

theorem ofTable_of_writable (root : Path) {t : Table} (ht : tableWritable t = true) :
    ∃ s, ofTable root t = .ok s ∧ Records root (Source.tableGives t) s := by
  obtain ⟨hi, he⟩ := (Bool.and_eq_true _ _).mp ht
  obtain ⟨s₁, hs₁, h₁⟩ := (records_readIncluded (records_default root) (t.lookup "include")).1 hi
  obtain ⟨s₂, hs₂, h₂⟩ := (records_readExcluded h₁ (t.lookup "exclude")).1 he
  have h₃ := records_readRespectIgnores h₂ (t.lookup "respect_gitignore")
  have h₄ := records_readSeverity h₃ (t.lookup "severity")
  have h₅ := records_readCacheEnabled h₄ ((Source.cacheTable t).lookup "enabled")
  have h₆ := records_readMaxEntries h₅ ((Source.cacheTable t).lookup "max_entries")
  refine ⟨_, ?_, h₆.congr ?_⟩
  · rw [ofTable, hs₁]
    simp only [bind, Except.bind, hs₂, readCache_eq]
    rfl
  · intro k
    cases k <;> simp [Function.update, Source.tableGives]

theorem ofTable_of_not_writable (root : Path) {t : Table} (ht : tableWritable t = false) :
    ofTable root t = .error .integerUnprintable := by
  have hincluded := records_readIncluded (records_default root) (t.lookup "include")
  cases hi : writable (t.lookup "include") with
  | false =>
    rw [ofTable, hincluded.2 hi]
    rfl
  | true =>
    obtain ⟨s₁, hs₁, h₁⟩ := hincluded.1 hi
    have he : writable (t.lookup "exclude") = false := by simpa [tableWritable, hi] using ht
    rw [ofTable, hs₁]
    simp only [bind, Except.bind, (records_readExcluded h₁ (t.lookup "exclude")).2 he]

/-- A shared file whose `tool`, if it is there, is a table gives its table for this program. -/
theorem toolTable?_eq {t : Table} (h : (t.lookup "tool").all Source.isTable = true) :
    toolTable? t = .ok (Source.sharedTable (some t)) := by
  rw [toolTable?, Source.sharedTable, Option.bind_some]
  cases htool : t.lookup "tool" with
  | none => rfl
  | some v =>
    rw [htool] at h
    cases v with
    | table tools =>
      dsimp only
      cases tools.lookup "missingdefault" with
      | none => rfl
      | some v => cases v <;> rfl
    | _ => cases h

/-! ## The environment -/

theorem given_eq (v : Option String) : given v = v.filter (· ≠ "") := by
  unfold given
  congr 1
  funext text
  rw [Bool.eq_iff_iff]
  simp

theorem records_readEnvSeverity (h : Records root g s) (v : Option String) :
    Records root
      (Function.update g .severity (((v.filter (· ≠ "")).bind Datum.level?).or (g .severity)))
      (s.readEnvSeverity v) := by
  unfold readEnvSeverity
  rw [given_eq]
  cases v.filter (· ≠ "") with
  | none => simpa using h
  | some text => exact records_level h text

theorem records_readEnvNoCache (h : Records root g s) (v : Option String) :
    Records root
      (Function.update g .cacheEnabled (((v.filter (· ≠ "")).map fun text =>
        .flag (!isTruthy text)).or (g .cacheEnabled)))
      (s.readEnvNoCache v) := by
  unfold readEnvNoCache
  rw [given_eq]
  exact records_option h (fun text => puts_setCacheEnabled s (!isTruthy text)) _

theorem records_readEnvRespectIgnores (h : Records root g s) (v : Option String) :
    Records root
      (Function.update g .respectIgnores (((v.filter (· ≠ "")).map fun text =>
        .flag (isTruthy text)).or (g .respectIgnores)))
      (s.readEnvRespectIgnores v) := by
  unfold readEnvRespectIgnores
  rw [given_eq]
  exact records_option h (fun text => puts_setRespectIgnores s (isTruthy text)) _

theorem records_readEnvMaxEntries (h : Records root g s) (v : Option String) :
    Records root
      (Function.update g .cacheMaxEntries
        ((((v.filter (· ≠ "")).bind integer?).bind Datum.limit?).or (g .cacheMaxEntries)))
      (s.readEnvMaxEntries v) := by
  unfold readEnvMaxEntries
  rw [given_eq]
  cases (v.filter (· ≠ "")).bind integer? with
  | none => simpa using h
  | some n => exact records_limit h n

theorem records_ofEnvironment (cwd : Path) (e : Environment) :
    Records cwd (Source.environmentGives e) (ofEnvironment cwd e) := by
  have h₁ := records_readEnvSeverity (records_default cwd) e.severity
  have h₂ := records_readEnvNoCache h₁ e.noCache
  have h₃ := records_readEnvRespectIgnores h₂ e.respectIgnores
  have h₄ := records_readEnvMaxEntries h₃ e.maxEntries
  refine h₄.congr ?_
  intro k
  cases k <;> simp [Function.update, Source.environmentGives]

end Settings

end DefaultImports
