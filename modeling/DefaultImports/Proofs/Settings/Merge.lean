import DefaultImports.Proofs.Settings.Source
import Mathlib.Data.List.Forall2

/-! Merging as an operation on settings: what a chain of merges comes to, and that neither the order
in which the given settings are taken over nor the way the chain is put in brackets makes a
difference. Main statement: `foldl_merge_last_explicit`. -/
namespace DefaultImports.Settings

variable {s t : Settings} {order : List Setting}

/-- The values of the settings and what was given say all about them. -/
theorem ext_value (hvalue : ∀ k, s.value k = t.value k)
    (hexplicit : ∀ k, s.explicit k = t.explicit k) : s = t := by
  obtain ⟨root, ⟨included, excluded⟩, ignores, severity, ⟨enabled, limit⟩, explicit⟩ := s
  obtain ⟨root', ⟨included', excluded'⟩, ignores', severity', ⟨enabled', limit'⟩, explicit'⟩ := t
  obtain rfl : root = root' := Datum.place.inj (hvalue .projectRoot)
  obtain rfl : included = included' := Datum.patterns.inj (hvalue .included)
  obtain rfl : excluded = excluded' := Datum.patterns.inj (hvalue .excluded)
  obtain rfl : ignores = ignores' := Datum.flag.inj (hvalue .respectIgnores)
  obtain rfl : severity = severity' := Datum.level.inj (hvalue .severity)
  obtain rfl : enabled = enabled' := Datum.flag.inj (hvalue .cacheEnabled)
  obtain rfl : limit = limit' := Datum.limit.inj (hvalue .cacheMaxEntries)
  obtain rfl : explicit = explicit' := funext hexplicit
  rfl

theorem explicit_merge (s t : Settings) (k : Setting) :
    (s.merge t).explicit k = (s.explicit k || t.explicit k) := rfl

/-! ## One setting after the other -/

/-- Gives one setting the value that it has in `other`. Those of the cache are written one level
further down. -/
def takeFrom (other s : Settings) : Setting → Settings
  | .included => { s with filter := { s.filter with included := other.filter.included } }
  | .excluded => { s with filter := { s.filter with excluded := other.filter.excluded } }
  | .respectIgnores => { s with respectIgnores := other.respectIgnores }
  | .severity => { s with severity := other.severity }
  | .cacheEnabled => { s with cache := { s.cache with enabled := other.cache.enabled } }
  | .cacheMaxEntries => { s with cache := { s.cache with maxEntries := other.cache.maxEntries } }
  | .projectRoot => { s with projectRoot := other.projectRoot }

/-- Takes settings from `other` in some order, after all that it was given is noted. -/
def mergeInOrder (s other : Settings) (order : List Setting) : Settings :=
  order.foldl (takeFrom other) { s with explicit := fun k => s.explicit k || other.explicit k }

/-- The order goes through all settings that were given, and through no others. -/
def Enumerates (s : Settings) (order : List Setting) : Prop := ∀ k, k ∈ order ↔ s.explicit k = true

theorem value_takeFrom (other s : Settings) (k j : Setting) :
    (takeFrom other s k).value j = if j = k then other.value j else s.value j := by
  cases k <;> cases j <;> rfl

theorem explicit_takeFrom (other s : Settings) (k : Setting) :
    (takeFrom other s k).explicit = s.explicit := by
  cases k <;> rfl

theorem value_foldl_takeFrom (other s : Settings) (order : List Setting) (j : Setting) :
    (order.foldl (takeFrom other) s).value j = if j ∈ order then other.value j else s.value j := by
  induction order generalizing s with
  | nil => rfl
  | cons k order ih =>
    rw [List.foldl_cons, ih, value_takeFrom]
    by_cases hrest : j ∈ order
    · rw [if_pos hrest, if_pos (List.mem_cons_of_mem k hrest)]
    · rw [if_neg hrest]
      simp only [List.mem_cons, hrest, or_false]

theorem explicit_foldl_takeFrom (other s : Settings) (order : List Setting) :
    (order.foldl (takeFrom other) s).explicit = s.explicit := by
  induction order generalizing s with
  | nil => rfl
  | cons k order ih => rw [List.foldl_cons, ih, explicit_takeFrom]

/-- Any order leads to the same settings. -/
theorem mergeInOrder_eq_merge (s : Settings) (h : Enumerates t order) :
    s.mergeInOrder t order = s.merge t := by
  apply ext_value
  · intro k
    rw [mergeInOrder, value_foldl_takeFrom, value_merge]
    exact if_congr (h k) rfl rfl
  · intro k
    rw [mergeInOrder, explicit_foldl_takeFrom]
    rfl

/-! ## Chains -/

theorem merge_assoc (a b c : Settings) : a.merge (b.merge c) = (a.merge b).merge c := by
  apply ext_value
  · intro k
    simp only [value_merge, explicit_merge]
    cases c.explicit k with
    | true => simp
    | false => simp
  · intro k
    simp only [explicit_merge, Bool.or_assoc]

theorem value_foldl_merge (a : Settings) (bs : List Settings) (k : Setting) :
    (bs.foldl merge a).value k = ((bs.reverse.find? (·.explicit k)).getD a).value k := by
  induction bs generalizing a with
  | nil => rfl
  | cons b bs ih =>
    rw [List.foldl_cons, ih, List.reverse_cons, List.find?_append]
    cases bs.reverse.find? (·.explicit k) with
    | some c => rfl
    | none =>
      -- nothing behind `b` gives the setting, so `b` is asked next
      rw [Option.getD_none, value_merge, Option.none_or, List.find?_singleton]
      split <;> rfl

theorem explicit_foldl_merge (a : Settings) (bs : List Settings) (k : Setting) :
    (bs.foldl merge a).explicit k = (a.explicit k || bs.any (·.explicit k)) := by
  induction bs generalizing a with
  | nil => simp
  | cons b bs ih => rw [List.foldl_cons, ih, explicit_merge, List.any_cons, Bool.or_assoc]

theorem foldl_mergeInOrder {bs : List Settings} {orders : List (List Setting)} (a : Settings)
    (h : List.Forall₂ Enumerates bs orders) :
    (bs.zip orders).foldl (fun s step => s.mergeInOrder step.1 step.2) a = bs.foldl merge a := by
  induction h generalizing a with
  | nil => rfl
  | cons hb _ ih =>
    rw [List.zip_cons_cons, List.foldl_cons, List.foldl_cons, ih, mergeInOrder_eq_merge a hb]

/-- In a chain of merges each setting has the value that it has in the last settings that were given
it, or else the one at the start of the chain, and it counts as given if any of them was given it.
The order in which each step takes over what was given does not matter, and merging is
associative. -/
theorem foldl_merge_last_explicit (a : Settings) (bs : List Settings) :
    (∀ k, (bs.foldl merge a).value k = ((bs.reverse.find? (·.explicit k)).getD a).value k) ∧
    (∀ k, (bs.foldl merge a).explicit k = true ↔
      a.explicit k = true ∨ ∃ b ∈ bs, b.explicit k = true) ∧
    (∀ orders, List.Forall₂ Enumerates bs orders →
      (bs.zip orders).foldl (fun s step => s.mergeInOrder step.1 step.2) a = bs.foldl merge a) ∧
    ∀ b c, a.merge (b.merge c) = (a.merge b).merge c := by
  refine ⟨value_foldl_merge a bs, ?_, fun orders => foldl_mergeInOrder a, merge_assoc a⟩
  intro k
  rw [explicit_foldl_merge, Bool.or_eq_true, List.any_eq_true]

/-- The first turns the cache off, the second turns it on again and gives it a limit. -/
def sampleLayers : List Settings :=
  [((default ⟨.root, ["v"]⟩).setCacheEnabled false).setSeverity "info",
    ((default ⟨.root, []⟩).setMaxEntries 0).setCacheEnabled true]

/-- The first is gone through in two ways. -/
theorem foldl_merge_sampleLayers :
    let a := default ⟨.root, ["w"]⟩
    let r := sampleLayers.foldl merge a
    (∀ p ∈ [(Setting.severity, Datum.level "info"), (.cacheEnabled, .flag true),
      (.cacheMaxEntries, .limit 0), (.projectRoot, .place ⟨.root, ["w"]⟩)], r.value p.1 = p.2) ∧
    ∀ order ∈ [[Setting.cacheEnabled, .severity], [.severity, .cacheEnabled]],
      (sampleLayers.zip [order, [.cacheMaxEntries, .cacheEnabled]]).foldl
        (fun s step => s.mergeInOrder step.1 step.2) a = r := by
  intro a r
  obtain ⟨hvalue, -, horder, -⟩ := foldl_merge_last_explicit a sampleLayers
  constructor
  · intro p hp
    rw [hvalue]
    revert p
    decide
  · intro order h
    refine horder _ (.cons ?_ (.cons (fun k => by cases k <;> decide) .nil))
    rcases (by simpa using h : order = [.cacheEnabled, .severity] ∨
      order = [.severity, .cacheEnabled]) with rfl | rfl <;>
      exact fun k => by cases k <;> decide

end DefaultImports.Settings
