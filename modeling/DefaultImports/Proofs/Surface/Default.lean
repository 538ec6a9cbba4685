import DefaultImports.Proofs.Pattern.Occurrence

/-! Default exports. Main statement: `hasDefaultIn_exact`, a module has one iff its text contains
one of three forms, wherever they stand. -/
namespace DefaultImports.Surface

open Text Pattern

/-- A brace list up to the end of an entry `name as default`, with the space behind it. -/
structure DefaultListing where
  gap : Spaces
  before : Run notClosing
  name : Run1 isNameChar
  beforeAs : Gap
  afterAs : Gap
  after : Spaces

def DefaultListing.text (l : DefaultListing) : List Char :=
  "export".toList ++ (l.gap.text ++ '{' :: (l.before.text ++ (l.name.text ++ (l.beforeAs.text ++
    ("as".toList ++ (l.afterAs.text ++ ("default".toList ++ l.after.text)))))))

theorem DefaultListing.text_append (l : DefaultListing) (rest : List Char) :
    l.text ++ rest = "export".toList ++ (l.gap.text ++ '{' :: (l.before.text ++ (l.name.text ++
      (l.beforeAs.text ++ ("as".toList ++ (l.afterAs.text ++ ("default".toList ++
        (l.after.text ++ rest)))))))) := by
  delta text
  simp only [List.append_assoc, List.cons_append]

/-- The texts that give a module a default export. -/
inductive DefaultForm : List Char → Prop where
  /-- `export default` -/
  | statement (gap after : Gap) :
    DefaultForm ("export".toList ++ (gap.text ++ ("default".toList ++ after.text)))
  /-- `export { a, b as default }` -/
  | last (l : DefaultListing) : DefaultForm (l.text ++ ['}'])
  /-- `export { a, b as default, c }` -/
  | listed (l : DefaultListing) (others : Run notClosing) :
    DefaultForm (l.text ++ ',' :: (others.text ++ ['}']))

variable {text rest : List Char}

theorem edgeless_defaultStatement : Edgeless defaultStatement := by
  simp [defaultStatement]

theorem edgeless_defaultEntry : Edgeless defaultEntry := by
  simp [defaultEntry]

/-! ## Shapes of the patterns -/

theorem leaves_defaultStatement : Leaves defaultStatement text rest ↔
    ∃ gap after : Gap,
      text = "export".toList ++ (gap.text ++ ("default".toList ++ after.text)) ++ rest := by
  simp only [defaultStatement, leaves_append_assoc]
  simp only [leaves_append, leaves_word, someSpace, leaves_run1]
  constructor
  · rintro ⟨_, rfl, _, ⟨gap, rfl⟩, _, rfl, after, rfl⟩
    exact ⟨gap, after, by simp only [List.append_assoc]⟩
  · rintro ⟨gap, after, rfl⟩
    simp only [List.append_assoc]
    exact ⟨_, rfl, _, ⟨gap, rfl⟩, _, rfl, after, rfl⟩

/-- A brace list up to the default entry. -/
def listingPart : Pattern Empty :=
  word "export" ++ spaces ++ char '{' ++ few notClosing ++ oneOrMore isNameChar ++ someSpace ++
    word "as" ++ someSpace ++ word "default" ++ spaces

/-- What follows the default entry. -/
def listingEnd : Pattern Empty := maybe (char ',' ++ many notClosing) ++ char '}'

theorem leaves_defaultEntry_eq :
    Leaves defaultEntry text rest ↔ Leaves (listingPart ++ listingEnd) text rest :=
  leaves_append_assoc

theorem leaves_listingPart :
    Leaves listingPart text rest ↔ ∃ l : DefaultListing, text = l.text ++ rest := by
  simp only [listingPart, leaves_append_assoc]
  simp only [leaves_append, leaves_word, spaces, someSpace, leaves_many, leaves_run1, leaves_few,
    leaves_char]
  constructor
  · rintro ⟨_, rfl, _, ⟨gap, rfl⟩, _, rfl, _, ⟨before, rfl⟩, _, ⟨name, rfl⟩, _, ⟨beforeAs, rfl⟩,
      _, rfl, _, ⟨afterAs, rfl⟩, _, rfl, after, rfl⟩
    refine ⟨⟨gap, before, name, beforeAs, afterAs, after⟩, ?_⟩
    rw [DefaultListing.text_append]
  · rintro ⟨l, rfl⟩
    rw [DefaultListing.text_append]
    exact ⟨_, rfl, _, ⟨l.gap, rfl⟩, _, rfl, _, ⟨l.before, rfl⟩,
      _, ⟨l.name, rfl⟩, _, ⟨l.beforeAs, rfl⟩, _, rfl, _, ⟨l.afterAs, rfl⟩, _, rfl, l.after, rfl⟩

theorem leaves_listingEnd : Leaves listingEnd text rest ↔
    text = '}' :: rest ∨ ∃ others : Run notClosing, text = ',' :: (others.text ++ '}' :: rest) := by
  simp only [listingEnd, leaves_append, leaves_maybe, leaves_char, leaves_many]
  constructor
  · rintro ⟨_, ⟨_, rfl, others, rfl⟩ | rfl, rfl⟩
    · exact Or.inr ⟨others, rfl⟩
    · exact Or.inl rfl
  · rintro (rfl | ⟨others, rfl⟩)
    · exact ⟨_, Or.inr rfl, rfl⟩
    · exact ⟨_, Or.inl ⟨_, rfl, others, rfl⟩, rfl⟩

/-- The two patterns take the three forms and nothing else. -/
theorem leaves_default_iff :
    Leaves defaultStatement text rest ∨ Leaves defaultEntry text rest ↔
      ∃ form, DefaultForm form ∧ text = form ++ rest := by
  rw [leaves_defaultStatement, leaves_defaultEntry_eq, leaves_append]
  simp only [leaves_listingPart, leaves_listingEnd]
  constructor
  · rintro (⟨gap, after, rfl⟩ | ⟨_, ⟨l, rfl⟩, rfl | ⟨others, rfl⟩⟩)
    · exact ⟨_, .statement gap after, rfl⟩
    · exact ⟨_, .last l, by simp⟩
    · exact ⟨_, .listed l others, by simp⟩
  · rintro ⟨_, hform, rfl⟩
    cases hform with
    | statement gap after => exact Or.inl ⟨gap, after, rfl⟩
    | last l => exact Or.inr ⟨_, ⟨l, by simp⟩, Or.inl rfl⟩
    | listed l others => exact Or.inr ⟨_, ⟨l, by simp⟩, Or.inr ⟨others, rfl⟩⟩

/-! ## Default exports in a text -/

theorem hasDefaultIn_iff (source : List Char) :
    hasDefaultIn source = true ↔ ∃ form, DefaultForm form ∧ form <:+: source := by
  rw [hasDefaultIn, Bool.or_eq_true, occursIn_iff edgeless_defaultStatement,
    occursIn_iff edgeless_defaultEntry]
  constructor
  · intro h
    obtain ⟨before, found, rest, rfl, hleaves⟩ : ∃ before found rest, source = before ++ found ∧
        (Leaves defaultStatement found rest ∨ Leaves defaultEntry found rest) := by
      rcases h with ⟨before, found, rest, hsource, h⟩ | ⟨before, found, rest, hsource, h⟩
      · exact ⟨before, found, rest, hsource, Or.inl h⟩
      · exact ⟨before, found, rest, hsource, Or.inr h⟩
    obtain ⟨form, hform, rfl⟩ := leaves_default_iff.mp hleaves
    exact ⟨form, hform, before, rest, by simp⟩
  · rintro ⟨form, hform, before, rest, rfl⟩
    rw [List.append_assoc]
    rcases leaves_default_iff.mpr ⟨form, hform, rfl⟩ with h | h
    · exact Or.inl ⟨before, _, rest, rfl, h⟩
    · exact Or.inr ⟨before, _, rest, rfl, h⟩

/-- A text declares a default export iff one of the three forms stands in it, and it still does
with any text before and behind it. -/
theorem hasDefaultIn_exact (source : List Char) :
    (hasDefaultIn source = true ↔ ∃ form, DefaultForm form ∧ form <:+: source) ∧
      ∀ before after, hasDefaultIn source = true →
        hasDefaultIn (before ++ source ++ after) = true := by
  refine ⟨hasDefaultIn_iff source, ?_⟩
  intro before after h
  obtain ⟨form, hform, hsource⟩ := (hasDefaultIn_iff source).mp h
  exact (hasDefaultIn_iff _).mpr ⟨form, hform, hsource.trans ⟨before, after, rfl⟩⟩

/-- The default is the second entry; the first only starts like one. -/
def sampleListing : List Char := "export\x7ba as defaults, b as as default,\x7d".toList

theorem hasDefaultIn_sampleListing :
    hasDefaultIn sampleListing = true ∧
      hasDefaultIn ("export \x7b x".toList ++ sampleListing ++ "\x7d".toList) = true := by
  have h : hasDefaultIn sampleListing = true := by decide +kernel
  exact ⟨h, (hasDefaultIn_exact sampleListing).2 _ _ h⟩

end DefaultImports.Surface
