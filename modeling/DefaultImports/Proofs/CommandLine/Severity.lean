import DefaultImports.CommandLine.Request

/-! A command line cannot ask for a severity that does not exist. -/
namespace DefaultImports.CommandLine

variable {α β : Type} {P : α → Prop} {Q : β → Prop} {a : CheckArguments} {st : CheckState}

/-- The severity that is asked for, if any, is a known one. -/
def CheckArguments.Chosen (a : CheckArguments) : Prop :=
  ∀ s ∈ a.severity, s ∈ Settings.severities

def CheckState.Chosen (st : CheckState) : Prop := st.arguments.Chosen

/-- A reading that breaks off asks for no check, and one that succeeds satisfies `P`. -/
def Ends (P : α → Prop) : Except Request α → Prop
  | .ok a => P a
  | .error r => ∀ a, r ≠ .check a

theorem ends_bind {x : Except Request α} {f : α → Except Request β} (hx : Ends P x)
    (hf : ∀ a, P a → Ends Q (f a)) : Ends Q (x >>= f) := by
  cases x with
  | error r => exact hx
  | ok a => exact hf a hx

theorem complainCheck_ne_check (message : String) (a : CheckArguments) :
    complainCheck message ≠ .check a := by
  simp [complainCheck, complain]

theorem ends_applyOptions (options : List (Known CheckOption × Option String))
    (ha : a.Chosen) : Ends CheckArguments.Chosen (applyOptions options a) := by
  fun_induction applyOptions options a with
  | case1 a => exact ha
  | case2 => simp [Ends]
  | case9 rest a k hk s hs ih =>
    apply ih
    intro u hu
    obtain rfl : s = u := Option.some.inj hu
    simpa using hs
  | case10 => exact complainCheck_ne_check _
  | _ => rename_i ih; exact ih ha

theorem chosen_operand (hst : st.Chosen) (s : String) : (st.operand s).Chosen := by
  unfold CheckState.operand
  split <;> exact hst

theorem chosen_dashes (hst : st.Chosen) : st.dashes.Chosen := by
  unfold CheckState.dashes
  split <;> exact hst

theorem chosen_endRun (hst : st.Chosen) (s : Option String) : (st.endRun.extra s).Chosen := by
  unfold CheckState.endRun
  split <;> exact hst

theorem ends_readCheckWords (words : List (Word CheckOption)) (hst : st.Chosen) :
    Ends CheckState.Chosen (readCheckWords words st) := by
  fun_induction readCheckWords words st with
  | case1 st => exact hst
  | case2 rest st ih => exact ih (chosen_dashes hst)
  | case3 rest st s ih => exact ih (chosen_operand hst _)
  | case4 rest st s ih => exact ih (chosen_endRun hst _)
  | case5 => exact complainCheck_ne_check _
  | case6 u st cluster hu st₁ rest hw ih =>
    exact ends_bind (ends_applyOptions _ (chosen_endRun hst _)) ih
  | case7 u st cluster hu st₁ k s rest hw ih =>
    exact ends_bind (ends_applyOptions _ (chosen_endRun hst _)) ih
  | case8 => exact complainCheck_ne_check _

theorem ends_readCheck (words : List String) : Ends CheckState.Chosen (readCheck words) := by
  unfold readCheck
  cases Word.classifyAll checkOptions words with
  | error e => exact complainCheck_ne_check _
  | ok ws =>
    refine ends_readCheckWords ws ?_
    intro s hs
    cases hs

theorem chosen_dispatch {name : String} {words extras : List String}
    (h : dispatch name words extras = .check a) : a.Chosen := by
  have hread := ends_readCheck words
  unfold dispatch at h
  split at h
  · cases h
  · generalize readCheck words = r at h hread
    cases r with
    | error r => exact (hread a h).elim
    | ok st =>
      dsimp only at h
      split at h
      · cases h
        exact hread
      · cases h

theorem stopAt_ne_check (options : List (Known TopOption × Option String))
    (a : CheckArguments) : stopAt options ≠ some (.check a) := by
  unfold stopAt
  split
  · simp
  · split <;> simp

theorem chosen_readTop {ws : List (Word TopOption)} {words extras : List String}
    (h : readTop ws words extras = .check a) : a.Chosen := by
  fun_induction readTop ws words extras with
  | case5 => exact chosen_dispatch h
  | case6 _ _ _ _ ih => exact ih h
  | case8 u rest words extras cluster hu r hstop =>
    exact (stopAt_ne_check _ a (hstop.trans (congrArg some h))).elim
  | case9 u rest words extras cluster hu hstop ih => exact ih h
  | _ => cases h

/-- A severity that a command line asks for is one of the known ones. -/
theorem chosen_ofWords {words : List String} (h : Request.ofWords words = .check a) :
    a.Chosen := by
  unfold Request.ofWords at h
  split at h
  · cases h
  · exact chosen_readTop h

end DefaultImports.CommandLine
