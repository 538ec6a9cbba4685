import DefaultImports.Checker
import DefaultImports.Proofs.Cache.Session

/-! Reads that fail. Main statement: `performAll_after_failure`, a failed read is counted as a miss
and leaves no other trace in the cache, and the import that needed it is skipped or the failure is
passed on. -/
namespace DefaultImports

namespace SurfaceCache

variable {policy : CachePolicy} {reader : Reader} {cwd p : Path} {c : SurfaceCache} {e : Failure}

/-- A call for the file `p` asks its reader, and the reader fails. -/
structure FailsWith (policy : CachePolicy) (reader : Reader) (cwd p : Path) (c : SurfaceCache)
    (e : Failure) : Prop where
  asked : policy.enabled = true → cwd.join p ∉ c.keys
  fails : reader p = .error e

theorem FailsWith.get_eq (h : FailsWith policy reader cwd p c e) :
    c.get policy reader cwd p = (.error e, c.countMiss) := by
  have hg := got policy reader cwd p c
  have hfails := h.fails
  generalize c.get policy reader cwd p = r at hg ⊢
  cases hg with
  | hit hon hs => exact absurd (mem_keys_of_mem hs) (h.asked hon)
  | failed hmiss he =>
    rw [he] at hfails
    rw [Except.error.inj hfails]
  | passed hoff hs => simp [hs] at hfails
  | stored hon hmiss hs => simp [hs] at hfails

/-! ## One more miss -/

theorem get_countMiss (policy : CachePolicy) (reader : Reader) (cwd p : Path) (c : SurfaceCache) :
    c.countMiss.get policy reader cwd p =
      ((c.get policy reader cwd p).1, (c.get policy reader cwd p).2.countMiss) := by
  unfold get
  dsimp only [countMiss_entries]
  split
  · rfl
  · split
    · rfl
    · split <;> rfl

/-- What an operation gives back. -/
def Action.answer (policy : CachePolicy) (cwd : Path) (c : SurfaceCache) :
    Action → Option (Except Failure Surface)
  | .get reader spelling => some (c.get policy reader cwd (.ofString spelling)).1
  | .invalidate _ | .clear => none

theorem Action.answer_countMiss (a : Action) (policy : CachePolicy) (cwd : Path)
    (c : SurfaceCache) : a.answer policy cwd c.countMiss = a.answer policy cwd c := by
  cases a with
  | get reader spelling => simp only [answer, get_countMiss]
  | invalidate spelling | clear => rfl

theorem Action.perform_countMiss (a : Action) (policy : CachePolicy) (cwd : Path)
    (c : SurfaceCache) :
    a.perform policy cwd c.countMiss = (a.perform policy cwd c).countMiss := by
  cases a with
  | get reader spelling => simp only [perform, get_countMiss]
  | invalidate spelling | clear => rfl

end SurfaceCache

namespace Checker

open SurfaceCache

variable {k : Checker} {b : Binding} {p : Path} {c : SurfaceCache} {e : Failure}

theorem evaluate_countMiss (k : Checker) (b : Binding) (c : SurfaceCache) :
    k.evaluate b c.countMiss = ((k.evaluate b c).1, (k.evaluate b c).2.countMiss) := by
  unfold evaluate
  split
  · rfl
  · rw [get_countMiss]
    obtain ⟨answer, d⟩ := c.get k.policy k.reader k.workspace.cwd _
    cases answer <;> rfl

/-- What is done with the cache of a checker: an operation on the cache itself, or a verdict on an
import. The files and the reader may be others at every verdict. -/
inductive Use where
  | operation (a : Action)
  | evaluation (files : List (List String × Entry)) (reader : Reader) (b : Binding)

inductive Answer where
  | surface (s : Option (Except Failure Surface))
  | verdict (d : Except Failure Decision)

/-- One use of the cache: what it gives back, and the cache after it. -/
def perform (k : Checker) (c : SurfaceCache) : Use → Answer × SurfaceCache
  | .operation a =>
    (.surface (a.answer k.policy k.workspace.cwd c), a.perform k.policy k.workspace.cwd c)
  | .evaluation files reader b =>
    let k := { k with workspace := { k.workspace with entries := files }, reader := reader }
    (.verdict (k.evaluate b c).1, (k.evaluate b c).2)

/-- A sequence of uses: what each of them gives back, and the cache after them. -/
def performAll (k : Checker) : SurfaceCache → List Use → List Answer × SurfaceCache
  | c, [] => ([], c)
  | c, u :: rest =>
    let (answer, c) := k.perform c u
    let (answers, c) := k.performAll c rest
    (answer :: answers, c)

theorem perform_countMiss (k : Checker) (c : SurfaceCache) (u : Use) :
    k.perform c.countMiss u = ((k.perform c u).1, (k.perform c u).2.countMiss) := by
  cases u with
  | operation a => simp only [perform, Action.answer_countMiss, Action.perform_countMiss]
  | evaluation files reader b => simp only [perform, evaluate_countMiss]

/-- One more miss at the start is one more miss at the end, and nothing else. -/
theorem performAll_countMiss (k : Checker) (c : SurfaceCache) (us : List Use) :
    k.performAll c.countMiss us = ((k.performAll c us).1, (k.performAll c us).2.countMiss) := by
  induction us generalizing c with
  | nil => rfl
  | cons u us ih => simp only [performAll, perform_countMiss, ih]

theorem evaluate_of_failsWith (h : FailsWith k.policy k.reader k.workspace.cwd p c e)
    (hb : b.target? k.workspace = some p) :
    k.evaluate b c = (if e.isInspection then .ok .skipped else .error e, c.countMiss) := by
  simp only [evaluate, hb, h.get_eq]

/-- A read that fails after any uses of a cache: the call gives the failure back, and only the
misses of the cache have grown, by one. Whatever is done later gives the same answers, and leaves
the same cache but for that miss, as it would have done without the call. The verdict on an import
whose target cannot be read is `skipped`, unless the failure is of another kind than those of files
and values, which is passed on. -/
theorem performAll_after_failure (k : Checker) (before : List Use) (p : Path) (e : Failure)
    (h : FailsWith k.policy k.reader k.workspace.cwd p (k.performAll .empty before).2 e) :
    let c := (k.performAll .empty before).2
    let counted := { c with misses := c.misses + 1 }
    c.get k.policy k.reader k.workspace.cwd p = (.error e, counted) ∧
      (∀ after, let without := k.performAll c after
        k.performAll counted after =
          (without.1, { without.2 with misses := without.2.misses + 1 })) ∧
      ∀ b : Binding, b.target? k.workspace = some p →
        k.evaluate b c = (match e with
          | .path _ | .access _ | .value _ => .ok .skipped
          | .other _ => .error e, counted) := by
  intro c counted
  refine ⟨h.get_eq, fun after => performAll_countMiss k c after, ?_⟩
  intro b hb
  rw [evaluate_of_failsWith h hb]
  cases e <;> rfl

/-- The only entry that the cache may hold is there, and the next file cannot be read. -/
def sampleFull : Checker where
  workspace :=
    { entries := [(["w"], .directory), (["w", "b.js"], .file [])]
      cwd := ⟨.root, ["w"]⟩ }
  reader := fun _ => .error (.access "denied")
  policy := ⟨true, 1⟩
  severity := "error"

/-- The entry stays, the file is read again, and the import is skipped. -/
theorem performAll_sampleFull :
    let surface : Surface := ⟨true, []⟩
    let readable : Reader := fun _ => .ok surface
    let held := (sampleFull.performAll .empty [.operation (.get readable "a.js")]).2
    let counted := { held with misses := held.misses + 1 }
    let target : Path := ⟨.root, ["w", "b.js"]⟩
    let later := [Use.operation (.get readable "./a.js"), .operation (.get readable "b.js")]
    held = ⟨[(⟨.root, ["w", "a.js"]⟩, surface)], 0, 1⟩ ∧
      FailsWith sampleFull.policy sampleFull.reader sampleFull.workspace.cwd target held
        (.access "denied") ∧
      held.get sampleFull.policy sampleFull.reader sampleFull.workspace.cwd target =
        (.error (.access "denied"), counted) ∧
      (sampleFull.performAll counted later).1 = (sampleFull.performAll held later).1 ∧
      sampleFull.evaluate ⟨"B", "./b", ⟨.root, ["w", "a.js"]⟩, 1, 7⟩ held =
        (.ok .skipped, counted) := by
  intro surface readable held counted target later
  have hheld : held = ⟨[(⟨.root, ["w", "a.js"]⟩, surface)], 0, 1⟩ := by decide +kernel
  have hfails : FailsWith sampleFull.policy sampleFull.reader sampleFull.workspace.cwd target held
      (.access "denied") := by
    refine ⟨?_, rfl⟩
    rw [hheld]
    decide +kernel
  have htarget : Binding.target? sampleFull.workspace ⟨"B", "./b", ⟨.root, ["w", "a.js"]⟩, 1, 7⟩ =
      some target := by
    decide +kernel
  obtain ⟨hget, hlater, hevaluate⟩ := performAll_after_failure sampleFull _ target _ hfails
  refine ⟨hheld, hfails, hget, ?_, hevaluate _ htarget⟩
  rw [hlater later]

end Checker

end DefaultImports
