/-
Module: GoExotic.Theory.Runs
Purpose: Runs of a component. A server answers each call and moves on: its runs have a final state and a
  history of the calls with their answers, and what every call keeps of both holds after every run. A
  machine takes labelled steps that may be disabled: a run visits its steps one by one, and a relation
  that every visited step keeps relates the two ends of the run.
Trusted boundary: none
Main exports: final, trace, answered_of_mem_trace, final_filterMap, trace_simulated, history_invariant, exec,
  exec_append, Visits, Visits.append_singleton_iff, Throughout, exec_invariant, exec_history, exec_related
-/
import Mathlib.Data.List.Basic
import Mathlib.Data.List.Induction
import Mathlib.Order.Defs.Unbundled

namespace Runs

/-- A place in a list with one more item is the last one, or was a place before. -/
theorem append_singleton_eq_append_cons {ε : Type} {past earlier later : List ε} {last e : ε} :
    past ++ [last] = earlier ++ e :: later ↔
      (past = earlier ∧ last = e ∧ later = []) ∨ ∃ rest, later = rest ++ [last] ∧ past = earlier ++ e :: rest := by
  constructor
  · intro split
    rcases List.eq_nil_or_concat later with rfl | ⟨rest, final, rfl⟩
    · obtain ⟨samePast, isLast⟩ := List.append_inj' split rfl
      exact Or.inl ⟨samePast, List.head_eq_of_cons_eq isLast, rfl⟩
    · rw [List.concat_eq_append, ← List.cons_append, ← List.append_assoc] at split
      obtain ⟨samePast, isLast⟩ := List.append_inj' split rfl
      rw [List.head_eq_of_cons_eq isLast]
      exact Or.inr ⟨rest, List.concat_eq_append, samePast⟩
  · rintro (⟨rfl, rfl, rfl⟩ | ⟨rest, rfl, rfl⟩)
    · rfl
    · rw [List.append_assoc, List.cons_append]

/-! ### Servers -/

section Server

variable {ε ρ σ : Type} (serve : ε → σ → ρ × σ)

/-- The state after a list of calls. -/
def final : List ε → σ → σ
  | [], s => s
  | call :: rest, s => final rest (serve call s).2

/-- The calls of a sequence with their answers, in order. -/
def trace : List ε → σ → List (ε × ρ)
  | [], _ => []
  | call :: rest, s => (call, (serve call s).1) :: trace rest (serve call s).2

/-- The history lists the calls that were made. -/
theorem trace_calls (calls : List ε) (s : σ) : (trace serve calls s).map Prod.fst = calls := by
  induction calls generalizing s with
  | nil => rfl
  | cons call rest inductionHypothesis =>
      exact congrArg (call :: ·) (inductionHypothesis (serve call s).2)

theorem final_append (calls others : List ε) (s : σ) :
    final serve (calls ++ others) s = final serve others (final serve calls s) := by
  induction calls generalizing s with
  | nil => rfl
  | cons call rest inductionHypothesis => exact inductionHypothesis (serve call s).2

theorem trace_append (calls others : List ε) (s : σ) :
    trace serve (calls ++ others) s = trace serve calls s ++ trace serve others (final serve calls s) := by
  induction calls generalizing s with
  | nil => rfl
  | cons call rest inductionHypothesis =>
      exact congrArg ((call, (serve call s).1) :: ·) (inductionHypothesis (serve call s).2)

/-- A call of the history was answered in the state the calls before it left. -/
theorem answered_of_mem_trace {calls : List ε} {s : σ} {call : ε} {answer : ρ}
    (served : (call, answer) ∈ trace serve calls s) :
    ∃ earlier later, calls = earlier ++ call :: later ∧ answer = (serve call (final serve earlier s)).1 := by
  induction calls generalizing s with
  | nil => cases served
  | cons first rest inductionHypothesis =>
      rcases List.mem_cons.mp served with isFirst | inRest
      · cases isFirst
        exact ⟨[], rest, rfl, rfl⟩
      · obtain ⟨earlier, later, rfl, answered⟩ := inductionHypothesis inRest
        exact ⟨first :: earlier, later, rfl, answered⟩

/-- A server that leaves its state alone except for some calls, which it passes on, ends as the server that
serves these. -/
theorem final_filterMap {ε' ρ' : Type} {inner : ε' → σ → ρ' × σ} {part : ε → Option ε'}
    (passes : ∀ call inside s, part call = some inside → (serve call s).2 = (inner inside s).2)
    (keeps : ∀ call s, part call = none → (serve call s).2 = s) (calls : List ε) (s : σ) :
    final serve calls s = final inner (calls.filterMap part) s := by
  induction calls generalizing s with
  | nil => rfl
  | cons call rest inductionHypothesis =>
      rw [final, inductionHypothesis]
      cases isPart : part call with
      | none => rw [List.filterMap_cons_none isPart, keeps call s isPart]
      | some inside => rw [List.filterMap_cons_some isPart, passes call inside s isPart, final]

/-- Two servers that answer every call alike from related states, and stay related, have the same history, as far
as the answers are looked at. -/
theorem trace_simulated {ρ' τ α : Type} {serve : ε → σ → ρ × σ} {serve' : ε → τ → ρ' × τ} {states : σ → τ → Prop}
    {view : ρ → α} {view' : ρ' → α}
    (each : ∀ call s t, states s t → view (serve call s).1 = view' (serve' call t).1 ∧
      states (serve call s).2 (serve' call t).2) (calls : List ε) :
    ∀ {s : σ} {t : τ}, states s t →
      (trace serve calls s).map (fun served => view served.2) =
          (trace serve' calls t).map (fun served => view' served.2) ∧
        states (final serve calls s) (final serve' calls t) := by
  induction calls with
  | nil =>
      intro s t related
      exact ⟨rfl, related⟩
  | cons call rest inductionHypothesis =>
      intro s t related
      obtain ⟨sameAnswer, relatedAfter⟩ := each call s t related
      obtain ⟨sameRest, relatedEnd⟩ := inductionHypothesis relatedAfter
      exact ⟨congrArg₂ List.cons sameAnswer sameRest, relatedEnd⟩

/-- A relation between history and state that every call keeps holds after every run. -/
theorem history_invariant {serve : ε → σ → ρ × σ} {keeps : List (ε × ρ) → σ → Prop}
    (step : ∀ past s call, keeps past s → keeps (past ++ [(call, (serve call s).1)]) (serve call s).2)
    {s : σ} (start : keeps [] s) (calls : List ε) :
    keeps (trace serve calls s) (final serve calls s) := by
  have general : ∀ past s, keeps past s → keeps (past ++ trace serve calls s) (final serve calls s) := by
    induction calls with
    | nil =>
        intro past s holds
        rw [trace, List.append_nil]
        exact holds
    | cons call rest inductionHypothesis =>
        intro past s holds
        have after := inductionHypothesis _ _ (step past s call holds)
        rw [List.append_assoc] at after
        exact after
  exact general [] s start

end Server

/-! ### Machines -/

section Machine

variable {ε σ : Type} (step : σ → ε → Option σ)

/-- The state a list of steps leads to, if all of them are enabled. -/
def exec : σ → List ε → Option σ
  | s, [] => some s
  | s, e :: rest => (step s e).bind fun t => exec t rest

/-- The run from `s` takes the step `e` from `before` to `after`. -/
def Visits (s : σ) (steps : List ε) (before : σ) (e : ε) (after : σ) : Prop :=
  ∃ earlier later, steps = earlier ++ e :: later ∧ exec step s earlier = some before ∧
    step before e = some after

/-- A property holds in every state the run passes through, both ends included. -/
def Throughout (holds : σ → Prop) (s : σ) (steps : List ε) : Prop :=
  ∀ earlier later t, steps = earlier ++ later → exec step s earlier = some t → holds t

variable {step} {s t u : σ} {e : ε} {steps others : List ε}

@[simp] theorem exec_nil : exec step s [] = some t ↔ s = t := by
  rw [exec, Option.some.injEq]

theorem exec_cons : exec step s (e :: steps) = some u ↔
    ∃ t, step s e = some t ∧ exec step t steps = some u := by
  rw [exec, Option.bind_eq_some_iff]

theorem exec_append : exec step s (steps ++ others) = some u ↔
    ∃ t, exec step s steps = some t ∧ exec step t others = some u := by
  induction steps generalizing s with
  | nil => simp
  | cons e rest inductionHypothesis =>
      simp only [List.cons_append, exec_cons, inductionHypothesis]
      constructor
      · rintro ⟨mid, head, t, tail, final⟩
        exact ⟨t, ⟨mid, head, tail⟩, final⟩
      · rintro ⟨t, ⟨mid, head, tail⟩, final⟩
        exact ⟨mid, head, t, tail, final⟩

namespace Visits

variable {before after : σ}

/-- The first step of a run is visited. -/
theorem head (enabled : step s e = some t) : Visits step s (e :: steps) s e t :=
  ⟨[], steps, rfl, rfl, enabled⟩

/-- A visited step is enabled where it is visited. -/
theorem taken (visited : Visits step s steps before e after) : step before e = some after := by
  obtain ⟨earlier, later, -, -, enabled⟩ := visited
  exact enabled

/-- What the rest of a run visits the whole run visits. -/
theorem tail {first : ε} (enabled : step s first = some t) (visited : Visits step t steps before e after) :
    Visits step s (first :: steps) before e after := by
  obtain ⟨earlier, later, rfl, reached, taken⟩ := visited
  exact ⟨first :: earlier, later, rfl, exec_cons.mpr ⟨t, enabled, reached⟩, taken⟩

/-- What the second part of a run visits the whole run visits. -/
theorem append (reached : exec step s steps = some t) (visited : Visits step t others before e after) :
    Visits step s (steps ++ others) before e after := by
  obtain ⟨earlier, later, rfl, reachedBefore, taken⟩ := visited
  exact ⟨steps ++ earlier, later, by rw [List.append_assoc],
    exec_append.mpr ⟨t, reached, reachedBefore⟩, taken⟩

/-- What the first part of a run visits the whole run visits. -/
theorem append_left (visited : Visits step s steps before e after) (others : List ε) :
    Visits step s (steps ++ others) before e after := by
  obtain ⟨earlier, later, rfl, reached, taken⟩ := visited
  exact ⟨earlier, later ++ others, by rw [List.append_assoc]; rfl, reached, taken⟩

/-- A run with one more step visits this step, where it is enabled, and what it visited before. -/
theorem append_singleton_iff {last : ε} : Visits step s (steps ++ [last]) before e after ↔
    Visits step s steps before e after ∨
      last = e ∧ exec step s steps = some before ∧ step before e = some after := by
  constructor
  · rintro ⟨earlier, later, split, reached, taken⟩
    rcases append_singleton_eq_append_cons.mp split with ⟨rfl, isLast, -⟩ | ⟨rest, -, rfl⟩
    · exact Or.inr ⟨isLast, reached, taken⟩
    · exact Or.inl ⟨earlier, rest, rfl, reached, taken⟩
  · rintro (visited | ⟨rfl, reached, taken⟩)
    · exact visited.append_left [last]
    · exact ⟨steps, [], rfl, reached, taken⟩

end Visits

theorem throughout_nil {holds : σ → Prop} : Throughout step holds s [] ↔ holds s := by
  constructor
  · intro throughout
    exact throughout [] [] s rfl rfl
  · intro atStart earlier later t split reached
    obtain ⟨rfl, -⟩ := List.append_eq_nil_iff.mp split.symm
    exact exec_nil.mp reached ▸ atStart

theorem throughout_cons {holds : σ → Prop} : Throughout step holds s (e :: steps) ↔
    holds s ∧ ∀ t, step s e = some t → Throughout step holds t steps := by
  constructor
  · intro throughout
    refine ⟨throughout [] (e :: steps) s rfl rfl, ?_⟩
    intro t head earlier later v split reached
    exact throughout (e :: earlier) later v (by rw [split]; rfl) (exec_cons.mpr ⟨t, head, reached⟩)
  · rintro ⟨atStart, rest⟩ earlier later v split reached
    cases earlier with
    | nil => exact exec_nil.mp reached ▸ atStart
    | cons first others =>
        obtain ⟨rfl, rfl⟩ := List.cons_eq_cons.mp split
        obtain ⟨t, head, tail⟩ := exec_cons.mp reached
        exact rest t head others later v rfl tail

theorem Throughout.append_singleton {holds : σ → Prop} (throughout : Throughout step holds s steps)
    (ran : exec step s (steps ++ [e]) = some u) (atEnd : holds u) : Throughout step holds s (steps ++ [e]) := by
  intro earlier later t split reached
  rcases List.eq_nil_or_concat later with rfl | ⟨rest, final, rfl⟩
  · rw [List.append_nil] at split
    rw [← split, ran, Option.some.injEq] at reached
    exact reached ▸ atEnd
  · rw [List.concat_eq_append, ← List.append_assoc] at split
    obtain ⟨samePast, -⟩ := List.append_inj' split rfl
    exact throughout earlier rest t samePast reached

/-- What every step of a run keeps holds at its end. -/
theorem exec_invariant {keeps : σ → Prop} (start : keeps s)
    (each : ∀ before e after, keeps before → step before e = some after → keeps after)
    (ran : exec step s steps = some u) : keeps u := by
  induction steps generalizing s with
  | nil => exact exec_nil.mp ran ▸ start
  | cons e rest inductionHypothesis =>
      obtain ⟨t, head, tail⟩ := exec_cons.mp ran
      exact inductionHypothesis (each s e t start head) tail

/-- A relation between the steps taken so far and the state they lead to that every step keeps holds at the end of a
run. -/
theorem exec_history {keeps : List ε → σ → Prop} (start : keeps [] s)
    (each : ∀ past before e after, keeps past before → exec step s past = some before →
      step before e = some after → keeps (past ++ [e]) after)
    (ran : exec step s steps = some u) : keeps steps u := by
  induction steps using List.reverseRecOn generalizing u with
  | nil => exact exec_nil.mp ran ▸ start
  | append_singleton past e inductionHypothesis =>
      obtain ⟨t, reached, last⟩ := exec_append.mp ran
      obtain ⟨after, taken, same⟩ := exec_cons.mp last
      rw [← exec_nil.mp same]
      exact each past t e after (inductionHypothesis reached) reached taken

/-- A relation that is reflexive, and transitive through states with a property, relates the ends of a
run throughout which the property holds, when every visited step respects it. -/
theorem exec_related {holds : σ → Prop} (rel : σ → σ → Prop) (refl : ∀ s, rel s s)
    (trans : ∀ s t u, holds t → rel s t → rel t u → rel s u)
    (each : ∀ before e after, Visits step s steps before e after → rel before after)
    (throughout : Throughout step holds s steps) (ran : exec step s steps = some u) : rel s u := by
  induction steps generalizing s with
  | nil => exact exec_nil.mp ran ▸ refl s
  | cons e rest inductionHypothesis =>
      obtain ⟨t, head, tail⟩ := exec_cons.mp ran
      have restThroughout : Throughout step holds t rest := (throughout_cons.mp throughout).2 t head
      have atNext : holds t := restThroughout [] rest t rfl rfl
      have first : rel s t := each s e t (Visits.head head)
      have second : rel t u := inductionHypothesis
        (fun before e' after visited => each before e' after (visited.tail head)) restThroughout tail
      exact trans s t u atNext first second

end Machine

end Runs
