/-
Module: GoExotic.Theory.Relay
Purpose: Relays. A token is handed from stage to stage: each stage that is asked answers, and the answer
  either yields the token for the next stage or stops the relay; a stage may also be refused the token.
  What the legs of a run have in common follows from the rules alone: they visit a prefix of the stages
  in order, each gets what the leg before it handed on, and a leg that hands nothing on is the last.
Trusted boundary: none
Main exports: Leg, Rules, Run, Run.stages_prefix, Run.each, Run.head, Run.handover, Run.finished_all,
  Run.stopped, Run.carried, Run.refusal
-/
import Mathlib.Data.List.Basic

namespace Relay

/-- A stage that was asked: the token it was handed, and its answer. -/
structure Leg (σ τ α : Type) where
  stage : σ
  token : τ
  answer : α

/-- The rules of a relay. -/
structure Rules (σ τ α ε : Type) where
  /-- The stage may be asked with the token. -/
  asks : σ → τ → Prop
  /-- The stage may answer so. -/
  answers : σ → τ → α → Prop
  /-- What is handed to the next stage, if the answer is accepted. -/
  next : σ → τ → α → Option τ
  /-- The stage may be refused the token, for a reason. -/
  refuses : σ → τ → ε → Prop

variable {σ τ α ε : Type}

/-- What a leg hands on. -/
def Leg.handed (rules : Rules σ τ α ε) (leg : Leg σ τ α) : Option τ :=
  rules.next leg.stage leg.token leg.answer

/-- A run from a token over some stages, with its legs and the reason it stopped for, if it did. -/
inductive Run (rules : Rules σ τ α ε) : τ → List σ → List (Leg σ τ α) → Option ε → Prop where
  | finished (token : τ) : Run rules token [] [] none
  | refused {token : τ} {stage : σ} {rest : List σ} {err : ε} (refuses : rules.refuses stage token err) :
      Run rules token (stage :: rest) [] (some err)
  | dropped {token : τ} {stage : σ} {rest : List σ} {answer : α} {err : ε}
      (asks : rules.asks stage token) (answers : rules.answers stage token answer)
      (stops : rules.next stage token answer = none) :
      Run rules token (stage :: rest) [⟨stage, token, answer⟩] (some err)
  | passed {token handed : τ} {stage : σ} {rest : List σ} {answer : α} {legs : List (Leg σ τ α)}
      {stop : Option ε} (asks : rules.asks stage token) (answers : rules.answers stage token answer)
      (hands : rules.next stage token answer = some handed) (later : Run rules handed rest legs stop) :
      Run rules token (stage :: rest) (⟨stage, token, answer⟩ :: legs) stop

namespace Run

variable {rules : Rules σ τ α ε} {token : τ} {stages : List σ} {legs : List (Leg σ τ α)} {stop : Option ε}

/-- The stages are asked in their order, without a gap. -/
theorem stages_prefix (run : Run rules token stages legs stop) : legs.map Leg.stage <+: stages := by
  induction run with
  | finished => exact List.prefix_refl []
  | refused => exact List.nil_prefix
  | dropped => exact List.cons_prefix_cons.mpr ⟨rfl, List.nil_prefix⟩
  | passed _ _ _ _ inductionHypothesis => exact List.cons_prefix_cons.mpr ⟨rfl, inductionHypothesis⟩

/-- The leg at a position is that of the stage there. -/
theorem stage_at (run : Run rules token stages legs stop) {k : Nat} {leg : Leg σ τ α}
    (found : legs[k]? = some leg) : stages[k]? = some leg.stage := by
  have mapped : (legs.map Leg.stage)[k]? = some leg.stage := by
    rw [List.getElem?_map, found]
    rfl
  obtain ⟨later, rfl⟩ := run.stages_prefix
  rw [List.getElem?_append_left (List.getElem?_eq_some_iff.mp mapped).1]
  exact mapped

/-- Every leg follows the rules. -/
theorem each (run : Run rules token stages legs stop) :
    ∀ leg ∈ legs, rules.asks leg.stage leg.token ∧ rules.answers leg.stage leg.token leg.answer := by
  induction run with
  | finished => simp
  | refused => simp
  | dropped asks answers _ => simpa using ⟨asks, answers⟩
  | passed asks answers _ _ inductionHypothesis =>
      simp only [List.forall_mem_cons]
      exact ⟨⟨asks, answers⟩, inductionHypothesis⟩

/-- The first leg gets the first token. -/
theorem head (run : Run rules token stages legs stop) {leg : Leg σ τ α} (found : legs[0]? = some leg) :
    leg.token = token := by
  cases run with
  | finished => cases found
  | refused => cases found
  | dropped => exact (Option.some.inj found) ▸ rfl
  | passed => exact (Option.some.inj found) ▸ rfl

/-- Every later leg gets what the leg before it handed on. -/
theorem handover (run : Run rules token stages legs stop) {k : Nat} {leg later : Leg σ τ α}
    (found : legs[k]? = some leg) (foundLater : legs[k + 1]? = some later) :
    leg.handed rules = some later.token := by
  induction run generalizing k with
  | finished => cases found
  | refused => cases found
  | dropped => cases foundLater
  | passed _ _ hands run inductionHypothesis =>
      rw [List.getElem?_cons_succ] at foundLater
      cases k with
      | zero =>
          rw [List.getElem?_cons_zero, Option.some.injEq] at found
          rw [← found, run.head foundLater]
          exact hands
      | succ k => exact inductionHypothesis (by simpa using found) foundLater

/-- A run that was not stopped asked every stage, and every leg handed something on. -/
theorem finished_all (run : Run rules token stages legs stop) (through : stop = none) :
    legs.map Leg.stage = stages ∧ ∀ leg ∈ legs, ∃ handed, leg.handed rules = some handed := by
  induction run with
  | finished => exact ⟨rfl, by simp⟩
  | refused => cases through
  | dropped => cases through
  | passed _ _ hands _ inductionHypothesis =>
      obtain ⟨same, all⟩ := inductionHypothesis through
      refine ⟨congrArg _ same, ?_⟩
      simp only [List.forall_mem_cons]
      exact ⟨⟨_, hands⟩, all⟩

/-- A leg that hands nothing on is the last, and stops the run. -/
theorem stopped (run : Run rules token stages legs stop) {k : Nat} {leg : Leg σ τ α}
    (found : legs[k]? = some leg) (nothing : leg.handed rules = none) :
    legs.length = k + 1 ∧ ∃ err, stop = some err := by
  induction run generalizing k with
  | finished => cases found
  | refused => cases found
  | dropped =>
      cases k with
      | zero => exact ⟨rfl, _, rfl⟩
      | succ k => cases found
  | passed _ _ hands _ inductionHypothesis =>
      cases k with
      | zero =>
          rw [List.getElem?_cons_zero, Option.some.injEq] at found
          rw [← found] at nothing
          exact absurd (hands.symm.trans nothing) (by simp)
      | succ k =>
          obtain ⟨length, stops⟩ := inductionHypothesis (by simpa using found)
          exact ⟨congrArg (· + 1) length, stops⟩

/-- The token after the legs: the first one, or what the last leg handed on. -/
def carried (rules : Rules σ τ α ε) (token : τ) (legs : List (Leg σ τ α)) : Option τ :=
  match legs.getLast? with
  | none => some token
  | some leg => leg.handed rules

/-- A run stops because its last leg handed nothing on, or because the next stage is refused what was. -/
theorem refusal {err : ε} (run : Run rules token stages legs stop) (stops : stop = some err) :
    (∃ leg, legs.getLast? = some leg ∧ leg.handed rules = none) ∨
      ∃ stage t, stages[legs.length]? = some stage ∧ carried rules token legs = some t ∧
        rules.refuses stage t err := by
  induction run with
  | finished => cases stops
  | refused refuses =>
      cases stops
      exact Or.inr ⟨_, _, rfl, rfl, refuses⟩
  | dropped _ _ nothing => exact Or.inl ⟨_, rfl, nothing⟩
  | @passed token handed stage rest answer legs stop _ _ hands _ inductionHypothesis =>
      rcases inductionHypothesis stops with ⟨leg, last, nothing⟩ | ⟨next, t, at_next, carries, refuses⟩
      · refine Or.inl ⟨leg, ?_, nothing⟩
        rw [List.getLast?_cons, last]
        rfl
      · refine Or.inr ⟨next, t, by simpa using at_next, ?_, refuses⟩
        rw [carried, List.getLast?_cons]
        rw [carried] at carries
        cases last : legs.getLast? with
        | none =>
            rw [last] at carries
            exact hands.trans carries
        | some leg =>
            rw [last] at carries
            exact carries

end Run

end Relay
