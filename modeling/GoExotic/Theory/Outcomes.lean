/-
Module: GoExotic.Theory.Outcomes
Purpose: Outcomes of fallible calls on a state: a value or an error, with the state after the call either
  way. Two outcomes are alike when both are values or both are errors, whichever errors, and values and
  states are related. Calls that go on from alike outcomes in alike ways end alike.
Trusted boundary: none
Main exports: andThen, Alike, Alike.trans, Alike.andThen
-/
import Mathlib.Logic.Basic

namespace Outcomes

variable {ε ε' α α' β β' σ τ : Type}

/-- Go on from a value; an error ends the call. -/
def andThen (outcome : Except ε α × σ) (next : α → σ → Except ε β × σ) : Except ε β × σ :=
  match outcome with
  | (.error err, s) => (.error err, s)
  | (.ok a, s) => next a s

@[simp] theorem andThen_error (err : ε) (s : σ) (next : α → σ → Except ε β × σ) :
    andThen (.error err, s) next = (.error err, s) := rfl

@[simp] theorem andThen_ok (a : α) (s : σ) (next : α → σ → Except ε β × σ) :
    andThen (.ok a, s) next = next a s := rfl

/-- Both are values or both are errors; the values are related, and the states in both cases. -/
inductive Alike (values : α → α' → Prop) (states : σ → τ → Prop) :
    Except ε α × σ → Except ε' α' × τ → Prop where
  | returned {a : α} {b : α'} {s : σ} {t : τ} (sameValue : values a b) (sameState : states s t) :
      Alike values states (.ok a, s) (.ok b, t)
  | failed {err : ε} {err' : ε'} {s : σ} {t : τ} (sameState : states s t) :
      Alike values states (.error err, s) (.error err', t)

namespace Alike

variable {values : α → α' → Prop} {states : σ → τ → Prop} {x : Except ε α × σ} {y : Except ε' α' × τ}

theorem state (alike : Alike values states x y) : states x.2 y.2 := by
  cases alike with
  | returned _ sameState => exact sameState
  | failed sameState => exact sameState

theorem mono {values' : α → α' → Prop} {states' : σ → τ → Prop} (alike : Alike values states x y)
    (sameValue : ∀ a b, values a b → values' a b) (sameState : ∀ s t, states s t → states' s t) :
    Alike values' states' x y := by
  cases alike with
  | returned value state => exact returned (sameValue _ _ value) (sameState _ _ state)
  | failed state => exact failed (sameState _ _ state)

/-- What is alike through a third outcome, with equal values, is alike. -/
theorem trans {ε'' υ : Type} {states' : τ → υ → Prop} {first : Except ε α × σ} {second : Except ε' α × τ}
    {third : Except ε'' α × υ} (one : Alike Eq states first second) (two : Alike Eq states' second third) :
    Alike Eq (fun s u => ∃ t, states s t ∧ states' t u) first third := by
  cases one with
  | returned same state =>
      cases two with
      | returned same' state' => exact returned (same.trans same') ⟨_, state, state'⟩
  | failed state =>
      cases two with
      | failed state' => exact failed ⟨_, state, state'⟩

/-- Either both outcomes are errors, or neither is. -/
theorem fails_iff (alike : Alike values states x y) :
    (∃ err, x.1 = .error err) ↔ ∃ err, y.1 = .error err := by
  cases alike with
  | returned _ _ => simp
  | failed _ => simp

/-- With equal values, the outcomes are the same but for their errors. -/
theorem toOption_eq {first : Except ε α × σ} {second : Except ε' α × τ} (alike : Alike Eq states first second) :
    first.1.toOption = second.1.toOption := by
  cases alike with
  | returned same _ => exact congrArg some same
  | failed _ => rfl

/-- The rule for going on: alike outcomes, continued alike from related values in related states. -/
theorem andThen {later : β → β' → Prop} {next : α → σ → Except ε β × σ} {next' : α' → τ → Except ε' β' × τ}
    (alike : Alike values states x y)
    (each : ∀ a b s t, x = (.ok a, s) → y = (.ok b, t) → values a b → states s t →
      Alike later states (next a s) (next' b t)) :
    Alike later states (Outcomes.andThen x next) (Outcomes.andThen y next') := by
  cases alike with
  | returned sameValue sameState => exact each _ _ _ _ rfl rfl sameValue sameState
  | failed sameState => exact failed sameState

end Alike

end Outcomes
