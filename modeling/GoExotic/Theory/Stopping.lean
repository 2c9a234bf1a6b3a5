/-
Module: GoExotic.Theory.Stopping
Purpose: Calls that somebody may stop early. An outcome is cut short from another one when both are the same,
  or when it is an error of the stopping kind in a state from which the other one went on. Calls in sequence,
  each cut short at most, are cut short at most as a whole.
Trusted boundary: none
Main exports: Cut, Cut.bind, CutShort, CutShort.andThen, later_andThen
-/
import GoExotic.Theory.Outcomes
import Mathlib.Order.Defs.Unbundled

namespace Stopping

open Outcomes

variable {ε α β σ : Type}

/-! ### Calls without a state -/

/-- The first result is the second, or an error of the stopping kind. -/
inductive Cut (stop : ε → Prop) : Except ε α → Except ε α → Prop where
  | same (result : Except ε α) : Cut stop result result
  | stopped {err : ε} {result : Except ε α} (allowed : stop err) : Cut stop (.error err) result

namespace Cut

variable {stop : ε → Prop} {x y : Except ε α}

/-- The rule for going on: the second call is cut short at most after every value of the first. -/
theorem bind {next next' : α → Except ε β} (cut : Cut stop x y) (each : ∀ a, Cut stop (next a) (next' a)) :
    Cut stop (x >>= next) (y >>= next') := by
  cases cut with
  | same _ =>
      cases x with
      | error err => exact same _
      | ok a => exact each a
  | stopped allowed => exact stopped allowed

theorem mono {stop' : ε → Prop} (cut : Cut stop x y) (allows : ∀ err, stop err → stop' err) : Cut stop' x y := by
  cases cut with
  | same _ => exact same _
  | stopped allowed => exact stopped (allows _ allowed)

/-- A call that is cut short at most returns what the full one does, or stops. -/
theorem eq_or (cut : Cut stop x y) : x = y ∨ ∃ err, x = .error err ∧ stop err := by
  cases cut with
  | same _ => exact Or.inl rfl
  | stopped allowed => exact Or.inr ⟨_, rfl, allowed⟩

end Cut

/-! ### Calls on a state -/

/-- The first outcome is the second, or an error of the stopping kind in a state from which the second outcome
went on. -/
inductive CutShort (stop : ε → Prop) (later : σ → σ → Prop) : Except ε α × σ → Except ε α × σ → Prop where
  | same (outcome : Except ε α × σ) : CutShort stop later outcome outcome
  | stopped {err : ε} {s : σ} {outcome : Except ε α × σ} (allowed : stop err) (goesOn : later s outcome.2) :
      CutShort stop later (.error err, s) outcome

namespace CutShort

variable {stop : ε → Prop} {later : σ → σ → Prop} {x y z : Except ε α × σ}

theorem mono {stop' : ε → Prop} (cut : CutShort stop later x y) (allows : ∀ err, stop err → stop' err) :
    CutShort stop' later x y := by
  cases cut with
  | same _ => exact same _
  | stopped allowed goesOn => exact stopped (allows _ allowed) goesOn

/-- The state of what is cut short comes before that of the whole. -/
theorem state [Std.Refl later] (cut : CutShort stop later x y) : later x.2 y.2 := by
  cases cut with
  | same _ => exact Std.Refl.refl x.2
  | stopped _ goesOn => exact goesOn

/-- What is cut short at most is the whole, or stops. -/
theorem eq_or (cut : CutShort stop later x y) : x = y ∨ ∃ err, x.1 = .error err ∧ stop err := by
  cases cut with
  | same _ => exact Or.inl rfl
  | stopped allowed _ => exact Or.inr ⟨_, rfl, allowed⟩

/-- The rule for going on: after every value of the whole first call, the second call is cut short at most and
goes on from the state it finds. -/
theorem andThen [IsTrans σ later] {next next' : α → σ → Except ε β × σ} (cut : CutShort stop later x y)
    (each : ∀ a s, y = (.ok a, s) → CutShort stop later (next a s) (next' a s))
    (onward : ∀ a s, y = (.ok a, s) → later s (next' a s).2) :
    CutShort stop later (Outcomes.andThen x next) (Outcomes.andThen y next') := by
  cases cut with
  | same _ =>
      rcases x with ⟨err | a, s⟩
      · exact same _
      · exact each a s rfl
  | stopped allowed goesOn =>
      rcases y with ⟨err | a, s⟩
      · exact stopped allowed goesOn
      · exact stopped allowed (IsTrans.trans _ _ _ goesOn (onward a s rfl))

end CutShort

/-- Going on after a call keeps the order of states, if each call in turn does. -/
theorem later_andThen {later : σ → σ → Prop} [IsTrans σ later] {s : σ} {x : Except ε α × σ}
    {next : α → σ → Except ε β × σ} (first : later s x.2) (onward : ∀ a t, x = (.ok a, t) → later t (next a t).2) :
    later s (andThen x next).2 := by
  rcases x with ⟨err | a, t⟩
  · exact first
  · exact IsTrans.trans _ _ _ first (onward a t rfl)

end Stopping
