/-
Module: GoExotic.Model.Dashboard
Purpose: The data hooks of the dashboard. An effect sends a request whenever the component was rendered with
  another path or refreshed, after it cancelled the request before; an answer to a request that is not
  cancelled replaces what the component shows. Renders, refreshes, effects and answers come in any order,
  and requests may be answered in another order than they were sent, or never.
Trusted boundary: preact's useState and useEffect, as documented
Main exports: LoadState, SentRequest, DataHook, DataHook.Step, DataHook.step, useJSON, useBoundaryStatus
-/
import GoExotic.Theory.Runs

namespace GoExotic

/-- `LoadState`; a missing field is `none`. -/
structure LoadState (T : Type) where
  loading : Bool
  data : Option T
  error : Option String
deriving DecidableEq, Repr

/-- What a request is answered with: a value, or the message of an error. -/
abbrev Outcome (T : Type) := Except String T

/-- The state the handlers of `then` and `catch` set. -/
def LoadState.settled {T : Type} : Outcome T → LoadState T
  | .ok data => ⟨false, some data, none⟩
  | .error message => ⟨false, none, some message⟩

/-- A request an effect sent, with its variable `cancelled` and its answer, if there is one yet. -/
structure SentRequest (κ T : Type) where
  key : κ
  cancelled : Bool
  outcome : Option (Outcome T)

/-- A component with the hook: what it was last rendered with, the counter of its refreshes, what it shows,
the dependencies its effect last ran with, the requests it sent, in order, and whether it is mounted. -/
structure DataHook (κ T : Type) where
  key : κ
  tick : Nat
  state : LoadState T
  ranWith : Option (κ × Nat)
  requests : List (SentRequest κ T)
  mounted : Bool

namespace DataHook

variable {κ T : Type}

/-- The component when it is first rendered. -/
def mount (key : κ) : DataHook κ T := ⟨key, 0, ⟨true, none, none⟩, none, [], true⟩

/-- What can happen next. -/
inductive Step (κ T : Type) where
  | renders (key : κ)
  | refreshes
  | runsEffect
  | answers (request : Nat) (outcome : Outcome T)
  | unmounts

/-- The cleanup of the last effect: `cancelled = true`. -/
def cleanup (requests : List (SentRequest κ T)) : List (SentRequest κ T) :=
  requests.modify (requests.length - 1) fun r => { r with cancelled := true }

/-- One step, if it can happen. -/
def step [DecidableEq κ] (s : DataHook κ T) : Step κ T → Option (DataHook κ T)
  | .renders key => if s.mounted then some { s with key := key } else none
  | .refreshes => if s.mounted then some { s with tick := s.tick + 1 } else none
  | .runsEffect =>
      if s.mounted ∧ s.ranWith ≠ some (s.key, s.tick) then some { s with
        ranWith := some (s.key, s.tick)
        requests := cleanup s.requests ++ [⟨s.key, false, none⟩]
        state := ⟨true, s.state.data, none⟩ }
      else none
  | .answers i outcome =>
      match s.requests[i]? with
      | none => none
      | some r =>
          if r.outcome.isSome then none
          else some { s with
            requests := s.requests.set i { r with outcome := some outcome }
            state := if r.cancelled then s.state else .settled outcome }
  | .unmounts => if s.mounted then some { s with mounted := false, requests := cleanup s.requests } else none

end DataHook

/-- `useJSON`, with the path as key. -/
abbrev useJSON (T : Type) := DataHook String T

/-- The three verdicts of a probe. -/
inductive BoundaryVerdict where
  | disabled
  | available
  | error
deriving DecidableEq, Repr

/-- `BoundaryStatus`. -/
structure BoundaryStatus where
  status : BoundaryVerdict
  detail : String
deriving DecidableEq, Repr

/-- `useBoundaryStatus`, whose effect depends on the refreshes alone. -/
abbrev useBoundaryStatus := DataHook Unit BoundaryStatus

end GoExotic
