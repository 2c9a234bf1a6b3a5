/-
Module: GoExotic.Proofs.RegistryCalls
Purpose: The registry is linearizable. However concurrent calls interleave, the order in which they go through
  their critical sections, or return early, is a serial use of the registry: the serial calls, each with the
  clock reading it made in the run, give the same answers and leave the same registry, and no call is moved past
  one that returned before it began. So the registry of a concurrent run is the history of its serial order, and
  each snapshot `Peers` returned is that of a serial use.
Trusted boundary: none
Main exports: SerialCall, serveSerial, Taken, TakenInRun, updates, Effect, step_effect, Explained, explained_of_exec,
  registry_calls_linearizable
-/
import GoExotic.Model.RegistryCalls
import GoExotic.Proofs.RegistryHistory
import GoExotic.Theory.Linearization

namespace GoExotic

namespace RegistryCalls

open Runs Linearization

/-! ### Serial use -/

/-- A call of a serial use, with its arguments and the clock reading it makes. -/
inductive SerialCall where
  | update (call : Registry.Call)
  | peers
deriving DecidableEq

/-- Serve a call of a serial use. -/
def serveSerial (go : GoLib) : SerialCall → Registry → RegistryAnswer × Registry
  | .update call, r => (.updated (Registry.serve go call r).1, (Registry.serve go call r).2)
  | .peers, r => (.listed (r.peers go), r)

/-- The serial call an operation is, at a reading of the clock. -/
def serialCall (now : Int) : RegistryOp → SerialCall
  | .upsert peer => .update (.upsert peer now)
  | .heartbeat peerID => .update (.heartbeat peerID now)
  | .evictStale maxAge => .update (.evictStale maxAge now)
  | .peers => .peers

/-- The operation may take effect as the serial call. -/
def Taken (op : RegistryOp) (call : SerialCall) : Prop := ∃ now, call = serialCall now op

/-- The updates of a serial use, without its snapshots. -/
def updates (calls : List (Nat × SerialCall)) : List Registry.Call :=
  calls.filterMap fun call =>
    match call.2 with
    | .update update => some update
    | .peers => none

variable {go : GoLib}

/-- Snapshots change nothing. -/
theorem final_updates (calls : List (Nat × SerialCall)) (r : Registry) :
    final (serveAt (serveSerial go)) calls r = final (Registry.serve go) (updates calls) r := by
  induction calls generalizing r with
  | nil => rfl
  | cons call rest inductionHypothesis =>
      obtain ⟨id, update | _⟩ := call
      · exact inductionHypothesis (Registry.serve go update r).2
      · exact inductionHypothesis r

/-! ### One call -/

/-- A call that returns before the lock returns what the serial call does, which changes nothing. -/
theorem serveSerial_of_early {now : Int} {op : RegistryOp} {answer : RegistryAnswer}
    (early : beforeLock go now op = .error answer) (r : Registry) :
    serveSerial go (serialCall now op) r = (answer, r) := by
  cases op with
  | upsert peer =>
      rw [beforeLock] at early
      rw [serialCall, serveSerial, Registry.serve, Registry.upsert]
      cases valid : peer.validate go with
      | error err =>
          rw [valid] at early
          cases early
          rfl
      | ok u =>
          rw [valid] at early
          cases early
  | heartbeat peerID =>
      rw [beforeLock] at early
      split_ifs at early with empty
      cases early
      rw [serialCall, serveSerial, Registry.serve, Registry.heartbeat, if_pos empty]
  | evictStale maxAge =>
      rw [beforeLock] at early
      split_ifs at early with empty
      cases early
      rw [serialCall, serveSerial, Registry.serve, Registry.evictStale, if_pos empty]
  | peers => cases early

/-- The reading a call makes that gets to the lock: `Heartbeat` reads the clock under it, and the others before. -/
def readingOf (before under : Int) : RegistryOp → Int
  | .heartbeat _ => under
  | _ => before

/-- A critical section does what the serial call does at the reading the call made. -/
theorem serveSerial_of_section {now : Int} {op : RegistryOp} {critical : Section}
    (ready : beforeLock go now op = .ok critical) (later : Int) (r : Registry) :
    serveSerial go (serialCall (readingOf now later op) op) r = critical.run go later r := by
  cases op with
  | upsert peer =>
      rw [beforeLock] at ready
      dsimp only [readingOf]
      rw [serialCall, serveSerial, Registry.serve, Registry.upsert]
      cases valid : peer.validate go with
      | error err =>
          rw [valid] at ready
          cases ready
      | ok u =>
          rw [valid] at ready
          cases ready
          rfl
  | heartbeat peerID =>
      rw [beforeLock] at ready
      split_ifs at ready
      cases ready
      rfl
  | evictStale maxAge =>
      rw [beforeLock] at ready
      split_ifs at ready with positive
      cases ready
      dsimp only [readingOf]
      rw [serialCall, serveSerial, Registry.serve, Registry.evictStale, if_neg positive]
      rfl
  | peers =>
      cases ready
      rfl

/-! ### Interleavings -/

/-- What an observer sees of a step. -/
def Step.event : Step → Option (Event RegistryOp RegistryAnswer)
  | .enters call op => some (.invoke call op)
  | .returns call answer => some (.respond call answer)
  | _ => none

/-- What an observer sees of a run. -/
def seen (steps : List Step) : List (Event RegistryOp RegistryAnswer) := steps.filterMap Step.event

/-- The run takes a step at a time. -/
def TakesAt (go : GoLib) (clock : Int) (steps : List Step) (e : Step) (now : Int) : Prop :=
  ∃ before after, Visits (RegistryCalls.step go) (start clock) steps before e after ∧ before.clock = now

/-- The step of a call in which it reads the clock, or returns early. -/
def readsClock (call : Nat) : RegistryOp → Step
  | .heartbeat peerID => if peerID = "" then .prepares call else .locks call
  | _ => .prepares call

/-- A serial call is the operation its call began with, at the reading of the clock that the call made in the run. -/
def TakenInRun (go : GoLib) (clock : Int) (steps : List Step) (call : Nat × SerialCall) : Prop :=
  ∃ op now, .invoke call.1 op ∈ seen steps ∧ TakesAt go clock steps (readsClock call.1 op) now ∧
    call.2 = serialCall now op

/-- Everything a step can do. -/
inductive Effect (go : GoLib) (before : RegistryCalls) : Step → RegistryCalls → Prop where
  | ticks {later : Int} (forward : before.clock ≤ later) : Effect go before (.tick later) { before with clock := later }
  | enters {call : Nat} {op : RegistryOp} (idle : before.phase call = .idle) :
      Effect go before (.enters call op) (before.moved call (.entered op))
  | returnsEarly {call : Nat} {op : RegistryOp} {answer : RegistryAnswer} (entered : before.phase call = .entered op)
      (early : beforeLock go before.clock op = .error answer) :
      Effect go before (.prepares call) (before.moved call (.answered answer))
  | prepares {call : Nat} {op : RegistryOp} {critical : Section} (entered : before.phase call = .entered op)
      (ready : beforeLock go before.clock op = .ok critical) :
      Effect go before (.prepares call) (before.moved call (.waiting op critical))
  | locks {call : Nat} {op : RegistryOp} {critical : Section} (waiting : before.phase call = .waiting op critical) :
      Effect go before (.locks call)
        { before.moved call (.answered (critical.run go before.clock before.registry).1) with
          registry := (critical.run go before.clock before.registry).2 }
  | returns {call : Nat} {answer : RegistryAnswer} (answered : before.phase call = .answered answer) :
      Effect go before (.returns call answer) (before.moved call .returned)

theorem step_effect {before after : RegistryCalls} {e : Step} (taken : RegistryCalls.step go before e = some after) :
    Effect go before e after := by
  cases e with
  | tick later =>
      rw [RegistryCalls.step, Option.ite_none_right_eq_some, Option.some.injEq] at taken
      obtain ⟨forward, rfl⟩ := taken
      exact .ticks forward
  | enters call op =>
      rw [RegistryCalls.step] at taken
      cases there : before.phase call with
      | idle =>
          rw [there] at taken
          cases taken
          exact .enters there
      | _ =>
          rw [there] at taken
          cases taken
  | prepares call =>
      rw [RegistryCalls.step] at taken
      cases there : before.phase call with
      | entered op =>
          rw [there] at taken
          dsimp only at taken
          cases prepared : beforeLock go before.clock op with
          | error answer =>
              rw [prepared] at taken
              cases taken
              exact .returnsEarly there prepared
          | ok critical =>
              rw [prepared] at taken
              cases taken
              exact .prepares there prepared
      | _ =>
          rw [there] at taken
          cases taken
  | locks call =>
      rw [RegistryCalls.step] at taken
      cases there : before.phase call with
      | waiting op critical =>
          rw [there] at taken
          cases taken
          exact .locks there
      | _ =>
          rw [there] at taken
          cases taken
  | returns call answer =>
      rw [RegistryCalls.step] at taken
      cases there : before.phase call with
      | answered given =>
          rw [there] at taken
          rw [Option.ite_none_right_eq_some, Option.some.injEq] at taken
          obtain ⟨rfl, rfl⟩ := taken
          exact .returns there
      | _ =>
          rw [there] at taken
          cases taken

/-- How far a call has come, seen as a call of an object with atomic sections; one that waits for the lock has
prepared for it at some reading of the clock. -/
inductive Mirrors (go : GoLib) (prepared : Int → Prop) : CallPhase → Phase RegistryOp RegistryAnswer → Prop where
  | idle : Mirrors go prepared .idle .idle
  | entered (op : RegistryOp) : Mirrors go prepared (.entered op) (.invoked op)
  | waiting (op : RegistryOp) {now : Int} {critical : Section} (ready : beforeLock go now op = .ok critical)
      (isReading : prepared now) : Mirrors go prepared (.waiting op critical) (.invoked op)
  | answered (answer : RegistryAnswer) : Mirrors go prepared (.answered answer) (.answered answer)
  | returned : Mirrors go prepared .returned .returned

/-- An interleaving of atomic sections explains the steps so far. -/
def Explained (go : GoLib) (clock : Int) (steps : List Step) (s : RegistryCalls) : Prop :=
  ∃ (actions : List (Action RegistryOp SerialCall RegistryAnswer)) (phase : Nat → Phase RegistryOp RegistryAnswer),
    Run (serveSerial go) Taken .new actions ⟨s.registry, phase⟩ ∧
      (∀ call, Mirrors go (TakesAt go clock steps (.prepares call)) (s.phase call) (phase call)) ∧
      history actions = seen steps ∧ ∀ call ∈ order actions, TakenInRun go clock steps call

section Moves

variable {prepared : Nat → Int → Prop} {phases : Nat → CallPhase} {phase : Nat → Phase RegistryOp RegistryAnswer}

namespace Mirrors

variable {prepared : Int → Prop} {there : Phase RegistryOp RegistryAnswer}

theorem of_idle (mirrors : Mirrors go prepared .idle there) : there = .idle := by
  cases mirrors
  rfl

theorem of_entered {op : RegistryOp} (mirrors : Mirrors go prepared (.entered op) there) : there = .invoked op := by
  cases mirrors
  rfl

theorem of_waiting {op : RegistryOp} {critical : Section} (mirrors : Mirrors go prepared (.waiting op critical) there) :
    there = .invoked op ∧ ∃ now, beforeLock go now op = .ok critical ∧ prepared now := by
  cases mirrors with
  | waiting op ready isReading => exact ⟨rfl, _, ready, isReading⟩

theorem of_answered {answer : RegistryAnswer} (mirrors : Mirrors go prepared (.answered answer) there) :
    there = .answered answer := by
  cases mirrors
  rfl

end Mirrors

theorem Mirrors.mono {prepared more : Int → Prop} {here : CallPhase} {there : Phase RegistryOp RegistryAnswer}
    (mirrors : Mirrors go prepared here there) (all : ∀ now, prepared now → more now) :
    Mirrors go more here there := by
  cases mirrors with
  | idle => exact .idle
  | entered op => exact .entered op
  | waiting op ready isReading => exact .waiting op ready (all _ isReading)
  | answered answer => exact .answered answer
  | returned => exact .returned

theorem mirrors_update (mirrors : ∀ call, Mirrors go (prepared call) (phases call) (phase call)) {call : Nat}
    {here : CallPhase} {there : Phase RegistryOp RegistryAnswer} (moved : Mirrors go (prepared call) here there)
    (other : Nat) :
    Mirrors go (prepared other) (Function.update phases call here other) (Function.update phase call there other) := by
  by_cases same : other = call
  · rw [same, Function.update_self, Function.update_self]
    exact moved
  · rw [Function.update_of_ne same, Function.update_of_ne same]
    exact mirrors other

/-- A phase that the mirrored call keeps while the call moves on. -/
theorem mirrors_stay (mirrors : ∀ call, Mirrors go (prepared call) (phases call) (phase call)) {call : Nat}
    {here : CallPhase} (moved : Mirrors go (prepared call) here (phase call)) (other : Nat) :
    Mirrors go (prepared other) (Function.update phases call here other) (phase other) := by
  have kept : Mirrors go (prepared other) _ (Function.update phase call (phase call) other) :=
    mirrors_update mirrors moved other
  rwa [Function.update_eq_self] at kept

end Moves

theorem seen_append (steps : List Step) (e : Step) : seen (steps ++ [e]) = seen steps ++ e.event.toList := by
  rw [seen, List.filterMap_append, seen]
  cases e <;> rfl

theorem seen_subset (steps : List Step) (e : Step) : seen steps ⊆ seen (steps ++ [e]) := by
  rw [seen_append]
  exact List.subset_append_left _ _

/-- What the run did it has done after one more step. -/
theorem TakesAt.longer {clock : Int} {steps : List Step} {e : Step} {now : Int} (takes : TakesAt go clock steps e now)
    (last : Step) : TakesAt go clock (steps ++ [last]) e now := by
  obtain ⟨before, after, visited, isNow⟩ := takes
  exact ⟨before, after, visited.append_left [last], isNow⟩

theorem TakenInRun.longer {clock : Int} {steps : List Step} {call : Nat × SerialCall}
    (taken : TakenInRun go clock steps call) (last : Step) : TakenInRun go clock (steps ++ [last]) call := by
  obtain ⟨op, now, invoked, takes, same⟩ := taken
  exact ⟨op, now, seen_subset steps last invoked, takes.longer last, same⟩

/-- A call that returns early does so where it would read the clock. -/
theorem readsClock_of_early {now : Int} {op : RegistryOp} {answer : RegistryAnswer}
    (early : beforeLock go now op = .error answer) (call : Nat) : readsClock call op = .prepares call := by
  cases op with
  | heartbeat peerID =>
      rw [beforeLock] at early
      split_ifs at early with empty
      exact if_pos empty
  | upsert | evictStale | peers => rfl

/-- A call that gets to the lock made its reading before it, or makes it now. -/
theorem takesAt_readsClock {clock reading now : Int} {steps : List Step} {op : RegistryOp} {critical : Section}
    {call : Nat} (ready : beforeLock go reading op = .ok critical)
    (prepared : TakesAt go clock steps (.prepares call) reading) (locks : TakesAt go clock steps (.locks call) now) :
    TakesAt go clock steps (readsClock call op) (readingOf reading now op) := by
  cases op with
  | heartbeat peerID =>
      rw [beforeLock] at ready
      split_ifs at ready with empty
      rw [readsClock, if_neg empty]
      exact locks
  | upsert | evictStale | peers => exact prepared

section OneStep

variable {clock : Int} {steps : List Step} {before after : RegistryCalls} {e : Step}

/-- The last step of a run is taken at its time. -/
theorem takesAt_last (reached : exec (RegistryCalls.step go) (start clock) steps = some before)
    (taken : RegistryCalls.step go before e = some after) : TakesAt go clock (steps ++ [e]) e before.clock :=
  ⟨before, after, Visits.append_singleton_iff.mpr (Or.inr ⟨rfl, reached, taken⟩), rfl⟩

/-- The call that takes effect in a step is its operation at the reading of the clock. -/
theorem takenInRun_append {actions : List (Action RegistryOp SerialCall RegistryAnswer)}
    (inRun : ∀ call ∈ order actions, TakenInRun go clock steps call) {call : Nat} {op : RegistryOp} {now : Int}
    (invoked : .invoke call op ∈ seen steps) (takes : TakesAt go clock (steps ++ [e]) (readsClock call op) now) :
    ∀ entry ∈ order (actions ++ [.take call (serialCall now op)]), TakenInRun go clock (steps ++ [e]) entry := by
  intro entry member
  rw [order_append] at member
  rcases List.mem_append.mp member with inPast | isNew
  · exact (inRun entry inPast).longer e
  · rw [List.mem_singleton.mp isNew]
    exact ⟨op, now, seen_subset steps e invoked, takes, rfl⟩

/-- Every step stays explained. -/
theorem Explained.step (explained : Explained go clock steps before)
    (reached : exec (RegistryCalls.step go) (start clock) steps = some before)
    (taken : RegistryCalls.step go before e = some after) : Explained go clock (steps ++ [e]) after := by
  obtain ⟨actions, phase, run, mirrored, sameHistory, inRun⟩ := explained
  have now := takesAt_last reached taken
  have mirrors : ∀ call, Mirrors go (TakesAt go clock (steps ++ [e]) (.prepares call)) (before.phase call)
      (phase call) := fun call => (mirrored call).mono fun _ takes => takes.longer e
  have stays : ∀ call ∈ order actions, TakenInRun go clock (steps ++ [e]) call :=
    fun call member => (inRun call member).longer e
  have begun : ∀ {call op}, phase call = .invoked op → .invoke call op ∈ seen steps := by
    intro call op isInvoked
    exact sameHistory ▸ (run.tracks.invoked call op isInvoked).2
  rw [Explained, seen_append, ← sameHistory]
  cases step_effect taken with
  | ticks forward => exact ⟨actions, phase, run, mirrors, (List.append_nil _).symm, stays⟩
  | @enters call op idle =>
      have there := (idle ▸ mirrors call).of_idle
      have sameOrder : order (actions ++ [.invoke call op]) = order actions :=
        (order_append _ _).trans (List.append_nil _)
      exact ⟨_, _, run.invoke there, mirrors_update mirrors (.entered op), history_append _ _, sameOrder ▸ stays⟩
  | @returnsEarly call op answer entered early =>
      -- an early return takes effect here
      have there := (entered ▸ mirrors call).of_entered
      have took := run.take there (⟨before.clock, rfl⟩ : Taken op _)
      rw [serveSerial_of_early early] at took
      refine ⟨_, _, took, mirrors_update mirrors (.answered answer), history_append _ _, ?_⟩
      apply takenInRun_append inRun (begun there)
      rw [readsClock_of_early early]
      exact now
  | @prepares call op critical entered ready =>
      have there := (entered ▸ mirrors call).of_entered
      refine ⟨actions, phase, run, ?_, (List.append_nil _).symm, stays⟩
      exact mirrors_stay mirrors (there ▸ .waiting op ready now)
  | @locks call op critical waiting =>
      obtain ⟨there, reading, ready, isReading⟩ := (waiting ▸ mirrors call).of_waiting
      have took := run.take there (⟨_, rfl⟩ : Taken op (serialCall (readingOf reading before.clock op) op))
      rw [serveSerial_of_section ready before.clock before.registry] at took
      refine ⟨_, _, took, mirrors_update mirrors (.answered _), history_append _ _, ?_⟩
      apply takenInRun_append inRun (begun there)
      exact takesAt_readsClock ready isReading now
  | @returns call answer answered =>
      have there := (answered ▸ mirrors call).of_answered
      have sameOrder : order (actions ++ [.respond call answer]) = order actions :=
        (order_append _ _).trans (List.append_nil _)
      exact ⟨_, _, run.respond there, mirrors_update mirrors .returned, history_append _ _, sameOrder ▸ stays⟩

end OneStep

theorem explained_of_exec {clock : Int} {steps : List Step} {s : RegistryCalls}
    (ran : exec (RegistryCalls.step go) (start clock) steps = some s) : Explained go clock steps s := by
  refine exec_history ?_ ?_ ran
  · exact ⟨[], fun _ => .idle, Run.start, fun _ => .idle, rfl, by simp [order]⟩
  · intro past before e after explained reached taken
    exact explained.step reached taken

/-- The registry is linearizable: for every interleaving of calls on a fresh registry there is an order of serial
calls, each at the clock reading its call made in the run, that explains all answers and keeps real time; the
registry is the one these calls leave, so its peers are exactly the registrations in force in their history; and
every list that `Peers` returned is that of the serial calls before it. -/
theorem registry_calls_linearizable (go : GoLib) (clock : Int) (steps : List Step) (s : RegistryCalls)
    (ran : exec (RegistryCalls.step go) (start clock) steps = some s) :
    ∃ order, Linearizes (serveSerial go) Taken .new (seen steps) order ∧
      (∀ call ∈ order, TakenInRun go clock steps call) ∧
      s.registry = Registry.after go (updates order) ∧
      Registry.Accounted go (Registry.historyOf go (updates order)) s.registry ∧
      ∀ id peers, .respond id (.listed peers) ∈ seen steps → ∃ earlier later,
        order = earlier ++ (id, .peers) :: later ∧ peers = (Registry.after go (updates earlier)).peers go := by
  obtain ⟨actions, phase, run, -, sameHistory, inRun⟩ := explained_of_exec ran
  have linearizes := run.linearizes
  have object : s.registry = Registry.after go (updates (order actions)) :=
    run.object_eq.trans (final_updates _ _)
  rw [sameHistory] at linearizes
  refine ⟨order actions, linearizes, inRun, object, object ▸ Registry.accounted_after go _, ?_⟩
  intro id peers returned
  obtain ⟨call, served⟩ := linearizes.answers id (.listed peers) returned
  obtain ⟨earlier, later, split, answered⟩ := answered_of_mem_trace _ served
  rw [final_updates] at answered
  cases call with
  | update call => cases answered
  | peers =>
      cases answered
      exact ⟨earlier, later, split, rfl⟩

/-- A peer that joins at time 0. -/
def joiningPeer : Peer := ⟨"p", "http://h", "http", ⟨"p", .finite 1, ""⟩, 0⟩

/-- A `Peers` call that begins before an `Upsert` stores its peer, and lists it. -/
def overlappingCalls : List Step :=
  [.enters 0 (.upsert joiningPeer), .enters 1 .peers, .prepares 0, .tick 10, .prepares 1, .locks 0, .locks 1,
    .returns 1 (.listed [joiningPeer]), .returns 0 (.updated (.done (.ok ())))]

theorem registry_calls_linearizable_overlapping :
    ∃ order, Linearizes (serveSerial .plain) Taken .new (seen overlappingCalls) order ∧
      (∀ call ∈ order, TakenInRun .plain 0 overlappingCalls call) ∧
      (⟨(∅ : GoMap Peer).insert "p" joiningPeer⟩ : Registry) = Registry.after .plain (updates order) ∧
      Registry.Accounted .plain (Registry.historyOf .plain (updates order))
        ⟨(∅ : GoMap Peer).insert "p" joiningPeer⟩ ∧
      ∀ id peers, .respond id (.listed peers) ∈ seen overlappingCalls → ∃ earlier later,
        order = earlier ++ (id, .peers) :: later ∧
          peers = (Registry.after .plain (updates earlier)).peers .plain := by
  have ran : ∃ s, exec (RegistryCalls.step .plain) (start 0) overlappingCalls = some s ∧
      s.registry = ⟨(∅ : GoMap Peer).insert "p" joiningPeer⟩ := ⟨_, rfl, rfl⟩
  obtain ⟨s, ran, isRegistry⟩ := ran
  have explained := registry_calls_linearizable .plain 0 overlappingCalls s ran
  rw [isRegistry] at explained
  exact explained

end RegistryCalls

end GoExotic
