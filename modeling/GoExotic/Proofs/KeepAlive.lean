/-
Module: GoExotic.Proofs.KeepAlive
Purpose: How often a peer has to be heard of, so that it stays registered. `Upsert` reads the clock before it takes
  the lock, so its peer may enter the registry with a time that has passed, and an eviction may run long after it
  chose its cutoff. A peer that is heard of once in every period, by calls that store their reading within some
  delay, survives all evictions of an age of the period and the delay, in every interleaving, and no smaller age
  will do.
Trusted boundary: sync.RWMutex makes critical sections atomic
Main exports: Heard, StepInTime, InTime, Alive, alive_of_inTime, kept_alive_iff
-/
import GoExotic.Proofs.SharedRegistry

namespace GoExotic

namespace SharedRegistry

open Runs

/-! ### What is asked of a run -/

/-- At some time of the run, an `Upsert` of the peer or a successful `Heartbeat` takes the lock. -/
def Heard (go : GoLib) (clock : Int) (steps : List Step) (id : String) (time : Int) : Prop :=
  ∃ before e after seen, Visits (step go) (start clock) steps before e after ∧ Returns before e id seen ∧
    before.clock = time

/-- What is asked of a step after a part of the run: an `Upsert` of the peer takes the lock at most `delay` after
its reading, and when an `EvictStale` reads the clock, its age is at least `age`, and a peer that was heard of was
heard of within the last `period`. -/
def StepInTime (go : GoLib) (clock : Int) (id : String) (period delay age : Int) (earlier : List Step)
    (before : SharedRegistry) : Step → Prop
  | .upsertStores call => ∀ peer seen, before.storing call = some (peer, seen) → peer.id = id →
      before.clock ≤ seen + delay
  | .evictReadsClock _ maxAge => 0 < maxAge → age ≤ maxAge ∧ ((∃ time, Heard go clock earlier id time) →
      ∃ time, Heard go clock earlier id time ∧ before.clock ≤ time + period)
  | _ => True

/-- Every step of the run is in time. -/
def InTime (go : GoLib) (clock : Int) (id : String) (period delay age : Int) (steps : List Step) : Prop :=
  ∀ earlier e later before, steps = earlier ++ e :: later → exec (step go) (start clock) earlier = some before →
    StepInTime go clock id period delay age earlier before e

variable {go : GoLib} {clock : Int} {earlier steps : List Step} {id : String} {period delay age : Int}
  {before after : SharedRegistry} {e : Step}

/-- What was heard in a part of the run was heard. -/
theorem Heard.of_longer {time : Int} {later : List Step} (heard : Heard go clock earlier id time) :
    Heard go clock (earlier ++ later) id time := by
  obtain ⟨before, e, after, seen, visited, returns, isTime⟩ := heard
  exact ⟨before, e, after, seen, visited.append_left later, returns, isTime⟩

theorem inTime_append : InTime go clock id period delay age (earlier ++ [e]) ↔
    InTime go clock id period delay age earlier ∧ ∀ before, exec (step go) (start clock) earlier = some before →
      StepInTime go clock id period delay age earlier before e := by
  constructor
  · intro inTime
    refine ⟨?_, fun before => inTime earlier e [] before rfl⟩
    rintro first op rest before rfl
    exact inTime first op (rest ++ [e]) before (by rw [List.append_assoc]; rfl)
  · rintro ⟨inTime, last⟩ first op rest before split reached
    rcases append_singleton_eq_append_cons.mp split with ⟨rfl, rfl, -⟩ | ⟨others, -, isPast⟩
    · exact last before reached
    · exact inTime first op others before isPast reached

/-- After one more step, the peer was heard of before or is in this step. -/
theorem heard_append (reached : exec (step go) (start clock) earlier = some before)
    (taken : step go before e = some after) {time : Int} :
    Heard go clock (earlier ++ [e]) id time ↔
      Heard go clock earlier id time ∨ (∃ seen, Returns before e id seen) ∧ before.clock = time := by
  constructor
  · rintro ⟨atStep, op, left, seen, visited, returns, isTime⟩
    rcases Visits.append_singleton_iff.mp visited with heardBefore | ⟨rfl, reachedStep, -⟩
    · exact Or.inl ⟨atStep, op, left, seen, heardBefore, returns, isTime⟩
    · rw [reached] at reachedStep
      cases reachedStep
      exact Or.inr ⟨⟨seen, returns⟩, isTime⟩
  · rintro (heardBefore | ⟨⟨seen, returns⟩, isTime⟩)
    · exact heardBefore.of_longer
    · exact ⟨before, e, after, seen, Visits.append_singleton_iff.mpr (Or.inr ⟨rfl, reached, taken⟩), returns, isTime⟩

/-! ### The invariant -/

/-- A peer that was heard of is registered, with a time at most `delay` behind, and no eviction under way has a cutoff
beyond what the peer can answer. -/
structure Alive (go : GoLib) (clock : Int) (id : String) (delay : Int) (past : List Step) (s : SharedRegistry) :
    Prop where
  timely : Timely go s
  heard : ∀ time, Heard go clock past id time → time ≤ s.clock
  stored : ∀ time, Heard go clock past id time → ∃ p, s.registry.find id = some p ∧ time ≤ p.lastSeen + delay
  cutoffs : ∀ call cutoff, s.evicting call = some cutoff → cutoff + delay ≤ s.clock ∧
    ((∃ time, Heard go clock past id time) → ∃ time, Heard go clock past id time ∧ cutoff + delay ≤ time)

theorem alive_start (go : GoLib) (clock : Int) (id : String) (delay : Int) :
    Alive go clock id delay [] (start clock) := by
  have silent : ∀ time, ¬ Heard go clock [] id time := by
    rintro time ⟨before, e, after, seen, ⟨first, rest, split, -⟩, -⟩
    exact absurd split.symm (List.append_ne_nil_of_right_ne_nil first (List.cons_ne_nil e rest))
  constructor
  · exact timely_start go clock
  · exact fun time heard => absurd heard (silent time)
  · exact fun time heard => absurd heard (silent time)
  · intro call cutoff pending
    cases pending

/-- A call that ends moves neither the clock nor the evictions under way. -/
theorem Returns.same_clock {seen : Int} (returns : Returns before e id seen)
    (taken : step go before e = some after) : after.clock = before.clock ∧ after.evicting = before.evicting := by
  cases returns with
  | upsert pending =>
      rw [step, pending] at taken
      cases taken
      exact ⟨rfl, rfl⟩
  | heartbeat accepted =>
      cases taken
      exact ⟨rfl, rfl⟩

/-- Hearing of the peer, soon after the reading, keeps it alive. -/
theorem Alive.step_heard (alive : Alive go clock id delay earlier before)
    (reached : exec (step go) (start clock) earlier = some before) (taken : step go before e = some after)
    {seen : Int} (returns : Returns before e id seen) (soon : before.clock ≤ seen + delay) :
    Alive go clock id delay (earlier ++ [e]) after := by
  obtain ⟨sameClock, sameEvicting⟩ := returns.same_clock taken
  obtain ⟨p, found, isSeen⟩ := returns.find alive.timely taken
  have now : Heard go clock (earlier ++ [e]) id before.clock :=
    (heard_append reached taken).mpr (Or.inr ⟨⟨seen, returns⟩, rfl⟩)
  have upToNow : ∀ time, Heard go clock (earlier ++ [e]) id time → time ≤ before.clock := by
    intro time heard
    rcases (heard_append reached taken).mp heard with before | ⟨-, isNow⟩
    · exact alive.heard time before
    · exact le_of_eq isNow.symm
  constructor
  · exact alive.timely.step taken
  · rw [sameClock]
    exact upToNow
  · intro time heard
    have := upToNow time heard
    exact ⟨p, found, by omega⟩
  · intro call cutoff pending
    rw [sameEvicting] at pending
    obtain ⟨past, -⟩ := alive.cutoffs call cutoff pending
    rw [sameClock]
    exact ⟨past, fun _ => ⟨before.clock, now, past⟩⟩

/-- What a step can do in which nothing is heard of the peer. -/
structure Silent (id : String) (before : SharedRegistry) (e : Step) (after : SharedRegistry) : Prop where
  forward : before.clock ≤ after.clock
  kept : ∀ p, before.registry.find id = some p →
    (∀ call cutoff, before.evicting call = some cutoff → cutoff ≤ p.lastSeen) → after.registry.find id = some p
  cutoffs : ∀ call cutoff, after.evicting call = some cutoff → before.evicting call = some cutoff ∨
    ∃ maxAge, e = .evictReadsClock call maxAge ∧ 0 < maxAge ∧ cutoff = before.clock - maxAge

theorem silent_of_step (timely : Timely go before) (taken : step go before e = some after)
    (silent : ∀ seen, ¬ Returns before e id seen) : Silent id before e after := by
  cases step_effect timely.wellFormed taken with
  | ticks forward => exact ⟨forward, fun p found _ => found, fun _ _ pending => Or.inl pending⟩
  | readsForUpsert accepted => exact ⟨le_refl _, fun p found _ => found, fun _ _ pending => Or.inl pending⟩
  | @stores call peer seen pending =>
      refine ⟨le_refl _, ?_, fun _ _ pending => Or.inl pending⟩
      intro p found _
      rw [Registry.find_store, if_neg]
      · exact found
      · rintro rfl
        exact silent seen (.upsert pending)
  | @beats old known =>
      refine ⟨le_refl _, ?_, fun _ _ pending => Or.inl pending⟩
      intro p found _
      rw [Registry.find_store, if_neg]
      · exact found
      · rintro rfl
        have named := (Peer.validate_eq_ok.mp (timely.wellFormed.valid old.id old known)).1
        apply silent before.clock
        apply Returns.heartbeat
        rw [Registry.heartbeat_known (by rintro empty; rw [empty] at named; exact named rfl) rfl known]
  | @readsForEvict call maxAge =>
      refine ⟨le_refl _, fun p found _ => found, ?_⟩
      intro other cutoff pending
      dsimp only at pending
      by_cases isCall : other = call
      · subst isCall
        rw [step] at taken
        split at taken
        · cases taken
        · by_cases nonpositive : maxAge ≤ 0
          · rw [if_pos nonpositive] at taken
            have unchanged : before.evicting = _ := congrArg evicting (Option.some.inj taken)
            dsimp only at unchanged
            rw [← unchanged] at pending
            exact Or.inl pending
          · rw [Function.update_self] at pending
            cases pending
            exact Or.inr ⟨maxAge, rfl, by omega, rfl⟩
      · rw [Function.update_of_ne isCall] at pending
        exact Or.inl pending
  | @evicts call cutoff evicting =>
      refine ⟨le_refl _, ?_, ?_⟩
      · intro p found fresh
        have := fresh call cutoff evicting
        rw [Registry.find_evictBefore, found, Option.filter_some, if_pos]
        rw [decide_eq_true_iff]
        omega
      · intro other otherCutoff pending
        dsimp only at pending
        by_cases isCall : other = call
        · rw [isCall, Function.update_self] at pending
          cases pending
        · rw [Function.update_of_ne isCall] at pending
          exact Or.inl pending
  | returnsEarly => exact ⟨le_refl _, fun p found _ => found, fun _ _ pending => Or.inl pending⟩

/-- A step in time in which nothing is heard of the peer keeps it alive. -/
theorem Alive.step_silent (alive : Alive go clock id delay earlier before)
    (reached : exec (step go) (start clock) earlier = some before) (taken : step go before e = some after)
    (silent : ∀ seen, ¬ Returns before e id seen) (nonneg : 0 ≤ period)
    (enough : period + delay ≤ age) (inTime : StepInTime go clock id period delay age earlier before e) :
    Alive go clock id delay (earlier ++ [e]) after := by
  have same : ∀ time, Heard go clock (earlier ++ [e]) id time ↔ Heard go clock earlier id time := by
    intro time
    rw [heard_append reached taken, or_iff_left]
    rintro ⟨⟨seen, returns⟩, -⟩
    exact silent seen returns
  have quiet := silent_of_step alive.timely taken silent
  constructor
  · exact alive.timely.step taken
  · intro time heard
    exact (alive.heard time ((same time).mp heard)).trans quiet.forward
  · intro time heard
    have heardBefore := (same time).mp heard
    obtain ⟨p, found, recent⟩ := alive.stored time heardBefore
    refine ⟨p, quiet.kept p found ?_, recent⟩
    -- the peer answers every cutoff under way
    intro call cutoff pending
    obtain ⟨answer, answers, beyond⟩ := (alive.cutoffs call cutoff pending).2 ⟨time, heardBefore⟩
    obtain ⟨q, found', recent'⟩ := alive.stored answer answers
    rw [found] at found'
    cases found'
    omega
  · intro call cutoff pending
    simp only [same]
    rcases quiet.cutoffs call cutoff pending with under | ⟨maxAge, rfl, positive, rfl⟩
    · obtain ⟨past, answered⟩ := alive.cutoffs call cutoff under
      exact ⟨past.trans quiet.forward, answered⟩
    · obtain ⟨patient, punctual⟩ := inTime positive
      have forward := quiet.forward
      refine ⟨by omega, ?_⟩
      intro known
      obtain ⟨time, heard, recent⟩ := punctual known
      exact ⟨time, heard, by omega⟩

/-- Every run in time keeps the peer alive. -/
theorem alive_of_inTime (nonneg : 0 ≤ period) (patience : 0 ≤ delay) (enough : period + delay ≤ age)
    (steps : List Step) :
    ∀ s, InTime go clock id period delay age steps → exec (step go) (start clock) steps = some s →
      Alive go clock id delay steps s := by
  induction steps using List.reverseRecOn with
  | nil =>
      intro s _ ran
      rw [← exec_nil.mp ran]
      exact alive_start go clock id delay
  | append_singleton past e inductionHypothesis =>
      intro s inTime ran
      obtain ⟨before, reached, last⟩ := exec_append.mp ran
      obtain ⟨after, taken, same⟩ := exec_cons.mp last
      rw [← exec_nil.mp same]
      obtain ⟨pastInTime, lastInTime⟩ := inTime_append.mp inTime
      have alive := inductionHypothesis before pastInTime reached
      have here := lastInTime before reached
      by_cases heard : ∃ seen, Returns before e id seen
      · obtain ⟨seen, returns⟩ := heard
        apply alive.step_heard reached taken returns
        cases returns with
        | upsert pending => exact here _ _ pending rfl
        | heartbeat accepted => omega
      · rw [not_exists] at heard
        exact alive.step_silent reached taken heard nonneg enough here

/-! ### The bound -/

section Lapse

variable {peer : Peer}

/-- An `Upsert` that stores its peer `delay` after its reading. -/
def lateStore (peer : Peer) (delay : Int) : List Step := [.upsertReadsClock 0 peer, .tick delay, .upsertStores 0]

/-- Before the store. -/
def readState (peer : Peer) (clock : Int) : SharedRegistry :=
  { start clock with storing := Function.update (fun _ => none) 0 (some (peer, 0)) }

/-- After the store. -/
def lateState (peer : Peer) (clock : Int) : SharedRegistry :=
  { start clock with
    registry := Registry.new.store peer 0
    storing := Function.update (readState peer clock).storing 0 none }

theorem reads_peer (valid : peer.validate go = .ok ()) :
    step go (start 0) (.upsertReadsClock 0 peer) = some (readState peer 0) := by
  rw [step, valid]
  rfl

theorem read_reaches (valid : peer.validate go = .ok ()) (patience : 0 ≤ delay) :
    exec (step go) (start 0) [.upsertReadsClock 0 peer, .tick delay] = some (readState peer delay) :=
  exec_cons.mpr ⟨_, reads_peer valid, exec_cons.mpr ⟨_, if_pos patience, rfl⟩⟩

theorem stores_peer (clock : Int) :
    step go (readState peer clock) (.upsertStores 0) = some (lateState peer clock) := rfl

theorem lateStore_reaches (valid : peer.validate go = .ok ()) (patience : 0 ≤ delay) :
    exec (step go) (start 0) (lateStore peer delay) = some (lateState peer delay) :=
  exec_append.mpr ⟨_, read_reaches valid patience, exec_cons.mpr ⟨_, stores_peer delay, rfl⟩⟩

theorem lateStore_heard (valid : peer.validate go = .ok ()) (patience : 0 ≤ delay) :
    Heard go 0 (lateStore peer delay) peer.id delay := by
  apply (heard_append (read_reaches valid patience) (stores_peer delay)).mpr
  exact Or.inr ⟨⟨0, Returns.upsert rfl⟩, rfl⟩

/-- A late store, and an eviction that reads the clock `period` after it. -/
def lapse (peer : Peer) (period delay age : Int) : List Step :=
  lateStore peer delay ++ [.tick (delay + period)] ++ [.evictReadsClock 0 age] ++ [.evictRuns 0]

theorem waited_reaches (valid : peer.validate go = .ok ()) (patience : 0 ≤ delay) (nonneg : 0 ≤ period) :
    exec (step go) (start 0) (lateStore peer delay ++ [.tick (delay + period)]) =
      some (lateState peer (delay + period)) := by
  have forward : (lateState peer delay).clock ≤ delay + period := Int.le_add_of_nonneg_right nonneg
  exact exec_append.mpr ⟨_, lateStore_reaches valid patience, exec_cons.mpr ⟨_, if_pos forward, rfl⟩⟩

/-- The run is in time. -/
theorem lapse_inTime (valid : peer.validate go = .ok ()) (patience : 0 ≤ delay) (nonneg : 0 ≤ period) :
    InTime go 0 peer.id period delay age (lapse peer period delay age) := by
  have empty : InTime go 0 peer.id period delay age [] := by
    intro earlier e later before split
    cases earlier with
    | nil => cases split
    | cons first rest => cases split
  have joined : InTime go 0 peer.id period delay age (lateStore peer delay) := by
    refine inTime_append.mpr ⟨inTime_append.mpr ⟨inTime_append.mpr ⟨empty, ?_⟩, ?_⟩, ?_⟩
    · exact fun _ _ => trivial
    · exact fun _ _ => trivial
    · intro before reached
      rw [List.nil_append, List.singleton_append, read_reaches valid patience] at reached
      cases reached
      intro given seen pending _
      cases pending
      exact le_of_eq (Int.zero_add delay).symm
  have heard : Heard go 0 (lateStore peer delay) peer.id delay := lateStore_heard valid patience
  refine inTime_append.mpr ⟨inTime_append.mpr ⟨inTime_append.mpr ⟨joined, ?_⟩, ?_⟩, ?_⟩
  · exact fun _ _ => trivial
  · intro before reached positive
    rw [waited_reaches valid patience nonneg] at reached
    cases reached
    refine ⟨le_refl age, fun _ => ⟨delay, ?_, le_refl _⟩⟩
    exact heard.of_longer
  · exact fun _ _ => trivial

theorem lapse_heard (valid : peer.validate go = .ok ()) (patience : 0 ≤ delay) :
    Heard go 0 (lapse peer period delay age) peer.id delay := by
  have heard : Heard go 0 (lateStore peer delay) peer.id delay := lateStore_heard valid patience
  exact heard.of_longer.of_longer.of_longer

/-- The run ends without the peer, if the age is too small. -/
theorem lapse_loses (valid : peer.validate go = .ok ()) (patience : 0 ≤ delay) (nonneg : 0 ≤ period)
    (positive : 0 < age) (short : age < period + delay) :
    ∃ s, exec (step go) (start 0) (lapse peer period delay age) = some s ∧ ¬ Registered peer.id s := by
  have reads : step go (lateState peer (delay + period)) (.evictReadsClock 0 age) =
      some { lateState peer (delay + period) with
        evicting := Function.update (fun _ => none) 0 (some (delay + period - age)) } := by
    rw [step]
    exact if_neg (not_le.mpr positive)
  refine ⟨_, exec_append.mpr ⟨_, exec_append.mpr ⟨_, waited_reaches valid patience nonneg,
    exec_cons.mpr ⟨_, reads, rfl⟩⟩, exec_cons.mpr ⟨_, rfl, rfl⟩⟩, ?_⟩
  have stored : (lateState peer (delay + period)).registry.find peer.id = some { peer with lastSeen := 0 } :=
    Registry.find_store_self peer 0
  have stale : ¬ ¬ (0 : Int) < delay + period - age := by omega
  rw [Registered, Registry.find_evictBefore]
  dsimp only
  rw [stored, Option.filter_some, if_neg (by rwa [decide_eq_true_iff])]
  exact Bool.false_ne_true

end Lapse

/-- The bound on the age of evictions. Take a valid peer, and the runs in which its `Upsert`s take the lock at most
`delay` after their reading and in which, whenever an `EvictStale` reads the clock, the peer, if it was ever heard of,
was heard of within the last `period`. In every such interleaving with no eviction of an age below `period` and `delay`
together, the peer stays registered once it was heard of, with a stored time at most `delay` behind the last time
it was heard of; and with any smaller age some such run loses it. -/
theorem kept_alive_iff (go : GoLib) (peer : Peer) (valid : peer.validate go = .ok ()) (period delay age : Int)
    (nonneg : 0 ≤ period) (patience : 0 ≤ delay) (positive : 0 < age) :
    ((∀ clock steps s, InTime go clock peer.id period delay age steps →
        exec (step go) (start clock) steps = some s → (∃ time, Heard go clock steps peer.id time) →
        Registered peer.id s) ↔ period + delay ≤ age) ∧
      (period + delay ≤ age → ∀ clock steps s time, InTime go clock peer.id period delay age steps →
        exec (step go) (start clock) steps = some s → Heard go clock steps peer.id time →
        ∃ p, s.registry.find peer.id = some p ∧ time ≤ p.lastSeen + delay) := by
  have stored : period + delay ≤ age → ∀ clock steps s time, InTime go clock peer.id period delay age steps →
      exec (step go) (start clock) steps = some s → Heard go clock steps peer.id time →
      ∃ p, s.registry.find peer.id = some p ∧ time ≤ p.lastSeen + delay := by
    intro enough clock steps s time inTime ran heard
    exact (alive_of_inTime nonneg patience enough steps s inTime ran).stored time heard
  refine ⟨⟨?_, ?_⟩, stored⟩
  · intro kept
    by_contra short
    obtain ⟨s, ran, lost⟩ := lapse_loses valid patience nonneg positive (not_le.mp short)
    exact lost (kept 0 _ s (lapse_inTime valid patience nonneg) ran ⟨delay, lapse_heard valid patience⟩)
  · rintro enough clock steps s inTime ran ⟨time, heard⟩
    obtain ⟨p, found, -⟩ := stored enough clock steps s time inTime ran heard
    rw [Registered, found]
    rfl

/-- Heard of every ten, with stores five late: an age of fifteen is enough, and one of fourteen is not. -/
theorem kept_alive_iff_fifteen :
    (∀ clock steps s, InTime .plain clock "p" 10 5 15 steps → exec (step .plain) (start clock) steps = some s →
        (∃ time, Heard .plain clock steps "p" time) → Registered "p" s) ∧
      ¬ ∀ clock steps s, InTime .plain clock "p" 10 5 14 steps →
        exec (step .plain) (start clock) steps = some s → (∃ time, Heard .plain clock steps "p" time) →
        Registered "p" s := by
  have valid : overtakenPeer.validate .plain = .ok () := by decide +kernel
  constructor
  · exact (kept_alive_iff .plain overtakenPeer valid 10 5 15 (by decide) (by decide) (by decide)).1.mpr (by decide)
  · intro kept
    have enough := (kept_alive_iff .plain overtakenPeer valid 10 5 14 (by decide) (by decide) (by decide)).1.mp kept
    omega

end SharedRegistry

end GoExotic
