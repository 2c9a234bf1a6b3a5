/-
Module: GoExotic.Proofs.SharedRegistry
Purpose: Heartbeats under concurrency. No reading of the clock is ahead of it, so a heartbeat or an
  eviction never moves a stored time back; an `Upsert` does when it stores a reading older than the time
  already stored, which it can, having read the clock before it took the lock. Heartbeats are kept in
  exactly the runs in which no `Upsert` does that, which are those in which none is overtaken by a call for its id.
Trusted boundary: none
Main exports: LastSeenNeverDecreases, EvictsFresh, HeartbeatsKept, StoresInOrder, Timely, step_effect,
  storesInOrder_iff_not_overtaken, heartbeats_kept_iff
-/
import GoExotic.Model.SharedRegistry
import GoExotic.Proofs.RegistryState
import GoExotic.Theory.Runs

namespace GoExotic

namespace SharedRegistry

open Runs

/-! ### What a run should keep -/

/-- The id is registered. -/
def Registered (id : String) (s : SharedRegistry) : Prop := (s.registry.find id).isSome = true

/-- The step from `before` ends an `Upsert` or `Heartbeat` call for the id that returns nil and has read
the clock at `seen`. -/
inductive Returns (before : SharedRegistry) : Step → String → Int → Prop where
  | upsert {call : Nat} {peer : Peer} {seen : Int} (pending : before.storing call = some (peer, seen)) :
      Returns before (.upsertStores call) peer.id seen
  | heartbeat {id : String} (accepted : (before.registry.heartbeat id before.clock).1 = .ok ()) :
      Returns before (.heartbeat id) id before.clock

/-- In no step of the run does the stored time of a peer decrease. -/
def LastSeenNeverDecreases (go : GoLib) (clock : Int) (steps : List Step) : Prop :=
  ∀ before e after, Visits (step go) (start clock) steps before e after →
    ∀ id p q, before.registry.find id = some p → after.registry.find id = some q →
      p.lastSeen ≤ q.lastSeen

/-- The run lets an `EvictStale` call with some cutoff remove a peer that has stayed registered since a
call that read the clock at the cutoff or later and returned nil before that `EvictStale` began. -/
inductive EvictsFresh (go : GoLib) (clock : Int) (steps : List Step) (id : String) : Prop where
  | evicts (earlier between during later : List Step) (op : Step) (call : Nat) (maxAge cutoff seen : Int)
      (atOp returned atEviction evicted : SharedRegistry)
      (run : steps = earlier ++ op :: (between ++ .evictReadsClock call maxAge :: during) ++
        .evictRuns call :: later)
      (reached : exec (step go) (start clock) earlier = some atOp)
      (operated : step go atOp op = some returned)
      (returns : Returns atOp op id seen)
      (ran : exec (step go) returned (between ++ .evictReadsClock call maxAge :: during) = some atEviction)
      (stayed : Throughout (step go) (Registered id) returned
        (between ++ .evictReadsClock call maxAge :: during))
      (pending : atEviction.evicting call = some cutoff)
      (fresh : cutoff ≤ seen)
      (evicts : step go atEviction (.evictRuns call) = some evicted)
      (removed : ¬ Registered id evicted)

/-- No heartbeat is lost in the run. -/
structure HeartbeatsKept (go : GoLib) (clock : Int) (steps : List Step) : Prop where
  never_decreases : LastSeenNeverDecreases go clock steps
  never_evicts_fresh : ∀ id, ¬ EvictsFresh go clock steps id

/-- Whenever an `Upsert` of the run stores its peer, the registry holds no later time for its id. -/
def StoresInOrder (go : GoLib) (clock : Int) (steps : List Step) : Prop :=
  ∀ before call after, Visits (step go) (start clock) steps before (.upsertStores call) after →
    ∀ peer seen old, before.storing call = some (peer, seen) →
      before.registry.find peer.id = some old → old.lastSeen ≤ seen

/-! ### One step -/

/-- No reading is ahead of the clock, and every peer that is stored or waits to be is valid. -/
structure Timely (go : GoLib) (s : SharedRegistry) : Prop where
  wellFormed : s.registry.WellFormed go
  stored : ∀ id p, s.registry.find id = some p → p.lastSeen ≤ s.clock
  pending : ∀ call peer seen, s.storing call = some (peer, seen) →
    seen ≤ s.clock ∧ peer.validate go = .ok ()

theorem timely_start (go : GoLib) (clock : Int) : Timely go (start clock) where
  wellFormed := Registry.WellFormed.new go
  stored id p found := by simp [start] at found
  pending call peer seen waits := by simp [start] at waits

/-- Everything a step can do. -/
inductive Effect (go : GoLib) (before : SharedRegistry) : Step → SharedRegistry → Prop where
  | ticks {later : Int} (forward : before.clock ≤ later) :
      Effect go before (.tick later) { before with clock := later }
  | readsForUpsert {call : Nat} {peer : Peer} (accepted : peer.validate go = .ok ()) :
      Effect go before (.upsertReadsClock call peer)
        { before with storing := Function.update before.storing call (some (peer, before.clock)) }
  | stores {call : Nat} {peer : Peer} {seen : Int} (pending : before.storing call = some (peer, seen)) :
      Effect go before (.upsertStores call) { before with
        registry := before.registry.store peer seen
        storing := Function.update before.storing call none }
  | beats {old : Peer} (known : before.registry.find old.id = some old) :
      Effect go before (.heartbeat old.id)
        { before with registry := before.registry.store old before.clock }
  | readsForEvict {call : Nat} {maxAge : Int} :
      Effect go before (.evictReadsClock call maxAge)
        { before with evicting := Function.update before.evicting call (some (before.clock - maxAge)) }
  | evicts {call : Nat} {cutoff : Int} (pending : before.evicting call = some cutoff) :
      Effect go before (.evictRuns call) { before with
        registry := (before.registry.evictBefore go cutoff).2
        evicting := Function.update before.evicting call none }
  | returnsEarly {e : Step} : Effect go before e before

variable {go : GoLib} {clock : Int} {steps : List Step} {before after : SharedRegistry} {e : Step}

theorem step_effect (wellFormed : before.registry.WellFormed go) (taken : step go before e = some after) :
    Effect go before e after := by
  cases e with
  | tick later =>
      rw [step, Option.ite_none_right_eq_some, Option.some.injEq] at taken
      rw [← taken.2]
      exact Effect.ticks taken.1
  | upsertReadsClock call peer =>
      rw [step] at taken
      split at taken
      · cases taken
      · cases taken
        exact Effect.returnsEarly
      · rename_i accepted
        cases taken
        exact Effect.readsForUpsert accepted
  | upsertStores call =>
      rw [step] at taken
      split at taken
      · cases taken
      · rename_i peer seen pending
        cases taken
        exact Effect.stores pending
  | heartbeat id =>
      rw [step, Option.some.injEq] at taken
      rw [← taken]
      have beaten := Registry.heartbeat_beaten wellFormed id before.clock
      generalize before.registry.heartbeat id before.clock = result at beaten ⊢
      cases beaten with
      | unknown id err => exact Effect.returnsEarly
      | known old found => exact Effect.beats found
  | evictReadsClock call maxAge =>
      rw [step] at taken
      split at taken
      · cases taken
      · split_ifs at taken
        · cases taken
          exact Effect.returnsEarly
        · cases taken
          exact Effect.readsForEvict
  | evictRuns call =>
      rw [step] at taken
      split at taken
      · cases taken
      · rename_i cutoff pending
        cases taken
        exact Effect.evicts pending

/-- Storing a valid peer with a reading of the clock that is not ahead of it. -/
theorem Timely.store (timely : Timely go before) {peer : Peer} {seen : Int} (reading : seen ≤ before.clock)
    (accepted : peer.validate go = .ok ()) :
    Timely go { before with registry := before.registry.store peer seen } := by
  constructor
  · exact timely.wellFormed.store accepted seen
  · intro id p found
    rw [Registry.find_store] at found
    split_ifs at found
    · cases found
      exact reading
    · exact timely.stored id p found
  · exact timely.pending

/-- Every step keeps the readings behind the clock. -/
theorem Timely.step (timely : Timely go before) (taken : step go before e = some after) :
    Timely go after := by
  cases step_effect timely.wellFormed taken with
  | ticks forward =>
      constructor
      · exact timely.wellFormed
      · intro id p found
        exact (timely.stored id p found).trans forward
      · intro call peer seen waits
        have pending := timely.pending call peer seen waits
        exact ⟨pending.1.trans forward, pending.2⟩
  | @readsForUpsert call peer accepted =>
      refine ⟨timely.wellFormed, timely.stored, ?_⟩
      intro other waiting seen waits
      dsimp only at waits
      by_cases isCall : other = call
      · rw [isCall, Function.update_self] at waits
        cases waits
        exact ⟨le_refl _, accepted⟩
      · rw [Function.update_of_ne isCall] at waits
        exact timely.pending other waiting seen waits
  | @stores call peer seen pending =>
      obtain ⟨reading, accepted⟩ := timely.pending call peer seen pending
      have stored := timely.store reading accepted
      refine ⟨stored.wellFormed, stored.stored, ?_⟩
      intro other waiting t waits
      dsimp only at waits
      by_cases isCall : other = call
      · rw [isCall, Function.update_self] at waits
        cases waits
      · rw [Function.update_of_ne isCall] at waits
        exact timely.pending other waiting t waits
  | @beats old known => exact timely.store (le_refl _) (timely.wellFormed.valid old.id old known)
  | readsForEvict => exact ⟨timely.wellFormed, timely.stored, timely.pending⟩
  | evicts pending =>
      refine ⟨timely.wellFormed.evictBefore _, ?_, timely.pending⟩
      intro id p found
      rw [Registry.find_evictBefore, Option.filter_eq_some_iff] at found
      exact timely.stored id p found.1
  | returnsEarly => exact timely

/-- In every state a run reaches, no reading is ahead of the clock. -/
theorem timely_of_visits (visited : Visits (SharedRegistry.step go) (start clock) steps before e after) :
    Timely go before := by
  obtain ⟨earlier, later, -, reached, -⟩ := visited
  exact exec_invariant (timely_start go clock) (fun _ _ _ timely taken => timely.step taken) reached

/-- A step that is no late store keeps the stored times from decreasing. -/
theorem lastSeen_le (timely : Timely go before) (taken : SharedRegistry.step go before e = some after)
    (inOrder : ∀ call peer seen old, e = .upsertStores call → before.storing call = some (peer, seen) →
      before.registry.find peer.id = some old → old.lastSeen ≤ seen)
    {id : String} {p q : Peer} (earlier : before.registry.find id = some p)
    (later : after.registry.find id = some q) : p.lastSeen ≤ q.lastSeen := by
  have unchanged : before.registry.find id = some q → p.lastSeen ≤ q.lastSeen := by
    intro same
    rw [earlier] at same
    cases same
    exact le_refl _
  cases step_effect timely.wellFormed taken with
  | ticks forward => exact unchanged later
  | readsForUpsert accepted => exact unchanged later
  | @stores call peer seen pending =>
      rw [Registry.find_store] at later
      split_ifs at later with named
      · cases later
        subst named
        exact inOrder call peer seen p rfl pending earlier
      · exact unchanged later
  | @beats old known =>
      rw [Registry.find_store] at later
      split_ifs at later with named
      · cases later
        exact timely.stored id p earlier
      · exact unchanged later
  | readsForEvict => exact unchanged later
  | evicts pending =>
      rw [Registry.find_evictBefore, Option.filter_eq_some_iff] at later
      exact unchanged later.1
  | returnsEarly => exact unchanged later

/-! ### Whole runs -/

/-- Stores in order never move a stored time back. -/
theorem StoresInOrder.never_decreases (inOrder : StoresInOrder go clock steps) :
    LastSeenNeverDecreases go clock steps := by
  intro before e after visited id p q earlier later
  have timely := timely_of_visits visited
  have taken := visited.taken
  apply lastSeen_le timely taken ?_ earlier later
  rintro call peer seen old rfl pending found
  exact inOrder before call after visited peer seen old pending found

/-- A late store moves a stored time back. -/
theorem LastSeenNeverDecreases.stores_in_order (kept : LastSeenNeverDecreases go clock steps) :
    StoresInOrder go clock steps := by
  intro before call after visited peer seen old pending found
  have taken := visited.taken
  rw [SharedRegistry.step, pending] at taken
  cases taken
  exact kept before _ _ visited peer.id old _ found (Registry.find_store_self peer seen)

/-- The call that ended left its reading in the registry. -/
theorem Returns.find {id : String} {seen : Int} (returns : Returns before e id seen)
    (timely : Timely go before) (taken : SharedRegistry.step go before e = some after) :
    ∃ p, after.registry.find id = some p ∧ p.lastSeen = seen := by
  cases returns with
  | @upsert call peer seen pending =>
      rw [SharedRegistry.step, pending] at taken
      cases taken
      exact ⟨_, Registry.find_store_self peer seen, rfl⟩
  | heartbeat accepted =>
      rw [SharedRegistry.step, Option.some.injEq] at taken
      rw [← taken]
      have beaten := Registry.heartbeat_beaten timely.wellFormed id before.clock
      generalize before.registry.heartbeat id before.clock = result at accepted beaten ⊢
      cases beaten with
      | unknown id err => cases accepted
      | known old found => exact ⟨_, Registry.find_store_self old before.clock, rfl⟩

/-- The time stored for the id in the first state, if any, is no later than in the second. -/
def NoLaterThan (id : String) (s t : SharedRegistry) : Prop :=
  ∀ p q, s.registry.find id = some p → t.registry.find id = some q → p.lastSeen ≤ q.lastSeen

/-- Where stored times never decrease, the time an id has after a step is no later than the one it has later, as long
as it stays registered. -/
theorem LastSeenNeverDecreases.noLaterThan (kept : LastSeenNeverDecreases go clock steps)
    {earlier between rest : List Step} {op : Step} {atOp written t : SharedRegistry} {id : String}
    (run : steps = earlier ++ op :: between ++ rest)
    (reached : exec (SharedRegistry.step go) (start clock) earlier = some atOp)
    (operated : SharedRegistry.step go atOp op = some written)
    (ran : exec (SharedRegistry.step go) written between = some t)
    (stayed : Throughout (SharedRegistry.step go) (Registered id) written between) : NoLaterThan id written t := by
  apply exec_related (NoLaterThan id) ?_ ?_ ?_ stayed ran
  · intro s p q one two
    rw [one] at two
    cases two
    exact le_refl _
  · intro s t u registered first second p q one three
    obtain ⟨mid, two⟩ := Option.isSome_iff_exists.mp registered
    exact (first p mid one two).trans (second mid q two three)
  · intro before e after visited p q one two
    have throughOp : exec (SharedRegistry.step go) (start clock) (earlier ++ [op]) = some written :=
      exec_append.mpr ⟨atOp, reached, exec_cons.mpr ⟨written, operated, rfl⟩⟩
    have whole := (visited.append_left rest).append throughOp
    rw [List.append_assoc, List.singleton_append, ← List.cons_append, ← List.append_assoc, ← run] at whole
    exact kept before e after whole id p q one two

/-- Where stored times never decrease, no fresh peer is evicted: its time is at the cutoff or later from
the call that ended on. -/
theorem LastSeenNeverDecreases.not_evictsFresh (kept : LastSeenNeverDecreases go clock steps)
    (id : String) : ¬ EvictsFresh go clock steps id := by
  rintro ⟨earlier, between, during, later, op, call, maxAge, cutoff, seen, atOp, returned, atEviction,
    evicted, run, reached, operated, returns, ran, stayed, pending, fresh, evicts, removed⟩
  have opVisited : Visits (SharedRegistry.step go) (start clock) steps atOp op returned :=
    ⟨earlier, _, by rw [run, List.append_assoc]; rfl, reached, operated⟩
  obtain ⟨p, found, seenThen⟩ := returns.find (timely_of_visits opVisited) operated
  -- the stored time does not decrease from the end of the call to the eviction
  have untilEviction := kept.noLaterThan run reached operated ran stayed
  have atEnd : Registered id atEviction := stayed _ [] atEviction (List.append_nil _).symm ran
  obtain ⟨q, last⟩ := Option.isSome_iff_exists.mp atEnd
  have notStale : ¬ q.lastSeen < cutoff := by
    have := untilEviction p q found last
    omega
  rw [SharedRegistry.step, pending] at evicts
  cases evicts
  apply removed
  rw [Registered, Registry.find_evictBefore, last]
  simp [Option.filter, notStale]

/-! ### Overtaken calls -/

/-- The time an id has in the state that steps lead to was left by a call for it that returned nil, since when the id
has stayed registered. -/
inductive LeftBy (go : GoLib) (clock : Int) (steps : List Step) (s : SharedRegistry) (id : String) (seen : Int) :
    Prop where
  | call (earlier between : List Step) (op : Step) (atOp written : SharedRegistry)
      (run : steps = earlier ++ op :: between)
      (reached : exec (step go) (start clock) earlier = some atOp)
      (operated : step go atOp op = some written)
      (returns : Returns atOp op id seen)
      (ran : exec (step go) written between = some s)
      (stayed : Throughout (step go) (Registered id) written between)

/-- The run lets an `Upsert` store a clock reading that a call for the same id has overtaken: that call read the clock
later and returned nil first, and the id has stayed registered since. -/
inductive Overtaken (go : GoLib) (clock : Int) (steps : List Step) : Prop where
  | stores (past later : List Step) (call : Nat) (peer : Peer) (seen newer : Int) (atStore : SharedRegistry)
      (run : steps = past ++ .upsertStores call :: later)
      (left : LeftBy go clock past atStore peer.id newer)
      (pending : atStore.storing call = some (peer, seen))
      (late : seen < newer)

/-- A call that has just ended left its reading. -/
theorem LeftBy.here {id : String} {seen : Int}
    (reached : exec (SharedRegistry.step go) (start clock) steps = some before)
    (taken : SharedRegistry.step go before e = some after) (returns : Returns before e id seen)
    (registered : Registered id after) : LeftBy go clock (steps ++ [e]) after id seen :=
  .call steps [] e before after rfl reached taken returns rfl (throughout_nil.mpr registered)

/-- A step after which the id is still registered. -/
theorem LeftBy.longer {id : String} {seen : Int} (left : LeftBy go clock steps before id seen)
    (taken : SharedRegistry.step go before e = some after) (registered : Registered id after) :
    LeftBy go clock (steps ++ [e]) after id seen := by
  obtain ⟨earlier, between, op, atOp, written, rfl, reached, operated, returns, ran, stayed⟩ := left
  have onward : exec (SharedRegistry.step go) written (between ++ [e]) = some after :=
    exec_append.mpr ⟨before, ran, exec_cons.mpr ⟨after, taken, rfl⟩⟩
  exact .call earlier (between ++ [e]) op atOp written (by rw [List.append_assoc, List.cons_append]) reached operated
    returns onward (stayed.append_singleton onward registered)

/-- Every stored time was left by a call. -/
def AllLeft (go : GoLib) (clock : Int) (steps : List Step) (s : SharedRegistry) : Prop :=
  ∀ id p, s.registry.find id = some p → LeftBy go clock steps s id p.lastSeen

theorem allLeft_of_exec {s : SharedRegistry} (ran : exec (SharedRegistry.step go) (start clock) steps = some s) :
    AllLeft go clock steps s := by
  refine exec_history ?_ ?_ ran
  · intro id p found
    simp [start] at found
  · intro past before e after left reached taken id p found
    have registered : Registered id after := Option.isSome_iff_exists.mpr ⟨p, found⟩
    have unchanged : before.registry.find id = some p → LeftBy go clock (past ++ [e]) after id p.lastSeen :=
      fun same => (left id p same).longer taken registered
    have timely : Timely go before :=
      exec_invariant (timely_start go clock) (fun _ _ _ timely taken => timely.step taken) reached
    cases step_effect timely.wellFormed taken with
    | ticks forward => exact unchanged found
    | readsForUpsert accepted => exact unchanged found
    | @stores call peer seen pending =>
        rw [Registry.find_store] at found
        split_ifs at found with named
        · cases found
          subst named
          exact .here reached taken (.upsert pending) registered
        · exact unchanged found
    | @beats old known =>
        rw [Registry.find_store] at found
        split_ifs at found with named
        · cases found
          subst named
          have named : old.id ≠ "" := Peer.id_ne_empty (timely.wellFormed.valid old.id old known)
          have accepted : (before.registry.heartbeat old.id before.clock).1 = .ok () :=
            congrArg Prod.fst (Registry.heartbeat_known named rfl known)
          exact .here reached taken (.heartbeat accepted) registered
        · exact unchanged found
    | readsForEvict => exact unchanged found
    | evicts pending =>
        rw [Registry.find_evictBefore, Option.filter_eq_some_iff] at found
        exact unchanged found.1
    | returnsEarly => exact unchanged found

/-- The stores of a run are in order exactly when no `Upsert` is overtaken: no other `Upsert` of its id and no
`Heartbeat` for it reads the clock later than the `Upsert` does and returns before the `Upsert` stores its peer. -/
theorem storesInOrder_iff_not_overtaken : StoresInOrder go clock steps ↔ ¬ Overtaken go clock steps := by
  constructor
  · rintro inOrder ⟨past, later, call, peer, seen, newer, atStore, rfl,
      ⟨earlier, between, op, atOp, written, rfl, reached, operated, returns, ran, stayed⟩, pending, late⟩
    have opVisited : Visits (SharedRegistry.step go) (start clock)
        (earlier ++ op :: between ++ .upsertStores call :: later) atOp op written :=
      ⟨earlier, _, by rw [List.append_assoc]; rfl, reached, operated⟩
    obtain ⟨p, found, seenThen⟩ := returns.find (timely_of_visits opVisited) operated
    have untilStore := inOrder.never_decreases.noLaterThan rfl reached operated ran stayed
    have atEnd : Registered peer.id atStore := stayed between [] atStore (List.append_nil _).symm ran
    obtain ⟨q, last⟩ := Option.isSome_iff_exists.mp atEnd
    have stores : SharedRegistry.step go atStore (.upsertStores call) = some { atStore with
        registry := atStore.registry.store peer seen
        storing := Function.update atStore.storing call none } := by
      rw [SharedRegistry.step, pending]
    have reachedStore : exec (SharedRegistry.step go) (start clock) (earlier ++ op :: between) = some atStore :=
      exec_append.mpr ⟨atOp, reached, exec_cons.mpr ⟨written, operated, ran⟩⟩
    have onTime := inOrder atStore call _ ⟨_, later, rfl, reachedStore, stores⟩ peer seen q pending last
    have noLater := untilStore p q found last
    omega
  · intro notOvertaken before call after visited peer seen old pending found
    by_contra late
    obtain ⟨past, later, rfl, reached, -⟩ := visited
    exact notOvertaken ⟨past, later, call, peer, seen, old.lastSeen, before, rfl,
      allLeft_of_exec reached peer.id old found, pending, by omega⟩

/-- A run loses no heartbeat exactly when none of its `Upsert` calls stores a clock reading older than the
time the registry then holds for its peer. -/
theorem heartbeats_kept_iff (go : GoLib) (clock : Int) (steps : List Step) :
    HeartbeatsKept go clock steps ↔ StoresInOrder go clock steps := by
  constructor
  · intro kept
    exact kept.never_decreases.stores_in_order
  · intro inOrder
    exact ⟨inOrder.never_decreases, inOrder.never_decreases.not_evictsFresh⟩

/-- A peer registered twice by overlapping calls, with a heartbeat in between. -/
def overtakenPeer : Peer := ⟨"p", "http://h", "http", ⟨"p", .finite 1, ""⟩, 0⟩

/-- A second `Upsert` reads the clock at 0 and stores after a heartbeat at 10; an `EvictStale` of age 5
follows. -/
def overtakenRun : List Step :=
  [.upsertReadsClock 0 overtakenPeer, .upsertStores 0, .upsertReadsClock 1 overtakenPeer, .tick 10,
    .heartbeat "p", .upsertStores 1, .evictReadsClock 0 5, .evictRuns 0]

/-- The late store undoes the heartbeat, and the eviction removes the peer. -/
theorem overtakenRun_loses_heartbeat :
    ¬ HeartbeatsKept .plain 0 overtakenRun ∧ ¬ LastSeenNeverDecreases .plain 0 overtakenRun ∧
      EvictsFresh .plain 0 overtakenRun "p" := by
  have decreases : ¬ LastSeenNeverDecreases .plain 0 overtakenRun := by
    intro kept
    have visited : ∃ before after, Visits (SharedRegistry.step .plain) (start 0) overtakenRun before
        (.upsertStores 1) after ∧
        before.registry.find "p" = some { overtakenPeer with lastSeen := 10 } ∧
        after.registry.find "p" = some { overtakenPeer with lastSeen := 0 } :=
      ⟨_, _, ⟨overtakenRun.take 5, overtakenRun.drop 6, rfl, rfl, rfl⟩, rfl, rfl⟩
    obtain ⟨before, after, late, earlier, later⟩ := visited
    have : (10 : Int) ≤ 0 := kept before _ after late "p" _ _ earlier later
    omega
  refine ⟨fun kept => decreases kept.never_decreases, decreases, ?_⟩
  refine EvictsFresh.evicts (overtakenRun.take 4) [.upsertStores 1] [] [] (.heartbeat "p") 0 5 5 10 _ _ _ _
    rfl rfl rfl (.heartbeat rfl) rfl ?stayed rfl (by decide) rfl ?removed
  case removed => exact Bool.false_ne_true
  case stayed =>
    refine throughout_cons.mpr ⟨?_, ?_⟩
    · exact rfl
    · rintro _ ⟨⟩
      refine throughout_cons.mpr ⟨?_, ?_⟩
      · exact rfl
      · rintro _ ⟨⟩
        refine throughout_nil.mpr ?_
        exact rfl

end SharedRegistry

end GoExotic
