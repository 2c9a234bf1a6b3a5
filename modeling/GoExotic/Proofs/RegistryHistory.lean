/-
Module: GoExotic.Proofs.RegistryHistory
Purpose: The registry is its history. A history lists the calls made so far with their answers, and says
  on its own which registration of an id is in force: the last successful `Upsert` of the id, when no
  eviction of the id follows it. The registry holds exactly the registrations in force, each stamped with
  the latest clock reading of a successful `Upsert` or `Heartbeat` of its id.
Trusted boundary: none
Main exports: Record, LastRegistration, Explains, Served.effect, accounted_after, registry_is_its_history
-/
import GoExotic.Proofs.RegistryState
import GoExotic.Theory.Runs

namespace GoExotic

namespace Registry

/-! ### What a history says -/

/-- A call with its answer. -/
abbrev Record := Call × Answer

/-- The record of a successful `Upsert`. -/
def upserted (peer : Peer) (now : Int) : Record := (.upsert peer now, .done (.ok ()))

/-- The record of a successful `Heartbeat`. -/
def refreshed (id : String) (now : Int) : Record := (.heartbeat id now, .done (.ok ()))

/-- The record is an eviction that returned a peer with the id. -/
def Evicts (id : String) (record : Record) : Prop :=
  ∃ peers, record.2 = .evicted peers ∧ ∃ gone ∈ peers, gone.id = id

/-- The record is a successful `Upsert` of the id. -/
def Registers (id : String) (record : Record) : Prop :=
  ∃ peer now, record = upserted peer now ∧ peer.id = id

/-- The clock reading of a successful `Upsert` or `Heartbeat` of the id. -/
def reading (id : String) : Record → Option Int
  | (.upsert peer now, .done (.ok ())) => if peer.id = id then some now else none
  | (.heartbeat peerID now, .done (.ok ())) => if peerID = id then some now else none
  | _ => none

/-- The latest clock reading for the id in a stretch of history. -/
def latestReading (id : String) (records : List Record) : Option Int :=
  (records.filterMap (reading id)).getLast?

/-- The last successful `Upsert` of the id is that of `peer`, and no eviction of the id is later. The
records after it are `since`. -/
structure LastRegistration (history : List Record) (id : String) (peer : Peer) (now : Int)
    (since : List Record) : Prop where
  split : ∃ earlier, history = earlier ++ upserted peer now :: since
  named : peer.id = id
  latest : ∀ record ∈ since, ¬ Registers id record
  not_evicted : ∀ record ∈ since, ¬ Evicts id record

/-- The history accounts for the stored peer: it is the peer of the last registration, stamped with the
latest reading since. -/
def Explains (history : List Record) (id : String) (stored : Peer) : Prop :=
  ∃ peer now since, LastRegistration history id peer now since ∧
    latestReading id (upserted peer now :: since) = some stored.lastSeen ∧
    stored = { peer with lastSeen := stored.lastSeen }

theorem registers_upserted {id : String} {peer : Peer} {now : Int} :
    Registers id (upserted peer now) ↔ peer.id = id := by
  constructor
  · rintro ⟨other, t, equal, named⟩
    cases equal
    exact named
  · intro named
    exact ⟨peer, now, rfl, named⟩

/-- A heartbeat registers nothing. -/
theorem not_registers_heartbeat {id peerID : String} {now : Int} {answer : Answer} :
    ¬ Registers id (.heartbeat peerID now, answer) := by
  rintro ⟨other, t, equal, -⟩
  cases equal

/-- A call that does not return nil registers nothing. -/
theorem not_registers_of_ne {id : String} {call : Call} {answer : Answer}
    (notNil : answer ≠ .done (.ok ())) : ¬ Registers id (call, answer) := by
  rintro ⟨other, t, equal, -⟩
  exact notNil (congrArg Prod.snd equal)

/-- Only an eviction evicts. -/
theorem not_evicts_done {id : String} {call : Call} {result : Except GoError Unit} :
    ¬ Evicts id (call, .done result) := by
  rintro ⟨peers, equal, -⟩
  cases equal

theorem evicts_evicted {id : String} {call : Call} {peers : List Peer} :
    Evicts id (call, .evicted peers) ↔ ∃ gone ∈ peers, gone.id = id := by
  constructor
  · rintro ⟨others, equal, isGone⟩
    cases equal
    exact isGone
  · intro isGone
    exact ⟨peers, rfl, isGone⟩

/-- No record both registers and evicts an id. -/
theorem Evicts.not_registers {id : String} {record : Record} (evicts : Evicts id record) :
    ¬ Registers id record := by
  rintro ⟨peer, now, rfl, -⟩
  exact not_evicts_done evicts

/-! ### One more record -/

theorem latestReading_append {id : String} (records : List Record) {record : Record} {now : Int}
    (read : reading id record = some now) : latestReading id (records ++ [record]) = some now := by
  rw [latestReading, List.filterMap_append, List.filterMap_cons_some read, List.filterMap_nil,
    List.getLast?_concat]

theorem latestReading_append_none {id : String} {records : List Record} {record : Record}
    (silent : reading id record = none) :
    latestReading id (records ++ [record]) = latestReading id records := by
  rw [latestReading, List.filterMap_append, List.filterMap_cons_none silent, List.filterMap_nil,
    List.append_nil]
  rfl

theorem reading_upserted {id : String} {peer : Peer} {now : Int} (named : peer.id = id) :
    reading id (upserted peer now) = some now := if_pos named

namespace LastRegistration

variable {history : List Record} {id : String} {peer : Peer} {now : Int} {since : List Record}
  {record : Record}

/-- A successful `Upsert` is the last registration of its id. -/
theorem of_upserted (named : peer.id = id) :
    LastRegistration (history ++ [upserted peer now]) id peer now [] where
  split := ⟨history, rfl⟩
  named := named
  latest := by simp
  not_evicted := by simp

/-- A record that neither registers nor evicts the id leaves its registration in force. -/
theorem append (registered : LastRegistration history id peer now since)
    (registersNot : ¬ Registers id record) (evictsNot : ¬ Evicts id record) :
    LastRegistration (history ++ [record]) id peer now (since ++ [record]) := by
  obtain ⟨earlier, split⟩ := registered.split
  constructor
  · exact ⟨earlier, by rw [split, List.append_assoc, List.cons_append]⟩
  · exact registered.named
  · intro other member
    rcases List.mem_append.mp member with before | last
    · exact registered.latest other before
    · rw [List.mem_singleton.mp last]
      exact registersNot
  · intro other member
    rcases List.mem_append.mp member with before | last
    · exact registered.not_evicted other before
    · rw [List.mem_singleton.mp last]
      exact evictsNot

/-- Where the last registration of a longer history comes from: the new record, or the history before
it, when the new record neither registers nor evicts the id. -/
theorem of_append (registered : LastRegistration (history ++ [record]) id peer now since) :
    Registers id record ∨
      (¬ Evicts id record ∧ ∃ before, LastRegistration history id peer now before) := by
  obtain ⟨earlier, split⟩ := registered.split
  rcases Runs.append_singleton_eq_append_cons.mp split with ⟨-, isRecord, -⟩ | ⟨before, rfl, sameHistory⟩
  · -- the registration is the new record itself
    exact Or.inl ⟨peer, now, isRecord, registered.named⟩
  · -- the new record is the last one since the registration
    refine Or.inr ⟨registered.not_evicted record (by simp), before, ⟨earlier, sameHistory⟩,
      registered.named, ?_, ?_⟩
    · exact fun other member => registered.latest other (List.mem_append_left _ member)
    · exact fun other member => registered.not_evicted other (List.mem_append_left _ member)

end LastRegistration

/-- A record that neither registers, nor evicts, nor refreshes the id leaves the account as it is. -/
theorem Explains.append {history : List Record} {id : String} {stored : Peer} {record : Record}
    (explains : Explains history id stored) (registersNot : ¬ Registers id record)
    (evictsNot : ¬ Evicts id record) (silent : reading id record = none) :
    Explains (history ++ [record]) id stored := by
  obtain ⟨peer, now, since, registered, latest, same⟩ := explains
  refine ⟨peer, now, since ++ [record], registered.append registersNot evictsNot, ?_, same⟩
  rw [← List.cons_append, latestReading_append_none silent]
  exact latest

/-- A successful heartbeat restamps the account. -/
theorem Explains.refresh {history : List Record} {id : String} {stored : Peer}
    (explains : Explains history id stored) (now : Int) :
    Explains (history ++ [refreshed id now]) id { stored with lastSeen := now } := by
  obtain ⟨peer, first, since, registered, -, same⟩ := explains
  have kept : LastRegistration (history ++ [refreshed id now]) id peer first
      (since ++ [refreshed id now]) :=
    registered.append not_registers_heartbeat not_evicts_done
  refine ⟨peer, first, since ++ [refreshed id now], kept, ?_, ?_⟩
  · rw [← List.cons_append]
    exact latestReading_append _ (if_pos rfl)
  · rw [same]

/-! ### One call -/

variable {go : GoLib} {r : Registry}

/-- Everything a call can do to an id. -/
inductive Effect (go : GoLib) (r : Registry) (record : Record) (after : Registry) (id : String) : Prop where
  | registered (peer : Peer) (now : Int) (recorded : record = upserted peer now) (named : peer.id = id)
      (stored : after.find id = some { peer with lastSeen := now })
  | refreshed (now : Int) (old : Peer) (recorded : record = Registry.refreshed id now)
      (known : r.find id = some old) (stored : after.find id = some { old with lastSeen := now })
  | evicted (recorded : Evicts id record) (gone : after.find id = none)
  | untouched (registersNot : ¬ Registers id record) (evictsNot : ¬ Evicts id record)
      (silent : reading id record = none) (same : after.find id = r.find id)

/-- An eviction by a cutoff either returns the id's peer and deletes it, or leaves the id alone. -/
theorem Effect.of_evictBefore (wellFormed : r.WellFormed go) (call : Call) (cutoff : Int) (id : String) :
    Effect go r (call, .evicted (r.evictBefore go cutoff).1) (r.evictBefore go cutoff).2 id := by
  have left : (r.evictBefore go cutoff).2.find id = (r.find id).filter fun p => ¬ p.lastSeen < cutoff :=
    r.find_evictBefore cutoff
  by_cases gone : ∃ p ∈ (r.evictBefore go cutoff).1, p.id = id
  · apply Effect.evicted (evicts_evicted.mpr gone)
    obtain ⟨p, member, named⟩ := gone
    obtain ⟨stored, stale⟩ := mem_evictBefore.mp member
    have found : r.find id = some p := named ▸ wellFormed.stored_iff.mp stored
    rw [left, found]
    simp [Option.filter, stale]
  · apply Effect.untouched (not_registers_of_ne (by simp)) (mt evicts_evicted.mp gone)
    · cases call <;> rfl
    · rw [left]
      cases found : r.find id with
      | none => rfl
      | some p =>
          have fresh : ¬ p.lastSeen < cutoff := fun stale =>
            gone ⟨p, mem_evictBefore.mpr ⟨⟨id, found⟩, stale⟩, wellFormed.keyed id p found⟩
          simp [Option.filter, fresh]

/-- Whatever a call does has one of the effects on every id. -/
theorem Served.effect {call : Call} {result : Answer × Registry} (done : Served go r call result)
    (wellFormed : r.WellFormed go) (id : String) : Effect go r (call, result.1) result.2 id := by
  cases done with
  | failed call err =>
      apply Effect.untouched (not_registers_of_ne (by simp)) not_evicts_done
      · cases call <;> rfl
      · rfl
  | upserted peer now valid =>
      by_cases named : peer.id = id
      · apply Effect.registered peer now rfl named
        rw [← named, find_store_self]
      · apply Effect.untouched (mt registers_upserted.mp named) not_evicts_done
        · exact if_neg named
        · rw [find_store, if_neg (Ne.symm named)]
  | refreshed old now known =>
      by_cases named : old.id = id
      · subst named
        exact Effect.refreshed now old rfl known (find_store_self old now)
      · apply Effect.untouched not_registers_heartbeat not_evicts_done
        · exact if_neg named
        · rw [find_store, if_neg (Ne.symm named)]
  | evicted maxAge now cutoff => exact Effect.of_evictBefore wellFormed _ cutoff id
  | idle maxAge now =>
      apply Effect.untouched (not_registers_of_ne (by simp))
      · simp [evicts_evicted]
      · rfl
      · rfl

/-! ### Whole runs -/

/-- What history and registry have to do with each other: a stored peer is explained by the history, and
an id without a stored peer has no registration in force. -/
structure Accounted (go : GoLib) (history : List Record) (r : Registry) : Prop where
  wellFormed : r.WellFormed go
  present : ∀ id p, r.find id = some p → Explains history id p
  absent : ∀ id, r.find id = none → ∀ peer now since, ¬ LastRegistration history id peer now since

theorem accounted_new (go : GoLib) : Accounted go [] .new where
  wellFormed := WellFormed.new go
  present id p stored := by simp at stored
  absent id _ peer now since registered := by
    obtain ⟨earlier, split⟩ := registered.split
    simp at split

/-- One call keeps history and registry in step. -/
theorem Accounted.step {history : List Record} (accounted : Accounted go history r) (call : Call) :
    Accounted go (history ++ [(call, (serve go call r).1)]) (serve go call r).2 := by
  have done := serve_served accounted.wellFormed call
  have effect := done.effect accounted.wellFormed
  constructor
  · exact done.keeps_wellFormed accounted.wellFormed
  · intro id p stored
    cases effect id with
    | registered peer now recorded named is =>
        rw [is, Option.some.injEq] at stored
        subst stored
        rw [recorded]
        exact ⟨peer, now, [], LastRegistration.of_upserted named,
          latestReading_append [] (reading_upserted named), rfl⟩
    | refreshed now old recorded known is =>
        rw [is, Option.some.injEq] at stored
        subst stored
        rw [recorded]
        exact (accounted.present id old known).refresh now
    | evicted recorded gone =>
        rw [gone] at stored
        cases stored
    | untouched registersNot evictsNot silent same =>
        rw [same] at stored
        exact (accounted.present id p stored).append registersNot evictsNot silent
  · intro id missing peer now since registered
    rcases registered.of_append with registers | ⟨evictsNot, before, earlier⟩
    · cases effect id with
      | registered peer now recorded named is =>
          rw [is] at missing
          cases missing
      | refreshed now old recorded known is =>
          rw [is] at missing
          cases missing
      | evicted recorded gone => exact recorded.not_registers registers
      | untouched registersNot evictsNot silent same => exact registersNot registers
    · cases effect id with
      | registered peer now recorded named is =>
          rw [is] at missing
          cases missing
      | refreshed now old recorded known is =>
          rw [is] at missing
          cases missing
      | evicted recorded gone => exact evictsNot recorded
      | untouched registersNot evictsNot silent same =>
          rw [same] at missing
          exact accounted.absent id missing peer now before earlier

/-- The registry after a list of calls on a fresh one. -/
def after (go : GoLib) (calls : List Call) : Registry := Runs.final (serve go) calls .new

/-- The history of a list of calls on a fresh registry. -/
def historyOf (go : GoLib) (calls : List Call) : List Record := Runs.trace (serve go) calls .new

/-- After every run, history and registry are in step. -/
theorem accounted_after (go : GoLib) (calls : List Call) :
    Accounted go (historyOf go calls) (after go calls) :=
  Runs.history_invariant (fun _ _ call accounted => accounted.step call) (accounted_new go) calls

/-- An id is registered exactly when its last successful `Upsert` is later than its last eviction. -/
theorem Accounted.registered_iff {history : List Record} (accounted : Accounted go history r)
    {id : String} :
    (r.find id).isSome = true ↔ ∃ peer now since, LastRegistration history id peer now since := by
  cases stored : r.find id with
  | none =>
      have none := accounted.absent id stored
      simp only [Option.isSome_none, Bool.false_eq_true, false_iff, not_exists]
      exact none
  | some p =>
      obtain ⟨peer, now, since, registered, -⟩ := accounted.present id p stored
      simp only [Option.isSome_some, true_iff]
      exact ⟨peer, now, since, registered⟩

/-- An id that was evicted and not upserted again is not registered. -/
theorem Accounted.evicted_missing {history earlier since : List Record} {record : Record} {id : String}
    (accounted : Accounted go history r) (split : history = earlier ++ record :: since)
    (evicts : Evicts id record) (quiet : ∀ later ∈ since, ¬ Registers id later) : r.find id = none := by
  by_contra registered
  obtain ⟨peer, now, after, last⟩ :=
    accounted.registered_iff.mp (Option.isSome_iff_ne_none.mpr registered)
  have registers : Registers id (upserted peer now) := registers_upserted.mpr last.named
  have apart : record ≠ upserted peer now := by
    intro same
    exact evicts.not_registers (same ▸ registers)
  obtain ⟨before, registration⟩ := last.split
  rw [split] at registration
  -- the registration is later than the eviction, or the eviction is later than the registration
  rcases List.append_eq_append_iff.mp registration with ⟨gap, -, rest⟩ | ⟨gap, -, rest⟩
  · cases gap with
    | nil => exact apart (List.head_eq_of_cons_eq rest)
    | cons first others =>
        obtain ⟨-, same⟩ := List.cons_eq_cons.mp rest
        exact quiet (upserted peer now) (by simp [same]) registers
  · cases gap with
    | nil => exact apart (List.head_eq_of_cons_eq rest).symm
    | cons first others =>
        obtain ⟨-, same⟩ := List.cons_eq_cons.mp rest
        exact last.not_evicted record (by simp [same]) evicts

/-- The device a stored peer carries is that of one of the `Upsert` calls of the run. -/
theorem upserted_of_find {calls : List Call} {id : String} {p : Peer}
    (stored : (after go calls).find id = some p) :
    ∃ peer now, .upsert peer now ∈ calls ∧ p.id = peer.id ∧ p.device = peer.device := by
  obtain ⟨peer, now, since, registered, -, same⟩ := (accounted_after go calls).present id p stored
  obtain ⟨earlier, split⟩ := registered.split
  have recorded : upserted peer now ∈ historyOf go calls := by
    rw [split]
    simp
  have called : Call.upsert peer now ∈ (historyOf go calls).map Prod.fst := List.mem_map_of_mem recorded
  rw [historyOf, Runs.trace_calls] at called
  exact ⟨peer, now, called, by rw [same], by rw [same]⟩

/-- The registry is exactly its history: after any calls on a fresh registry, `Peers` lists the
registrations in force, with what their `Upsert` stored and the latest clock reading; a failed call
changes nothing; and `EvictStale` splits the registry at its cutoff. -/
theorem registry_is_its_history (go : GoLib) (calls : List Call) :
    ((after go calls).peers go).Pairwise (fun a b => a.id < b.id) ∧
      (∀ id, (∃ p ∈ (after go calls).peers go, p.id = id) ↔
        ∃ peer now since, LastRegistration (historyOf go calls) id peer now since) ∧
      (∀ p ∈ (after go calls).peers go, p.validate go = .ok () ∧
        ∃ peer now since, LastRegistration (historyOf go calls) p.id peer now since ∧
          p.address = peer.address ∧ p.transport = peer.transport ∧ p.device = peer.device ∧
          latestReading p.id (upserted peer now :: since) = some p.lastSeen) ∧
      (∀ call err, (serve go call (after go calls)).1 = .done (.error err) →
        (serve go call (after go calls)).2 = after go calls) ∧
      (∀ maxAge now, 0 < maxAge → ∀ evicted remaining,
        (after go calls).evictStale go maxAge now = (evicted, remaining) →
          evicted.Pairwise (fun a b => a.id < b.id) ∧
          (∀ p, p ∈ evicted ↔ p ∈ (after go calls).peers go ∧ p.lastSeen < now - maxAge) ∧
          (∀ p, p ∈ remaining.peers go ↔
            p ∈ (after go calls).peers go ∧ ¬ p.lastSeen < now - maxAge) ∧
          (evicted ++ remaining.peers go).Perm ((after go calls).peers go)) := by
  have accounted := accounted_after go calls
  have wellFormed := accounted.wellFormed
  refine ⟨peers_ascend wellFormed, ?_, ?_, ?_, ?_⟩
  · intro id
    rw [listed_iff wellFormed, accounted.registered_iff]
  · intro p member
    have stored := (mem_peers wellFormed).mp member
    obtain ⟨peer, now, since, registered, latest, same⟩ := accounted.present p.id p stored
    refine ⟨wellFormed.valid p.id p stored, peer, now, since, registered, ?_, ?_, ?_, latest⟩
    · rw [same]
    · rw [same]
    · rw [same]
  · intro call err failed
    exact (serve_served wellFormed call).unchanged_of_error failed
  · intro maxAge now positive evicted remaining split
    rw [evictStale_pos positive, Prod.ext_iff] at split
    obtain ⟨rfl, rfl⟩ := split
    refine ⟨evictBefore_ascend wellFormed _, ?_, fun p => mem_peers_evictBefore wellFormed,
      evictBefore_partition wellFormed _⟩
    intro p
    rw [mem_evictBefore, wellFormed.stored_iff, mem_peers wellFormed]

end Registry

end GoExotic
