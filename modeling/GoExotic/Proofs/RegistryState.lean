/-
Module: GoExotic.Proofs.RegistryState
Purpose: What each registry operation does to the map, said peer by peer: `find` after an operation in
  terms of `find` before it. Everything later modules prove about runs of the registry uses these lemmas
  and never unfolds an operation. A well-formed registry stores each peer under its own id and only
  valid peers; every operation keeps it so.
Trusted boundary: none
Main exports: Registry.find_store, Registry.find_evictBefore, Registry.mem_evictBefore,
  Registry.WellFormed, Registry.mem_peers, Registry.peers_ascend, Registry.Served, Registry.serve_served
-/
import GoExotic.Model.Cluster

namespace GoExotic

theorem Peer.validate_eq_ok {go : GoLib} {p : Peer} {u : Unit} :
    p.validate go = .ok u ↔
      trimSpace p.id ≠ "" ∧ trimSpace p.address ≠ "" ∧ p.transport ≠ "" ∧
        p.transport = transportHTTP ∧ ¬ badPeerUrl (go.urlParse p.address) ∧ p.device.id ≠ "" ∧
        ¬ badWeight p.device.memoryGB := by
  simp only [Peer.validate, bind_eq_ok, failIf_eq_ok, exists_const, not_not, ne_eq]

theorem Peer.id_ne_empty {go : GoLib} {p : Peer} (valid : p.validate go = .ok ()) : p.id ≠ "" := by
  intro empty
  obtain ⟨nonblank, -⟩ := Peer.validate_eq_ok.mp valid
  rw [empty] at nonblank
  exact nonblank rfl

namespace Registry

variable {go : GoLib} {r : Registry} {id : String} {p : Peer}

theorem mem_entries : (⟨id, p⟩ : Sigma fun _ : String => Peer) ∈ r.peerMap.entries ↔
    r.find id = some p :=
  AList.mem_lookup_iff.symm

@[simp] theorem find_new : Registry.new.find id = none := rfl

/-! ### Storing and refreshing -/

theorem find_store (peer : Peer) (seen : Int) :
    (r.store peer seen).find id = if id = peer.id then some { peer with lastSeen := seen } else r.find id := by
  by_cases same : id = peer.id
  · subst same
    rw [if_pos rfl]
    exact AList.lookup_insert _
  · rw [if_neg same]
    exact AList.lookup_insert_ne same

theorem find_store_self (peer : Peer) (seen : Int) :
    (r.store peer seen).find peer.id = some { peer with lastSeen := seen } := by
  rw [find_store, if_pos rfl]

theorem upsert_rejected {peer : Peer} {now : Int} {err : GoError} (rejected : peer.validate go = .error err) :
    r.upsert go peer now = (.error err, r) := by
  rw [upsert, rejected]

theorem upsert_accepted {peer : Peer} {now : Int} (accepted : peer.validate go = .ok ()) :
    r.upsert go peer now = (.ok (), r.store peer now) := by
  rw [upsert, accepted]

/-- A heartbeat of a registered peer is the store of that peer with the new time. -/
theorem heartbeat_known {now : Int} (named : id ≠ "") (keyed : p.id = id) (known : r.find id = some p) :
    r.heartbeat id now = (.ok (), r.store p now) := by
  subst keyed
  rw [find] at known
  rw [heartbeat, if_neg named, known]
  rfl

/-- Every other heartbeat is an error that changes nothing. -/
theorem heartbeat_unknown (now : Int) (unknown : id = "" ∨ r.find id = none) :
    ∃ err, r.heartbeat id now = (.error err, r) := by
  rw [heartbeat]
  by_cases empty : id = ""
  · exact ⟨_, if_pos empty⟩
  · have missing : r.peerMap.lookup id = none := unknown.resolve_left empty
    rw [if_neg empty, missing]
    exact ⟨_, rfl⟩

/-! ### Eviction -/

/-- The loop appends the stale peers of the entries it visits, in order. -/
theorem evictLoop_evicted (cutoff : Int) (entries : List (Sigma fun _ : String => Peer))
    (evicted : List Peer) (remaining : GoMap Peer) :
    (evictLoop cutoff entries evicted remaining).1 =
      evicted ++ (entries.map fun entry => entry.2).filter fun p => decide (p.lastSeen < cutoff) := by
  induction entries generalizing evicted remaining with
  | nil => simp [evictLoop]
  | cons entry rest inductionHypothesis =>
      rw [evictLoop, List.map_cons]
      by_cases stale : entry.2.lastSeen < cutoff
      · rw [if_pos stale, inductionHypothesis, List.filter_cons_of_pos (by simpa using stale),
          List.append_assoc, List.singleton_append]
      · rw [if_neg stale, inductionHypothesis, List.filter_cons_of_neg (by simpa using stale)]

/-- The loop deletes the ids of the stale entries it visits and nothing else. -/
theorem evictLoop_remaining (cutoff : Int) (entries : List (Sigma fun _ : String => Peer))
    (evicted : List Peer) (remaining : GoMap Peer) (id : String) :
    (evictLoop cutoff entries evicted remaining).2.lookup id =
      if ∃ entry ∈ entries, entry.1 = id ∧ entry.2.lastSeen < cutoff then none
      else remaining.lookup id := by
  induction entries generalizing evicted remaining with
  | nil => simp [evictLoop]
  | cons entry rest inductionHypothesis =>
      rw [evictLoop]
      by_cases stale : entry.2.lastSeen < cutoff
      · rw [if_pos stale, inductionHypothesis]
        by_cases here : entry.1 = id
        · have gone : (remaining.erase entry.1).lookup id = none := by
            rw [here, AList.lookup_erase]
          rw [gone, ite_self, if_pos ⟨entry, by simp, here, stale⟩]
        · have kept : (remaining.erase entry.1).lookup id = remaining.lookup id :=
            AList.lookup_erase_ne (Ne.symm here)
          simp only [kept, List.exists_mem_cons_iff, here, false_and, false_or]
      · rw [if_neg stale, inductionHypothesis]
        simp only [List.exists_mem_cons_iff, stale, and_false, false_or]

/-- Eviction removes a peer exactly when it was last seen before the cutoff. -/
theorem find_evictBefore (cutoff : Int) :
    (r.evictBefore go cutoff).2.find id = (r.find id).filter fun p => ¬ p.lastSeen < cutoff := by
  have left := evictLoop_remaining cutoff r.peerMap.entries [] r.peerMap id
  have stale : (∃ entry ∈ r.peerMap.entries, entry.1 = id ∧ entry.2.lastSeen < cutoff) ↔
      ∃ p, r.find id = some p ∧ p.lastSeen < cutoff := by
    constructor
    · rintro ⟨⟨_, p⟩, member, rfl, old⟩
      exact ⟨p, mem_entries.mp member, old⟩
    · rintro ⟨p, stored, old⟩
      exact ⟨⟨id, p⟩, mem_entries.mpr stored, rfl, old⟩
  change (evictLoop cutoff r.peerMap.entries [] r.peerMap).2.lookup id = _
  rw [left]
  simp only [stale]
  change (if _ then none else r.find id) = _
  cases r.find id with
  | none => simp
  | some p => by_cases old : p.lastSeen < cutoff <;> simp [Option.filter, old]

/-- Eviction returns exactly the stored peers last seen before the cutoff. -/
theorem mem_evictBefore {cutoff : Int} :
    p ∈ (r.evictBefore go cutoff).1 ↔ (∃ id, r.find id = some p) ∧ p.lastSeen < cutoff := by
  have loop := evictLoop_evicted cutoff r.peerMap.entries [] r.peerMap
  change p ∈ sortPeers go (evictLoop cutoff r.peerMap.entries [] r.peerMap).1 ↔ _
  rw [sortPeers, Sorting.SortSlice.mem_byKey, loop]
  simp only [List.nil_append, List.mem_filter, List.mem_map, decide_eq_true_eq, and_congr_left_iff]
  intro _
  constructor
  · rintro ⟨⟨id, q⟩, member, rfl⟩
    exact ⟨id, mem_entries.mp member⟩
  · rintro ⟨id, stored⟩
    exact ⟨⟨id, p⟩, mem_entries.mpr stored, rfl⟩

theorem evictStale_pos {maxAge now : Int} (positive : 0 < maxAge) :
    r.evictStale go maxAge now = r.evictBefore go (now - maxAge) := by
  rw [evictStale, if_neg (by omega)]

theorem evictStale_nonpos {maxAge now : Int} (nonpositive : maxAge ≤ 0) :
    r.evictStale go maxAge now = ([], r) := by
  rw [evictStale, if_pos nonpositive]

/-! ### Well-formed registries -/

/-- Each peer is stored under its own id, and passes `Peer.Validate`. -/
structure WellFormed (go : GoLib) (r : Registry) : Prop where
  keyed : ∀ id p, r.find id = some p → p.id = id
  valid : ∀ id p, r.find id = some p → p.validate go = .ok ()

namespace WellFormed

theorem new (go : GoLib) : Registry.new.WellFormed go := by
  constructor <;> simp

/-- Storing a valid peer, whatever time it is stamped with. -/
theorem store (wellFormed : r.WellFormed go) {peer : Peer} (accepted : peer.validate go = .ok ())
    (seen : Int) : (r.store peer seen).WellFormed go := by
  constructor
  · intro id p stored
    rw [find_store] at stored
    split_ifs at stored with same
    · rw [← Option.some.inj stored]
      exact same.symm
    · exact wellFormed.keyed id p stored
  · intro id p stored
    rw [find_store] at stored
    split_ifs at stored with same
    · rw [← Option.some.inj stored]
      exact accepted
    · exact wellFormed.valid id p stored

theorem evictBefore (wellFormed : r.WellFormed go) (cutoff : Int) :
    (r.evictBefore go cutoff).2.WellFormed go := by
  constructor
  · intro id p stored
    rw [find_evictBefore, Option.filter_eq_some_iff] at stored
    exact wellFormed.keyed id p stored.1
  · intro id p stored
    rw [find_evictBefore, Option.filter_eq_some_iff] at stored
    exact wellFormed.valid id p stored.1

/-- In a well-formed registry a stored peer is stored under its own id. -/
theorem stored_iff (wellFormed : r.WellFormed go) :
    (∃ id, r.find id = some p) ↔ r.find p.id = some p := by
  constructor
  · rintro ⟨id, stored⟩
    have same := wellFormed.keyed id p stored
    exact same ▸ stored
  · intro stored
    exact ⟨p.id, stored⟩

/-- The entries of a well-formed registry have pairwise distinct peer ids. -/
theorem ids_distinct (wellFormed : r.WellFormed go) :
    ((r.peerMap.entries.map fun entry => entry.2).map Peer.id).Nodup := by
  have keys : (r.peerMap.entries.map fun entry => entry.2).map Peer.id = r.peerMap.keys := by
    rw [AList.keys, List.keys, List.map_map]
    apply List.map_congr_left
    rintro ⟨id, p⟩ member
    exact wellFormed.keyed id p (mem_entries.mp member)
  rw [keys]
  exact r.peerMap.keys_nodup

end WellFormed

/-! ### The snapshot -/

/-- `Peers` lists exactly the stored peers. -/
theorem mem_peers (wellFormed : r.WellFormed go) : p ∈ r.peers go ↔ r.find p.id = some p := by
  rw [peers, sortPeers, Sorting.SortSlice.mem_byKey, List.mem_map, ← wellFormed.stored_iff]
  constructor
  · rintro ⟨⟨id, q⟩, member, rfl⟩
    exact ⟨id, mem_entries.mp member⟩
  · rintro ⟨id, stored⟩
    exact ⟨⟨id, p⟩, mem_entries.mpr stored, rfl⟩

/-- `Peers` lists the peers in strictly ascending id order. -/
theorem peers_ascend (wellFormed : r.WellFormed go) :
    (r.peers go).Pairwise fun a b => a.id < b.id :=
  go.sort.byKey_pairwise_lt _ wellFormed.ids_distinct

theorem peers_ids_distinct (wellFormed : r.WellFormed go) : ((r.peers go).map Peer.id).Nodup :=
  List.pairwise_map.mpr ((peers_ascend wellFormed).imp fun before => ne_of_lt before)

/-- Some listed peer has an id exactly when the id is registered. -/
theorem listed_iff (wellFormed : r.WellFormed go) :
    (∃ p ∈ r.peers go, p.id = id) ↔ (r.find id).isSome = true := by
  rw [Option.isSome_iff_exists]
  constructor
  · rintro ⟨p, member, rfl⟩
    exact ⟨p, (mem_peers wellFormed).mp member⟩
  · rintro ⟨p, stored⟩
    have same := wellFormed.keyed id p stored
    exact ⟨p, (mem_peers wellFormed).mpr (same ▸ stored), same⟩

/-- The evicted peers come back in strictly ascending id order. -/
theorem evictBefore_ascend (wellFormed : r.WellFormed go) (cutoff : Int) :
    (r.evictBefore go cutoff).1.Pairwise fun a b => a.id < b.id := by
  apply go.sort.byKey_pairwise_lt
  rw [evictLoop_evicted, List.nil_append]
  exact wellFormed.ids_distinct.sublist (List.filter_sublist.map Peer.id)

/-- What stays after an eviction: the listed peers that were seen at the cutoff or later. -/
theorem mem_peers_evictBefore (wellFormed : r.WellFormed go) {cutoff : Int} :
    p ∈ (r.evictBefore go cutoff).2.peers go ↔ p ∈ r.peers go ∧ ¬ p.lastSeen < cutoff := by
  rw [mem_peers (wellFormed.evictBefore cutoff), mem_peers wellFormed, find_evictBefore,
    Option.filter_eq_some_iff]
  simp

/-- Returned and remaining peers partition the registry. -/
theorem evictBefore_partition (wellFormed : r.WellFormed go) (cutoff : Int) :
    ((r.evictBefore go cutoff).1 ++ (r.evictBefore go cutoff).2.peers go).Perm (r.peers go) := by
  have distinct : ∀ {peers : List Peer}, (peers.Pairwise fun a b => a.id < b.id) → peers.Nodup := by
    intro peers ascending
    apply ascending.imp
    rintro a b before rfl
    exact lt_irrefl a.id before
  have evictedDistinct := distinct (evictBefore_ascend wellFormed cutoff)
  have keptDistinct := distinct (peers_ascend (wellFormed.evictBefore cutoff))
  have allDistinct := distinct (peers_ascend wellFormed)
  apply (List.perm_ext_iff_of_nodup ?_ allDistinct).mpr
  · intro p
    rw [List.mem_append, mem_evictBefore, wellFormed.stored_iff, mem_peers_evictBefore wellFormed,
      mem_peers wellFormed]
    tauto
  · apply List.nodup_append.mpr
    refine ⟨evictedDistinct, keptDistinct, ?_⟩
    rintro p evicted q kept rfl
    exact ((mem_peers_evictBefore wellFormed).mp kept).2 (mem_evictBefore.mp evicted).2

/-- Every listed peer is valid. -/
theorem WellFormed.peers_valid (wellFormed : r.WellFormed go) :
    ∀ p ∈ r.peers go, p.validate go = .ok () := by
  intro p member
  exact wellFormed.valid p.id p ((mem_peers wellFormed).mp member)

/-! ### Calls -/

/-- The two ends of a heartbeat: an error that changes nothing, or the registered peer stored again. -/
inductive Beaten (r : Registry) (now : Int) : String → Except GoError Unit × Registry → Prop where
  | unknown (id : String) (err : GoError) : Beaten r now id (.error err, r)
  | known (old : Peer) (found : r.find old.id = some old) : Beaten r now old.id (.ok (), r.store old now)

theorem heartbeat_beaten (wellFormed : r.WellFormed go) (id : String) (now : Int) :
    Beaten r now id (r.heartbeat id now) := by
  by_cases unknown : id = "" ∨ r.find id = none
  · obtain ⟨err, failed⟩ := r.heartbeat_unknown now unknown
    rw [failed]
    exact Beaten.unknown id err
  · rw [not_or] at unknown
    obtain ⟨old, found⟩ := Option.ne_none_iff_exists'.mp unknown.2
    have keyed := wellFormed.keyed id old found
    rw [heartbeat_known unknown.1 keyed found]
    subst keyed
    exact Beaten.known old found

/-- Everything a call can do to a registry, with its answer. -/
inductive Served (go : GoLib) (r : Registry) : Call → Answer × Registry → Prop where
  | failed (call : Call) (err : GoError) : Served go r call (.done (.error err), r)
  | upserted (peer : Peer) (now : Int) (valid : peer.validate go = .ok ()) :
      Served go r (.upsert peer now) (.done (.ok ()), r.store peer now)
  | refreshed (old : Peer) (now : Int) (known : r.find old.id = some old) :
      Served go r (.heartbeat old.id now) (.done (.ok ()), r.store old now)
  | evicted (maxAge now cutoff : Int) :
      Served go r (.evictStale maxAge now)
        (.evicted (r.evictBefore go cutoff).1, (r.evictBefore go cutoff).2)
  | idle (maxAge now : Int) : Served go r (.evictStale maxAge now) (.evicted [], r)

/-- A well-formed registry serves every call in one of these ways. -/
theorem serve_served (wellFormed : r.WellFormed go) (call : Call) :
    Served go r call (serve go call r) := by
  cases call with
  | upsert peer now =>
      cases accepted : peer.validate go with
      | error err =>
          rw [serve, upsert_rejected accepted]
          exact Served.failed _ err
      | ok u =>
          rw [serve, upsert_accepted accepted]
          exact Served.upserted peer now accepted
  | heartbeat peerID now =>
      rw [serve]
      have beaten := heartbeat_beaten wellFormed peerID now
      generalize r.heartbeat peerID now = result at beaten ⊢
      cases beaten with
      | unknown id err => exact Served.failed _ err
      | known old found => exact Served.refreshed old now found
  | evictStale maxAge now =>
      by_cases positive : 0 < maxAge
      · rw [serve, evictStale_pos positive]
        exact Served.evicted maxAge now (now - maxAge)
      · rw [serve, evictStale_nonpos (by omega)]
        exact Served.idle maxAge now

/-- Whatever a call does keeps a registry well formed. -/
theorem Served.keeps_wellFormed {call : Call} {result : Answer × Registry}
    (done : Served go r call result) (wellFormed : r.WellFormed go) : result.2.WellFormed go := by
  cases done with
  | failed call err => exact wellFormed
  | upserted peer now valid => exact wellFormed.store valid now
  | refreshed old now known => exact wellFormed.store (wellFormed.valid old.id old known) now
  | evicted maxAge now cutoff => exact wellFormed.evictBefore cutoff
  | idle maxAge now => exact wellFormed

/-- A call that fails leaves the registry as it was. -/
theorem Served.unchanged_of_error {call : Call} {result : Answer × Registry}
    (done : Served go r call result) {err : GoError} (failed : result.1 = .done (.error err)) :
    result.2 = r := by
  cases done with
  | failed call err => rfl
  | upserted peer now valid => cases failed
  | refreshed old now known => cases failed
  | evicted maxAge now cutoff => cases failed
  | idle maxAge now => cases failed

end Registry

end GoExotic
