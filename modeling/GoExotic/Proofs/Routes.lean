/-
Module: GoExotic.Proofs.Routes
Purpose: What `BuildRoutes` and the previews return. A `RoutePlan` states it once: the shards are a plan,
  each is paired with the peer whose id is the shard's device id, and the order is that of the plan. The
  loops succeed exactly on their specifications, and the sort of the routes has nothing to move, because
  the starts of a plan ascend.
Trusted boundary: none
Main exports: Ctx.Open, indexPeers_eq_ok, routeShards_eq_ok, RoutePlan, buildRoutes_eq_ok,
  importPeers_eq_ok, exportPeers_eq_ok, importedPeer_exported
-/
import GoExotic.Model.Router
import GoExotic.Proofs.PlanValidation
import GoExotic.Proofs.RegistryState

namespace GoExotic

/-- The polls `first`, …, `first + count - 1` of a context all say it is still open. -/
def Ctx.Open (ctx : Ctx) (first count : Nat) : Prop :=
  ∀ k, first ≤ k → k < first + count → ctx.check k = .ok ()

namespace Ctx

@[simp] theorem open_background (first count : Nat) : background.Open first count :=
  fun _ _ _ => rfl

@[simp] theorem open_zero (ctx : Ctx) (first : Nat) : ctx.Open first 0 := by
  intro k above below
  omega

theorem open_succ {ctx : Ctx} {first count : Nat} :
    ctx.Open first (count + 1) ↔ ctx.check first = .ok () ∧ ctx.Open (first + 1) count := by
  constructor
  · intro isOpen
    exact ⟨isOpen first (le_refl _) (by omega), fun k above below => isOpen k (by omega) (by omega)⟩
  · rintro ⟨now, later⟩ k above below
    by_cases isFirst : k = first
    · exact isFirst ▸ now
    · exact later k (by omega) (by omega)

end Ctx

variable {go : GoLib} {ctx : Ctx}

/-! ### The peer index -/

/-- A map with some peers added, each under its id. -/
def insertPeers (m : GoMap Peer) (peers : List Peer) : GoMap Peer :=
  peers.foldl (fun m p => m.insert p.id p) m

theorem lookup_insertPeers_of_notMem {m : GoMap Peer} {peers : List Peer} {id : String}
    (absent : id ∉ peers.map Peer.id) : (insertPeers m peers).lookup id = m.lookup id := by
  induction peers generalizing m with
  | nil => rfl
  | cons p rest inductionHypothesis =>
      rw [List.map_cons, List.mem_cons, not_or] at absent
      exact (inductionHypothesis absent.2).trans (AList.lookup_insert_ne absent.1)

/-- Peers with distinct ids are found under their ids. -/
theorem lookup_insertPeers_of_mem {m : GoMap Peer} {peers : List Peer} {p : Peer}
    (distinct : (peers.map Peer.id).Nodup) (member : p ∈ peers) :
    (insertPeers m peers).lookup p.id = some p := by
  induction peers generalizing m with
  | nil => cases member
  | cons head rest inductionHypothesis =>
      rw [List.map_cons, List.nodup_cons] at distinct
      rcases List.mem_cons.mp member with rfl | inRest
      · have kept : (insertPeers (m.insert p.id p) rest).lookup p.id = (m.insert p.id p).lookup p.id :=
          lookup_insertPeers_of_notMem distinct.1
        exact kept.trans (AList.lookup_insert m)
      · exact inductionHypothesis distinct.2 inRest

/-- The index of some peers holds exactly them. -/
theorem lookup_insertPeers {peers : List Peer} {id : String} {p : Peer}
    (distinct : (peers.map Peer.id).Nodup) :
    (insertPeers ∅ peers).lookup id = some p ↔ p ∈ peers ∧ p.id = id := by
  constructor
  · intro found
    by_cases named : id ∈ peers.map Peer.id
    · obtain ⟨q, member, rfl⟩ := List.mem_map.mp named
      rw [lookup_insertPeers_of_mem distinct member, Option.some.injEq] at found
      exact found ▸ ⟨member, rfl⟩
    · rw [lookup_insertPeers_of_notMem named] at found
      cases found
  · rintro ⟨member, rfl⟩
    exact lookup_insertPeers_of_mem distinct member

theorem length_keys_insertPeers {m : GoMap Peer} {peers : List Peer}
    (distinct : (peers.map Peer.id).Nodup) (fresh : ∀ p ∈ peers, p.id ∉ m) :
    (insertPeers m peers).keys.length = m.keys.length + peers.length := by
  induction peers generalizing m with
  | nil => rfl
  | cons head rest inductionHypothesis =>
      rw [List.map_cons, List.nodup_cons] at distinct
      have headFresh : head.id ∉ m := fresh head (by simp)
      have restFresh : ∀ p ∈ rest, p.id ∉ m.insert head.id head := by
        intro p member
        rw [AList.mem_insert, not_or]
        refine ⟨?_, fresh p (List.mem_cons_of_mem _ member)⟩
        intro same
        exact distinct.1 (same ▸ List.mem_map_of_mem member)
      have longer : (m.insert head.id head).keys.length = m.keys.length + 1 := by
        rw [AList.keys_insert, List.erase_of_not_mem (AList.mem_keys.not.mp headFresh), List.length_cons]
      have whole : (insertPeers (m.insert head.id head) rest).keys.length =
          (m.insert head.id head).keys.length + rest.length := inductionHypothesis distinct.2 restFresh
      rw [longer] at whole
      rw [List.length_cons]
      exact whole.trans (by omega)

/-- The loop over the peers succeeds exactly on valid peers with new and distinct ids. -/
theorem indexPeers_eq_ok {i : Nat} {m index : GoMap Peer} {peers : List Peer} :
    indexPeers go ctx i m peers = .ok index ↔
      ctx.Open i peers.length ∧ (∀ p ∈ peers, p.validate go = .ok ()) ∧ (peers.map Peer.id).Nodup ∧
        (∀ p ∈ peers, p.id ∉ m) ∧ index = insertPeers m peers := by
  induction peers generalizing i m with
  | nil => simp [indexPeers, insertPeers, eq_comm]
  | cons head rest inductionHypothesis =>
      simp only [indexPeers, bind_eq_ok, wrapErr_eq_ok, failIf_eq_ok, exists_const, inductionHypothesis,
        List.length_cons, Ctx.open_succ, List.mem_cons, forall_eq_or_imp, List.map_cons, List.nodup_cons,
        List.mem_map, AList.mem_insert, not_or, not_exists, not_and]
      constructor
      · rintro ⟨⟨⟩, now, ⟨⟩, valid, fresh, later, restValid, distinct, restFresh, rfl⟩
        exact ⟨⟨now, later⟩, ⟨valid, restValid⟩, ⟨fun p member => (restFresh p member).1, distinct⟩,
          ⟨fresh, fun p member => (restFresh p member).2⟩, rfl⟩
      · rintro ⟨⟨now, later⟩, ⟨valid, restValid⟩, ⟨newId, distinct⟩, ⟨fresh, restFresh⟩, rfl⟩
        exact ⟨(), now, (), valid, fresh, later, restValid, distinct,
          fun p member => ⟨newId p member, restFresh p member⟩, rfl⟩

/-! ### Routes -/

/-- The loop over the shards succeeds exactly when the index has a peer for each. -/
theorem routeShards_eq_ok {index : GoMap Peer} {i : Nat} {shards : List Shard} {routes : List Route} :
    routeShards ctx index i shards = .ok routes ↔
      ctx.Open i shards.length ∧ routes.map Route.shard = shards ∧
        ∀ route ∈ routes, index.lookup route.shard.deviceID = some route.peer := by
  induction shards generalizing i routes with
  | nil =>
      simp only [routeShards, Except.ok.injEq, List.length_nil, Ctx.open_zero, true_and,
        List.map_eq_nil_iff]
      constructor
      · rintro rfl
        simp
      · rintro ⟨rfl, -⟩
        rfl
  | cons shard rest inductionHypothesis =>
      simp only [routeShards, bind_eq_ok, List.length_cons, Ctx.open_succ]
      cases found : index.lookup shard.deviceID with
      | none =>
          simp only [reduceCtorEq, and_false, exists_false, false_iff, not_and]
          rintro - split named
          obtain ⟨route, others, rfl, rfl, -⟩ := List.map_eq_cons_iff.mp split
          rw [named route (by simp)] at found
          cases found
      | some peer =>
          simp only [bind_eq_ok, inductionHypothesis, pure_eq_ok, Except.ok.injEq]
          constructor
          · rintro ⟨⟨⟩, now, others, ⟨later, rfl, named⟩, rfl⟩
            refine ⟨⟨now, later⟩, rfl, ?_⟩
            simp only [List.mem_cons, forall_eq_or_imp]
            exact ⟨found, named⟩
          · rintro ⟨⟨now, later⟩, split, named⟩
            obtain ⟨route, others, rfl, rfl, rfl⟩ := List.map_eq_cons_iff.mp split
            have same : peer = route.peer := by
              rw [named route (by simp), Option.some.injEq] at found
              exact found.symm
            subst same
            exact ⟨(), now, others,
              ⟨later, rfl, fun other member => named other (List.mem_cons_of_mem _ member)⟩, rfl⟩

/-- What `BuildRoutes` promises: the routes carry the shards of a plan in order, each with the peer of
its device id. -/
structure RoutePlan (go : GoLib) (peers : List Peer) (shards : List Shard) (totalLayers : Int)
    (routes : List Route) : Prop where
  accepted : validatePlan shards totalLayers = .ok ()
  peers_valid : ∀ p ∈ peers, p.validate go = .ok ()
  ids_distinct : (peers.map Peer.id).Nodup
  shards_eq : routes.map Route.shard = shards
  peers_named : ∀ route ∈ routes, route.peer ∈ peers ∧ route.peer.id = route.shard.deviceID

namespace RoutePlan

variable {peers : List Peer} {shards : List Shard} {totalLayers : Int} {routes : List Route}

theorem partition (plan : RoutePlan go peers shards totalLayers routes) :
    OrderedPartition shards totalLayers :=
  (OrderedPartition.of_validatePlan plan.accepted).2

/-- The ids of the routed peers are the device ids of the shards, in order. -/
theorem peer_ids (plan : RoutePlan go peers shards totalLayers routes) :
    routes.map (fun route => route.peer.id) = shards.map Shard.deviceID := by
  rw [← plan.shards_eq, List.map_map]
  apply List.map_congr_left
  intro route member
  exact (plan.peers_named route member).2

/-- Every shard is named after a peer. -/
theorem devices_subset (plan : RoutePlan go peers shards totalLayers routes) :
    shards.map Shard.deviceID ⊆ peers.map Peer.id := by
  rw [← plan.peer_ids]
  intro id member
  obtain ⟨route, routed, rfl⟩ := List.mem_map.mp member
  exact List.mem_map_of_mem (plan.peers_named route routed).1

theorem length_le (plan : RoutePlan go peers shards totalLayers routes) : shards.length ≤ peers.length := by
  have fewer := (List.subperm_of_subset plan.partition.ids_distinct plan.devices_subset).length_le
  rwa [List.length_map, List.length_map] at fewer

theorem starts_ascend (plan : RoutePlan go peers shards totalLayers routes) :
    routes.Pairwise fun a b => a.shard.startLayer < b.shard.startLayer := by
  have ascending := plan.partition.tiles.starts_ascend
  rw [← plan.shards_eq, List.pairwise_map] at ascending
  exact ascending

/-- The routes, in any order, are sorted back into the order of the plan. -/
theorem sorted (plan : RoutePlan go peers shards totalLayers routes) {given : List Route}
    (perm : given.Perm routes) : go.sort.byKey (fun route => route.shard.startLayer) given = routes :=
  go.sort.byKey_eq _ perm plan.starts_ascend

/-- The ranges of the routes tile the layers. -/
theorem tiles (plan : RoutePlan go peers shards totalLayers routes) :
    Tiling.Tiles (fun route => route.shard.startLayer) (fun route => route.shard.endLayer) 0 routes
      totalLayers := by
  have tiles := plan.partition.tiles
  rw [← plan.shards_eq] at tiles
  exact (Tiling.Tiles.map_iff Route.shard).mp tiles

end RoutePlan

/-- Where every shard is named after a peer, there are routes. -/
theorem exists_routes {peers : List Peer} {shards : List Shard}
    (named : ∀ shard ∈ shards, shard.deviceID ∈ peers.map Peer.id) :
    ∃ routes : List Route, routes.map Route.shard = shards ∧
      ∀ route ∈ routes, route.peer ∈ peers ∧ route.peer.id = route.shard.deviceID := by
  induction shards with
  | nil => exact ⟨[], rfl, by simp⟩
  | cons shard rest inductionHypothesis =>
      obtain ⟨peer, member, same⟩ := List.mem_map.mp (named shard (by simp))
      obtain ⟨routes, split, each⟩ := inductionHypothesis
        fun other inRest => named other (List.mem_cons_of_mem shard inRest)
      refine ⟨⟨peer, shard⟩ :: routes, by rw [List.map_cons, split], ?_⟩
      simp only [List.mem_cons, forall_eq_or_imp]
      exact ⟨⟨member, same⟩, each⟩

/-- `BuildRoutes` succeeds exactly with the route plans, as long as its context is open. -/
theorem buildRoutes_eq_ok {peers : List Peer} {shards : List Shard} {totalLayers : Int}
    {routes : List Route} :
    buildRoutes go ctx peers shards totalLayers = .ok routes ↔
      (ctx.check 0 = .ok () ∧ (ctx.call 1).Open 0 peers.length ∧ (ctx.call 2).Open 0 shards.length) ∧
        RoutePlan go peers shards totalLayers routes := by
  simp only [buildRoutes, bind_eq_ok, failIf_eq_ok, exists_const, indexPeers_eq_ok, routeShards_eq_ok,
    pure_eq_ok, Except.ok.injEq]
  constructor
  · rintro ⟨⟨⟩, now, ⟨⟩, accepted, some, index, ⟨peersOpen, valid, distinct, -, rfl⟩, -, found,
      ⟨shardsOpen, split, named⟩, rfl⟩
    have plan : RoutePlan go peers shards totalLayers found := by
      refine ⟨accepted, valid, distinct, split, ?_⟩
      intro route member
      exact (lookup_insertPeers distinct).mp (named route member)
    rw [plan.sorted (List.Perm.refl found)]
    exact ⟨⟨now, peersOpen, shardsOpen⟩, plan⟩
  · rintro ⟨⟨now, peersOpen, shardsOpen⟩, plan⟩
    have fewer := plan.length_le
    have some : peers.length ≠ 0 := by
      have := List.length_pos_of_ne_nil plan.partition.nonempty
      omega
    have fresh : ∀ p ∈ peers, p.id ∉ (∅ : GoMap Peer) := fun p _ => AList.notMem_empty p.id
    refine ⟨(), now, (), plan.accepted, some, _,
      ⟨peersOpen, plan.peers_valid, plan.ids_distinct, fresh, rfl⟩, ?_, routes,
      ⟨shardsOpen, plan.shards_eq, ?_⟩, ?_⟩
    · rw [length_keys_insertPeers plan.ids_distinct fresh, AList.keys_empty, List.length_nil]
      omega
    · intro route member
      exact (lookup_insertPeers plan.ids_distinct).mpr (plan.peers_named route member)
    · exact plan.sorted (List.Perm.refl routes)

/-! ### Capabilities -/

/-- The peer a capability stands for, before it is validated. -/
def Capability.importedPeer (cap : Capability) : Peer where
  id := cap.peerID
  address := cap.metadata.get "address" ""
  transport :=
    if cap.metadata.get "transport" "" = "" then transportHTTP else cap.metadata.get "transport" ""
  device := if cap.device.id = "" then { cap.device with id := cap.peerID } else cap.device
  lastSeen := 0

/-- The capability a peer exports, if it is valid. -/
def Peer.exported (p : Peer) : Capability where
  peerID := p.id
  device := p.device
  metadata := (AList.insert "transport" p.transport ∅).insert "address" p.address

theorem peerFromCapability_eq_ok {cap : Capability} {peer : Peer} :
    peerFromCapability go cap = .ok peer ↔
      cap.importedPeer.validate go = .ok () ∧ peer = cap.importedPeer := by
  simp only [peerFromCapability, bind_eq_ok, pure_eq_ok, Except.ok.injEq]
  constructor
  · rintro ⟨⟨⟩, valid, rfl⟩
    exact ⟨valid, rfl⟩
  · rintro ⟨valid, rfl⟩
    exact ⟨(), valid, rfl⟩

theorem capability_eq_ok {p : Peer} {cap : Capability} :
    p.capability go = .ok cap ↔ p.validate go = .ok () ∧ cap = p.exported := by
  simp only [Peer.capability, bind_eq_ok, pure_eq_ok, Except.ok.injEq]
  constructor
  · rintro ⟨⟨⟩, valid, rfl⟩
    exact ⟨valid, rfl⟩
  · rintro ⟨valid, rfl⟩
    exact ⟨(), valid, rfl⟩

/-- Exporting a valid peer and importing it again loses nothing but `LastSeen`. -/
theorem importedPeer_exported {p : Peer} (valid : p.validate go = .ok ()) :
    p.exported.importedPeer = { p with lastSeen := 0 } := by
  obtain ⟨-, -, transport, -, -, device, -⟩ := Peer.validate_eq_ok.mp valid
  have address : p.exported.metadata.get "address" "" = p.address := by
    rw [GoMap.get, Peer.exported, AList.lookup_insert, Option.getD_some]
  have transported : p.exported.metadata.get "transport" "" = p.transport := by
    rw [GoMap.get, Peer.exported, AList.lookup_insert_ne (by decide), AList.lookup_insert,
      Option.getD_some]
  rw [Capability.importedPeer, address, transported, if_neg transport]
  simp [Peer.exported, device]

theorem importPeers_eq_ok {i : Nat} {caps : List Capability} {peers : List Peer} :
    importPeers go ctx i caps = .ok peers ↔
      ctx.Open i caps.length ∧ (∀ cap ∈ caps, cap.importedPeer.validate go = .ok ()) ∧
        peers = caps.map Capability.importedPeer := by
  induction caps generalizing i peers with
  | nil => simp [importPeers, eq_comm]
  | cons cap rest inductionHypothesis =>
      simp only [importPeers, bind_eq_ok, wrapErr_eq_ok, peerFromCapability_eq_ok, inductionHypothesis,
        pure_eq_ok, Except.ok.injEq, List.length_cons, Ctx.open_succ, List.mem_cons, forall_eq_or_imp,
        List.map_cons]
      constructor
      · rintro ⟨⟨⟩, now, peer, ⟨valid, rfl⟩, others, ⟨later, restValid, rfl⟩, rfl⟩
        exact ⟨⟨now, later⟩, ⟨valid, restValid⟩, rfl⟩
      · rintro ⟨⟨now, later⟩, ⟨valid, restValid⟩, rfl⟩
        exact ⟨(), now, _, ⟨valid, rfl⟩, _, ⟨later, restValid, rfl⟩, rfl⟩

theorem exportPeers_eq_ok {i : Nat} {peers : List Peer} {caps : List Capability} :
    exportPeers go ctx i peers = .ok caps ↔
      ctx.Open i peers.length ∧ (∀ p ∈ peers, p.validate go = .ok ()) ∧ caps = peers.map Peer.exported := by
  induction peers generalizing i caps with
  | nil => simp [exportPeers, eq_comm]
  | cons p rest inductionHypothesis =>
      simp only [exportPeers, bind_eq_ok, wrapErr_eq_ok, capability_eq_ok, inductionHypothesis,
        pure_eq_ok, Except.ok.injEq, List.length_cons, Ctx.open_succ, List.mem_cons, forall_eq_or_imp,
        List.map_cons]
      constructor
      · rintro ⟨⟨⟩, now, cap, ⟨valid, rfl⟩, others, ⟨later, restValid, rfl⟩, rfl⟩
        exact ⟨⟨now, later⟩, ⟨valid, restValid⟩, rfl⟩
      · rintro ⟨⟨now, later⟩, ⟨valid, restValid⟩, rfl⟩
        exact ⟨(), now, _, ⟨valid, rfl⟩, _, ⟨later, restValid, rfl⟩, rfl⟩

end GoExotic
