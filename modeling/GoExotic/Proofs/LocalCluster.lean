/-
Module: GoExotic.Proofs.LocalCluster
Purpose: A cluster from its peers to its tokens. Peers that `LocalPeer` made, with distinct ids, advertise
  capabilities, and where `NewPlan` has a plan for their devices, that plan is what the placement preview answers,
  `BuildRoutes` accepts it for these peers and routes every one of them once, and generation over the routes, each
  peer serving its layers over HTTP, is generation on one peer with all layers.
Trusted boundary: encoding/json, through the hypothesis Lossless; go-pherence, through ForwardsLocally
Main exports: MadeLocally, local_peers_routed, local_cluster_generates_unsharded
-/
import GoExotic.Proofs.Distribution
import GoExotic.Proofs.PreviewEndpoints

namespace GoExotic

section Routed

variable {go : GoLib} {peers : List Peer} {totalLayers : Int}

/-- A peer that `LocalPeer` made. -/
def MadeLocally (go : GoLib) (p : Peer) : Prop :=
  ∃ id address memoryGB now, localPeer go id address memoryGB now = .ok p

/-- What `LocalPeer` makes is valid, and its device is called like it. -/
theorem MadeLocally.valid {p : Peer} (made : MadeLocally go p) :
    p.validate go = .ok () ∧ p.device.id = p.id := by
  obtain ⟨id, address, memoryGB, now, made⟩ := made
  simp only [localPeer, bind_eq_ok, pure_eq_ok, Except.ok.injEq] at made
  obtain ⟨⟨⟩, valid, rfl⟩ := made
  exact ⟨valid, rfl⟩

/-- The devices of such peers are called like the peers. -/
theorem local_devices (made : ∀ p ∈ peers, MadeLocally go p) :
    (peers.map Peer.device).map Device.id = peers.map Peer.id := by
  rw [List.map_map]
  apply List.map_congr_left
  intro p listed
  exact (made p listed).valid.2

/-- The plan for their devices names each of them once. -/
theorem local_plan_ids (made : ∀ p ∈ peers, MadeLocally go p) {shards : List Shard}
    (planned : planLayerShards go (peers.map Peer.device) totalLayers = .ok shards) :
    (shards.map Shard.deviceID).Perm (peers.map Peer.id) := by
  have perDevice := (plannedLayout_of_planned planned).one_per_device
  rw [local_devices made] at perDevice
  exact perDevice

/-- The routes of a plan that names every peer once route every peer once. -/
theorem RoutePlan.peers_perm {shards : List Shard} {routes : List Route}
    (plan : RoutePlan go peers shards totalLayers routes)
    (ids : (shards.map Shard.deviceID).Perm (peers.map Peer.id)) : (routes.map Route.peer).Perm peers := by
  have routedIds : ((routes.map Route.peer).map Peer.id).Perm (peers.map Peer.id) := by
    rw [List.map_map]
    exact plan.peer_ids ▸ ids
  have routedDistinct := routedIds.nodup_iff.mpr plan.ids_distinct
  rw [List.perm_ext_iff_of_nodup routedDistinct.of_map plan.ids_distinct.of_map]
  intro p
  constructor
  · intro routed
    obtain ⟨route, member, rfl⟩ := List.mem_map.mp routed
    exact (plan.peers_named route member).1
  · intro listed
    obtain ⟨q, routed, same⟩ := List.mem_map.mp (routedIds.mem_iff.mpr (List.mem_map_of_mem listed))
    obtain ⟨route, member, rfl⟩ := List.mem_map.mp routed
    have isPeer := List.inj_on_of_nodup_map plan.ids_distinct (plan.peers_named route member).1 listed same
    exact isPeer ▸ routed

/-- `BuildRoutes` accepts the plan, and routes every peer once. -/
theorem local_peers_routed (made : ∀ p ∈ peers, MadeLocally go p) (distinct : (peers.map Peer.id).Nodup)
    {shards : List Shard} (planned : planLayerShards go (peers.map Peer.device) totalLayers = .ok shards) :
    ∃ routes, buildRoutes go .background peers shards totalLayers = .ok routes ∧
      RoutePlan go peers shards totalLayers routes ∧ (routes.map Route.peer).Perm peers := by
  have ids := local_plan_ids made planned
  obtain ⟨routes, split, each⟩ := exists_routes fun shard member =>
    ids.mem_iff.mp (List.mem_map_of_mem member)
  obtain ⟨-, -, accepted⟩ := planLayerShardsWith_eq_ok.mp planned
  have plan : RoutePlan go peers shards totalLayers routes :=
    ⟨accepted, fun p listed => (made p listed).valid.1, distinct, split, each⟩
  exact ⟨routes, buildRoutes_eq_ok.mpr ⟨by simp, plan⟩, plan, plan.peers_perm ids⟩

end Routed

/-- The one shard over all layers is a plan for its peer. -/
theorem whole_plan {go : GoLib} {single : Peer} (valid : single.validate go = .ok ()) {totalLayers : Int}
    (positive : 1 ≤ totalLayers) (bounded : totalLayers ≤ maxInt) :
    RoutePlan go [single] [⟨single.id, 0, totalLayers - 1⟩] totalLayers
      [⟨single, ⟨single.id, 0, totalLayers - 1⟩⟩] := by
  have named : single.id ≠ "" := Peer.id_ne_empty valid
  have partition : OrderedPartition [⟨single.id, 0, totalLayers - 1⟩] totalLayers := by
    refine ⟨positive, List.forall_mem_singleton.mpr named, List.nodup_singleton _, rfl, ?_, ?_⟩
    · exact Int.le_sub_one_of_lt positive
    · exact Int.sub_add_cancel totalLayers 1
  refine ⟨(validatePlan_eq_ok bounded).mpr partition, List.forall_mem_singleton.mpr valid,
    List.nodup_singleton _, rfl, ?_⟩
  exact List.forall_mem_singleton.mpr ⟨List.mem_singleton_self single, rfl⟩

/-- From the peers to the tokens. Take peers that `LocalPeer` made, with distinct ids, each serving its layers of one
model at its address, and a plan that `NewPlan` made of their devices. Then the peers' capabilities can be exported,
a server with these capabilities answers the placement preview with the plan, `BuildRoutes` accepts the plan for the
peers and routes each of them once, `RemoteWorkersFromRoutes` and `NewSimulator` accept the routes, and for every
call that gets through, with the routes in any order, generation fails, returns tokens and leaves the slots of
every layer as generation on any single peer with all layers does. -/
theorem local_cluster_generates_unsharded {W : Type} (go : GoLib) (wire : WireLib) (lossless : wire.Lossless)
    (lib : PreviewLib) (m : LlamaModel) (total : IsInt m.numLayers) (forwards : m.ForwardsLocally)
    (peers : List Peer) (made : ∀ p ∈ peers, MadeLocally go p) (distinct : (peers.map Peer.id).Nodup)
    (plan : Plan) (planned : newPlan go (peers.map Peer.device) m.numLayers = .ok plan)
    (net : Network (List ShardExecutionRequest × Heap))
    (hosted : ∀ p ∈ peers, ∃ other, Reaches go net ⟨p.address⟩
      ((shardServer (recorded (heapWorker p.id)) m.numLayers).handler wire .background other)) :
    ∃ caps routes workers remote, exportPeers go .background 0 peers = .ok caps ∧
      (∀ r : HttpRequest, r.method = "GET" → positiveIntQuery lib r "layers" = .ok m.numLayers →
        (newPlanningServer (W := W) caps []).handlePlacementPreview go wire lib r =
          writeJSON 200 [] (lib.encodePlacement ⟨lib.queryGet r.url "model", m.numLayers, plan.shards⟩)) ∧
      buildRoutes go .background peers plan.shards m.numLayers = .ok routes ∧
      (routes.map Route.peer).Perm peers ∧
      remoteWorkersFromRoutes go wire net routes = .ok workers ∧ newSimulator (boxWorkers workers) = .ok remote ∧
      ∀ single : Peer, single.validate go = .ok () → ∃ alone, newSimulator (layerWorkers [single.id]) = .ok alone ∧
        ∀ (base : ShardExecutionRequest) (given : List Route) (maxTokens : Int)
          (project : Option Simulator.TokenProjector), Sendable wire m.numLayers routes base → given.Perm routes →
          GenerationAgrees routes m.numLayers single
            (((remote.generateTokens go .background given base m.numLayers maxTokens project
                ([], freshHeap m m.numLayers)).1),
              (remote.generateTokens go .background given base m.numLayers maxTokens project
                ([], freshHeap m m.numLayers)).2.2)
            (alone.generateTokens go .background [⟨single, ⟨single.id, 0, m.numLayers - 1⟩⟩] base m.numLayers
              maxTokens project (freshHeap m m.numLayers)) := by
  obtain ⟨sharded, -⟩ := newPlan_eq_ok.mp planned
  obtain ⟨routes, built, routePlan, routed⟩ := local_peers_routed made distinct sharded
  obtain ⟨workers, remote, ok, simulated, remotes⟩ := routePlan.remote_simulator wire net
  obtain ⟨near, -, deployed⟩ := exists_deployment rfl forwards routePlan
  have exported : exportPeers go .background 0 peers = .ok (peers.map Peer.exported) :=
    exportPeers_eq_ok.mpr ⟨by simp, fun p listed => (made p listed).valid.1, rfl⟩
  refine ⟨_, routes, workers, remote, exported, ?_, built, routed, ok, simulated, ?_⟩
  · intro r method layers
    have devices : (newPlanningServer (W := W) (peers.map Peer.exported) []).capabilities.map Capability.device =
        peers.map Peer.device := by
      rw [newPlanningServer, List.foldl_nil, copyCapabilities_devices, List.map_map]
      rfl
    rw [PlanningServer.handlePlacementPreview, if_neg (not_not.mpr method), layers]
    dsimp only
    rw [devices, planned]
  · intro single valid
    obtain ⟨alone, madeAlone, deployedAlone⟩ := exists_deployment rfl forwards
      (whole_plan valid routePlan.partition.layers_pos total.2)
    refine ⟨alone, madeAlone, ?_⟩
    intro base given maxTokens project sendable perm
    have hostedRoutes : Hosted go wire net heapWorker m.numLayers routes :=
      fun route member => hosted route.peer (routePlan.peers_named route member).1
    exact deployed.distributed_agree lossless total deployedAlone hostedRoutes remotes sendable perm maxTokens project

/-- A peer that `LocalPeer` makes, on a host of its own. -/
def clusterPeer (id : String) : Peer := ⟨id, "http://" ++ id, "http", ⟨id, .finite 1, "go-pherence"⟩, 0⟩

/-- Two such peers for three layers, and a generation over their routes that agrees with the one of a third peer with
all layers. -/
theorem local_cluster_generates_unsharded_pair :
    ∃ caps routes workers remote alone,
      exportPeers .plain .background 0 [clusterPeer "a", clusterPeer "b"] = .ok caps ∧
      (newPlanningServer (W := Unit) caps []).handlePlacementPreview .plain .plain .plain
          ⟨"GET", ⟨"http", "h", "/placement/preview", "layers=3"⟩, [], []⟩ =
        writeJSON 200 [] (PreviewLib.plain.encodePlacement ⟨"", 3, [⟨"a", 0, 0⟩, ⟨"b", 1, 2⟩]⟩) ∧
      buildRoutes .plain .background [clusterPeer "a", clusterPeer "b"] [⟨"a", 0, 0⟩, ⟨"b", 1, 2⟩] 3 = .ok routes ∧
      (routes.map Route.peer).Perm [clusterPeer "a", clusterPeer "b"] ∧
      remoteWorkersFromRoutes .plain .plain (hostNetwork heapWorker 3) routes = .ok workers ∧
      newSimulator (boxWorkers workers) = .ok remote ∧ newSimulator (layerWorkers ["c"]) = .ok alone ∧
      GenerationAgrees routes 3 (ownDevicePeer "c")
        ((remote.generateTokens .plain .background routes.reverse (remoteRequest "r") 3 2 (some headToken)
            ([], freshHeap (recallModel 3) 3)).1,
          (remote.generateTokens .plain .background routes.reverse (remoteRequest "r") 3 2 (some headToken)
            ([], freshHeap (recallModel 3) 3)).2.2)
        (alone.generateTokens .plain .background [⟨ownDevicePeer "c", ⟨"c", 0, 2⟩⟩] (remoteRequest "r") 3 2
          (some headToken) (freshHeap (recallModel 3) 3)) := by
  have made : ∀ p ∈ [clusterPeer "a", clusterPeer "b"], MadeLocally .plain p := by
    intro p member
    rcases List.mem_pair.mp member with rfl | rfl
    · exact ⟨"a", "http://a", .finite 1, 0, by decide +kernel⟩
    · exact ⟨"b", "http://b", .finite 1, 0, by decide +kernel⟩
  have hosted : ∀ p ∈ [clusterPeer "a", clusterPeer "b"], ∃ other, Reaches .plain (hostNetwork heapWorker 3)
      ⟨p.address⟩ ((shardServer (recorded (heapWorker p.id)) 3).handler .plain .background other) := by
    intro p member
    refine ⟨fun _ state => (⟨404, [], []⟩, state), ?_⟩
    rcases List.mem_pair.mp member with rfl | rfl
    · exact ⟨by decide, ⟨"http", "a", "/shards/execute", ""⟩, by decide, rfl, rfl⟩
    · exact ⟨by decide, ⟨"http", "b", "/shards/execute", ""⟩, by decide, rfl, rfl⟩
  obtain ⟨caps, routes, workers, remote, exported, previewed, built, routed, ok, simulated, generates⟩ :=
    local_cluster_generates_unsharded (W := Unit) .plain .plain WireLib.plain_lossless .plain (recallModel 3)
      (by decide) (recallModel_forwardsLocally 3) _ made (by decide) ⟨3, [⟨"a", 0, 0⟩, ⟨"b", 1, 2⟩]⟩
      (by decide +kernel) (hostNetwork heapWorker 3) hosted
  have sendable : Sendable .plain 3 routes (remoteRequest "r") := by
    refine sendable_plain (by decide) ?_ (by decide) ?_ (by decide)
    · intro c member
      cases List.mem_singleton.mp (member : c ∈ ['r'])
      rfl
    · intro route member
      have isShard : route.shard ∈ [⟨"a", 0, 0⟩, ⟨"b", 1, 2⟩] := by
        have shards := (buildRoutes_eq_ok.mp built).2.shards_eq
        rw [← show routes.map Route.shard = [⟨"a", 0, 0⟩, ⟨"b", 1, 2⟩] from shards]
        exact List.mem_map_of_mem member
      rcases List.mem_pair.mp isShard with isFirst | isSecond
      · rw [isFirst]
        decide
      · rw [isSecond]
        decide
  obtain ⟨alone, madeAlone, agrees⟩ := generates (ownDevicePeer "c") (by decide +kernel)
  exact ⟨caps, routes, workers, remote, alone, exported, previewed _ rfl (by decide +kernel), built, routed, ok,
    simulated, madeAlone,
    agrees (remoteRequest "r") routes.reverse 2 (some headToken) sendable (List.reverse_perm _)⟩

end GoExotic
