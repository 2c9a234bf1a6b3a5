/-
Module: GoExotic.Proofs.Preview
Purpose: The planning previews. A preview from capabilities routes the planned shards to the peers of the
  same ids; by counting, device ids and peer ids are then the same ids in some order, and peers get the
  shard of their own device exactly when every capability names its device after its peer. A preview from
  a registry is a complete layout over the registered peers, and it exists exactly when the device ids of
  the registered peers are distinct ids of registered peers.
Trusted boundary: none
Main exports: CapabilityPreview, previewFromCapabilities_eq_ok, RoutedByOwnDevice,
  routed_by_own_device_iff, RegistryPreview, previewFromRegistry_eq_ok, previewFromRegistry_layout,
  previewFromRegistry_succeeds_iff
-/
import GoExotic.Proofs.Planner
import GoExotic.Proofs.RegistryHistory
import GoExotic.Proofs.Routes

namespace GoExotic

variable {go : GoLib} {ctx : Ctx}

/-! ### Previews from capabilities -/

/-- The polls of a preview over `caps` capabilities and `shards` shards all find the context open. -/
def Ctx.OpenForPreview (ctx : Ctx) (caps shards : Nat) : Prop :=
  ctx.check 0 = .ok () ∧ (ctx.call 1).check 0 = .ok () ∧ ((ctx.call 1).call 1).Open 0 caps ∧
    ((ctx.call 1).call 2).check 0 = .ok () ∧ (((ctx.call 1).call 2).call 1).Open 0 caps ∧
    (((ctx.call 1).call 2).call 2).Open 0 shards

@[simp] theorem Ctx.openForPreview_background (caps shards : Nat) :
    Ctx.background.OpenForPreview caps shards := by
  simp [Ctx.OpenForPreview]

/-- What a preview from capabilities is made of: a plan for the advertised devices, and routes for it
over the advertised peers. -/
structure CapabilityPreview (go : GoLib) (caps : List Capability) (totalLayers : Int)
    (shards : List Shard) (routes : List Route) : Prop where
  planned : planLayerShards go (caps.map Capability.device) totalLayers = .ok shards
  routed : RoutePlan go (caps.map Capability.importedPeer) shards totalLayers routes

theorem previewFromCapabilities_eq_ok {caps : List Capability} {modelID : String} {totalLayers : Int}
    {preview : RoutePreview} :
    previewFromCapabilities go ctx caps modelID totalLayers = .ok preview ↔
      ∃ shards routes, ctx.OpenForPreview caps.length shards.length ∧
        CapabilityPreview go caps totalLayers shards routes ∧
        preview = previewFromRoutes modelID totalLayers routes := by
  simp only [previewFromCapabilities, buildRoutesFromCapabilities, newPlan, bind_eq_ok, pure_eq_ok,
    Except.ok.injEq, importPeers_eq_ok, buildRoutes_eq_ok]
  constructor
  · rintro ⟨⟨⟩, now, _, ⟨shards, planned, rfl⟩, routes, ⟨⟨⟩, importNow, _, ⟨importOpen, valid, rfl⟩,
      ⟨routeNow, indexOpen, shardsOpen⟩, routed⟩, rfl⟩
    rw [List.length_map] at indexOpen
    exact ⟨shards, routes, ⟨now, importNow, importOpen, routeNow, indexOpen, shardsOpen⟩,
      ⟨planned, routed⟩, rfl⟩
  · rintro ⟨shards, routes, ⟨now, importNow, importOpen, routeNow, indexOpen, shardsOpen⟩,
      ⟨planned, routed⟩, rfl⟩
    have valid : ∀ cap ∈ caps, cap.importedPeer.validate go = .ok () :=
      fun cap member => routed.peers_valid _ (List.mem_map_of_mem member)
    refine ⟨(), now, _, ⟨shards, planned, rfl⟩, routes, ⟨(), importNow, _, ⟨importOpen, valid, rfl⟩,
      ⟨routeNow, ?_, shardsOpen⟩, routed⟩, rfl⟩
    rw [List.length_map]
    exact indexOpen

/-- The entries of a preview carry the shards of the routes. -/
theorem previewFromRoutes_shards (modelID : String) (totalLayers : Int) (routes : List Route) :
    (previewFromRoutes modelID totalLayers routes).routes.map RouteEntry.shard =
      routes.map Route.shard := by
  rw [previewFromRoutes, List.map_map]
  rfl

namespace CapabilityPreview

variable {caps : List Capability} {totalLayers : Int} {shards : List Shard} {routes : List Route}

theorem ids_distinct (preview : CapabilityPreview go caps totalLayers shards routes) :
    (caps.map Capability.peerID).Nodup := by
  have distinct := preview.routed.ids_distinct
  rw [List.map_map] at distinct
  exact distinct

/-- The planned device ids are the advertised ones. -/
theorem device_ids (preview : CapabilityPreview go caps totalLayers shards routes) :
    (shards.map Shard.deviceID).Perm (caps.map fun cap => cap.device.id) := by
  have onePerDevice := (plannedLayout_of_planned preview.planned).one_per_device
  rw [List.map_map] at onePerDevice
  exact onePerDevice

/-- As many shards as peers, each named after a peer: every peer has a shard. -/
theorem peer_ids (preview : CapabilityPreview go caps totalLayers shards routes) :
    (shards.map Shard.deviceID).Perm (caps.map Capability.peerID) := by
  have subset := preview.routed.devices_subset
  rw [List.map_map] at subset
  apply (List.subperm_of_subset preview.routed.partition.ids_distinct subset).perm_of_length_le
  have sameLength := preview.device_ids.length_eq
  rw [List.length_map] at sameLength
  rw [List.length_map, List.length_map, sameLength, List.length_map]

/-- The routes use every peer once. -/
theorem routed_ids (preview : CapabilityPreview go caps totalLayers shards routes) :
    (routes.map fun route => route.peer.id).Perm (caps.map Capability.peerID) := by
  rw [preview.routed.peer_ids]
  exact preview.peer_ids

/-- Each route goes to a capability, with the route's shard named after its peer. -/
theorem route_capability (preview : CapabilityPreview go caps totalLayers shards routes) {route : Route}
    (member : route ∈ routes) :
    ∃ cap ∈ caps, route.peer = cap.importedPeer ∧ cap.peerID = route.shard.deviceID := by
  obtain ⟨imported, named⟩ := preview.routed.peers_named route member
  obtain ⟨cap, capMember, same⟩ := List.mem_map.mp imported
  refine ⟨cap, capMember, same.symm, ?_⟩
  rw [← named, ← same]
  rfl

/-- Every capability is routed. -/
theorem routed_capability (preview : CapabilityPreview go caps totalLayers shards routes)
    {cap : Capability} (member : cap ∈ caps) :
    ∃ route ∈ routes, route.peer.id = cap.peerID := by
  have routed : cap.peerID ∈ routes.map fun route => route.peer.id :=
    preview.routed_ids.mem_iff.mpr (List.mem_map_of_mem member)
  exact List.mem_map.mp routed

end CapabilityPreview

/-- Every entry goes to exactly one capability, and carries the shard of that capability's device. -/
def RoutedByOwnDevice (caps : List Capability) (preview : RoutePreview) : Prop :=
  ∀ entry ∈ preview.routes, ∃ cap ∈ caps, cap.peerID = entry.peerID ∧
    (∀ other ∈ caps, other.peerID = entry.peerID → other = cap) ∧
    cap.device.id = entry.shard.deviceID

/-- In a preview from capabilities, whose entries carry the planned shards, peers get the shard of their
own device exactly when every capability names its device after its peer. -/
theorem routed_by_own_device_iff (go : GoLib) (ctx : Ctx) (caps : List Capability) (modelID : String)
    (totalLayers : Int) (preview : RoutePreview)
    (previewed : previewFromCapabilities go ctx caps modelID totalLayers = .ok preview) :
    planLayerShards go (caps.map Capability.device) totalLayers =
        .ok (preview.routes.map RouteEntry.shard) ∧
      (RoutedByOwnDevice caps preview ↔ ∀ cap ∈ caps, cap.device.id = cap.peerID) := by
  obtain ⟨shards, routes, -, made, rfl⟩ := previewFromCapabilities_eq_ok.mp previewed
  refine ⟨?_, ?_, ?_⟩
  · rw [previewFromRoutes_shards, made.routed.shards_eq]
    exact made.planned
  · intro own cap member
    obtain ⟨route, routed, named⟩ := made.routed_capability member
    obtain ⟨owner, -, -, unique, device⟩ := own route.entry (List.mem_map_of_mem routed)
    have isOwner : cap = owner := unique cap member named.symm
    rw [isOwner, device, ← isOwner, ← named, (made.routed.peers_named route routed).2]
    rfl
  · intro sameIds entry member
    obtain ⟨route, routed, rfl⟩ := List.mem_map.mp member
    obtain ⟨cap, capMember, isPeer, named⟩ := made.route_capability routed
    have entryPeer : route.entry.peerID = cap.peerID := by
      rw [Route.entry, isPeer]
      rfl
    refine ⟨cap, capMember, entryPeer.symm, ?_, ?_⟩
    · intro other otherMember sameId
      exact List.inj_on_of_nodup_map made.ids_distinct otherMember capMember (sameId.trans entryPeer)
    · rw [sameIds cap capMember, named]
      rfl

/-- A capability at a fixed address. -/
def exampleCapability (peerID deviceID : String) (memoryGB : Float64) : Capability :=
  ⟨peerID, ⟨deviceID, memoryGB, ""⟩, AList.insert "address" "http://h" ∅⟩

/-- Two peers whose device ids are swapped: the peer with 3 GB gets the one layer planned for the other's
1 GB. -/
theorem swapped_devices_not_own :
    ∃ preview, previewFromCapabilities .plain .background
        [exampleCapability "a" "b" (.finite 3), exampleCapability "b" "a" (.finite 1)] "m" 4 =
          .ok preview ∧
      preview.routes.map (fun entry => (entry.peerID, entry.shard)) =
        [("a", ⟨"a", 0, 0⟩), ("b", ⟨"b", 1, 3⟩)] ∧
      ¬ RoutedByOwnDevice [exampleCapability "a" "b" (.finite 3), exampleCapability "b" "a" (.finite 1)]
        preview := by
  refine ⟨⟨"m", 4, [⟨"a", "http://h", "http", ⟨"a", 0, 0⟩⟩, ⟨"b", "http://h", "http", ⟨"b", 1, 3⟩⟩]⟩,
    by decide +kernel, rfl, ?_⟩
  intro own
  obtain ⟨cap, member, named, -, device⟩ := own _ (List.mem_cons_self)
  simp only [List.mem_cons, List.not_mem_nil, or_false] at member
  rcases member with rfl | rfl
  · exact absurd device (by decide)
  · exact absurd named (by decide)

/-- With equal ids, peers get the shards of their own devices. -/
theorem routed_by_own_device_pair :
    RoutedByOwnDevice [exampleCapability "a" "a" (.finite 3), exampleCapability "b" "b" (.finite 1)]
      ⟨"m", 4, [⟨"a", "http://h", "http", ⟨"a", 0, 2⟩⟩, ⟨"b", "http://h", "http", ⟨"b", 3, 3⟩⟩]⟩ := by
  have previewed : previewFromCapabilities .plain .background
      [exampleCapability "a" "a" (.finite 3), exampleCapability "b" "b" (.finite 1)] "m" 4 =
        .ok ⟨"m", 4, [⟨"a", "http://h", "http", ⟨"a", 0, 2⟩⟩, ⟨"b", "http://h", "http", ⟨"b", 3, 3⟩⟩]⟩ := by
    decide +kernel
  apply (routed_by_own_device_iff .plain .background _ "m" 4 _ previewed).2.mpr
  simp [exampleCapability]

/-! ### Previews from a registry -/

theorem previewFromRegistry_eq_ok {r : Registry} {modelID : String} {totalLayers : Int}
    {preview : RoutePreview} :
    previewFromRegistry go ctx (some r) modelID totalLayers = .ok preview ↔
      ctx.check 0 = .ok () ∧ (r.peers go).length ≠ 0 ∧ (ctx.call 1).Open 0 (r.peers go).length ∧
        (∀ p ∈ r.peers go, p.validate go = .ok ()) ∧
        ∃ shards routes, (ctx.call 2).OpenForPreview (r.peers go).length shards.length ∧
          CapabilityPreview go ((r.peers go).map Peer.exported) totalLayers shards routes ∧
          preview = previewFromRoutes modelID totalLayers routes := by
  simp only [previewFromRegistry, bind_eq_ok, failIf_eq_ok, exists_const, exportPeers_eq_ok,
    previewFromCapabilities_eq_ok]
  constructor
  · rintro ⟨⟨⟩, now, some, _, ⟨exportOpen, valid, rfl⟩, made⟩
    rw [List.length_map] at made
    exact ⟨now, some, exportOpen, valid, made⟩
  · rintro ⟨now, some, exportOpen, valid, made⟩
    refine ⟨(), now, some, _, ⟨exportOpen, valid, rfl⟩, ?_⟩
    rw [List.length_map]
    exact made

/-- The exported peers of a valid snapshot, imported again. -/
theorem importedPeers_exported {peers : List Peer} (valid : ∀ p ∈ peers, p.validate go = .ok ()) :
    (peers.map Peer.exported).map Capability.importedPeer =
      peers.map fun p => { p with lastSeen := 0 } := by
  rw [List.map_map]
  apply List.map_congr_left
  intro p member
  exact importedPeer_exported (valid p member)

/-- A complete layout over the peers of a registry: the entries carry the shards planned for the
registered devices, every layer lies in one of them, every registered peer has one entry, and entries
name the stored address and transport. -/
structure CompleteLayout (go : GoLib) (r : Registry) (totalLayers : Int) (preview : RoutePreview) :
    Prop where
  planned : ∃ plan, newPlan go ((r.peers go).map Peer.device) totalLayers = .ok plan ∧
    preview.routes.map RouteEntry.shard = plan.shards
  consecutive : ShardsTile 0 (preview.routes.map RouteEntry.shard) totalLayers
  layers_once : ∀ layer, 0 ≤ layer → layer < totalLayers →
    ∃! entry, entry ∈ preview.routes ∧ entry.shard.startLayer ≤ layer ∧ layer ≤ entry.shard.endLayer
  one_entry_per_peer : (preview.routes.map RouteEntry.peerID).Perm ((r.peers go).map Peer.id)
  peers_once : (preview.routes.map RouteEntry.peerID).Nodup
  registered : ∀ id, id ∈ preview.routes.map RouteEntry.peerID ↔ (r.find id).isSome = true
  stored : ∀ entry ∈ preview.routes, ∃ p, r.find entry.peerID = some p ∧
    entry.address = p.address ∧ entry.transport = p.transport

/-- A preview over the exported peers of a well-formed registry is a complete layout. -/
theorem CapabilityPreview.completeLayout {r : Registry} (wellFormed : r.WellFormed go)
    (modelID : String) {totalLayers : Int} {shards : List Shard} {routes : List Route}
    (made : CapabilityPreview go ((r.peers go).map Peer.exported) totalLayers shards routes) :
    CompleteLayout go r totalLayers (previewFromRoutes modelID totalLayers routes) := by
  have valid := wellFormed.peers_valid
  have entryIds : (previewFromRoutes modelID totalLayers routes).routes.map RouteEntry.peerID =
      routes.map fun route => route.peer.id := by
    rw [previewFromRoutes, List.map_map]
    rfl
  have perm : ((previewFromRoutes modelID totalLayers routes).routes.map RouteEntry.peerID).Perm
      ((r.peers go).map Peer.id) := by
    have ids := made.routed_ids
    rw [List.map_map] at ids
    rw [entryIds]
    exact ids
  have entryTiles : Tiling.Tiles (fun entry : RouteEntry => entry.shard.startLayer)
      (fun entry => entry.shard.endLayer) 0 (previewFromRoutes modelID totalLayers routes).routes
        totalLayers := by
    rw [previewFromRoutes]
    exact (Tiling.Tiles.map_iff Route.entry).mpr made.routed.tiles
  refine ⟨⟨⟨totalLayers, shards⟩, ?_, ?_⟩, ?_, ?_, perm, ?_, ?_, ?_⟩
  · have planned := made.planned
    rw [List.map_map] at planned
    simp only [newPlan, bind_eq_ok, pure_eq_ok, Except.ok.injEq]
    exact ⟨shards, planned, rfl⟩
  · rw [previewFromRoutes_shards]
    exact made.routed.shards_eq
  · exact (Tiling.Tiles.map_iff RouteEntry.shard).mpr entryTiles
  · intro layer above below
    obtain ⟨entry, member, inside⟩ := entryTiles.cover above below
    refine ⟨entry, ⟨member, inside⟩, ?_⟩
    rintro other ⟨otherMember, otherInside⟩
    exact entryTiles.owner_unique otherMember member otherInside inside
  · exact perm.nodup_iff.mpr (Registry.peers_ids_distinct wellFormed)
  · intro id
    rw [perm.mem_iff, List.mem_map, Registry.listed_iff wellFormed]
  · intro entry member
    obtain ⟨route, routed, rfl⟩ := List.mem_map.mp member
    obtain ⟨imported, -⟩ := made.routed.peers_named route routed
    rw [importedPeers_exported valid] at imported
    obtain ⟨p, listed, isPeer⟩ := List.mem_map.mp imported
    refine ⟨p, ?_, ?_, ?_⟩
    · rw [Route.entry, ← isPeer]
      exact (Registry.mem_peers wellFormed).mp listed
    · rw [Route.entry, ← isPeer]
    · rw [Route.entry, ← isPeer]

/-- A registry-backed preview is a complete layout over the registered peers; no peer that was evicted
and not upserted again is in it. -/
theorem previewFromRegistry_layout (go : GoLib) (ctx : Ctx) (calls : List Registry.Call)
    (modelID : String) (totalLayers : Int) (preview : RoutePreview)
    (previewed : previewFromRegistry go ctx (some (Registry.after go calls)) modelID totalLayers =
      .ok preview) :
    CompleteLayout go (Registry.after go calls) totalLayers preview ∧
      ∀ id earlier record since, Registry.historyOf go calls = earlier ++ record :: since →
        Registry.Evicts id record → (∀ later ∈ since, ¬ Registry.Registers id later) →
        ∀ entry ∈ preview.routes, entry.peerID ≠ id := by
  have accounted := Registry.accounted_after go calls
  obtain ⟨-, -, -, -, shards, routes, -, made, rfl⟩ := previewFromRegistry_eq_ok.mp previewed
  have layout := made.completeLayout accounted.wellFormed modelID
  refine ⟨layout, ?_⟩
  rintro id earlier record since split evicts quiet entry member rfl
  have registered := (layout.registered entry.peerID).mp (List.mem_map_of_mem member)
  rw [accounted.evicted_missing split evicts quiet] at registered
  cases registered

/-- A peer with a device of its own name, at a fixed address. -/
def examplePeer (id deviceID : String) : Peer := ⟨id, "http://h", "http", ⟨deviceID, .finite 1, ""⟩, 0⟩

/-- Two registered peers and a third one evicted: the two share the layers. -/
theorem previewFromRegistry_layout_pair :
    CompleteLayout .plain
      (Registry.after .plain [.upsert (examplePeer "c" "c") 0, .upsert (examplePeer "b" "b") 5,
        .evictStale 3 5, .upsert (examplePeer "a" "a") 6]) 3
      ⟨"m", 3, [⟨"a", "http://h", "http", ⟨"a", 0, 0⟩⟩, ⟨"b", "http://h", "http", ⟨"b", 1, 2⟩⟩]⟩ := by
  apply (previewFromRegistry_layout .plain .background _ "m" 3 _ ?_).1
  decide +kernel

/-! ### Which registries can be planned -/

/-- The device ids of the registered peers are distinct, and each is the id of a registered peer. -/
structure DevicesArePeers (go : GoLib) (r : Registry) : Prop where
  distinct : ((r.peers go).map fun p => p.device.id).Nodup
  registered : ∀ p ∈ r.peers go, (r.find p.device.id).isSome = true

/-- A preview needs distinct device ids that name registered peers. -/
theorem CapabilityPreview.devicesArePeers {r : Registry} (wellFormed : r.WellFormed go)
    {totalLayers : Int} {shards : List Shard} {routes : List Route}
    (made : CapabilityPreview go ((r.peers go).map Peer.exported) totalLayers shards routes) :
    DevicesArePeers go r := by
  have deviceIds := made.device_ids
  have peerIds := made.peer_ids
  rw [List.map_map] at deviceIds peerIds
  constructor
  · exact deviceIds.nodup_iff.mp made.routed.partition.ids_distinct
  · intro p member
    have planned : p.device.id ∈ shards.map Shard.deviceID :=
      deviceIds.mem_iff.mpr (List.mem_map_of_mem member)
    have named : p.device.id ∈ (r.peers go).map Peer.id := peerIds.mem_iff.mp planned
    exact (Registry.listed_iff wellFormed).mp (List.mem_map.mp named)

/-- With exact arithmetic, distinct device ids that name registered peers are enough. -/
theorem DevicesArePeers.preview {r : Registry} (devices : DevicesArePeers go r)
    (wellFormed : r.WellFormed go) (exact : go.float = FloatOps.exact) (modelID : String)
    {totalLayers : Int} (bounded : totalLayers ≤ maxInt) (nonempty : 1 ≤ (r.peers go).length)
    (fits : ((r.peers go).length : Int) ≤ totalLayers) :
    ∃ preview, previewFromRegistry go .background (some r) modelID totalLayers = .ok preview := by
  have valid := wellFormed.peers_valid
  have planned : ∃ shards, planLayerShards go ((r.peers go).map Peer.device) totalLayers = .ok shards := by
    apply planLayerShards_exact exact bounded
    · rwa [List.length_map]
    · rwa [List.length_map]
    · rintro d member
      obtain ⟨p, listed, rfl⟩ := List.mem_map.mp member
      obtain ⟨-, -, -, -, -, named, -⟩ := Peer.validate_eq_ok.mp (valid p listed)
      exact named
    · rw [List.map_map]
      exact devices.distinct
    · rintro d member
      obtain ⟨p, listed, rfl⟩ := List.mem_map.mp member
      obtain ⟨-, -, -, -, -, -, usable⟩ := Peer.validate_eq_ok.mp (valid p listed)
      exact usable
  obtain ⟨shards, planned⟩ := planned
  have named : ∀ shard ∈ shards,
      shard.deviceID ∈ ((r.peers go).map fun p => { p with lastSeen := 0 }).map Peer.id := by
    intro shard member
    have deviceIds := (plannedLayout_of_planned planned).one_per_device
    rw [List.map_map] at deviceIds
    obtain ⟨p, listed, same⟩ := List.mem_map.mp (deviceIds.mem_iff.mp (List.mem_map_of_mem member))
    obtain ⟨q, qListed, isDevice⟩ := (Registry.listed_iff wellFormed).mpr (devices.registered p listed)
    rw [List.map_map]
    exact List.mem_map.mpr ⟨q, qListed, isDevice.trans same⟩
  obtain ⟨routes, split, each⟩ := exists_routes named
  have imported := importedPeers_exported valid
  obtain ⟨-, -, accepted⟩ := planLayerShardsWith_eq_ok.mp planned
  have routed : RoutePlan go (((r.peers go).map Peer.exported).map Capability.importedPeer) shards
      totalLayers routes := by
    rw [imported]
    refine ⟨accepted, ?_, ?_, split, each⟩
    · rintro _ member
      obtain ⟨p, listed, rfl⟩ := List.mem_map.mp member
      exact valid p listed
    · rw [List.map_map]
      exact Registry.peers_ids_distinct wellFormed
  refine ⟨_, previewFromRegistry_eq_ok.mpr ⟨rfl, by omega, by simp, valid, shards, routes, by simp,
    ⟨?_, routed⟩, rfl⟩⟩
  rw [List.map_map]
  exact planned

/-- With exact arithmetic, every reachable registry of at least one and at most `totalLayers` peers can
be planned exactly when its device ids are distinct ids of registered peers; so it can whenever the
run upserts no peer whose device has another name. -/
theorem previewFromRegistry_succeeds_iff (go : GoLib) (exact : go.float = FloatOps.exact)
    (calls : List Registry.Call) (modelID : String) (totalLayers : Int) (bounded : totalLayers ≤ maxInt)
    (nonempty : 1 ≤ ((Registry.after go calls).peers go).length)
    (fits : (((Registry.after go calls).peers go).length : Int) ≤ totalLayers) :
    ((∃ preview, previewFromRegistry go .background (some (Registry.after go calls)) modelID totalLayers =
          .ok preview) ↔
        DevicesArePeers go (Registry.after go calls)) ∧
      ((∀ peer now, .upsert peer now ∈ calls → peer.device.id = peer.id) →
        ∃ preview, previewFromRegistry go .background (some (Registry.after go calls)) modelID
          totalLayers = .ok preview) := by
  have wellFormed := (Registry.accounted_after go calls).wellFormed
  have enough : DevicesArePeers go (Registry.after go calls) →
      ∃ preview, previewFromRegistry go .background (some (Registry.after go calls)) modelID
        totalLayers = .ok preview :=
    fun devices => devices.preview wellFormed exact modelID bounded nonempty fits
  refine ⟨⟨?_, enough⟩, ?_⟩
  · rintro ⟨preview, previewed⟩
    obtain ⟨-, -, -, -, shards, routes, -, made, -⟩ := previewFromRegistry_eq_ok.mp previewed
    exact made.devicesArePeers wellFormed
  · intro sameNames
    have ownDevice : ∀ p ∈ (Registry.after go calls).peers go, p.device.id = p.id := by
      intro p listed
      obtain ⟨peer, now, called, sameId, sameDevice⟩ :=
        Registry.upserted_of_find ((Registry.mem_peers wellFormed).mp listed)
      rw [sameDevice, sameId]
      exact sameNames peer now called
    apply enough
    constructor
    · rw [List.map_congr_left ownDevice]
      exact Registry.peers_ids_distinct wellFormed
    · intro p listed
      rw [ownDevice p listed]
      exact (Registry.listed_iff wellFormed).mp ⟨p, listed, rfl⟩

/-- An accepted `Upsert` of a peer whose device has another name makes planning fail for both peers. -/
theorem foreign_device_blocks_planning :
    (Registry.serve .plain (.upsert (examplePeer "b" "d") 0)
        (Registry.after .plain [.upsert (examplePeer "a" "a") 0])).1 = .done (.ok ()) ∧
      (∃ preview, previewFromRegistry .plain .background
        (some (Registry.after .plain [.upsert (examplePeer "a" "a") 0])) "m" 2 = .ok preview) ∧
      ((Registry.after .plain [.upsert (examplePeer "a" "a") 0,
        .upsert (examplePeer "b" "d") 0]).peers .plain).length = 2 ∧
      previewFromRegistry .plain .background
        (some (Registry.after .plain [.upsert (examplePeer "a" "a") 0, .upsert (examplePeer "b" "d") 0]))
        "m" 2 = .error (.errorf "no peer for shard device %q" [.str "d"]) := by
  refine ⟨by decide +kernel, ?_, by decide +kernel, by decide +kernel⟩
  exact ⟨⟨"m", 2, [⟨"a", "http://h", "http", ⟨"a", 0, 1⟩⟩]⟩, by decide +kernel⟩

/-- Two peers that own their devices can be planned. -/
theorem previewFromRegistry_succeeds_pair :
    ∃ preview, previewFromRegistry .plain .background
      (some (Registry.after .plain [.upsert (examplePeer "a" "a") 0, .upsert (examplePeer "b" "b") 0]))
      "m" 2 = .ok preview := by
  apply (previewFromRegistry_succeeds_iff .plain rfl _ "m" 2 (by decide) (by decide +kernel)
    (by decide +kernel)).2
  intro peer now called
  simp only [List.mem_cons, Registry.Call.upsert.injEq, List.not_mem_nil, or_false] at called
  rcases called with ⟨rfl, -⟩ | ⟨rfl, -⟩
  · rfl
  · rfl

end GoExotic
