/-
Module: GoExotic.Proofs.DefaultDeviceID
Purpose: Capabilities without a device id. The import of a capability names such a device after its peer;
  the planner, which a preview asks first, gets the device as it was advertised and refuses it. So routes
  for given shards do not depend on who fills in the default, and a preview does whenever it could be made.
Trusted boundary: none
Main exports: Capability.withDeviceID, withDeviceIDs, buildRoutes_withDeviceIDs, Previewable,
  previewFromCapabilities_succeeds_iff, DefaultsAgree, default_device_id_iff
-/
import GoExotic.Proofs.PlanningOrder

namespace GoExotic

variable {go : GoLib} {ctx : Ctx}

/-! ### Filling in the default -/

/-- The capability with an empty device id replaced by the peer's id. -/
def Capability.withDeviceID (cap : Capability) : Capability :=
  if cap.device.id = "" then { cap with device := { cap.device with id := cap.peerID } } else cap

/-- The capabilities with their default device ids. -/
def withDeviceIDs (caps : List Capability) : List Capability := caps.map Capability.withDeviceID

namespace Capability

@[simp] theorem withDeviceID_peerID (cap : Capability) : cap.withDeviceID.peerID = cap.peerID := by
  rw [withDeviceID]
  split_ifs <;> rfl

@[simp] theorem withDeviceID_of_named {cap : Capability} (named : cap.device.id ≠ "") :
    cap.withDeviceID = cap := if_neg named

/-- The default is that of the import, which fills in nothing a second time. -/
@[simp] theorem peerFromCapability_withDeviceID (cap : Capability) :
    peerFromCapability go cap.withDeviceID = peerFromCapability go cap := by
  by_cases unnamed : cap.device.id = ""
  · rw [withDeviceID, if_pos unnamed, peerFromCapability, peerFromCapability]
    simp only [unnamed, if_true]
    split_ifs <;> rfl
  · rw [withDeviceID_of_named unnamed]

end Capability

theorem withDeviceIDs_of_named {caps : List Capability} (named : ∀ cap ∈ caps, cap.device.id ≠ "") :
    withDeviceIDs caps = caps := by
  rw [withDeviceIDs, List.map_congr_left fun cap member => Capability.withDeviceID_of_named (named cap member),
    List.map_id']

theorem importPeers_withDeviceIDs (i : Nat) (caps : List Capability) :
    importPeers go ctx i (withDeviceIDs caps) = importPeers go ctx i caps := by
  induction caps generalizing i with
  | nil => rfl
  | cons cap rest inductionHypothesis =>
      rw [withDeviceIDs, List.map_cons, importPeers, importPeers, ← withDeviceIDs, inductionHypothesis,
        Capability.peerFromCapability_withDeviceID, Capability.withDeviceID_peerID]

/-- Routes for given shards come out the same, errors included. -/
theorem buildRoutes_withDeviceIDs (caps : List Capability) (shards : List Shard) (totalLayers : Int) :
    buildRoutesFromCapabilities go ctx (withDeviceIDs caps) shards totalLayers =
      buildRoutesFromCapabilities go ctx caps shards totalLayers := by
  rw [buildRoutesFromCapabilities, buildRoutesFromCapabilities, importPeers_withDeviceIDs]

/-! ### Which capabilities can be previewed -/

/-- What the capabilities and the context must be like for a preview. -/
structure Previewable (go : GoLib) (ctx : Ctx) (caps : List Capability) (totalLayers : Int) : Prop where
  openContext : ctx.OpenForPreview caps.length caps.length
  plannable : Plannable go (caps.map Capability.device) totalLayers
  /-- The overflow guard of the planner passes. -/
  guarded : ∀ d ∈ (sortDevices go (caps.map Capability.device)).dropLast,
    (memoryShare go totalLayers (finalTotal go .zero (sortDevices go (caps.map Capability.device))) d).gt
      (go.float.ofInt maxInt) = false
  valid : ∀ cap ∈ caps, cap.importedPeer.validate go = .ok ()
  peers_distinct : (caps.map Capability.peerID).Nodup
  /-- Every device is named after a peer. -/
  devices_named : ∀ cap ∈ caps, cap.device.id ∈ caps.map Capability.peerID

theorem CapabilityPreview.previewable {caps : List Capability} {totalLayers : Int} {shards : List Shard}
    {routes : List Route} (made : CapabilityPreview go caps totalLayers shards routes)
    (bounded : totalLayers ≤ maxInt) (openContext : ctx.OpenForPreview caps.length shards.length) :
    Previewable go ctx caps totalLayers := by
  obtain ⟨plannable, guarded⟩ := (planLayerShardsWith_succeeds_iff bounded).mp ⟨shards, made.planned⟩
  have asMany := made.device_ids.length_eq
  rw [List.length_map, List.length_map] at asMany
  refine ⟨asMany ▸ openContext, plannable, guarded, ?_, made.ids_distinct, ?_⟩
  · intro cap member
    exact made.routed.peers_valid _ (List.mem_map_of_mem member)
  · intro cap member
    have planned : cap.device.id ∈ shards.map Shard.deviceID :=
      made.device_ids.mem_iff.mpr (List.mem_map.mpr ⟨cap, member, rfl⟩)
    exact made.peer_ids.mem_iff.mp planned

theorem Previewable.preview {caps : List Capability} {totalLayers : Int}
    (previewable : Previewable go ctx caps totalLayers) (bounded : totalLayers ≤ maxInt) (modelID : String) :
    ∃ preview, previewFromCapabilities go ctx caps modelID totalLayers = .ok preview := by
  obtain ⟨shards, planned⟩ := (planLayerShardsWith_succeeds_iff bounded).mpr
    ⟨previewable.plannable, previewable.guarded⟩
  have deviceIds := (plannedLayout_of_planned planned).one_per_device
  have peerIds : (caps.map Capability.importedPeer).map Peer.id = caps.map Capability.peerID := by
    rw [List.map_map]
    rfl
  have asMany := deviceIds.length_eq
  rw [List.length_map, List.length_map, List.length_map] at asMany
  have named : ∀ shard ∈ shards, shard.deviceID ∈ (caps.map Capability.importedPeer).map Peer.id := by
    intro shard member
    have advertised := deviceIds.mem_iff.mp (List.mem_map_of_mem member)
    rw [List.map_map] at advertised
    obtain ⟨cap, capMember, same⟩ := List.mem_map.mp advertised
    rw [peerIds, ← same]
    exact previewable.devices_named cap capMember
  obtain ⟨routes, split, each⟩ := exists_routes named
  obtain ⟨-, -, accepted⟩ := planLayerShardsWith_eq_ok.mp planned
  have valid : ∀ p ∈ caps.map Capability.importedPeer, p.validate go = .ok () := by
    intro p member
    obtain ⟨cap, capMember, rfl⟩ := List.mem_map.mp member
    exact previewable.valid cap capMember
  have routed : RoutePlan go (caps.map Capability.importedPeer) shards totalLayers routes :=
    ⟨accepted, valid, peerIds ▸ previewable.peers_distinct, split, each⟩
  exact ⟨_, previewFromCapabilities_eq_ok.mpr
    ⟨shards, routes, asMany.symm ▸ previewable.openContext, ⟨planned, routed⟩, rfl⟩⟩

theorem previewFromCapabilities_succeeds_iff {caps : List Capability} {modelID : String} {totalLayers : Int}
    (bounded : totalLayers ≤ maxInt) :
    (∃ preview, previewFromCapabilities go ctx caps modelID totalLayers = .ok preview) ↔
      Previewable go ctx caps totalLayers := by
  constructor
  · rintro ⟨preview, previewed⟩
    obtain ⟨shards, routes, openContext, made, -⟩ := previewFromCapabilities_eq_ok.mp previewed
    exact made.previewable bounded openContext
  · intro previewable
    exact previewable.preview bounded modelID

/-! ### Agreement -/

/-- The outcomes do not depend on whether the defaults were filled in before. -/
structure DefaultsAgree (go : GoLib) (ctx : Ctx) (caps : List Capability) (modelID : String)
    (totalLayers : Int) : Prop where
  preview : SameOutcome (previewFromCapabilities go ctx caps modelID totalLayers)
    (previewFromCapabilities go ctx (withDeviceIDs caps) modelID totalLayers)
  routes : ∀ shards, SameOutcome (buildRoutesFromCapabilities go ctx caps shards totalLayers)
    (buildRoutesFromCapabilities go ctx (withDeviceIDs caps) shards totalLayers)

/-- The outcomes agree exactly where every device has an id, or where there is no preview even with the
default ids. -/
theorem default_device_id_iff (go : GoLib) (ctx : Ctx) (caps : List Capability) (modelID : String)
    (totalLayers : Int) (bounded : totalLayers ≤ maxInt) :
    DefaultsAgree go ctx caps modelID totalLayers ↔
      (∀ cap ∈ caps, cap.device.id ≠ "") ∨ ¬ Previewable go ctx (withDeviceIDs caps) totalLayers := by
  have routes : ∀ shards, SameOutcome (buildRoutesFromCapabilities go ctx caps shards totalLayers)
      (buildRoutesFromCapabilities go ctx (withDeviceIDs caps) shards totalLayers) := by
    intro shards
    apply SameOutcome.of_iff
    intro value
    rw [buildRoutes_withDeviceIDs]
  by_cases named : ∀ cap ∈ caps, cap.device.id ≠ ""
  · have same : withDeviceIDs caps = caps := withDeviceIDs_of_named named
    refine iff_of_true ⟨?_, routes⟩ (Or.inl named)
    rw [same]
    exact SameOutcome.of_iff fun value => Iff.rfl
  · -- The planner refuses the list as it is, so the outcomes agree if it is refused with the defaults too.
    have refused : ∀ preview, previewFromCapabilities go ctx caps modelID totalLayers ≠ .ok preview := by
      intro preview previewed
      have previewable := (previewFromCapabilities_succeeds_iff bounded).mp ⟨preview, previewed⟩
      apply named
      intro cap member
      exact previewable.plannable.ids_nonempty cap.device (List.mem_map_of_mem member)
    have previewable : (∃ preview, previewFromCapabilities go ctx (withDeviceIDs caps) modelID totalLayers =
        .ok preview) ↔ Previewable go ctx (withDeviceIDs caps) totalLayers :=
      previewFromCapabilities_succeeds_iff bounded
    rw [← previewable]
    constructor
    · rintro agree
      right
      rintro ⟨preview, previewed⟩
      exact refused preview ((agree.preview.iff preview).mpr previewed)
    · rintro (isNamed | nothing)
      · exact absurd isNamed named
      · refine ⟨SameOutcome.of_iff fun value => ?_, routes⟩
        exact iff_of_false (refused value) fun previewed => nothing ⟨value, previewed⟩

/-- A capability without a device id is refused by the planner, and planned with the default. -/
theorem unnamed_device_refused :
    previewFromCapabilities .plain .background [exampleCapability "local" "" (.finite 1)] "m" 1 =
        .error (.errorf "device with empty id" []) ∧
      previewFromCapabilities .plain .background (withDeviceIDs [exampleCapability "local" "" (.finite 1)])
        "m" 1 = .ok ⟨"m", 1, [⟨"local", "http://h", "http", ⟨"local", 0, 0⟩⟩]⟩ ∧
      ¬ DefaultsAgree .plain .background [exampleCapability "local" "" (.finite 1)] "m" 1 := by
  have refused : previewFromCapabilities .plain .background [exampleCapability "local" "" (.finite 1)] "m" 1 =
      .error (.errorf "device with empty id" []) := by
    decide +kernel
  have previewed : previewFromCapabilities .plain .background
      (withDeviceIDs [exampleCapability "local" "" (.finite 1)]) "m" 1 =
        .ok ⟨"m", 1, [⟨"local", "http://h", "http", ⟨"local", 0, 0⟩⟩]⟩ := by
    decide +kernel
  refine ⟨refused, previewed, ?_⟩
  intro agree
  have alsoPreviewed := (agree.preview.iff _).mpr previewed
  rw [refused] at alsoPreviewed
  cases alsoPreviewed

/-- Next to a device of the same name, the default is refused as well. -/
theorem default_device_id_collision :
    DefaultsAgree .plain .background
      [exampleCapability "a" "" (.finite 1), exampleCapability "b" "a" (.finite 1)] "m" 2 := by
  apply (default_device_id_iff .plain .background _ "m" 2 (by decide)).mpr
  right
  intro previewable
  exact absurd previewable.plannable.ids_distinct (by decide)

end GoExotic
