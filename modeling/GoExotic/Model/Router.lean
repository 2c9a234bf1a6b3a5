/-
Module: GoExotic.Model.Router
Purpose: Package router: shard routes from a placement plan and a peer snapshot, and the planning-only
  previews from capabilities and from a registry.
Trusted boundary: none
Main exports: Route, buildRoutes, buildRoutesFromCapabilities, previewFromRoutes,
  previewFromCapabilities, previewFromRegistry
-/
import GoExotic.Model.Cluster

namespace GoExotic

/-- One shard with the peer that should execute it. -/
structure Route where
  peer : Peer
  shard : Shard
deriving DecidableEq, Repr

/-! ### Routes -/

/-- The loop of `BuildRoutes` that indexes the peers, from the peer at index `i` on. -/
def indexPeers (go : GoLib) (ctx : Ctx) : Nat → GoMap Peer → List Peer → Except GoError (GoMap Peer)
  | _, peerByID, [] => .ok peerByID
  | i, peerByID, peer :: rest => do
      ctx.check i
      wrapErr "peer %q: %w" [.str peer.id] (peer.validate go)
      failIf (peer.id ∈ peerByID) (.errorf "duplicate peer id %q" [.str peer.id])
      indexPeers go ctx (i + 1) (peerByID.insert peer.id peer) rest

/-- The loop of `BuildRoutes` that looks up the peer of each shard, from the shard at index `i` on. -/
def routeShards (ctx : Ctx) (peerByID : GoMap Peer) : Nat → List Shard → Except GoError (List Route)
  | _, [] => .ok []
  | i, shard :: rest => do
      ctx.check i
      match peerByID.lookup shard.deviceID with
      | none => .error (.errorf "no peer for shard device %q" [.str shard.deviceID])
      | some peer => do
          let routes ← routeShards ctx peerByID (i + 1) rest
          return ⟨peer, shard⟩ :: routes

/-- `BuildRoutes`. -/
def buildRoutes (go : GoLib) (ctx : Ctx) (peers : List Peer) (shards : List Shard) (totalLayers : Int) :
    Except GoError (List Route) := do
  ctx.check 0
  validatePlan shards totalLayers
  failIf (peers.length = 0) (.errorf "no peers" [])
  let peerByID ← indexPeers go (ctx.call 1) 0 ∅ peers
  failIf (peerByID.keys.length < shards.length)
    (.errorf "peers=%d fewer than shards=%d" [.int peerByID.keys.length, .int shards.length])
  let routes ← routeShards (ctx.call 2) peerByID 0 shards
  return go.sort.byKey (fun route => route.shard.startLayer) routes

/-! ### Capabilities -/

/-- `peerFromCapability`. -/
def peerFromCapability (go : GoLib) (cap : Capability) : Except GoError Peer := do
  let address := cap.metadata.get "address" ""
  let transport := cap.metadata.get "transport" ""
  let transport := if transport = "" then transportHTTP else transport
  let device := if cap.device.id = "" then { cap.device with id := cap.peerID } else cap.device
  let peer : Peer := ⟨cap.peerID, address, transport, device, 0⟩
  peer.validate go
  return peer

/-- The loop of `BuildRoutesFromCapabilities`, from the capability at index `i` on. -/
def importPeers (go : GoLib) (ctx : Ctx) : Nat → List Capability → Except GoError (List Peer)
  | _, [] => .ok []
  | i, cap :: rest => do
      ctx.check i
      let peer ← wrapErr "capability %q: %w" [.str cap.peerID] (peerFromCapability go cap)
      let peers ← importPeers go ctx (i + 1) rest
      return peer :: peers

/-- `BuildRoutesFromCapabilities`. -/
def buildRoutesFromCapabilities (go : GoLib) (ctx : Ctx) (caps : List Capability) (shards : List Shard)
    (totalLayers : Int) : Except GoError (List Route) := do
  ctx.check 0
  let peers ← importPeers go (ctx.call 1) 0 caps
  buildRoutes go (ctx.call 2) peers shards totalLayers

/-! ### Previews -/

/-- One entry of `PreviewFromRoutes`. -/
def Route.entry (route : Route) : RouteEntry :=
  ⟨route.peer.id, route.peer.address, route.peer.transport, route.shard⟩

/-- `PreviewFromRoutes`. -/
def previewFromRoutes (modelID : String) (totalLayers : Int) (routes : List Route) : RoutePreview :=
  ⟨modelID, totalLayers, routes.map Route.entry⟩

/-- `PreviewFromCapabilities`. -/
def previewFromCapabilities (go : GoLib) (ctx : Ctx) (caps : List Capability) (modelID : String)
    (totalLayers : Int) : Except GoError RoutePreview := do
  ctx.check 0
  let devices := caps.map Capability.device
  let plan ← newPlan go devices totalLayers
  let routes ← buildRoutesFromCapabilities go (ctx.call 1) caps plan.shards totalLayers
  return previewFromRoutes modelID totalLayers routes

/-- The loop of `PreviewFromRegistry` that exports the peers, from the peer at index `i` on. -/
def exportPeers (go : GoLib) (ctx : Ctx) : Nat → List Peer → Except GoError (List Capability)
  | _, [] => .ok []
  | i, peer :: rest => do
      ctx.check i
      let cap ← wrapErr "peer %q capability: %w" [.str peer.id] (peer.capability go)
      let caps ← exportPeers go ctx (i + 1) rest
      return cap :: caps

/-- `PreviewFromRegistry`; a nil registry is `none`. -/
def previewFromRegistry (go : GoLib) (ctx : Ctx) (registry : Option Registry) (modelID : String)
    (totalLayers : Int) : Except GoError RoutePreview := do
  ctx.check 0
  match registry with
  | none => .error (.errorf "nil registry" [])
  | some r => do
      let peers := r.peers go
      failIf (peers.length = 0) (.errorf "no peers" [])
      let caps ← exportPeers go (ctx.call 1) 0 peers
      previewFromCapabilities go (ctx.call 2) caps modelID totalLayers

end GoExotic
