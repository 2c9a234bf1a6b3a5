/-
Module: GoExotic.Proofs.PreviewEndpoints
Purpose: What the two planning endpoints of a server answer. Each plans for the devices of its own source:
  `/placement/preview` for those of the configured capabilities, `/routes/preview` for those of the
  registered peers where a registry is configured. The shards of the route preview are those of the plan,
  in order, so the two previews agree wherever the two sources hold the same devices.
Trusted boundary: none
Main exports: PlanningServer.routedDevices, handlePlacementPreview_ok, handleRoutesPreview_ok,
  previewFromCapabilities_planned, previewFromRegistry_planned, PreviewsOfSources, previews_of_sources
-/
import GoExotic.Proofs.PlanningOrder

namespace GoExotic

variable {go : GoLib} {ctx : Ctx}

/-! ### Plans behind the previews -/

theorem newPlan_eq_ok {devices : List Device} {totalLayers : Int} {plan : Plan} :
    newPlan go devices totalLayers = .ok plan ↔
      planLayerShards go devices totalLayers = .ok plan.shards ∧ plan.totalLayers = totalLayers := by
  simp only [newPlan, bind_eq_ok, pure_eq_ok, Except.ok.injEq]
  constructor
  · rintro ⟨shards, planned, rfl⟩
    exact ⟨planned, rfl⟩
  · rintro ⟨planned, rfl⟩
    exact ⟨plan.shards, planned, rfl⟩

/-- The entries of a preview from capabilities carry the plan for their devices. -/
theorem previewFromCapabilities_planned {caps : List Capability} {modelID : String} {totalLayers : Int}
    {preview : RoutePreview}
    (previewed : previewFromCapabilities go ctx caps modelID totalLayers = .ok preview) :
    planLayerShards go (caps.map Capability.device) totalLayers =
        .ok (preview.routes.map RouteEntry.shard) ∧
      preview.modelID = modelID ∧ preview.layers = totalLayers := by
  obtain ⟨shards, routes, -, made, rfl⟩ := previewFromCapabilities_eq_ok.mp previewed
  refine ⟨?_, rfl, rfl⟩
  rw [previewFromRoutes_shards, made.routed.shards_eq]
  exact made.planned

/-- The entries of a preview from a registry carry the plan for the devices of its peers. -/
theorem previewFromRegistry_planned {r : Registry} {modelID : String} {totalLayers : Int}
    {preview : RoutePreview}
    (previewed : previewFromRegistry go ctx (some r) modelID totalLayers = .ok preview) :
    planLayerShards go ((r.peers go).map Peer.device) totalLayers =
        .ok (preview.routes.map RouteEntry.shard) ∧
      preview.modelID = modelID ∧ preview.layers = totalLayers := by
  obtain ⟨-, -, -, -, shards, routes, -, made, rfl⟩ := previewFromRegistry_eq_ok.mp previewed
  refine ⟨?_, rfl, rfl⟩
  have planned := made.planned
  rw [List.map_map] at planned
  rw [previewFromRoutes_shards, made.routed.shards_eq]
  exact planned

theorem copyCapabilities_devices (caps : List Capability) :
    (copyCapabilities caps).map Capability.device = caps.map Capability.device := by
  rw [copyCapabilities, List.map_map]
  rfl

/-- Inserting the entries of a list one by one: a key that is not among them keeps its value. -/
theorem lookup_foldl_insert {β : Type} {entries : List (Sigma fun _ : String => β)}
    (distinct : entries.NodupKeys) (m : GoMap β) (key : String) :
    (entries.foldl (fun out entry => out.insert entry.1 entry.2) m).lookup key =
      (List.dlookup key entries).or (m.lookup key) := by
  induction entries generalizing m with
  | nil => simp
  | cons entry rest inductionHypothesis =>
      obtain ⟨fresh, distinctRest⟩ := List.nodupKeys_cons.mp distinct
      rw [List.foldl_cons, inductionHypothesis distinctRest]
      by_cases same : key = entry.1
      · subst same
        rw [AList.lookup_insert, List.dlookup_eq_none.mpr fresh, List.dlookup_cons_eq]
        rfl
      · rw [AList.lookup_insert_ne same, List.dlookup_cons_ne rest entry same]

@[simp] theorem cloneMetadata_lookup (metadata : GoMap String) (key : String) :
    (cloneMetadata metadata).lookup key = metadata.lookup key := by
  rw [cloneMetadata]
  split_ifs with empty
  · rw [AList.lookup, AList.lookup, List.length_eq_zero_iff.mp empty]
    rfl
  · rw [lookup_foldl_insert metadata.nodupKeys, AList.lookup_empty, Option.or_none, AList.lookup]

/-- A copied capability is imported as the same peer. -/
theorem importedPeer_copy (cap : Capability) :
    ({ cap with metadata := cloneMetadata cap.metadata } : Capability).importedPeer = cap.importedPeer := by
  have same : ∀ key, (cloneMetadata cap.metadata).get key "" = cap.metadata.get key "" := by
    intro key
    rw [GoMap.get, GoMap.get, cloneMetadata_lookup]
  rw [Capability.importedPeer, Capability.importedPeer, same, same]

/-! ### The endpoints -/

namespace PlanningServer

variable {W : Type} {s : PlanningServer W} {wire : WireLib} {lib : PreviewLib} {r : HttpRequest}

/-- The devices `/placement/preview` plans for. -/
def placedDevices (s : PlanningServer W) : List Device := s.capabilities.map Capability.device

/-- The devices `/routes/preview` plans for. -/
def routedDevices (go : GoLib) (s : PlanningServer W) : List Device :=
  match s.registry with
  | some r => (r.peers go).map Peer.device
  | none => s.capabilities.map Capability.device

/-- A placement preview with status 200 is the plan for the capabilities. -/
theorem handlePlacementPreview_ok (succeeded : (s.handlePlacementPreview go wire lib r).status = 200) :
    ∃ layers placement, positiveIntQuery lib r "layers" = .ok layers ∧
      s.handlePlacementPreview go wire lib r = writeJSON 200 [] (lib.encodePlacement placement) ∧
      placement.modelID = lib.queryGet r.url "model" ∧ placement.layers = layers ∧
      planLayerShards go s.placedDevices layers = .ok placement.shards := by
  rw [handlePlacementPreview] at succeeded ⊢
  by_cases isGet : r.method ≠ "GET"
  · rw [if_pos isGet] at succeeded
    cases succeeded
  · rw [if_neg isGet] at succeeded ⊢
    cases parsed : positiveIntQuery lib r "layers" with
    | error err =>
        rw [parsed] at succeeded
        cases succeeded
    | ok layers =>
        simp only [parsed] at succeeded ⊢
        cases planned : newPlan go (s.capabilities.map Capability.device) layers with
        | error err =>
            rw [planned] at succeeded
            cases succeeded
        | ok plan => exact ⟨layers, _, rfl, rfl, rfl, rfl, (newPlan_eq_ok.mp planned).1⟩

/-- A route preview with status 200 carries the plan for the devices of its source. -/
theorem handleRoutesPreview_ok (succeeded : (s.handleRoutesPreview go wire lib ctx r).status = 200) :
    ∃ layers preview, positiveIntQuery lib r "layers" = .ok layers ∧
      s.handleRoutesPreview go wire lib ctx r = writeJSON 200 [] (lib.encodeRoutes preview) ∧
      preview.modelID = lib.queryGet r.url "model" ∧ preview.layers = layers ∧
      planLayerShards go (s.routedDevices go) layers = .ok (preview.routes.map RouteEntry.shard) := by
  rw [handleRoutesPreview] at succeeded ⊢
  by_cases isGet : r.method ≠ "GET"
  · rw [if_pos isGet] at succeeded
    cases succeeded
  · rw [if_neg isGet] at succeeded ⊢
    cases parsed : positiveIntQuery lib r "layers" with
    | error err =>
        rw [parsed] at succeeded
        cases succeeded
    | ok layers =>
        simp only [parsed] at succeeded ⊢
        cases source : s.registry with
        | some registry =>
            simp only [source, routedDevices] at succeeded ⊢
            cases previewed : previewFromRegistry go ctx (some registry) (lib.queryGet r.url "model")
                layers with
            | error err =>
                rw [previewed] at succeeded
                cases succeeded
            | ok preview =>
                obtain ⟨planned, model, count⟩ := previewFromRegistry_planned previewed
                exact ⟨layers, preview, rfl, rfl, model, count, planned⟩
        | none =>
            simp only [source, routedDevices] at succeeded ⊢
            cases previewed : previewFromCapabilities go ctx s.capabilitiesCopy
                (lib.queryGet r.url "model") layers with
            | error err =>
                rw [previewed] at succeeded
                cases succeeded
            | ok preview =>
                obtain ⟨planned, model, count⟩ := previewFromCapabilities_planned previewed
                rw [capabilitiesCopy, copyCapabilities_devices] at planned
                exact ⟨layers, preview, rfl, rfl, model, count, planned⟩

/-- What two previews of one server show: each the plan for its own source. -/
structure PreviewsOfSources (go : GoLib) (s : PlanningServer W) (placement : PlacementPreview)
    (preview : RoutePreview) : Prop where
  same_model : placement.modelID = preview.modelID
  same_layers : placement.layers = preview.layers
  placed : planLayerShards go s.placedDevices placement.layers = .ok placement.shards
  routed : planLayerShards go (s.routedDevices go) preview.layers = .ok (preview.routes.map RouteEntry.shard)
  /-- Without a registry both sources are the capabilities. -/
  static : s.registry = none → placement.shards = preview.routes.map RouteEntry.shard
  /-- With a registry the previews agree if it holds the devices of the capabilities, in any order. -/
  live : (s.routedDevices go).Perm s.placedDevices → placement.shards = preview.routes.map RouteEntry.shard

/-- Where both previews of a server answer 200 to the same query, each shows, in order, the shards planned
for its own source; so they show the same shards where the sources hold the same devices. -/
theorem previews_of_sources (go : GoLib) (wire : WireLib) (lib : PreviewLib) (s : PlanningServer W)
    (ctx : Ctx) (other : Handler W) (state : W) (place route : HttpRequest)
    (placePath : place.url.path = "/placement/preview") (routePath : route.url.path = "/routes/preview")
    (model : lib.queryGet place.url "model" = lib.queryGet route.url "model")
    (layers : lib.queryGet place.url "layers" = lib.queryGet route.url "layers")
    (placed : (s.handler go wire lib ctx other place state).1.status = 200)
    (routed : (s.handler go wire lib ctx other route state).1.status = 200) :
    ∃ placement preview,
      (s.handler go wire lib ctx other place state).1 = writeJSON 200 [] (lib.encodePlacement placement) ∧
      (s.handler go wire lib ctx other route state).1 = writeJSON 200 [] (lib.encodeRoutes preview) ∧
      PreviewsOfSources go s placement preview := by
  have atPlace : s.handler go wire lib ctx other place state =
      (s.handlePlacementPreview go wire lib place, state) := by
    simp [handler, Server.handler, placePath]
  have atRoute : s.handler go wire lib ctx other route state =
      (s.handleRoutesPreview go wire lib ctx route, state) := by
    simp [handler, Server.handler, routePath]
  rw [atPlace] at placed ⊢
  rw [atRoute] at routed ⊢
  obtain ⟨count, placement, parsed, answer, placeModel, placeLayers, planned⟩ :=
    handlePlacementPreview_ok placed
  obtain ⟨routeCount, preview, routeParsed, routeAnswer, routeModel, routeLayers, routePlanned⟩ :=
    handleRoutesPreview_ok routed
  have sameCount : routeCount = count := by
    rw [positiveIntQuery, ← layers, ← positiveIntQuery, parsed] at routeParsed
    exact (Except.ok.inj routeParsed).symm
  rw [sameCount] at routePlanned routeLayers
  have agree : (s.routedDevices go).Perm s.placedDevices →
      placement.shards = preview.routes.map RouteEntry.shard := by
    intro perm
    have again := planLayerShards_perm go.sort perm routePlanned
    exact Except.ok.inj (planned.symm.trans again)
  refine ⟨placement, preview, answer, routeAnswer, ?_, ?_, ?_, ?_, ?_, agree⟩
  · rw [placeModel, routeModel, model]
  · rw [placeLayers, routeLayers]
  · rw [placeLayers]
    exact planned
  · rw [routeLayers]
    exact routePlanned
  · intro unconfigured
    apply agree
    rw [routedDevices, unconfigured, placedDevices]

/-- A server with peer `a` as its capability and peer `b` registered. -/
def twoSourcesServer : PlanningServer Unit :=
  newPlanningServer [exampleCapability "a" "a" (.finite 1)]
    [some (withRegistry (some (Registry.after .plain [.upsert (examplePeer "b" "b") 0])))]

/-- A request for a preview of one layer. -/
def previewRequest (path : String) : HttpRequest :=
  ⟨"GET", ⟨"http", "h", path, "model=m&layers=1"⟩, [], []⟩

theorem twoSourcesServer_placement :
    twoSourcesServer.handlePlacementPreview .plain .plain .plain (previewRequest "/placement/preview") =
      writeJSON 200 [] (PreviewLib.plain.encodePlacement ⟨"m", 1, [⟨"a", 0, 0⟩]⟩) := by
  have query : positiveIntQuery .plain (previewRequest "/placement/preview") "layers" = .ok 1 := by
    decide +kernel
  have model : PreviewLib.plain.queryGet (previewRequest "/placement/preview").url "model" = "m" := by
    decide +kernel
  have planned : newPlan .plain (twoSourcesServer.capabilities.map Capability.device) 1 =
      .ok ⟨1, [⟨"a", 0, 0⟩]⟩ := by
    decide +kernel
  rw [handlePlacementPreview, if_neg (by decide), query]
  simp only [planned, model]

theorem twoSourcesServer_routes :
    twoSourcesServer.handleRoutesPreview .plain .plain .plain .background (previewRequest "/routes/preview") =
      writeJSON 200 [] (PreviewLib.plain.encodeRoutes
        ⟨"m", 1, [⟨"b", "http://h", "http", ⟨"b", 0, 0⟩⟩]⟩) := by
  have source : twoSourcesServer.registry =
      some (Registry.after .plain [.upsert (examplePeer "b" "b") 0]) := rfl
  have query : positiveIntQuery .plain (previewRequest "/routes/preview") "layers" = .ok 1 := by
    decide +kernel
  have model : PreviewLib.plain.queryGet (previewRequest "/routes/preview").url "model" = "m" := by
    decide +kernel
  have previewed : previewFromRegistry .plain .background
      (some (Registry.after .plain [.upsert (examplePeer "b" "b") 0])) "m" 1 =
        .ok ⟨"m", 1, [⟨"b", "http://h", "http", ⟨"b", 0, 0⟩⟩]⟩ := by
    decide +kernel
  rw [handleRoutesPreview, if_neg (by decide), query]
  simp only [source, previewed, model]

/-- Both previews answer 200, one with the layer on the capability's device, the other with the layer on
the registered peer's. -/
theorem previews_differ_with_registry :
    ∃ placement preview,
      twoSourcesServer.handlePlacementPreview .plain .plain .plain (previewRequest "/placement/preview") =
        writeJSON 200 [] (PreviewLib.plain.encodePlacement placement) ∧
      twoSourcesServer.handleRoutesPreview .plain .plain .plain .background
          (previewRequest "/routes/preview") =
        writeJSON 200 [] (PreviewLib.plain.encodeRoutes preview) ∧
      placement.shards = [⟨"a", 0, 0⟩] ∧ preview.routes.map RouteEntry.shard = [⟨"b", 0, 0⟩] :=
  ⟨_, _, twoSourcesServer_placement, twoSourcesServer_routes, rfl, rfl⟩

/-- The two previews of that server, through its handler. -/
theorem previews_of_sources_two :
    ∃ placement preview,
      (twoSourcesServer.handler .plain .plain .plain .background (fun _ state => (⟨404, [], []⟩, state))
          (previewRequest "/placement/preview") ()).1 =
        writeJSON 200 [] (PreviewLib.plain.encodePlacement placement) ∧
      (twoSourcesServer.handler .plain .plain .plain .background (fun _ state => (⟨404, [], []⟩, state))
          (previewRequest "/routes/preview") ()).1 =
        writeJSON 200 [] (PreviewLib.plain.encodeRoutes preview) ∧
      PreviewsOfSources .plain twoSourcesServer placement preview := by
  apply previews_of_sources .plain .plain .plain twoSourcesServer .background _ ()
    (previewRequest "/placement/preview") (previewRequest "/routes/preview") rfl rfl rfl rfl
  · have answer := congrArg HttpResponse.status twoSourcesServer_placement
    simpa [handler, Server.handler, previewRequest, writeJSON] using answer
  · have answer := congrArg HttpResponse.status twoSourcesServer_routes
    simpa [handler, Server.handler, previewRequest, writeJSON] using answer

end PlanningServer

end GoExotic
