/-
Module: GoExotic.Model.PlanningServer
Purpose: Package server: the configuration of the planning previews, the handlers of
  `/placement/preview` and `/routes/preview`, and the handler of the server with both of them.
Trusted boundary: `Get` on the query of a URL, and the JSON of the previews
Main exports: PlacementPreview, PreviewLib, PlanningServer, newPlanningServer, withRegistry,
  positiveIntQuery, PlanningServer.handlePlacementPreview, PlanningServer.handleRoutesPreview,
  PlanningServer.handler, PreviewLib.plain
-/
import GoExotic.Model.Server

namespace GoExotic

/-- `PlacementPreview`: the wire-facing representation of a shard plan. -/
structure PlacementPreview where
  modelID : String
  layers : Int
  shards : List Shard
deriving DecidableEq, Repr

/-- The library parameter: `r.URL.Query().Get`, and JSON for the two previews. -/
structure PreviewLib where
  queryGet : Url → String → String
  encodePlacement : PlacementPreview → Except GoError (List UInt8)
  encodeRoutes : RoutePreview → Except GoError (List UInt8)

/-! ### Construction -/

/-- `cloneMetadata`. -/
def cloneMetadata (metadata : GoMap String) : GoMap String :=
  if metadata.entries.length = 0 then ∅
  else metadata.entries.foldl (fun out entry => out.insert entry.1 entry.2) ∅

/-- The loop of `New` and of `capabilitiesCopy` over the capabilities. -/
def copyCapabilities (capabilities : List Capability) : List Capability :=
  capabilities.map fun cap => { cap with metadata := cloneMetadata cap.metadata }

variable {W : Type}

/-- `Server`, with the fields the previews read besides those of shard execution; a nil registry is
`none`. -/
structure PlanningServer (W : Type) extends Server W where
  capabilities : List Capability
  registry : Option Registry

/-- An `Option` of `New`. -/
abbrev PlanningOption (W : Type) := PlanningServer W → PlanningServer W

/-- `WithRegistry`. -/
def withRegistry (registry : Option Registry) : PlanningOption W := fun s => { s with registry := registry }

/-- An option that only sets fields of shard execution. -/
def PlanningOption.ofServerOption (opt : ServerOption W) : PlanningOption W := fun s =>
  { s with toServer := opt s.toServer }

/-- `New`, with the capabilities and the fields of the previews; a nil option is `none`. -/
def newPlanningServer (capabilities : List Capability) (opts : List (Option (PlanningOption W))) :
    PlanningServer W :=
  opts.foldl (fun s opt =>
    match opt with
    | none => s
    | some apply => apply s) ⟨⟨none, 0⟩, copyCapabilities capabilities, none⟩

/-! ### Queries -/

/-- The value of a text of decimal digits. -/
def decimalValue (text : List Char) : Option Int :=
  if text = [] ∨ ¬ text.all Char.isDigit then none else some (Nat.ofDigitChars 10 text 0)

/-- `strconv.Atoi`; an error is `none`. -/
def atoi (s : String) : Option Int :=
  let value := match s.toList with
    | '-' :: text => (decimalValue text).map fun magnitude => -magnitude
    | '+' :: text => decimalValue text
    | text => decimalValue text
  value.filter fun n => decide (IsInt n)

/-- `positiveIntQuery`. -/
def positiveIntQuery (lib : PreviewLib) (r : HttpRequest) (name : String) : Except GoError Int :=
  match atoi (lib.queryGet r.url name) with
  | none => .error (.errorf "%s must be a positive integer" [.str name])
  | some parsed =>
      if parsed ≤ 0 then .error (.errorf "%s must be a positive integer" [.str name]) else .ok parsed

/-! ### Handlers -/

namespace PlanningServer

/-- `capabilitiesCopy`. -/
def capabilitiesCopy (s : PlanningServer W) : List Capability := copyCapabilities s.capabilities

section Handlers

variable (go : GoLib) (wire : WireLib) (lib : PreviewLib) (s : PlanningServer W) (ctx : Ctx)

/-- `handlePlacementPreview`. -/
def handlePlacementPreview (r : HttpRequest) : HttpResponse :=
  if r.method ≠ "GET" then writeMethodNotAllowed wire ["GET"]
  else
    match positiveIntQuery lib r "layers" with
    | .error err => writeError wire 400 [] (wire.errorText err)
    | .ok layers =>
        let devices := s.capabilities.map Capability.device
        match newPlan go devices layers with
        | .error err => writeError wire 400 [] (wire.errorText err)
        | .ok plan => writeJSON 200 [] (lib.encodePlacement ⟨lib.queryGet r.url "model", layers, plan.shards⟩)

/-- `handleRoutesPreview`, with the context of the request. -/
def handleRoutesPreview (r : HttpRequest) : HttpResponse :=
  if r.method ≠ "GET" then writeMethodNotAllowed wire ["GET"]
  else
    match positiveIntQuery lib r "layers" with
    | .error err => writeError wire 400 [] (wire.errorText err)
    | .ok layers =>
        match s.registry with
        | some registry =>
            match previewFromRegistry go ctx (some registry) (lib.queryGet r.url "model") layers with
            | .error err => writeError wire 400 [] (wire.errorText err)
            | .ok preview => writeJSON 200 [] (lib.encodeRoutes preview)
        | none =>
            match previewFromCapabilities go ctx s.capabilitiesCopy (lib.queryGet r.url "model") layers with
            | .error err => writeError wire 400 [] (wire.errorText err)
            | .ok preview => writeJSON 200 [] (lib.encodeRoutes preview)

/-- `Handler`, with `other` for the paths besides shard execution and the planning previews. -/
def handler (other : Handler W) : Handler W :=
  s.toServer.handler wire ctx fun r state =>
    if r.url.path = "/placement/preview" then (s.handlePlacementPreview go wire lib r, state)
    else if r.url.path = "/routes/preview" then (s.handleRoutesPreview go wire lib ctx r, state)
    else other r state

end Handlers

end PlanningServer

/-! ### The JSON of the previews -/

open Json

/-- A text that starts with an opening brace starts with no closing bracket. -/
theorem opens_object {text rest : List Char} : ('\x7b' :: text ++ rest).head? ≠ some ']' := by
  rw [List.cons_append, List.head?_cons]
  decide

/-- `PlacementPreview` as JSON. -/
def placementCodec : Codec PlacementPreview :=
  ((Codec.string.field "model_id").comma ((Codec.int.field "layers").comma
    ((shardCodec.array fun _ _ => opens_object).field "shards"))).object.via
    (fun p => (p.modelID, p.layers, p.shards)) (fun (model, layers, shards) => some ⟨model, layers, shards⟩)
    fun _ => rfl

/-- `RouteEntry` as JSON. -/
def entryCodec : Codec RouteEntry :=
  ((Codec.string.field "peer_id").comma ((Codec.string.field "address").comma
    ((Codec.string.field "transport").comma (shardCodec.field "shard")))).object.via
    (fun e => (e.peerID, e.address, e.transport, e.shard))
    (fun (peer, address, transport, shard) => some ⟨peer, address, transport, shard⟩)
    fun _ => rfl

/-- `RoutePreview` as JSON. -/
def routesCodec : Codec RoutePreview :=
  ((Codec.string.field "model_id").comma ((Codec.int.field "layers").comma
    ((entryCodec.array fun _ _ => opens_object).field "routes"))).object.via
    (fun p => (p.modelID, p.layers, p.routes)) (fun (model, layers, routes) => some ⟨model, layers, routes⟩)
    fun _ => rfl

/-- The value of a key in a query without escapes. -/
def plainQueryGet (url : Url) (key : String) : String :=
  let pairs := (url.rawQuery.toList.splitOn '&').map fun pair =>
    (String.ofList (pair.takeWhile fun c => c != '='), String.ofList ((pair.dropWhile fun c => c != '=').drop 1))
  (pairs.lookup key).getD ""

/-- A library that reads queries without escapes and writes compact JSON. -/
def PreviewLib.plain : PreviewLib where
  queryGet := plainQueryGet
  encodePlacement p := .ok (toBytes (placementCodec.write p ++ ['\n']))
  encodeRoutes p := .ok (toBytes (routesCodec.write p ++ ['\n']))

example : plainQueryGet ⟨"http", "h", "/p", "model=m&layers=4"⟩ "layers" = "4" := by decide +kernel

example : (atoi "+12", atoi "-3", atoi "", atoi "9223372036854775808") = (some 12, some (-3), none, none) := by
  decide +kernel

end GoExotic
