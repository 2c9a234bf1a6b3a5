/-
Module: GoExotic.Model.WebAPI
Purpose: The server as a whole: all fields of `Server`, all handlers of `Handler` behind its mux, and the
  process that `serve` starts, with a layer executor over a loaded model or without one.
Trusted boundary: net/http's mux and file server, the clock, the JSON of the responses, go-pherence's loader
Main exports: View, Endpoint, ServerLib, WebAPI, WebAPI.view, WebAPI.serveHTTP, loadLocalModel, cacheWorker,
  runServe
-/
import GoExotic.Model.Advertise
import GoExotic.Model.LocalModels
import GoExotic.Model.StaticFiles

namespace GoExotic

/-- The patterns whose handlers only read. -/
inductive View where
  | web
  | static
  | staticTree
  | health
  | uiStatus
  | capabilities
  | localModels
  | modelHelpers
  | placementPreview
  | routesPreview
deriving DecidableEq, Repr

/-- The patterns `Handler` registers. -/
inductive Endpoint where
  | view (v : View)
  | shardsExecute
deriving DecidableEq, Repr

/-- The pattern of an endpoint. -/
def Endpoint.pattern : Endpoint → String
  | .view .web => "/"
  | .view .static => "/static"
  | .view .staticTree => "/static/"
  | .view .health => "/health"
  | .view .uiStatus => "/ui/status"
  | .view .capabilities => "/capabilities"
  | .view .localModels => "/models/local"
  | .view .modelHelpers => "/models/helpers"
  | .view .placementPreview => "/placement/preview"
  | .view .routesPreview => "/routes/preview"
  | .shardsExecute => "/shards/execute"

/-- `UIStatusResponse`. -/
structure UIStatusResponse where
  name : String
  apiVersion : String
  webUI : Bool
  startedAt : String
  uptimeSeconds : Int
  webBundle : String
  endpoints : List String
  boundary : String
deriving DecidableEq, Repr

/-- The library parameter of the server: besides those of its handlers, the pattern its mux picks for a request
or the answer the mux gives itself, `http.ServeFile` with the header set before, `http.NotFound`, the texts of
times, the short hash of a file, the files on the disk, and the JSON of the other responses. -/
structure ServerLib extends WireLib, PreviewLib, InventoryLib where
  mux : HttpRequest → Except HttpResponse Endpoint
  serveFile : Header → HttpRequest → String → HttpResponse
  notFound : HttpRequest → HttpResponse
  formatTime : Int → String
  wholeSeconds : Int → Int
  shortHash : List UInt8 → String
  disk : Disk
  encodeHealth : String → Except GoError (List UInt8)
  encodeStatus : UIStatusResponse → Except GoError (List UInt8)
  encodeCapabilities : List Capability → Except GoError (List UInt8)

variable {W : Type}

/-- `Server`, with all its fields. -/
structure WebAPI (W : Type) extends PlanningServer W, WebServer where
  startedAt : Int

/-- An `Option` of `New`. -/
abbrev WebOption (W : Type) := WebAPI W → WebAPI W

/-- `WithWebDir`. -/
def withWebDir (dir : String) : WebOption W := fun s => { s with webDir := dir }

/-- An option that only sets fields of shard execution. -/
def WebOption.ofServerOption (opt : ServerOption W) : WebOption W := fun s =>
  { s with toServer := opt s.toServer }

/-- `New`, at a reading of the clock; a nil option is `none`. -/
def newWebAPI (now : Int) (capabilities : List Capability) (opts : List (Option (WebOption W))) : WebAPI W :=
  opts.foldl (fun s opt =>
    match opt with
    | none => s
    | some apply => apply s) ⟨⟨⟨none, 0⟩, copyCapabilities capabilities, none⟩, ⟨""⟩, now⟩

namespace WebAPI

section Handlers

variable (go : GoLib) (lib : ServerLib) (s : WebAPI W) (ctx : Ctx) (now : Int) (r : HttpRequest)

/-- A response of `handleWeb` or `handleStatic`, with the header of `setWebCacheHeaders`. -/
def respondFile : FileAnswer → HttpResponse
  | .notFound => lib.notFound r
  | .methodNotAllowed methods => writeMethodNotAllowed lib.toWireLib methods
  | .serveFile file => lib.serveFile (Header.set [] "Cache-Control" "no-cache") r file

/-- `handleHealth`. -/
def handleHealth : HttpResponse :=
  if r.method ≠ "GET" then writeMethodNotAllowed lib.toWireLib ["GET"]
  else writeJSON 200 [] (lib.encodeHealth "ok")

/-- The boundary the status tells. -/
def boundary : String :=
  if s.shardWorker.isSome ∧ s.totalLayers > 0 then "local shard execution explicitly wired"
  else "shard execution disabled"

/-- `handleUIStatus`. -/
def handleUIStatus : HttpResponse :=
  if r.method ≠ "GET" then writeMethodNotAllowed lib.toWireLib ["GET"]
  else
    writeJSON 200 [] (lib.encodeStatus {
      name := "go-exotic"
      apiVersion := "v1alpha"
      webUI := true
      startedAt := lib.formatTime s.startedAt
      uptimeSeconds := lib.wholeSeconds (now - s.startedAt)
      webBundle := s.toWebServer.webBundleID lib.disk lib.shortHash
      endpoints := ["GET /", "GET /static/*", "GET /health", "GET /ui/status", "GET /capabilities",
        "GET /models/local", "GET /models/helpers", "GET /placement/preview", "GET /routes/preview",
        "POST /shards/execute (gated)"]
      boundary := s.boundary })

/-- `handleCapabilities`. -/
def handleCapabilities : HttpResponse :=
  if r.method ≠ "GET" then writeMethodNotAllowed lib.toWireLib ["GET"]
  else writeJSON 200 [] (lib.encodeCapabilities s.capabilitiesCopy)

/-- The handlers that only read, at a reading of the clock. -/
def view : View → HttpResponse
  | .web => respondFile lib r (s.toWebServer.handleWeb lib.disk r.method r.url.path)
  | .static => respondFile lib r (s.toWebServer.handleStatic lib.disk r.method r.url.path)
  | .staticTree => respondFile lib r (s.toWebServer.handleStatic lib.disk r.method r.url.path)
  | .health => handleHealth lib r
  | .uiStatus => s.handleUIStatus lib now r
  | .capabilities => s.handleCapabilities lib r
  | .localModels => handleLocalModels go lib.toWireLib lib.toInventoryLib r
  | .modelHelpers => handleModelHelpers go lib.toWireLib lib.toHelperLib r
  | .placementPreview => s.toPlanningServer.handlePlacementPreview go lib.toWireLib lib.toPreviewLib r
  | .routesPreview => s.toPlanningServer.handleRoutesPreview go lib.toWireLib lib.toPreviewLib ctx r

end Handlers

/-- `ServeHTTP` of `Handler`, with the context of the request and a reading of the clock. -/
def serveHTTP (go : GoLib) (lib : ServerLib) (s : WebAPI W) (ctx : Ctx) (now : Int) : Handler W := fun r state =>
  match lib.mux r with
  | .error resp => (resp, state)
  | .ok (.view v) => (s.view go lib ctx now r v, state)
  | .ok .shardsExecute => s.toServer.handleShardExecute lib.toWireLib ctx r state

end WebAPI

/-! ### Command serve -/

/-- `cleanModelPath`. -/
def cleanModelPath (modelPath : String) : Except GoError String := do
  failIf (trimSpace modelPath = "") (.errorf "empty model path" [])
  return trimSpace modelPath

/-- `LoadLocalModel`, with go-pherence's `LoadLlama`; a nil model is `none`. -/
def loadLocalModel (loadLlama : String → Except GoError (Option LlamaModel)) (modelPath : String) :
    Except GoError (Option LlamaModel) := do
  let modelPath ← cleanModelPath modelPath
  loadLlama modelPath

/-- The `LayerExecutorWorker` of `serve`, as a worker on its caches. -/
def cacheWorker (e : PherenceLayerExecutor) (totalLayers : Int) : Worker KVCache := fun ctx req cache =>
  let (result, w) := LayerExecutorWorker.executeShard ⟨some e.executeLayerRange, cache, totalLayers⟩ ctx req
  (result, w.kvCache)

/-- `runServe` up to the server it starts, with the caches its worker has then. -/
def runServe (loadLlama : String → Except GoError (Option LlamaModel)) (now : Int) (addr shardModel : String) :
    Except GoError (WebAPI KVCache × KVCache) := do
  failIf (trimSpace addr = "") (.errorf "empty listen address" [])
  let capabilities := localCapabilities [advertiseHTTPAddress addr]
  if trimSpace shardModel ≠ "" then
    let model ← loadLocalModel loadLlama shardModel
    let exec ← newPherenceLayerExecutor model
    match model with
    | none => .error (.errorf "nil model" [])
    | some model =>
        let option := WebOption.ofServerOption
          (withShardExecution (some (cacheWorker exec model.numLayers)) model.numLayers)
        return (newWebAPI now capabilities [some option], .fresh model.numLayers.toNat)
  else return (newWebAPI now capabilities [], .fresh 0)

end GoExotic
