/-
Module: GoExotic.Proofs.ConcurrentServer
Purpose: The process that `serve` starts, with its requests served at the same time. A shard execution is cut at
  its accesses of the caches, and executions and all other requests interleave there without a lock. As long
  as executions in flight at a time run different layers, every interleaving is linearizable: the requests
  in the order of their responses, served one at a time, get the same responses and leave the same caches.
Trusted boundary: go-pherence, through the hypothesis ForwardsLocally
Main exports: forwardLayersThread, executeThread, run_executeThread, shardThread, ServesWith, runServe_servesWith,
  WebAPI.thread, ExecutesLayer, serve_linearizable
-/
import GoExotic.Model.WebAPI
import GoExotic.Proofs.LocalModels
import GoExotic.Proofs.SharedCaches
import GoExotic.Theory.Threads

namespace GoExotic

open Threads SlotStore Linearization

/-! ### One execution, cut at its accesses of the caches -/

/-- How the loop goes on after `ForwardLayer`. -/
def afterLayer (layer : Int) (rest : List Float32Bits → Thread KVCache (Except GoError (List Float32Bits))) :
    Option (List Float32Bits) → Thread KVCache (Except GoError (List Float32Bits))
  | none => .ret (.error (.errorf "forward layer %d failed" [.int layer]))
  | some hidden => rest hidden

/-- The loop of `ExecuteLayerRange`: each `ForwardLayer` is one action. -/
def forwardLayersThread (m : LlamaModel) (ctx : Ctx) (position : Int) :
    Nat → Nat → Int → List Float32Bits → Thread KVCache (Except GoError (List Float32Bits))
  | 0, _, _, hidden => .ret (.ok hidden)
  | remaining + 1, poll, layer, hidden =>
      match ctx.check poll with
      | .error err => .ret (.error err)
      | .ok () =>
          .act (fun cache => (m.forwardLayer hidden layer position position cache).2) fun cache =>
            afterLayer layer (forwardLayersThread m ctx position remaining (poll + 1) (layer + 1))
              (m.forwardLayer hidden layer position position cache).1

/-- `ExecuteLayerRange`: the checks look at the sizes of the caches, then the loop runs. -/
def executeThread (e : PherenceLayerExecutor) (totalLayers : Int) (ctx : Ctx) (req : ShardExecutionRequest) :
    Thread KVCache (Except GoError ShardExecutionResponse) :=
  .act id fun cache =>
    match e.checkLayerRange ctx req cache totalLayers with
    | .error err => .ret (.error err)
    | .ok m => (forwardLayersThread m (ctx.call 1) req.position
        (req.shard.endLayer + 1 - req.shard.startLayer).toNat 0 req.shard.startLayer req.activation).map
          (Except.map (respond req))

variable {m : LlamaModel} {e : PherenceLayerExecutor} {totalLayers : Int}

theorem run_forwardLayersThread (ctx : Ctx) (position : Int) (remaining poll : Nat) (layer : Int)
    (hidden : List Float32Bits) (cache : KVCache) :
    (forwardLayersThread m ctx position remaining poll layer hidden).run cache =
      forwardLayers m ctx position remaining poll layer hidden cache := by
  induction remaining generalizing poll layer hidden cache with
  | zero => rfl
  | succ remaining inductionHypothesis =>
      rw [forwardLayersThread, forwardLayers]
      cases ctx.check poll with
      | error err => rfl
      | ok u =>
          dsimp only
          rw [Thread.run]
          rcases m.forwardLayer hidden layer position position cache with ⟨_ | out, after⟩
          · rfl
          · exact inductionHypothesis (poll + 1) (layer + 1) out after

/-- By itself, the thread does what the execution does. -/
theorem run_executeThread (ctx : Ctx) (req : ShardExecutionRequest) (cache : KVCache) :
    (executeThread e totalLayers ctx req).run cache = e.executeLayerRange ctx req cache totalLayers := by
  rw [executeThread, Thread.run, PherenceLayerExecutor.executeLayerRange]
  cases e.checkLayerRange ctx req cache totalLayers with
  | error err => rfl
  | ok m =>
      dsimp only [id]
      rw [Thread.run_map, run_forwardLayersThread]
      rcases forwardLayers m (ctx.call 1) req.position (req.shard.endLayer + 1 - req.shard.startLayer).toNat 0
        req.shard.startLayer req.activation cache with ⟨err | hidden, after⟩ <;> rfl

/-- The loop works on the slots of its layers. -/
theorem forwardLayersThread_within (forwards : m.ForwardsLocally) (ctx : Ctx) (position : Int)
    {inside : Nat → Prop} (remaining poll layer : Nat) (hidden : List Float32Bits)
    (covers : ∀ l, layer ≤ l → l < layer + remaining → inside l) :
    (forwardLayersThread m ctx position remaining poll layer hidden).Within KVCache.slot inside := by
  induction remaining generalizing poll layer hidden with
  | zero => exact .ret _
  | succ remaining inductionHypothesis =>
      rw [forwardLayersThread]
      cases ctx.check poll with
      | error err => exact .ret _
      | ok u =>
          have one := forwards.footprint layer hidden position
          refine .act ((one.mono fun l same => covers l (by omega) (by omega)).map _) ?_
          intro cache
          cases (m.forwardLayer hidden layer position position cache).1 with
          | none => exact .ret _
          | some out =>
              have next := inductionHypothesis (poll + 1) (layer + 1) out fun l above below =>
                covers l (by omega) (by omega)
              rwa [Nat.cast_succ] at next

/-- The checks of an execution see one slot of its layers at most. -/
theorem checkLayerRange_congr {ctx : Ctx} {req : ShardExecutionRequest} {s t : KVCache}
    (agree : AgreeOn KVCache.slot (RunsLayer e totalLayers (ctx, req)) s t) :
    e.checkLayerRange ctx req s totalLayers = e.checkLayerRange ctx req t totalLayers := by
  rw [PherenceLayerExecutor.checkLayerRange, PherenceLayerExecutor.checkLayerRange]
  cases checked : e.checkRequest ctx req totalLayers with
  | error err => rfl
  | ok m =>
      obtain ⟨-, -, -, valid, -⟩ := checkRequest_eq_ok.mp checked
      obtain ⟨-, -, start, nonempty, -⟩ := Shard.validate_eq_ok.mp (ShardExecutionRequest.shard_valid valid)
      have first : RunsLayer e totalLayers (ctx, req) req.shard.startLayer.toNat := by
        refine ⟨⟨m, checked⟩, ?_⟩
        rw [Shard.mem_layers start]
        omega
      obtain ⟨-, sameK, sameV⟩ := KVCache.sized_congr m (agree _ first)
      rw [ok_bind, ok_bind, sameK, sameV]

/-- An execution works on the slots of the layers it runs. -/
theorem executeThread_within (forwards : ∀ m, e.model = some m → m.ForwardsLocally) (ctx : Ctx)
    (req : ShardExecutionRequest) :
    (executeThread e totalLayers ctx req).Within KVCache.slot (RunsLayer e totalLayers (ctx, req)) := by
  refine .act (Footprint.read fun s t agree => by rw [checkLayerRange_congr agree]) ?_
  intro cache
  cases checked : e.checkLayerRange ctx req cache totalLayers with
  | error err => exact .ret _
  | ok m =>
      have accepted : e.checkRequest ctx req totalLayers = .ok m := by
        simp only [PherenceLayerExecutor.checkLayerRange, bind_eq_ok, failIf_eq_ok, exists_const, pure_eq_ok,
          Except.ok.injEq] at checked
        obtain ⟨other, accepted, -, rfl⟩ := checked
        exact accepted
      obtain ⟨isModel, -, -, valid, -⟩ := checkRequest_eq_ok.mp accepted
      obtain ⟨-, -, start, nonempty, -⟩ := Shard.validate_eq_ok.mp (ShardExecutionRequest.shard_valid valid)
      have covers : ∀ l, req.shard.startLayer.toNat ≤ l →
          l < req.shard.startLayer.toNat + (req.shard.endLayer + 1 - req.shard.startLayer).toNat →
            RunsLayer e totalLayers (ctx, req) l := by
        intro l above below
        refine ⟨⟨m, accepted⟩, ?_⟩
        rw [Shard.mem_layers start]
        omega
      have loop := forwardLayersThread_within (forwards m isModel) (ctx.call 1) req.position _ 0 _ req.activation
        covers
      rw [Int.toNat_of_nonneg start] at loop
      exact loop.map _

/-! ### One request -/

/-- `handleShardExecute` of a server with a model or without one. -/
def shardThread (wire : WireLib) (loaded : Option LlamaModel) (ctx : Ctx) (r : HttpRequest) :
    Thread KVCache HttpResponse :=
  if r.method ≠ "POST" then .ret (writeMethodNotAllowed wire ["POST"])
  else
    match loaded with
    | none => .ret (writeError wire 503 [] "shard execution disabled")
    | some m =>
        if m.numLayers ≤ 0 then .ret (writeError wire 503 [] "shard execution disabled")
        else
          match readShardRequest wire m.numLayers r with
          | .error msg => .ret (writeError wire 400 [] msg)
          | .ok req => (executeThread ⟨some m⟩ m.numLayers ctx req).map (writeShardResponse wire)

/-- The server executes the layers of a model, or of none. -/
structure ServesWith (s : WebAPI KVCache) (loaded : Option LlamaModel) : Prop where
  worker : s.shardWorker = loaded.map fun m => cacheWorker ⟨some m⟩ m.numLayers
  layers : ∀ m, loaded = some m → s.totalLayers = m.numLayers

/-- A request as it arrives, with its context and the clock. -/
structure Incoming where
  ctx : Ctx
  now : Int
  request : HttpRequest

/-- A request served at once. -/
def WebAPI.serve (go : GoLib) (lib : ServerLib) (s : WebAPI KVCache) (call : Incoming) :
    KVCache → HttpResponse × KVCache :=
  s.serveHTTP go lib call.ctx call.now call.request

/-- `ServeHTTP`, cut at its accesses of the caches. -/
def WebAPI.thread (go : GoLib) (lib : ServerLib) (s : WebAPI KVCache) (loaded : Option LlamaModel)
    (call : Incoming) : Thread KVCache HttpResponse :=
  match lib.mux call.request with
  | .error resp => .ret resp
  | .ok (.view v) => .ret (s.view go lib call.ctx call.now call.request v)
  | .ok .shardsExecute => shardThread lib.toWireLib loaded call.ctx call.request

/-- The request is one for an execution that may run the layer. -/
def ExecutesLayer (lib : ServerLib) (loaded : Option LlamaModel) (call : Incoming) (layer : Nat) : Prop :=
  lib.mux call.request = .ok .shardsExecute ∧ call.request.method = "POST" ∧ ∃ m req, loaded = some m ∧
    readShardRequest lib.toWireLib m.numLayers call.request = .ok req ∧
    RunsLayer ⟨some m⟩ m.numLayers (call.ctx, req) layer

variable {go : GoLib} {lib : ServerLib} {s : WebAPI KVCache} {loaded : Option LlamaModel}

theorem cacheWorker_eq (ctx : Ctx) (req : ShardExecutionRequest) (cache : KVCache) :
    cacheWorker e totalLayers ctx req cache = e.executeLayerRange ctx req cache totalLayers := rfl

theorem run_shardThread (serves : ServesWith s loaded) (wire : WireLib) (ctx : Ctx) (r : HttpRequest)
    (cache : KVCache) :
    (shardThread wire loaded ctx r).run cache = s.toServer.handleShardExecute wire ctx r cache := by
  rw [shardThread.eq_def, Server.handleShardExecute, serves.worker]
  by_cases notPost : r.method ≠ "POST"
  · rw [if_pos notPost, if_pos notPost]
    rfl
  · rw [if_neg notPost, if_neg notPost]
    cases loaded with
    | none => rfl
    | some m =>
        rw [serves.layers m rfl]
        dsimp only [Option.map_some]
        by_cases off : m.numLayers ≤ 0
        · rw [if_pos off, if_pos off]
          rfl
        · rw [if_neg off, if_neg off]
          cases readShardRequest wire m.numLayers r with
          | error msg => rfl
          | ok req =>
              dsimp only
              rw [Thread.run_map, run_executeThread, cacheWorker_eq]

/-- By itself, the thread of a request serves it. -/
theorem run_thread (serves : ServesWith s loaded) (call : Incoming) (cache : KVCache) :
    (s.thread go lib loaded call).run cache = s.serve go lib call cache := by
  rw [WebAPI.thread, WebAPI.serve, WebAPI.serveHTTP]
  cases lib.mux call.request with
  | error resp => rfl
  | ok endpoint =>
      cases endpoint with
      | view v => rfl
      | shardsExecute => exact run_shardThread serves lib.toWireLib call.ctx call.request cache

/-- A request works on the slots of the layers it executes, if any. -/
theorem thread_within (forwards : ∀ m, loaded = some m → m.ForwardsLocally) (call : Incoming) :
    (s.thread go lib loaded call).Within KVCache.slot (ExecutesLayer lib loaded call) := by
  rw [WebAPI.thread]
  cases routed : lib.mux call.request with
  | error resp => exact .ret _
  | ok endpoint =>
      cases endpoint with
      | view v => exact .ret _
      | shardsExecute =>
          dsimp only
          rw [shardThread.eq_def]
          by_cases notPost : call.request.method ≠ "POST"
          · rw [if_pos notPost]
            exact .ret _
          · rw [if_neg notPost]
            cases loaded with
            | none => exact .ret _
            | some m =>
                dsimp only
                by_cases off : m.numLayers ≤ 0
                · rw [if_pos off]
                  exact .ret _
                · rw [if_neg off]
                  cases read : readShardRequest lib.toWireLib m.numLayers call.request with
                  | error msg => exact .ret _
                  | ok req =>
                      have within : (executeThread ⟨some m⟩ m.numLayers call.ctx req).Within KVCache.slot _ :=
                        executeThread_within (fun other isModel => forwards other isModel) call.ctx req
                      have same : RunsLayer ⟨some m⟩ m.numLayers (call.ctx, req) =
                          ExecutesLayer lib (some m) call := by
                        funext layer
                        apply propext
                        constructor
                        · intro runs
                          exact ⟨routed, not_not.mp notPost, m, req, rfl, read, runs⟩
                        · rintro ⟨-, -, _, other, ⟨⟩, alsoRead, runs⟩
                          rw [read] at alsoRead
                          cases alsoRead
                          exact runs
                      rw [← same]
                      exact within.map _

/-! ### The process -/

/-- What `serve` starts executes the layers of the model it loaded, or of none without `-shard-model`; there are
caches for every layer. -/
theorem runServe_servesWith {loadLlama : String → Except GoError (Option LlamaModel)} {now : Int}
    {addr shardModel : String} {cache : KVCache} (started : runServe loadLlama now addr shardModel = .ok (s, cache)) :
    ∃ loaded, ServesWith s loaded ∧ (loaded = none ↔ trimSpace shardModel = "") ∧
      ∀ m, loaded = some m → loadLlama (trimSpace shardModel) = .ok (some m) ∧ 0 < m.hiddenSize ∧
        0 ≤ m.numLayers ∧ m.numLayers ≤ m.layers ∧ cache = .fresh m.numLayers.toNat := by
  simp only [runServe, bind_eq_ok, failIf_eq_ok, exists_const] at started
  obtain ⟨-, started⟩ := started
  by_cases blank : trimSpace shardModel = ""
  · rw [if_neg (not_not.mpr blank), pure_eq_ok, Except.ok.injEq, Prod.mk.injEq] at started
    obtain ⟨rfl, -⟩ := started
    refine ⟨none, ⟨rfl, ?_⟩, iff_of_true rfl blank, ?_⟩
    · rintro _ ⟨⟩
    · rintro _ ⟨⟩
  · rw [if_pos blank] at started
    simp only [bind_eq_ok, loadLocalModel, cleanModelPath, failIf_eq_ok, pure_eq_ok, Except.ok.injEq] at started
    obtain ⟨found, ⟨path, ⟨u, -, rfl⟩, isLoaded⟩, exec, made, rest⟩ := started
    cases found with
    | none => cases made
    | some m =>
        simp only [newPherenceLayerExecutor, bind_eq_ok, failIf_eq_ok, not_or, not_le, not_lt, pure_eq_ok,
          Except.ok.injEq, exists_const] at made
        obtain ⟨⟨hidden, layers, enough⟩, rfl⟩ := made
        dsimp only at rest
        cases rest
        refine ⟨some m, ⟨rfl, ?_⟩, iff_of_false (by simp) blank, ?_⟩
        · rintro _ ⟨⟩
          rfl
        · rintro _ ⟨⟩
          exact ⟨isLoaded, hidden, layers, enough, rfl⟩

/-- The process that `serve` starts is linearizable, as long as executions in flight at a time run different
layers: whatever the interleaving of its requests, there is an order of them in which they get the same responses
when served one at a time, which respects real time; and the caches of every layer that no execution in flight
runs hold what they hold then. -/
theorem serve_linearizable (go : GoLib) (lib : ServerLib) (loadLlama : String → Except GoError (Option LlamaModel))
    (now : Int) (addr shardModel : String) (s : WebAPI KVCache) (cache : KVCache)
    (started : runServe loadLlama now addr shardModel = .ok (s, cache))
    (forwards : ∀ m, loadLlama (trimSpace shardModel) = .ok (some m) → m.ForwardsLocally) :
    ∃ loaded, (loaded = none ↔ trimSpace shardModel = "") ∧
      (∀ m, loaded = some m → loadLlama (trimSpace shardModel) = .ok (some m)) ∧
      ∀ (steps : List (Threads.Step Incoming HttpResponse)) (p : Pool Incoming KVCache HttpResponse),
        Threads.Run (s.thread go lib loaded) (ExecutesLayer lib loaded) cache steps p →
          ∃ order, Linearizes (s.serve go lib) Eq cache (seen steps) order ∧
            ∀ layer, (∀ id call, p.InFlight id call → ¬ ExecutesLayer lib loaded call layer) →
              p.store.slot layer = (Runs.final (serveAt (s.serve go lib)) order cache).slot layer := by
  obtain ⟨loaded, serves, blank, isModel⟩ := runServe_servesWith started
  refine ⟨loaded, blank, fun m same => (isModel m same).1, ?_⟩
  intro steps p run
  have same : (fun call => (s.thread go lib loaded call).run) = s.serve go lib := by
    funext call cache
    exact run_thread serves call cache
  have within : ∀ call, (s.thread go lib loaded call).Within KVCache.slot (ExecutesLayer lib loaded call) :=
    fun call => thread_within (fun m loads => forwards m (isModel m loads).1) call
  exact same ▸ run.linearizable within

/-! ### Two executions at the same time -/

/-- A mux for paths without escapes that need no cleaning. -/
def plainMux (r : HttpRequest) : Except HttpResponse Endpoint :=
  match [("/health", Endpoint.view .health), ("/ui/status", .view .uiStatus), ("/capabilities", .view .capabilities),
      ("/models/local", .view .localModels), ("/models/helpers", .view .modelHelpers),
      ("/placement/preview", .view .placementPreview), ("/routes/preview", .view .routesPreview),
      ("/shards/execute", .shardsExecute), ("/static", .view .static)].lookup r.url.path with
  | some endpoint => .ok endpoint
  | none => .ok (.view (if hasPrefix r.url.path "/static/" then .staticTree else .web))

/-- A library over the files of a volume. -/
def ServerLib.ofVolume (v : Volume) : ServerLib where
  toWireLib := .plain
  toPreviewLib := .plain
  readDir := (InventoryLib.ofVolume v).readDir
  filepathMatch := starMatch
  encodeHelpers := (InventoryLib.ofVolume v).encodeHelpers
  listDir := (InventoryLib.ofVolume v).listDir
  encodeModels := (InventoryLib.ofVolume v).encodeModels
  mux := plainMux
  serveFile header _ file := ⟨200, header, (v.disk.readFile file.toList).getD []⟩
  notFound _ := ⟨404, [("Content-Type", "text/plain; charset=utf-8")], Json.toBytes "404 page not found\n".toList⟩
  formatTime ns := toString ns
  wholeSeconds ns := ns.tdiv 1000000000
  shortHash _ := ""
  disk := v.disk
  encodeHealth status := .ok (Json.toBytes (objectText [("status", Json.writeString status)] ++ ['\n']))
  encodeStatus status := .ok (Json.toBytes (objectText [("boundary", Json.writeString status.boundary)] ++ ['\n']))
  encodeCapabilities caps :=
    .ok (Json.toBytes (arrayText (caps.map fun cap => Json.writeString cap.peerID) ++ ['\n']))

/-- A model of two layers in one directory. -/
def loadRecall (path : String) : Except GoError (Option LlamaModel) :=
  if path = "models/smol" then .ok (some (recallModel 2)) else .error (.library "no such model")

/-- The server of `serve` with that model. -/
def recallServer : WebAPI KVCache :=
  newWebAPI 0 (localCapabilities [advertiseHTTPAddress ":8089"]) [some (WebOption.ofServerOption
    (withShardExecution (some (cacheWorker ⟨some (recallModel 2)⟩ (recallModel 2).numLayers))
      (recallModel 2).numLayers))]

/-- A request for one of its layers. -/
def layerPost (layer : Int) : Incoming :=
  ⟨.background, 0, "POST", ⟨"http", "h", "/shards/execute", ""⟩, [],
    Json.toBytes (requestCodec.write ⟨"s", "r", "m", ⟨"p", layer, layer⟩, 0, 1, ⟨activationEncodingF32LE, 1, [0, 0, 0, 0]⟩⟩)⟩

theorem readShardRequest_layerPost {layer : Int} (inside : layer = 0 ∨ layer = 1) :
    readShardRequest .plain 2 (layerPost layer).request = .ok (exampleRequest "s" layer layer) := by
  rcases inside with rfl | rfl
  · decide +kernel
  · decide +kernel

/-- The request executes its own layer only. -/
theorem executesLayer_layerPost {v : Volume} {layer : Int} (inside : layer = 0 ∨ layer = 1) {l : Nat}
    (executes : ExecutesLayer (.ofVolume v) (some (recallModel 2)) (layerPost layer) l) : (l : Int) = layer := by
  obtain ⟨-, -, _, req, ⟨⟩, read, -, member⟩ := executes
  have same : req = exampleRequest "s" layer layer :=
    Except.ok.inj (read.symm.trans (readShardRequest_layerPost inside))
  have start : 0 ≤ (exampleRequest "s" layer layer).shard.startLayer := by
    rcases inside with rfl | rfl <;> decide
  rw [same, Shard.mem_layers start] at member
  exact le_antisymm member.2 member.1

/-- The thread of a request for a layer. -/
theorem thread_layerPost {v : Volume} {layer : Int} (inside : layer = 0 ∨ layer = 1) :
    recallServer.thread .plain (.ofVolume v) (some (recallModel 2)) (layerPost layer) =
      (executeThread ⟨some (recallModel 2)⟩ 2 .background (exampleRequest "s" layer layer)).map
        (writeShardResponse .plain) := by
  have read : readShardRequest (ServerLib.ofVolume v).toWireLib (recallModel 2).numLayers
      (layerPost layer).request = .ok (exampleRequest "s" layer layer) := readShardRequest_layerPost inside
  have routed : (ServerLib.ofVolume v).mux (layerPost layer).request = .ok .shardsExecute := rfl
  have post : ¬ (layerPost layer).request.method ≠ "POST" := not_not.mpr rfl
  rw [WebAPI.thread, routed]
  dsimp only
  rw [shardThread.eq_def, if_neg post]
  dsimp only
  rw [if_neg (by decide : ¬ (recallModel 2).numLayers ≤ 0), read]
  rfl

/-- Two executions, of a layer each, both checked and neither finished. -/
def overlappingSteps : List (Threads.Step Incoming HttpResponse) :=
  [.invoke 0 (layerPost 0), .invoke 1 (layerPost 1), .act 1, .act 0]

/-- What is seen of them when both have returned, the later one first. -/
def overlapSeen (zero one : HttpResponse) : List (Event Incoming HttpResponse) :=
  [.invoke 0 (layerPost 0), .invoke 1 (layerPost 1), .respond 1 one, .respond 0 zero]

/-- Calls that use different slots and start with an action can be in flight together, and both return. -/
theorem exists_overlappingSteps {code : Incoming → Thread KVCache HttpResponse} {uses : Incoming → Nat → Prop}
    {cache : KVCache} (apart : ∀ layer, uses (layerPost 1) layer → ¬ uses (layerPost 0) layer)
    (acts : ∀ call ∈ [layerPost 0, layerPost 1], ∃ next, code call = .act id next) :
    ∃ rest p zero one, Threads.Run code uses cache (overlappingSteps ++ rest) p ∧
      seen (overlappingSteps ++ rest) = overlapSeen zero one := by
  obtain ⟨firstNext, firstActs⟩ := acts (layerPost 0) (by simp)
  obtain ⟨secondNext, secondActs⟩ := acts (layerPost 1) (by simp)
  have first : Threads.Run code uses cache [.invoke 0 (layerPost 0)]
      ⟨cache, Function.update (fun _ => .idle) 0 (.running (layerPost 0) (code (layerPost 0)))⟩ := by
    refine .invoke .start rfl ?_
    rintro other call' ⟨thread, running⟩
    cases running
  have both : Threads.Run code uses cache [.invoke 0 (layerPost 0), .invoke 1 (layerPost 1)]
      ⟨cache, Function.update (Function.update (fun _ => .idle) 0 (.running (layerPost 0) (code (layerPost 0))))
        1 (.running (layerPost 1) (code (layerPost 1)))⟩ := by
    refine .invoke first rfl ?_
    intro other call' inFlight
    rcases Pool.inFlight_update (p := ⟨cache, fun _ => .idle⟩) inFlight with ⟨-, thread, isFirst⟩ | ⟨-, thread, running⟩
    · cases isFirst
      exact apart
    · cases running
  rw [firstActs, secondActs] at both
  have acted : Threads.Run code uses cache overlappingSteps _ := .act (.act both rfl) rfl
  obtain ⟨oneActs, one, _, oneSilent, oneDone⟩ := acted.finishes 1 rfl
  obtain ⟨zeroActs, zero, _, zeroSilent, zeroDone⟩ := oneDone.finishes 0 rfl
  rw [List.append_assoc] at zeroDone
  refine ⟨_, _, zero, one, zeroDone, ?_⟩
  rw [seen] at oneSilent zeroSilent ⊢
  simp only [List.filterMap_append, oneSilent, zeroSilent]
  rfl

/-- The server starts with the model. -/
theorem recallServer_started :
    runServe loadRecall 0 ":8089" "models/smol" = .ok (recallServer, .fresh 2) ∧
      trimSpace "models/smol" = "models/smol" := by
  have given : ¬ trimSpace ":8089" = "" := by decide +kernel
  have model : trimSpace "models/smol" = "models/smol" := by decide +kernel
  refine ⟨?_, model⟩
  simp only [runServe, failIf_of_not given, ok_bind, model, loadLocalModel, cleanModelPath]
  rfl

/-- Its model is the one that loads. -/
theorem loaded_recall {loaded : Option LlamaModel} (isBlank : loaded = none ↔ trimSpace "models/smol" = "")
    (loads : ∀ m, loaded = some m → loadRecall (trimSpace "models/smol") = .ok (some m)) :
    loaded = some (recallModel 2) := by
  rw [recallServer_started.2] at isBlank loads
  cases loaded with
  | none => exact absurd (isBlank.mp rfl) (by decide)
  | some m =>
      have same := loads m rfl
      cases same
      rfl

theorem loadRecall_forwards {m : LlamaModel} (loads : loadRecall (trimSpace "models/smol") = .ok (some m)) :
    m.ForwardsLocally := by
  rw [recallServer_started.2] at loads
  cases loads
  exact recallModel_forwardsLocally 2

/-- The two requests execute different layers. -/
theorem layerPost_apart (v : Volume) (layer : Nat) :
    ExecutesLayer (.ofVolume v) (some (recallModel 2)) (layerPost 1) layer →
      ¬ ExecutesLayer (.ofVolume v) (some (recallModel 2)) (layerPost 0) layer := by
  intro runsOne runsZero
  have isOne := executesLayer_layerPost (Or.inr rfl) runsOne
  have isZero := executesLayer_layerPost (Or.inl rfl) runsZero
  omega

theorem overlappingSteps_run (v : Volume) : ∃ rest p zero one, Threads.Run
    (recallServer.thread .plain (.ofVolume v) (some (recallModel 2)))
    (ExecutesLayer (.ofVolume v) (some (recallModel 2))) (.fresh 2) (overlappingSteps ++ rest) p ∧
      seen (overlappingSteps ++ rest) = overlapSeen zero one := by
  apply exists_overlappingSteps (layerPost_apart v)
  intro call member
  simp only [List.mem_cons, List.not_mem_nil, or_false] at member
  rcases member with rfl | rfl
  · exact ⟨_, thread_layerPost (Or.inl rfl)⟩
  · exact ⟨_, thread_layerPost (Or.inr rfl)⟩

/-- The server starts, both executions are in flight at once, and both return; there is a serial order for what was
seen. -/
theorem serve_linearizable_overlapping :
    ∃ loaded rest p zero one order, Threads.Run (recallServer.thread .plain (.ofVolume modelsVolume) loaded)
        (ExecutesLayer (.ofVolume modelsVolume) loaded) (.fresh 2) (overlappingSteps ++ rest) p ∧
      seen (overlappingSteps ++ rest) = overlapSeen zero one ∧
      Linearizes (recallServer.serve .plain (.ofVolume modelsVolume)) Eq (.fresh 2) (overlapSeen zero one) order := by
  obtain ⟨loaded, isBlank, loads, linearizable⟩ := serve_linearizable .plain (.ofVolume modelsVolume) loadRecall 0
    ":8089" "models/smol" recallServer (.fresh 2) recallServer_started.1 fun _ => loadRecall_forwards
  obtain rfl := loaded_recall isBlank loads
  obtain ⟨rest, p, zero, one, ran, saw⟩ := overlappingSteps_run modelsVolume
  obtain ⟨order, linearizes, -⟩ := linearizable (overlappingSteps ++ rest) p ran
  rw [saw] at linearizes
  exact ⟨_, rest, p, zero, one, order, ran, saw, linearizes⟩

end GoExotic
