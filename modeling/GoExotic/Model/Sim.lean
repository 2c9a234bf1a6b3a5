/-
Module: GoExotic.Model.Sim
Purpose: Package sim: the worker that owns KV caches around a layer executor, the simulator that runs a
  request through the routed workers, and its decode loop. Workers are called on a state of type `W`
  that holds whatever they change.
Trusted boundary: none
Main exports: LayerExecutorWorker, LayerExecutorWorker.executeShard, Worker, Simulator, newSimulator,
  Simulator.execute, Simulator.generateTokens, peerWorkers
-/
import GoExotic.Model.Router
import GoExotic.Model.Runtime

namespace GoExotic

/-- `LayerExecutorWorker`: a layer executor with the KV caches it works on. -/
structure LayerExecutorWorker where
  executor : Option LayerRangeExecutor
  kvCache : KVCache
  totalLayers : Int

/-- `LayerExecutorWorker.ExecuteShard`: the result, and the worker after the call. -/
def LayerExecutorWorker.executeShard (w : LayerExecutorWorker) (ctx : Ctx) (req : ShardExecutionRequest) :
    Except GoError ShardExecutionResponse × LayerExecutorWorker :=
  match w.executor with
  | none => (.error (.errorf "nil layer executor" []), w)
  | some execute =>
      let (result, cache) := execute ctx req w.kvCache w.totalLayers
      (result, { w with kvCache := cache })

/-- A `Worker`: `ExecuteShard` on the state of all workers. -/
abbrev Worker (W : Type) :=
  Ctx → ShardExecutionRequest → W → Except GoError ShardExecutionResponse × W

/-- `Simulator`. -/
structure Simulator (W : Type) where
  workers : GoMap (Worker W)

variable {W : Type}

/-- The loop of `NewSimulator` over the entries of the map; a nil worker is `none`. -/
def copyWorkers : List (Sigma fun _ : String => Option (Worker W)) → GoMap (Worker W) →
    Except GoError (GoMap (Worker W))
  | [], copied => .ok copied
  | ⟨id, worker⟩ :: entries, copied => do
      failIf (id = "") (.errorf "empty worker id" [])
      match worker with
      | none => .error (.errorf "nil worker %q" [.str id])
      | some worker => copyWorkers entries (copied.insert id worker)

/-- `NewSimulator`. -/
def newSimulator (workers : GoMap (Option (Worker W))) : Except GoError (Simulator W) := do
  failIf (workers.entries.length = 0) (.errorf "no workers" [])
  let copied ← copyWorkers workers.entries ∅
  return ⟨copied⟩

namespace Simulator

/-- The checks `Execute` makes of the response of the route at index `i`. -/
def checkResponse (i : Nat) (route : Route) (req : ShardExecutionRequest) (resp : ShardExecutionResponse) :
    Except GoError Unit := do
  wrapErr "route %d response: %w" [.int i] resp.validate
  failIf (resp.peerID ≠ route.peer.id)
    (.errorf "route %d response peer=%q, want %q" [.int i, .str resp.peerID, .str route.peer.id])
  failIf (resp.sessionID ≠ req.sessionID ∨ resp.requestID ≠ req.requestID ∨
      resp.position ≠ req.position ∨ resp.hiddenSize ≠ req.hiddenSize)
    (.errorf "route %d response metadata mismatch" [.int i])

/-- The loop of `Execute` from the route at index `i` on, with the request to send next and the last
response. -/
def executeRoutes (s : Simulator W) (ctx : Ctx) (totalLayers : Int) :
    Nat → ShardExecutionRequest → ShardExecutionResponse → List Route → W →
      Except GoError ShardExecutionResponse × W
  | _, _, resp, [], state => (.ok resp, state)
  | i, req, _, route :: rest, state =>
      match ctx.check i with
      | .error err => (.error err, state)
      | .ok () =>
          match s.workers.lookup route.peer.id with
          | none => (.error (.errorf "no worker for peer %q" [.str route.peer.id]), state)
          | some worker =>
              let req := { req with shard := route.shard }
              match req.validate totalLayers with
              | .error err => (.error (.wrapf "route %d request: %w" [.int i] err), state)
              | .ok () =>
                  match worker (ctx.call i) req state with
                  | (.error err, state) =>
                      (.error (.wrapf "route %d peer %s: %w" [.int i, .str route.peer.id] err), state)
                  | (.ok resp, state) =>
                      match checkResponse i route req resp with
                      | .error err => (.error err, state)
                      | .ok () =>
                          executeRoutes s ctx totalLayers (i + 1) { req with activation := resp.activation }
                            resp rest state

/-- `Simulator.Execute`. -/
def execute (go : GoLib) (s : Simulator W) (ctx : Ctx) (routes : List Route)
    (initial : ShardExecutionRequest) (totalLayers : Int) (state : W) :
    Except GoError ShardExecutionResponse × W :=
  match ctx.check 0 with
  | .error err => (.error err, state)
  | .ok () =>
      if routes.length = 0 then (.error (.errorf "no routes" []), state)
      else
        let ordered := go.sort.byKey (fun route => route.shard.startLayer) routes
        s.executeRoutes (ctx.call 1) totalLayers 0 initial ⟨"", "", "", 0, 0, []⟩ ordered state

/-- `TokenProjector`. A projector leaves the activation it is given unchanged. -/
abbrev TokenProjector := List Float32Bits → Except GoError Int

/-- The decode loop of `GenerateTokens` with `remaining` tokens to go from `step` on. -/
def decode (go : GoLib) (s : Simulator W) (ctx : Ctx) (routes : List Route)
    (base : ShardExecutionRequest) (totalLayers : Int) (project : TokenProjector) :
    Nat → Nat → List Float32Bits → List Int → W → Except GoError (List Int) × W
  | 0, _, _, out, state => (.ok out, state)
  | remaining + 1, step, activation, out, state =>
      match ctx.check step with
      | .error err => (.error err, state)
      | .ok () =>
          let req := { base with position := wrapInt (base.position + step), activation := activation }
          match s.execute go (ctx.call step) routes req totalLayers state with
          | (.error err, state) => (.error err, state)
          | (.ok resp, state) =>
              match project resp.activation with
              | .error err => (.error err, state)
              | .ok tok =>
                  decode go s ctx routes base totalLayers project remaining (step + 1) resp.activation
                    (out ++ [tok]) state

/-- The checks `GenerateTokens` makes of its arguments; a nil projector is `none`. -/
def checkGeneration (base : ShardExecutionRequest) (maxTokens : Int) (project : Option TokenProjector) :
    Except GoError TokenProjector := do
  failIf (maxTokens < 0) (.errorf "maxTokens %d out of range" [.int maxTokens])
  failIf (maxTokens > 0 ∧ base.position > wrapInt (maxInt - wrapInt (maxTokens - 1)))
    (.errorf "generation positions overflow: start=%d count=%d" [.int base.position, .int maxTokens])
  match project with
  | none => .error (.errorf "nil token projector" [])
  | some project => do
      failIf ((base.activation.length : Int) ≠ base.hiddenSize ∨ base.hiddenSize ≤ 0)
        (.errorf "invalid base activation shape hidden=%d len=%d"
          [.int base.hiddenSize, .int base.activation.length])
      return project

/-- `Simulator.GenerateTokens`. -/
def generateTokens (go : GoLib) (s : Simulator W) (ctx : Ctx) (routes : List Route)
    (base : ShardExecutionRequest) (totalLayers maxTokens : Int) (project : Option TokenProjector)
    (state : W) : Except GoError (List Int) × W :=
  match checkGeneration base maxTokens project with
  | .error err => (.error err, state)
  | .ok project =>
      s.decode go ctx routes base totalLayers project maxTokens.toNat 0 base.activation [] state

end Simulator

/-- `PeerWorkers`: one worker for all peers; a nil worker is `none`. -/
def peerWorkers (peers : List Peer) (worker : Option (Worker W)) : GoMap (Option (Worker W)) :=
  peers.foldl (fun workers peer => workers.insert peer.id worker) ∅

end GoExotic
