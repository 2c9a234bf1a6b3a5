/-
Module: GoExotic.Model.RemoteWorker
Purpose: Package cluster's remote worker: a shard request as an HTTP call to a peer, and the response
  read back; and package sim's map of such workers for the peers of some routes.
Trusted boundary: url.Parse, encoding/json and net/http, through `GoLib`, `WireLib` and `clientDo`
Main exports: RemoteShardWorker, RemoteShardWorker.newHttpRequest, readHttpResponse,
  RemoteShardWorker.executeShard, remoteWorkersFromRoutes
-/
import GoExotic.Model.Sim
import GoExotic.Model.Wire

namespace GoExotic

/-- `ShardRequestIDHeader`. -/
def shardRequestIDHeader : String := "X-Go-Exotic-Request-ID"

/-- `RemoteShardWorker`. -/
structure RemoteShardWorker where
  endpoint : String
deriving DecidableEq, Repr

/-- The endpoint as `ExecuteShard` uses it. -/
def RemoteShardWorker.base (w : RemoteShardWorker) : String := trimRightSlash (trimSpace w.endpoint)

/-- `ExecuteShard` up to the call: the HTTP request it sends. -/
def RemoteShardWorker.newHttpRequest (go : GoLib) (wire : WireLib) (w : RemoteShardWorker)
    (req : ShardExecutionRequest) : Except GoError HttpRequest := do
  failIf (w.base = "") (.errorf "empty remote shard endpoint" [])
  let bridge ← newBridgeRequest req
  let body ← wire.marshalRequest bridge
  match go.urlParse (w.base ++ "/shards/execute") with
  | none => .error (.library "invalid URL")
  | some url =>
      return ⟨"POST", url, (Header.set [] "Content-Type" "application/json").set shardRequestIDHeader
        req.requestID, body⟩

/-- The error `ExecuteShard` makes of a response that is not OK. -/
def remoteError (wire : WireLib) (resp : HttpResponse) : GoError :=
  let msg := (wire.decodeErrorBody ⟨resp.body, eof⟩).get "error" ""
  if msg ≠ "" then .errorf "remote shard status=%d: %s" [.int resp.status, .str msg]
  else .errorf "remote shard status=%d" [.int resp.status]

/-- `ExecuteShard` after the call: the response of the worker. -/
def readHttpResponse (wire : WireLib) (req : ShardExecutionRequest) (resp : HttpResponse) :
    Except GoError ShardExecutionResponse := do
  failIf (resp.status ≠ 200) (remoteError wire resp)
  let out ← wire.decodeResponse ⟨resp.body, eof⟩
  let decoded ← out.shardExecutionResponse
  failIf (decoded.requestID ≠ req.requestID)
    (.errorf "remote response request_id=%q, want %q" [.str decoded.requestID, .str req.requestID])
  return decoded

/-- `RemoteShardWorker.ExecuteShard` on a network. -/
def RemoteShardWorker.executeShard {W : Type} (go : GoLib) (wire : WireLib) (net : Network W)
    (w : RemoteShardWorker) : Worker W := fun ctx req state =>
  match w.newHttpRequest go wire req with
  | .error err => (.error err, state)
  | .ok httpReq =>
      match clientDo net ctx httpReq state with
      | (.error err, state) => (.error err, state)
      | (.ok resp, state) => (readHttpResponse wire req resp, state)

/-! ### The workers of some routes -/

/-- The loop of `RemoteWorkersFromRoutes`, with the workers made so far. All of them are remote workers, so
the type assertion on an existing one succeeds. -/
def collectWorkers (go : GoLib) : GoMap RemoteShardWorker → List Route → Except GoError (GoMap RemoteShardWorker)
  | workers, [] => .ok workers
  | workers, route :: rest => do
      let peer := route.peer
      wrapErr "route peer %q: %w" [.str peer.id] (peer.validate go)
      failIf (route.shard.deviceID ≠ peer.id)
        (.errorf "route shard device %q does not match peer %q" [.str route.shard.deviceID, .str peer.id])
      failIf (route.shard.startLayer < 0 ∨ route.shard.endLayer < route.shard.startLayer)
        (.errorf "route shard for peer %q has invalid range [%d,%d]"
          [.str peer.id, .int route.shard.startLayer, .int route.shard.endLayer])
      match workers.lookup peer.id with
      | some remote => do
          failIf (remote.endpoint ≠ peer.address)
            (.errorf "duplicate peer id %q with conflicting route" [.str peer.id])
          collectWorkers go workers rest
      | none => collectWorkers go (workers.insert peer.id ⟨peer.address⟩) rest

/-- A map of workers none of which is nil, as `NewSimulator` takes it. -/
def boxWorkers {W : Type} (workers : GoMap (Worker W)) : GoMap (Option (Worker W)) :=
  ⟨workers.entries.map (.map id fun _ => some), workers.nodupKeys.map₂ fun _ => some⟩

/-- Remote workers as workers on a network. -/
def remoteWorkers {W : Type} (go : GoLib) (wire : WireLib) (net : Network W)
    (remotes : GoMap RemoteShardWorker) : GoMap (Worker W) :=
  ⟨remotes.entries.map (.map id fun _ w => w.executeShard go wire net),
    remotes.nodupKeys.map₂ fun _ w => w.executeShard go wire net⟩

/-- `RemoteWorkersFromRoutes`. -/
def remoteWorkersFromRoutes {W : Type} (go : GoLib) (wire : WireLib) (net : Network W) (routes : List Route) :
    Except GoError (GoMap (Worker W)) := do
  failIf (routes.length = 0) (.errorf "no routes" [])
  let remotes ← collectWorkers go ∅ routes
  let simulator ← newSimulator (boxWorkers (remoteWorkers go wire net remotes))
  return simulator.workers

end GoExotic
