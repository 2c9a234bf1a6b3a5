/-
Module: GoExotic.Model.Server
Purpose: Package server: the configuration of shard execution and the handler of `/shards/execute`. The
  handlers of the other paths are a parameter.
Trusted boundary: none
Main exports: Server, newServer, withShardExecution, readShardRequest, Server.handleShardExecute,
  Server.handler
-/
import GoExotic.Model.Sim
import GoExotic.Model.Wire

namespace GoExotic

variable {W : Type}

/-- `Server`, with the fields shard execution reads; a nil worker is `none`. -/
structure Server (W : Type) where
  shardWorker : Option (Worker W)
  totalLayers : Int

/-- An `Option` of `New`. -/
abbrev ServerOption (W : Type) := Server W → Server W

/-- `WithShardExecution`. -/
def withShardExecution (worker : Option (Worker W)) (totalLayers : Int) : ServerOption W := fun s =>
  { s with shardWorker := worker, totalLayers := totalLayers }

/-- `New`; a nil option is `none`. -/
def newServer (opts : List (Option (ServerOption W))) : Server W :=
  opts.foldl (fun s opt =>
    match opt with
    | none => s
    | some apply => apply s) ⟨none, 0⟩

/-! ### Responses -/

/-- `writeJSON`, with the text of the value: what cannot be encoded is left out. -/
def writeJSON (status : Int) (header : Header) (encoded : Except GoError (List UInt8)) : HttpResponse :=
  ⟨status, header.set "Content-Type" "application/json", match encoded with
    | .ok text => text
    | .error _ => []⟩

/-- `writeError`, with the header fields set before. -/
def writeError (wire : WireLib) (status : Int) (header : Header) (msg : String) : HttpResponse :=
  writeJSON status header (wire.encodeErrorBody (AList.insert "error" msg ∅))

/-- `writeMethodNotAllowed`. -/
def writeMethodNotAllowed (wire : WireLib) (methods : List String) : HttpResponse :=
  writeError wire 405 (Header.set [] "Allow" (String.intercalate ", " methods)) "method not allowed"

/-! ### Shard execution -/

/-- The request of `handleShardExecute`, or the message of the bad request. -/
def readShardRequest (wire : WireLib) (totalLayers : Int) (r : HttpRequest) :
    Except String ShardExecutionRequest :=
  match wire.decodeRequest (maxBytesReader r.body (64 * 2 ^ 20)) with
  | .error err => .error (wire.errorText err)
  | .ok (bridge, rest) =>
      if wire.decodeEmpty rest ≠ .error eof then
        .error "request body must contain a single JSON object"
      else
        match bridge.shardExecutionRequest with
        | .error err => .error (wire.errorText err)
        | .ok req =>
            let headerID := r.header.get "X-Go-Exotic-Request-ID"
            if headerID ≠ "" ∧ headerID ≠ req.requestID then .error "request id header mismatch"
            else
              match req.validate totalLayers with
              | .error err => .error (wire.errorText err)
              | .ok () => .ok req

/-- The response of `handleShardExecute` to what the worker returned. -/
def writeShardResponse (wire : WireLib) : Except GoError ShardExecutionResponse → HttpResponse
  | .error err => writeError wire 500 [] (wire.errorText err)
  | .ok resp =>
      match resp.validate with
      | .error err => writeError wire 500 [] (wire.errorText err)
      | .ok () =>
          match newBridgeResponse resp with
          | .error err => writeError wire 500 [] (wire.errorText err)
          | .ok out => writeJSON 200 [] (wire.encodeResponse out)

namespace Server

/-- `handleShardExecute`, with the context of the request. -/
def handleShardExecute (wire : WireLib) (s : Server W) (ctx : Ctx) : Handler W := fun r state =>
  if r.method ≠ "POST" then (writeMethodNotAllowed wire ["POST"], state)
  else
    match s.shardWorker with
    | none => (writeError wire 503 [] "shard execution disabled", state)
    | some worker =>
        if s.totalLayers ≤ 0 then (writeError wire 503 [] "shard execution disabled", state)
        else
          match readShardRequest wire s.totalLayers r with
          | .error msg => (writeError wire 400 [] msg, state)
          | .ok req =>
              let (result, state) := worker ctx req state
              (writeShardResponse wire result, state)

/-- `Handler`, with `other` for the paths besides shard execution. -/
def handler (wire : WireLib) (s : Server W) (ctx : Ctx) (other : Handler W) : Handler W := fun r =>
  if r.url.path = "/shards/execute" then s.handleShardExecute wire ctx r else other r

end Server

end GoExotic
