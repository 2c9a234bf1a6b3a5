/-
Module: GoExotic.Proofs.ShardEndpoint
Purpose: The shard endpoint as a gate in front of its worker. The requests it admits are stated once, and
  every answer follows from whether a request was admitted and what the worker then returned: at most one
  call, status 200 exactly for a valid response, and otherwise the status of the first failed check.
Trusted boundary: encoding/json, as a hypothesis on the encoding of responses
Main exports: readShardRequest_eq_ok, Admitted, Admitted.inside, handleShardExecute_admitted,
  handleShardExecute_refused, SoundGate, shard_endpoint_sound
-/
import GoExotic.Proofs.RemoteExecution
import GoExotic.Proofs.WireFormat

namespace GoExotic

variable {W : Type} {wire : WireLib}

/-! ### What is admitted -/

/-- The value of the request id header. -/
def headerID (r : HttpRequest) : String := r.header.get "X-Go-Exotic-Request-ID"

/-- The body holds exactly one JSON value, of this bridge request. -/
def BodyHolds (wire : WireLib) (r : HttpRequest) (bridge : BridgeRequest) : Prop :=
  ∃ rest, wire.decodeRequest (maxBytesReader r.body (64 * 2 ^ 20)) = .ok (bridge, rest) ∧
    wire.decodeEmpty rest = .error eof

/-- The checks that answer 400 let exactly these requests through. -/
theorem readShardRequest_eq_ok {totalLayers : Int} {r : HttpRequest} {req : ShardExecutionRequest} :
    readShardRequest wire totalLayers r = .ok req ↔
      (∃ bridge, BodyHolds wire r bridge ∧ bridge.shardExecutionRequest = .ok req) ∧
        (headerID r ≠ "" → headerID r = req.requestID) ∧ req.validate totalLayers = .ok () := by
  constructor
  · intro read
    rw [readShardRequest] at read
    cases decoded : wire.decodeRequest (maxBytesReader r.body (64 * 2 ^ 20)) with
    | error err =>
        rw [decoded] at read
        cases read
    | ok value =>
        obtain ⟨bridge, rest⟩ := value
        rw [decoded] at read
        dsimp only at read
        split at read
        · cases read
        case isFalse single =>
        cases unpacked : bridge.shardExecutionRequest with
        | error err =>
            rw [unpacked] at read
            cases read
        | ok decodedReq =>
            rw [unpacked] at read
            dsimp only at read
            split at read
            · cases read
            case isFalse named =>
            cases valid : decodedReq.validate totalLayers with
            | error err =>
                rw [valid] at read
                cases read
            | ok u =>
                rw [valid] at read
                cases read
                refine ⟨⟨bridge, ⟨rest, decoded, not_not.mp single⟩, unpacked⟩, ?_, valid⟩
                intro present
                exact not_not.mp fun mismatch => named ⟨present, mismatch⟩
  · rintro ⟨⟨bridge, ⟨rest, decoded, single⟩, unpacked⟩, named, valid⟩
    have matching : ¬ (r.header.get "X-Go-Exotic-Request-ID" ≠ "" ∧
        r.header.get "X-Go-Exotic-Request-ID" ≠ req.requestID) :=
      fun mismatch => mismatch.2 (named mismatch.1)
    rw [readShardRequest, decoded]
    dsimp only
    rw [if_neg (not_not.mpr single), unpacked]
    dsimp only
    rw [if_neg matching, valid]

/-- The endpoint admits the HTTP request, and hands `req` to the worker. -/
structure Admitted (wire : WireLib) (s : Server W) (r : HttpRequest) (worker : Worker W)
    (req : ShardExecutionRequest) : Prop where
  post : r.method = "POST"
  wired : s.shardWorker = some worker
  layers : 0 < s.totalLayers
  body : ∃ bridge, BodyHolds wire r bridge ∧ bridge.shardExecutionRequest = .ok req
  header : headerID r ≠ "" → headerID r = req.requestID
  valid : req.validate s.totalLayers = .ok ()

/-- JSON `null` leaves the bridge request zero, and that is not admitted. -/
example : ∃ err, (⟨"", "", "", ⟨"", 0, 0⟩, 0, 0, ⟨"", 0, []⟩⟩ : BridgeRequest).shardExecutionRequest =
    .error err := ⟨_, rfl⟩

/-- A request inside the layers, whose sizes are all the same. -/
def RequestInside (wire : WireLib) (r : HttpRequest) (totalLayers : Int) (req : ShardExecutionRequest) :
    Prop :=
  0 ≤ req.shard.startLayer ∧ req.shard.startLayer ≤ req.shard.endLayer ∧
    req.shard.endLayer < totalLayers ∧ (req.activation.length : Int) = req.hiddenSize ∧
    ∃ bridge, BodyHolds wire r bridge ∧ bridge.activation.hiddenSize = req.hiddenSize ∧
      bridge.requestID = req.requestID

theorem Admitted.inside {s : Server W} {r : HttpRequest} {worker : Worker W} {req : ShardExecutionRequest}
    (admitted : Admitted wire s r worker req) : RequestInside wire r s.totalLayers req := by
  obtain ⟨-, -, -, shard, activation⟩ := ShardExecutionRequest.validate_eq_ok.mp admitted.valid
  obtain ⟨-, -, first, ordered, last⟩ := Shard.validate_eq_ok.mp shard
  obtain ⟨-, -, -, length⟩ := validateActivation_eq_ok.mp activation
  obtain ⟨bridge, holds, unpacked⟩ := admitted.body
  obtain ⟨values, unpacks, rfl⟩ := shardExecutionRequest_eq_ok.mp unpacked
  exact ⟨first, ordered, last, length, bridge, holds, (float32_length unpacks).symm.trans length, rfl⟩

/-! ### What is answered -/

/-- The server, with its worker noting the requests it is called with. -/
def Server.recorded (s : Server W) : Server (List ShardExecutionRequest × W) :=
  ⟨s.shardWorker.map GoExotic.recorded, s.totalLayers⟩

theorem handleShardExecute_admitted {s : Server W} {r : HttpRequest} {worker : Worker W}
    {req : ShardExecutionRequest} (admitted : Admitted wire s r worker req) (ctx : Ctx)
    (log : List ShardExecutionRequest) (state : W) :
    s.recorded.handleShardExecute wire ctx r (log, state) =
      (writeShardResponse wire (worker ctx req state).1, log ++ [req], (worker ctx req state).2) := by
  have read := readShardRequest_eq_ok.mpr ⟨admitted.body, admitted.header, admitted.valid⟩
  rw [Server.handleShardExecute, if_neg (not_not.mpr admitted.post), Server.recorded, admitted.wired]
  dsimp only [Option.map_some]
  rw [if_neg (not_le.mpr admitted.layers), read]
  rfl

/-- The status of a request that is not admitted, by the first check that fails. -/
def refusalStatus (s : Server W) (r : HttpRequest) : Int :=
  if r.method ≠ "POST" then 405 else if s.shardWorker.isNone ∨ s.totalLayers ≤ 0 then 503 else 400

section Refusal

variable {s : Server W} {r : HttpRequest}

theorem refusalStatus_ne_ok : refusalStatus s r ≠ 200 := by
  rw [refusalStatus]
  split_ifs <;> decide

theorem refusalStatus_method (notPost : r.method ≠ "POST") : refusalStatus s r = 405 := by
  rw [refusalStatus, if_pos notPost]

theorem refusalStatus_disabled (post : r.method = "POST") (off : s.shardWorker = none ∨ s.totalLayers ≤ 0) :
    refusalStatus s r = 503 := by
  have off' : s.shardWorker.isNone = true ∨ s.totalLayers ≤ 0 := by
    rwa [Option.isNone_iff_eq_none]
  rw [refusalStatus, if_neg (not_not.mpr post), if_pos off']

theorem refusalStatus_bad_request (post : r.method = "POST") (wired : s.shardWorker ≠ none)
    (layers : 0 < s.totalLayers) : refusalStatus s r = 400 := by
  have on : ¬ (s.shardWorker.isNone = true ∨ s.totalLayers ≤ 0) := by
    rw [Option.isNone_iff_eq_none, not_or, not_le]
    exact ⟨wired, layers⟩
  rw [refusalStatus, if_neg (not_not.mpr post), if_neg on]

end Refusal

theorem handleShardExecute_refused {s : Server W} {r : HttpRequest}
    (refused : ∀ worker req, ¬ Admitted wire s r worker req) (ctx : Ctx)
    (log : List ShardExecutionRequest) (state : W) :
    (s.recorded.handleShardExecute wire ctx r (log, state)).1.status = refusalStatus s r ∧
      (s.recorded.handleShardExecute wire ctx r (log, state)).2 = (log, state) := by
  rw [Server.handleShardExecute, refusalStatus]
  by_cases post : r.method = "POST"
  · rw [if_neg (not_not.mpr post), if_neg (not_not.mpr post), Server.recorded]
    cases wired : s.shardWorker with
    | none => exact ⟨rfl, rfl⟩
    | some worker =>
        dsimp only [Option.map_some]
        by_cases layers : s.totalLayers ≤ 0
        · rw [if_pos layers, if_pos (Or.inr layers)]
          exact ⟨rfl, rfl⟩
        · rw [if_neg layers, if_neg (by simpa using layers)]
          cases read : readShardRequest wire s.totalLayers r with
          | error msg => exact ⟨rfl, rfl⟩
          | ok req =>
              obtain ⟨body, header, valid⟩ := readShardRequest_eq_ok.mp read
              exact absurd ⟨post, wired, not_le.mp layers, body, header, valid⟩ (refused worker req)
  · rw [if_pos post, if_pos post]
    exact ⟨rfl, rfl⟩

/-- JSON loses nothing of the bridge responses. -/
def WireLib.LosslessResponses (wire : WireLib) : Prop :=
  ∀ r : BridgeResponse, r.OfInts → ∃ body, wire.encodeResponse r = .ok body ∧
    wire.decodeResponse ⟨body, eof⟩ = .ok r

/-- A valid response is answered with status 200 and a body that decodes back to it. -/
theorem writeShardResponse_valid (lossless : wire.LosslessResponses) {resp : ShardExecutionResponse}
    (valid : resp.validate = .ok ()) (position : IsInt resp.position) :
    (writeShardResponse wire (.ok resp)).status = 200 ∧
      ∃ bridge, wire.decodeResponse ⟨(writeShardResponse wire (.ok resp)).body, eof⟩ = .ok bridge ∧
        bridge.shardExecutionResponse = .ok resp := by
  obtain ⟨-, -, -, activation⟩ := ShardExecutionResponse.validate_eq_ok.mp valid
  obtain ⟨hiddenSize, length⟩ := activation_isInt activation
  obtain ⟨body, encoded, decoded⟩ := lossless resp.bridged ⟨position, hiddenSize, length⟩
  simp only [writeShardResponse, valid, newBridgeResponse_eq activation, encoded, writeJSON, true_and]
  exact ⟨resp.bridged, decoded, shardExecutionResponse_bridged activation⟩

/-- Anything but a valid response is answered with status 500. -/
theorem writeShardResponse_invalid {result : Except GoError ShardExecutionResponse}
    (invalid : ∀ resp, result = .ok resp → resp.validate ≠ .ok ()) :
    (writeShardResponse wire result).status = 500 := by
  cases result with
  | error err => rfl
  | ok resp =>
      cases checked : resp.validate with
      | error err =>
          rw [writeShardResponse, checked]
          rfl
      | ok u => exact absurd checked (invalid resp rfl)

/-- Status 200 is for valid responses. -/
theorem writeShardResponse_status_iff (lossless : wire.LosslessResponses)
    {result : Except GoError ShardExecutionResponse}
    (ints : ∀ resp, result = .ok resp → IsInt resp.position) :
    (writeShardResponse wire result).status = 200 ↔ ∃ resp, result = .ok resp ∧ resp.validate = .ok () := by
  constructor
  · intro status
    by_contra none
    have failed : (writeShardResponse wire result).status = 500 :=
      writeShardResponse_invalid fun resp returned valid => none ⟨resp, returned, valid⟩
    exact absurd (failed.symm.trans status) (by decide)
  · rintro ⟨resp, rfl, valid⟩
    exact (writeShardResponse_valid lossless valid (ints resp rfl)).1

/-! ### The gate -/

/-- What the endpoint does with an HTTP request, with the answer and the log and state after it. -/
structure SoundGate (wire : WireLib) (s : Server W) (ctx : Ctx) (r : HttpRequest)
    (log : List ShardExecutionRequest) (state : W)
    (final : HttpResponse × List ShardExecutionRequest × W) : Prop where
  /-- At most one call, and only of the worker with the admitted request. -/
  calls : final.2 = (log, state) ∨
    ∃ worker req, Admitted wire s r worker req ∧ final.2 = (log ++ [req], (worker ctx req state).2)
  /-- Status 200 exactly when that call returned a valid response. -/
  ok_iff : final.1.status = 200 ↔ ∃ worker req resp, Admitted wire s r worker req ∧
    final.2.1 = log ++ [req] ∧ (worker ctx req state).1 = .ok resp ∧ resp.validate = .ok ()
  /-- Then the body decodes back to the response. -/
  ok_body : ∀ worker req resp, Admitted wire s r worker req → (worker ctx req state).1 = .ok resp →
    resp.validate = .ok () → ∃ bridge, wire.decodeResponse ⟨final.1.body, eof⟩ = .ok bridge ∧
      bridge.shardExecutionResponse = .ok resp
  /-- An admitted request lies inside the layers, and the sizes agree. -/
  inside : ∀ worker req, Admitted wire s r worker req → RequestInside wire r s.totalLayers req
  method : r.method ≠ "POST" → final.1.status = 405
  disabled : r.method = "POST" → (s.shardWorker = none ∨ s.totalLayers ≤ 0) → final.1.status = 503
  bad_request : r.method = "POST" → s.shardWorker ≠ none → 0 < s.totalLayers →
    (∀ worker req, ¬ Admitted wire s r worker req) → final.1.status = 400
  worker_failed : ∀ worker req, Admitted wire s r worker req →
    (∀ resp, (worker ctx req state).1 = .ok resp → resp.validate ≠ .ok ()) → final.1.status = 500

/-- The request that is admitted is determined by the HTTP request. -/
theorem Admitted.unique {s : Server W} {r : HttpRequest} {worker other : Worker W}
    {req otherReq : ShardExecutionRequest} (admitted : Admitted wire s r worker req)
    (otherAdmitted : Admitted wire s r other otherReq) : other = worker ∧ otherReq = req := by
  constructor
  · exact Option.some.inj (otherAdmitted.wired.symm.trans admitted.wired)
  · have read : readShardRequest wire s.totalLayers r = .ok req :=
      readShardRequest_eq_ok.mpr ⟨admitted.body, admitted.header, admitted.valid⟩
    have readOther : readShardRequest wire s.totalLayers r = .ok otherReq :=
      readShardRequest_eq_ok.mpr ⟨otherAdmitted.body, otherAdmitted.header, otherAdmitted.valid⟩
    exact Except.ok.inj (readOther.symm.trans read)

/-- An admitted request passes the gate. -/
theorem Admitted.soundGate {wire : WireLib} {s : Server W} {r : HttpRequest} {worker : Worker W}
    {req : ShardExecutionRequest} (admitted : Admitted wire s r worker req) (lossless : wire.LosslessResponses)
    (ctx : Ctx) (log : List ShardExecutionRequest) (state : W)
    (ints : ∀ resp, (worker ctx req state).1 = .ok resp → IsInt resp.position) :
    SoundGate wire s ctx r log state (s.recorded.handleShardExecute wire ctx r (log, state)) := by
  have answered := handleShardExecute_admitted admitted ctx log state
  rw [answered]
  constructor
  case calls => exact Or.inr ⟨worker, req, admitted, rfl⟩
  case ok_iff =>
    rw [writeShardResponse_status_iff lossless ints]
    constructor
    · rintro ⟨resp, returned, valid⟩
      exact ⟨worker, req, resp, admitted, rfl, returned, valid⟩
    · rintro ⟨other, otherReq, resp, otherAdmitted, -, returned, valid⟩
      obtain ⟨rfl, rfl⟩ := admitted.unique otherAdmitted
      exact ⟨resp, returned, valid⟩
  case ok_body =>
    intro other otherReq resp otherAdmitted returned valid
    obtain ⟨rfl, rfl⟩ := admitted.unique otherAdmitted
    rw [returned]
    exact (writeShardResponse_valid lossless valid (ints resp returned)).2
  case inside =>
    intro other otherReq otherAdmitted
    exact otherAdmitted.inside
  case method =>
    intro notPost
    exact absurd admitted.post notPost
  case disabled =>
    rintro - (unwired | layers)
    · exact absurd (admitted.wired.symm.trans unwired) (by simp)
    · exact absurd admitted.layers (not_lt.mpr layers)
  case bad_request =>
    intro _ _ _ refused
    exact absurd admitted (refused worker req)
  case worker_failed =>
    intro other otherReq otherAdmitted invalid
    obtain ⟨rfl, rfl⟩ := admitted.unique otherAdmitted
    exact writeShardResponse_invalid invalid

/-- Any other request is turned away. -/
theorem soundGate_of_refused {wire : WireLib} {s : Server W} {r : HttpRequest}
    (refused : ∀ worker req, ¬ Admitted wire s r worker req) (ctx : Ctx) (log : List ShardExecutionRequest)
    (state : W) :
    SoundGate wire s ctx r log state (s.recorded.handleShardExecute wire ctx r (log, state)) := by
  obtain ⟨status, unchanged⟩ := handleShardExecute_refused refused ctx log state
  constructor
  case calls => exact Or.inl unchanged
  case ok_iff =>
    rw [status]
    constructor
    · intro ok
      exact absurd ok refusalStatus_ne_ok
    · rintro ⟨worker, req, -, admitted, -⟩
      exact absurd admitted (refused worker req)
  case ok_body =>
    intro worker req _ admitted
    exact absurd admitted (refused worker req)
  case inside =>
    intro worker req admitted
    exact absurd admitted (refused worker req)
  case method =>
    intro notPost
    exact status.trans (refusalStatus_method notPost)
  case disabled =>
    intro post off
    exact status.trans (refusalStatus_disabled post off)
  case bad_request =>
    intro post wired layers _
    exact status.trans (refusalStatus_bad_request post wired layers)
  case worker_failed =>
    intro worker req admitted
    exact absurd admitted (refused worker req)

/-- The call a client makes for the request with the id `r`. -/
def postedRequest : HttpRequest :=
  shardHttpRequest ⟨"http", "h", "/shards/execute", ""⟩ (remoteRequest "r")
    (Json.toBytes (requestCodec.write (remoteRequest "r").bridged))

theorem postedRequest_admitted :
    Admitted .plain (shardServer echoWorker 1) postedRequest echoWorker (remoteRequest "r") := by
  have whole : maxBytesReader postedRequest.body (64 * 2 ^ 20) =
      ⟨Json.toBytes (requestCodec.write (remoteRequest "r").bridged ++ []), eof⟩ := by
    have fits : postedRequest.body.length ≤ 64 * 2 ^ 20 := by decide +kernel
    rw [List.append_nil, maxBytesReader, if_pos fits, postedRequest, shardHttpRequest]
  have holds : BodyHolds .plain postedRequest (remoteRequest "r").bridged := by
    refine ⟨⟨Json.toBytes [], eof⟩, ?_, rfl⟩
    rw [whole, WireLib.plain_decodeRequest]
    exact decodeWith_toBytes requestCodec _ Json.Delimited.nil
  constructor
  case post => rfl
  case wired => rfl
  case layers => decide
  case body => exact ⟨(remoteRequest "r").bridged, holds, shardExecutionRequest_bridged rfl⟩
  case header =>
    intro _
    rfl
  case valid => exact remoteRequest_valid "r" (by decide)

end GoExotic
