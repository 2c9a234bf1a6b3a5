/-
Module: GoExotic.Proofs.BodySize
Purpose: The length of the JSON body a remote call sends, byte for byte, and the hidden sizes for which it
  stays within the limit of the server. Base64 takes four bytes for three, so the bound on activations,
  four bytes for each of 2 ^ 24 elements, is a third above what the limit lets through.
Trusted boundary: encoding/json, whose text for the bridge request is that of WireLib.plain
Main exports: envelopeSize, size_bridged, newHttpRequest_body, hiddenSizeLimit, body_within_limit_iff,
  short_ids_fit, long_activation_exceeds
-/
import GoExotic.Proofs.RemoteExecution

namespace GoExotic

open Json

/-! ### The length of a body -/

/-- The bytes the ids of a request take after escaping. -/
def idsSize (req : ShardExecutionRequest) : Nat :=
  escapedSize req.sessionID + escapedSize req.requestID + escapedSize req.modelID +
    escapedSize req.shard.deviceID

/-- The bytes of a body around its base64 text: names, quotes and punctuation, the ids, and the numbers,
with the hidden size in two places. -/
def envelopeSize (req : ShardExecutionRequest) : Nat :=
  186 + idsSize req + intSize req.shard.startLayer + intSize req.shard.endLayer + intSize req.position +
    2 * intSize req.hiddenSize

theorem size_bridged {req : ShardExecutionRequest}
    (same : (req.activation.length : Int) = req.hiddenSize) :
    requestCodec.size req.bridged = envelopeSize req + 4 * ((req.activation.length * 4 + 2) / 3) := by
  have session : escapedSize "session_id" = 10 := by decide
  have request : escapedSize "request_id" = 10 := by decide
  have model : escapedSize "model_id" = 8 := by decide
  have shard : escapedSize "shard" = 5 := by decide
  have device : escapedSize "device_id" = 9 := by decide
  have start : escapedSize "start_layer" = 11 := by decide
  have last : escapedSize "end_layer" = 9 := by decide
  have position : escapedSize "position" = 8 := by decide
  have hidden : escapedSize "hidden_size" = 11 := by decide
  have activation : escapedSize "activation" = 10 := by decide
  have encoding : escapedSize "encoding" = 8 := by decide
  have f32le : escapedSize activationEncodingF32LE = 5 := by decide
  have data : escapedSize "data" = 4 := by decide
  simp only [requestCodec, shardCodec, payloadCodec, Codec.size_via, Codec.size_object, Codec.size_comma,
    Codec.size_field, Codec.size_string, Codec.size_int, Codec.size_base64, ShardExecutionRequest.bridged,
    payloadOf, packed_length, session, request, model, shard, device, start, last, position, hidden,
    activation, encoding, f32le, data, envelopeSize, idsSize, same]
  omega

/-- The body of the HTTP request of a valid shard request is the JSON text of its bridge form. -/
theorem newHttpRequest_body {go : GoLib} {remote : RemoteShardWorker} {req : ShardExecutionRequest}
    {httpReq : HttpRequest}
    (valid : validateActivation req.position req.hiddenSize req.activation = .ok ())
    (sent : remote.newHttpRequest go .plain req = .ok httpReq) :
    httpReq.body = toBytes (requestCodec.write req.bridged) := by
  simp only [RemoteShardWorker.newHttpRequest, newBridgeRequest_eq valid, WireLib.plain_marshalRequest,
    ok_bind, bind_eq_ok] at sent
  obtain ⟨-, -, sent⟩ := sent
  cases parsed : go.urlParse (remote.base ++ "/shards/execute") with
  | none =>
      rw [parsed] at sent
      cases sent
  | some url =>
      rw [parsed] at sent
      cases sent
      rfl

theorem length_body {go : GoLib} {remote : RemoteShardWorker} {req : ShardExecutionRequest}
    {httpReq : HttpRequest}
    (valid : validateActivation req.position req.hiddenSize req.activation = .ok ())
    (sent : remote.newHttpRequest go .plain req = .ok httpReq) :
    httpReq.body.length = envelopeSize req + 4 * ((req.activation.length * 4 + 2) / 3) := by
  obtain ⟨-, -, -, same⟩ := validateActivation_eq_ok.mp valid
  rw [newHttpRequest_body valid sent, ← size_bridged same]
  rfl

/-! ### The limit -/

/-- The largest hidden size whose base64 text fits the limit next to the rest of the body. -/
def hiddenSizeLimit (req : ShardExecutionRequest) : Nat := 3 * ((64 * 2 ^ 20 - envelopeSize req) / 4) / 4

/-- The body of a valid request stays within the bytes the server reads exactly up to that hidden size. -/
theorem body_within_limit_iff (go : GoLib) (remote : RemoteShardWorker) (totalLayers : Int)
    (req : ShardExecutionRequest) (valid : req.validate totalLayers = .ok ()) (httpReq : HttpRequest)
    (sent : remote.newHttpRequest go .plain req = .ok httpReq) :
    httpReq.body.length ≤ 64 * 2 ^ 20 ↔ req.hiddenSize ≤ hiddenSizeLimit req := by
  obtain ⟨-, -, -, -, activation⟩ := ShardExecutionRequest.validate_eq_ok.mp valid
  obtain ⟨-, positive, -, same⟩ := validateActivation_eq_ok.mp activation
  rw [length_body activation sent, hiddenSizeLimit]
  -- a positive hidden size exceeds the limit of an envelope that is too long by itself
  omega

/-- With ids of at most 4096 bytes, every hidden size up to 12582095 fits. -/
theorem short_ids_fit {req : ShardExecutionRequest} {totalLayers : Int}
    (valid : req.validate totalLayers = .ok ()) (total : totalLayers ≤ maxInt)
    (position : req.position ≤ maxInt) (short : idsSize req ≤ 4096) (small : req.hiddenSize ≤ 12582095) :
    req.hiddenSize ≤ hiddenSizeLimit req := by
  obtain ⟨-, -, -, shard, activation⟩ := ShardExecutionRequest.validate_eq_ok.mp valid
  obtain ⟨-, -, startNonneg, ordered, below⟩ := Shard.validate_eq_ok.mp shard
  obtain ⟨positionNonneg, positive, -, -⟩ := validateActivation_eq_ok.mp activation
  have maximum := maxInt_lit
  have digits : ∀ n : Int, 0 ≤ n → n ≤ maxInt → intSize n ≤ 19 := by
    intro n nonneg bounded
    rw [← Int.toNat_of_nonneg nonneg]
    exact intSize_le (by decide) (by omega)
  have hidden : intSize req.hiddenSize ≤ 8 := by
    rw [← Int.toNat_of_nonneg (le_of_lt positive)]
    exact intSize_le (by decide) (by omega)
  have first := digits req.shard.startLayer startNonneg (by omega)
  have last := digits req.shard.endLayer (by omega) (by omega)
  have positionDigits := digits req.position positionNonneg position
  rw [hiddenSizeLimit, envelopeSize]
  omega

/-- No hidden size from 12582877 on fits, whatever the rest of the request. -/
theorem long_activation_exceeds {req : ShardExecutionRequest} (long : 12582877 ≤ req.hiddenSize) :
    ¬ req.hiddenSize ≤ hiddenSizeLimit req := by
  rw [hiddenSizeLimit, envelopeSize]
  omega

/-- A zero activation of the largest size the protocol accepts, for the only layer. -/
def largestRequest : ShardExecutionRequest :=
  ⟨"s", "r", "m", ⟨"p", 0, 0⟩, 0, maxActivationElements, List.replicate maxActivationElements 0⟩

theorem largestRequest_activation :
    validateActivation largestRequest.position largestRequest.hiddenSize largestRequest.activation =
      .ok () := by
  refine validateActivation_eq_ok.mpr ⟨?_, ?_, ?_, ?_⟩
  · decide
  · decide
  · exact le_refl _
  · rw [largestRequest, List.length_replicate]

/-- A valid request with four bytes of ids is sent with a body the server does not read to its end. -/
theorem largest_request_exceeds_limit :
    largestRequest.validate 1 = .ok () ∧ idsSize largestRequest = 4 ∧
      ∃ httpReq, RemoteShardWorker.newHttpRequest .plain .plain ⟨"http://h/"⟩ largestRequest = .ok httpReq ∧
        ¬ httpReq.body.length ≤ 64 * 2 ^ 20 := by
  have valid : largestRequest.validate 1 = .ok () := ShardExecutionRequest.validate_eq_ok.mpr
    ⟨(by decide : trimSpace "s" ≠ ""), (by decide : trimSpace "r" ≠ ""), (by decide : trimSpace "m" ≠ ""),
      rfl, largestRequest_activation⟩
  have sent : ∃ httpReq, RemoteShardWorker.newHttpRequest .plain .plain ⟨"http://h/"⟩ largestRequest =
      .ok httpReq := by
    rw [RemoteShardWorker.newHttpRequest, failIf_of_not (by decide), ok_bind,
      newBridgeRequest_eq largestRequest_activation, ok_bind, WireLib.plain_marshalRequest]
    exact ⟨_, rfl⟩
  obtain ⟨httpReq, sent⟩ := sent
  refine ⟨valid, by decide, httpReq, sent, ?_⟩
  have elements : largestRequest.activation.length = 2 ^ 24 := List.length_replicate
  rw [length_body largestRequest_activation sent, elements]
  omega

/-- A request with one value is far below the limit. -/
theorem body_within_limit_one :
    ∃ httpReq, RemoteShardWorker.newHttpRequest .plain .plain ⟨"http://h/"⟩ (remoteRequest "r") =
      .ok httpReq ∧ httpReq.body.length ≤ 64 * 2 ^ 20 := by
  have sent : ∃ httpReq, RemoteShardWorker.newHttpRequest .plain .plain ⟨"http://h/"⟩ (remoteRequest "r") =
      .ok httpReq := ⟨_, rfl⟩
  obtain ⟨httpReq, sent⟩ := sent
  refine ⟨httpReq, sent, ?_⟩
  apply (body_within_limit_iff .plain ⟨"http://h/"⟩ 1 (remoteRequest "r")
    (remoteRequest_valid "r" (by decide)) httpReq sent).mpr
  decide

end GoExotic
