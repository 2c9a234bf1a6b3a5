/-
Module: GoExotic.Model.Protocol
Purpose: Package protocol: shard execution requests and responses with their validators, the flat f32le
  activation payload, the HTTP bridge forms, and the capability and route preview records.
Trusted boundary: math.Float32bits keeps every bit pattern
Main exports: ShardExecutionRequest, ShardExecutionResponse, ActivationPayload, newActivationPayload,
  ActivationPayload.float32, BridgeRequest, BridgeResponse, Capability, RoutePreview
-/
import GoExotic.Model.Placement

namespace GoExotic

/-- A `float32`, as its bit pattern. -/
abbrev Float32Bits := UInt32

/-- Package protocol's bound on activation payloads. -/
def maxActivationElements : Nat := 2 ^ 24

/-- `ActivationEncodingF32LE`. -/
def activationEncodingF32LE : String := "f32le"

/-! ### Requests and responses -/

/-- The wire contract for executing one contiguous layer range on a peer. -/
structure ShardExecutionRequest where
  sessionID : String
  requestID : String
  modelID : String
  shard : Shard
  position : Int
  hiddenSize : Int
  activation : List Float32Bits
deriving DecidableEq, Repr

/-- The transformed activation for the next shard. -/
structure ShardExecutionResponse where
  sessionID : String
  requestID : String
  peerID : String
  position : Int
  hiddenSize : Int
  activation : List Float32Bits
deriving DecidableEq, Repr

/-- The checks on position, hidden size and activation that both validators end with. -/
def validateActivation (position hiddenSize : Int) (activation : List Float32Bits) :
    Except GoError Unit := do
  failIf (position < 0) (.errorf "position %d out of range" [.int position])
  failIf (hiddenSize ≤ 0) (.errorf "hidden size %d out of range" [.int hiddenSize])
  failIf (hiddenSize > maxActivationElements)
    (.errorf "hidden size=%d exceeds max=%d" [.int hiddenSize, .int maxActivationElements])
  failIf ((activation.length : Int) ≠ hiddenSize)
    (.errorf "activation len=%d, want hidden size=%d" [.int activation.length, .int hiddenSize])

/-- `ShardExecutionRequest.Validate`. -/
def ShardExecutionRequest.validate (r : ShardExecutionRequest) (totalLayers : Int) :
    Except GoError Unit := do
  failIf (trimSpace r.sessionID = "") (.errorf "empty session id" [])
  failIf (trimSpace r.requestID = "") (.errorf "empty request id" [])
  failIf (trimSpace r.modelID = "") (.errorf "empty model id" [])
  r.shard.validate totalLayers
  validateActivation r.position r.hiddenSize r.activation

/-- `ShardExecutionResponse.Validate`. -/
def ShardExecutionResponse.validate (r : ShardExecutionResponse) : Except GoError Unit := do
  failIf (trimSpace r.sessionID = "") (.errorf "empty session id" [])
  failIf (trimSpace r.requestID = "") (.errorf "empty request id" [])
  failIf (trimSpace r.peerID = "") (.errorf "empty peer id" [])
  validateActivation r.position r.hiddenSize r.activation

/-! ### The activation payload -/

/-- The transport-friendly representation of one activation vector. -/
structure ActivationPayload where
  encoding : String
  hiddenSize : Int
  data : List UInt8
deriving DecidableEq, Repr

/-- `checkedMulInt`: the product, and whether it is an `int`. -/
def checkedMulInt (a b : Int) : Int × Bool :=
  if a < 0 ∨ b < 0 then (0, false)
  else if a = 0 ∨ b = 0 then (0, true)
  else if a > Int.tdiv maxInt b then (0, false)
  else (wrapInt (a * b), true)

/-- The four bytes `binary.LittleEndian.PutUint32` stores. -/
def littleEndianBytes (v : UInt32) : List UInt8 :=
  [UInt8.ofNat v.toNat, UInt8.ofNat (v.toNat / 2 ^ 8), UInt8.ofNat (v.toNat / 2 ^ 16),
    UInt8.ofNat (v.toNat / 2 ^ 24)]

/-- `binary.LittleEndian.Uint32` of a four-byte slice. -/
def littleEndianUint32 : List UInt8 → UInt32
  | [b0, b1, b2, b3] =>
      UInt32.ofNat (b0.toNat + b1.toNat * 2 ^ 8 + b2.toNat * 2 ^ 16 + b3.toNat * 2 ^ 24)
  | _ => 0

/-- Store bytes into a buffer from an offset on. -/
def storeAt (data : List UInt8) (offset : Nat) (bytes : List UInt8) : List UInt8 :=
  data.take offset ++ bytes ++ data.drop (offset + bytes.length)

/-- The loop of `NewActivationPayload` from index `i`. -/
def packFloats : Nat → List Float32Bits → List UInt8 → List UInt8
  | _, [], data => data
  | i, v :: rest, data => packFloats (i + 1) rest (storeAt data (i * 4) (littleEndianBytes v))

/-- `NewActivationPayload`. -/
def newActivationPayload (values : List Float32Bits) : Except GoError ActivationPayload := do
  failIf (values.length = 0) (.errorf "empty activation" [])
  failIf (values.length > maxActivationElements)
    (.errorf "activation elements=%d exceeds max=%d"
      [.int values.length, .int maxActivationElements])
  let (dataLen, ok) := checkedMulInt values.length 4
  failIf (ok = false) (.errorf "activation byte length overflow" [])
  let data := packFloats 0 values (List.replicate dataLen.toNat 0)
  return ⟨activationEncodingF32LE, values.length, data⟩

/-- `ActivationPayload.Float32`. -/
def ActivationPayload.float32 (p : ActivationPayload) : Except GoError (List Float32Bits) := do
  failIf (p.encoding ≠ activationEncodingF32LE)
    (.errorf "unsupported activation encoding %q" [.str p.encoding])
  failIf (p.hiddenSize ≤ 0) (.errorf "hidden size %d out of range" [.int p.hiddenSize])
  failIf (p.hiddenSize > maxActivationElements)
    (.errorf "hidden size=%d exceeds max=%d" [.int p.hiddenSize, .int maxActivationElements])
  let (want, ok) := checkedMulInt p.hiddenSize 4
  failIf (ok = false) (.errorf "activation byte length overflow" [])
  failIf ((p.data.length : Int) ≠ want)
    (.errorf "activation bytes=%d, want %d" [.int p.data.length, .int want])
  return (List.range p.hiddenSize.toNat).map fun i =>
    littleEndianUint32 ((p.data.drop (i * 4)).take 4)

/-! ### The HTTP bridge -/

/-- `ShardExecutionHTTPBridgeRequest`: the HTTP transport form of a request. -/
structure BridgeRequest where
  sessionID : String
  requestID : String
  modelID : String
  shard : Shard
  position : Int
  hiddenSize : Int
  activation : ActivationPayload
deriving DecidableEq, Repr

/-- `ShardExecutionHTTPBridgeResponse`: the HTTP transport form of a response. -/
structure BridgeResponse where
  sessionID : String
  requestID : String
  peerID : String
  position : Int
  hiddenSize : Int
  activation : ActivationPayload
deriving DecidableEq, Repr

/-- `NewShardExecutionHTTPBridgeRequest`. -/
def newBridgeRequest (req : ShardExecutionRequest) : Except GoError BridgeRequest := do
  let payload ← newActivationPayload req.activation
  return ⟨req.sessionID, req.requestID, req.modelID, req.shard, req.position, req.hiddenSize, payload⟩

/-- `ShardExecutionHTTPBridgeRequest.ShardExecutionRequest`. -/
def BridgeRequest.shardExecutionRequest (r : BridgeRequest) : Except GoError ShardExecutionRequest := do
  let activation ← r.activation.float32
  return ⟨r.sessionID, r.requestID, r.modelID, r.shard, r.position, r.hiddenSize, activation⟩

/-- `NewShardExecutionHTTPBridgeResponse`. -/
def newBridgeResponse (resp : ShardExecutionResponse) : Except GoError BridgeResponse := do
  let payload ← newActivationPayload resp.activation
  return ⟨resp.sessionID, resp.requestID, resp.peerID, resp.position, resp.hiddenSize, payload⟩

/-- `ShardExecutionHTTPBridgeResponse.ShardExecutionResponse`. -/
def BridgeResponse.shardExecutionResponse (r : BridgeResponse) :
    Except GoError ShardExecutionResponse := do
  let activation ← r.activation.float32
  return ⟨r.sessionID, r.requestID, r.peerID, r.position, r.hiddenSize, activation⟩

/-! ### Capabilities and previews -/

/-- A capability advertised by a peer during membership exchange. -/
structure Capability where
  peerID : String
  device : Device
  metadata : GoMap String

/-- One planned shard route on the wire. -/
structure RouteEntry where
  peerID : String
  address : String
  transport : String
  shard : Shard
deriving DecidableEq, Repr

/-- The wire-facing representation of planned shard routes. -/
structure RoutePreview where
  modelID : String
  layers : Int
  routes : List RouteEntry
deriving DecidableEq, Repr

end GoExotic
