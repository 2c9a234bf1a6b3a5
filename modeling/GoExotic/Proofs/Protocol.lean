/-
Module: GoExotic.Proofs.Protocol
Purpose: Package protocol. Each validator as the conjunction of its checks; the activation payload, which
  stores the little-endian bytes of the values one after another and reads each value back from its four
  bytes; and the bridge forms, which therefore keep every valid request and response.
Trusted boundary: none
Main exports: ShardExecutionRequest.validate_eq_ok, ShardExecutionResponse.validate_eq_ok,
  validateActivation_eq_ok, packFloats_eq, newActivationPayload_eq, float32_packed,
  newBridgeRequest_eq, shardExecutionRequest_bridged, newBridgeResponse_eq, shardExecutionResponse_bridged
-/
import GoExotic.Model.Protocol

namespace GoExotic

/-! ### Validators -/

theorem ShardExecutionRequest.validate_eq_ok {req : ShardExecutionRequest} {totalLayers : Int} {u : Unit} :
    req.validate totalLayers = .ok u ↔
      trimSpace req.sessionID ≠ "" ∧ trimSpace req.requestID ≠ "" ∧ trimSpace req.modelID ≠ "" ∧
        req.shard.validate totalLayers = .ok () ∧
        validateActivation req.position req.hiddenSize req.activation = .ok () := by
  simp only [ShardExecutionRequest.validate, bind_eq_ok, failIf_eq_ok, exists_const]
  constructor
  · rintro ⟨session, request, model, ⟨⟩, shard, activation⟩
    exact ⟨session, request, model, shard, activation⟩
  · rintro ⟨session, request, model, shard, activation⟩
    exact ⟨session, request, model, (), shard, activation⟩

theorem ShardExecutionResponse.validate_eq_ok {resp : ShardExecutionResponse} {u : Unit} :
    resp.validate = .ok u ↔
      trimSpace resp.sessionID ≠ "" ∧ trimSpace resp.requestID ≠ "" ∧ trimSpace resp.peerID ≠ "" ∧
        validateActivation resp.position resp.hiddenSize resp.activation = .ok () := by
  simp only [ShardExecutionResponse.validate, bind_eq_ok, failIf_eq_ok, exists_const]

theorem validateActivation_eq_ok {position hiddenSize : Int} {activation : List Float32Bits} {u : Unit} :
    validateActivation position hiddenSize activation = .ok u ↔
      0 ≤ position ∧ 0 < hiddenSize ∧ hiddenSize ≤ maxActivationElements ∧
        (activation.length : Int) = hiddenSize := by
  simp only [validateActivation, bind_eq_ok, failIf_eq_ok, exists_const, not_lt, not_le, not_not,
    gt_iff_lt, ne_eq]

/-- Another activation of the same length is as good. -/
theorem validateActivation_congr {position hiddenSize : Int} {activation other : List Float32Bits}
    (same : other.length = activation.length) :
    validateActivation position hiddenSize other = .ok () ↔
      validateActivation position hiddenSize activation = .ok () := by
  rw [validateActivation_eq_ok, validateActivation_eq_ok, same]

/-! ### Values and bytes -/

@[simp] theorem littleEndianBytes_length (v : UInt32) : (littleEndianBytes v).length = 4 := rfl

/-- A value is read back from its bytes. -/
theorem littleEndianUint32_littleEndianBytes (v : UInt32) :
    littleEndianUint32 (littleEndianBytes v) = v := by
  have bound := v.toNat_lt
  have bytes : v.toNat % 2 ^ 8 + v.toNat / 2 ^ 8 % 2 ^ 8 * 2 ^ 8 + v.toNat / 2 ^ 16 % 2 ^ 8 * 2 ^ 16 +
      v.toNat / 2 ^ 24 % 2 ^ 8 * 2 ^ 24 = v.toNat := by omega
  rw [littleEndianBytes, littleEndianUint32, UInt8.toNat_ofNat', UInt8.toNat_ofNat', UInt8.toNat_ofNat',
    UInt8.toNat_ofNat', bytes, UInt32.ofNat_toNat]

/-- The bytes of a vector, one value after another. -/
def packed (values : List Float32Bits) : List UInt8 := values.flatMap littleEndianBytes

@[simp] theorem packed_length (values : List Float32Bits) : (packed values).length = values.length * 4 := by
  induction values with
  | nil => rfl
  | cons v rest inductionHypothesis =>
      rw [packed, List.flatMap_cons, List.length_append, ← packed, inductionHypothesis,
        littleEndianBytes_length, List.length_cons]
      omega

/-- The packing loop overwrites the rest of a buffer that is just long enough. -/
theorem packFloats_eq (values : List Float32Bits) (done buffer : List UInt8) (i : Nat)
    (written : done.length = i * 4) (fits : buffer.length = values.length * 4) :
    packFloats i values (done ++ buffer) = done ++ packed values := by
  induction values generalizing i done buffer with
  | nil =>
      have empty : buffer = [] := List.length_eq_zero_iff.mp (by simpa using fits)
      rw [packFloats, empty, packed, List.flatMap_nil]
  | cons v rest inductionHypothesis =>
      rw [List.length_cons] at fits
      have stored : storeAt (done ++ buffer) (i * 4) (littleEndianBytes v) =
          (done ++ littleEndianBytes v) ++ buffer.drop 4 := by
        rw [storeAt, ← written, List.take_left, List.drop_length_add_append, littleEndianBytes_length]
      rw [packFloats, stored, inductionHypothesis _ _ (i + 1) (by simp; omega) (by simp; omega),
        List.append_assoc, packed, packed, List.flatMap_cons]

/-- The four bytes at the place of a value are its bytes. -/
theorem packed_slice (values : List Float32Bits) (i : Nat) (inside : i < values.length) :
    ((packed values).drop (i * 4)).take 4 = littleEndianBytes values[i] := by
  induction values generalizing i with
  | nil => cases inside
  | cons v rest inductionHypothesis =>
      rw [packed, List.flatMap_cons, ← packed]
      cases i with
      | zero => rfl
      | succ i =>
          have later : (i + 1) * 4 = (littleEndianBytes v).length + i * 4 := by
            rw [littleEndianBytes_length]
            omega
          rw [later, List.drop_length_add_append, inductionHypothesis i (by simpa using inside),
            List.getElem_cons_succ]

/-! ### The payload -/

theorem checkedMulInt_four {n : Nat} (bounded : n ≤ maxActivationElements) :
    checkedMulInt n 4 = (((n * 4 : Nat) : Int), true) := by
  have bound : (maxActivationElements : Int) = 16777216 := rfl
  have quotient : Int.tdiv maxInt 4 = 2305843009213693951 := by decide
  have maximum := maxInt_lit
  have minimum := minInt_lit
  rw [checkedMulInt, if_neg (by omega)]
  by_cases zero : n = 0
  · rw [if_pos (by omega), zero]
    rfl
  · rw [if_neg (by omega), quotient, if_neg (by omega), wrapInt_eq (by omega) (by omega)]
    rfl

/-- Every vector of an accepted length is packed. -/
theorem newActivationPayload_eq {values : List Float32Bits} (nonempty : values ≠ [])
    (bounded : values.length ≤ maxActivationElements) :
    newActivationPayload values = .ok ⟨activationEncodingF32LE, values.length, packed values⟩ := by
  have some : ¬ values.length = 0 := by
    rw [List.length_eq_zero_iff]
    exact nonempty
  have written := packFloats_eq values [] (List.replicate (values.length * 4) 0) 0 rfl (by simp)
  rw [List.nil_append, List.nil_append] at written
  rw [newActivationPayload, failIf_of_not some, failIf_of_not (by omega), checkedMulInt_four bounded]
  simp only [ok_bind, failIf_of_not (by decide : ¬ true = false), Int.toNat_natCast, written, pure_eq_ok]

/-- A packed vector is unpacked as it was. -/
theorem float32_packed {values : List Float32Bits} (nonempty : values ≠ [])
    (bounded : values.length ≤ maxActivationElements) :
    (⟨activationEncodingF32LE, values.length, packed values⟩ : ActivationPayload).float32 =
      .ok values := by
  have some : 0 < values.length := List.length_pos_iff.mpr nonempty
  have unpacked : ((List.range values.length).map fun i =>
      littleEndianUint32 (((packed values).drop (i * 4)).take 4)) = values := by
    apply List.ext_getElem
    · simp
    · intro i _ inside
      rw [List.getElem_map, List.getElem_range, packed_slice values i inside,
        littleEndianUint32_littleEndianBytes]
  rw [ActivationPayload.float32]
  dsimp only
  rw [failIf_of_not (by simp), failIf_of_not (by omega), failIf_of_not (by omega),
    checkedMulInt_four bounded]
  simp only [ok_bind, failIf_of_not (by decide : ¬ true = false), packed_length, Int.toNat_natCast,
    unpacked, failIf_of_not (not_not.mpr rfl : ¬ ((values.length * 4 : Nat) : Int) ≠ (values.length * 4 : Nat)),
    pure_eq_ok]

/-! ### The bridge -/

/-- The payload of an activation. -/
def payloadOf (activation : List Float32Bits) : ActivationPayload :=
  ⟨activationEncodingF32LE, activation.length, packed activation⟩

/-- The bridge form of a request. -/
def ShardExecutionRequest.bridged (req : ShardExecutionRequest) : BridgeRequest :=
  ⟨req.sessionID, req.requestID, req.modelID, req.shard, req.position, req.hiddenSize,
    payloadOf req.activation⟩

/-- The bridge form of a response. -/
def ShardExecutionResponse.bridged (resp : ShardExecutionResponse) : BridgeResponse :=
  ⟨resp.sessionID, resp.requestID, resp.peerID, resp.position, resp.hiddenSize,
    payloadOf resp.activation⟩

/-- A valid activation has an accepted length. -/
theorem activation_length {position hiddenSize : Int} {activation : List Float32Bits}
    (valid : validateActivation position hiddenSize activation = .ok ()) :
    activation ≠ [] ∧ activation.length ≤ maxActivationElements := by
  obtain ⟨-, positive, bounded, same⟩ := validateActivation_eq_ok.mp valid
  constructor
  · apply List.length_pos_iff.mp
    omega
  · omega

theorem newBridgeRequest_eq {req : ShardExecutionRequest}
    (valid : validateActivation req.position req.hiddenSize req.activation = .ok ()) :
    newBridgeRequest req = .ok req.bridged := by
  obtain ⟨nonempty, bounded⟩ := activation_length valid
  rw [newBridgeRequest, newActivationPayload_eq nonempty bounded]
  rfl

theorem shardExecutionRequest_bridged {req : ShardExecutionRequest}
    (valid : validateActivation req.position req.hiddenSize req.activation = .ok ()) :
    req.bridged.shardExecutionRequest = .ok req := by
  obtain ⟨nonempty, bounded⟩ := activation_length valid
  rw [BridgeRequest.shardExecutionRequest, ShardExecutionRequest.bridged, payloadOf,
    float32_packed nonempty bounded]
  rfl

theorem newBridgeResponse_eq {resp : ShardExecutionResponse}
    (valid : validateActivation resp.position resp.hiddenSize resp.activation = .ok ()) :
    newBridgeResponse resp = .ok resp.bridged := by
  obtain ⟨nonempty, bounded⟩ := activation_length valid
  rw [newBridgeResponse, newActivationPayload_eq nonempty bounded]
  rfl

theorem shardExecutionResponse_bridged {resp : ShardExecutionResponse}
    (valid : validateActivation resp.position resp.hiddenSize resp.activation = .ok ()) :
    resp.bridged.shardExecutionResponse = .ok resp := by
  obtain ⟨nonempty, bounded⟩ := activation_length valid
  rw [BridgeResponse.shardExecutionResponse, ShardExecutionResponse.bridged, payloadOf,
    float32_packed nonempty bounded]
  rfl

end GoExotic
