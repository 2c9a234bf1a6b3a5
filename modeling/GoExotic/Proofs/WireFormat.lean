/-
Module: GoExotic.Proofs.WireFormat
Purpose: The activation wire format is a bijection. Every payload that decodes is the payload of the vector
  it decodes to, so packing and unpacking are inverse to each other on all vectors of an accepted length
  and all payloads with a matching byte count, and the bridge forms lose nothing in either direction.
Trusted boundary: none
Main exports: unpacked, packed_unpacked, newActivationPayload_eq_ok, float32_eq_ok,
  newActivationPayload_iff_float32, WireBijection, activation_wire_bijection
-/
import GoExotic.Proofs.Protocol

namespace GoExotic

/-! ### Bytes and values -/

/-- Four bytes are read back from their value. -/
theorem littleEndianBytes_littleEndianUint32 (b0 b1 b2 b3 : UInt8) :
    littleEndianBytes (littleEndianUint32 [b0, b1, b2, b3]) = [b0, b1, b2, b3] := by
  have bound0 := b0.toNat_lt
  have bound1 := b1.toNat_lt
  have bound2 := b2.toNat_lt
  have bound3 := b3.toNat_lt
  have value : (littleEndianUint32 [b0, b1, b2, b3]).toNat =
      b0.toNat + b1.toNat * 2 ^ 8 + b2.toNat * 2 ^ 16 + b3.toNat * 2 ^ 24 := by
    rw [littleEndianUint32]
    apply UInt32.toNat_ofNat_of_lt'
    rw [UInt32.size]
    omega
  have byte : ∀ (n : Nat) (b : UInt8), n % 2 ^ 8 = b.toNat → UInt8.ofNat n = b := by
    intro n b same
    rw [← UInt8.toNat_inj, UInt8.toNat_ofNat', same]
  rw [littleEndianBytes, value, byte _ b0 (by omega), byte _ b1 (by omega), byte _ b2 (by omega),
    byte _ b3 (by omega)]

/-- The values of `n` groups of four bytes. -/
def unpacked (n : Nat) (data : List UInt8) : List Float32Bits :=
  (List.range n).map fun i => littleEndianUint32 ((data.drop (i * 4)).take 4)

@[simp] theorem unpacked_length (n : Nat) (data : List UInt8) : (unpacked n data).length = n := by
  rw [unpacked, List.length_map, List.length_range]

theorem unpacked_succ (n : Nat) (data : List UInt8) :
    unpacked (n + 1) data = littleEndianUint32 (data.take 4) :: unpacked n (data.drop 4) := by
  have later : ∀ i, (i + 1) * 4 = 4 + i * 4 := by
    intro i
    omega
  simp only [unpacked, List.range_succ_eq_map, List.map_cons, List.map_map, Function.comp_def,
    Nat.succ_eq_add_one, later, Nat.zero_mul, List.drop_zero, List.drop_drop]

/-- Bytes in groups of four are the bytes of their values. -/
theorem packed_unpacked (n : Nat) (data : List UInt8) (whole : data.length = n * 4) :
    packed (unpacked n data) = data := by
  induction n generalizing data with
  | zero => exact (List.length_eq_zero_iff.mp (by omega)).symm
  | succ n inductionHypothesis =>
      obtain ⟨b0, b1, b2, b3, rest, rfl⟩ : ∃ b0 b1 b2 b3 rest, data = b0 :: b1 :: b2 :: b3 :: rest := by
        match data with
        | b0 :: b1 :: b2 :: b3 :: rest => exact ⟨b0, b1, b2, b3, rest, rfl⟩
        | [] | [_] | [_, _] | [_, _, _] =>
            simp only [List.length_cons, List.length_nil] at whole
            omega
      have restWhole : rest.length = n * 4 := by
        simp only [List.length_cons] at whole
        omega
      have bytes := inductionHypothesis rest restWhole
      rw [packed] at bytes
      rw [unpacked_succ, packed, List.flatMap_cons]
      dsimp only [List.take, List.drop]
      rw [littleEndianBytes_littleEndianUint32, bytes]
      rfl

/-! ### Payloads -/

/-- The payloads `NewActivationPayload` builds. -/
theorem newActivationPayload_eq_ok {values : List Float32Bits} {p : ActivationPayload} :
    newActivationPayload values = .ok p ↔
      (values ≠ [] ∧ values.length ≤ maxActivationElements) ∧ p = payloadOf values := by
  constructor
  · intro built
    have accepted : values ≠ [] ∧ values.length ≤ maxActivationElements := by
      simp only [newActivationPayload, bind_eq_ok, failIf_eq_ok, exists_const, not_lt] at built
      exact ⟨fun empty => built.1 (List.length_eq_zero_iff.mpr empty), built.2.1⟩
    rw [newActivationPayload_eq accepted.1 accepted.2, Except.ok.injEq] at built
    exact ⟨accepted, built.symm⟩
  · rintro ⟨⟨nonempty, bounded⟩, rfl⟩
    exact newActivationPayload_eq nonempty bounded

/-- The payloads `Float32` accepts. -/
def ActivationPayload.Accepted (p : ActivationPayload) : Prop :=
  p.encoding = activationEncodingF32LE ∧ 1 ≤ p.hiddenSize ∧ p.hiddenSize ≤ maxActivationElements ∧
    (p.data.length : Int) = 4 * p.hiddenSize

theorem float32_eq_ok {p : ActivationPayload} {values : List Float32Bits} :
    p.float32 = .ok values ↔ p.Accepted ∧ values = unpacked p.hiddenSize.toNat p.data := by
  rw [ActivationPayload.float32]
  simp only [bind_eq_ok, failIf_eq_ok, exists_const, not_not, not_le, not_lt, pure_eq_ok,
    Except.ok.injEq, ne_eq, gt_iff_lt]
  constructor
  · rintro ⟨encoding, positive, bounded, -, length, same⟩
    have four := checkedMulInt_four (n := p.hiddenSize.toNat) (by omega)
    rw [Int.toNat_of_nonneg (le_of_lt positive)] at four
    rw [four] at length
    dsimp only at length
    exact ⟨⟨encoding, positive, bounded, by omega⟩, same.symm⟩
  · rintro ⟨⟨encoding, positive, bounded, length⟩, rfl⟩
    have four := checkedMulInt_four (n := p.hiddenSize.toNat) (by omega)
    rw [Int.toNat_of_nonneg (by omega)] at four
    rw [four]
    refine ⟨encoding, positive, bounded, by simp, ?_, rfl⟩
    dsimp only
    omega

/-- An accepted payload is the payload of its values. -/
theorem ActivationPayload.Accepted.eq_payloadOf {p : ActivationPayload} (accepted : p.Accepted) :
    p = payloadOf (unpacked p.hiddenSize.toNat p.data) := by
  obtain ⟨encoding, positive, -, length⟩ := accepted
  have data := packed_unpacked p.hiddenSize.toNat p.data (by omega)
  have hiddenSize : (p.hiddenSize.toNat : Int) = p.hiddenSize := Int.toNat_of_nonneg (by omega)
  rw [payloadOf, data, unpacked_length, hiddenSize, ← encoding]

/-- Packing and unpacking are inverse to each other. -/
theorem newActivationPayload_iff_float32 {values : List Float32Bits} {p : ActivationPayload} :
    newActivationPayload values = .ok p ↔ p.float32 = .ok values := by
  constructor
  · intro built
    obtain ⟨⟨nonempty, bounded⟩, rfl⟩ := newActivationPayload_eq_ok.mp built
    exact float32_packed nonempty bounded
  · intro decoded
    obtain ⟨accepted, rfl⟩ := float32_eq_ok.mp decoded
    obtain ⟨-, positive, bounded, -⟩ := id accepted
    refine newActivationPayload_eq_ok.mpr ⟨⟨?_, ?_⟩, accepted.eq_payloadOf⟩
    · apply List.length_pos_iff.mp
      rw [unpacked_length]
      omega
    · rw [unpacked_length]
      omega

/-- The hidden size of a payload that decodes is the number of its values. -/
theorem float32_length {p : ActivationPayload} {values : List Float32Bits}
    (decoded : p.float32 = .ok values) : (values.length : Int) = p.hiddenSize := by
  obtain ⟨⟨-, positive, -, -⟩, rfl⟩ := float32_eq_ok.mp decoded
  rw [unpacked_length, Int.toNat_of_nonneg (by omega)]

/-! ### The bridge -/

theorem shardExecutionRequest_eq_ok {bridge : BridgeRequest} {req : ShardExecutionRequest} :
    bridge.shardExecutionRequest = .ok req ↔
      ∃ activation, bridge.activation.float32 = .ok activation ∧
        ⟨bridge.sessionID, bridge.requestID, bridge.modelID, bridge.shard, bridge.position,
          bridge.hiddenSize, activation⟩ = req := by
  simp only [BridgeRequest.shardExecutionRequest, bind_eq_ok, pure_eq_ok, Except.ok.injEq]

theorem shardExecutionResponse_eq_ok {bridge : BridgeResponse} {resp : ShardExecutionResponse} :
    bridge.shardExecutionResponse = .ok resp ↔
      ∃ activation, bridge.activation.float32 = .ok activation ∧
        ⟨bridge.sessionID, bridge.requestID, bridge.peerID, bridge.position, bridge.hiddenSize,
          activation⟩ = resp := by
  simp only [BridgeResponse.shardExecutionResponse, bind_eq_ok, pure_eq_ok, Except.ok.injEq]

/-- The wire format in both directions: which vectors and payloads are accepted, that packing and
unpacking are inverse to each other, and the same for the bridge forms. -/
structure WireBijection : Prop where
  packs : ∀ values, (∃ p, newActivationPayload values = .ok p) ↔
    1 ≤ values.length ∧ values.length ≤ maxActivationElements
  unpacks : ∀ p : ActivationPayload, (∃ values, p.float32 = .ok values) ↔ p.Accepted
  unpacks_packed : ∀ values p, newActivationPayload values = .ok p → p.float32 = .ok values
  packs_unpacked : ∀ (p : ActivationPayload) (values), p.float32 = .ok values →
    newActivationPayload values = .ok p
  request_kept : ∀ (req : ShardExecutionRequest) (totalLayers : Int), req.validate totalLayers = .ok () →
    ∃ bridge, newBridgeRequest req = .ok bridge ∧ bridge.shardExecutionRequest = .ok req
  response_kept : ∀ resp : ShardExecutionResponse, resp.validate = .ok () →
    ∃ bridge, newBridgeResponse resp = .ok bridge ∧ bridge.shardExecutionResponse = .ok resp
  bridge_request_kept : ∀ (bridge : BridgeRequest) (req), bridge.shardExecutionRequest = .ok req →
    newBridgeRequest req = .ok bridge
  bridge_response_kept : ∀ (bridge : BridgeResponse) (resp), bridge.shardExecutionResponse = .ok resp →
    newBridgeResponse resp = .ok bridge
  request_sizes_agree : ∀ (bridge : BridgeRequest) (req) (totalLayers : Int),
    bridge.shardExecutionRequest = .ok req → req.validate totalLayers = .ok () →
      bridge.hiddenSize = bridge.activation.hiddenSize
  response_sizes_agree : ∀ (bridge : BridgeResponse) (resp),
    bridge.shardExecutionResponse = .ok resp → resp.validate = .ok () →
      bridge.hiddenSize = bridge.activation.hiddenSize

theorem activation_wire_bijection : WireBijection where
  packs values := by
    simp only [newActivationPayload_eq_ok, exists_and_left, exists_eq, and_true]
    exact and_congr_left fun _ => (List.length_pos_iff (l := values)).symm
  unpacks p := by
    simp only [float32_eq_ok, exists_and_left, exists_eq, and_true]
  unpacks_packed _ _ := newActivationPayload_iff_float32.mp
  packs_unpacked _ _ := newActivationPayload_iff_float32.mpr
  request_kept req _ valid := by
    obtain ⟨-, -, -, -, activation⟩ := ShardExecutionRequest.validate_eq_ok.mp valid
    exact ⟨req.bridged, newBridgeRequest_eq activation, shardExecutionRequest_bridged activation⟩
  response_kept resp valid := by
    obtain ⟨-, -, -, activation⟩ := ShardExecutionResponse.validate_eq_ok.mp valid
    exact ⟨resp.bridged, newBridgeResponse_eq activation, shardExecutionResponse_bridged activation⟩
  bridge_request_kept bridge req decoded := by
    obtain ⟨activation, unpacks, rfl⟩ := shardExecutionRequest_eq_ok.mp decoded
    rw [newBridgeRequest, newActivationPayload_iff_float32.mpr unpacks]
    rfl
  bridge_response_kept bridge resp decoded := by
    obtain ⟨activation, unpacks, rfl⟩ := shardExecutionResponse_eq_ok.mp decoded
    rw [newBridgeResponse, newActivationPayload_iff_float32.mpr unpacks]
    rfl
  request_sizes_agree bridge req totalLayers decoded valid := by
    obtain ⟨activation, unpacks, rfl⟩ := shardExecutionRequest_eq_ok.mp decoded
    obtain ⟨-, -, -, -, valid⟩ := ShardExecutionRequest.validate_eq_ok.mp valid
    obtain ⟨-, -, -, length⟩ := validateActivation_eq_ok.mp valid
    exact length.symm.trans (float32_length unpacks)
  response_sizes_agree bridge resp decoded valid := by
    obtain ⟨activation, unpacks, rfl⟩ := shardExecutionResponse_eq_ok.mp decoded
    obtain ⟨-, -, -, valid⟩ := ShardExecutionResponse.validate_eq_ok.mp valid
    obtain ⟨-, -, -, length⟩ := validateActivation_eq_ok.mp valid
    exact length.symm.trans (float32_length unpacks)

end GoExotic
