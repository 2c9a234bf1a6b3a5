/-
Module: GoExotic.Proofs.LayerExecution
Purpose: One shard execution on a worker. Its checks are read off once, and its loop is a run of the model's
  layers on the slots of the KV caches, so it depends on the slots of the requested layers only and changes
  no others.
Trusted boundary: go-pherence, through the hypothesis ForwardsLocally
Main exports: LlamaModel.ForwardsLocally, layerStep, forwardLayers_eq_run, checkRequest_eq_ok, KVCache.Sized,
  executeLayerRange_accepted, RunsLayer, executeLayerRange_footprint
-/
import GoExotic.Model.Sim
import GoExotic.Proofs.PlanValidation
import GoExotic.Proofs.Protocol
import GoExotic.Theory.SlotStore

namespace GoExotic

open SlotStore Tiling

/-! ### The loop as a run of layers -/

/-- `ForwardLayer` for a layer depends on its input, the position and the layer's slots, changes only
these slots, and returns nil or a vector of the input's length. -/
structure LlamaModel.ForwardsLocally (m : LlamaModel) : Prop where
  footprint : ∀ (layer : Nat) hidden position,
    Footprint KVCache.slot (fun l => l = layer) (m.forwardLayer hidden layer position position)
  length : ∀ (layer : Nat) hidden position cache out,
    (m.forwardLayer hidden layer position position cache).1 = some out → out.length = hidden.length

/-- One iteration of the loop that started at layer `start`: poll the context, then run the layer. -/
def layerStep (m : LlamaModel) (ctx : Ctx) (position : Int) (start layer : Nat)
    (hidden : List Float32Bits) (cache : KVCache) : Except GoError (List Float32Bits) × KVCache :=
  match ctx.check (layer - start) with
  | .error err => (.error err, cache)
  | .ok () =>
      match m.forwardLayer hidden layer position position cache with
      | (none, cache) => (.error (.errorf "forward layer %d failed" [.int layer]), cache)
      | (some hidden, cache) => (.ok hidden, cache)

/-- The outcome of an iteration whose layer returned a vector or nil. -/
def layerResult (layer : Nat) : Option (List Float32Bits) → Except GoError (List Float32Bits)
  | none => .error (.errorf "forward layer %d failed" [.int layer])
  | some hidden => .ok hidden

variable {m : LlamaModel}

/-- The loop runs the layers of its range in order. -/
theorem forwardLayers_eq_run (m : LlamaModel) (ctx : Ctx) (position : Int) (start remaining : Nat)
    (layer : Nat) (above : start ≤ layer) (hidden : List Float32Bits) (cache : KVCache) :
    forwardLayers m ctx position remaining (layer - start) layer hidden cache =
      run (layerStep m ctx position start) (List.range' layer remaining) hidden cache := by
  induction remaining generalizing layer hidden cache with
  | zero => rfl
  | succ remaining inductionHypothesis =>
      rw [forwardLayers, List.range'_succ, run, layerStep]
      cases ctx.check (layer - start) with
      | error err => rfl
      | ok u =>
          rcases m.forwardLayer hidden layer position position cache with ⟨_ | out, after⟩
          · rfl
          · have next := inductionHypothesis (layer + 1) (by omega) out after
            rw [Nat.sub_add_comm above, Nat.cast_succ] at next
            exact next

/-- One iteration works on the slot of its layer alone. -/
theorem layerStep_local (forwards : m.ForwardsLocally) (ctx : Ctx) (position : Int) (start : Nat) :
    SlotLocal KVCache.slot (layerStep m ctx position start) := by
  intro layer hidden
  have stops : ∀ answer : Except GoError (List Float32Bits),
      Footprint KVCache.slot (fun l => l = layer) fun cache => (answer, cache) :=
    fun answer => Footprint.pure _ _ answer
  cases polled : ctx.check (layer - start) with
  | error err =>
      have same : layerStep m ctx position start layer hidden = fun cache => (.error err, cache) := by
        funext cache
        rw [layerStep, polled]
      rw [same]
      exact stops (.error err)
  | ok u =>
      have same : layerStep m ctx position start layer hidden = fun cache =>
          (layerResult layer (m.forwardLayer hidden layer position position cache).1,
            (m.forwardLayer hidden layer position position cache).2) := by
        funext cache
        rw [layerStep, polled]
        dsimp only
        rcases m.forwardLayer hidden layer position position cache with ⟨_ | out, after⟩ <;> rfl
      rw [same]
      exact (forwards.footprint layer hidden position).map (layerResult layer)

/-- One iteration keeps the length of the vector it hands on. -/
theorem layerStep_length (forwards : m.ForwardsLocally) {ctx : Ctx} {position : Int} {start layer : Nat}
    {hidden out : List Float32Bits} {cache : KVCache}
    (stepped : (layerStep m ctx position start layer hidden cache).1 = .ok out) :
    out.length = hidden.length := by
  rw [layerStep] at stepped
  cases polled : ctx.check (layer - start) with
  | error err => simp [polled] at stepped
  | ok u =>
      rw [polled] at stepped
      dsimp only at stepped
      rcases ran : m.forwardLayer hidden layer position position cache with ⟨_ | result, after⟩
      · simp [ran] at stepped
      · rw [ran, Except.ok.injEq] at stepped
        subst stepped
        exact forwards.length layer hidden position cache result (by rw [ran])

/-! ### One request -/

/-- The layers of a shard. -/
abbrev Shard.layers (s : Shard) : List Nat := cells Shard.startLayer Shard.endLayer s

theorem Shard.mem_layers {s : Shard} (start : 0 ≤ s.startLayer) {layer : Nat} :
    layer ∈ s.layers ↔ s.startLayer ≤ layer ∧ (layer : Int) ≤ s.endLayer :=
  mem_cells start

variable {e : PherenceLayerExecutor} {ctx : Ctx} {req : ShardExecutionRequest} {totalLayers : Int}

/-- The checks before the loop, as far as they do not look at the caches. -/
theorem checkRequest_eq_ok :
    e.checkRequest ctx req totalLayers = .ok m ↔
      e.model = some m ∧ ctx.check 0 = .ok () ∧ totalLayers = m.numLayers ∧
        req.validate totalLayers = .ok () ∧ req.hiddenSize = m.hiddenSize := by
  rw [PherenceLayerExecutor.checkRequest]
  cases e.model with
  | none => simp
  | some model =>
      simp only [bind_eq_ok, failIf_eq_ok, exists_const, not_not, pure_eq_ok, Except.ok.injEq,
        Option.some.injEq]
      constructor
      · rintro ⟨⟨⟩, now, layers, ⟨⟩, valid, hidden, rfl⟩
        exact ⟨rfl, now, layers, valid, hidden⟩
      · rintro ⟨rfl, now, layers, valid, hidden⟩
        exact ⟨(), now, layers, (), valid, hidden, rfl⟩

theorem ShardExecutionRequest.shard_valid (valid : req.validate totalLayers = .ok ()) :
    req.shard.validate totalLayers = .ok () :=
  (ShardExecutionRequest.validate_eq_ok.mp valid).2.2.2.1

/-- The response to a request with its final activation. -/
def respond (req : ShardExecutionRequest) (hidden : List Float32Bits) : ShardExecutionResponse :=
  ⟨req.sessionID, req.requestID, req.shard.deviceID, req.position, req.hiddenSize, hidden⟩

/-- The caches have as many layers as the model. -/
def KVCache.Sized (cache : KVCache) (m : LlamaModel) : Prop :=
  (cache.k.length : Int) = m.numLayers ∧ (cache.v.length : Int) = m.numLayers

instance (cache : KVCache) (m : LlamaModel) : Decidable (cache.Sized m) :=
  inferInstanceAs (Decidable (_ ∧ _))

/-- A request the checks reject changes nothing. -/
theorem executeLayerRange_rejected {err : GoError} {cache : KVCache}
    (rejected : e.checkRequest ctx req totalLayers = .error err) :
    e.executeLayerRange ctx req cache totalLayers = (.error err, cache) := by
  rw [PherenceLayerExecutor.executeLayerRange, PherenceLayerExecutor.checkLayerRange, rejected]
  rfl

/-- One slot tells whether the caches have the model's size. -/
theorem KVCache.sized_congr (m : LlamaModel) {s t : KVCache} {layer : Nat}
    (same : s.slot layer = t.slot layer) :
    (s.Sized m ↔ t.Sized m) ∧ s.k.length = t.k.length ∧ s.v.length = t.v.length := by
  simp only [KVCache.slot, KVSlot.mk.injEq] at same
  obtain ⟨-, -, sameK, sameV⟩ := same
  rw [KVCache.Sized, KVCache.Sized, sameK, sameV]
  exact ⟨Iff.rfl, rfl, rfl⟩

/-- The error of caches that do not have the model's size. -/
def missizedError (m : LlamaModel) (cache : KVCache) : GoError :=
  .errorf "KV cache layers K/V=%d/%d, want %d"
    [.int cache.k.length, .int cache.v.length, .int m.numLayers]

/-- Caches of another size are an error that changes nothing. -/
theorem executeLayerRange_missized {cache : KVCache} (checked : e.checkRequest ctx req totalLayers = .ok m)
    (missized : ¬ cache.Sized m) :
    e.executeLayerRange ctx req cache totalLayers = (.error (missizedError m cache), cache) := by
  have differs : (cache.k.length : Int) ≠ m.numLayers ∨ (cache.v.length : Int) ≠ m.numLayers := by
    rw [KVCache.Sized, not_and_or] at missized
    exact missized
  rw [PherenceLayerExecutor.executeLayerRange, PherenceLayerExecutor.checkLayerRange, checked]
  simp only [ok_bind, failIf, if_pos differs, error_bind]
  rfl

/-- A request that passes all checks runs the layers of its shard. -/
theorem executeLayerRange_accepted {cache : KVCache} (checked : e.checkRequest ctx req totalLayers = .ok m)
    (sized : cache.Sized m) :
    e.executeLayerRange ctx req cache totalLayers =
      (Except.map (respond req) (run (layerStep m (ctx.call 1) req.position req.shard.startLayer.toNat)
          req.shard.layers req.activation cache).1,
        (run (layerStep m (ctx.call 1) req.position req.shard.startLayer.toNat)
          req.shard.layers req.activation cache).2) := by
  have valid := (checkRequest_eq_ok.mp checked).2.2.2.1
  obtain ⟨-, -, start, -, -⟩ := Shard.validate_eq_ok.mp (ShardExecutionRequest.shard_valid valid)
  have same : ¬ ((cache.k.length : Int) ≠ m.numLayers ∨ (cache.v.length : Int) ≠ m.numLayers) := by
    rw [not_or, not_not, not_not]
    exact sized
  have loop := forwardLayers_eq_run m (ctx.call 1) req.position req.shard.startLayer.toNat
    (req.shard.endLayer + 1 - req.shard.startLayer).toNat _ (le_refl _) req.activation cache
  rw [Nat.sub_self, Int.toNat_of_nonneg start] at loop
  rw [PherenceLayerExecutor.executeLayerRange, PherenceLayerExecutor.checkLayerRange, checked]
  simp only [ok_bind, failIf_of_not same, pure_eq_ok, loop]
  rw [Shard.layers, cells]
  rcases run (layerStep m (ctx.call 1) req.position req.shard.startLayer.toNat)
    (List.range' req.shard.startLayer.toNat (req.shard.endLayer + 1 - req.shard.startLayer).toNat)
    req.activation cache with ⟨err | hidden, after⟩ <;> rfl

/-- The request passes the checks and the layer lies in its shard: the layers an execution may run. -/
def RunsLayer (e : PherenceLayerExecutor) (totalLayers : Int) (call : Ctx × ShardExecutionRequest)
    (layer : Nat) : Prop :=
  (∃ m, e.checkRequest call.1 call.2 totalLayers = .ok m) ∧ layer ∈ call.2.shard.layers

/-- An execution reads and writes the slots of the layers it runs only. -/
theorem executeLayerRange_footprint (forwards : ∀ m, e.model = some m → m.ForwardsLocally)
    (totalLayers : Int) (call : Ctx × ShardExecutionRequest) :
    Footprint KVCache.slot (RunsLayer e totalLayers call)
      fun cache => e.executeLayerRange call.1 call.2 cache totalLayers := by
  obtain ⟨ctx, req⟩ := call
  cases checked : e.checkRequest ctx req totalLayers with
  | error err =>
      have same : (fun cache => e.executeLayerRange ctx req cache totalLayers) =
          fun cache => (.error err, cache) := funext fun cache => executeLayerRange_rejected checked
      rw [same]
      exact Footprint.pure _ _ _
  | ok m =>
      obtain ⟨isModel, -, -, valid, -⟩ := checkRequest_eq_ok.mp checked
      obtain ⟨-, -, start, nonempty, -⟩ := Shard.validate_eq_ok.mp (ShardExecutionRequest.shard_valid valid)
      have runs : ∀ layer, RunsLayer e totalLayers (ctx, req) layer ↔ layer ∈ req.shard.layers :=
        fun layer => ⟨fun runs => runs.2, fun member => ⟨⟨m, checked⟩, member⟩⟩
      -- the first slot already tells how many layers the caches have
      have first : RunsLayer e totalLayers (ctx, req) req.shard.startLayer.toNat := by
        rw [runs, Shard.mem_layers start]
        omega
      have ran : Footprint KVCache.slot (RunsLayer e totalLayers (ctx, req))
          (run (layerStep m (ctx.call 1) req.position req.shard.startLayer.toNat) req.shard.layers
            req.activation) :=
        (run_footprint (layerStep_local (forwards m isModel) _ _ _) req.shard.layers req.activation).mono
          fun layer member => (runs layer).mpr member
      have chosen : (fun cache => e.executeLayerRange ctx req cache totalLayers) = fun cache =>
          if cache.Sized m then
            (Except.map (respond req) (run (layerStep m (ctx.call 1) req.position
                req.shard.startLayer.toNat) req.shard.layers req.activation cache).1,
              (run (layerStep m (ctx.call 1) req.position req.shard.startLayer.toNat) req.shard.layers
                req.activation cache).2)
          else (.error (missizedError m cache), cache) := by
        funext cache
        by_cases sized : cache.Sized m
        · rw [if_pos sized, executeLayerRange_accepted checked sized]
        · rw [if_neg sized, executeLayerRange_missized checked sized]
      rw [chosen]
      apply Footprint.ite
      · intro s t agree
        exact (KVCache.sized_congr m (agree _ first)).1
      · exact ran.map (Except.map (respond req))
      · apply Footprint.read
        intro s t agree
        obtain ⟨-, sameK, sameV⟩ := KVCache.sized_congr m (agree _ first)
        rw [missizedError, missizedError, sameK, sameV]

end GoExotic
