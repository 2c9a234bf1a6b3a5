/-
Module: GoExotic.Model.Runtime
Purpose: Package runtime's in-process layer executor over a go-pherence model, with the KV caches it
  updates in place as part of the state. The model's `ForwardLayer` is a parameter; what a result needs
  of it is a hypothesis of that result.
Trusted boundary: go-pherence
Main exports: KVCache, LlamaModel, PherenceLayerExecutor, newPherenceLayerExecutor, forwardLayers,
  PherenceLayerExecutor.executeLayerRange, LayerRangeExecutor
-/
import GoExotic.Model.Protocol

namespace GoExotic

/-- The caller-owned key and value caches, layer by layer. -/
structure KVCache where
  k : List (List Float32Bits)
  v : List (List Float32Bits)
deriving DecidableEq, Repr

/-- What one layer can see of the caches: its slot in each of them, and how many layers they have. -/
structure KVSlot where
  k : Option (List Float32Bits)
  v : Option (List Float32Bits)
  layersK : Nat
  layersV : Nat
deriving DecidableEq, Repr

namespace KVCache

/-- The slot of a layer. -/
def slot (c : KVCache) (layer : Nat) : KVSlot := ⟨c.k[layer]?, c.v[layer]?, c.k.length, c.v.length⟩

/-- Fresh caches for a number of layers. -/
def fresh (layers : Nat) : KVCache := ⟨List.replicate layers [], List.replicate layers []⟩

end KVCache

/-- A loaded go-pherence model: its configuration, and its layers as the function `ForwardLayer` of an
activation, a layer, two positions and the caches. The result is `none` for nil, next to the caches as
they are after the call. -/
structure LlamaModel where
  hiddenSize : Int
  numLayers : Int
  layers : Nat
  forwardLayer : List Float32Bits → Int → Int → Int → KVCache → Option (List Float32Bits) × KVCache

/-- `PherenceLayerExecutor`; a nil model is `none`. -/
structure PherenceLayerExecutor where
  model : Option LlamaModel

/-- `NewPherenceLayerExecutor`. -/
def newPherenceLayerExecutor : Option LlamaModel → Except GoError PherenceLayerExecutor
  | none => .error (.errorf "nil model" [])
  | some model => do
      failIf (model.hiddenSize ≤ 0 ∨ model.numLayers < 0 ∨ (model.layers : Int) < model.numLayers)
        (.errorf "invalid model dims hidden=%d layers=%d/%d"
          [.int model.hiddenSize, .int model.numLayers, .int model.layers])
      return ⟨some model⟩

/-- The loop of `ExecuteLayerRange` with `remaining` layers to go from `layer` on, at its poll of the
context. The last layer is below the model's layer count, so `layer++` stays an `int`. -/
def forwardLayers (model : LlamaModel) (ctx : Ctx) (position : Int) :
    Nat → Nat → Int → List Float32Bits → KVCache → Except GoError (List Float32Bits) × KVCache
  | 0, _, _, hidden, cache => (.ok hidden, cache)
  | remaining + 1, poll, layer, hidden, cache =>
      match ctx.check poll with
      | .error err => (.error err, cache)
      | .ok () =>
          match model.forwardLayer hidden layer position position cache with
          | (none, cache) => (.error (.errorf "forward layer %d failed" [.int layer]), cache)
          | (some hidden, cache) =>
              forwardLayers model ctx position remaining (poll + 1) (layer + 1) hidden cache

namespace PherenceLayerExecutor

/-- The checks of `ExecuteLayerRange` that do not look at the caches. -/
def checkRequest (e : PherenceLayerExecutor) (ctx : Ctx) (req : ShardExecutionRequest)
    (totalLayers : Int) : Except GoError LlamaModel :=
  match e.model with
  | none => .error (.errorf "nil layer executor" [])
  | some model => do
      ctx.check 0
      failIf (totalLayers ≠ model.numLayers)
        (.errorf "total layers=%d, model layers=%d" [.int totalLayers, .int model.numLayers])
      req.validate totalLayers
      failIf (req.hiddenSize ≠ model.hiddenSize)
        (.errorf "request hidden size=%d, model hidden size=%d"
          [.int req.hiddenSize, .int model.hiddenSize])
      return model

/-- All checks of `ExecuteLayerRange` before its loop. -/
def checkLayerRange (e : PherenceLayerExecutor) (ctx : Ctx) (req : ShardExecutionRequest)
    (cache : KVCache) (totalLayers : Int) : Except GoError LlamaModel := do
  let model ← e.checkRequest ctx req totalLayers
  failIf ((cache.k.length : Int) ≠ model.numLayers ∨ (cache.v.length : Int) ≠ model.numLayers)
    (.errorf "KV cache layers K/V=%d/%d, want %d"
      [.int cache.k.length, .int cache.v.length, .int model.numLayers])
  return model

/-- `ExecuteLayerRange`: the result, and the caches after the call. -/
def executeLayerRange (e : PherenceLayerExecutor) (ctx : Ctx) (req : ShardExecutionRequest)
    (cache : KVCache) (totalLayers : Int) : Except GoError ShardExecutionResponse × KVCache :=
  match e.checkLayerRange ctx req cache totalLayers with
  | .error err => (.error err, cache)
  | .ok model =>
      match forwardLayers model (ctx.call 1) req.position
          (req.shard.endLayer + 1 - req.shard.startLayer).toNat 0 req.shard.startLayer req.activation
          cache with
      | (.error err, cache) => (.error err, cache)
      | (.ok hidden, cache) =>
          (.ok ⟨req.sessionID, req.requestID, req.shard.deviceID, req.position, req.hiddenSize, hidden⟩,
            cache)

end PherenceLayerExecutor

/-- `LayerRangeExecutor`: what a worker needs of an executor. -/
abbrev LayerRangeExecutor :=
  Ctx → ShardExecutionRequest → KVCache → Int → Except GoError ShardExecutionResponse × KVCache

end GoExotic
