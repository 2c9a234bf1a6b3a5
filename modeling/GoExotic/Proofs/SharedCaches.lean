/-
Module: GoExotic.Proofs.SharedCaches
Purpose: What the KV caches of a worker share and keep. All sessions of a worker use the same caches, so a
  session is isolated from the others as long as none of them has run one of its layers before; where two
  sessions share a layer it is not. A failed execution keeps what its completed layers appended and
  nothing else, so it leaves the worker as it was exactly when no layer had completed.
Trusted boundary: go-pherence, through the hypotheses ForwardsLocally and AppendsStep
Main exports: serveShard, session_isolation, KVSlot.Grew, LlamaModel.AppendsStep, completedLayers,
  KeepsCompleted, failed_shard_keeps_completed_layers
-/
import GoExotic.Proofs.LayerExecution

namespace GoExotic

open SlotStore Runs

/-- A worker over a go-pherence executor. -/
def LayerExecutorWorker.over (e : PherenceLayerExecutor) (cache : KVCache) (totalLayers : Int) :
    LayerExecutorWorker :=
  ⟨some e.executeLayerRange, cache, totalLayers⟩

variable {e : PherenceLayerExecutor} {totalLayers : Int}

theorem executeShard_over (ctx : Ctx) (req : ShardExecutionRequest) (cache : KVCache) :
    (LayerExecutorWorker.over e cache totalLayers).executeShard ctx req =
      ((e.executeLayerRange ctx req cache totalLayers).1,
        .over e (e.executeLayerRange ctx req cache totalLayers).2 totalLayers) := rfl

/-! ### A model to evaluate -/

/-- A model whose layers add to every element the number of steps they remember, and append one entry to
their slots. -/
def recallModel (layers : Nat) : LlamaModel where
  hiddenSize := 1
  numLayers := layers
  layers := layers
  forwardLayer hidden layer _ _ cache :=
    (some (hidden.map fun x => x + UInt32.ofNat ((cache.k[layer.toNat]?.getD []).length)),
      ⟨cache.k.modify layer.toNat (· ++ [0]), cache.v.modify layer.toNat (· ++ [0])⟩)

theorem recallModel_forwardsLocally (layers : Nat) : (recallModel layers).ForwardsLocally := by
  constructor
  · intro layer hidden position
    constructor
    · intro s t agree
      have slots := agree layer rfl
      simp only [KVCache.slot, KVSlot.mk.injEq] at slots
      simp only [recallModel, Int.toNat_natCast, slots.1]
    · rintro s t agree l rfl
      have slots := agree l rfl
      simp only [KVCache.slot, KVSlot.mk.injEq] at slots
      simp [recallModel, KVCache.slot, slots]
    · intro s l outside
      simp [recallModel, KVCache.slot, Ne.symm outside]
  · intro layer hidden position cache out ran
    simp only [recallModel, Option.some.injEq] at ran
    rw [← ran, List.length_map]

/-! ### Sessions -/

/-- A request served by a worker. -/
def serveShard (call : Ctx × ShardExecutionRequest) (w : LayerExecutorWorker) :
    Except GoError ShardExecutionResponse × LayerExecutorWorker :=
  w.executeShard call.1 call.2

/-- The session of a request. -/
def session (call : Ctx × ShardExecutionRequest) : String := call.2.sessionID

/-- A worker answers as its executor does on its caches. -/
theorem trace_over (calls : List (Ctx × ShardExecutionRequest)) (cache : KVCache) :
    trace serveShard calls (.over e cache totalLayers) =
      trace (fun call cache => e.executeLayerRange call.1 call.2 cache totalLayers) calls cache := by
  induction calls generalizing cache with
  | nil => rfl
  | cons call rest inductionHypothesis =>
      rw [trace, trace, serveShard, executeShard_over, inductionHypothesis]

/-- A session none of whose requests runs a layer that another session ran before gets the answers it
would get alone. -/
theorem session_isolation (e : PherenceLayerExecutor)
    (forwards : ∀ m, e.model = some m → m.ForwardsLocally) (cache : KVCache) (totalLayers : Int)
    (calls : List (Ctx × ShardExecutionRequest)) (own : String)
    (undisturbed : Undisturbed session (RunsLayer e totalLayers) own calls) :
    (trace serveShard calls (.over e cache totalLayers)).filter (fun entry => session entry.1 = own) =
      trace serveShard (calls.filter fun call => session call = own) (.over e cache totalLayers) := by
  rw [trace_over, trace_over]
  exact trace_isolated session (RunsLayer e totalLayers)
    (executeLayerRange_footprint forwards totalLayers) own undisturbed cache

/-- A request of a session for one layer of two. -/
def exampleRequest (sessionID : String) (first last : Int) : ShardExecutionRequest :=
  ⟨sessionID, "r", "m", ⟨"p", first, last⟩, 0, 1, [0]⟩

/-- Two sessions on the same layer, one request each. -/
def sharedLayerCalls : List (Ctx × ShardExecutionRequest) :=
  [(.background, exampleRequest "s" 0 0), (.background, exampleRequest "t" 0 0)]

/-- The second session's answer counts the first one's step; alone it would not. -/
theorem sessions_share_caches :
    (recallModel 2).ForwardsLocally ∧
      ((trace serveShard sharedLayerCalls (.over ⟨some (recallModel 2)⟩ (.fresh 2) 2)).filter
          fun entry => session entry.1 = "t").map Prod.snd =
        [.ok ⟨"t", "r", "p", 0, 1, [1]⟩] ∧
      (trace serveShard (sharedLayerCalls.filter fun call => session call = "t")
          (.over ⟨some (recallModel 2)⟩ (.fresh 2) 2)).map Prod.snd =
        [.ok ⟨"t", "r", "p", 0, 1, [0]⟩] :=
  ⟨recallModel_forwardsLocally 2, by decide +kernel, by decide +kernel⟩

/-- Two sessions on two layers do not see each other. -/
theorem session_isolation_apart :
    (trace serveShard [(.background, exampleRequest "s" 0 0), (.background, exampleRequest "t" 1 1)]
        (.over ⟨some (recallModel 2)⟩ (.fresh 2) 2)).filter (fun entry => session entry.1 = "t") =
      trace serveShard [(.background, exampleRequest "t" 1 1)]
        (.over ⟨some (recallModel 2)⟩ (.fresh 2) 2) := by
  apply session_isolation ⟨some (recallModel 2)⟩ ?_ (.fresh 2) 2
    [(.background, exampleRequest "s" 0 0), (.background, exampleRequest "t" 1 1)] "t"
  · apply List.pairwise_pair.mpr
    rintro - - layer ⟨-, second⟩ ⟨-, first⟩
    simp [exampleRequest, Shard.layers, Tiling.cells] at first second
    omega
  · rintro m isModel
    cases isModel
    exact recallModel_forwardsLocally 2

/-! ### Failed executions -/

/-- A step's key and value were appended to the slot. -/
def KVSlot.Grew (before after : KVSlot) : Prop :=
  ∃ oldK oldV key value, key ≠ [] ∧ value ≠ [] ∧ before.k = some oldK ∧ before.v = some oldV ∧
    after = ⟨some (oldK ++ key), some (oldV ++ value), before.layersK, before.layersV⟩

/-- A successful `ForwardLayer` appends the step's key and value to the slot of its layer and changes no
other slot; one that returns nil changes nothing. -/
structure LlamaModel.AppendsStep (m : LlamaModel) : Prop where
  appends : ∀ (layer : Nat) hidden position cache out after,
    layer < cache.k.length → layer < cache.v.length →
    m.forwardLayer hidden layer position position cache = (some out, after) →
    (cache.slot layer).Grew (after.slot layer)
  others : ∀ (layer : Nat) hidden position cache out after,
    m.forwardLayer hidden layer position position cache = (some out, after) →
    ∀ other, other ≠ layer → after.slot other = cache.slot other
  untouched : ∀ (layer : Nat) hidden position cache after,
    m.forwardLayer hidden layer position position cache = (none, after) → after = cache

/-- The number of layers the loop completes before it ends. -/
def completedLayers (m : LlamaModel) (ctx : Ctx) (position : Int) :
    Nat → Nat → Int → List Float32Bits → KVCache → Nat
  | 0, _, _, _, _ => 0
  | remaining + 1, poll, layer, hidden, cache =>
      match ctx.check poll with
      | .error _ => 0
      | .ok () =>
          match m.forwardLayer hidden layer position position cache with
          | (none, _) => 0
          | (some hidden, cache) =>
              completedLayers m ctx position remaining (poll + 1) (layer + 1) hidden cache + 1

/-- The number of layers an execution completes. -/
def PherenceLayerExecutor.completed (e : PherenceLayerExecutor) (ctx : Ctx) (req : ShardExecutionRequest)
    (cache : KVCache) (totalLayers : Int) : Nat :=
  match e.checkLayerRange ctx req cache totalLayers with
  | .error _ => 0
  | .ok m =>
      completedLayers m (ctx.call 1) req.position
        (req.shard.endLayer + 1 - req.shard.startLayer).toNat 0 req.shard.startLayer req.activation cache

/-- Of the slots, exactly those of the first `count` layers from `start` on have grown. -/
structure KeepsCompleted (before after : KVCache) (start : Int) (count : Nat) : Prop where
  grew : ∀ layer : Nat, start ≤ layer → layer < start + count →
    (before.slot layer).Grew (after.slot layer)
  others : ∀ layer : Nat, ¬ (start ≤ layer ∧ layer < start + count) →
    after.slot layer = before.slot layer

theorem KeepsCompleted.zero (cache : KVCache) (start : Int) : KeepsCompleted cache cache start 0 where
  grew layer above below := by omega
  others _ _ := rfl

/-- A slot that grew is not the same. -/
theorem KVSlot.Grew.ne {before after : KVSlot} (grew : before.Grew after) : after ≠ before := by
  rintro rfl
  obtain ⟨oldK, oldV, key, value, nonempty, -, isK, -, same⟩ := grew
  have longer : some oldK = some (oldK ++ key) := isK.symm.trans (congrArg KVSlot.k same)
  rw [Option.some.injEq, List.self_eq_append_right] at longer
  exact nonempty longer

variable {m : LlamaModel} {ctx : Ctx}

/-- One more completed layer in front of those the rest of the loop completes. -/
theorem KeepsCompleted.cons (appends : m.AppendsStep) {layer count : Nat} {hidden out : List Float32Bits}
    {position : Int} {cache next after : KVCache} (insideK : layer < cache.k.length)
    (insideV : layer < cache.v.length)
    (ran : m.forwardLayer hidden layer position position cache = (some out, next))
    (rest : KeepsCompleted next after (layer + 1) count) :
    KeepsCompleted cache after layer (count + 1) := by
  constructor
  · intro other above below
    by_cases isFirst : other = layer
    · subst isFirst
      rw [rest.others other (by omega)]
      exact appends.appends other hidden position cache out next insideK insideV ran
    · rw [← appends.others layer hidden position cache out next ran other isFirst]
      exact rest.grew other (by omega) (by omega)
  · intro other outside
    rw [rest.others other (by omega)]
    exact appends.others layer hidden position cache out next ran other (by omega)

/-- A layer that completes keeps the sizes of the caches. -/
theorem LlamaModel.AppendsStep.sizes (appends : m.AppendsStep) {layer : Nat} {hidden out : List Float32Bits}
    {position : Int} {cache next : KVCache} (insideK : layer < cache.k.length)
    (insideV : layer < cache.v.length)
    (ran : m.forwardLayer hidden layer position position cache = (some out, next)) :
    next.k.length = cache.k.length ∧ next.v.length = cache.v.length := by
  obtain ⟨oldK, oldV, key, value, -, -, -, -, same⟩ :=
    appends.appends layer hidden position cache out next insideK insideV ran
  simp only [KVCache.slot, KVSlot.mk.injEq] at same
  exact same.2.2

/-- A loop that fails leaves the slots of the completed layers grown, and all others as they were. -/
theorem forwardLayers_failed (appends : m.AppendsStep) {position : Int} {remaining : Nat} :
    ∀ (poll layer : Nat) (hidden : List Float32Bits) (cache after : KVCache) (err : GoError),
      layer + remaining ≤ cache.k.length → layer + remaining ≤ cache.v.length →
      forwardLayers m ctx position remaining poll layer hidden cache = (.error err, after) →
      KeepsCompleted cache after layer (completedLayers m ctx position remaining poll layer hidden cache) ∧
        (completedLayers m ctx position remaining poll layer hidden cache = 0 → after = cache) := by
  induction remaining with
  | zero =>
      intro poll layer hidden cache after err insideK insideV failed
      cases failed
  | succ remaining inductionHypothesis =>
      intro poll layer hidden cache after err insideK insideV failed
      rw [forwardLayers] at failed
      rw [completedLayers]
      cases polled : ctx.check poll with
      | error cause =>
          rw [polled] at failed
          cases failed
          exact ⟨KeepsCompleted.zero cache layer, fun _ => rfl⟩
      | ok u =>
          rw [polled] at failed
          dsimp only at failed ⊢
          rcases ran : m.forwardLayer hidden layer position position cache with ⟨_ | out, next⟩
          · rw [ran] at failed
            cases failed
            have same := appends.untouched layer hidden position cache after ran
            rw [same]
            exact ⟨KeepsCompleted.zero cache layer, fun _ => rfl⟩
          · rw [ran] at failed
            have sizes := appends.sizes (by omega) (by omega) ran
            have rest := inductionHypothesis (poll + 1) (layer + 1) out next after err (by omega)
              (by omega) (by rw [Nat.cast_succ]; exact failed)
            rw [Nat.cast_succ] at rest
            exact ⟨KeepsCompleted.cons appends (by omega) (by omega) ran rest.1, fun none => by cases none⟩

theorem recallModel_appendsStep (layers : Nat) : (recallModel layers).AppendsStep := by
  constructor
  · intro layer hidden position cache out after insideK insideV ran
    simp only [recallModel, Prod.mk.injEq] at ran
    obtain ⟨-, rfl⟩ := ran
    refine ⟨cache.k[layer], cache.v[layer], [0], [0], by simp, by simp, ?_, ?_, ?_⟩
    · exact List.getElem?_eq_getElem insideK
    · exact List.getElem?_eq_getElem insideV
    · simp [KVCache.slot, List.getElem?_eq_getElem insideK, List.getElem?_eq_getElem insideV]
  · intro layer hidden position cache out after ran other apart
    simp only [recallModel, Prod.mk.injEq] at ran
    obtain ⟨-, rfl⟩ := ran
    simp [KVCache.slot, Ne.symm apart]
  · intro layer hidden position cache after ran
    simp [recallModel] at ran

/-- A failed execution of a layer range leaves the slots of the layers it completed grown and all others as
they were; if it completed some, its shard starts at a layer. -/
theorem executeLayerRange_failed {e : PherenceLayerExecutor} (isModel : e.model = some m)
    (appends : m.AppendsStep) {req : ShardExecutionRequest} {cache left : KVCache} {totalLayers : Int}
    {err : GoError} (failed : e.executeLayerRange ctx req cache totalLayers = (.error err, left)) :
    KeepsCompleted cache left req.shard.startLayer (e.completed ctx req cache totalLayers) ∧
      (e.completed ctx req cache totalLayers = 0 → left = cache) ∧
      (e.completed ctx req cache totalLayers ≠ 0 → 0 ≤ req.shard.startLayer) := by
  rw [PherenceLayerExecutor.executeLayerRange] at failed
  rw [PherenceLayerExecutor.completed]
  cases checked : e.checkLayerRange ctx req cache totalLayers with
  | error cause =>
      rw [checked] at failed
      cases failed
      exact ⟨KeepsCompleted.zero cache _, fun _ => rfl, fun some => absurd rfl some⟩
  | ok model =>
      rw [checked] at failed
      dsimp only at failed ⊢
      simp only [PherenceLayerExecutor.checkLayerRange, bind_eq_ok, failIf_eq_ok, exists_const,
        not_or, not_not, pure_eq_ok, Except.ok.injEq] at checked
      obtain ⟨_, accepted, sized, rfl⟩ := checked
      obtain ⟨sameModel, -, layers, valid, -⟩ := checkRequest_eq_ok.mp accepted
      rw [isModel, Option.some.injEq] at sameModel
      subst sameModel
      obtain ⟨-, -, start, nonempty, below⟩ :=
        Shard.validate_eq_ok.mp (ShardExecutionRequest.shard_valid valid)
      rcases ran : forwardLayers m (ctx.call 1) req.position
        (req.shard.endLayer + 1 - req.shard.startLayer).toNat 0 req.shard.startLayer req.activation
        cache with ⟨cause | hidden, after⟩
      · rw [ran, Prod.mk.injEq] at failed
        obtain ⟨-, rfl⟩ := failed
        have fitsK : req.shard.startLayer.toNat +
            (req.shard.endLayer + 1 - req.shard.startLayer).toNat ≤ cache.k.length := by omega
        have fitsV : req.shard.startLayer.toNat +
            (req.shard.endLayer + 1 - req.shard.startLayer).toNat ≤ cache.v.length := by omega
        have loop := forwardLayers_failed appends 0 req.shard.startLayer.toNat req.activation cache after
          cause fitsK fitsV (by rw [Int.toNat_of_nonneg start]; exact ran)
        rw [Int.toNat_of_nonneg start] at loop
        exact ⟨loop.1, loop.2, fun _ => start⟩
      · rw [ran] at failed
        cases failed

/-- A context that is cancelled before the second layer of an execution. -/
def cancelledBeforeSecondLayer : Ctx := fun path => if path = [1, 1] then some .canceled else none

end GoExotic
