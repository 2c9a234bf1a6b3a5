/-
Module: GoExotic.Proofs.DirectDecoding
Purpose: What a deployment computes. Decoding by hand calls `ForwardLayer` for every layer of the model in order, on
  one pair of caches, and projects a token from the result; no routes, workers or requests take part. A deployment
  of the model that serves any number of generations, failed ones among them, on caches nobody clears, answers each
  one as decoding by hand does that serves the same calls on its own caches.
Trusted boundary: encoding/json, through the hypothesis Lossless; go-pherence, through ForwardsLocally
Main exports: LlamaModel.forwardAll, LlamaModel.decodeDirectly, GenerationCall, Deployment.generation_direct,
  deployment_decodes_directly
-/
import GoExotic.Proofs.Decoding
import GoExotic.Proofs.Distribution

namespace GoExotic

open Outcomes Runs SlotStore

/-! ### Decoding by hand -/

namespace LlamaModel

/-- Some layers of the model in order, each on the result of the one before, up to the first nil. -/
def forwardAll (m : LlamaModel) (position : Int) :
    List Nat → List Float32Bits → KVCache → Option (List Float32Bits) × KVCache
  | [], hidden, cache => (some hidden, cache)
  | layer :: rest, hidden, cache =>
      match m.forwardLayer hidden layer position position cache with
      | (none, cache) => (none, cache)
      | (some hidden, cache) => m.forwardAll position rest hidden cache

/-- Some tokens, each projected from all layers at the next position, up to the first failure. -/
def decodeDirectly (m : LlamaModel) (project : Simulator.TokenProjector) :
    Nat → Int → List Float32Bits → List Int → KVCache → Option (List Int) × KVCache
  | 0, _, _, out, cache => (some out, cache)
  | remaining + 1, position, activation, out, cache =>
      match m.forwardAll position (List.range' 0 m.numLayers.toNat) activation cache with
      | (none, cache) => (none, cache)
      | (some final, cache) =>
          match (project final).toOption with
          | none => (none, cache)
          | some tok => m.decodeDirectly project remaining (position + 1) final (out ++ [tok]) cache

end LlamaModel

/-- A call of `GenerateTokens` with the routes of a plan in some order, whose requests can be sent to the peers. -/
structure GenerationCall (wire : WireLib) (totalLayers : Int) (routes : List Route) where
  given : List Route
  perm : given.Perm routes
  base : ShardExecutionRequest
  position : IsInt base.position
  sendable : Sendable wire totalLayers routes base
  maxTokens : Int
  count : IsInt maxTokens
  project : Option Simulator.TokenProjector

namespace GenerationCall

variable {wire : WireLib} {totalLayers : Int} {routes : List Route}

/-- The arguments fit the model: the shape is right, and if there is a token to generate, the model can run the
request and has a position for every token. -/
def Fits (call : GenerationCall wire totalLayers routes) (m : LlamaModel) : Prop :=
  0 ≤ call.maxTokens ∧ (call.base.activation.length : Int) = call.base.hiddenSize ∧ 0 < call.base.hiddenSize ∧
    (0 < call.maxTokens → call.base.position + (call.maxTokens - 1) ≤ maxInt ∧ call.base.Routable m)

instance (call : GenerationCall wire totalLayers routes) (m : LlamaModel) : Decidable (call.Fits m) :=
  inferInstanceAs (Decidable (_ ∧ _ ∧ _ ∧ _))

/-- The call by hand: nothing happens unless the arguments fit. -/
def directly (m : LlamaModel) (call : GenerationCall wire totalLayers routes) (cache : KVCache) :
    Option (List Int) × KVCache :=
  match call.project with
  | none => (none, cache)
  | some project =>
      if call.Fits m then
        m.decodeDirectly project call.maxTokens.toNat call.base.position call.base.activation [] cache
      else (none, cache)

/-- The call through a simulator. -/
def through {W : Type} (go : GoLib) (s : Simulator W) (call : GenerationCall wire totalLayers routes) (state : W) :
    Except GoError (List Int) × W :=
  s.generateTokens go .background call.given call.base totalLayers call.maxTokens call.project state

end GenerationCall

/-! ### One request -/

section Execution

variable {go : GoLib} {m : LlamaModel} {e : PherenceLayerExecutor} {sim : Simulator Heap} {peers : List Peer}
  {shards : List Shard} {totalLayers : Int} {routes given : List Route}

/-- A run of the executor's loop is the layers by hand. -/
theorem run_layerStep_direct (m : LlamaModel) (position : Int) (layers : List Nat) (hidden : List Float32Bits)
    (cache : KVCache) :
    ((run (layerStep m .background position 0) layers hidden cache).1.toOption,
      (run (layerStep m .background position 0) layers hidden cache).2) =
      m.forwardAll position layers hidden cache := by
  induction layers generalizing hidden cache with
  | nil => rfl
  | cons layer rest inductionHypothesis =>
      rw [run, layerStep, Ctx.check_background, LlamaModel.forwardAll]
      dsimp only
      rcases m.forwardLayer hidden layer position position cache with ⟨_ | out, after⟩
      · rfl
      · exact inductionHypothesis out after

/-- Layers by hand keep the length of the vector. -/
theorem LlamaModel.ForwardsLocally.forwardAll_length (forwards : m.ForwardsLocally) {position : Int}
    {layers : List Nat} {hidden out : List Float32Bits} {cache : KVCache}
    (done : (m.forwardAll position layers hidden cache).1 = some out) : out.length = hidden.length := by
  induction layers generalizing hidden cache with
  | nil =>
      cases done
      rfl
  | cons layer rest inductionHypothesis =>
      rw [LlamaModel.forwardAll] at done
      rcases forwarded : m.forwardLayer hidden layer position position cache with ⟨_ | next, after⟩
      · rw [forwarded] at done
        cases done
      · rw [forwarded] at done
        rw [inductionHypothesis done]
        exact forwards.length layer hidden position cache next (congrArg Prod.fst forwarded)

/-- The heap of a deployment and the caches by hand: each worker has, for its layers, what these caches have. -/
def HoldsCache (m : LlamaModel) (e : PherenceLayerExecutor) (totalLayers : Int) (routes : List Route) (heap : Heap)
    (cache : KVCache) : Prop :=
  ∃ caches, heap = heapOf e caches totalLayers ∧ Deployment.Holds m routes caches cache

/-- A request the model can run gets the activation that all layers by hand have. -/
theorem Deployment.execute_direct (deployed : Deployment go m e sim peers shards totalLayers routes)
    (perm : given.Perm routes) {req : ShardExecutionRequest} (routable : req.Routable m) {heap : Heap}
    {cache : KVCache} (holds : HoldsCache m e totalLayers routes heap cache) :
    (sim.execute go .background given req totalLayers heap).1.toOption.map ShardExecutionResponse.activation =
        (m.forwardAll req.position (List.range' 0 totalLayers.toNat) req.activation cache).1 ∧
      HoldsCache m e totalLayers routes (sim.execute go .background given req totalLayers heap).2
        (m.forwardAll req.position (List.range' 0 totalLayers.toNat) req.activation cache).2 := by
  obtain ⟨caches, rfl, holds⟩ := holds
  obtain ⟨result, caches', executed, same, holds'⟩ := deployed.execute_refines perm routable holds
  rw [executed, ← run_layerStep_direct]
  refine ⟨?_, caches', rfl, holds'⟩
  dsimp only
  cases answer : (run (layerStep m .background req.position 0) (List.range' 0 totalLayers.toNat) req.activation
      cache).1 with
  | error err =>
      rw [answer] at same
      cases result with
      | error err' => rfl
      | ok resp => exact same.elim
  | ok final =>
      rw [answer] at same
      cases result with
      | error err' => exact same.elim
      | ok resp => exact congrArg some same

/-! ### One generation -/

/-- The decode loop makes the tokens that decoding by hand makes, and fails where that fails. -/
theorem Deployment.decode_direct (deployed : Deployment go m e sim peers shards totalLayers routes)
    (perm : given.Perm routes) (base : ShardExecutionRequest) (project : Simulator.TokenProjector)
    (remaining : Nat) :
    ∀ (step : Nat) (activation : List Float32Bits) (out : List Int) (heap : Heap) (cache : KVCache),
      HoldsCache m e totalLayers routes heap cache →
      (0 < remaining → base.position + step + (remaining - 1) ≤ maxInt ∧
        ({ base with position := base.position + step, activation := activation } :
          ShardExecutionRequest).Routable m) →
      (sim.decode go .background given base totalLayers project remaining step activation out heap).1.toOption =
          (m.decodeDirectly project remaining (base.position + step) activation out cache).1 ∧
        HoldsCache m e totalLayers routes
          (sim.decode go .background given base totalLayers project remaining step activation out heap).2
          (m.decodeDirectly project remaining (base.position + step) activation out cache).2 := by
  induction remaining with
  | zero =>
      intro step activation out heap cache holds _
      exact ⟨rfl, holds⟩
  | succ remaining inductionHypothesis =>
      intro step activation out heap cache holds sound
      obtain ⟨room, routable⟩ := sound (Nat.succ_pos remaining)
      have nonneg : 0 ≤ base.position + step := (validateActivation_eq_ok.mp routable.2.2.2.1).1
      have position : wrapInt (base.position + step) = base.position + step :=
        wrapInt_eq (by have := minInt_lit; omega) (by omega)
      obtain ⟨same, after⟩ := deployed.execute_direct perm routable holds
      rw [Simulator.decode_succ _ _ _ _ _ _ _ _ _ _ _ _ rfl, position, LlamaModel.decodeDirectly, deployed.layers]
      dsimp only at same after
      rw [Ctx.call_background]
      generalize sim.execute go .background given
        { base with position := base.position + step, activation := activation } totalLayers heap = executed
        at same after ⊢
      obtain ⟨answer, heap'⟩ := executed
      -- the routes and the layers by hand end with the same activation, and agree on the caches
      rcases byHand : m.forwardAll (base.position + step) (List.range' 0 totalLayers.toNat) activation cache with
        ⟨_ | final, cache'⟩
      · rw [byHand] at same after
        cases answer with
        | error err => exact ⟨rfl, after⟩
        | ok resp => cases same
      · rw [byHand] at same after
        have sameLength := deployed.forwards.forwardAll_length (congrArg Prod.fst byHand)
        cases answer with
        | error err => cases same
        | ok resp =>
          have isFinal : resp.activation = final := Option.some.inj same
          dsimp only [andThen_ok]
          rw [isFinal]
          cases project final with
          | error err => exact ⟨rfl, after⟩
          | ok tok =>
              have next : base.position + (step + 1 : Nat) = base.position + step + 1 := by omega
              rw [← next]
              apply inductionHypothesis (step + 1) final (out ++ [tok]) heap' cache' after
              intro more
              exact ⟨by omega, routable.later (by omega) sameLength⟩

/-- A generation through the layer workers of a plan is the generation by hand. -/
theorem Deployment.generation_direct (deployed : Deployment go m e sim peers shards totalLayers routes)
    {wire : WireLib} (call : GenerationCall wire totalLayers routes) {heap : Heap} {cache : KVCache}
    (holds : HoldsCache m e totalLayers routes heap cache) :
    (call.through go sim heap).1.toOption = (call.directly m cache).1 ∧
      HoldsCache m e totalLayers routes (call.through go sim heap).2 (call.directly m cache).2 := by
  rw [GenerationCall.through, GenerationCall.directly, Simulator.generateTokens]
  cases checked : Simulator.checkGeneration call.base call.maxTokens call.project with
  | error err =>
      -- what the checks refuse does not fit
      dsimp only
      cases isProject : call.project with
      | none => exact ⟨rfl, holds⟩
      | some project =>
          dsimp only
          rw [if_neg]
          · exact ⟨rfl, holds⟩
          · rintro ⟨count, shape, positive, sound⟩
            have accepted : Simulator.checkGeneration call.base call.maxTokens call.project = .ok project :=
              Simulator.checkGeneration_eq_ok.mpr ⟨count, (Simulator.position_check call.count).mpr fun some =>
                (sound some).1, isProject, shape, positive⟩
            rw [checked] at accepted
            cases accepted
  | ok project =>
      obtain ⟨count, room, isProject, shape, positive⟩ := Simulator.checkGeneration_eq_ok.mp checked
      have room := (Simulator.position_check call.count).mp room
      dsimp only
      rw [isProject]
      dsimp only
      by_cases fits : call.Fits m
      · rw [if_pos fits]
        have made := deployed.decode_direct call.perm call.base project call.maxTokens.toNat 0 call.base.activation []
          heap cache holds
        rw [Nat.cast_zero, Int.add_zero] at made
        apply made
        intro some
        obtain ⟨last, routable⟩ := fits.2.2.2 (by omega)
        exact ⟨by omega, routable⟩
      · rw [if_neg fits]
        -- only the model can refuse now, at the first of some tokens
        have asked : 0 < call.maxTokens ∧ ¬ call.base.Routable m := by
          by_contra neither
          rw [not_and, not_not] at neither
          exact fits ⟨count, shape, positive, fun some => ⟨room some, neither some⟩⟩
        obtain ⟨remaining, isCount⟩ : ∃ remaining, call.maxTokens.toNat = remaining + 1 :=
          Nat.exists_eq_succ_of_ne_zero (by omega)
        obtain ⟨caches, rfl, held⟩ := holds
        have first : wrapInt (call.base.position + (0 : Nat)) = call.base.position := by
          rw [Nat.cast_zero, Int.add_zero]
          exact wrapInt_eq call.position.1 call.position.2
        have unroutable : ¬ ({ call.base with
            position := wrapInt (call.base.position + (0 : Nat)), activation := call.base.activation } :
            ShardExecutionRequest).Routable m := by
          rw [first]
          exact asked.2
        obtain ⟨err, failed⟩ := deployed.execute_fails call.perm unroutable caches
        rw [isCount, Simulator.decode_succ _ _ _ _ _ _ _ _ _ _ _ _ rfl, Ctx.call_background, failed, andThen_error]
        exact ⟨rfl, caches, rfl, held⟩

/-- The owner of a layer has its slot as the caches by hand have it. -/
theorem HoldsCache.slot_eq {heap : Heap} {cache : KVCache} (holds : HoldsCache m e totalLayers routes heap cache)
    (deployed : Deployment go m e sim peers shards totalLayers routes) {route : Route} (member : route ∈ routes)
    {layer : Nat} (above : route.shard.startLayer ≤ layer) (below : layer ≤ route.shard.endLayer) :
    (heap route.peer.id).kvCache.slot layer = cache.slot layer := by
  obtain ⟨caches, rfl, held⟩ := holds
  exact held.slot_eq member (deployed.served route member).valid above below

end Execution

/-! ### All generations -/

/-- A deployment decodes as the model does by hand. The layers of a model are spread over HTTP servers with a layer
executor each, as some plan that `BuildRoutes` accepts says. Then generation after generation through the remote
workers, on the caches the ones before have left, each with the routes in any order, returns the tokens that decoding
by hand on one pair of caches returns for the same calls, and fails where that fails; and in the end every layer has
at its peer the slot it has by hand. -/
theorem deployment_decodes_directly (go : GoLib) (wire : WireLib) (lossless : wire.Lossless) (ctx : Ctx)
    (m : LlamaModel) (total : IsInt m.numLayers) (forwards : m.ForwardsLocally) (peers : List Peer)
    (shards : List Shard) (routes : List Route)
    (built : buildRoutes go ctx peers shards m.numLayers = .ok routes)
    (net : Network (List ShardExecutionRequest × Heap))
    (hosted : Hosted go wire net heapWorker m.numLayers routes) :
    ∃ workers remote, remoteWorkersFromRoutes go wire net routes = .ok workers ∧
      newSimulator (boxWorkers workers) = .ok remote ∧
      ∀ calls : List (GenerationCall wire m.numLayers routes),
        (trace (GenerationCall.through go remote) calls ([], freshHeap m m.numLayers)).map
            (fun served => served.2.toOption) =
          (trace (GenerationCall.directly m) calls (.fresh m.numLayers.toNat)).map Prod.snd ∧
        ∀ route ∈ routes, ∀ layer : Nat, route.shard.startLayer ≤ layer → layer ≤ route.shard.endLayer →
          ((final (GenerationCall.through go remote) calls ([], freshHeap m m.numLayers)).2
            route.peer.id).kvCache.slot layer =
          (final (GenerationCall.directly m) calls (.fresh m.numLayers.toNat)).slot layer := by
  have plan := (buildRoutes_eq_ok.mp built).2
  obtain ⟨workers, remote, ok, made, remotes⟩ := plan.remote_simulator wire net
  obtain ⟨near, -, deployed⟩ := exists_deployment rfl forwards plan
  refine ⟨workers, remote, ok, made, ?_⟩
  intro calls
  -- a call through the remote workers does like one through layer workers, and this one like the one by hand
  have each : ∀ (call : GenerationCall wire m.numLayers routes) (far : List ShardExecutionRequest × Heap)
      (cache : KVCache), HoldsCache m ⟨some m⟩ m.numLayers routes far.2 cache →
      (call.through go remote far).1.toOption = id (call.directly m cache).1 ∧
        HoldsCache m ⟨some m⟩ m.numLayers routes (call.through go remote far).2.2 (call.directly m cache).2 := by
    rintro call ⟨log, _⟩ cache ⟨caches, rfl, held⟩
    have alike := deployed.remote_alike lossless total hosted remotes call.sendable call.perm call.maxTokens
      call.project log caches
    have direct := deployed.generation_direct call ⟨caches, rfl, held⟩
    rw [GenerationCall.through] at direct ⊢
    rw [alike.toOption_eq, alike.state]
    exact direct
  have positive := plan.partition.layers_pos
  have fresh : HoldsCache m ⟨some m⟩ m.numLayers routes
      (([], freshHeap m m.numLayers) : List ShardExecutionRequest × Heap).2 (.fresh m.numLayers.toNat) :=
    ⟨_, rfl, holds_fresh rfl (by omega)⟩
  obtain ⟨sameAnswers, held⟩ := trace_simulated each calls fresh
  refine ⟨sameAnswers, ?_⟩
  intro route member layer above below
  exact held.slot_eq deployed member above below

/-- A call for two tokens over three layers on two servers. -/
def recallCall (project : Simulator.TokenProjector) : GenerationCall .plain 3 hostedRoutes :=
  ⟨hostedRoutes.reverse, List.reverse_perm _, remoteRequest "r", by decide, sendable_hostedRoutes, 2, by decide,
    some project⟩

/-- A generation, one that finds no token, and the first one again, which sees what both have left. -/
theorem deployment_decodes_directly_thrice :
    ∃ workers remote,
      remoteWorkersFromRoutes .plain .plain (hostNetwork heapWorker 3) hostedRoutes = .ok workers ∧
      newSimulator (boxWorkers workers) = .ok remote ∧
      (trace (GenerationCall.through .plain remote)
          [recallCall headToken, recallCall fun _ => .error (.errorf "no token" []), recallCall headToken]
          ([], freshHeap (recallModel 3) 3)).map (fun served => served.2.toOption) =
        [some [1065353216, 1065353219], none, some [1065353225, 1065353237]] := by
  obtain ⟨workers, remote, ok, made, direct⟩ := deployment_decodes_directly .plain .plain WireLib.plain_lossless
    .background (recallModel 3) (by decide) (recallModel_forwardsLocally 3) [ownDevicePeer "a", ownDevicePeer "b"]
    [⟨"b", 0, 1⟩, ⟨"a", 2, 2⟩] hostedRoutes (by decide +kernel) (hostNetwork heapWorker 3)
    (hosted_hostedRoutes heapWorker 3)
  refine ⟨workers, remote, ok, made, ?_⟩
  exact (direct _).1.trans (by decide +kernel)

end GoExotic
