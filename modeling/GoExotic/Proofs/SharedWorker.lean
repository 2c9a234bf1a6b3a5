/-
Module: GoExotic.Proofs.SharedWorker
Purpose: One worker behind all peers. `PeerWorkers` puts a worker under the id of every peer; if it is a layer
  executor, all routes work on its caches. The routes of a plan run different layers, so this one worker does
  what one worker a peer does, each on the caches of its own, and generation over it depends neither on the plan
  nor on the peers.
Trusted boundary: go-pherence, through the hypothesis ForwardsLocally
Main exports: newSimulator_peerWorkers, sharedWorker, OneHoldsAll, twins_shared, shared_worker_generates_alike,
  shared_worker_any_plan
-/
import GoExotic.Proofs.Distribution

namespace GoExotic

open Outcomes SlotStore

variable {W : Type}

/-! ### One worker for all peers -/

theorem lookup_peerWorkers_from (peers : List Peer) (worker : Option (Worker W))
    (workers : GoMap (Option (Worker W))) (id : String) :
    (peers.foldl (fun workers peer => workers.insert peer.id worker) workers).lookup id =
      if id ∈ peers.map Peer.id then some worker else workers.lookup id := by
  induction peers generalizing workers with
  | nil => simp
  | cons peer rest inductionHypothesis =>
      rw [List.foldl_cons, inductionHypothesis, List.map_cons]
      by_cases inRest : id ∈ rest.map Peer.id
      · rw [if_pos inRest, if_pos (List.mem_cons_of_mem _ inRest)]
      · by_cases isHead : id = peer.id
        · subst isHead
          rw [if_neg inRest, if_pos List.mem_cons_self, AList.lookup_insert]
        · have outside : id ∉ peer.id :: rest.map Peer.id := by
            rw [List.mem_cons, not_or]
            exact ⟨isHead, inRest⟩
          rw [if_neg inRest, if_neg outside, AList.lookup_insert_ne isHead]

theorem lookup_peerWorkers (peers : List Peer) (worker : Option (Worker W)) (id : String) :
    (peerWorkers peers worker).lookup id = if id ∈ peers.map Peer.id then some worker else none := by
  rw [peerWorkers, lookup_peerWorkers_from, AList.lookup_empty]

/-- `NewSimulator` accepts one worker for some named peers, and finds it under each of their ids. -/
theorem newSimulator_peerWorkers {peers : List Peer} (nonempty : peers ≠ []) (named : ∀ p ∈ peers, p.id ≠ "")
    (worker : Worker W) :
    ∃ sim, newSimulator (peerWorkers peers (some worker)) = .ok sim ∧
      ∀ p ∈ peers, sim.workers.lookup p.id = some worker := by
  have entryIff : ∀ id given, (⟨id, given⟩ : Sigma fun _ : String => Option (Worker W)) ∈
      (peerWorkers peers (some worker)).entries ↔ id ∈ peers.map Peer.id ∧ given = some worker := by
    intro id given
    rw [← AList.mem_lookup_iff, lookup_peerWorkers, Option.mem_def]
    by_cases member : id ∈ peers.map Peer.id
    · rw [if_pos member, Option.some.injEq]
      exact ⟨fun same => ⟨member, same.symm⟩, fun both => both.2.symm⟩
    · rw [if_neg member]
      constructor
      · intro found
        cases found
      · rintro ⟨listed, -⟩
        exact absurd listed member
  have each : ∀ entry ∈ (peerWorkers peers (some worker)).entries, entry.1 ≠ "" ∧ entry.2 ≠ none := by
    rintro ⟨id, given⟩ member
    obtain ⟨listed, rfl⟩ := (entryIff id given).mp member
    obtain ⟨p, isPeer, rfl⟩ := List.mem_map.mp listed
    exact ⟨named p isPeer, Option.some_ne_none worker⟩
  have some : (peerWorkers peers (some worker)).entries ≠ [] := by
    intro empty
    obtain ⟨p, isPeer⟩ := List.exists_mem_of_ne_nil peers nonempty
    have entry := (entryIff p.id _).mpr ⟨List.mem_map_of_mem isPeer, rfl⟩
    rw [empty] at entry
    cases entry
  obtain ⟨sim, made, found⟩ := newSimulator_succeeds some each
  refine ⟨sim, made, ?_⟩
  intro p isPeer
  rw [found, lookup_peerWorkers, if_pos (List.mem_map_of_mem isPeer)]
  rfl

/-- A layer worker as the worker of all peers. -/
def sharedWorker : Worker LayerExecutorWorker := fun ctx req w => w.executeShard ctx req

/-! ### One worker or one a peer -/

/-- One worker holds the slots of all routes: those of each route as the worker of its peer has them. -/
def OneHoldsAll (e : PherenceLayerExecutor) (totalLayers : Int) (routes : List Route) (heap : Heap)
    (one : LayerExecutorWorker) : Prop :=
  ∃ caches whole, heap = heapOf e caches totalLayers ∧ one = .over e whole totalLayers ∧
    BlocksAgree KVCache.slot (blocks routes) caches whole

section Plan

variable {go : GoLib} {e : PherenceLayerExecutor} {peers : List Peer} {shards : List Shard} {totalLayers : Int}
  {routes : List Route}

/-- The routes of a plan run no layer twice. -/
theorem RoutePlan.layers_disjoint (plan : RoutePlan go peers shards totalLayers routes) :
    (allSteps (blocks routes)).Nodup := by
  have cells := plan.partition.tiles.flatMap_cells (le_refl 0)
  rw [← plan.shards_eq, List.flatMap_map] at cells
  rw [allSteps, blocks, List.flatMap_map]
  exact cells ▸ List.nodup_range'

theorem RoutePlan.peers_nonempty (plan : RoutePlan go peers shards totalLayers routes) : peers ≠ [] := by
  rintro rfl
  have subset := plan.devices_subset
  rw [List.map_nil, List.subset_nil, List.map_eq_nil_iff] at subset
  exact plan.partition.nonempty subset

theorem RoutePlan.peer_named (plan : RoutePlan go peers shards totalLayers routes) :
    ∀ p ∈ peers, p.id ≠ "" := by
  intro p listed
  exact Peer.id_ne_empty (plan.peers_valid p listed)

/-- At each route, the one worker does like the worker of the route's peer. -/
theorem twins_shared (plan : RoutePlan go peers shards totalLayers routes)
    (forwards : ∀ m, e.model = some m → m.ForwardsLocally) {apart : Simulator Heap}
    {shared : Simulator LayerExecutorWorker}
    (aparts : ∀ id ∈ peers.map Peer.id, apart.workers.lookup id = some (heapWorker id))
    (shareds : ∀ p ∈ peers, shared.workers.lookup p.id = some sharedWorker) (base : ShardExecutionRequest) :
    Twins base totalLayers routes (OneHoldsAll e totalLayers routes) apart shared := by
  rintro route member i req - sameShard _ _ ⟨caches, whole, rfl, rfl, agree⟩
  obtain ⟨isPeer, -⟩ := plan.peers_named route member
  rw [Simulator.callRoute, Simulator.callRoute, Ctx.check_background, aparts _ (List.mem_map_of_mem isPeer),
    shareds _ isPeer]
  dsimp only
  cases req.validate totalLayers with
  | error err => exact Alike.failed ⟨caches, whole, rfl, rfl, agree⟩
  | ok valid =>
      have footprint := executeLayerRange_footprint forwards totalLayers (.background, req)
      have listed : (route.peer.id, route.shard.layers) ∈ blocks routes := List.mem_map_of_mem member
      have within : ∀ layer, RunsLayer e totalLayers (.background, req) layer → layer ∈ route.shard.layers :=
        fun layer runs => sameShard ▸ runs.2
      have answers := footprint.result_eq _ _ ((agree _ listed).mono within)
      have after := agree.both footprint listed within plan.layers_disjoint
      dsimp only at answers after ⊢
      rw [Ctx.call_background, heapWorker_heapOf, sharedWorker, executeShard_over, answers]
      have held : OneHoldsAll e totalLayers routes _ _ := ⟨_, _, rfl, rfl, after⟩
      cases (e.executeLayerRange .background req whole totalLayers).1 with
      | error err => exact Alike.failed held
      | ok resp =>
          dsimp only
          cases Simulator.checkResponse i route req resp with
          | error err => exact Alike.failed held
          | ok accepted => exact Alike.returned rfl held

end Plan

/-- One worker behind all peers does what one worker a peer does. For every plan that `BuildRoutes` accepts, every
order of its routes, every call, and caches of the peers and of the one worker that agree on the layers of each
peer: both simulators fail or both return the same tokens, and either way the caches still agree. -/
theorem shared_worker_generates_alike (go : GoLib) (ctx : Ctx) (e : PherenceLayerExecutor)
    (forwards : ∀ m, e.model = some m → m.ForwardsLocally) (totalLayers : Int) (peers : List Peer)
    (shards : List Shard) (routes given : List Route)
    (built : buildRoutes go ctx peers shards totalLayers = .ok routes) (perm : given.Perm routes) :
    ∃ apart shared, newSimulator (layerWorkers (peers.map Peer.id)) = .ok apart ∧
      newSimulator (peerWorkers peers (some sharedWorker)) = .ok shared ∧
      ∀ (base : ShardExecutionRequest) (maxTokens : Int) (project : Option Simulator.TokenProjector)
        (caches : String → KVCache) (whole : KVCache), BlocksAgree KVCache.slot (blocks routes) caches whole →
        Alike Eq (OneHoldsAll e totalLayers routes)
          (apart.generateTokens go .background given base totalLayers maxTokens project
            (heapOf e caches totalLayers))
          (shared.generateTokens go .background given base totalLayers maxTokens project
            (.over e whole totalLayers)) := by
  have plan := (buildRoutes_eq_ok.mp built).2
  have named : ∀ id ∈ peers.map Peer.id, id ≠ "" := List.forall_mem_map.mpr plan.peer_named
  have nonempty : peers.map Peer.id ≠ [] := by
    rw [ne_eq, List.map_eq_nil_iff]
    exact plan.peers_nonempty
  obtain ⟨apart, madeApart, aparts⟩ := newSimulator_layerWorkers nonempty named
  obtain ⟨shared, made, shareds⟩ := newSimulator_peerWorkers plan.peers_nonempty plan.peer_named sharedWorker
  refine ⟨apart, shared, madeApart, made, ?_⟩
  intro base maxTokens project caches whole agree
  exact (twins_shared plan forwards aparts shareds base).generateTokens go perm maxTokens project
    ⟨caches, whole, rfl, rfl, agree⟩

/-- Two peers with a layer each, and one worker for both of them. -/
theorem shared_worker_generates_alike_pair :
    ∃ apart shared, newSimulator (layerWorkers ["a", "b"]) = .ok apart ∧
      newSimulator (peerWorkers [servingPeer "a", servingPeer "b"] (some sharedWorker)) = .ok shared ∧
      Alike Eq (OneHoldsAll ⟨some (recallModel 2)⟩ 2
          [⟨servingPeer "a", ⟨"a", 0, 0⟩⟩, ⟨servingPeer "b", ⟨"b", 1, 1⟩⟩])
        (apart.generateTokens .plain .background
          [⟨servingPeer "b", ⟨"b", 1, 1⟩⟩, ⟨servingPeer "a", ⟨"a", 0, 0⟩⟩] (exampleRequest "s" 0 0) 2 3
          (some headToken) (freshHeap (recallModel 2) 2))
        (shared.generateTokens .plain .background
          [⟨servingPeer "b", ⟨"b", 1, 1⟩⟩, ⟨servingPeer "a", ⟨"a", 0, 0⟩⟩] (exampleRequest "s" 0 0) 2 3
          (some headToken) (.over ⟨some (recallModel 2)⟩ (.fresh 2) 2)) := by
  have built : buildRoutes .plain .background [servingPeer "a", servingPeer "b"]
      [⟨"a", 0, 0⟩, ⟨"b", 1, 1⟩] 2 =
        .ok [⟨servingPeer "a", ⟨"a", 0, 0⟩⟩, ⟨servingPeer "b", ⟨"b", 1, 1⟩⟩] := by
    decide +kernel
  have forwards : ∀ m, (⟨some (recallModel 2)⟩ : PherenceLayerExecutor).model = some m → m.ForwardsLocally := by
    rintro _ ⟨⟩
    exact recallModel_forwardsLocally 2
  obtain ⟨apart, shared, madeApart, made, alike⟩ := shared_worker_generates_alike .plain .background
    ⟨some (recallModel 2)⟩ forwards 2 [servingPeer "a", servingPeer "b"] _ _
    [⟨servingPeer "b", ⟨"b", 1, 1⟩⟩, ⟨servingPeer "a", ⟨"a", 0, 0⟩⟩] built (List.Perm.swap _ _ [])
  exact ⟨apart, shared, madeApart, made, alike (exampleRequest "s" 0 0) 3 (some headToken) (fun _ => .fresh 2)
    (.fresh 2) fun _ _ _ _ => rfl⟩

/-! ### The plan does not matter -/

/-- Caches of a model's size that agree in every layer are the same. -/
theorem KVCache.ext_slots {m : LlamaModel} {first second : KVCache} (sized : first.Sized m)
    (sized' : second.Sized m) (same : ∀ layer : Nat, (layer : Int) < m.numLayers →
      first.slot layer = second.slot layer) : first = second := by
  have inside : ∀ layer : Nat, first.k[layer]? = second.k[layer]? ∧ first.v[layer]? = second.v[layer]? := by
    intro layer
    by_cases below : (layer : Int) < m.numLayers
    · have slots := same layer below
      simp only [KVCache.slot, KVSlot.mk.injEq] at slots
      exact ⟨slots.1, slots.2.1⟩
    · obtain ⟨sizeK, sizeV⟩ := sized
      obtain ⟨sizeK', sizeV'⟩ := sized'
      rw [List.getElem?_eq_none (by omega), List.getElem?_eq_none (by omega), List.getElem?_eq_none (by omega),
        List.getElem?_eq_none (by omega)]
      exact ⟨rfl, rfl⟩
  obtain ⟨firstK, firstV⟩ := first
  rw [KVCache.mk.injEq]
  exact ⟨List.ext_getElem? fun layer => (inside layer).1, List.ext_getElem? fun layer => (inside layer).2⟩

/-- A generation over one worker ends like decoding on its cache: both fail, or both return the same tokens and
leave the same cache. -/
inductive EndsOnCache (m : LlamaModel) (totalLayers : Int) :
    Except GoError (List Int) × LayerExecutorWorker → Except GoError (List Int) × KVCache → Prop where
  | failed {err err' : GoError} {one : LayerExecutorWorker} {whole : KVCache} :
      EndsOnCache m totalLayers (.error err, one) (.error err', whole)
  | finished {tokens : List Int} {whole : KVCache} :
      EndsOnCache m totalLayers (.ok tokens, .over ⟨some m⟩ whole totalLayers) (.ok tokens, whole)

theorem EndsOnCache.same_or_fail {m : LlamaModel} {totalLayers : Int}
    {first second : Except GoError (List Int) × LayerExecutorWorker} {common : Except GoError (List Int) × KVCache}
    (ends : EndsOnCache m totalLayers first common) (ends' : EndsOnCache m totalLayers second common) :
    first = second ∨ (∃ err, first.1 = .error err) ∧ ∃ err, second.1 = .error err := by
  cases ends with
  | failed =>
      cases ends' with
      | failed => exact Or.inr ⟨⟨_, rfl⟩, ⟨_, rfl⟩⟩
  | finished =>
      cases ends' with
      | finished => exact Or.inl rfl

section AnyPlan

variable {go : GoLib} {m : LlamaModel} {apart : Simulator Heap} {shared : Simulator LayerExecutorWorker}
  {peers : List Peer} {shards : List Shard} {totalLayers : Int} {routes given : List Route}

/-- A cache that agrees with the peers' caches is the one cache they are cut from. -/
theorem whole_of_agree (deployed : Deployment go m ⟨some m⟩ apart peers shards totalLayers routes)
    {caches : String → KVCache} {whole common : KVCache}
    (agree : BlocksAgree KVCache.slot (blocks routes) caches whole)
    (holds : Deployment.Holds m routes caches common) : whole = common := by
  have same : ∀ layer : Nat, (layer : Int) < totalLayers → whole.slot layer = common.slot layer := by
    intro layer below
    obtain ⟨route, member, first, last⟩ := deployed.plan.tiles.cover (Int.natCast_nonneg layer) below
    have valid := (deployed.served route member).valid
    obtain ⟨-, -, start, -, -⟩ := Shard.validate_eq_ok.mp valid
    have inside : layer ∈ route.shard.layers := (Shard.mem_layers start).mpr ⟨first, last⟩
    rw [← holds.slot_eq member valid first last]
    exact (agree _ (List.mem_map_of_mem member) layer inside).symm
  -- the first layer's slot tells the size
  have positive := deployed.plan.partition.layers_pos
  obtain ⟨route, member, first, last⟩ := deployed.plan.tiles.cover (le_refl 0) (by omega)
  have owned : (caches route.peer.id).slot 0 = common.slot 0 :=
    holds.slot_eq member (deployed.served route member).valid first last
  have sized := (KVCache.sized_congr m owned).1.mp (holds.sized route.peer.id)
  have sizedWhole := (KVCache.sized_congr m (same 0 (by omega))).1.mpr sized
  exact KVCache.ext_slots sizedWhole sized fun layer below => same layer (deployed.layers ▸ below)

theorem shared_ends_on_cache (deployed : Deployment go m ⟨some m⟩ apart peers shards totalLayers routes)
    {base : ShardExecutionRequest}
    (twins : Twins base totalLayers routes (OneHoldsAll ⟨some m⟩ totalLayers routes) apart shared)
    (perm : given.Perm routes) (project : Simulator.TokenProjector) (tokens : Nat)
    {cache : KVCache} (sized : cache.Sized m) :
    EndsOnCache m totalLayers
      (shared.decode go .background given base totalLayers project tokens 0 base.activation []
        (.over ⟨some m⟩ cache totalLayers))
      (generateWhole m totalLayers base project tokens 0 base.activation [] cache) := by
  have holds : Deployment.Holds m routes (fun _ => cache) cache := ⟨fun _ _ _ _ => rfl, fun _ => sized⟩
  have ends := deployed.decode_refines perm base project tokens 0 base.activation [] _ _ holds
  have alike := twins.decode go perm project tokens 0 base.activation [] _ _
    (⟨_, cache, rfl, rfl, fun _ _ _ _ => rfl⟩ : OneHoldsAll ⟨some m⟩ totalLayers routes
      (heapOf ⟨some m⟩ (fun _ => cache) totalLayers) (.over ⟨some m⟩ cache totalLayers))
  generalize apart.decode go .background given base totalLayers project tokens 0 base.activation []
    (heapOf ⟨some m⟩ (fun _ => cache) totalLayers) = peersEnd at ends alike
  generalize shared.decode go .background given base totalLayers project tokens 0 base.activation []
    (.over ⟨some m⟩ cache totalLayers) = sharedEnd at alike ⊢
  generalize generateWhole m totalLayers base project tokens 0 base.activation [] cache = wholeEnd at ends ⊢
  cases ends with
  | failed =>
      cases alike with
      | failed _ => exact .failed
  | finished held =>
      cases alike with
      | returned same state =>
          obtain ⟨caches, whole, isHeap, rfl, agree⟩ := state
          subst same
          rw [← heapOf_injective isHeap] at agree
          have isCommon := whole_of_agree deployed agree held
          rw [isCommon]
          exact .finished

end AnyPlan

/-- With one worker behind all peers the plan does not matter. For every two plans of a model's layers that
`BuildRoutes` accepts, with whatever peers, and every order of their routes: from the same caches of the model's
size, generation over the one worker returns the same tokens and leaves the same caches, or fails for both. -/
theorem shared_worker_any_plan (go : GoLib) (m : LlamaModel) (forwards : m.ForwardsLocally) (peers peers' : List Peer)
    (shards shards' : List Shard) (routes routes' given given' : List Route)
    (built : buildRoutes go .background peers shards m.numLayers = .ok routes)
    (built' : buildRoutes go .background peers' shards' m.numLayers = .ok routes') (perm : given.Perm routes)
    (perm' : given'.Perm routes') :
    ∃ one other, newSimulator (peerWorkers peers (some sharedWorker)) = .ok one ∧
      newSimulator (peerWorkers peers' (some sharedWorker)) = .ok other ∧
      ∀ (base : ShardExecutionRequest) (maxTokens : Int) (project : Option Simulator.TokenProjector)
        (cache : KVCache), cache.Sized m →
        one.generateTokens go .background given base m.numLayers maxTokens project
              (.over ⟨some m⟩ cache m.numLayers) =
            other.generateTokens go .background given' base m.numLayers maxTokens project
              (.over ⟨some m⟩ cache m.numLayers) ∨
          (∃ err, (one.generateTokens go .background given base m.numLayers maxTokens project
              (.over ⟨some m⟩ cache m.numLayers)).1 = .error err) ∧
            ∃ err, (other.generateTokens go .background given' base m.numLayers maxTokens project
              (.over ⟨some m⟩ cache m.numLayers)).1 = .error err := by
  have plan := (buildRoutes_eq_ok.mp built).2
  have plan' := (buildRoutes_eq_ok.mp built').2
  have local' : ∀ model, (⟨some m⟩ : PherenceLayerExecutor).model = some model → model.ForwardsLocally := by
    rintro _ ⟨⟩
    exact forwards
  obtain ⟨apart, -, deployed⟩ := exists_deployment rfl forwards plan
  obtain ⟨apart', -, deployed'⟩ := exists_deployment rfl forwards plan'
  obtain ⟨one, made, ones⟩ := newSimulator_peerWorkers plan.peers_nonempty plan.peer_named sharedWorker
  obtain ⟨other, made', others⟩ := newSimulator_peerWorkers plan'.peers_nonempty plan'.peer_named sharedWorker
  refine ⟨one, other, made, made', ?_⟩
  intro base maxTokens project cache sized
  rw [Simulator.generateTokens, Simulator.generateTokens]
  cases Simulator.checkGeneration base maxTokens project with
  | error err => exact Or.inl rfl
  | ok project =>
      -- both end like the decode on the cache
      have first := shared_ends_on_cache deployed (twins_shared plan local' deployed.workers ones base) perm project
        maxTokens.toNat sized
      have second := shared_ends_on_cache deployed' (twins_shared plan' local' deployed'.workers others base) perm'
        project maxTokens.toNat sized
      exact first.same_or_fail second

/-- Two peers with a layer each, or one peer with both. -/
theorem shared_worker_any_plan_pair :
    ∃ one other, newSimulator (peerWorkers [servingPeer "a", servingPeer "b"] (some sharedWorker)) = .ok one ∧
      newSimulator (peerWorkers [servingPeer "c"] (some sharedWorker)) = .ok other ∧
      (one.generateTokens .plain .background
            [⟨servingPeer "a", ⟨"a", 0, 0⟩⟩, ⟨servingPeer "b", ⟨"b", 1, 1⟩⟩] (exampleRequest "s" 0 0) 2 3
            (some headToken) (.over ⟨some (recallModel 2)⟩ (.fresh 2) 2) =
          other.generateTokens .plain .background [⟨servingPeer "c", ⟨"c", 0, 1⟩⟩] (exampleRequest "s" 0 0) 2 3
            (some headToken) (.over ⟨some (recallModel 2)⟩ (.fresh 2) 2) ∨
        (∃ err, (one.generateTokens .plain .background
            [⟨servingPeer "a", ⟨"a", 0, 0⟩⟩, ⟨servingPeer "b", ⟨"b", 1, 1⟩⟩] (exampleRequest "s" 0 0) 2 3
            (some headToken) (.over ⟨some (recallModel 2)⟩ (.fresh 2) 2)).1 = .error err) ∧
          ∃ err, (other.generateTokens .plain .background [⟨servingPeer "c", ⟨"c", 0, 1⟩⟩]
            (exampleRequest "s" 0 0) 2 3 (some headToken)
            (.over ⟨some (recallModel 2)⟩ (.fresh 2) 2)).1 = .error err) := by
  have built : buildRoutes .plain .background [servingPeer "a", servingPeer "b"]
      [⟨"a", 0, 0⟩, ⟨"b", 1, 1⟩] 2 =
        .ok [⟨servingPeer "a", ⟨"a", 0, 0⟩⟩, ⟨servingPeer "b", ⟨"b", 1, 1⟩⟩] := by
    decide +kernel
  have built' : buildRoutes .plain .background [servingPeer "c"] [⟨"c", 0, 1⟩] 2 =
      .ok [⟨servingPeer "c", ⟨"c", 0, 1⟩⟩] := by
    decide +kernel
  obtain ⟨one, other, made, made', ends⟩ := shared_worker_any_plan .plain (recallModel 2)
    (recallModel_forwardsLocally 2) _ _ _ _ _ _ _ _ built built' (List.Perm.refl _) (List.Perm.refl _)
  exact ⟨one, other, made, made', ends (exampleRequest "s" 0 0) 3 (some headToken) (.fresh 2) (by decide)⟩

end GoExotic
