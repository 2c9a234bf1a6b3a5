/-
Module: GoExotic.Proofs.ShardedGeneration
Purpose: Sharded generation equals unsharded generation. `generateWhole` is decoding on one cache with all
  layers in order, without routes or workers. A simulator over a route plan with one worker a peer
  refines it: the ranges of the routes partition the layers, every worker holds the slots of the layers
  it owns, and each route hands the activation on. Two deployments of one model therefore agree.
Trusted boundary: go-pherence, through the hypothesis ForwardsLocally
Main exports: heapWorker, layerWorkers, Deployment, executeRoutes_matches, execute_refines,
  generateWhole, decode_refines, sharded_generation_equals_unsharded
-/
import GoExotic.Proofs.Custody
import GoExotic.Proofs.SharedCaches
import Mathlib.Data.Fintype.EquivFin

namespace GoExotic

open SlotStore

/-! ### One worker a peer -/

/-- The workers of a deployment, by the id of their peer. -/
abbrev Heap := String → LayerExecutorWorker

/-- The worker of a peer, as the simulator calls it. -/
def heapWorker (id : String) : Worker Heap := fun ctx req heap =>
  let (result, w) := (heap id).executeShard ctx req
  (result, Function.update heap id w)

/-- A worker for each id. -/
def layerWorkers (ids : List String) : GoMap (Option (Worker Heap)) :=
  ids.foldl (fun workers id => workers.insert id (some (heapWorker id))) ∅

/-- Workers over one executor, each with caches of its own. -/
def heapOf (e : PherenceLayerExecutor) (caches : String → KVCache) (totalLayers : Int) : Heap :=
  fun id => .over e (caches id) totalLayers

theorem lookup_layerWorkers_from (ids : List String) (workers : GoMap (Option (Worker Heap)))
    (id : String) :
    (ids.foldl (fun workers id => workers.insert id (some (heapWorker id))) workers).lookup id =
      if id ∈ ids then some (some (heapWorker id)) else workers.lookup id := by
  induction ids generalizing workers with
  | nil => simp
  | cons head rest inductionHypothesis =>
      rw [List.foldl_cons, inductionHypothesis]
      by_cases inRest : id ∈ rest
      · simp [inRest]
      · by_cases isHead : id = head
        · subst isHead
          simp [inRest]
        · rw [if_neg inRest, AList.lookup_insert_ne isHead]
          simp [inRest, isHead]

theorem lookup_layerWorkers (ids : List String) (id : String) :
    (layerWorkers ids).lookup id = if id ∈ ids then some (some (heapWorker id)) else none := by
  rw [layerWorkers, lookup_layerWorkers_from, AList.lookup_empty]

/-- `NewSimulator` accepts the workers of named peers and finds each under its id. -/
theorem newSimulator_layerWorkers {ids : List String} (nonempty : ids ≠ []) (named : ∀ id ∈ ids, id ≠ "") :
    ∃ sim, newSimulator (layerWorkers ids) = .ok sim ∧
      ∀ id ∈ ids, sim.workers.lookup id = some (heapWorker id) := by
  have entryIff : ∀ id worker, (⟨id, worker⟩ : Sigma fun _ : String => Option (Worker Heap)) ∈
      (layerWorkers ids).entries ↔ id ∈ ids ∧ worker = some (heapWorker id) := by
    intro id worker
    rw [← AList.mem_lookup_iff, lookup_layerWorkers, Option.mem_def]
    by_cases member : id ∈ ids
    · simp [member, eq_comm]
    · simp [member]
  have each : ∀ entry ∈ (layerWorkers ids).entries, entry.1 ≠ "" ∧ entry.2 ≠ none := by
    rintro ⟨id, worker⟩ member
    obtain ⟨listed, rfl⟩ := (entryIff id worker).mp member
    exact ⟨named id listed, Option.some_ne_none _⟩
  have some : (layerWorkers ids).entries ≠ [] := by
    intro empty
    obtain ⟨id, listed⟩ := List.exists_mem_of_ne_nil ids nonempty
    have entry := (entryIff id _).mpr ⟨listed, rfl⟩
    rw [empty] at entry
    cases entry
  obtain ⟨sim, ok, found⟩ := newSimulator_succeeds some each
  refine ⟨sim, ok, ?_⟩
  intro id listed
  rw [found, lookup_layerWorkers, if_pos listed]
  rfl

/-- Calling the worker of a peer runs its executor on its caches. -/
theorem heapWorker_heapOf (e : PherenceLayerExecutor) (caches : String → KVCache) (totalLayers : Int)
    (id : String) (ctx : Ctx) (req : ShardExecutionRequest) :
    heapWorker id ctx req (heapOf e caches totalLayers) =
      ((e.executeLayerRange ctx req (caches id) totalLayers).1,
        heapOf e (Function.update caches id (e.executeLayerRange ctx req (caches id) totalLayers).2)
          totalLayers) := by
  rw [heapWorker, heapOf, executeShard_over]
  dsimp only
  rw [Prod.mk.injEq]
  refine ⟨rfl, ?_⟩
  funext other
  by_cases isOwner : other = id
  · rw [isOwner, Function.update_self, heapOf, Function.update_self]
  · simp only [heapOf, Function.update_of_ne isOwner]

/-! ### Requests a model can run -/

/-- The request is one the model can run, whichever shard it names. -/
def ShardExecutionRequest.Routable (req : ShardExecutionRequest) (m : LlamaModel) : Prop :=
  trimSpace req.sessionID ≠ "" ∧ trimSpace req.requestID ≠ "" ∧ trimSpace req.modelID ≠ "" ∧
    validateActivation req.position req.hiddenSize req.activation = .ok () ∧
    req.hiddenSize = m.hiddenSize

instance (req : ShardExecutionRequest) (m : LlamaModel) : Decidable (req.Routable m) :=
  inferInstanceAs (Decidable (_ ∧ _))

namespace ShardExecutionRequest.Routable

variable {req : ShardExecutionRequest} {m : LlamaModel}

theorem validate (routable : req.Routable m) {shard : Shard} {totalLayers : Int}
    (valid : shard.validate totalLayers = .ok ()) :
    ({ req with shard := shard } : ShardExecutionRequest).validate totalLayers = .ok () := by
  obtain ⟨session, request, model, activation, -⟩ := routable
  exact ShardExecutionRequest.validate_eq_ok.mpr ⟨session, request, model, valid, activation⟩

/-- The next route's request is as good as this one's. -/
theorem next (routable : req.Routable m) (shard : Shard) {out : List Float32Bits}
    (same : out.length = req.activation.length) :
    ({ req with shard := shard, activation := out } : ShardExecutionRequest).Routable m := by
  obtain ⟨session, request, model, activation, hidden⟩ := routable
  exact ⟨session, request, model, (validateActivation_congr same).mpr activation, hidden⟩

/-- The next token's request is as good as this one's. -/
theorem later (routable : req.Routable m) {position : Int} (nonneg : 0 ≤ position) {out : List Float32Bits}
    (same : out.length = req.activation.length) :
    ({ req with position := position, activation := out } : ShardExecutionRequest).Routable m := by
  obtain ⟨session, request, model, activation, hidden⟩ := routable
  obtain ⟨-, positive, bounded, length⟩ := validateActivation_eq_ok.mp activation
  rw [← same] at length
  exact ⟨session, request, model, validateActivation_eq_ok.mpr ⟨nonneg, positive, bounded, length⟩, hidden⟩

end ShardExecutionRequest.Routable

/-! ### The routes of a request -/

/-- The layers of the routes, each with the peer that owns them. -/
def blocks (routes : List Route) : List (String × List Nat) :=
  routes.map fun route => (route.peer.id, route.shard.layers)

/-- A model deployed behind a simulator: a route plan over some peers, and a worker for each of them over
an executor of the model. -/
structure Deployment (go : GoLib) (m : LlamaModel) (e : PherenceLayerExecutor) (sim : Simulator Heap)
    (peers : List Peer) (shards : List Shard) (totalLayers : Int) (routes : List Route) : Prop where
  isModel : e.model = some m
  layers : m.numLayers = totalLayers
  forwards : m.ForwardsLocally
  plan : RoutePlan go peers shards totalLayers routes
  workers : ∀ id ∈ peers.map Peer.id, sim.workers.lookup id = some (heapWorker id)

/-- What the simulator needs of a route. -/
structure Served (sim : Simulator Heap) (totalLayers : Int) (route : Route) : Prop where
  worker : sim.workers.lookup route.peer.id = some (heapWorker route.peer.id)
  named : route.peer.id = route.shard.deviceID
  nonblank : trimSpace route.peer.id ≠ ""
  valid : route.shard.validate totalLayers = .ok ()

/-- A run and an execution end alike: both fail, or the response carries the result. -/
def Matches (answer : Except GoError (List Float32Bits)) (result : Except GoError ShardExecutionResponse) :
    Prop :=
  match answer, result with
  | .ok out, .ok resp => resp.activation = out
  | .error _, .error _ => True
  | _, _ => False

variable {m : LlamaModel} {e : PherenceLayerExecutor} {sim : Simulator Heap} {totalLayers : Int}

/-- Running layers keeps the sizes of the caches. -/
theorem run_sized (forwards : m.ForwardsLocally) {ctx : Ctx} {position : Int} {start : Nat}
    (steps : List Nat) (hidden : List Float32Bits) {cache : KVCache} (sized : cache.Sized m) :
    (run (layerStep m ctx position start) steps hidden cache).2.Sized m := by
  -- a slot outside the steps keeps its content, and with it the sizes it shows
  obtain ⟨free, outside⟩ := Infinite.exists_notMem_finset steps.toFinset
  rw [List.mem_toFinset] at outside
  have same := (run_footprint (layerStep_local forwards ctx position start) steps hidden).frame cache free
    outside
  simp only [KVCache.slot, KVSlot.mk.injEq] at same
  rw [KVCache.Sized, same.2.2.1, same.2.2.2]
  exact sized

/-- Running layers keeps the length of the activation. -/
theorem run_length (forwards : m.ForwardsLocally) {ctx : Ctx} {position : Int} {start : Nat}
    {steps : List Nat} {hidden out : List Float32Bits} {cache : KVCache}
    (ran : (run (layerStep m ctx position start) steps hidden cache).1 = .ok out) :
    out.length = hidden.length :=
  run_value_invariant (fun value => value.length = hidden.length)
    (fun _ _ _ _ same stepped => (layerStep_length forwards stepped).trans same) steps rfl ran

/-- The worker of a served route runs the layers of the route on its caches. -/
theorem Served.execution {route : Route} (here : Served sim totalLayers route)
    (isModel : e.model = some m) (layers : m.numLayers = totalLayers) {req : ShardExecutionRequest}
    (routable : req.Routable m) (i : Nat) {cache : KVCache} (sized : cache.Sized m) :
    e.executeLayerRange (Ctx.background.call i) { req with shard := route.shard } cache totalLayers =
      (Except.map (respond { req with shard := route.shard })
          (run (layerStep m .background req.position 0) route.shard.layers req.activation cache).1,
        (run (layerStep m .background req.position 0) route.shard.layers req.activation cache).2) := by
  have checked : e.checkRequest (Ctx.background.call i) { req with shard := route.shard } totalLayers =
      .ok m :=
    checkRequest_eq_ok.mpr
      ⟨isModel, rfl, layers.symm, routable.validate here.valid, routable.2.2.2.2⟩
  exact executeLayerRange_accepted checked sized

/-- The simulator accepts the response of a served route. -/
theorem Served.response_accepted {route : Route} (here : Served sim totalLayers route)
    {req : ShardExecutionRequest} (routable : req.Routable m) {out : List Float32Bits}
    (sameLength : out.length = req.activation.length) (i : Nat) :
    Simulator.checkResponse i route { req with shard := route.shard }
      (respond { req with shard := route.shard } out) = .ok () := by
  obtain ⟨session, request, -, activation, -⟩ := routable
  have nonblank : trimSpace route.shard.deviceID ≠ "" := here.named ▸ here.nonblank
  have responseValid : (respond { req with shard := route.shard } out).validate = .ok () :=
    ShardExecutionResponse.validate_eq_ok.mpr
      ⟨session, request, nonblank, (validateActivation_congr sameLength).mpr activation⟩
  rw [Simulator.checkResponse, responseValid]
  simp [respond, here.named, wrapErr, failIf]

/-- The loop over the routes does what the blocks of layers do, each on the caches of its owner. -/
theorem executeRoutes_matches (isModel : e.model = some m) (layers : m.numLayers = totalLayers)
    (forwards : m.ForwardsLocally) (routes : List Route) :
    ∀ (i : Nat) (req : ShardExecutionRequest) (resp : ShardExecutionResponse)
      (caches : String → KVCache),
      (∀ route ∈ routes, Served sim totalLayers route) → req.Routable m →
      (∀ id, (caches id).Sized m) → (routes = [] → resp.activation = req.activation) →
      ∃ result, sim.executeRoutes .background totalLayers i req resp routes
          (heapOf e caches totalLayers) =
            (result, heapOf e (runBlocks (layerStep m .background req.position 0) (blocks routes)
              req.activation caches).2 totalLayers) ∧
        Matches (runBlocks (layerStep m .background req.position 0) (blocks routes) req.activation
          caches).1 result ∧
        ∀ id, ((runBlocks (layerStep m .background req.position 0) (blocks routes) req.activation
          caches).2 id).Sized m := by
  induction routes with
  | nil =>
      intro i req resp caches _ _ sized last
      exact ⟨.ok resp, rfl, last rfl, sized⟩
  | cons route rest inductionHypothesis =>
      intro i req resp caches served routable sized _
      have here := served route (by simp)
      have execution := here.execution isModel layers routable i (sized route.peer.id)
      have sizedAfter : ∀ answer after, run (layerStep m .background req.position 0) route.shard.layers
          req.activation (caches route.peer.id) = (answer, after) →
          ∀ id, (Function.update caches route.peer.id after id).Sized m := by
        intro answer after ran id
        by_cases isOwner : id = route.peer.id
        · have kept : (run (layerStep m .background req.position 0) route.shard.layers req.activation
              (caches route.peer.id)).2.Sized m :=
            run_sized forwards route.shard.layers req.activation (sized route.peer.id)
          rw [ran] at kept
          rw [isOwner, Function.update_self]
          exact kept
        · rw [Function.update_of_ne isOwner]
          exact sized id
      rw [Simulator.executeRoutes, Ctx.check_background, here.worker]
      dsimp only
      rw [routable.validate here.valid]
      dsimp only
      rw [heapWorker_heapOf, execution]
      rcases ran : run (layerStep m .background req.position 0) route.shard.layers req.activation
        (caches route.peer.id) with ⟨err | out, after⟩
      · -- the owner fails, and so does its block
        rw [blocks, List.map_cons, runBlocks_cons_error ran]
        exact ⟨_, rfl, trivial, sizedAfter _ after ran⟩
      · -- the response passes its checks, and the rest runs on its activation
        have sameLength := run_length forwards (congrArg Prod.fst ran)
        obtain ⟨result, executed, same, sizedEnd⟩ := inductionHypothesis (i + 1)
          { req with shard := route.shard, activation := out }
          (respond { req with shard := route.shard } out) (Function.update caches route.peer.id after)
          (fun other member => served other (List.mem_cons_of_mem route member))
          (routable.next route.shard sameLength) (sizedAfter _ after ran) (fun _ => rfl)
        rw [blocks, List.map_cons, runBlocks_cons_ok ran]
        refine ⟨result, ?_, same, sizedEnd⟩
        dsimp only [Except.map]
        rw [here.response_accepted routable sameLength]
        exact executed

/-! ### One request against the whole model -/

namespace Deployment

variable {go : GoLib} {peers : List Peer} {shards : List Shard} {routes : List Route}

theorem served (deployed : Deployment go m e sim peers shards totalLayers routes) :
    ∀ route ∈ routes, Served sim totalLayers route := by
  intro route member
  obtain ⟨isPeer, named⟩ := deployed.plan.peers_named route member
  have inPlan : route.shard ∈ shards := deployed.plan.shards_eq ▸ List.mem_map_of_mem member
  have nonblank := (Peer.validate_eq_ok.mp (deployed.plan.peers_valid route.peer isPeer)).1
  exact ⟨deployed.workers route.peer.id (List.mem_map_of_mem isPeer), named, nonblank,
    deployed.plan.partition.validate inPlan⟩

theorem nonempty (deployed : Deployment go m e sim peers shards totalLayers routes) : routes ≠ [] := by
  rintro rfl
  have empty : [] = shards := deployed.plan.shards_eq
  exact deployed.plan.partition.nonempty empty.symm

/-- The layers of the routes, in order, are the layers of the model. -/
theorem allSteps_blocks (deployed : Deployment go m e sim peers shards totalLayers routes) :
    allSteps (blocks routes) = List.range' 0 totalLayers.toNat := by
  have cells := deployed.plan.partition.tiles.flatMap_cells (le_refl 0)
  rw [← deployed.plan.shards_eq, List.flatMap_map, Int.sub_zero, Int.toNat_zero] at cells
  rw [allSteps, blocks, List.flatMap_map]
  exact cells

theorem given_nonempty (deployed : Deployment go m e sim peers shards totalLayers routes)
    {given : List Route} (perm : given.Perm routes) : ¬ given.length = 0 := by
  rw [perm.length_eq, List.length_eq_zero_iff]
  exact deployed.nonempty

/-- Every worker holds the slots of the layers it owns as the one cache has them, and all caches have the
model's size. -/
structure Holds (m : LlamaModel) (routes : List Route) (caches : String → KVCache) (whole : KVCache) :
    Prop where
  agree : BlocksAgree KVCache.slot (blocks routes) caches whole
  sized : ∀ id, (caches id).Sized m

/-- One request through the routes does what running all layers on one cache does. -/
theorem execute_refines (deployed : Deployment go m e sim peers shards totalLayers routes)
    {given : List Route} (perm : given.Perm routes) {req : ShardExecutionRequest}
    (routable : req.Routable m) {caches : String → KVCache} {whole : KVCache}
    (holds : Holds m routes caches whole) :
    ∃ result caches', sim.execute go .background given req totalLayers (heapOf e caches totalLayers) =
        (result, heapOf e caches' totalLayers) ∧
      Matches (run (layerStep m .background req.position 0) (List.range' 0 totalLayers.toNat)
        req.activation whole).1 result ∧
      Holds m routes caches' (run (layerStep m .background req.position 0)
        (List.range' 0 totalLayers.toNat) req.activation whole).2 := by
  obtain ⟨result, executed, same, sized⟩ := executeRoutes_matches deployed.isModel deployed.layers
    deployed.forwards routes 0 req ⟨"", "", "", 0, 0, []⟩ caches deployed.served routable holds.sized
    (fun empty => absurd empty deployed.nonempty)
  have disjoint : (allSteps (blocks routes)).Nodup := by
    rw [deployed.allSteps_blocks]
    exact List.nodup_range'
  have refined := runBlocks_refines (layerStep_local deployed.forwards .background req.position 0)
    (blocks routes) disjoint req.activation holds.agree
  rw [deployed.allSteps_blocks] at refined
  rw [refined.1] at same
  refine ⟨result, _, ?_, same, ⟨refined.2, sized⟩⟩
  rw [Simulator.execute, Ctx.check_background, deployed.plan.sorted perm]
  dsimp only
  rw [if_neg (deployed.given_nonempty perm)]
  exact executed

/-- A request the model cannot run fails at the first route and leaves the workers alone. -/
theorem execute_fails (deployed : Deployment go m e sim peers shards totalLayers routes)
    {given : List Route} (perm : given.Perm routes) {req : ShardExecutionRequest}
    (unroutable : ¬ req.Routable m) (caches : String → KVCache) :
    ∃ err, sim.execute go .background given req totalLayers (heapOf e caches totalLayers) =
      (.error err, heapOf e caches totalLayers) := by
  rw [Simulator.execute, Ctx.check_background, deployed.plan.sorted perm]
  dsimp only
  rw [if_neg (deployed.given_nonempty perm)]
  cases split : routes with
  | nil => exact absurd split deployed.nonempty
  | cons route rest =>
      have here := deployed.served route (by simp [split])
      rw [Simulator.executeRoutes, Ctx.call_background, Ctx.check_background, here.worker]
      dsimp only
      cases valid : ({ req with shard := route.shard } : ShardExecutionRequest).validate totalLayers with
      | error err => exact ⟨_, rfl⟩
      | ok u =>
          obtain ⟨session, request, model, -, activation⟩ :=
            ShardExecutionRequest.validate_eq_ok.mp valid
          have rejected : ∃ err, e.checkRequest (Ctx.background.call 0)
              { req with shard := route.shard } totalLayers = .error err := by
            apply exists_error_of_not_ok
            intro found checked
            obtain ⟨isModel, -, -, -, hidden⟩ := checkRequest_eq_ok.mp checked
            rw [deployed.isModel, Option.some.injEq] at isModel
            exact unroutable ⟨session, request, model, activation, isModel ▸ hidden⟩
          obtain ⟨err, rejected⟩ := rejected
          dsimp only
          rw [heapWorker_heapOf, executeLayerRange_rejected rejected, Function.update_eq_self]
          exact ⟨_, rfl⟩

end Deployment

/-! ### Decoding on one cache -/

/-- Decoding without routes or workers: each step runs all layers in order on one cache. -/
def generateWhole (m : LlamaModel) (totalLayers : Int) (base : ShardExecutionRequest)
    (project : Simulator.TokenProjector) :
    Nat → Nat → List Float32Bits → List Int → KVCache → Except GoError (List Int) × KVCache
  | 0, _, _, out, cache => (.ok out, cache)
  | remaining + 1, step, activation, out, cache =>
      let position := wrapInt (base.position + step)
      if ¬ ({ base with position := position, activation := activation } :
          ShardExecutionRequest).Routable m then
        (.error (.library "the model cannot run the request"), cache)
      else
        match run (layerStep m .background position 0) (List.range' 0 totalLayers.toNat) activation
            cache with
        | (.error err, cache) => (.error err, cache)
        | (.ok final, cache) =>
            match project final with
            | .error err => (.error err, cache)
            | .ok tok =>
                generateWhole m totalLayers base project remaining (step + 1) final (out ++ [tok]) cache

/-- A decode through routes ends like one on a single cache: both fail, or both return the same tokens
and the workers hold the slots of the cache. -/
inductive EndsAlike (m : LlamaModel) (e : PherenceLayerExecutor) (totalLayers : Int) (routes : List Route) :
    Except GoError (List Int) × Heap → Except GoError (List Int) × KVCache → Prop where
  | failed {err err' : GoError} {heap : Heap} {whole : KVCache} :
      EndsAlike m e totalLayers routes (.error err, heap) (.error err', whole)
  | finished {tokens : List Int} {caches : String → KVCache} {whole : KVCache}
      (holds : Deployment.Holds m routes caches whole) :
      EndsAlike m e totalLayers routes (.ok tokens, heapOf e caches totalLayers) (.ok tokens, whole)

/-- The decode loop refines decoding on one cache. -/
theorem Deployment.decode_refines {go : GoLib} {peers : List Peer} {shards : List Shard}
    {routes : List Route} (deployed : Deployment go m e sim peers shards totalLayers routes)
    {given : List Route} (perm : given.Perm routes) (base : ShardExecutionRequest)
    (project : Simulator.TokenProjector) (remaining : Nat) :
    ∀ (step : Nat) (activation : List Float32Bits) (out : List Int) (caches : String → KVCache)
      (whole : KVCache), Holds m routes caches whole →
      EndsAlike m e totalLayers routes
        (sim.decode go .background given base totalLayers project remaining step activation out
          (heapOf e caches totalLayers))
        (generateWhole m totalLayers base project remaining step activation out whole) := by
  induction remaining with
  | zero =>
      intro step activation out caches whole holds
      exact EndsAlike.finished holds
  | succ remaining inductionHypothesis =>
      intro step activation out caches whole holds
      rw [Simulator.decode, generateWhole, Ctx.check_background]
      dsimp only
      by_cases routable : ({ base with position := wrapInt (base.position + step), activation := activation } :
          ShardExecutionRequest).Routable m
      · rw [if_neg (not_not.mpr routable)]
        obtain ⟨result, caches', executed, same, holds'⟩ := deployed.execute_refines perm routable holds
        rw [Ctx.call_background, executed]
        rcases ran : run (layerStep m .background (wrapInt (base.position + step)) 0)
          (List.range' 0 totalLayers.toNat) activation whole with ⟨err | final, whole'⟩
        · rw [ran] at same
          cases result with
          | error err' => exact EndsAlike.failed
          | ok resp => exact same.elim
        · rw [ran] at same holds'
          cases result with
          | error err' => exact same.elim
          | ok resp =>
              have sameActivation : resp.activation = final := same
              dsimp only
              rw [sameActivation]
              cases project final with
              | error err => exact EndsAlike.failed
              | ok tok =>
                  exact inductionHypothesis (step + 1) final (out ++ [tok]) caches' whole' holds'
      · rw [if_pos routable]
        obtain ⟨err, failed⟩ := deployed.execute_fails perm routable caches
        rw [Ctx.call_background, failed]
        exact EndsAlike.failed

/-! ### Two deployments of one model -/

/-- Fresh workers for a model, each with its own empty caches. -/
def freshHeap (m : LlamaModel) (totalLayers : Int) : Heap :=
  heapOf ⟨some m⟩ (fun _ => .fresh totalLayers.toNat) totalLayers

/-- The simulator over a route plan, with one fresh worker a peer, is a deployment. -/
theorem exists_deployment {go : GoLib} {peers : List Peer} {shards : List Shard} {routes : List Route}
    (layers : m.numLayers = totalLayers) (forwards : m.ForwardsLocally)
    (plan : RoutePlan go peers shards totalLayers routes) :
    ∃ sim, newSimulator (layerWorkers (peers.map Peer.id)) = .ok sim ∧
      Deployment go m ⟨some m⟩ sim peers shards totalLayers routes := by
  have nonempty : peers.map Peer.id ≠ [] := by
    intro empty
    have subset := plan.devices_subset
    rw [empty, List.subset_nil, List.map_eq_nil_iff] at subset
    exact plan.partition.nonempty subset
  have named : ∀ id ∈ peers.map Peer.id, id ≠ "" := by
    intro id member
    obtain ⟨p, listed, rfl⟩ := List.mem_map.mp member
    exact Peer.id_ne_empty (plan.peers_valid p listed)
  obtain ⟨sim, made, workers⟩ := newSimulator_layerWorkers nonempty named
  exact ⟨sim, made, ⟨rfl, layers, forwards, plan, workers⟩⟩

/-- Fresh workers hold the slots of a fresh cache. -/
theorem holds_fresh {routes : List Route} (layers : m.numLayers = totalLayers) (nonneg : 0 ≤ totalLayers) :
    Deployment.Holds m routes (fun _ => .fresh totalLayers.toNat) (.fresh totalLayers.toNat) := by
  constructor
  · intro block _ layer _
    rfl
  · intro id
    rw [KVCache.Sized, KVCache.fresh, List.length_replicate, layers]
    omega

/-- The owner of a layer holds its slot as the one cache has it. -/
theorem Deployment.Holds.slot_eq {routes : List Route} {caches : String → KVCache} {whole : KVCache}
    (holds : Deployment.Holds m routes caches whole) {route : Route} (member : route ∈ routes)
    (valid : route.shard.validate totalLayers = .ok ()) {layer : Nat}
    (above : route.shard.startLayer ≤ layer) (below : layer ≤ route.shard.endLayer) :
    (caches route.peer.id).slot layer = whole.slot layer := by
  obtain ⟨-, -, start, -, -⟩ := Shard.validate_eq_ok.mp valid
  have owned : layer ∈ route.shard.layers := (Shard.mem_layers start).mpr ⟨above, below⟩
  exact holds.agree (route.peer.id, route.shard.layers)
    (List.mem_map.mpr ⟨route, member, rfl⟩) layer owned

/-- Two decodes of one model agree: one through the routes of a plan, one through a single peer that owns
all layers. -/
structure GenerationAgrees (routes : List Route) (totalLayers : Int) (single : Peer)
    (sharded unsharded : Except GoError (List Int) × Heap) : Prop where
  fail_alike : (∃ err, sharded.1 = .error err) ↔ ∃ err, unsharded.1 = .error err
  same_tokens : ∀ tokens, unsharded.1 = .ok tokens → sharded.1 = .ok tokens
  every_layer_owned : ∀ layer : Nat, layer < totalLayers →
    ∃ route ∈ routes, route.shard.startLayer ≤ layer ∧ layer ≤ route.shard.endLayer
  same_slots : ∀ tokens, unsharded.1 = .ok tokens → ∀ route ∈ routes, ∀ layer : Nat,
    route.shard.startLayer ≤ layer → layer ≤ route.shard.endLayer →
      (sharded.2 route.peer.id).kvCache.slot layer = (unsharded.2 single.id).kvCache.slot layer

/-- The plan with one shard over all layers has one route, to its peer. -/
theorem Deployment.single_route {go : GoLib} {single : Peer} {routes : List Route}
    (deployed : Deployment go m e sim [single] [⟨single.id, 0, totalLayers - 1⟩] totalLayers routes) :
    ∃ route ∈ routes, route.peer.id = single.id ∧ route.shard.startLayer = 0 ∧
      route.shard.endLayer = totalLayers - 1 := by
  have member : (⟨single.id, 0, totalLayers - 1⟩ : Shard) ∈ routes.map Route.shard := by
    rw [deployed.plan.shards_eq]
    exact List.mem_singleton_self _
  obtain ⟨route, listed, isWhole⟩ := List.mem_map.mp member
  refine ⟨route, listed, ?_, by rw [isWhole], by rw [isWhole]⟩
  rw [(deployed.plan.peers_named route listed).2, isWhole]

/-- Two decodes that end like the same decode on one cache agree. -/
theorem EndsAlike.agrees {go : GoLib} {peers : List Peer} {shards : List Shard} {single : Peer}
    {routes wholeRoutes : List Route} {simAlone : Simulator Heap}
    {sharded unsharded : Except GoError (List Int) × Heap} {common : Except GoError (List Int) × KVCache}
    (first : EndsAlike m e totalLayers routes sharded common)
    (second : EndsAlike m e totalLayers wholeRoutes unsharded common)
    (deployed : Deployment go m e sim peers shards totalLayers routes)
    (deployedAlone : Deployment go m e simAlone [single] [⟨single.id, 0, totalLayers - 1⟩] totalLayers
      wholeRoutes)
    (owned : ∀ layer : Nat, layer < totalLayers →
      ∃ route ∈ routes, route.shard.startLayer ≤ layer ∧ layer ≤ route.shard.endLayer) :
    GenerationAgrees routes totalLayers single sharded unsharded := by
  cases first with
  | @failed err _ _ _ =>
      cases second with
      | @failed err' _ _ _ =>
          constructor
          · exact ⟨fun _ => ⟨err', rfl⟩, fun _ => ⟨err, rfl⟩⟩
          · intro tokens done
            cases done
          · exact owned
          · intro tokens done
            cases done
  | @finished tokens caches whole holds =>
      cases second with
      | @finished _ cachesAlone _ holdsAlone =>
          constructor
          · constructor
            · rintro ⟨err, failed⟩
              cases failed
            · rintro ⟨err, failed⟩
              cases failed
          · intro tokens' done
            exact done
          · exact owned
          · intro _ _ route member layer above below
            -- the route's worker and the single worker both hold the slot of the one cache
            have valid := (deployed.served route member).valid
            have inShards := holds.slot_eq member valid above below
            obtain ⟨routeAlone, memberAlone, isSingle, start, stop⟩ := deployedAlone.single_route
            have validAlone := (deployedAlone.served routeAlone memberAlone).valid
            obtain ⟨-, -, startNonneg, -, endBelow⟩ := Shard.validate_eq_ok.mp valid
            have inWhole := holdsAlone.slot_eq memberAlone validAlone
              (by rw [start]; omega : routeAlone.shard.startLayer ≤ layer) (by rw [stop]; omega)
            rw [isSingle] at inWhole
            exact inShards.trans inWhole.symm

/-- Sharded generation equals unsharded generation: for every plan `BuildRoutes` accepts with some peers,
every order of its routes, every request, token count and projector, the decode over one fresh worker a
peer and the decode over a single peer with all layers fail alike, return the same tokens, and leave the
same content in the slots of every layer. -/
theorem sharded_generation_equals_unsharded (go : GoLib) (m : LlamaModel) (totalLayers : Int)
    (layers : m.numLayers = totalLayers) (forwards : m.ForwardsLocally)
    (peers : List Peer) (shards : List Shard) (routes given : List Route)
    (built : buildRoutes go .background peers shards totalLayers = .ok routes)
    (perm : given.Perm routes) (single : Peer) (wholeRoutes : List Route)
    (builtWhole : buildRoutes go .background [single] [⟨single.id, 0, totalLayers - 1⟩] totalLayers =
      .ok wholeRoutes)
    (base : ShardExecutionRequest) (maxTokens : Int) (project : Option Simulator.TokenProjector) :
    ∃ sim alone, newSimulator (layerWorkers (peers.map Peer.id)) = .ok sim ∧
      newSimulator (layerWorkers [single.id]) = .ok alone ∧
      GenerationAgrees routes totalLayers single
        (sim.generateTokens go .background given base totalLayers maxTokens project
          (freshHeap m totalLayers))
        (alone.generateTokens go .background wholeRoutes base totalLayers maxTokens project
          (freshHeap m totalLayers)) := by
  have plan := (buildRoutes_eq_ok.mp built).2
  have wholePlan := (buildRoutes_eq_ok.mp builtWhole).2
  obtain ⟨sim, made, deployed⟩ := exists_deployment layers forwards plan
  obtain ⟨alone, madeAlone, deployedAlone⟩ := exists_deployment layers forwards wholePlan
  have owned : ∀ layer : Nat, layer < totalLayers →
      ∃ route ∈ routes, route.shard.startLayer ≤ layer ∧ layer ≤ route.shard.endLayer :=
    fun layer below => plan.tiles.cover (Int.natCast_nonneg layer) below
  refine ⟨sim, alone, made, madeAlone, ?_⟩
  rw [Simulator.generateTokens, Simulator.generateTokens]
  cases Simulator.checkGeneration base maxTokens project with
  | error err =>
      -- both calls make the same checks first
      constructor
      · exact ⟨fun _ => ⟨err, rfl⟩, fun _ => ⟨err, rfl⟩⟩
      · intro tokens done
        cases done
      · exact owned
      · intro tokens done
        cases done
  | ok project =>
      -- both decodes refine the one on a single cache
      have positive := plan.partition.layers_pos
      have first := deployed.decode_refines perm base project maxTokens.toNat 0 base.activation [] _ _
        (holds_fresh layers (by omega))
      have second := deployedAlone.decode_refines (List.Perm.refl wholeRoutes) base project
        maxTokens.toNat 0 base.activation [] _ _ (holds_fresh layers (by omega))
      exact first.agrees second deployed deployedAlone owned

/-- A peer with an address and a memory budget. -/
def servingPeer (id : String) : Peer := ⟨id, "http://h", "http", ⟨id, .finite 1, ""⟩, 0⟩

/-- A projector that reads the first element. -/
def headToken : Simulator.TokenProjector := fun activation => .ok (activation.headD 0).toNat

/-- Two peers with one layer each, their routes given last first, decode three tokens as one peer with
both layers does. -/
theorem sharded_generation_equals_unsharded_pair :
    ∃ sim alone, newSimulator (layerWorkers ["b", "a"]) = .ok sim ∧
      newSimulator (layerWorkers ["c"]) = .ok alone ∧
      GenerationAgrees [⟨servingPeer "a", ⟨"a", 0, 0⟩⟩, ⟨servingPeer "b", ⟨"b", 1, 1⟩⟩] 2 (servingPeer "c")
        (sim.generateTokens .plain .background
          [⟨servingPeer "b", ⟨"b", 1, 1⟩⟩, ⟨servingPeer "a", ⟨"a", 0, 0⟩⟩] (exampleRequest "s" 0 0) 2 3
          (some headToken) (freshHeap (recallModel 2) 2))
        (alone.generateTokens .plain .background [⟨servingPeer "c", ⟨"c", 0, 1⟩⟩]
          (exampleRequest "s" 0 0) 2 3 (some headToken) (freshHeap (recallModel 2) 2)) := by
  have built : buildRoutes .plain .background [servingPeer "b", servingPeer "a"]
      [⟨"a", 0, 0⟩, ⟨"b", 1, 1⟩] 2 =
        .ok [⟨servingPeer "a", ⟨"a", 0, 0⟩⟩, ⟨servingPeer "b", ⟨"b", 1, 1⟩⟩] := by
    decide +kernel
  have builtWhole : buildRoutes .plain .background [servingPeer "c"] [⟨"c", 0, 1⟩] 2 =
      .ok [⟨servingPeer "c", ⟨"c", 0, 1⟩⟩] := by
    decide +kernel
  exact sharded_generation_equals_unsharded .plain (recallModel 2) 2 rfl (recallModel_forwardsLocally 2)
    [servingPeer "b", servingPeer "a"] _ _ _ built (List.Perm.swap _ _ []) (servingPeer "c") _ builtWhole
    (exampleRequest "s" 0 0) 3 (some headToken)

end GoExotic
