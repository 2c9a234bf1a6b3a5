/-
Module: GoExotic.Proofs.ServedRuns
Purpose: Whole runs of the process that `serve` starts with a model, with requests of all kinds. The caches are
  always those the executor leaves for the admitted executions alone; they always fit the model, so an
  admitted execution is answered 500 only if its context is cancelled, its hidden size is not the model's, a
  layer fails or the device it names is blank, and 200 with the layers' result otherwise. Next to concurrent
  executions of other layers, a client is served as if it were alone.
Trusted boundary: go-pherence, through the hypothesis ForwardsLocally
Main exports: admitted, AnswersExecution, serve_executes_the_model, serve_client_alone
-/
import GoExotic.Proofs.ConcurrentServer
import GoExotic.Proofs.ShardEndpoint

namespace GoExotic

open Threads SlotStore Linearization Runs

variable {go : GoLib} {lib : ServerLib} {s : WebAPI KVCache} {m : LlamaModel}

/-! ### One request -/

/-- The execution a request is admitted for. -/
def admitted (lib : ServerLib) (m : LlamaModel) (call : Incoming) : Option (Ctx × ShardExecutionRequest) :=
  match lib.mux call.request with
  | .ok .shardsExecute =>
      if call.request.method ≠ "POST" ∨ m.numLayers ≤ 0 then none
      else
        match readShardRequest lib.toWireLib m.numLayers call.request with
        | .error _ => none
        | .ok req => some (call.ctx, req)
  | _ => none

/-- An execution on the caches of a model. -/
def executes (m : LlamaModel) (call : Ctx × ShardExecutionRequest) (cache : KVCache) :
    Except GoError ShardExecutionResponse × KVCache :=
  PherenceLayerExecutor.executeLayerRange ⟨some m⟩ call.1 call.2 cache m.numLayers

/-- An admitted request is executed, and its outcome is the response. -/
theorem serve_admitted (serves : ServesWith s (some m)) {call : Incoming} {inside : Ctx × ShardExecutionRequest}
    (isAdmitted : admitted lib m call = some inside) (cache : KVCache) :
    s.serve go lib call cache =
        (writeShardResponse lib.toWireLib (executes m inside cache).1, (executes m inside cache).2) ∧
      inside.2.validate m.numLayers = .ok () := by
  rw [admitted] at isAdmitted
  rw [WebAPI.serve, WebAPI.serveHTTP]
  split at isAdmitted
  · next routed =>
      rw [routed]
      split_ifs at isAdmitted with refused
      obtain ⟨post, layers⟩ := not_or.mp refused
      cases read : readShardRequest lib.toWireLib m.numLayers call.request with
      | error msg =>
          rw [read] at isAdmitted
          cases isAdmitted
      | ok req =>
          rw [read] at isAdmitted
          cases isAdmitted
          refine ⟨?_, (readShardRequest_eq_ok.mp read).2.2⟩
          dsimp only
          rw [Server.handleShardExecute, if_neg post, serves.worker, serves.layers m rfl]
          dsimp only [Option.map_some]
          rw [if_neg layers, read]
          rfl
  · cases isAdmitted

/-- Any other request leaves the caches alone, and for an execution it is answered neither 200 nor 500. -/
theorem serve_refused (serves : ServesWith s (some m)) {call : Incoming} (refused : admitted lib m call = none)
    (cache : KVCache) :
    (s.serve go lib call cache).2 = cache ∧
      (lib.mux call.request = .ok .shardsExecute → (s.serve go lib call cache).1.status ∈ [400, 405, 503]) := by
  rw [admitted] at refused
  rw [WebAPI.serve, WebAPI.serveHTTP]
  cases routed : lib.mux call.request with
  | error resp => exact ⟨rfl, fun routes => by cases routes⟩
  | ok endpoint =>
      cases endpoint with
      | view v => exact ⟨rfl, fun routes => by cases routes⟩
      | shardsExecute =>
          rw [routed] at refused
          dsimp only at refused ⊢
          rw [Server.handleShardExecute, serves.worker, serves.layers m rfl]
          by_cases post : call.request.method ≠ "POST"
          · rw [if_pos post]
            exact ⟨rfl, fun _ => by simp [writeMethodNotAllowed, writeError, writeJSON]⟩
          · rw [if_neg post]
            dsimp only [Option.map_some]
            by_cases off : m.numLayers ≤ 0
            · rw [if_pos off]
              exact ⟨rfl, fun _ => by simp [writeError, writeJSON]⟩
            · rw [if_neg (not_or.mpr ⟨post, off⟩)] at refused
              rw [if_neg off]
              cases read : readShardRequest lib.toWireLib m.numLayers call.request with
              | error msg => exact ⟨rfl, fun _ => by simp [writeError, writeJSON]⟩
              | ok req =>
                  rw [read] at refused
                  cases refused

/-! ### One execution -/

/-- The layers of a request, run on some caches. -/
def layersResult (m : LlamaModel) (call : Ctx × ShardExecutionRequest) (cache : KVCache) :
    Except GoError (List Float32Bits) × KVCache :=
  run (layerStep m (call.1.call 1) call.2.position call.2.shard.startLayer.toNat) call.2.shard.layers
    call.2.activation cache

/-- Nothing stops an execution before its layers. -/
def Starts (m : LlamaModel) (call : Ctx × ShardExecutionRequest) : Prop :=
  call.1.check 0 = .ok () ∧ call.2.hiddenSize = m.hiddenSize

/-- How an admitted execution is answered, with the caches before and after it. A blank device is admitted, as the
shard is only checked for an empty one, and the response that names it is not valid. -/
structure AnswersExecution (wire : WireLib) (m : LlamaModel) (call : Ctx × ShardExecutionRequest)
    (before : KVCache) (resp : HttpResponse) (after : KVCache) : Prop where
  /-- Status 200 exactly if nothing stops the execution, all its layers succeed and its device is not blank, and
  500 otherwise. -/
  ok_iff : resp.status = 200 ↔ Starts m call ∧ (∃ hidden, (layersResult m call before).1 = .ok hidden) ∧
    trimSpace call.2.shard.deviceID ≠ ""
  failed : resp.status ≠ 200 → resp.status = 500
  /-- Then the body is the result of the layers, to the client the request names. -/
  carries : resp.status = 200 → ∀ hidden, (layersResult m call before).1 = .ok hidden → IsInt call.2.position →
    ∃ bridge, wire.decodeResponse ⟨resp.body, eof⟩ = .ok bridge ∧
      bridge.shardExecutionResponse = .ok (respond call.2 hidden)
  /-- The caches are left as the layers leave them, or as they were. -/
  caches : (Starts m call → after = (layersResult m call before).2) ∧ (¬ Starts m call → after = before)

/-- The response to a valid request is valid unless the device is blank, as the layers keep the length of the
vector. -/
theorem respond_valid {req : ShardExecutionRequest} (valid : req.validate m.numLayers = .ok ())
    {hidden : List Float32Bits} (sameLength : hidden.length = req.activation.length) :
    (respond req hidden).validate = .ok () ↔ trimSpace req.shard.deviceID ≠ "" := by
  obtain ⟨sessionID, requestID, -, -, activation⟩ := ShardExecutionRequest.validate_eq_ok.mp valid
  rw [ShardExecutionResponse.validate_eq_ok]
  constructor
  · exact fun whole => whole.2.2.1
  · exact fun given => ⟨sessionID, requestID, given, (validateActivation_congr sameLength).mpr activation⟩

/-- A valid response is answered with status 200. -/
theorem writeShardResponse_status {wire : WireLib} {resp : ShardExecutionResponse}
    (valid : resp.validate = .ok ()) : (writeShardResponse wire (.ok resp)).status = 200 := by
  obtain ⟨-, -, -, activation⟩ := ShardExecutionResponse.validate_eq_ok.mp valid
  simp only [writeShardResponse, valid, newBridgeResponse_eq activation, writeJSON]

theorem answersExecution (forwards : m.ForwardsLocally) {wire : WireLib} (lossless : wire.LosslessResponses)
    {call : Ctx × ShardExecutionRequest} (valid : call.2.validate m.numLayers = .ok ()) {before : KVCache}
    (sized : before.Sized m) :
    AnswersExecution wire m call before (writeShardResponse wire (executes m call before).1)
      (executes m call before).2 := by
  obtain ⟨ctx, req⟩ := call
  by_cases starts : Starts m (ctx, req)
  · have checked : PherenceLayerExecutor.checkRequest ⟨some m⟩ ctx req m.numLayers = .ok m :=
      checkRequest_eq_ok.mpr ⟨rfl, starts.1, rfl, valid, starts.2⟩
    have executed : executes m (ctx, req) before = (Except.map (respond req) (layersResult m (ctx, req) before).1,
        (layersResult m (ctx, req) before).2) := executeLayerRange_accepted checked sized
    rw [executed]
    cases ran : (layersResult m (ctx, req) before).1 with
    | error err =>
        have status : (writeShardResponse wire (Except.map (respond req) (.error err))).status = 500 := rfl
        constructor
        · rw [status, ran]
          simp
        · exact fun _ => status
        · intro _ hidden returned
          rw [ran] at returned
          cases returned
        · exact ⟨fun _ => rfl, fun stopped => absurd starts stopped⟩
    | ok hidden =>
        have sameLength : hidden.length = req.activation.length := by
          have kept := run_value_invariant (fun out : List Float32Bits => out.length = req.activation.length)
            (fun layer input cache out same stepped => (layerStep_length forwards stepped).trans same)
            req.shard.layers rfl ran
          exact kept
        have responseValid := respond_valid valid sameLength
        by_cases blank : trimSpace req.shard.deviceID = ""
        · have status : (writeShardResponse wire (Except.map (respond req) (.ok hidden))).status = 500 := by
            apply writeShardResponse_invalid
            rintro _ ⟨⟩ isValid
            exact responseValid.mp isValid blank
          constructor
          · rw [status]
            exact iff_of_false (by decide) fun whole => whole.2.2 blank
          · exact fun _ => status
          · intro ok
            rw [status] at ok
            exact absurd ok (by decide)
          · exact ⟨fun _ => rfl, fun stopped => absurd starts stopped⟩
        · have isValid := responseValid.mpr blank
          have status : (writeShardResponse wire (Except.map (respond req) (.ok hidden))).status = 200 :=
            writeShardResponse_status isValid
          constructor
          · rw [status]
            exact iff_of_true rfl ⟨starts, ⟨hidden, ran⟩, blank⟩
          · exact fun notOk => absurd status notOk
          · intro _ other returned position
            rw [ran, Except.ok.injEq] at returned
            exact returned ▸ (writeShardResponse_valid lossless isValid position).2
          · exact ⟨fun _ => rfl, fun stopped => absurd starts stopped⟩
  · have rejected : ∃ err, PherenceLayerExecutor.checkRequest ⟨some m⟩ ctx req m.numLayers = .error err := by
      apply exists_error_of_not_ok
      intro other accepted
      obtain ⟨same, now, -, -, hidden⟩ := checkRequest_eq_ok.mp accepted
      cases same
      exact starts ⟨now, hidden⟩
    obtain ⟨err, rejected⟩ := rejected
    have executed : executes m (ctx, req) before = (.error err, before) := executeLayerRange_rejected rejected
    rw [executed]
    have status : (writeShardResponse wire (.error err)).status = 500 := rfl
    constructor
    · rw [status]
      exact iff_of_false (by decide) fun started => starts started.1
    · exact fun _ => status
    · intro ok
      rw [status] at ok
      exact absurd ok (by decide)
    · exact ⟨fun started => absurd started starts, fun _ => rfl⟩

/-! ### Whole runs -/

/-- The caches keep their sizes. -/
theorem executes_sized (forwards : m.ForwardsLocally) (call : Ctx × ShardExecutionRequest) {cache : KVCache}
    (sized : cache.Sized m) : (executes m call cache).2.Sized m := by
  have footprint : Footprint KVCache.slot (RunsLayer ⟨some m⟩ m.numLayers call) (executes m call) := by
    apply executeLayerRange_footprint
    rintro other ⟨⟩
    exact forwards
  -- no execution runs the layer behind the last one
  have outside : ¬ RunsLayer ⟨some m⟩ m.numLayers call m.numLayers.toNat := by
    rintro ⟨⟨other, checked⟩, member⟩
    obtain ⟨-, -, -, valid, -⟩ := checkRequest_eq_ok.mp checked
    obtain ⟨-, -, start, -, below⟩ := Shard.validate_eq_ok.mp (ShardExecutionRequest.shard_valid valid)
    rw [Shard.mem_layers start] at member
    omega
  exact (KVCache.sized_congr m (footprint.frame cache _ outside)).1.mpr sized

theorem final_executes_sized (forwards : m.ForwardsLocally) (calls : List (Ctx × ShardExecutionRequest))
    {cache : KVCache} (sized : cache.Sized m) : (final (executes m) calls cache).Sized m := by
  induction calls generalizing cache with
  | nil => exact sized
  | cons call rest inductionHypothesis => exact inductionHypothesis (executes_sized forwards call sized)

/-- The caches after a run are those the executor leaves for the admitted executions. -/
theorem final_serve (serves : ServesWith s (some m)) (calls : List Incoming) (cache : KVCache) :
    final (s.serve go lib) calls cache = final (executes m) (calls.filterMap (admitted lib m)) cache := by
  apply final_filterMap
  · intro call inside before isAdmitted
    rw [(serve_admitted serves isAdmitted before).1]
  · intro call before refused
    exact (serve_refused serves refused before).1

/-- The process that `serve` starts with a model executes the model, and nothing else moves its caches. In every
run of requests of all kinds, the caches are those of the admitted executions alone, and fit the model; each
admitted execution is answered with the result of the layers on the caches that the admitted executions before
it left, and fails only if its context is cancelled, its hidden size is not the model's, a layer fails or its device is
blank; and a request for an execution that is not admitted is answered 400, 405 or 503. -/
theorem serve_executes_the_model (go : GoLib) (lib : ServerLib) (lossless : lib.toWireLib.LosslessResponses)
    (loadLlama : String → Except GoError (Option LlamaModel)) (now : Int) (addr shardModel : String)
    (s : WebAPI KVCache) (cache : KVCache) (started : runServe loadLlama now addr shardModel = .ok (s, cache))
    (given : trimSpace shardModel ≠ "") (m : LlamaModel) (loads : loadLlama (trimSpace shardModel) = .ok (some m))
    (forwards : m.ForwardsLocally) (calls : List Incoming) :
    final (s.serve go lib) calls cache = final (executes m) (calls.filterMap (admitted lib m)) cache ∧
      (final (s.serve go lib) calls cache).Sized m ∧
      ∀ earlier call later, calls = earlier ++ call :: later →
        let before := final (executes m) (earlier.filterMap (admitted lib m)) cache
        let answer := s.serve go lib call before
        (call, answer.1) ∈ trace (s.serve go lib) calls cache ∧
          (∀ inside, admitted lib m call = some inside →
            AnswersExecution lib.toWireLib m inside before answer.1 answer.2) ∧
          (admitted lib m call = none → answer.2 = before ∧
            (lib.mux call.request = .ok .shardsExecute → answer.1.status ∈ [400, 405, 503])) := by
  obtain ⟨loaded, serves, blank, isModel⟩ := runServe_servesWith started
  have isLoaded : loaded = some m := by
    cases loaded with
    | none => exact absurd (blank.mp rfl) given
    | some other =>
        have same := (isModel other rfl).1
        rw [loads, Except.ok.injEq] at same
        exact same.symm
  subst isLoaded
  obtain ⟨-, -, layers, -, rfl⟩ := isModel m rfl
  have fresh : (KVCache.fresh m.numLayers.toNat).Sized m := by
    simp only [KVCache.Sized, KVCache.fresh, List.length_replicate]
    omega
  refine ⟨final_serve serves calls _, final_serve serves calls _ ▸ final_executes_sized forwards _ fresh, ?_⟩
  rintro earlier call later rfl
  dsimp only
  rw [← @final_serve go lib _ m serves earlier]
  refine ⟨?_, ?_, fun refused => serve_refused serves refused _⟩
  · rw [trace_append, trace]
    exact List.mem_append_right _ List.mem_cons_self
  · intro inside isAdmitted
    obtain ⟨answered, valid⟩ := serve_admitted serves isAdmitted (final (s.serve go lib) earlier
      (KVCache.fresh m.numLayers.toNat))
    rw [answered]
    exact answersExecution forwards lossless valid (final_serve serves earlier _ ▸ final_executes_sized forwards _ fresh)

/-- The health check. -/
def healthCheck : Incoming := ⟨.background, 0, "GET", ⟨"http", "h", "/health", ""⟩, [], []⟩

/-- Two executions with a health check between them: the second one is answered from the caches that the first
one left. -/
theorem serve_executes_the_model_twice :
    ∃ before, before = (executes (recallModel 2) (.background, exampleRequest "s" 0 0) (.fresh 2)).2 ∧
      AnswersExecution .plain (recallModel 2) (.background, exampleRequest "s" 1 1) before
        (recallServer.serve .plain (.ofVolume modelsVolume) (layerPost 1) before).1
        (recallServer.serve .plain (.ofVolume modelsVolume) (layerPost 1) before).2 := by
  have isAdmitted : ∀ layer : Int, layer = 0 ∨ layer = 1 →
      admitted (.ofVolume modelsVolume) (recallModel 2) (layerPost layer) =
        some (.background, exampleRequest "s" layer layer) := by
    intro layer inside
    have read : readShardRequest (ServerLib.ofVolume modelsVolume).toWireLib (recallModel 2).numLayers
        (layerPost layer).request = .ok (exampleRequest "s" layer layer) := readShardRequest_layerPost inside
    have routed : (ServerLib.ofVolume modelsVolume).mux (layerPost layer).request = .ok .shardsExecute := rfl
    have goes : ¬ ((layerPost layer).request.method ≠ "POST" ∨ (recallModel 2).numLayers ≤ 0) :=
      not_or.mpr ⟨not_not.mpr rfl, by decide⟩
    rw [admitted, routed]
    dsimp only
    rw [if_neg goes, read]
    rfl
  have loads : loadRecall (trimSpace "models/smol") = .ok (some (recallModel 2)) := by
    rw [recallServer_started.2]
    rfl
  have whole := serve_executes_the_model .plain (.ofVolume modelsVolume) WireLib.plain_lossless.response loadRecall 0
    ":8089" "models/smol" recallServer (.fresh 2) recallServer_started.1 (by decide +kernel) (recallModel 2) loads
    (recallModel_forwardsLocally 2) [layerPost 0, healthCheck, layerPost 1]
  have answers := ((whole.2.2 [layerPost 0, healthCheck] (layerPost 1) [] rfl).2.1 _ (isAdmitted 1 (Or.inr rfl)))
  have notAdmitted : admitted (.ofVolume modelsVolume) (recallModel 2) healthCheck = none := rfl
  have past : [layerPost 0, healthCheck].filterMap (admitted (.ofVolume modelsVolume) (recallModel 2)) =
      [(.background, exampleRequest "s" 0 0)] := by
    rw [List.filterMap_cons_some (isAdmitted 0 (Or.inl rfl)), List.filterMap_cons_none notAdmitted,
      List.filterMap_nil]
  rw [past] at answers
  exact ⟨_, rfl, answers⟩

/-! ### Next to others -/

/-- A client whose executions run layers of their own is served as if it were alone. Whatever the interleaving of
its requests with those of others, what is seen of its own calls is linearizable by a server that serves these
only: no response tells it that the others are there. -/
theorem serve_client_alone (go : GoLib) (lib : ServerLib) (loadLlama : String → Except GoError (Option LlamaModel))
    (now : Int) (addr shardModel : String) (s : WebAPI KVCache) (cache : KVCache)
    (started : runServe loadLlama now addr shardModel = .ok (s, cache))
    (forwards : ∀ m, loadLlama (trimSpace shardModel) = .ok (some m) → m.ForwardsLocally) :
    ∃ loaded, (loaded = none ↔ trimSpace shardModel = "") ∧
      (∀ m, loaded = some m → loadLlama (trimSpace shardModel) = .ok (some m)) ∧
      ∀ (steps : List (Threads.Step Incoming HttpResponse)) (p : Pool Incoming KVCache HttpResponse) (mine : Nat → Bool),
        Threads.Run (s.thread go lib loaded) (ExecutesLayer lib loaded) cache steps p →
          (∀ id call other call', .invoke id call ∈ seen steps → .invoke other call' ∈ seen steps →
            mine id = true → mine other = false →
              ∀ layer, ExecutesLayer lib loaded call layer → ¬ ExecutesLayer lib loaded call' layer) →
            ∃ order, Linearizes (s.serve go lib) Eq cache ((seen steps).filter fun event => mine event.id) order := by
  obtain ⟨loaded, serves, blank, isModel⟩ := runServe_servesWith started
  refine ⟨loaded, blank, fun m same => (isModel m same).1, ?_⟩
  intro steps p mine run dedicated
  have same : (fun call => (s.thread go lib loaded call).run) = s.serve go lib := by
    funext call cache
    exact run_thread serves call cache
  have within : ∀ call, (s.thread go lib loaded call).Within KVCache.slot (ExecutesLayer lib loaded call) :=
    fun call => thread_within (fun m loads => forwards m (isModel m loads).1) call
  exact same ▸ run.linearizable_alone within mine dedicated

/-- The execution of the second layer is served as if the other one, with which it is in flight, were not there. -/
theorem serve_client_alone_overlapping :
    ∃ loaded rest p zero one order, Threads.Run (recallServer.thread .plain (.ofVolume modelsVolume) loaded)
        (ExecutesLayer (.ofVolume modelsVolume) loaded) (.fresh 2) (overlappingSteps ++ rest) p ∧
      seen (overlappingSteps ++ rest) = overlapSeen zero one ∧
      Linearizes (recallServer.serve .plain (.ofVolume modelsVolume)) Eq (.fresh 2)
        [.invoke 1 (layerPost 1), .respond 1 one] order := by
  obtain ⟨loaded, isBlank, loads, alone⟩ := serve_client_alone .plain (.ofVolume modelsVolume) loadRecall 0 ":8089"
    "models/smol" recallServer (.fresh 2) recallServer_started.1 fun _ => loadRecall_forwards
  obtain rfl := loaded_recall isBlank loads
  obtain ⟨rest, p, zero, one, ran, saw⟩ := overlappingSteps_run modelsVolume
  obtain ⟨order, own⟩ := alone (overlappingSteps ++ rest) p (fun id => id == 1) ran (by
    intro id call other call' began otherBegan isMine notMine
    rw [saw] at began otherBegan
    rw [beq_iff_eq] at isMine
    rw [beq_eq_false_iff_ne] at notMine
    simp only [overlapSeen, List.mem_cons, Event.invoke.injEq, reduceCtorEq, List.not_mem_nil, or_false]
      at began otherBegan
    obtain ⟨rfl, rfl⟩ : id = 1 ∧ call = layerPost 1 := by
      rcases began with ⟨isZero, -⟩ | isOne
      · omega
      · exact isOne
    obtain ⟨rfl, rfl⟩ : other = 0 ∧ call' = layerPost 0 := by
      rcases otherBegan with isZero | ⟨isOne, -⟩
      · exact isZero
      · exact absurd isOne notMine
    exact layerPost_apart modelsVolume)
  rw [saw] at own
  exact ⟨_, rest, p, zero, one, order, ran, saw, own⟩

end GoExotic
