/-
Module: GoExotic.Proofs.Distribution
Purpose: Generation over HTTP is generation in one process. Behind each peer's address stands a server that
  executes shards with the peer's worker, whatever that worker does; a simulator over the remote workers of
  some planned routes and one over the workers themselves then call the workers with the same requests in
  the same order, leave them in the same state, and return the same tokens or both fail. With layer
  executors as workers, generation over HTTP so equals the unsharded one.
Trusted boundary: encoding/json, through the hypothesis Lossless; go-pherence, through ForwardsLocally
Main exports: Simulator.callRoute, OfCall, Twins, Twins.generateTokens, Hosted, Sendable,
  Distributed, generation_over_http, distributed_generation_equals_unsharded
-/
import GoExotic.Proofs.BodySize
import GoExotic.Proofs.RoutedWorkers
import GoExotic.Proofs.ShardedGeneration
import GoExotic.Theory.Outcomes

namespace GoExotic

open Outcomes

variable {W W' : Type}

/-! ### One route -/

namespace Simulator

/-- What the loop of `Execute` does at one route: the checks, the call, and the checks of the response. -/
def callRoute (s : Simulator W) (ctx : Ctx) (totalLayers : Int) (i : Nat) (route : Route)
    (req : ShardExecutionRequest) (state : W) : Except GoError ShardExecutionResponse × W :=
  match ctx.check i with
  | .error err => (.error err, state)
  | .ok () =>
      match s.workers.lookup route.peer.id with
      | none => (.error (.errorf "no worker for peer %q" [.str route.peer.id]), state)
      | some worker =>
          match req.validate totalLayers with
          | .error err => (.error (.wrapf "route %d request: %w" [.int i] err), state)
          | .ok () =>
              match worker (ctx.call i) req state with
              | (.error err, state) =>
                  (.error (.wrapf "route %d peer %s: %w" [.int i, .str route.peer.id] err), state)
              | (.ok resp, state) =>
                  match checkResponse i route req resp with
                  | .error err => (.error err, state)
                  | .ok () => (.ok resp, state)

theorem executeRoutes_cons (s : Simulator W) (ctx : Ctx) (totalLayers : Int) (i : Nat)
    (req : ShardExecutionRequest) (resp : ShardExecutionResponse) (route : Route) (rest : List Route)
    (state : W) :
    s.executeRoutes ctx totalLayers i req resp (route :: rest) state =
      andThen (s.callRoute ctx totalLayers i route { req with shard := route.shard } state)
        fun resp state => s.executeRoutes ctx totalLayers (i + 1)
          { req with shard := route.shard, activation := resp.activation } resp rest state := by
  rw [executeRoutes, callRoute]
  cases ctx.check i with
  | error err => rfl
  | ok polled =>
      dsimp only
      cases s.workers.lookup route.peer.id with
      | none => rfl
      | some worker =>
          dsimp only
          cases ({ req with shard := route.shard } : ShardExecutionRequest).validate totalLayers with
          | error err => rfl
          | ok valid =>
              dsimp only
              rcases worker (ctx.call i) { req with shard := route.shard } state with ⟨err | answer, after⟩
              · rfl
              · dsimp only
                cases checkResponse i route { req with shard := route.shard } answer with
                | error err => rfl
                | ok accepted => rfl

theorem decode_succ (go : GoLib) (s : Simulator W) (ctx : Ctx) (routes : List Route)
    (base : ShardExecutionRequest) (totalLayers : Int) (project : TokenProjector) (remaining step : Nat)
    (activation : List Float32Bits) (out : List Int) (state : W) (live : ctx.check step = .ok ()) :
    s.decode go ctx routes base totalLayers project (remaining + 1) step activation out state =
      andThen (s.execute go (ctx.call step) routes
          { base with position := wrapInt (base.position + step), activation := activation } totalLayers state)
        fun resp state => andThen (project resp.activation, state)
          fun tok state => s.decode go ctx routes base totalLayers project remaining (step + 1)
            resp.activation (out ++ [tok]) state := by
  rw [decode, live]
  dsimp only
  rcases s.execute go (ctx.call step) routes
    { base with position := wrapInt (base.position + step), activation := activation } totalLayers state with
    ⟨err | resp, after⟩
  · rfl
  · dsimp only [andThen_ok]
    cases project resp.activation with
    | error err => rfl
    | ok tok => rfl

end Simulator

/-! ### Two simulators that are alike -/

/-- A request that differs from another at most in its shard, position and activation. -/
structure OfCall (base req : ShardExecutionRequest) : Prop where
  session : req.sessionID = base.sessionID
  request : req.requestID = base.requestID
  model : req.modelID = base.modelID
  hiddenSize : req.hiddenSize = base.hiddenSize
  position : IsInt req.position

theorem OfCall.atRoute {base req : ShardExecutionRequest} (ofCall : OfCall base req) (shard : Shard)
    (activation : List Float32Bits) : OfCall base { req with shard := shard, activation := activation } :=
  ⟨ofCall.session, ofCall.request, ofCall.model, ofCall.hiddenSize, ofCall.position⟩

theorem isInt_wrapInt (exact : Int) : IsInt (wrapInt exact) := by
  refine ⟨?_, wrapInt_le exact⟩
  have bound : -((2 ^ 64 : Nat) : Int) / 2 ≤ wrapInt exact := Int.le_bmod (by norm_num)
  norm_num at bound
  exact bound

/-- Two simulators do alike at every route, for every request of a call. -/
def Twins (base : ShardExecutionRequest) (totalLayers : Int) (routes : List Route) (states : W → W' → Prop)
    (s : Simulator W) (s' : Simulator W') : Prop :=
  ∀ route ∈ routes, ∀ (i : Nat) (req : ShardExecutionRequest), OfCall base req → req.shard = route.shard →
    ∀ (state : W) (state' : W'), states state state' →
      Alike Eq states (s.callRoute .background totalLayers i route req state)
        (s'.callRoute .background totalLayers i route req state')

namespace Twins

variable {base : ShardExecutionRequest} {totalLayers : Int} {routes : List Route} {states : W → W' → Prop}
  {s : Simulator W} {s' : Simulator W'}

theorem executeRoutes (twins : Twins base totalLayers routes states s s') (some : List Route) :
    ∀ (i : Nat) (req : ShardExecutionRequest) (resp : ShardExecutionResponse) (state : W) (state' : W'),
      some ⊆ routes → OfCall base req → states state state' →
      Alike Eq states (s.executeRoutes .background totalLayers i req resp some state)
        (s'.executeRoutes .background totalLayers i req resp some state') := by
  induction some with
  | nil =>
      intro i req resp state state' _ _ same
      exact Alike.returned rfl same
  | cons route rest inductionHypothesis =>
      intro i req resp state state' subset ofCall same
      have listed : route ∈ routes := subset List.mem_cons_self
      rw [Simulator.executeRoutes_cons, Simulator.executeRoutes_cons]
      apply (twins route listed i _ (ofCall.atRoute route.shard req.activation) rfl state state' same).andThen
      rintro answer _ after after' - - rfl sameAfter
      exact inductionHypothesis (i + 1) _ _ after after' (fun other member => subset (List.mem_cons_of_mem _ member))
        (ofCall.atRoute route.shard answer.activation) sameAfter

theorem execute (twins : Twins base totalLayers routes states s s') (go : GoLib) {given : List Route}
    (perm : given.Perm routes) {req : ShardExecutionRequest} (ofCall : OfCall base req) {state : W} {state' : W'}
    (same : states state state') :
    Alike Eq states (s.execute go .background given req totalLayers state)
      (s'.execute go .background given req totalLayers state') := by
  rw [Simulator.execute, Simulator.execute, Ctx.check_background]
  dsimp only
  by_cases empty : given.length = 0
  · rw [if_pos empty, if_pos empty]
    exact Alike.failed same
  · rw [if_neg empty, if_neg empty]
    have subset : go.sort.byKey (fun route => route.shard.startLayer) given ⊆ routes := by
      intro route member
      exact (((go.sort.perm _ given).trans perm).mem_iff).mp member
    exact twins.executeRoutes _ 0 req _ state state' subset ofCall same

theorem decode (twins : Twins base totalLayers routes states s s') (go : GoLib) {given : List Route}
    (perm : given.Perm routes) (project : Simulator.TokenProjector) (remaining : Nat) :
    ∀ (step : Nat) (activation : List Float32Bits) (out : List Int) (state : W) (state' : W'),
      states state state' →
      Alike Eq states
        (s.decode go .background given base totalLayers project remaining step activation out state)
        (s'.decode go .background given base totalLayers project remaining step activation out state') := by
  induction remaining with
  | zero =>
      intro step activation out state state' same
      exact Alike.returned rfl same
  | succ remaining inductionHypothesis =>
      intro step activation out state state' same
      have ofCall : OfCall base { base with
          position := wrapInt (base.position + step), activation := activation } :=
        ⟨rfl, rfl, rfl, rfl, isInt_wrapInt _⟩
      rw [Simulator.decode_succ _ _ _ _ _ _ _ _ _ _ _ _ rfl, Simulator.decode_succ _ _ _ _ _ _ _ _ _ _ _ _ rfl]
      apply (twins.execute go perm ofCall same).andThen
      rintro resp _ after after' - - rfl sameAfter
      cases project resp.activation with
      | error err => exact Alike.failed sameAfter
      | ok tok => exact inductionHypothesis (step + 1) resp.activation (out ++ [tok]) after after' sameAfter

/-- Twins generate alike. -/
theorem generateTokens (twins : Twins base totalLayers routes states s s') (go : GoLib) {given : List Route}
    (perm : given.Perm routes) (maxTokens : Int) (project : Option Simulator.TokenProjector) {state : W}
    {state' : W'} (same : states state state') :
    Alike Eq states (s.generateTokens go .background given base totalLayers maxTokens project state)
      (s'.generateTokens go .background given base totalLayers maxTokens project state') := by
  rw [Simulator.generateTokens, Simulator.generateTokens]
  cases Simulator.checkGeneration base maxTokens project with
  | error err => exact Alike.failed same
  | ok project => exact twins.decode go perm project maxTokens.toNat 0 base.activation [] state state' same

end Twins

/-! ### Workers behind servers -/

/-- Behind the address of each routed peer stands a server that executes shards with the peer's worker. -/
def Hosted (go : GoLib) (wire : WireLib) (net : Network (List ShardExecutionRequest × W))
    (worker : String → Worker W) (totalLayers : Int) (routes : List Route) : Prop :=
  ∀ route ∈ routes, ∃ other, Reaches go net ⟨route.peer.address⟩
    ((shardServer (recorded (worker route.peer.id)) totalLayers).handler wire .background other)

/-- The requests of a call get through: the request id survives a header, and the bodies fit. -/
structure Sendable (wire : WireLib) (totalLayers : Int) (routes : List Route) (base : ShardExecutionRequest) :
    Prop where
  printable : ∀ c ∈ base.requestID.toList, isControl c = false
  unpadded : Unpadded base.requestID
  fits : ∀ req, OfCall base req → (∃ route ∈ routes, req.shard = route.shard) →
    req.validate totalLayers = .ok () → BodyFits wire req

/-- The workers keep an invariant of their state, and the positions they answer with are of type `int` as
those of the requests are. -/
structure Behaved (worker : String → Worker W) (good : W → Prop) : Prop where
  keeps : ∀ id req state, good state → good (worker id .background req state).2
  isInt : ∀ id req state resp, good state → IsInt req.position →
    (worker id .background req state).1 = .ok resp → IsInt resp.position

/-- The simulator with every worker noting the requests it is called with. -/
def Simulator.recording (s : Simulator W) : Simulator (List ShardExecutionRequest × W) :=
  ⟨⟨s.workers.entries.map (.map id fun _ => recorded), s.workers.nodupKeys.map₂ fun _ => recorded⟩⟩

theorem Simulator.lookup_recording (s : Simulator W) (id : String) :
    s.recording.workers.lookup id = (s.workers.lookup id).map recorded :=
  List.dlookup_map₂ id

/-- A recording simulator does like the simulator, and has its state next to the record. -/
theorem twins_recording (s : Simulator W) (base : ShardExecutionRequest) (totalLayers : Int)
    (routes : List Route) :
    Twins base totalLayers routes (fun recorded state => recorded.2 = state) s.recording s := by
  rintro route - i req - - ⟨log, state⟩ _ rfl
  rw [Simulator.callRoute, Simulator.callRoute, Ctx.check_background, s.lookup_recording]
  cases s.workers.lookup route.peer.id with
  | none => exact Alike.failed rfl
  | some worker =>
      dsimp only [Option.map]
      cases req.validate totalLayers with
      | error err => exact Alike.failed rfl
      | ok valid =>
          dsimp only [Ctx.call_background, recorded]
          rcases worker .background req state with ⟨err | resp, after⟩
          · exact Alike.failed rfl
          · dsimp only
            cases Simulator.checkResponse i route req resp with
            | error err => exact Alike.failed rfl
            | ok accepted => exact Alike.returned rfl rfl

section Hosting

variable {go : GoLib} {wire : WireLib} {net : Network (List ShardExecutionRequest × W)}
  {worker : String → Worker W} {totalLayers : Int} {routes : List Route} {base : ShardExecutionRequest}

/-- The client gets the response the server wrote, or an error. -/
theorem readHttpResponse_written (lossless : wire.Lossless) {req : ShardExecutionRequest}
    {resp : ShardExecutionResponse} (isInt : IsInt resp.position) :
    readHttpResponse wire req (writeShardResponse wire (.ok resp)) = .ok resp ∨
      ((resp.validate = .ok () → resp.requestID ≠ req.requestID) ∧
        ∃ err, readHttpResponse wire req (writeShardResponse wire (.ok resp)) = .error err) := by
  cases valid : resp.validate with
  | error err =>
      right
      refine ⟨by simp, ?_⟩
      rw [writeShardResponse, valid]
      exact readHttpResponse_failed (by decide : (500 : Int) ≠ 200)
  | ok u =>
      by_cases echoes : resp.requestID = req.requestID
      · exact Or.inl (readHttpResponse_returned lossless ⟨valid, echoes, isInt⟩)
      · right
        refine ⟨fun _ => echoes, ?_⟩
        -- the client reads the response back as one to its own id, and so not as one to this request
        have answers : Answers { req with requestID := resp.requestID } resp := ⟨valid, rfl, isInt⟩
        have asItself := readHttpResponse_returned lossless answers
        apply exists_error_of_not_ok
        intro value returned
        simp only [readHttpResponse, bind_eq_ok, failIf_eq_ok, pure_eq_ok, Except.ok.injEq, exists_const,
          not_not] at asItself returned
        obtain ⟨-, out, decoded, response, made, -, rfl⟩ := asItself
        obtain ⟨-, _, decoded', _, made', same, rfl⟩ := returned
        rw [decoded, Except.ok.injEq] at decoded'
        subst decoded'
        rw [made, Except.ok.injEq] at made'
        subst made'
        exact echoes same

/-- At each route, the remote worker does like the worker behind its server. -/
theorem twins_of_hosted (lossless : wire.Lossless) (total : IsInt totalLayers)
    (hosted : Hosted go wire net worker totalLayers routes) (sendable : Sendable wire totalLayers routes base)
    {good : W → Prop} (behaved : Behaved worker good)
    {remote : Simulator (List ShardExecutionRequest × W)} {near : Simulator W}
    (remotes : ∀ route ∈ routes, remote.workers.lookup route.peer.id =
      some (RemoteShardWorker.executeShard go wire net ⟨route.peer.address⟩))
    (nears : ∀ route ∈ routes, near.workers.lookup route.peer.id = some (worker route.peer.id)) :
    Twins base totalLayers routes (fun far close => far = close ∧ good far.2) remote near.recording := by
  rintro route member i req ofCall atRoute ⟨log, state⟩ _ ⟨rfl, isGood⟩
  rw [Simulator.callRoute, Simulator.callRoute, Ctx.check_background, remotes route member,
    near.lookup_recording, nears route member]
  dsimp only [Option.map]
  cases valid : req.validate totalLayers with
  | error err => exact Alike.failed ⟨rfl, isGood⟩
  | ok u =>
      obtain ⟨other, reaches⟩ := hosted route member
      have called := executeShard_reaches lossless reaches ⟨Ctx.check_background 0, Ctx.check_background 1⟩ valid
        total ofCall.position (ofCall.request ▸ sendable.printable)
        (sendable.fits req ofCall ⟨route, member, atRoute⟩ valid) log state
      rw [if_pos (ofCall.request ▸ sendable.unpadded)] at called
      have kept := behaved.keeps route.peer.id req state isGood
      dsimp only [Ctx.call_background]
      rw [called, recorded]
      rcases answered : worker route.peer.id .background req state with ⟨err | resp, after⟩
      · obtain ⟨err', failed⟩ : ∃ err', readHttpResponse wire req (writeShardResponse wire (.error err)) =
            .error err' := readHttpResponse_failed (by decide : (500 : Int) ≠ 200)
        rw [answered] at kept
        dsimp only
        rw [failed]
        exact Alike.failed ⟨rfl, kept⟩
      · have isInt : IsInt resp.position :=
          behaved.isInt _ _ state resp isGood ofCall.position (by rw [answered])
        rw [answered] at kept
        dsimp only
        have written : _ ∨ (_ ∧ ∃ err, readHttpResponse wire req _ = .error err) :=
          readHttpResponse_written lossless isInt
        rcases written with same | ⟨mismatch, err', failed⟩
        · rw [same]
          dsimp only
          cases Simulator.checkResponse i route req resp with
          | error err => exact Alike.failed ⟨rfl, kept⟩
          | ok u => exact Alike.returned rfl ⟨rfl, kept⟩
        · -- the simulator rejects what the client rejects
          rw [failed]
          cases checked : Simulator.checkResponse i route req resp with
          | error err => exact Alike.failed ⟨rfl, kept⟩
          | ok u =>
              obtain ⟨validResp, -, -, echoes, -⟩ := Simulator.checkResponse_eq_ok.mp checked
              exact absurd echoes (mismatch validResp)

/-- With ids of at most 4096 bytes, requests with up to 12582095 values get through as plain JSON. -/
theorem sendable_plain (total : IsInt totalLayers) (printable : ∀ c ∈ base.requestID.toList, isControl c = false)
    (unpadded : Unpadded base.requestID)
    (short : ∀ route ∈ routes, idsSize { base with shard := route.shard } ≤ 4096)
    (small : base.hiddenSize ≤ 12582095) : Sendable .plain totalLayers routes base := by
  refine ⟨printable, unpadded, ?_⟩
  rintro req ofCall ⟨route, member, atRoute⟩ valid
  obtain ⟨-, -, -, -, activation⟩ := ShardExecutionRequest.validate_eq_ok.mp valid
  obtain ⟨-, positive, -, same⟩ := validateActivation_eq_ok.mp activation
  have shortIds : idsSize req ≤ 4096 := by
    have ids : idsSize req = idsSize { base with shard := route.shard } := by
      simp only [idsSize, ofCall.session, ofCall.request, ofCall.model, atRoute]
    rw [ids]
    exact short route member
  have within := short_ids_fit valid total.2 ofCall.position.2 shortIds (ofCall.hiddenSize ▸ small)
  apply bodyFits_of_length activation
  have size : (Json.toBytes (requestCodec.write req.bridged)).length = requestCodec.size req.bridged := rfl
  rw [size, size_bridged same]
  rw [hiddenSizeLimit] at within
  omega

/-- The remote workers of planned routes, in a simulator. -/
theorem RoutePlan.remote_simulator {peers : List Peer} {shards : List Shard}
    (plan : RoutePlan go peers shards totalLayers routes) (wire : WireLib)
    (net : Network (List ShardExecutionRequest × W)) :
    ∃ workers remote, remoteWorkersFromRoutes go wire net routes = .ok workers ∧
      newSimulator (boxWorkers workers) = .ok remote ∧ ∀ route ∈ routes,
        remote.workers.lookup route.peer.id =
          some (RemoteShardWorker.executeShard go wire net ⟨route.peer.address⟩) := by
  obtain ⟨workers, ok, routed⟩ : ∃ workers, remoteWorkersFromRoutes go wire net routes = .ok workers ∧
      RoutedWorkers go wire net routes workers :=
    remoteWorkersFromRoutes_succeeds plan.routes_nonempty plan.workable plan.sameAddresses
  have keyed : workers.keys ≠ [] := by
    obtain ⟨route, member⟩ := List.exists_mem_of_ne_nil routes plan.routes_nonempty
    exact List.ne_nil_of_mem ((routed.keys route.peer.id).mpr (List.mem_map_of_mem member))
  have named : ∀ id ∈ workers.keys, id ≠ "" := by
    intro id key
    obtain ⟨route, member, rfl⟩ := List.mem_map.mp ((routed.keys id).mp key)
    exact (plan.workable route member).named
  obtain ⟨remote, built, found⟩ := newSimulator_boxed keyed named
  refine ⟨workers, remote, ok, built, ?_⟩
  intro route member
  rw [found, routed.endpoint route member]

end Hosting

/-! ### Generation over HTTP -/

/-- Generation over HTTP is generation in one process. For every plan that `BuildRoutes` accepts, every network on
which the peers host workers behind their addresses, whatever these workers do, and every call whose requests
get through, the simulator over the remote workers and the one over the workers themselves both fail or return
the same tokens, have called the workers with the same requests in the same order, and leave them in the
same state. -/
theorem generation_over_http (go : GoLib) (wire : WireLib) (lossless : wire.Lossless) (ctx : Ctx)
    (peers : List Peer) (shards : List Shard) (totalLayers : Int) (total : IsInt totalLayers)
    (routes : List Route) (built : buildRoutes go ctx peers shards totalLayers = .ok routes)
    (net : Network (List ShardExecutionRequest × W)) (worker : String → Worker W) (good : W → Prop)
    (behaved : Behaved worker good) (hosted : Hosted go wire net worker totalLayers routes)
    (near : Simulator W)
    (nears : ∀ route ∈ routes, near.workers.lookup route.peer.id = some (worker route.peer.id)) :
    ∃ workers remote, remoteWorkersFromRoutes go wire net routes = .ok workers ∧
      newSimulator (boxWorkers workers) = .ok remote ∧
      ∀ (base : ShardExecutionRequest) (given : List Route) (maxTokens : Int)
        (project : Option Simulator.TokenProjector) (log : List ShardExecutionRequest) (state : W),
        Sendable wire totalLayers routes base → given.Perm routes → good state →
        Alike Eq Eq
          (remote.generateTokens go .background given base totalLayers maxTokens project (log, state))
          (near.recording.generateTokens go .background given base totalLayers maxTokens project (log, state)) := by
  obtain ⟨-, plan⟩ := buildRoutes_eq_ok.mp built
  obtain ⟨workers, remote, ok, made, remotes⟩ := plan.remote_simulator wire net
  refine ⟨workers, remote, ok, made, ?_⟩
  intro base given maxTokens project log state sendable perm isGood
  have twins := twins_of_hosted lossless total hosted sendable behaved remotes nears
  have alike := twins.generateTokens go perm maxTokens project (⟨rfl, isGood⟩ : (log, state) = (log, state) ∧ _)
  exact alike.mono (fun _ _ same => same) fun _ _ same => same.1

/-- Every host runs a server with the worker of the peer called like it. -/
def hostNetwork (worker : String → Worker W) (totalLayers : Int) : Network (List ShardExecutionRequest × W) :=
  fun url => some ((shardServer (recorded (worker url.host)) totalLayers).handler .plain .background
    fun _ state => (⟨404, [], []⟩, state))

/-- Two peers for three layers, each on a host of its own. -/
def hostedRoutes : List Route := [⟨ownDevicePeer "b", ⟨"b", 0, 1⟩⟩, ⟨ownDevicePeer "a", ⟨"a", 2, 2⟩⟩]

theorem hosted_hostedRoutes (worker : String → Worker W) (totalLayers : Int) :
    Hosted .plain .plain (hostNetwork worker totalLayers) worker totalLayers hostedRoutes := by
  intro route member
  refine ⟨fun _ state => (⟨404, [], []⟩, state), ?_⟩
  rcases List.mem_pair.mp member with rfl | rfl
  · exact ⟨by decide, ⟨"http", "b", "/shards/execute", ""⟩, by decide, rfl, rfl⟩
  · exact ⟨by decide, ⟨"http", "a", "/shards/execute", ""⟩, by decide, rfl, rfl⟩

theorem sendable_hostedRoutes : Sendable .plain 3 hostedRoutes (remoteRequest "r") := by
  refine sendable_plain (by decide) ?_ (by decide) ?_ (by decide)
  · intro c member
    cases List.mem_singleton.mp (member : c ∈ ['r'])
    rfl
  · intro route member
    rcases List.mem_pair.mp member with rfl | rfl
    · decide
    · decide

/-- A call through two servers whose workers give back what they get. -/
theorem generation_over_http_echo :
    ∃ workers remote, remoteWorkersFromRoutes .plain .plain (hostNetwork (fun _ => echoWorker) 3) hostedRoutes =
        .ok workers ∧ newSimulator (boxWorkers workers) = .ok remote ∧
      Alike Eq Eq
        (remote.generateTokens .plain .background hostedRoutes (remoteRequest "r") 3 2 (some headToken) ([], ()))
        (Simulator.generateTokens .plain
          (Simulator.recording ⟨((∅ : GoMap (Worker Unit)).insert "a" echoWorker).insert "b" echoWorker⟩)
          .background hostedRoutes (remoteRequest "r") 3 2 (some headToken) ([], ())) := by
  have behaved : Behaved (fun _ : String => echoWorker) fun _ => True := by
    constructor
    · exact fun _ _ _ _ => trivial
    · rintro _ req _ resp - isInt answered
      cases answered
      exact isInt
  obtain ⟨workers, remote, ok, made, alike⟩ := generation_over_http .plain .plain WireLib.plain_lossless .background
    [ownDevicePeer "a", ownDevicePeer "b"] [⟨"b", 0, 1⟩, ⟨"a", 2, 2⟩] 3 (by decide) hostedRoutes
    (by decide +kernel) (hostNetwork (fun _ => echoWorker) 3) (fun _ => echoWorker) (fun _ => True) behaved
    (hosted_hostedRoutes _ 3) ⟨((∅ : GoMap (Worker Unit)).insert "a" echoWorker).insert "b" echoWorker⟩
    (by
      intro route member
      rcases List.mem_pair.mp member with rfl | rfl
      · rfl
      · rfl)
  exact ⟨workers, remote, ok, made, alike (remoteRequest "r") hostedRoutes 2 (some headToken) [] ()
    sendable_hostedRoutes (List.Perm.refl _) trivial⟩

/-! ### Layer executors behind servers -/

section Executors

variable {m : LlamaModel} {e : PherenceLayerExecutor} {totalLayers : Int}

/-- The heap holds layer workers over one executor. -/
def HeapOver (e : PherenceLayerExecutor) (totalLayers : Int) (heap : Heap) : Prop :=
  ∃ caches, heap = heapOf e caches totalLayers

theorem heapOf_injective {caches caches' : String → KVCache}
    (same : heapOf e caches totalLayers = heapOf e caches' totalLayers) : caches = caches' := by
  funext id
  exact congrArg LayerExecutorWorker.kvCache (congrFun same id)

theorem executeLayerRange_position {ctx : Ctx} {req : ShardExecutionRequest} {cache : KVCache}
    {resp : ShardExecutionResponse}
    (answered : (e.executeLayerRange ctx req cache totalLayers).1 = .ok resp) :
    resp.position = req.position := by
  rw [PherenceLayerExecutor.executeLayerRange] at answered
  cases checked : e.checkLayerRange ctx req cache totalLayers with
  | error err =>
      rw [checked] at answered
      cases answered
  | ok model =>
      rw [checked] at answered
      dsimp only at answered
      rcases forwarded : forwardLayers model (ctx.call 1) req.position
          (req.shard.endLayer + 1 - req.shard.startLayer).toNat 0 req.shard.startLayer req.activation cache
        with ⟨err | hidden, after⟩
      · rw [forwarded] at answered
        cases answered
      · rw [forwarded] at answered
        cases answered
        rfl

/-- Layer workers stay layer workers, and answer with the position they are asked for. -/
theorem heapWorker_behaved (e : PherenceLayerExecutor) (totalLayers : Int) :
    Behaved heapWorker (HeapOver e totalLayers) := by
  constructor
  · rintro id req _ ⟨caches, rfl⟩
    rw [heapWorker_heapOf]
    exact ⟨_, rfl⟩
  · rintro id req _ resp ⟨caches, rfl⟩ isInt answered
    rw [heapWorker_heapOf] at answered
    rw [executeLayerRange_position answered]
    exact isInt

/-- A decode that is alike one that agrees with an unsharded decode agrees with it too. -/
theorem GenerationAgrees.of_alike {routes : List Route} {single : Peer}
    {far : Except GoError (List Int) × List ShardExecutionRequest × Heap}
    {near unsharded : Except GoError (List Int) × Heap}
    (alike : Alike Eq (fun far near => far.2 = near) far near)
    (agrees : GenerationAgrees routes totalLayers single near unsharded) :
    GenerationAgrees routes totalLayers single (far.1, far.2.2) unsharded := by
  have sameState : far.2.2 = near.2 := alike.state
  constructor
  · exact alike.fails_iff.trans agrees.fail_alike
  · intro tokens done
    have returned := agrees.same_tokens tokens done
    cases alike with
    | returned same _ => exact same ▸ returned
    | failed _ => cases returned
  · exact agrees.every_layer_owned
  · intro tokens done route member layer above below
    dsimp only
    rw [sameState]
    exact agrees.same_slots tokens done route member layer above below

/-- Two deployments of one model, one of them a single peer with all layers, generate the same. -/
theorem Deployment.generations_agree {go : GoLib} {sim alone : Simulator Heap} {peers : List Peer}
    {shards : List Shard} {routes given : List Route} {single : Peer} {wholeRoutes : List Route}
    (deployed : Deployment go m ⟨some m⟩ sim peers shards totalLayers routes)
    (deployedAlone : Deployment go m ⟨some m⟩ alone [single] [⟨single.id, 0, totalLayers - 1⟩] totalLayers
      wholeRoutes)
    (perm : given.Perm routes) (base : ShardExecutionRequest) (maxTokens : Int)
    (project : Option Simulator.TokenProjector) :
    GenerationAgrees routes totalLayers single
      (sim.generateTokens go .background given base totalLayers maxTokens project (freshHeap m totalLayers))
      (alone.generateTokens go .background wholeRoutes base totalLayers maxTokens project
        (freshHeap m totalLayers)) := by
  have owned : ∀ layer : Nat, layer < totalLayers →
      ∃ route ∈ routes, route.shard.startLayer ≤ layer ∧ layer ≤ route.shard.endLayer :=
    fun layer below => deployed.plan.tiles.cover (Int.natCast_nonneg layer) below
  rw [Simulator.generateTokens, Simulator.generateTokens]
  cases Simulator.checkGeneration base maxTokens project with
  | error err =>
      constructor
      · exact ⟨fun _ => ⟨err, rfl⟩, fun _ => ⟨err, rfl⟩⟩
      · intro tokens done
        cases done
      · exact owned
      · intro tokens done
        cases done
  | ok project =>
      -- both decodes refine the one on a single cache
      have positive := deployed.plan.partition.layers_pos
      have fresh : ∀ routes, Deployment.Holds m routes (fun _ => .fresh totalLayers.toNat)
          (.fresh totalLayers.toNat) := fun _ => holds_fresh deployed.layers (by omega)
      have sharded := deployed.decode_refines perm base project maxTokens.toNat 0 base.activation [] _ _
        (fresh routes)
      have whole := deployedAlone.decode_refines (List.Perm.refl wholeRoutes) base project maxTokens.toNat 0
        base.activation [] _ _ (fresh wholeRoutes)
      exact sharded.agrees whole deployed deployedAlone owned

/-- The remote workers of a deployed plan do like the layer workers themselves. -/
theorem Deployment.remote_alike {go : GoLib} {wire : WireLib} (lossless : wire.Lossless)
    (total : IsInt totalLayers) {near : Simulator Heap} {peers : List Peer} {shards : List Shard}
    {routes given : List Route} (deployed : Deployment go m e near peers shards totalLayers routes)
    {net : Network (List ShardExecutionRequest × Heap)} (hosted : Hosted go wire net heapWorker totalLayers routes)
    {remote : Simulator (List ShardExecutionRequest × Heap)}
    (remotes : ∀ route ∈ routes, remote.workers.lookup route.peer.id =
      some ((⟨route.peer.address⟩ : RemoteShardWorker).executeShard go wire net))
    {base : ShardExecutionRequest} (sendable : Sendable wire totalLayers routes base) (perm : given.Perm routes)
    (maxTokens : Int) (project : Option Simulator.TokenProjector) (log : List ShardExecutionRequest)
    (caches : String → KVCache) :
    Alike Eq (fun far near => far.2 = near)
      (remote.generateTokens go .background given base totalLayers maxTokens project
        (log, heapOf e caches totalLayers))
      (near.generateTokens go .background given base totalLayers maxTokens project
        (heapOf e caches totalLayers)) := by
  have far := (twins_of_hosted lossless total hosted sendable (heapWorker_behaved e totalLayers) remotes
    fun route member => (deployed.served route member).worker).generateTokens go perm maxTokens project
      (⟨rfl, _, rfl⟩ : ((log, heapOf e caches totalLayers) : List ShardExecutionRequest × Heap) = (log, _) ∧ _)
  have close := (twins_recording near base totalLayers routes).generateTokens go perm maxTokens project
    (rfl : ((log, heapOf e caches totalLayers) : List ShardExecutionRequest × Heap).2 = _)
  apply (far.trans close).mono (fun _ _ same => same)
  rintro _ _ ⟨_, ⟨rfl, -⟩, same⟩
  exact same

/-- Generation over the remote workers of a deployed plan and generation on one peer agree. -/
theorem Deployment.distributed_agree {go : GoLib} {wire : WireLib} (lossless : wire.Lossless)
    (total : IsInt totalLayers) {near alone : Simulator Heap} {peers : List Peer} {shards : List Shard}
    {routes given : List Route} {single : Peer} {wholeRoutes : List Route}
    (deployed : Deployment go m ⟨some m⟩ near peers shards totalLayers routes)
    (deployedAlone : Deployment go m ⟨some m⟩ alone [single] [⟨single.id, 0, totalLayers - 1⟩] totalLayers
      wholeRoutes)
    {net : Network (List ShardExecutionRequest × Heap)} (hosted : Hosted go wire net heapWorker totalLayers routes)
    {remote : Simulator (List ShardExecutionRequest × Heap)}
    (remotes : ∀ route ∈ routes, remote.workers.lookup route.peer.id =
      some ((⟨route.peer.address⟩ : RemoteShardWorker).executeShard go wire net))
    {base : ShardExecutionRequest} (sendable : Sendable wire totalLayers routes base) (perm : given.Perm routes)
    (maxTokens : Int) (project : Option Simulator.TokenProjector) :
    GenerationAgrees routes totalLayers single
      (((remote.generateTokens go .background given base totalLayers maxTokens project
          ([], freshHeap m totalLayers)).1),
        (remote.generateTokens go .background given base totalLayers maxTokens project
          ([], freshHeap m totalLayers)).2.2)
      (alone.generateTokens go .background wholeRoutes base totalLayers maxTokens project
        (freshHeap m totalLayers)) :=
  GenerationAgrees.of_alike
    (deployed.remote_alike lossless total hosted remotes sendable perm maxTokens project [] _)
    (deployed.generations_agree deployedAlone perm base maxTokens project)

end Executors

/-- Distributed generation equals unsharded generation. The layers of a model are spread over HTTP servers with a
layer executor each, as some plan that `BuildRoutes` accepts says, and every request of the call gets through.
Then generation through the remote workers of the routes, in any order, and generation on one peer with all
layers fail alike, return the same tokens, and leave the same content in the slots of every layer. -/
theorem distributed_generation_equals_unsharded (go : GoLib) (wire : WireLib) (lossless : wire.Lossless)
    (m : LlamaModel) (totalLayers : Int) (total : IsInt totalLayers) (layers : m.numLayers = totalLayers)
    (forwards : m.ForwardsLocally) (peers : List Peer) (shards : List Shard) (routes given : List Route)
    (built : buildRoutes go .background peers shards totalLayers = .ok routes) (perm : given.Perm routes)
    (net : Network (List ShardExecutionRequest × Heap))
    (hosted : Hosted go wire net heapWorker totalLayers routes) (single : Peer) (wholeRoutes : List Route)
    (builtWhole : buildRoutes go .background [single] [⟨single.id, 0, totalLayers - 1⟩] totalLayers =
      .ok wholeRoutes)
    (base : ShardExecutionRequest) (sendable : Sendable wire totalLayers routes base) (maxTokens : Int)
    (project : Option Simulator.TokenProjector) :
    ∃ workers remote alone, remoteWorkersFromRoutes go wire net routes = .ok workers ∧
      newSimulator (boxWorkers workers) = .ok remote ∧ newSimulator (layerWorkers [single.id]) = .ok alone ∧
      GenerationAgrees routes totalLayers single
        (((remote.generateTokens go .background given base totalLayers maxTokens project
            ([], freshHeap m totalLayers)).1),
          (remote.generateTokens go .background given base totalLayers maxTokens project
            ([], freshHeap m totalLayers)).2.2)
        (alone.generateTokens go .background wholeRoutes base totalLayers maxTokens project
          (freshHeap m totalLayers)) := by
  have plan := (buildRoutes_eq_ok.mp built).2
  obtain ⟨workers, remote, ok, made, remotes⟩ := plan.remote_simulator wire net
  obtain ⟨near, -, deployed⟩ := exists_deployment layers forwards plan
  obtain ⟨alone, madeAlone, deployedAlone⟩ := exists_deployment layers forwards (buildRoutes_eq_ok.mp builtWhole).2
  exact ⟨workers, remote, alone, ok, made, madeAlone,
    deployed.distributed_agree lossless total deployedAlone hosted remotes sendable perm maxTokens project⟩

/-- Three layers on two servers decode as on one peer. -/
theorem distributed_generation_equals_unsharded_pair :
    ∃ workers remote alone,
      remoteWorkersFromRoutes .plain .plain (hostNetwork heapWorker 3) hostedRoutes = .ok workers ∧
      newSimulator (boxWorkers workers) = .ok remote ∧ newSimulator (layerWorkers ["c"]) = .ok alone ∧
      GenerationAgrees hostedRoutes 3 (ownDevicePeer "c")
        ((remote.generateTokens .plain .background hostedRoutes.reverse (remoteRequest "r") 3 2 (some headToken)
            ([], freshHeap (recallModel 3) 3)).1,
          (remote.generateTokens .plain .background hostedRoutes.reverse (remoteRequest "r") 3 2 (some headToken)
            ([], freshHeap (recallModel 3) 3)).2.2)
        (alone.generateTokens .plain .background [⟨ownDevicePeer "c", ⟨"c", 0, 2⟩⟩] (remoteRequest "r") 3 2
          (some headToken) (freshHeap (recallModel 3) 3)) :=
  distributed_generation_equals_unsharded .plain .plain WireLib.plain_lossless (recallModel 3) 3 (by decide) rfl
    (recallModel_forwardsLocally 3) [ownDevicePeer "a", ownDevicePeer "b"] [⟨"b", 0, 1⟩, ⟨"a", 2, 2⟩] hostedRoutes
    hostedRoutes.reverse (by decide +kernel) (List.reverse_perm _) (hostNetwork heapWorker 3)
    (hosted_hostedRoutes heapWorker 3) (ownDevicePeer "c") _ (by decide +kernel) (remoteRequest "r")
    sendable_hostedRoutes 2 (some headToken)

end GoExotic
