/-
Module: GoExotic.Proofs.RoutedWorkers
Purpose: What the router plans can be executed. The loop that makes a remote worker for each peer of some
  routes accepts exactly the routes whose peers are valid, whose shards name their peers and have ranges,
  and that agree on the address of a peer. The routes of a plan meet this with a peer each; so a simulator
  over their workers never fails for a missing worker or for a request it built, and calls each worker once
  as long as they answer correctly.
Trusted boundary: net/http, as a parameter
Main exports: WorkableRoute, collectWorkers_succeeds_iff, Collected, remoteWorkersFromRoutes_succeeds_iff,
  RoutedWorkers, RunsPlan, RoutePlan.runs, PlanExecutes, planned_routes_execute
-/
import GoExotic.Proofs.Custody
import GoExotic.Proofs.RemoteExecution

namespace GoExotic

variable {W : Type} {go : GoLib} {wire : WireLib} {net : Network W}

/-! ### The worker map -/

/-- A route the loop accepts by itself. -/
def WorkableRoute (go : GoLib) (route : Route) : Prop :=
  route.peer.validate go = .ok () ∧ route.shard.deviceID = route.peer.id ∧
    0 ≤ route.shard.startLayer ∧ route.shard.startLayer ≤ route.shard.endLayer

/-- Routes with equal peer ids have equal addresses. -/
def SameAddresses (routes : List Route) : Prop :=
  ∀ a ∈ routes, ∀ b ∈ routes, a.peer.id = b.peer.id → a.peer.address = b.peer.address

/-- A map that has the address of the peer for some routes. -/
def Fits (workers : GoMap RemoteShardWorker) (routes : List Route) : Prop :=
  ∀ route ∈ routes, ∀ w, workers.lookup route.peer.id = some w → w.endpoint = route.peer.address

/-- The map with the workers of some routes added. -/
def Collected (workers final : GoMap RemoteShardWorker) (routes : List Route) : Prop :=
  (∀ route ∈ routes, final.lookup route.peer.id = some ⟨route.peer.address⟩) ∧
    ∀ id, id ∉ routes.map (fun route => route.peer.id) → final.lookup id = workers.lookup id

theorem collectWorkers_cons {workers final : GoMap RemoteShardWorker} {route : Route} {rest : List Route} :
    collectWorkers go workers (route :: rest) = .ok final ↔ WorkableRoute go route ∧
      match workers.lookup route.peer.id with
      | some remote => remote.endpoint = route.peer.address ∧ collectWorkers go workers rest = .ok final
      | none => collectWorkers go (workers.insert route.peer.id ⟨route.peer.address⟩) rest = .ok final := by
  simp only [collectWorkers, bind_eq_ok, wrapErr_eq_ok, failIf_eq_ok, exists_const, not_not, not_or, not_lt,
    ne_eq, WorkableRoute]
  cases workers.lookup route.peer.id with
  | none =>
      constructor
      · rintro ⟨⟨⟩, valid, named, range, collected⟩
        exact ⟨⟨valid, named, range⟩, collected⟩
      · rintro ⟨⟨valid, named, range⟩, collected⟩
        exact ⟨(), valid, named, range, collected⟩
  | some remote =>
      simp only [bind_eq_ok, failIf_eq_ok, exists_const, not_not]
      constructor
      · rintro ⟨⟨⟩, valid, named, range, same, collected⟩
        exact ⟨⟨valid, named, range⟩, same, collected⟩
      · rintro ⟨⟨valid, named, range⟩, same, collected⟩
        exact ⟨(), valid, named, range, same, collected⟩

theorem sameAddresses_cons {route : Route} {rest : List Route} :
    SameAddresses (route :: rest) ↔ SameAddresses rest ∧
      ∀ other ∈ rest, other.peer.id = route.peer.id → other.peer.address = route.peer.address := by
  simp only [SameAddresses, List.forall_mem_cons]
  constructor
  · rintro ⟨-, each⟩
    exact ⟨fun a member => (each a member).2, fun other member => (each other member).1⟩
  · rintro ⟨inRest, ofHead⟩
    exact ⟨⟨fun _ => trivial, fun b member same => (ofHead b member same.symm).symm⟩,
      fun a member => ⟨ofHead a member, inRest a member⟩⟩

theorem fits_cons {workers : GoMap RemoteShardWorker} {route : Route} {rest : List Route} :
    Fits workers (route :: rest) ↔
      (∀ w, workers.lookup route.peer.id = some w → w.endpoint = route.peer.address) ∧ Fits workers rest := by
  rw [Fits, List.forall_mem_cons, Fits]

/-- With a worker added under a new id, a map fits routes that it fitted and that agree with the worker. -/
theorem fits_insert {workers : GoMap RemoteShardWorker} {id address : String} {routes : List Route}
    (fresh : workers.lookup id = none) :
    Fits (workers.insert id ⟨address⟩) routes ↔ Fits workers routes ∧
      ∀ route ∈ routes, route.peer.id = id → route.peer.address = address := by
  constructor
  · intro fits
    constructor
    · intro route member w found
      have other : route.peer.id ≠ id := by
        rintro rfl
        rw [fresh] at found
        cases found
      exact fits route member w ((AList.lookup_insert_ne other).trans found)
    · rintro route member rfl
      exact (fits route member _ (AList.lookup_insert workers)).symm
  · rintro ⟨fits, agree⟩ route member w found
    by_cases isNew : route.peer.id = id
    · rw [isNew, AList.lookup_insert, Option.some.injEq] at found
      rw [← found, agree route member isNew]
    · rw [AList.lookup_insert_ne isNew] at found
      exact fits route member w found

/-- The loop accepts exactly workable routes that agree on addresses, among each other and with the map. -/
theorem collectWorkers_succeeds_iff {workers : GoMap RemoteShardWorker} {routes : List Route} :
    (∃ final, collectWorkers go workers routes = .ok final) ↔
      (∀ route ∈ routes, WorkableRoute go route) ∧ SameAddresses routes ∧ Fits workers routes := by
  induction routes generalizing workers with
  | nil => simp [collectWorkers, SameAddresses, Fits]
  | cons route rest inductionHypothesis =>
      simp only [collectWorkers_cons, exists_and_left, List.forall_mem_cons, sameAddresses_cons, fits_cons]
      cases found : workers.lookup route.peer.id with
      | none =>
          simp only [inductionHypothesis, fits_insert found, reduceCtorEq, false_implies, implies_true,
            true_and]
          constructor
          · rintro ⟨workable, each, same, fits, agree⟩
            exact ⟨⟨workable, each⟩, ⟨same, agree⟩, fits⟩
          · rintro ⟨⟨workable, each⟩, ⟨same, agree⟩, fits⟩
            exact ⟨workable, each, same, fits, agree⟩
      | some remote =>
          simp only [exists_and_left, inductionHypothesis, Option.some.injEq, forall_eq']
          constructor
          · rintro ⟨workable, endpoint, each, same, fits⟩
            have agree : ∀ other ∈ rest, other.peer.id = route.peer.id →
                other.peer.address = route.peer.address := by
              intro other member sameId
              exact (fits other member remote (sameId ▸ found)).symm.trans endpoint
            exact ⟨⟨workable, each⟩, ⟨same, agree⟩, endpoint, fits⟩
          · rintro ⟨⟨workable, each⟩, ⟨same, -⟩, endpoint, fits⟩
            exact ⟨workable, endpoint, each, same, fits⟩

/-- Routes that agree on addresses get one worker a peer, with the peer's address. -/
theorem collectWorkers_collected {workers final : GoMap RemoteShardWorker} {routes : List Route}
    (collected : collectWorkers go workers routes = .ok final) : Collected workers final routes := by
  induction routes generalizing workers with
  | nil =>
      rw [collectWorkers, Except.ok.injEq] at collected
      subst collected
      exact ⟨fun route member => (List.not_mem_nil member).elim, fun id _ => rfl⟩
  | cons route rest inductionHypothesis =>
      have same := (collectWorkers_succeeds_iff.mp ⟨final, collected⟩).2.1
      rw [sameAddresses_cons] at same
      -- The map the rest of the loop starts from differs at most in the worker of this route.
      obtain ⟨next, ok, here, elsewhere⟩ : ∃ next, collectWorkers go next rest = .ok final ∧
          next.lookup route.peer.id = some ⟨route.peer.address⟩ ∧
          ∀ id, id ≠ route.peer.id → next.lookup id = workers.lookup id := by
        rw [collectWorkers_cons] at collected
        cases found : workers.lookup route.peer.id with
        | none =>
            rw [found] at collected
            exact ⟨_, collected.2, AList.lookup_insert workers, fun id other => AList.lookup_insert_ne other⟩
        | some remote =>
            rw [found] at collected
            obtain ⟨-, endpoint, ok⟩ := collected
            have isIts : remote = ⟨route.peer.address⟩ := congrArg RemoteShardWorker.mk endpoint
            exact ⟨workers, ok, isIts ▸ found, fun _ _ => rfl⟩
      obtain ⟨inRest, others⟩ := inductionHypothesis ok
      constructor
      · rw [List.forall_mem_cons]
        refine ⟨?_, inRest⟩
        by_cases again : route.peer.id ∈ rest.map fun route => route.peer.id
        · obtain ⟨other, member, sameId⟩ := List.mem_map.mp again
          rw [← sameId, inRest other member, same.2 other member sameId]
        · rw [others route.peer.id again, here]
      · intro id absent
        rw [List.map_cons, List.mem_cons, not_or] at absent
        rw [others id absent.2, elsewhere id absent.1]

theorem lookup_remoteWorkers (remotes : GoMap RemoteShardWorker) (id : String) :
    (remoteWorkers go wire net remotes).lookup id =
      (remotes.lookup id).map fun w => w.executeShard go wire net :=
  List.dlookup_map₂ id

/-- `NewSimulator` takes over a map of workers under names. -/
theorem newSimulator_boxed {workers : GoMap (Worker W)} (nonempty : workers.keys ≠ [])
    (named : ∀ id ∈ workers.keys, id ≠ "") :
    ∃ sim, newSimulator (boxWorkers workers) = .ok sim ∧
      ∀ id, sim.workers.lookup id = workers.lookup id := by
  have some : (boxWorkers workers).entries ≠ [] := by
    intro none
    have noEntries : workers.entries = [] := List.map_eq_nil_iff.mp none
    exact nonempty (by rw [AList.keys, noEntries]; rfl)
  have each : ∀ entry ∈ (boxWorkers workers).entries, entry.1 ≠ "" ∧ entry.2 ≠ none := by
    intro entry member
    obtain ⟨original, original_mem, rfl⟩ := List.mem_map.mp member
    exact ⟨named _ (List.mem_keys_of_mem original_mem), Option.some_ne_none _⟩
  obtain ⟨sim, ok, found⟩ := newSimulator_succeeds some each
  refine ⟨sim, ok, fun id => ?_⟩
  have boxed : (boxWorkers workers).lookup id = (workers.lookup id).map Option.some := List.dlookup_map₂ id
  rw [found, boxed]
  cases workers.lookup id with
  | none => rfl
  | some worker => rfl

/-- The workers of some routes: one under each peer id, that calls the peer's address. -/
structure RoutedWorkers (go : GoLib) (wire : WireLib) (net : Network W) (routes : List Route)
    (workers : GoMap (Worker W)) : Prop where
  keys : ∀ id, id ∈ workers.keys ↔ id ∈ routes.map fun route => route.peer.id
  endpoint : ∀ route ∈ routes, workers.lookup route.peer.id =
    some (RemoteShardWorker.executeShard go wire net ⟨route.peer.address⟩)

theorem WorkableRoute.named {route : Route} (workable : WorkableRoute go route) : route.peer.id ≠ "" :=
  Peer.id_ne_empty workable.1

/-- The map of the loop, as `NewSimulator` takes it over. -/
theorem RoutedWorkers.of_collected {remotes : GoMap RemoteShardWorker} {routes : List Route}
    (collected : Collected ∅ remotes routes) {workers : GoMap (Worker W)}
    (same : ∀ id, workers.lookup id = (remoteWorkers go wire net remotes).lookup id) :
    RoutedWorkers go wire net routes workers := by
  constructor
  · intro id
    rw [← AList.mem_keys, ← AList.lookup_isSome, same, lookup_remoteWorkers, Option.isSome_map]
    constructor
    · intro found
      by_contra absent
      rw [collected.2 id absent, AList.lookup_empty] at found
      cases found
    · intro routed
      obtain ⟨route, member, rfl⟩ := List.mem_map.mp routed
      rw [collected.1 route member]
      rfl
  · intro route member
    rw [same, lookup_remoteWorkers, collected.1 route member]
    rfl

/-- Workable routes that agree on addresses get their workers. -/
theorem remoteWorkersFromRoutes_succeeds {routes : List Route} (nonempty : routes ≠ [])
    (workable : ∀ route ∈ routes, WorkableRoute go route) (same : SameAddresses routes) :
    ∃ workers, remoteWorkersFromRoutes go wire net routes = .ok workers ∧
      RoutedWorkers go wire net routes workers := by
  have fits : Fits ∅ routes := by
    intro route _ w found
    rw [AList.lookup_empty] at found
    cases found
  obtain ⟨remotes, ok⟩ := collectWorkers_succeeds_iff.mpr ⟨workable, same, fits⟩
  have collected := collectWorkers_collected ok
  have whole : RoutedWorkers go wire net routes (remoteWorkers go wire net remotes) :=
    .of_collected collected fun _ => rfl
  have keyed : (remoteWorkers go wire net remotes).keys ≠ [] := by
    obtain ⟨route, member⟩ := List.exists_mem_of_ne_nil routes nonempty
    exact List.ne_nil_of_mem ((whole.keys route.peer.id).mpr (List.mem_map_of_mem member))
  have named : ∀ id ∈ (remoteWorkers go wire net remotes).keys, id ≠ "" := by
    intro id key
    obtain ⟨route, member, rfl⟩ := List.mem_map.mp ((whole.keys id).mp key)
    exact (workable route member).named
  obtain ⟨sim, built, found⟩ := newSimulator_boxed keyed named
  have some : ¬ routes.length = 0 := fun none => nonempty (List.length_eq_zero_iff.mp none)
  refine ⟨sim.workers, ?_, .of_collected collected found⟩
  rw [remoteWorkersFromRoutes, failIf_of_not some, ok_bind, ok, ok_bind, built]
  rfl

/-- `RemoteWorkersFromRoutes` accepts exactly some workable routes that agree on addresses. -/
theorem remoteWorkersFromRoutes_succeeds_iff {routes : List Route} :
    (∃ workers, remoteWorkersFromRoutes go wire net routes = .ok workers) ↔
      routes ≠ [] ∧ (∀ route ∈ routes, WorkableRoute go route) ∧ SameAddresses routes := by
  constructor
  · rintro ⟨workers, ok⟩
    simp only [remoteWorkersFromRoutes, bind_eq_ok, failIf_eq_ok, exists_const,
      List.length_eq_zero_iff] at ok
    obtain ⟨nonempty, remotes, collected, -⟩ := ok
    obtain ⟨workable, same, -⟩ := collectWorkers_succeeds_iff.mp ⟨remotes, collected⟩
    exact ⟨nonempty, workable, same⟩
  · rintro ⟨nonempty, workable, same⟩
    obtain ⟨workers, ok, -⟩ := remoteWorkersFromRoutes_succeeds nonempty workable same
    exact ⟨workers, ok⟩

/-! ### Planned routes -/

namespace RoutePlan

variable {peers : List Peer} {shards : List Shard} {totalLayers : Int} {routes : List Route}

theorem routes_nonempty (plan : RoutePlan go peers shards totalLayers routes) : routes ≠ [] := by
  rintro rfl
  exact plan.partition.nonempty plan.shards_eq.symm

theorem shard_valid (plan : RoutePlan go peers shards totalLayers routes) {route : Route}
    (member : route ∈ routes) : route.shard.validate totalLayers = .ok () := by
  apply plan.partition.validate
  rw [← plan.shards_eq]
  exact List.mem_map_of_mem member

theorem workable (plan : RoutePlan go peers shards totalLayers routes) :
    ∀ route ∈ routes, WorkableRoute go route := by
  intro route member
  obtain ⟨listed, named⟩ := plan.peers_named route member
  obtain ⟨-, -, start, ordered, -⟩ := Shard.validate_eq_ok.mp (plan.shard_valid member)
  exact ⟨plan.peers_valid _ listed, named.symm, start, ordered⟩

/-- The peer of a route is the only one with its id. -/
theorem unique_peer (plan : RoutePlan go peers shards totalLayers routes) {route : Route}
    (member : route ∈ routes) {peer : Peer} (listed : peer ∈ peers)
    (named : peer.id = route.shard.deviceID) : peer = route.peer := by
  obtain ⟨itsListed, itsNamed⟩ := plan.peers_named route member
  exact List.inj_on_of_nodup_map plan.ids_distinct listed itsListed (named.trans itsNamed.symm)

theorem sameAddresses (plan : RoutePlan go peers shards totalLayers routes) : SameAddresses routes := by
  intro a aMember b bMember same
  obtain ⟨aListed, -⟩ := plan.peers_named a aMember
  obtain ⟨-, bNamed⟩ := plan.peers_named b bMember
  rw [plan.unique_peer bMember aListed (same.trans bNamed)]

theorem peer_ids_distinct (plan : RoutePlan go peers shards totalLayers routes) :
    (routes.map fun route => route.peer.id).Nodup := by
  rw [plan.peer_ids]
  exact plan.partition.ids_distinct

end RoutePlan

/-! ### Execution -/

open Simulator

/-- The request would be valid with another shard. -/
def ValidApartFromShard (initial : ShardExecutionRequest) (totalLayers : Int) : Prop :=
  ∃ shard, ({ initial with shard := shard }).validate totalLayers = .ok ()

theorem ValidApartFromShard.routeRequest {initial : ShardExecutionRequest} {totalLayers : Int}
    (valid : ValidApartFromShard initial totalLayers) {route : Route}
    (shard_valid : route.shard.validate totalLayers = .ok ()) :
    (routeRequest initial route initial.activation).validate totalLayers = .ok () := by
  obtain ⟨shard, checked⟩ := valid
  obtain ⟨session, request, model, -, activation⟩ := ShardExecutionRequest.validate_eq_ok.mp checked
  exact ShardExecutionRequest.validate_eq_ok.mpr ⟨session, request, model, shard_valid, activation⟩

/-- An execution through all of some routes in their order, unless its context is cancelled or a worker
answers wrongly. -/
structure RunsPlan (ctx : Ctx) (routes : List Route) (calls : List WorkerCall)
    (result : Except GoError ShardExecutionResponse) : Prop where
  /-- An error is the context's, as it was polled before the next route, or the last worker answered
  wrongly. -/
  failure : ∀ err, result = .error err →
    ctx.check 0 = .error err ∨
      (calls.length < routes.length ∧ (ctx.call 1).check calls.length = .error err) ∨
      ∃ (k : Nat) (call : WorkerCall) (route : Route), calls.length = k + 1 ∧ calls[k]? = some call ∧
        routes[k]? = some route ∧ ¬ Accepts k route call
  /-- Under an open context and with right answers every worker is called once, and the last response
  returned. -/
  complete : ctx.check 0 = .ok () → (ctx.call 1).Open 0 routes.length →
    (∀ (k : Nat) call route, calls[k]? = some call → routes[k]? = some route → Accepts k route call) →
      calls.map WorkerCall.peerID = routes.map (fun route => route.peer.id) ∧ ∃ resp, result = .ok resp

theorem RunsPlan.of_failure {ctx : Ctx} {routes : List Route} {calls : List WorkerCall}
    {result : Except GoError ShardExecutionResponse}
    (failure : ∀ err, result = .error err →
      ctx.check 0 = .error err ∨
        (calls.length < routes.length ∧ (ctx.call 1).check calls.length = .error err) ∨
        ∃ (k : Nat) (call : WorkerCall) (route : Route), calls.length = k + 1 ∧ calls[k]? = some call ∧
          routes[k]? = some route ∧ ¬ Accepts k route call)
    (success : ∀ resp, result = .ok resp →
      calls.map WorkerCall.peerID = routes.map fun route => route.peer.id) :
    RunsPlan ctx routes calls result := by
  refine ⟨failure, ?_⟩
  intro first later accepted
  cases returned : result with
  | ok resp => exact ⟨success resp returned, resp, rfl⟩
  | error err =>
      rcases failure err returned with cancelled | ⟨inside, cancelled⟩ | ⟨k, call, route, -, called, there, wrong⟩
      · rw [first] at cancelled
        cases cancelled
      · rw [later calls.length (Nat.zero_le _) (by omega)] at cancelled
        cases cancelled
      · exact absurd (accepted k call route called there) wrong

/-- A request the execution refuses, for a route with a valid shard, is owed to a wrong answer. -/
theorem wrong_answer {s : Simulator W} {ctx : Ctx} {given routes : List Route}
    {initial : ShardExecutionRequest} {totalLayers : Int} {calls : List WorkerCall}
    {result : Except GoError ShardExecutionResponse}
    (custody : Custody go s ctx given initial totalLayers calls result)
    (ordered : orderedRoutes go given = routes) {route : Route}
    (shard_valid : route.shard.validate totalLayers = .ok ())
    (valid : ValidApartFromShard initial totalLayers) {activation : List Float32Bits}
    (carries : carriedActivation initial calls = some activation) {cause : GoError}
    (invalid : (routeRequest initial route activation).validate totalLayers = .error cause) :
    ∃ (k : Nat) (call : WorkerCall) (asked : Route), calls.length = k + 1 ∧ calls[k]? = some call ∧
      routes[k]? = some asked ∧ ¬ Accepts k asked call := by
  rw [carriedActivation, List.getLast?_eq_getElem?] at carries
  cases last : calls[calls.length - 1]? with
  | none =>
      rw [last, Option.some.injEq] at carries
      rw [← carries, valid.routeRequest shard_valid] at invalid
      cases invalid
  | some call =>
      have length := (List.getElem?_eq_some_iff.mp last).1
      obtain ⟨asked, there, -⟩ := custody.kth _ call last
      refine ⟨calls.length - 1, call, asked, by omega, last, ordered ▸ there, ?_⟩
      intro accepted
      obtain ⟨resp, answered, -⟩ := id accepted
      rw [last] at carries
      dsimp only at carries
      rw [answered, Option.some.injEq] at carries
      rw [← carries] at invalid
      obtain ⟨refused, -⟩ := custody.later_refusals _ call resp asked route last answered there accepted cause
        invalid
      rw [shard_valid] at refused
      cases refused

/-- Behind the first poll, an execution over planned routes stops only at the context or at a wrong answer. -/
theorem RoutePlan.stopped {peers : List Peer} {shards : List Shard} {totalLayers : Int}
    {routes given : List Route} (plan : RoutePlan go peers shards totalLayers routes) (perm : given.Perm routes)
    {s : Simulator W} (served : ∀ route ∈ routes, s.workers.lookup route.peer.id ≠ none)
    {initial : ShardExecutionRequest} (valid : ValidApartFromShard initial totalLayers) {ctx : Ctx} {state : W}
    {calls : List WorkerCall} {err : GoError}
    (relayed : Relayed go s ctx given initial totalLayers state calls (.error err))
    (polled : ctx.check 0 = .ok ()) :
    (calls.length < routes.length ∧ (ctx.call 1).check calls.length = .error err) ∨
      ∃ (k : Nat) (call : WorkerCall) (route : Route), calls.length = k + 1 ∧ calls[k]? = some call ∧
        routes[k]? = some route ∧ ¬ Accepts k route call := by
  have ordered : orderedRoutes go given = routes := plan.sorted perm
  have custody := relayed.custody
  cases relayed with
  | refused because =>
      rcases because with ⟨cause, cancelled⟩ | empty
      · rw [polled] at cancelled
        cases cancelled
      · rw [empty] at perm
        exact absurd perm.nil_eq.symm plan.routes_nonempty
  | @ran legs stop _ run nonempty returns =>
      rw [ordered] at run
      rcases run_failure run rfl returns with
        ⟨k, leg, length, here, rejected⟩ | ⟨route, activation, there, carries, refused⟩
      · obtain ⟨routed, index⟩ := leg_at run here
        rw [index] at rejected
        refine Or.inr ⟨k, callOf initial leg, leg.stage.1, ?_, ?_, routed, rejected⟩
        · rw [List.length_map, length]
        · rw [List.getElem?_map, here]
          rfl
      · have member : route ∈ routes := List.mem_of_getElem? there
        have inside : legs.length < routes.length := (List.getElem?_eq_some_iff.mp there).1
        rcases refused with cancelled | missing | ⟨cause, invalid⟩
        · left
          rw [List.length_map]
          exact ⟨inside, cancelled⟩
        · exact absurd missing (served route member)
        · right
          exact wrong_answer custody ordered (plan.shard_valid member) valid carries invalid

/-- Execution over planned routes, in any order, with a worker for each. -/
theorem RoutePlan.runs {peers : List Peer} {shards : List Shard} {totalLayers : Int} {routes given : List Route}
    (plan : RoutePlan go peers shards totalLayers routes) (perm : given.Perm routes) {s : Simulator W}
    (served : ∀ route ∈ routes, s.workers.lookup route.peer.id ≠ none) {initial : ShardExecutionRequest}
    (valid : ValidApartFromShard initial totalLayers) (ctx : Ctx) (state : W) :
    RunsPlan ctx routes (s.executeCalls go ctx given initial totalLayers state)
      (s.execute go ctx given initial totalLayers state).1 := by
  have ordered : orderedRoutes go given = routes := plan.sorted perm
  have relayed := execute_relay go s ctx given initial totalLayers state
  have custody := relayed.custody
  apply RunsPlan.of_failure
  · cases polled : ctx.check 0 with
    | error cause =>
        intro err failed
        left
        simpa [execute, polled] using failed
    | ok u =>
        intro err failed
        right
        rw [failed] at relayed
        exact plan.stopped perm served valid relayed polled
  · intro resp succeeded
    rw [custody.peers_called (custody.success resp succeeded).1, ordered]

/-- A plan goes through every stage up to its execution. -/
structure PlanExecutes (go : GoLib) (wire : WireLib) (net : Network W) (peers : List Peer)
    (shards : List Shard) (totalLayers : Int) (routes : List Route) : Prop where
  shards_eq : routes.map Route.shard = shards
  in_layer_order : routes.Pairwise fun a b => a.shard.startLayer < b.shard.startLayer
  /-- Each route has the one given peer that its shard is named after. -/
  own_peer : ∀ route ∈ routes, route.peer ∈ peers ∧ route.peer.id = route.shard.deviceID ∧
    ∀ peer ∈ peers, peer.id = route.shard.deviceID → peer = route.peer
  /-- The routes get one worker each, which a simulator takes over and can execute. -/
  executes : ∃ workers sim, remoteWorkersFromRoutes go wire net routes = .ok workers ∧
    workers.keys.Perm (routes.map fun route => route.peer.id) ∧
    (∀ route ∈ routes, workers.lookup route.peer.id =
      some (RemoteShardWorker.executeShard go wire net ⟨route.peer.address⟩)) ∧
    newSimulator (boxWorkers workers) = .ok sim ∧
    ∀ (ctx : Ctx) (given : List Route) (initial : ShardExecutionRequest) (state : W), given.Perm routes →
      ValidApartFromShard initial totalLayers →
        RunsPlan ctx routes (sim.executeCalls go ctx given initial totalLayers state)
          (sim.execute go ctx given initial totalLayers state).1

theorem RoutePlan.executes {peers : List Peer} {shards : List Shard} {totalLayers : Int} {routes : List Route}
    (plan : RoutePlan go peers shards totalLayers routes) :
    PlanExecutes go wire net peers shards totalLayers routes := by
  obtain ⟨workers, ok, routed⟩ : ∃ workers, remoteWorkersFromRoutes go wire net routes = .ok workers ∧
      RoutedWorkers go wire net routes workers :=
    remoteWorkersFromRoutes_succeeds plan.routes_nonempty plan.workable plan.sameAddresses
  have keys : workers.keys.Perm (routes.map fun route => route.peer.id) :=
    (List.perm_ext_iff_of_nodup workers.keys_nodup plan.peer_ids_distinct).mpr routed.keys
  have keyed : workers.keys ≠ [] := by
    intro none
    rw [none] at keys
    exact plan.routes_nonempty (List.map_eq_nil_iff.mp keys.nil_eq.symm)
  have named : ∀ id ∈ workers.keys, id ≠ "" := by
    intro id key
    obtain ⟨route, member, rfl⟩ := List.mem_map.mp ((routed.keys id).mp key)
    exact (plan.workable route member).named
  obtain ⟨sim, built, found⟩ := newSimulator_boxed keyed named
  have served : ∀ route ∈ routes, sim.workers.lookup route.peer.id ≠ none := by
    intro route member
    rw [found, routed.endpoint route member]
    exact Option.some_ne_none _
  constructor
  · exact plan.shards_eq
  · exact plan.starts_ascend
  · intro route member
    obtain ⟨listed, itsName⟩ := plan.peers_named route member
    exact ⟨listed, itsName, fun peer other sameName => plan.unique_peer member other sameName⟩
  · refine ⟨workers, sim, ok, keys, routed.endpoint, built, ?_⟩
    intro ctx given initial state perm valid
    exact plan.runs perm served valid ctx state

/-- What the router plans can be executed; and `RemoteWorkersFromRoutes` accepts exactly some workable
routes that agree on the addresses of their peers. -/
theorem planned_routes_execute (go : GoLib) (wire : WireLib) (net : Network W) (ctx : Ctx) (peers : List Peer)
    (shards : List Shard) (totalLayers : Int) (routes : List Route)
    (built : buildRoutes go ctx peers shards totalLayers = .ok routes) :
    PlanExecutes go wire net peers shards totalLayers routes ∧
      ∀ others : List Route, (∃ workers, remoteWorkersFromRoutes go wire net others = .ok workers) ↔
        others ≠ [] ∧ (∀ route ∈ others, WorkableRoute go route) ∧ SameAddresses others := by
  obtain ⟨-, plan⟩ := buildRoutes_eq_ok.mp built
  exact ⟨plan.executes, fun others => remoteWorkersFromRoutes_succeeds_iff⟩

/-- A peer that is its own device. -/
def ownDevicePeer (id : String) : Peer := ⟨id, "http://" ++ id, "http", ⟨id, .finite 1, ""⟩, 0⟩

/-- Two peers for three layers, the second one first. -/
theorem planned_routes_execute_pair :
    PlanExecutes .plain .plain (loopback 3) [ownDevicePeer "a", ownDevicePeer "b"]
        [⟨"b", 0, 1⟩, ⟨"a", 2, 2⟩] 3
        [⟨ownDevicePeer "b", ⟨"b", 0, 1⟩⟩, ⟨ownDevicePeer "a", ⟨"a", 2, 2⟩⟩] ∧
      ∀ others : List Route, (∃ workers, remoteWorkersFromRoutes .plain .plain (loopback 3) others = .ok workers) ↔
        others ≠ [] ∧ (∀ route ∈ others, WorkableRoute .plain route) ∧ SameAddresses others :=
  planned_routes_execute .plain .plain (loopback 3) .background [ownDevicePeer "a", ownDevicePeer "b"]
    [⟨"b", 0, 1⟩, ⟨"a", 2, 2⟩] 3 [⟨ownDevicePeer "b", ⟨"b", 0, 1⟩⟩, ⟨ownDevicePeer "a", ⟨"a", 2, 2⟩⟩]
    (by decide +kernel)

end GoExotic
