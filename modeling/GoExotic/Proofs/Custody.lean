/-
Module: GoExotic.Proofs.Custody
Purpose: Chain of custody through arbitrary workers. An execution is a relay over the ordered routes whose
  token is the activation (with the state of the workers), so its worker calls, as a log notes them,
  follow the routes one by one and each carries the activation the call before it returned. Execution
  checks every route by itself and never the layout as a whole: the layers it goes through are exactly
  the model's if and only if the ranges of the routes tile them.
Trusted boundary: none
Main exports: newSimulator_succeeds, WorkerCall, Simulator.logged, custodyRules, executeRoutes_relay,
  executeCalls, Relayed, execute_relay, Custody, Relayed.custody, execute_custody, layersThrough, LayoutExecuted,
  execute_layers
-/
import GoExotic.Proofs.Protocol
import GoExotic.Proofs.Routes
import GoExotic.Model.Sim
import GoExotic.Theory.Relay

namespace GoExotic

open Relay

variable {W : Type}

/-! ### Construction -/

/-- The copy loop of `NewSimulator` copies named workers that are not nil. -/
theorem copyWorkers_succeeds {entries : List (Sigma fun _ : String => Option (Worker W))}
    (each : ∀ entry ∈ entries, entry.1 ≠ "" ∧ entry.2 ≠ none) (distinct : entries.NodupKeys)
    (copied : GoMap (Worker W)) :
    ∃ workers, copyWorkers entries copied = .ok workers ∧
      ∀ id, workers.lookup id = (entries.dlookup id).join.or (copied.lookup id) := by
  induction entries generalizing copied with
  | nil => exact ⟨copied, rfl, fun id => rfl⟩
  | cons entry rest inductionHypothesis =>
      obtain ⟨id, worker⟩ := entry
      obtain ⟨named, notNil⟩ := each ⟨id, worker⟩ (by simp)
      rw [List.nodupKeys_cons] at distinct
      cases worker with
      | none => exact absurd rfl notNil
      | some worker =>
          obtain ⟨workers, ok, found⟩ := inductionHypothesis
            (fun other member => each other (List.mem_cons_of_mem _ member)) distinct.2 (copied.insert id worker)
          refine ⟨workers, ?_, ?_⟩
          · rw [copyWorkers, failIf_of_not named]
            exact ok
          · intro other
            rw [found]
            by_cases isHead : other = id
            · subst isHead
              rw [List.dlookup_eq_none.mpr distinct.1, AList.lookup_insert, List.dlookup_cons_eq]
              rfl
            · rw [AList.lookup_insert_ne isHead, List.dlookup_cons_ne _ _ isHead]

/-- `NewSimulator` accepts named workers that are not nil, and finds each under its id. -/
theorem newSimulator_succeeds {workers : GoMap (Option (Worker W))} (nonempty : workers.entries ≠ [])
    (each : ∀ entry ∈ workers.entries, entry.1 ≠ "" ∧ entry.2 ≠ none) :
    ∃ sim, newSimulator workers = .ok sim ∧ ∀ id, sim.workers.lookup id = (workers.lookup id).join := by
  obtain ⟨copied, ok, found⟩ := copyWorkers_succeeds each workers.nodupKeys ∅
  have some : ¬ workers.entries.length = 0 := fun none => nonempty (List.length_eq_zero_iff.mp none)
  refine ⟨⟨copied⟩, ?_, ?_⟩
  · rw [newSimulator, failIf_of_not some, ok_bind, ok]
    rfl
  · intro id
    rw [found, AList.lookup_empty, Option.or_none]
    rfl

/-! ### Noting the calls -/

/-- A call of a worker: whom it asked, with what, and what it answered. -/
structure WorkerCall where
  peerID : String
  request : ShardExecutionRequest
  answer : Except GoError ShardExecutionResponse
deriving DecidableEq

/-- A worker that notes its calls under an id. -/
def loggedWorker (peerID : String) (worker : Worker W) : Worker (List WorkerCall × W) := fun ctx req state =>
  let (answer, inner) := worker ctx req state.2
  (answer, state.1 ++ [⟨peerID, req, answer⟩], inner)

namespace Simulator

/-- The simulator with every worker noting its calls. -/
def logged (s : Simulator W) : Simulator (List WorkerCall × W) :=
  ⟨⟨s.workers.entries.map (.map id loggedWorker), s.workers.nodupKeys.map₂ loggedWorker⟩⟩

theorem lookup_logged (s : Simulator W) (id : String) :
    s.logged.workers.lookup id = (s.workers.lookup id).map (loggedWorker id) :=
  List.dlookup_map₂ id

/-- The request for one route. -/
def routeRequest (initial : ShardExecutionRequest) (route : Route) (activation : List Float32Bits) :
    ShardExecutionRequest :=
  { initial with shard := route.shard, activation := activation }

/-- The rules of the relay `Execute` runs: a stage is a route with its index, a token the activation to
send with the state of the workers. -/
def custodyRules (s : Simulator W) (ctx : Ctx) (totalLayers : Int) (initial : ShardExecutionRequest) :
    Rules (Route × Nat) (List Float32Bits × W) (Except GoError ShardExecutionResponse × W) GoError where
  asks stage token := (routeRequest initial stage.1 token.1).validate totalLayers = .ok ()
  answers stage token answer := ∃ worker, s.workers.lookup stage.1.peer.id = some worker ∧
    answer = worker (ctx.call stage.2) (routeRequest initial stage.1 token.1) token.2
  next stage token answer :=
    match answer with
    | (.error _, _) => none
    | (.ok resp, state) =>
        match checkResponse stage.2 stage.1 (routeRequest initial stage.1 token.1) resp with
        | .error _ => none
        | .ok () => some (resp.activation, state)
  refuses stage token err := ctx.check stage.2 = .error err ∨ s.workers.lookup stage.1.peer.id = none ∨
    ∃ cause, (routeRequest initial stage.1 token.1).validate totalLayers = .error cause

/-- A leg of an execution. -/
abbrev ExecutionLeg (W : Type) :=
  Leg (Route × Nat) (List Float32Bits × W) (Except GoError ShardExecutionResponse × W)

/-- The call of a leg, as the log notes it. -/
def callOf (initial : ShardExecutionRequest) (leg : ExecutionLeg W) : WorkerCall :=
  ⟨leg.stage.1.peer.id, routeRequest initial leg.stage.1 leg.token.1, leg.answer.1⟩

/-- What the loop returns for a run of the relay. -/
def Returns (last : ShardExecutionResponse) (legs : List (ExecutionLeg W)) (stop : Option GoError) :
    Except GoError ShardExecutionResponse → Prop
  | .ok resp => stop = none ∧
      (legs.getLast?.map fun leg => leg.answer.1).getD (.ok last) = .ok resp
  | .error err => stop = some err

theorem Returns.cons {last resp : ShardExecutionResponse} {leg : ExecutionLeg W}
    {legs : List (ExecutionLeg W)} {stop : Option GoError} {result : Except GoError ShardExecutionResponse}
    (returns : Returns resp legs stop result) (answered : leg.answer.1 = .ok resp) :
    Returns last (leg :: legs) stop result := by
  cases result with
  | error err => exact returns
  | ok final =>
      refine ⟨returns.1, ?_⟩
      have rest := returns.2
      rw [List.getLast?_cons]
      cases others : legs.getLast? with
      | none =>
          rw [others] at rest
          exact answered.trans rest
      | some leg =>
          rw [others] at rest
          exact rest

/-- The loop of `Execute` is a relay, and its calls are those of the legs. -/
theorem executeRoutes_relay (s : Simulator W) (ctx : Ctx) (totalLayers : Int)
    (initial : ShardExecutionRequest) (routes : List Route) (i : Nat) (req : ShardExecutionRequest)
    (same : ∀ route activation, routeRequest req route activation = routeRequest initial route activation)
    (last : ShardExecutionResponse) (state : W) :
    ∃ legs stop, Run (custodyRules s ctx totalLayers initial) (req.activation, state) (routes.zipIdx i) legs
        stop ∧
      Returns last legs stop (s.executeRoutes ctx totalLayers i req last routes state).1 ∧
      ∀ log, s.logged.executeRoutes ctx totalLayers i req last routes (log, state) =
        ((s.executeRoutes ctx totalLayers i req last routes state).1, log ++ legs.map (callOf initial),
          (s.executeRoutes ctx totalLayers i req last routes state).2) := by
  induction routes generalizing i req last state with
  | nil => exact ⟨[], none, .finished _, ⟨rfl, rfl⟩, by simp [executeRoutes]⟩
  | cons route rest inductionHypothesis =>
      have request : ({ req with shard := route.shard } : ShardExecutionRequest) =
          routeRequest initial route req.activation := same route req.activation
      simp only [executeRoutes, lookup_logged]
      cases polled : ctx.check i with
      | error err => exact ⟨[], some err, .refused (Or.inl polled), rfl, by simp⟩
      | ok u =>
          cases found : s.workers.lookup route.peer.id with
          | none =>
              exact ⟨[], some _, .refused (Or.inr (Or.inl found)), rfl, by simp⟩
          | some worker =>
              simp only [Option.map_some, request]
              cases valid : (routeRequest initial route req.activation).validate totalLayers with
              | error cause =>
                  exact ⟨[], some _, .refused (Or.inr (Or.inr ⟨cause, valid⟩)), rfl, by simp⟩
              | ok u =>
                  rcases answered : worker (ctx.call i) (routeRequest initial route req.activation) state with
                    ⟨err | resp, after⟩
                  · refine ⟨[⟨(route, i), (req.activation, state), (.error err, after)⟩], some _,
                      .dropped valid ⟨worker, found, answered.symm⟩ rfl, rfl, ?_⟩
                    intro log
                    simp only [loggedWorker, answered]
                    rfl
                  · have noted : ∀ log, loggedWorker route.peer.id worker (ctx.call i)
                        (routeRequest initial route req.activation) (log, state) =
                        (.ok resp, log ++ [⟨route.peer.id, routeRequest initial route req.activation,
                          .ok resp⟩], after) := by
                      intro log
                      simp only [loggedWorker, answered]
                    simp only [noted]
                    cases checked : checkResponse i route (routeRequest initial route req.activation) resp with
                    | error err =>
                        refine ⟨[⟨(route, i), (req.activation, state), (.ok resp, after)⟩], some _,
                          .dropped valid ⟨worker, found, answered.symm⟩ ?_, rfl, fun _ => rfl⟩
                        simp only [custodyRules, checked]
                    | ok u =>
                        dsimp only
                        obtain ⟨legs, stop, run, returns, logs⟩ := inductionHypothesis (i + 1)
                          { req with shard := route.shard, activation := resp.activation } same resp
                          after
                        refine ⟨⟨(route, i), (req.activation, state), (.ok resp, after)⟩ :: legs, stop,
                          .passed valid ⟨worker, found, answered.symm⟩ ?_ run, ?_, ?_⟩
                        · simp only [custodyRules, checked]
                        · exact returns.cons rfl
                        · intro log
                          rw [logs, List.append_assoc, List.map_cons]
                          rfl

/-! ### Executions -/

/-- The routes in the order `Execute` visits them. -/
def orderedRoutes (go : GoLib) (routes : List Route) : List Route :=
  go.sort.byKey (fun route => route.shard.startLayer) routes

/-- The worker calls of an execution. -/
def executeCalls (go : GoLib) (s : Simulator W) (ctx : Ctx) (routes : List Route)
    (initial : ShardExecutionRequest) (totalLayers : Int) (state : W) : List WorkerCall :=
  (s.logged.execute go ctx routes initial totalLayers ([], state)).2.1

/-- The calls and the result of an execution: none and an error, because the context is cancelled or there
is no route, or those of a relay over the ordered routes. -/
inductive Relayed (go : GoLib) (s : Simulator W) (ctx : Ctx) (routes : List Route)
    (initial : ShardExecutionRequest) (totalLayers : Int) (state : W) :
    List WorkerCall → Except GoError ShardExecutionResponse → Prop where
  | refused {err : GoError} (because : (∃ cause, ctx.check 0 = .error cause) ∨ routes = []) :
      Relayed go s ctx routes initial totalLayers state [] (.error err)
  | ran {legs : List (ExecutionLeg W)} {stop : Option GoError}
      {result : Except GoError ShardExecutionResponse}
      (run : Run (s.custodyRules (ctx.call 1) totalLayers initial) (initial.activation, state)
        (orderedRoutes go routes).zipIdx legs stop)
      (nonempty : routes ≠ []) (returns : Returns ⟨"", "", "", 0, 0, []⟩ legs stop result) :
      Relayed go s ctx routes initial totalLayers state (legs.map (callOf initial)) result

section Execute

variable (go : GoLib) (s : Simulator W) (ctx : Ctx) (routes : List Route) (initial : ShardExecutionRequest)
  (totalLayers : Int) (state : W)

theorem execute_relay :
    Relayed go s ctx routes initial totalLayers state
      (s.executeCalls go ctx routes initial totalLayers state)
      (s.execute go ctx routes initial totalLayers state).1 := by
  simp only [executeCalls, execute]
  cases polled : ctx.check 0 with
  | error err => exact .refused (Or.inl ⟨err, polled⟩)
  | ok u =>
      dsimp only
      by_cases empty : routes = []
      · have none : routes.length = 0 := List.length_eq_zero_iff.mpr empty
        rw [if_pos none, if_pos none]
        exact .refused (Or.inr empty)
      · have some : ¬ routes.length = 0 := fun none => empty (List.length_eq_zero_iff.mp none)
        rw [if_neg some, if_neg some]
        obtain ⟨legs, stop, run, returns, logs⟩ := executeRoutes_relay s (ctx.call 1) totalLayers initial
          (orderedRoutes go routes) 0 initial (fun _ _ => rfl) ⟨"", "", "", 0, 0, []⟩ state
        have calls := congrArg (fun final => final.2.1) (logs [])
        dsimp only [List.nil_append] at calls
        rw [← orderedRoutes, calls]
        exact .ran run empty returns

/-- Noting the calls changes nothing else, whatever was noted before. -/
theorem execute_logged (log : List WorkerCall) :
    s.logged.execute go ctx routes initial totalLayers (log, state) =
      ((s.execute go ctx routes initial totalLayers state).1,
        log ++ s.executeCalls go ctx routes initial totalLayers state,
        (s.execute go ctx routes initial totalLayers state).2) := by
  simp only [executeCalls, execute]
  cases polled : ctx.check 0 with
  | error err => simp
  | ok u =>
      dsimp only
      by_cases none : routes.length = 0
      · simp [none]
      · obtain ⟨legs, stop, -, -, logs⟩ := executeRoutes_relay s (ctx.call 1) totalLayers initial
          (orderedRoutes go routes) 0 initial (fun _ _ => rfl) ⟨"", "", "", 0, 0, []⟩ state
        rw [orderedRoutes] at logs
        rw [if_neg none, if_neg none, if_neg none, logs, logs, List.nil_append]

end Execute

/-! ### Custody -/

theorem checkResponse_eq_ok {i : Nat} {route : Route} {req : ShardExecutionRequest}
    {resp : ShardExecutionResponse} {u : Unit} :
    checkResponse i route req resp = .ok u ↔ resp.validate = .ok () ∧ resp.peerID = route.peer.id ∧
      resp.sessionID = req.sessionID ∧ resp.requestID = req.requestID ∧ resp.position = req.position ∧
        resp.hiddenSize = req.hiddenSize := by
  simp only [checkResponse, bind_eq_ok, wrapErr_eq_ok, failIf_eq_ok, not_or, not_not, ne_eq]
  constructor
  · rintro ⟨⟨⟩, valid, -, peer, same⟩
    exact ⟨valid, peer, same⟩
  · rintro ⟨valid, peer, same⟩
    exact ⟨(), valid, (), peer, same⟩

/-- The answer of a call passes the checks of the route at index `k`. -/
def Accepts (k : Nat) (route : Route) (call : WorkerCall) : Prop :=
  ∃ resp, call.answer = .ok resp ∧ checkResponse k route call.request resp = .ok ()

/-- The activation after some calls: the initial one, or that of the last response. -/
def carriedActivation (initial : ShardExecutionRequest) (calls : List WorkerCall) :
    Option (List Float32Bits) :=
  match calls.getLast? with
  | none => some initial.activation
  | some call =>
      match call.answer with
      | .error _ => none
      | .ok resp => some resp.activation

/-- The shard is refused for its own id or range. -/
def BadShard (shard : Shard) (totalLayers : Int) : Prop :=
  shard.deviceID = "" ∨ shard.startLayer < 0 ∨ shard.endLayer < shard.startLayer ∨
    totalLayers ≤ shard.endLayer

/-- The calls an execution makes, next to its result. An error comes without a response. -/
structure Custody (go : GoLib) (s : Simulator W) (ctx : Ctx) (routes : List Route)
    (initial : ShardExecutionRequest) (totalLayers : Int) (calls : List WorkerCall)
    (result : Except GoError ShardExecutionResponse) : Prop where
  ordered : (orderedRoutes go routes).Perm routes ∧
    (orderedRoutes go routes).Pairwise fun a b => a.shard.startLayer ≤ b.shard.startLayer
  /-- The call at index `k` asks the worker of the route at index `k`, with a valid request that keeps
  the initial metadata. -/
  kth : ∀ (k : Nat) call, calls[k]? = some call → ∃ route, (orderedRoutes go routes)[k]? = some route ∧
    call.peerID = route.peer.id ∧ (s.workers.lookup route.peer.id).isSome = true ∧
    call.request = routeRequest initial route call.request.activation ∧
    call.request.validate totalLayers = .ok ()
  first : ∀ call, calls[0]? = some call → call.request.activation = initial.activation
  handover : ∀ (k : Nat) call later, calls[k]? = some call → calls[k + 1]? = some later →
    ∃ resp, call.answer = .ok resp ∧ later.request.activation = resp.activation
  /-- Success takes one call a route, and the response is the last one. -/
  success : ∀ resp, result = .ok resp → calls.length = routes.length ∧
    ∃ route call, (orderedRoutes go routes).getLast? = some route ∧ calls.getLast? = some call ∧
      call.answer = .ok resp ∧ resp.peerID = route.peer.id ∧ resp.sessionID = initial.sessionID ∧
      resp.requestID = initial.requestID ∧ resp.position = initial.position ∧
      resp.hiddenSize = initial.hiddenSize ∧ (resp.activation.length : Int) = initial.hiddenSize
  /-- A call whose answer is not accepted is the last one. -/
  halts : ∀ (k : Nat) call route, calls[k]? = some call → (orderedRoutes go routes)[k]? = some route →
    ¬ Accepts k route call → calls.length = k + 1 ∧ ∃ err, result = .error err
  /-- What an error can come from. -/
  failure : ∀ err, result = .error err → (∃ path err, ctx path = some err) ∨ routes = [] ∨
    (∃ (k : Nat) (call : WorkerCall) (route : Route), calls.length = k + 1 ∧ calls[k]? = some call ∧
      (orderedRoutes go routes)[k]? = some route ∧ ¬ Accepts k route call) ∨
    ∃ route activation, (orderedRoutes go routes)[calls.length]? = some route ∧
      carriedActivation initial calls = some activation ∧
      (s.workers.lookup route.peer.id = none ∨
        ∃ cause, (routeRequest initial route activation).validate totalLayers = .error cause)
  /-- After an accepted call a request can only be refused for its own shard. -/
  later_refusals : ∀ (k : Nat) call resp route next, calls[k]? = some call → call.answer = .ok resp →
    (orderedRoutes go routes)[k]? = some route → Accepts k route call →
    ∀ cause, (routeRequest initial next resp.activation).validate totalLayers = .error cause →
      next.shard.validate totalLayers = .error cause ∧ BadShard next.shard totalLayers

/-- After an accepted response the next request has a valid activation, so only its shard matters. -/
theorem refused_for_shard {initial : ShardExecutionRequest} {k : Nat} {asked route next : Route}
    {activation : List Float32Bits} {resp : ShardExecutionResponse} {totalLayers : Int} {cause : GoError}
    (valid : (routeRequest initial asked activation).validate totalLayers = .ok ())
    (accepted : checkResponse k route (routeRequest initial asked activation) resp = .ok ())
    (refused : (routeRequest initial next resp.activation).validate totalLayers = .error cause) :
    next.shard.validate totalLayers = .error cause ∧ BadShard next.shard totalLayers := by
  obtain ⟨session, request, model, shard, sent⟩ := ShardExecutionRequest.validate_eq_ok.mp valid
  obtain ⟨-, positive, -⟩ := Shard.validate_eq_ok.mp shard
  obtain ⟨responseValid, -, -, -, position, hiddenSize⟩ := checkResponse_eq_ok.mp accepted
  obtain ⟨-, -, -, returned⟩ := ShardExecutionResponse.validate_eq_ok.mp responseValid
  have carried : validateActivation initial.position initial.hiddenSize resp.activation = .ok () := by
    rw [position, hiddenSize] at returned
    exact returned
  have whole : (routeRequest initial next resp.activation).validate totalLayers =
      next.shard.validate totalLayers := by
    cases checked : next.shard.validate totalLayers with
    | ok u => exact ShardExecutionRequest.validate_eq_ok.mpr ⟨session, request, model, checked, carried⟩
    | error err =>
        have sessionID : ¬ trimSpace (routeRequest initial next resp.activation).sessionID = "" := session
        have requestID : ¬ trimSpace (routeRequest initial next resp.activation).requestID = "" := request
        have modelID : ¬ trimSpace (routeRequest initial next resp.activation).modelID = "" := model
        have shardRefused : (routeRequest initial next resp.activation).shard.validate totalLayers =
            .error err := checked
        rw [ShardExecutionRequest.validate, failIf_of_not sessionID, failIf_of_not requestID,
          failIf_of_not modelID, shardRefused]
        rfl
  rw [whole] at refused
  refine ⟨refused, ?_⟩
  by_contra good
  simp only [BadShard, not_or, not_lt, not_le] at good
  obtain ⟨named, start, ordered, last⟩ := good
  have fine : next.shard.validate totalLayers = .ok () :=
    Shard.validate_eq_ok.mpr ⟨named, positive, start, ordered, last⟩
  rw [fine] at refused
  cases refused

section Legs

variable {s : Simulator W} {ctx : Ctx} {totalLayers : Int} {initial : ShardExecutionRequest}
  {leg : ExecutionLeg W} {legs : List (ExecutionLeg W)}

/-- A leg hands on the activation of an accepted response, with the state after the call. -/
theorem handed_eq_some {handed : List Float32Bits × W} :
    leg.handed (s.custodyRules ctx totalLayers initial) = some handed ↔
      ∃ resp, leg.answer.1 = .ok resp ∧
        checkResponse leg.stage.2 leg.stage.1 (callOf initial leg).request resp = .ok () ∧
        handed = (resp.activation, leg.answer.2) := by
  obtain ⟨stage, token, answer, after⟩ := leg
  cases answer with
  | error err => simp [Leg.handed, custodyRules]
  | ok resp =>
      cases checked : checkResponse stage.2 stage.1 (routeRequest initial stage.1 token.1) resp with
      | error err => simp [Leg.handed, custodyRules, callOf, checked]
      | ok u => simp [Leg.handed, custodyRules, callOf, checked, eq_comm]

/-- A leg hands something on exactly if its call is accepted. -/
theorem accepts_iff_handed : Accepts leg.stage.2 leg.stage.1 (callOf initial leg) ↔
    leg.handed (s.custodyRules ctx totalLayers initial) ≠ none := by
  rw [Option.ne_none_iff_exists']
  constructor
  · rintro ⟨resp, answered, checked⟩
    exact ⟨_, handed_eq_some.mpr ⟨resp, answered, checked, rfl⟩⟩
  · rintro ⟨handed, hands⟩
    obtain ⟨resp, answered, checked, -⟩ := handed_eq_some.mp hands
    exact ⟨resp, answered, checked⟩

theorem call_at {k : Nat} {call : WorkerCall} (found : (legs.map (callOf initial))[k]? = some call) :
    ∃ leg, legs[k]? = some leg ∧ callOf initial leg = call := by
  rw [List.getElem?_map] at found
  exact Option.map_eq_some_iff.mp found

variable {routes : List Route} {token : List Float32Bits × W} {stop : Option GoError}

/-- The leg at a position is that of the route there. -/
theorem leg_at (run : Run (s.custodyRules ctx totalLayers initial) token routes.zipIdx legs stop) {k : Nat}
    (found : legs[k]? = some leg) : routes[k]? = some leg.stage.1 ∧ leg.stage.2 = k := by
  have here := run.stage_at found
  rw [List.getElem?_zipIdx, Nat.zero_add] at here
  obtain ⟨route, there, same⟩ := Option.map_eq_some_iff.mp here
  rw [← same]
  exact ⟨there, rfl⟩

/-- The activation the legs carry is that of the calls. -/
theorem carriedActivation_eq {t : List Float32Bits × W} (start : token.1 = initial.activation)
    (carries : Run.carried (s.custodyRules ctx totalLayers initial) token legs = some t) :
    carriedActivation initial (legs.map (callOf initial)) = some t.1 := by
  rw [Run.carried] at carries
  rw [carriedActivation, List.getLast?_map]
  cases last : legs.getLast? with
  | none =>
      rw [last] at carries
      cases carries
      exact congrArg some start.symm
  | some leg =>
      rw [last] at carries
      obtain ⟨resp, answered, -, rfl⟩ := handed_eq_some.mp carries
      have same : (callOf initial leg).answer = .ok resp := answered
      dsimp only [Option.map_some]
      rw [same]

/-- A run through all of some routes made a call a route, and returned what the last one answered, which
passed its checks. -/
theorem run_success (run : Run (s.custodyRules ctx totalLayers initial) token routes.zipIdx legs stop)
    (given : routes ≠ []) {last resp : ShardExecutionResponse} (returns : Returns last legs stop (.ok resp)) :
    legs.length = routes.length ∧ ∃ leg, legs.getLast? = some leg ∧ routes.getLast? = some leg.stage.1 ∧
      leg.answer.1 = .ok resp ∧
      checkResponse leg.stage.2 leg.stage.1 (callOf initial leg).request resp = .ok () := by
  obtain ⟨through, final⟩ := returns
  obtain ⟨all, handed⟩ := run.finished_all through
  have length : legs.length = routes.length := by
    have sameLength := congrArg List.length all
    rwa [List.length_map, List.length_zipIdx] at sameLength
  refine ⟨length, ?_⟩
  have nonempty : legs ≠ [] := by
    rintro rfl
    exact given (List.length_eq_zero_iff.mp length.symm)
  have isLast := List.getLast?_eq_some_getLast nonempty
  rw [isLast] at final
  have answered : (legs.getLast nonempty).answer.1 = .ok resp := final
  obtain ⟨t, hands⟩ := handed _ (List.getLast_mem nonempty)
  obtain ⟨other, alsoAnswered, checked, -⟩ := handed_eq_some.mp hands
  have sameResp : other = resp := Except.ok.inj (alsoAnswered.symm.trans answered)
  refine ⟨_, isLast, ?_, answered, sameResp ▸ checked⟩
  rw [List.getLast?_eq_getElem?] at isLast ⊢
  rw [← length]
  exact (leg_at run isLast).1

/-- A leg whose call is not accepted is the last one, and the result is an error. -/
theorem run_halts (run : Run (s.custodyRules ctx totalLayers initial) token routes.zipIdx legs stop)
    {last : ShardExecutionResponse} {result : Except GoError ShardExecutionResponse}
    (returns : Returns last legs stop result) {k : Nat} (found : legs[k]? = some leg)
    (rejected : ¬ Accepts leg.stage.2 leg.stage.1 (callOf initial leg)) :
    legs.length = k + 1 ∧ ∃ err, result = .error err := by
  rw [accepts_iff_handed, not_not] at rejected
  obtain ⟨length, err, stops⟩ := run.stopped found rejected
  refine ⟨length, ?_⟩
  cases result with
  | error err => exact ⟨err, rfl⟩
  | ok resp => exact absurd (returns.1.symm.trans stops) (by simp)

/-- A run that stops has a last call that is not accepted, or refuses the next route what was carried. -/
theorem run_failure (run : Run (s.custodyRules ctx totalLayers initial) token routes.zipIdx legs stop)
    (start : token.1 = initial.activation) {err : GoError} (stops : stop = some err) :
    (∃ (k : Nat) (leg : ExecutionLeg W), legs.length = k + 1 ∧ legs[k]? = some leg ∧
      ¬ Accepts leg.stage.2 leg.stage.1 (callOf initial leg)) ∨
    ∃ route activation, routes[legs.length]? = some route ∧
      carriedActivation initial (legs.map (callOf initial)) = some activation ∧
      (ctx.check legs.length = .error err ∨ s.workers.lookup route.peer.id = none ∨
        ∃ cause, (routeRequest initial route activation).validate totalLayers = .error cause) := by
  rcases run.refusal stops with ⟨leg, last, nothing⟩ | ⟨stage, t, next, carries, refuses⟩
  · rw [List.getLast?_eq_getElem?] at last
    have inside := (List.getElem?_eq_some_iff.mp last).1
    refine Or.inl ⟨legs.length - 1, leg, by omega, last, ?_⟩
    rw [accepts_iff_handed]
    exact not_not.mpr nothing
  · rw [List.getElem?_zipIdx, Nat.zero_add] at next
    obtain ⟨route, there, rfl⟩ := Option.map_eq_some_iff.mp next
    exact Or.inr ⟨route, t.1, there, carriedActivation_eq start carries, refuses⟩

end Legs

theorem check_eq_error {ctx : Ctx} {poll : Nat} {err : GoError} (cancelled : ctx.check poll = .error err) :
    ctx [poll] = some err := by
  rw [Ctx.check] at cancelled
  cases polled : ctx [poll] with
  | none =>
      rw [polled] at cancelled
      cases cancelled
  | some other =>
      rw [polled] at cancelled
      exact congrArg some (Except.error.inj cancelled)

/-- A relay over the ordered routes keeps the chain of custody. -/
theorem Relayed.custody {go : GoLib} {s : Simulator W} {ctx : Ctx} {routes : List Route}
    {initial : ShardExecutionRequest} {totalLayers : Int} {state : W} {calls : List WorkerCall}
    {result : Except GoError ShardExecutionResponse}
    (relayed : Relayed go s ctx routes initial totalLayers state calls result) :
    Custody go s ctx routes initial totalLayers calls result := by
  have sorted : (orderedRoutes go routes).Perm routes ∧
      (orderedRoutes go routes).Pairwise fun a b => a.shard.startLayer ≤ b.shard.startLayer :=
    ⟨go.sort.byKey_perm _ routes, go.sort.byKey_pairwise _ routes⟩
  cases relayed with
  | refused because =>
      constructor
      · exact sorted
      · simp
      · simp
      · simp
      · simp
      · simp
      · rintro _ -
        rcases because with ⟨cause, cancelled⟩ | empty
        · exact Or.inl ⟨[0], cause, check_eq_error cancelled⟩
        · exact Or.inr (Or.inl empty)
      · simp
  | @ran legs stop _ run nonempty returns =>
      constructor
      case ordered =>
        exact sorted
      case kth =>
        intro k call found
        obtain ⟨leg, here, rfl⟩ := call_at found
        obtain ⟨valid, worker, isWorker, -⟩ := run.each leg (List.mem_of_getElem? here)
        exact ⟨leg.stage.1, (leg_at run here).1, rfl, by rw [isWorker]; rfl, rfl, valid⟩
      case first =>
        intro call found
        obtain ⟨leg, here, rfl⟩ := call_at found
        exact congrArg Prod.fst (run.head here)
      case handover =>
        intro k call later found foundLater
        obtain ⟨leg, here, rfl⟩ := call_at found
        obtain ⟨next, there, rfl⟩ := call_at foundLater
        obtain ⟨resp, answered, -, carried⟩ := handed_eq_some.mp (run.handover here there)
        exact ⟨resp, answered, congrArg Prod.fst carried⟩
      case success =>
        intro resp succeeded
        rw [succeeded] at returns
        have given : orderedRoutes go routes ≠ [] := by
          intro empty
          rw [empty] at sorted
          exact nonempty sorted.1.nil_eq.symm
        obtain ⟨length, leg, isLast, routed, answered, checked⟩ := run_success run given returns
        obtain ⟨valid, peer, session, request, position, hiddenSize⟩ := checkResponse_eq_ok.mp checked
        obtain ⟨-, -, -, activation⟩ := ShardExecutionResponse.validate_eq_ok.mp valid
        obtain ⟨-, -, -, values⟩ := validateActivation_eq_ok.mp activation
        refine ⟨by rw [List.length_map, length, sorted.1.length_eq], leg.stage.1, callOf initial leg, routed,
          ?_, answered, peer, session, request, position, hiddenSize, values.trans hiddenSize⟩
        rw [List.getLast?_map, isLast]
        rfl
      case halts =>
        intro k call route found there rejected
        obtain ⟨leg, here, rfl⟩ := call_at found
        obtain ⟨routed, index⟩ := leg_at run here
        have isRoute : leg.stage.1 = route := Option.some.inj (routed.symm.trans there)
        rw [← isRoute, ← index] at rejected
        rw [List.length_map]
        exact run_halts run returns here rejected
      case failure =>
        intro err failed
        rw [failed] at returns
        rcases run_failure run rfl returns with
          ⟨k, leg, length, here, rejected⟩ | ⟨route, activation, there, carries, refused⟩
        · obtain ⟨routed, index⟩ := leg_at run here
          rw [index] at rejected
          refine Or.inr (Or.inr (Or.inl ⟨k, callOf initial leg, leg.stage.1, ?_, ?_, routed, rejected⟩))
          · rw [List.length_map, length]
          · rw [List.getElem?_map, here]
            rfl
        · rcases refused with cancelled | refused
          · have polled : (ctx.call 1) [legs.length] = some err := check_eq_error cancelled
            exact Or.inl ⟨_, err, polled⟩
          · refine Or.inr (Or.inr (Or.inr ⟨route, activation, ?_, carries, refused⟩))
            rw [List.length_map]
            exact there
      case later_refusals =>
        intro k call resp route next found answered there accepted cause refused
        obtain ⟨leg, here, rfl⟩ := call_at found
        obtain ⟨valid, -⟩ := run.each leg (List.mem_of_getElem? here)
        obtain ⟨other, alsoAnswered, checked⟩ := accepted
        have sameResp : other = resp := Except.ok.inj (alsoAnswered.symm.trans answered)
        rw [sameResp] at checked
        exact refused_for_shard valid checked refused

/-- Every execution keeps the chain of custody, whatever its workers do. -/
theorem execute_custody (go : GoLib) (s : Simulator W) (ctx : Ctx) (routes : List Route)
    (initial : ShardExecutionRequest) (totalLayers : Int) (state : W) :
    Custody go s ctx routes initial totalLayers (s.executeCalls go ctx routes initial totalLayers state)
      (s.execute go ctx routes initial totalLayers state).1 :=
  (execute_relay go s ctx routes initial totalLayers state).custody

/-! ### Layers -/

/-- The layers the activation goes through in some calls, in order. -/
def layersThrough (calls : List WorkerCall) : List Nat :=
  (calls.map fun call => call.request.shard).flatMap (Tiling.cells Shard.startLayer Shard.endLayer)

/-- What a successful execution did: the calls it made, what it handed from one to the next, and the layers it went
through. -/
structure LayoutExecuted (go : GoLib) (routes : List Route) (initial : ShardExecutionRequest) (totalLayers : Int)
    (calls : List WorkerCall) (resp : ShardExecutionResponse) : Prop where
  ordered : (orderedRoutes go routes).Perm routes ∧
    (orderedRoutes go routes).Pairwise fun a b => a.shard.startLayer ≤ b.shard.startLayer
  /-- Every route was called once, in the order of the starts: its peer, for its shard. -/
  each_once : calls.map (fun call => (call.peerID, call.request.shard)) =
    (orderedRoutes go routes).map fun route => (route.peer.id, route.shard)
  /-- The first call got the initial activation. -/
  first : ∀ call, calls[0]? = some call → call.request.activation = initial.activation
  /-- Every later call got the activation the call before it answered. -/
  handover : ∀ (k : Nat) call later, calls[k]? = some call → calls[k + 1]? = some later →
    ∃ answered, call.answer = .ok answered ∧ later.request.activation = answered.activation
  /-- The response is what the last call answered. -/
  last : calls.getLast?.map WorkerCall.answer = some (.ok resp)
  inside : ∀ route ∈ routes, route.shard.validate totalLayers = .ok ()
  /-- The layers are the model's, each once and in order, exactly if the ordered ranges tile them. -/
  exact_iff : layersThrough calls = List.range totalLayers.toNat ↔
    ShardsTile 0 ((orderedRoutes go routes).map Route.shard) totalLayers
  planned : ∀ ctx peers shards, buildRoutes go ctx peers shards totalLayers = .ok routes →
    layersThrough calls = List.range totalLayers.toNat

namespace Custody

variable {go : GoLib} {s : Simulator W} {ctx : Ctx} {routes : List Route} {initial : ShardExecutionRequest}
  {totalLayers : Int} {calls : List WorkerCall} {result : Except GoError ShardExecutionResponse}

/-- As many calls as routes are one call a route, in order: to its peer and for its shard. -/
theorem routes_called (custody : Custody go s ctx routes initial totalLayers calls result)
    (all : calls.length = routes.length) :
    calls.map (fun call => (call.peerID, call.request.shard)) =
      (orderedRoutes go routes).map fun route => (route.peer.id, route.shard) := by
  have orderedLength : (orderedRoutes go routes).length = routes.length := custody.ordered.1.length_eq
  apply List.ext_getElem?
  intro k
  rw [List.getElem?_map, List.getElem?_map]
  cases found : calls[k]? with
  | none =>
      have beyond := List.getElem?_eq_none_iff.mp found
      rw [List.getElem?_eq_none_iff.mpr (by omega : (orderedRoutes go routes).length ≤ k)]
      rfl
  | some call =>
      obtain ⟨route, there, named, -, request, -⟩ := custody.kth k call found
      rw [there, Option.map_some, Option.map_some, named, request]
      rfl

theorem shards_called (custody : Custody go s ctx routes initial totalLayers calls result)
    (all : calls.length = routes.length) :
    calls.map (fun call => call.request.shard) = (orderedRoutes go routes).map Route.shard := by
  have each := congrArg (List.map Prod.snd) (custody.routes_called all)
  rwa [List.map_map, List.map_map] at each

theorem peers_called (custody : Custody go s ctx routes initial totalLayers calls result)
    (all : calls.length = routes.length) :
    calls.map WorkerCall.peerID = (orderedRoutes go routes).map fun route => route.peer.id := by
  have each := congrArg (List.map Prod.fst) (custody.routes_called all)
  rwa [List.map_map, List.map_map] at each

/-- Every call of a success is accepted. -/
theorem accepts (custody : Custody go s ctx routes initial totalLayers calls result)
    {resp : ShardExecutionResponse} (succeeded : result = .ok resp) {k : Nat} {call : WorkerCall}
    {route : Route} (found : calls[k]? = some call) (there : (orderedRoutes go routes)[k]? = some route) :
    Accepts k route call := by
  by_contra rejected
  obtain ⟨-, err, failed⟩ := custody.halts k call route found there rejected
  rw [failed] at succeeded
  cases succeeded

/-- The shard of every call is valid. -/
theorem shard_valid (custody : Custody go s ctx routes initial totalLayers calls result)
    {call : WorkerCall} (called : call ∈ calls) : call.request.shard.validate totalLayers = .ok () := by
  obtain ⟨k, found⟩ := List.mem_iff_getElem?.mp called
  obtain ⟨-, -, -, -, -, valid⟩ := custody.kth k call found
  obtain ⟨-, -, -, shard, -⟩ := ShardExecutionRequest.validate_eq_ok.mp valid
  exact shard

end Custody

/-- The layers of valid shards, one after the other, are the model's exactly if the shards tile them. -/
theorem layers_exact_iff {shards : List Shard} {totalLayers : Int} (given : shards ≠ [])
    (valid : ∀ shard ∈ shards, shard.validate totalLayers = .ok ()) :
    shards.flatMap (Tiling.cells Shard.startLayer Shard.endLayer) = List.range totalLayers.toNat ↔
      ShardsTile 0 shards totalLayers := by
  have whole : List.range totalLayers.toNat = List.range' (0 : Int).toNat (totalLayers - 0).toNat := by
    rw [List.range_eq_range', Int.sub_zero]
    rfl
  rw [whole]
  constructor
  · obtain ⟨shard, member⟩ := List.exists_mem_of_ne_nil shards given
    obtain ⟨-, positive, -⟩ := Shard.validate_eq_ok.mp (valid shard member)
    apply Tiling.tiles_of_flatMap_cells
    · intro shard member
      obtain ⟨-, -, start, nonempty, -⟩ := Shard.validate_eq_ok.mp (valid shard member)
      exact ⟨start, nonempty⟩
    · exact le_refl 0
    · exact le_of_lt positive
  · intro tiles
    exact tiles.flatMap_cells (le_refl 0)

/-- A successful execution has called every route once, in order, each with the activation the one before it answered,
and so has been through the layers of its routes; these are those of the model exactly if the routes tile them, as
all routes of `BuildRoutes` do. -/
theorem execute_layers (go : GoLib) (s : Simulator W) (ctx : Ctx) (routes : List Route)
    (initial : ShardExecutionRequest) (totalLayers : Int) (state : W) (resp : ShardExecutionResponse)
    (succeeded : (s.execute go ctx routes initial totalLayers state).1 = .ok resp) :
    LayoutExecuted go routes initial totalLayers (s.executeCalls go ctx routes initial totalLayers state) resp := by
  have custody := (execute_relay go s ctx routes initial totalLayers state).custody
  obtain ⟨all, lastRoute, lastCall, isLast, isLastCall, answered, -⟩ := custody.success resp succeeded
  have shards := custody.shards_called all
  have inside : ∀ shard ∈ (orderedRoutes go routes).map Route.shard, shard.validate totalLayers = .ok () := by
    rw [← shards]
    intro shard member
    obtain ⟨call, called, rfl⟩ := List.mem_map.mp member
    exact custody.shard_valid called
  have given : (orderedRoutes go routes).map Route.shard ≠ [] :=
    List.ne_nil_of_mem (List.mem_map_of_mem (List.mem_of_getLast? isLast))
  have exact_iff : layersThrough (s.executeCalls go ctx routes initial totalLayers state) =
      List.range totalLayers.toNat ↔
        ShardsTile 0 ((orderedRoutes go routes).map Route.shard) totalLayers := by
    rw [layersThrough, shards]
    exact layers_exact_iff given inside
  constructor
  case ordered => exact custody.ordered
  case each_once => exact custody.routes_called all
  case first => exact custody.first
  case handover => exact custody.handover
  case last => rw [isLastCall, Option.map_some, answered]
  case inside =>
    intro route member
    exact inside route.shard (List.mem_map_of_mem (custody.ordered.1.mem_iff.mpr member))
  case exact_iff => exact exact_iff
  case planned =>
    intro planCtx peers shards built
    obtain ⟨-, plan⟩ := buildRoutes_eq_ok.mp built
    rw [exact_iff, orderedRoutes, plan.sorted (List.Perm.refl routes), plan.shards_eq]
    exact plan.partition.tiles

/-- One worker, at peer `a`, that returns the activation it is given. -/
def singleWorker : Simulator Unit :=
  ⟨AList.insert "a" (fun _ req state => (.ok ⟨req.sessionID, req.requestID, "a", req.position,
    req.hiddenSize, req.activation⟩, state)) ∅⟩

/-- A route to peer `a` for the first layer. -/
def firstLayerRoute : Route := ⟨⟨"a", "http://h", "http", ⟨"a", .finite 1, ""⟩, 0⟩, ⟨"a", 0, 0⟩⟩

/-- A request with one value. -/
def singleRequest : ShardExecutionRequest := ⟨"s", "r", "m", ⟨"", 0, 0⟩, 0, 1, [0x3f800000]⟩

/-- An execution succeeds on a layout that leaves out the second of two layers, and on one that goes
through the only layer twice. -/
theorem execute_succeeds_on_gap_and_repetition :
    (singleWorker.execute .plain .background [firstLayerRoute] singleRequest 2 ()).1 =
        .ok ⟨"s", "r", "a", 0, 1, [0x3f800000]⟩ ∧
      layersThrough (singleWorker.executeCalls .plain .background [firstLayerRoute] singleRequest 2 ()) =
        [0] ∧
      (singleWorker.execute .plain .background [firstLayerRoute, firstLayerRoute] singleRequest 1 ()).1 =
        .ok ⟨"s", "r", "a", 0, 1, [0x3f800000]⟩ ∧
      layersThrough (singleWorker.executeCalls .plain .background [firstLayerRoute, firstLayerRoute]
        singleRequest 1 ()) = [0, 0] := by
  decide +kernel

/-- A worker that shifts every value of the activation. -/
def shiftingWorker (peerID : String) (shift : Float32Bits) : Worker Unit := fun _ req state =>
  (.ok ⟨req.sessionID, req.requestID, peerID, req.position, req.hiddenSize, req.activation.map (· + shift)⟩, state)

/-- Two workers that change the activation, each in its way. -/
def shiftingWorkers : Simulator Unit :=
  ⟨(AList.insert "a" (shiftingWorker "a" 1) ∅).insert "b" (shiftingWorker "b" 16)⟩

/-- A route to peer `b` for the second layer. -/
def secondLayerRoute : Route := ⟨⟨"b", "http://h", "http", ⟨"b", .finite 1, ""⟩, 0⟩, ⟨"b", 1, 1⟩⟩

/-- Two layers at two peers, given in the wrong order: the activation passes through both. -/
theorem execute_layers_pair :
    LayoutExecuted .plain [secondLayerRoute, firstLayerRoute] singleRequest 2
      (shiftingWorkers.executeCalls .plain .background [secondLayerRoute, firstLayerRoute] singleRequest 2 ())
      ⟨"s", "r", "b", 0, 1, [0x3f800011]⟩ :=
  execute_layers .plain shiftingWorkers .background [secondLayerRoute, firstLayerRoute] singleRequest 2 ()
    ⟨"s", "r", "b", 0, 1, [0x3f800011]⟩ (by decide +kernel)

end Simulator

end GoExotic
