/-
Module: GoExotic.Proofs.StoppedGeneration
Purpose: A context can only stop a generation. Over workers of which this is true, generation under a context that
  may be cancelled is generation under a context that outlives it, or it fails with an error that wraps the
  context's own, after the first calls of the longer run and in a state that run goes on from. Remote workers are
  such workers, if the workers behind their servers are, which run under the contexts of the requests.
Trusted boundary: net/http cancels the context of a request at its server only if the client gives the request up
Main exports: Worker.Stoppable, Simulator.Stoppable, generateTokens_cut, recorded_stoppable, Ctx.ofRequest,
  RemoteShardWorker.linked, linked_stoppable, Server.stops, Simulator.OnlyStops, cancellation_only_stops
-/
import GoExotic.Proofs.Cancellation
import GoExotic.Proofs.Distribution

namespace GoExotic

open Outcomes Stopping

variable {W : Type}

/-! ### Workers -/

/-- A context only stops the worker: it goes on from the states it starts in, and under a context that another
one outlives it returns the same, or stops in a state the longer call goes on from. -/
structure Worker.Stoppable (worker : Worker W) (later : W → W → Prop) (good : W → Prop) : Prop where
  goesOn : ∀ ctx req state, good state → later state (worker ctx req state).2
  stops : ∀ (ctx longer : Ctx) req state, longer.Outlives ctx → good state →
    CutShort ctx.Caused later (worker ctx req state) (worker longer req state)

/-- All workers are stoppable, and going on keeps an invariant of their state. -/
structure Simulator.Stoppable (s : Simulator W) (later : W → W → Prop) (good : W → Prop) : Prop where
  kept : ∀ state state', later state state' → good state → good state'
  workers : ∀ id worker, s.workers.lookup id = some worker → Worker.Stoppable worker later good

namespace Simulator

variable {s : Simulator W} {later : W → W → Prop} [IsPreorder W later] {good : W → Prop}

namespace Stoppable

variable (stoppable : s.Stoppable later good)

include stoppable

/-- What one route does goes on from the state before. -/
theorem callRoute_goesOn (ctx : Ctx) (totalLayers : Int) (i : Nat) (route : Route) (req : ShardExecutionRequest)
    {state : W} (isGood : good state) :
    later state (s.callRoute ctx totalLayers i route req state).2 := by
  rw [callRoute]
  cases ctx.check i with
  | error err => exact Std.Refl.refl state
  | ok live =>
      dsimp only
      cases found : s.workers.lookup route.peer.id with
      | none => exact Std.Refl.refl state
      | some worker =>
          dsimp only
          cases req.validate totalLayers with
          | error err => exact Std.Refl.refl state
          | ok valid =>
              have called := (stoppable.workers _ worker found).goesOn (ctx.call i) req state isGood
              dsimp only
              rcases answered : worker (ctx.call i) req state with ⟨err | resp, after⟩
              · rw [answered] at called
                exact called
              · rw [answered] at called
                dsimp only
                cases checkResponse i route req resp with
                | error err => exact called
                | ok accepted => exact called

/-- One route under a context is cut short at most. -/
theorem callRoute_cut {ctx longer : Ctx} (outlives : longer.Outlives ctx) (totalLayers : Int) (i : Nat)
    (route : Route) (req : ShardExecutionRequest) {state : W} (isGood : good state) :
    CutShort ctx.Caused later (s.callRoute ctx totalLayers i route req state)
      (s.callRoute longer totalLayers i route req state) := by
  have onward := stoppable.callRoute_goesOn longer totalLayers i route req isGood
  rw [callRoute]
  rcases outlives.check i with same | ⟨-, err, stops, caused⟩
  · rw [callRoute, same]
    cases ctx.check i with
    | error err => exact .same _
    | ok live =>
        dsimp only
        cases found : s.workers.lookup route.peer.id with
        | none => exact .same _
        | some worker =>
            dsimp only
            cases req.validate totalLayers with
            | error err => exact .same _
            | ok valid =>
                have called := (stoppable.workers _ worker found).stops _ _ req state (outlives.call i) isGood
                dsimp only
                generalize worker (ctx.call i) req state = short at called ⊢
                generalize worker (longer.call i) req state = full at called ⊢
                cases called with
                | same _ => exact .same _
                | stopped caused goesOn =>
                    -- the error of the worker is wrapped, and the longer call ends in its worker's state
                    refine .stopped ((Ctx.caused_of_call _ caused).wrap _ _) ?_
                    rcases full with ⟨err | resp, after⟩
                    · exact goesOn
                    · dsimp only
                      cases checkResponse i route req resp with
                      | error err => exact goesOn
                      | ok accepted => exact goesOn
  · rw [stops]
    exact .stopped caused onward

/-- The loop goes on from the state before. -/
theorem executeRoutes_goesOn (ctx : Ctx) (totalLayers : Int) (routes : List Route) :
    ∀ (i : Nat) (req : ShardExecutionRequest) (resp : ShardExecutionResponse) (state : W), good state →
      later state (s.executeRoutes ctx totalLayers i req resp routes state).2 := by
  induction routes with
  | nil =>
      intro i req resp state _
      exact Std.Refl.refl state
  | cons route rest inductionHypothesis =>
      intro i req resp state isGood
      have called := stoppable.callRoute_goesOn ctx totalLayers i route { req with shard := route.shard } isGood
      rw [executeRoutes_cons]
      apply later_andThen called
      intro answer after returned
      rw [returned] at called
      exact inductionHypothesis (i + 1) _ _ after (stoppable.kept _ _ called isGood)

theorem executeRoutes_cut {ctx longer : Ctx} (outlives : longer.Outlives ctx) (totalLayers : Int)
    (routes : List Route) :
    ∀ (i : Nat) (req : ShardExecutionRequest) (resp : ShardExecutionResponse) (state : W), good state →
      CutShort ctx.Caused later (s.executeRoutes ctx totalLayers i req resp routes state)
        (s.executeRoutes longer totalLayers i req resp routes state) := by
  induction routes with
  | nil =>
      intro i req resp state _
      exact .same _
  | cons route rest inductionHypothesis =>
      intro i req resp state isGood
      have called := stoppable.callRoute_goesOn longer totalLayers i route { req with shard := route.shard } isGood
      rw [executeRoutes_cons, executeRoutes_cons]
      apply (stoppable.callRoute_cut outlives totalLayers i route _ isGood).andThen
      · intro answer after returned
        rw [returned] at called
        exact inductionHypothesis (i + 1) _ _ after (stoppable.kept _ _ called isGood)
      · intro answer after returned
        rw [returned] at called
        exact stoppable.executeRoutes_goesOn longer totalLayers rest (i + 1) _ _ after
          (stoppable.kept _ _ called isGood)

theorem execute_goesOn (go : GoLib) (ctx : Ctx) (routes : List Route) (req : ShardExecutionRequest)
    (totalLayers : Int) {state : W} (isGood : good state) :
    later state (s.execute go ctx routes req totalLayers state).2 := by
  rw [execute]
  cases ctx.check 0 with
  | error err => exact Std.Refl.refl state
  | ok live =>
      dsimp only
      by_cases empty : routes.length = 0
      · rw [if_pos empty]
        exact Std.Refl.refl state
      · rw [if_neg empty]
        exact stoppable.executeRoutes_goesOn (ctx.call 1) totalLayers _ 0 req _ state isGood

theorem execute_cut (go : GoLib) {ctx longer : Ctx} (outlives : longer.Outlives ctx) (routes : List Route)
    (req : ShardExecutionRequest) (totalLayers : Int) {state : W} (isGood : good state) :
    CutShort ctx.Caused later (s.execute go ctx routes req totalLayers state)
      (s.execute go longer routes req totalLayers state) := by
  have onward := stoppable.execute_goesOn go longer routes req totalLayers isGood
  rw [execute]
  rcases outlives.check 0 with same | ⟨-, err, stops, caused⟩
  · rw [execute, same]
    cases ctx.check 0 with
    | error err => exact .same _
    | ok live =>
        dsimp only
        by_cases empty : routes.length = 0
        · rw [if_pos empty, if_pos empty]
          exact .same _
        · rw [if_neg empty, if_neg empty]
          exact (stoppable.executeRoutes_cut (outlives.call 1) totalLayers _ 0 req _ state isGood).mono
            Ctx.caused_of_call
  · rw [stops]
    exact .stopped caused onward

theorem decode_goesOn (go : GoLib) (ctx : Ctx) (routes : List Route) (base : ShardExecutionRequest)
    (totalLayers : Int) (project : TokenProjector) (remaining : Nat) :
    ∀ (step : Nat) (activation : List Float32Bits) (out : List Int) (state : W), good state →
      later state (s.decode go ctx routes base totalLayers project remaining step activation out state).2 := by
  induction remaining with
  | zero =>
      intro step activation out state _
      exact Std.Refl.refl state
  | succ remaining inductionHypothesis =>
      intro step activation out state isGood
      cases polled : ctx.check step with
      | error err =>
          rw [decode, polled]
          exact Std.Refl.refl state
      | ok live =>
          have executed := stoppable.execute_goesOn go (ctx.call step) routes
            { base with position := wrapInt (base.position + step), activation := activation } totalLayers isGood
          rw [decode_succ _ _ _ _ _ _ _ _ _ _ _ _ polled]
          apply later_andThen executed
          intro resp after returned
          rw [returned] at executed
          cases project resp.activation with
          | error err => exact Std.Refl.refl after
          | ok tok => exact inductionHypothesis (step + 1) _ _ after (stoppable.kept _ _ executed isGood)

theorem decode_cut (go : GoLib) {ctx longer : Ctx} (outlives : longer.Outlives ctx) (routes : List Route)
    (base : ShardExecutionRequest) (totalLayers : Int) (project : TokenProjector) (remaining : Nat) :
    ∀ (step : Nat) (activation : List Float32Bits) (out : List Int) (state : W), good state →
      CutShort ctx.Caused later
        (s.decode go ctx routes base totalLayers project remaining step activation out state)
        (s.decode go longer routes base totalLayers project remaining step activation out state) := by
  induction remaining with
  | zero =>
      intro step activation out state _
      exact .same _
  | succ remaining inductionHypothesis =>
      intro step activation out state isGood
      have onward := stoppable.decode_goesOn go longer routes base totalLayers project (remaining + 1) step
        activation out state isGood
      rcases outlives.check step with same | ⟨-, err, stops, caused⟩
      · cases polled : ctx.check step with
        | error err =>
            rw [decode, polled, decode, same.trans polled]
            exact .same _
        | ok live =>
            have executed := stoppable.execute_goesOn go (longer.call step) routes
              { base with position := wrapInt (base.position + step), activation := activation } totalLayers isGood
            rw [decode_succ _ _ _ _ _ _ _ _ _ _ _ _ polled,
              decode_succ _ _ _ _ _ _ _ _ _ _ _ _ (same.trans polled)]
            apply ((stoppable.execute_cut go (outlives.call step) routes _ totalLayers isGood).mono
              Ctx.caused_of_call).andThen
            · intro resp after returned
              rw [returned] at executed
              cases project resp.activation with
              | error err => exact .same _
              | ok tok => exact inductionHypothesis (step + 1) _ _ after (stoppable.kept _ _ executed isGood)
            · intro resp after returned
              rw [returned] at executed
              cases project resp.activation with
              | error err => exact Std.Refl.refl after
              | ok tok =>
                  exact stoppable.decode_goesOn go longer routes base totalLayers project remaining (step + 1) _ _
                    after (stoppable.kept _ _ executed isGood)
      · rw [decode, stops]
        exact .stopped caused onward

theorem generateTokens_goesOn (go : GoLib) (ctx : Ctx) (routes : List Route) (base : ShardExecutionRequest)
    (totalLayers maxTokens : Int) (project : Option TokenProjector) {state : W} (isGood : good state) :
    later state (s.generateTokens go ctx routes base totalLayers maxTokens project state).2 := by
  rw [generateTokens]
  cases checkGeneration base maxTokens project with
  | error err => exact Std.Refl.refl state
  | ok project =>
      exact stoppable.decode_goesOn go ctx routes base totalLayers project maxTokens.toNat 0 base.activation []
        state isGood

theorem generateTokens_cut (go : GoLib) {ctx longer : Ctx} (outlives : longer.Outlives ctx) (routes : List Route)
    (base : ShardExecutionRequest) (totalLayers maxTokens : Int) (project : Option TokenProjector) {state : W}
    (isGood : good state) :
    CutShort ctx.Caused later (s.generateTokens go ctx routes base totalLayers maxTokens project state)
      (s.generateTokens go longer routes base totalLayers maxTokens project state) := by
  rw [generateTokens, generateTokens]
  cases checkGeneration base maxTokens project with
  | error err => exact .same _
  | ok project =>
      exact stoppable.decode_cut go outlives routes base totalLayers project maxTokens.toNat 0 base.activation []
        state isGood

end Stoppable

end Simulator

/-! ### The calls of a stopped generation -/

/-- What was noted before comes first, and the state goes on. -/
def NotedLater (later : W → W → Prop) (before after : List ShardExecutionRequest × W) : Prop :=
  before.1 <+: after.1 ∧ later before.2 after.2

instance (later : W → W → Prop) [IsPreorder W later] :
    IsPreorder (List ShardExecutionRequest × W) (NotedLater later) where
  refl noted := ⟨List.prefix_rfl, Std.Refl.refl noted.2⟩
  trans _ _ _ first second := ⟨first.1.trans second.1, IsTrans.trans _ _ _ first.2 second.2⟩

theorem recorded_stoppable {later : W → W → Prop} {good : W → Prop} {worker : Worker W}
    (stoppable : Worker.Stoppable worker later good) :
    Worker.Stoppable (recorded worker) (NotedLater later) fun noted => good noted.2 := by
  constructor
  · rintro ctx req ⟨log, state⟩ isGood
    exact ⟨List.prefix_append log [req], stoppable.goesOn ctx req state isGood⟩
  · rintro ctx longer req ⟨log, state⟩ outlives isGood
    have called := stoppable.stops ctx longer req state outlives isGood
    dsimp only [recorded]
    generalize worker ctx req state = short at called ⊢
    generalize worker longer req state = full at called ⊢
    cases called with
    | same _ => exact .same _
    | stopped caused goesOn => exact .stopped caused ⟨List.prefix_rfl, goesOn⟩

theorem Simulator.Stoppable.recording {s : Simulator W} {later : W → W → Prop} {good : W → Prop}
    (stoppable : s.Stoppable later good) :
    s.recording.Stoppable (NotedLater later) fun noted => good noted.2 := by
  constructor
  · intro noted noted' goesOn isGood
    exact stoppable.kept _ _ goesOn.2 isGood
  · intro id worker found
    rw [s.lookup_recording, Option.map_eq_some_iff] at found
    obtain ⟨inner, found, rfl⟩ := found
    exact recorded_stoppable (stoppable.workers id inner found)

/-! ### Remote workers -/

/-- The context of a request at its server. It is cancelled only if the client gives up the request it is for; which
polls of the server find it so is left free. -/
def Ctx.ofRequest (ctx : Ctx) : Ctx := fun path =>
  if ctx [1] = none then none else (ctx (2 :: path)).map fun _ => .canceled

theorem Ctx.Outlives.ofRequest {ctx longer : Ctx} (outlives : longer.Outlives ctx) :
    longer.ofRequest.Outlives ctx.ofRequest := by
  intro path
  rw [Ctx.ofRequest, Ctx.ofRequest]
  rcases outlives [1] with live | same
  · exact Or.inl (if_pos live)
  · rw [same]
    rcases outlives (2 :: path) with live | sameThere
    · left
      rw [live, Option.map_none, ite_self]
    · right
      rw [sameThere]

/-- What each server of a network does with a request and its context. -/
abbrev Servers (W : Type) := Url → Option (Ctx → Handler W)

/-- The network as a client reaches it under a context. -/
def Servers.reachedUnder (servers : Servers W) (ctx : Ctx) : Network W := fun url =>
  (servers url).map fun server => server ctx.ofRequest

/-- A remote worker without a timeout of its own, whose servers run its requests under their contexts. -/
def RemoteShardWorker.linked (go : GoLib) (wire : WireLib) (servers : Servers W) (remote : RemoteShardWorker) :
    Worker W := fun ctx => remote.executeShard go wire (servers.reachedUnder ctx) ctx

/-- Some of them, as workers of a simulator. -/
def linkedWorkers (go : GoLib) (wire : WireLib) (servers : Servers W) (remotes : GoMap RemoteShardWorker) :
    GoMap (Worker W) :=
  ⟨remotes.entries.map (.map id fun _ remote => remote.linked go wire servers),
    remotes.nodupKeys.map₂ fun _ remote => remote.linked go wire servers⟩

/-- The context of a request only stops a server: it goes on from the states it finds, and under a context that
another one outlives it ends in a state the longer call goes on from. -/
structure HandlerStops (server : Ctx → Handler W) (later : W → W → Prop) (good : W → Prop) : Prop where
  goesOn : ∀ ctx r state, good state → later state (server ctx r state).2
  stops : ∀ (ctx longer : Ctx) r state, longer.Outlives ctx → good state →
    later (server ctx r state).2 (server longer r state).2

section Remote

variable {servers : Servers W} {later : W → W → Prop} [Std.Refl later] {good : W → Prop}

theorem clientDo_goesOn (stop : ∀ url server, servers url = some server → HandlerStops server later good) (ctx : Ctx)
    (r : HttpRequest) {state : W} (isGood : good state) :
    later state (clientDo (servers.reachedUnder ctx) ctx r state).2 := by
  rw [clientDo]
  cases ctx.check 0 with
  | error err => exact Std.Refl.refl state
  | ok live =>
      dsimp only
      split_ifs with invalid
      · exact Std.Refl.refl state
      · rw [Servers.reachedUnder]
        cases listening : servers r.url with
        | none => exact Std.Refl.refl state
        | some server =>
            have served := (stop r.url server listening).goesOn ctx.ofRequest r.delivered state isGood
            dsimp only [Option.map_some]
            cases ctx.check 1 with
            | error err => exact served
            | ok live => exact served

/-- A client that does not give up sees a server that is not stopped. -/
theorem ofRequest_of_check {ctx : Ctx} (live : ctx.check 1 = .ok ()) : ctx.ofRequest = .background := by
  have polled : ctx [1] = none := by
    cases answered : ctx [1] with
    | none => rfl
    | some err =>
        rw [Ctx.check, answered] at live
        cases live
  funext path
  exact if_pos polled

theorem clientDo_cut (stop : ∀ url server, servers url = some server → HandlerStops server later good)
    {ctx longer : Ctx} (outlives : longer.Outlives ctx) (r : HttpRequest) {state : W} (isGood : good state) :
    CutShort ctx.Caused later (clientDo (servers.reachedUnder ctx) ctx r state)
      (clientDo (servers.reachedUnder longer) longer r state) := by
  have onward := clientDo_goesOn stop longer r isGood
  rw [clientDo]
  rcases outlives.check 0 with same | ⟨-, err, stops, caused⟩
  · rw [clientDo, same]
    cases ctx.check 0 with
    | error err => exact .same _
    | ok live =>
        dsimp only
        split_ifs with invalid
        · exact .same _
        · rw [Servers.reachedUnder, Servers.reachedUnder]
          cases listening : servers r.url with
          | none => exact .same _
          | some server =>
              have served := (stop r.url server listening).stops _ _ r.delivered state outlives.ofRequest isGood
              dsimp only [Option.map_some]
              rcases outlives.check 1 with same | ⟨live, err, stops, caused⟩
              · rw [same]
                cases polled : ctx.check 1 with
                | error err =>
                    have caused : ctx.Caused err :=
                      ⟨[1], err, Simulator.check_eq_error polled, GoError.Is.refl err⟩
                    exact .stopped caused served
                | ok live =>
                    -- both clients hear a server that nobody stopped
                    rw [ofRequest_of_check polled, ofRequest_of_check (same.trans polled)]
                    exact .same _
              · rw [stops, live]
                exact .stopped caused served
  · rw [stops]
    exact .stopped caused onward

/-- A remote worker is stoppable if its servers are. -/
theorem linked_stoppable {go : GoLib} {wire : WireLib}
    (stop : ∀ url server, servers url = some server → HandlerStops server later good) (remote : RemoteShardWorker) :
    Worker.Stoppable (remote.linked go wire servers) later good := by
  constructor
  · intro ctx req state isGood
    rw [RemoteShardWorker.linked, RemoteShardWorker.executeShard]
    cases remote.newHttpRequest go wire req with
    | error err => exact Std.Refl.refl state
    | ok httpReq =>
        have called := clientDo_goesOn stop ctx httpReq isGood
        dsimp only
        rcases answered : clientDo (servers.reachedUnder ctx) ctx httpReq state with ⟨err | resp, after⟩
        · rw [answered] at called
          exact called
        · rw [answered] at called
          exact called
  · intro ctx longer req state outlives isGood
    rw [RemoteShardWorker.linked, RemoteShardWorker.linked, RemoteShardWorker.executeShard,
      RemoteShardWorker.executeShard]
    cases remote.newHttpRequest go wire req with
    | error err => exact .same _
    | ok httpReq =>
        have called := clientDo_cut stop outlives httpReq isGood
        dsimp only
        generalize clientDo (servers.reachedUnder ctx) ctx httpReq state = short at called ⊢
        generalize clientDo (servers.reachedUnder longer) longer httpReq state = full at called ⊢
        cases called with
        | same _ => exact .same _
        | stopped caused goesOn =>
            refine .stopped caused ?_
            rcases full with ⟨err | resp, after⟩
            · exact goesOn
            · exact goesOn

/-- A simulator over remote workers is stoppable if their servers are. -/
theorem linkedWorkers_stoppable {go : GoLib} {wire : WireLib}
    (stop : ∀ url server, servers url = some server → HandlerStops server later good)
    (kept : ∀ state state', later state state' → good state → good state') (remotes : GoMap RemoteShardWorker) :
    Simulator.Stoppable ⟨linkedWorkers go wire servers remotes⟩ later good := by
  refine ⟨kept, ?_⟩
  intro id worker found
  have looked : (linkedWorkers go wire servers remotes).lookup id =
      (remotes.lookup id).map fun remote => remote.linked go wire servers := List.dlookup_map₂ id
  rw [looked, Option.map_eq_some_iff] at found
  obtain ⟨remote, -, rfl⟩ := found
  exact linked_stoppable stop remote

end Remote

/-! ### Servers -/

/-- A request leaves the state of a server alone, or calls its shard worker once, under any context. -/
theorem Server.handleShardExecute_state (wire : WireLib) (s : Server W) (r : HttpRequest) :
    (∀ ctx state, (s.handleShardExecute wire ctx r state).2 = state) ∨
      ∃ worker req, s.shardWorker = some worker ∧
        ∀ ctx state, (s.handleShardExecute wire ctx r state).2 = (worker ctx req state).2 := by
  simp only [Server.handleShardExecute]
  by_cases method : r.method ≠ "POST"
  · simp only [if_pos method]
    exact Or.inl fun _ _ => trivial
  · simp only [if_neg method]
    cases s.shardWorker with
    | none => exact Or.inl fun _ _ => rfl
    | some worker =>
        dsimp only
        by_cases layers : s.totalLayers ≤ 0
        · simp only [if_pos layers]
          exact Or.inl fun _ _ => trivial
        · simp only [if_neg layers]
          cases readShardRequest wire s.totalLayers r with
          | error msg => exact Or.inl fun _ _ => rfl
          | ok req => exact Or.inr ⟨worker, req, rfl, fun _ _ => rfl⟩

/-- A server is stoppable if its shard worker is, and the handlers of its other paths go on from the states they
find. -/
theorem Server.stops {wire : WireLib} {s : Server W} {later : W → W → Prop} [Std.Refl later] {good : W → Prop}
    (stoppable : ∀ worker, s.shardWorker = some worker → Worker.Stoppable worker later good) {other : Handler W}
    (others : ∀ r state, good state → later state (other r state).2) :
    HandlerStops (fun ctx => s.handler wire ctx other) later good := by
  constructor
  · intro ctx r state isGood
    rw [Server.handler]
    split_ifs with path
    · rcases s.handleShardExecute_state wire r with alone | ⟨worker, req, wired, called⟩
      · rw [alone]
        exact Std.Refl.refl state
      · rw [called]
        exact (stoppable worker wired).goesOn ctx req state isGood
    · exact others r state isGood
  · intro ctx longer r state outlives isGood
    rw [Server.handler, Server.handler]
    split_ifs with path
    · rcases s.handleShardExecute_state wire r with alone | ⟨worker, req, wired, called⟩
      · rw [alone, alone]
        exact Std.Refl.refl state
      · rw [called, called]
        exact ((stoppable worker wired).stops ctx longer req state outlives isGood).state
    · exact Std.Refl.refl (other r state).2

/-- The servers of a network are servers of this program, with workers that a context only stops. -/
def RunWorkers (wire : WireLib) (servers : Servers W) (later : W → W → Prop) (good : W → Prop) : Prop :=
  ∀ url server, servers url = some server → ∃ (s : Server W) (other : Handler W),
    server = (fun ctx => s.handler wire ctx other) ∧
      (∀ worker, s.shardWorker = some worker → Worker.Stoppable worker later good) ∧
      ∀ r state, good state → later state (other r state).2

/-! ### Generation -/

/-- A context only stops the generation of a simulator. Under a context that another one outlives, generation
returns what it returns under the longer context and leaves the same state, or it fails with an error that wraps the
context's own, in a state the longer run goes on from; and the same holds with the worker calls noted, so those of
a stopped generation are the first ones of the longer run. -/
def Simulator.OnlyStops (go : GoLib) (s : Simulator W) (later : W → W → Prop) (good : W → Prop) : Prop :=
  ∀ (ctx longer : Ctx), longer.Outlives ctx → ∀ (routes : List Route) (base : ShardExecutionRequest)
    (totalLayers maxTokens : Int) (project : Option Simulator.TokenProjector) (state : W), good state →
    CutShort ctx.Caused later (s.generateTokens go ctx routes base totalLayers maxTokens project state)
        (s.generateTokens go longer routes base totalLayers maxTokens project state) ∧
      CutShort ctx.Caused (NotedLater later)
        (s.recording.generateTokens go ctx routes base totalLayers maxTokens project ([], state))
        (s.recording.generateTokens go longer routes base totalLayers maxTokens project ([], state))

theorem Simulator.Stoppable.onlyStops {s : Simulator W} {later : W → W → Prop} [IsPreorder W later]
    {good : W → Prop} (stoppable : s.Stoppable later good) (go : GoLib) : s.OnlyStops go later good := by
  intro ctx longer outlives routes base totalLayers maxTokens project state isGood
  constructor
  · exact stoppable.generateTokens_cut go outlives routes base totalLayers maxTokens project isGood
  · exact stoppable.recording.generateTokens_cut go outlives routes base totalLayers maxTokens project isGood

/-- A worker that counts how far it came: it polls its context before each half of its work. -/
def halvesWorker (peerID : String) : Worker Nat := fun ctx req done =>
  match ctx.check 0 with
  | .error err => (.error err, done)
  | .ok () =>
      match ctx.check 1 with
      | .error err => (.error err, done + 1)
      | .ok () =>
          (.ok ⟨req.sessionID, req.requestID, peerID, req.position, req.hiddenSize, req.activation⟩, done + 2)

theorem halvesWorker_stoppable (peerID : String) :
    Worker.Stoppable (halvesWorker peerID) (· ≤ ·) fun _ => True := by
  have goesOn : ∀ ctx req done, done ≤ (halvesWorker peerID ctx req done).2 := by
    intro ctx req done
    rw [halvesWorker]
    cases ctx.check 0 with
    | error err => exact le_refl done
    | ok live =>
        dsimp only
        cases ctx.check 1 with
        | error err => exact Nat.le_add_right done 1
        | ok live => exact Nat.le_add_right done 2
  constructor
  · exact fun ctx req done _ => goesOn ctx req done
  · intro ctx longer req done outlives _
    have onward := goesOn longer req done
    rw [halvesWorker]
    rcases outlives.check 0 with same | ⟨-, err, stops, caused⟩
    · rw [halvesWorker, same]
      cases ctx.check 0 with
      | error err => exact .same _
      | ok live =>
          dsimp only
          rcases outlives.check 1 with same | ⟨live, err, stops, caused⟩
          · rw [same]
            exact .same _
          · rw [stops, live]
            exact .stopped caused (Nat.add_le_add_left (by decide) done)
    · rw [stops]
      exact .stopped caused onward

/-- Every host runs a server with such a worker. -/
def halvesServers : Servers Nat := fun url => some fun ctx =>
  (shardServer (halvesWorker url.host) 3).handler .plain ctx fun _ state => (⟨404, [], []⟩, state)

/-- The client gives up its only request, and the server notices halfway. -/
def givenUpHalfway : Ctx := fun path => if path = [0, 1, 0, 1] ∨ path = [0, 1, 0, 2, 1] then some .canceled else none

/-- A token over the remote worker of one peer. -/
def halvesRun (ctx : Ctx) : Except GoError (List Int) × Nat :=
  Simulator.generateTokens .plain
    ⟨linkedWorkers .plain .plain halvesServers ((∅ : GoMap RemoteShardWorker).insert "a" ⟨"http://a"⟩)⟩ ctx
    [⟨ownDevicePeer "a", ⟨"a", 0, 2⟩⟩] (remoteRequest "r") 3 1 (some headToken) 0

theorem runWorkers_halvesServers : RunWorkers .plain halvesServers (· ≤ ·) fun _ => True := by
  intro url server listening
  rw [halvesServers, Option.some.injEq] at listening
  refine ⟨shardServer (halvesWorker url.host) 3, fun _ state => (⟨404, [], []⟩, state), listening.symm, ?_, ?_⟩
  · intro worker wired
    have isWorker : some (halvesWorker url.host) = some worker := wired
    rw [Option.some.injEq] at isWorker
    exact isWorker ▸ halvesWorker_stoppable url.host
  · exact fun _ state _ => le_refl state

end GoExotic
