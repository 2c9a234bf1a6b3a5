/-
Module: GoExotic.Proofs.RemoteExecution
Purpose: Remote execution over HTTP. A valid request survives the bridge, JSON and the body limit, so the
  server calls its worker with exactly that request and the client returns exactly the worker's response,
  unless the header carries another request id than the body: HTTP strips the whitespace around a header
  value, and the server compares what is left with the id of the body.
Trusted boundary: encoding/json, through the hypothesis Lossless
Main exports: recorded, Reaches, Unpadded, newHttpRequest_eq, readShardRequest_delivered,
  executeShard_reaches, Transparent, remote_execution_transparent_iff
-/
import GoExotic.Model.RemoteWorker
import GoExotic.Model.Server
import GoExotic.Proofs.PlanValidation
import GoExotic.Proofs.Protocol

namespace GoExotic

/-! ### Trimming -/

/-- Trimming leaves nothing exactly of strings of dropped characters. -/
theorem trimBoth_eq_empty {drop : Char → Bool} {s : String} :
    trimBoth drop s = "" ↔ ∀ c ∈ s.toList, drop c = true := by
  rw [trimBoth, String.ofList_eq_empty_iff, List.rdropWhile_eq_nil_iff]
  constructor
  · intro rest c member
    have split : s.toList.takeWhile drop ++ s.toList.dropWhile drop = s.toList :=
      List.takeWhile_append_dropWhile
    rw [← split] at member
    rcases List.mem_append.mp member with front | back
    · exact List.mem_takeWhile_imp front
    · exact rest c back
  · intro all c member
    exact all c ((List.dropWhile_suffix drop).subset member)

/-- Trimming keeps exactly the strings with no dropped character at either end. -/
theorem trimBoth_eq_self {drop : Char → Bool} {s : String} :
    trimBoth drop s = s ↔
      (∀ c ∈ s.toList.head?, drop c = false) ∧ ∀ c ∈ s.toList.getLast?, drop c = false := by
  have onList : trimBoth drop s = s ↔ (s.toList.dropWhile drop).rdropWhile drop = s.toList := by
    rw [trimBoth]
    constructor
    · intro same
      rw [← String.toList_inj, String.toList_ofList] at same
      exact same
    · intro same
      rw [same, String.ofList_toList]
  have front : s.toList.dropWhile drop = s.toList ↔ ∀ c ∈ s.toList.head?, drop c = false := by
    cases s.toList with
    | nil => simp
    | cons c rest => simp [List.dropWhile_eq_self_iff]
  have back : s.toList.rdropWhile drop = s.toList ↔ ∀ c ∈ s.toList.getLast?, drop c = false := by
    rw [List.rdropWhile_eq_self_iff]
    by_cases empty : s.toList = []
    · simp [empty]
    · simp [List.getLast?_eq_some_getLast empty, empty]
  rw [onList, ← front, ← back]
  constructor
  · intro same
    -- both steps only shorten the list
    have kept : s.toList.dropWhile drop = s.toList := by
      apply (List.dropWhile_suffix drop).eq_of_length_le
      have shorter := (List.rdropWhile_prefix drop (s.toList.dropWhile drop)).length_le
      rw [same] at shorter
      exact shorter
    rw [kept] at same
    exact ⟨kept, same⟩
  · intro same
    rw [same.1, same.2]

/-- `unicode.IsControl`. -/
def isControl (c : Char) : Bool := c.toNat < 0x20 || (0x7f ≤ c.toNat && c.toNat ≤ 0x9f)

/-- The id has no space at either end. -/
def Unpadded (id : String) : Prop := id.toList.head? ≠ some ' ' ∧ id.toList.getLast? ≠ some ' '

instance (id : String) : Decidable (Unpadded id) := inferInstanceAs (Decidable (_ ∧ _))

/-- Of the characters that are no control characters, a header value loses only spaces. -/
theorem isHeaderSpace_of_not_control {c : Char} (printable : isControl c = false) :
    isHeaderSpace c = false ↔ c ≠ ' ' := by
  have notTab : c ≠ '\t' := by
    rintro rfl
    cases printable
  simp [isHeaderSpace, notTab]

/-- An id without control characters arrives in a header as it is, if no space is at either end. -/
theorem headerValue_eq_self {id : String} (printable : ∀ c ∈ id.toList, isControl c = false) :
    trimBoth isHeaderSpace id = id ↔ Unpadded id := by
  rw [trimBoth_eq_self, Unpadded]
  apply and_congr
  · cases first : id.toList.head? with
    | none => simp
    | some c =>
        have member : c ∈ id.toList := List.mem_of_head? first
        simp [isHeaderSpace_of_not_control (printable c member)]
  · cases last : id.toList.getLast? with
    | none => simp
    | some c =>
        have member : c ∈ id.toList := List.mem_of_getLast? last
        simp [isHeaderSpace_of_not_control (printable c member)]

/-- A string that is not blank leaves something in a header. -/
theorem headerValue_ne_empty {s : String} (nonblank : trimSpace s ≠ "") :
    trimBoth isHeaderSpace s ≠ "" := by
  intro empty
  apply nonblank
  apply trimBoth_eq_empty.mpr
  intro c member
  have space := trimBoth_eq_empty.mp empty c member
  rw [isHeaderSpace, Bool.or_eq_true, beq_iff_eq, beq_iff_eq] at space
  rcases space with rfl | rfl
  · decide
  · decide

/-! ### A worker behind a server -/

variable {W : Type}

/-- A worker that notes the requests it is called with. -/
def recorded (worker : Worker W) : Worker (List ShardExecutionRequest × W) := fun ctx req state =>
  let (result, inner) := worker ctx req state.2
  (result, state.1 ++ [req], inner)

/-- The endpoint of the remote worker is the base URL of a server with this handler. -/
def Reaches (go : GoLib) (net : Network W) (remote : RemoteShardWorker) (handler : Handler W) : Prop :=
  remote.base ≠ "" ∧ ∃ url, go.urlParse (remote.base ++ "/shards/execute") = some url ∧
    url.path = "/shards/execute" ∧ net url = some handler

/-- The JSON body of the request is within the limit of the server. -/
def BodyFits (wire : WireLib) (req : ShardExecutionRequest) : Prop :=
  ∀ bridge body, newBridgeRequest req = .ok bridge → wire.marshalRequest bridge = .ok body →
    body.length ≤ 64 * 2 ^ 20

/-- The server with shard execution by a worker, and nothing else. -/
def shardServer (worker : Worker W) (totalLayers : Int) : Server W :=
  newServer [some (withShardExecution (some worker) totalLayers)]

/-- A call of the worker went through: it was called once more, with the request, on the state it had,
and the result is its response, or an error where it failed. -/
structure Transparent (called : Except GoError ShardExecutionResponse × W) (req : ShardExecutionRequest)
    (log : List ShardExecutionRequest)
    (final : Except GoError ShardExecutionResponse × List ShardExecutionRequest × W) : Prop where
  calls : final.2.1 = log ++ [req]
  state : final.2.2 = called.2
  response : ∀ resp, called.1 = .ok resp → final.1 = .ok resp
  failure : ∀ err, called.1 = .error err → ∃ err', final.1 = .error err'

/-- The response is one the worker may give to the request. -/
structure Answers (req : ShardExecutionRequest) (resp : ShardExecutionResponse) : Prop where
  valid : resp.validate = .ok ()
  echoes : resp.requestID = req.requestID
  isInt : IsInt resp.position

section Call

variable {go : GoLib} {wire : WireLib} {remote : RemoteShardWorker} {req : ShardExecutionRequest}
  {totalLayers : Int}

/-- The sizes of a valid activation are of type `int`. -/
theorem activation_isInt {position hiddenSize : Int} {activation : List Float32Bits}
    (valid : validateActivation position hiddenSize activation = .ok ()) :
    IsInt hiddenSize ∧ IsInt activation.length := by
  obtain ⟨-, positive, bounded, same⟩ := validateActivation_eq_ok.mp valid
  have limit : (maxActivationElements : Int) = 16777216 := rfl
  have maximum := maxInt_lit
  have minimum := minInt_lit
  simp only [IsInt]
  omega

/-- The integers of a valid request are of type `int`. -/
theorem bridged_ofInts (valid : req.validate totalLayers = .ok ()) (total : IsInt totalLayers)
    (position : IsInt req.position) : req.bridged.OfInts := by
  obtain ⟨-, -, -, shard, activation⟩ := ShardExecutionRequest.validate_eq_ok.mp valid
  obtain ⟨-, -, start, nonempty, below⟩ := Shard.validate_eq_ok.mp shard
  obtain ⟨hiddenSize, length⟩ := activation_isInt activation
  have minimum := minInt_lit
  have inside : ∀ layer : Int, 0 ≤ layer → layer < totalLayers → IsInt layer := by
    intro layer above less
    exact ⟨by omega, less.le.trans total.2⟩
  have first : IsInt req.shard.startLayer := inside _ start (nonempty.trans_lt below)
  have last : IsInt req.shard.endLayer := inside _ (start.trans nonempty) below
  exact ⟨first, last, position, hiddenSize, length⟩

/-- The integers of a response the worker may give are of type `int`. -/
theorem response_bridged_ofInts {resp : ShardExecutionResponse} (answers : Answers req resp) :
    resp.bridged.OfInts := by
  obtain ⟨-, -, -, activation⟩ := ShardExecutionResponse.validate_eq_ok.mp answers.valid
  obtain ⟨hiddenSize, length⟩ := activation_isInt activation
  exact ⟨answers.isInt, hiddenSize, length⟩

/-- The HTTP request that carries a request. -/
def shardHttpRequest (url : Url) (req : ShardExecutionRequest) (body : List UInt8) : HttpRequest :=
  ⟨"POST", url, [("Content-Type", "application/json"), (shardRequestIDHeader, req.requestID)], body⟩

/-- When it arrives, its header holds the request id without the spaces around it. -/
theorem delivered_requestID (url : Url) (req : ShardExecutionRequest) (body : List UInt8) :
    (shardHttpRequest url req body).delivered.header.get "X-Go-Exotic-Request-ID" =
      trimBoth isHeaderSpace req.requestID := rfl

/-- The HTTP request of a valid request, and what a server decodes of it. -/
theorem newHttpRequest_eq (lossless : wire.Lossless) (valid : req.validate totalLayers = .ok ())
    (total : IsInt totalLayers) (position : IsInt req.position) (fits : BodyFits wire req)
    (based : remote.base ≠ "") {url : Url}
    (parsed : go.urlParse (remote.base ++ "/shards/execute") = some url) :
    ∃ body rest, remote.newHttpRequest go wire req = .ok (shardHttpRequest url req body) ∧
      wire.decodeRequest (maxBytesReader body (64 * 2 ^ 20)) = .ok (req.bridged, rest) ∧
      wire.decodeEmpty rest = .error eof := by
  obtain ⟨-, -, -, -, activation⟩ := ShardExecutionRequest.validate_eq_ok.mp valid
  have bridge := newBridgeRequest_eq activation
  obtain ⟨body, rest, marshalled, decoded, single⟩ :=
    lossless.request req.bridged (bridged_ofInts valid total position)
  have within := fits req.bridged body bridge marshalled
  refine ⟨body, rest, ?_, ?_, single⟩
  · rw [RemoteShardWorker.newHttpRequest, failIf_of_not based, ok_bind, bridge, ok_bind, marshalled,
      ok_bind, parsed]
    rfl
  · rw [maxBytesReader, if_pos within]
    exact decoded

/-- The server reads the request back exactly if the id in the header is the id of the request. -/
theorem readShardRequest_eq (valid : req.validate totalLayers = .ok ()) {r : HttpRequest} {rest : Reader}
    (decoded : wire.decodeRequest (maxBytesReader r.body (64 * 2 ^ 20)) = .ok (req.bridged, rest))
    (single : wire.decodeEmpty rest = .error eof)
    (named : r.header.get "X-Go-Exotic-Request-ID" ≠ "") :
    readShardRequest wire totalLayers r =
      if r.header.get "X-Go-Exotic-Request-ID" = req.requestID then .ok req
      else .error "request id header mismatch" := by
  obtain ⟨-, -, -, -, activation⟩ := ShardExecutionRequest.validate_eq_ok.mp valid
  rw [readShardRequest, decoded]
  dsimp only
  rw [if_neg (not_not.mpr single), shardExecutionRequest_bridged activation]
  dsimp only
  by_cases same : r.header.get "X-Go-Exotic-Request-ID" = req.requestID
  · rw [if_neg (fun mismatch => mismatch.2 same), if_pos same, valid]
  · rw [if_pos ⟨named, same⟩, if_neg same]

/-- A response that is not OK is an error. -/
theorem readHttpResponse_failed {resp : HttpResponse} (failed : resp.status ≠ 200) :
    ∃ err, readHttpResponse wire req resp = .error err := by
  rw [readHttpResponse, failIf, if_pos failed]
  exact ⟨_, rfl⟩

/-- The client reads the response of the worker back. -/
theorem readHttpResponse_returned (lossless : wire.Lossless) {resp : ShardExecutionResponse}
    (answers : Answers req resp) :
    readHttpResponse wire req (writeShardResponse wire (.ok resp)) = .ok resp := by
  obtain ⟨-, -, -, activation⟩ := ShardExecutionResponse.validate_eq_ok.mp answers.valid
  obtain ⟨body, encoded, decoded⟩ := lossless.response resp.bridged (response_bridged_ofInts answers)
  have written : writeShardResponse wire (.ok resp) =
      ⟨200, Header.set [] "Content-Type" "application/json", body⟩ := by
    simp only [writeShardResponse, answers.valid, newBridgeResponse_eq activation, encoded, writeJSON]
  rw [written, readHttpResponse]
  dsimp only
  rw [failIf_of_not (not_not.mpr rfl), ok_bind, decoded, ok_bind,
    shardExecutionResponse_bridged activation, ok_bind, failIf_of_not (not_not.mpr answers.echoes),
    ok_bind]
  rfl

/-- A request with printable headers reaches the handler of its URL. -/
theorem clientDo_delivered {net : Network W} {ctx : Ctx} (live : ctx.check 0 = .ok () ∧ ctx.check 1 = .ok ())
    {r : HttpRequest} (printable : ∀ field ∈ r.header, validHeaderValue field.2 = true)
    {handler : Handler W} (listening : net r.url = some handler) (state : W) :
    clientDo net ctx r state = (.ok (handler r.delivered state).1, (handler r.delivered state).2) := by
  have sendable : ¬ (r.header.any fun field => !validHeaderValue field.2) = true := by
    intro bad
    obtain ⟨field, member, invalid⟩ := List.any_eq_true.mp bad
    rw [printable field member] at invalid
    cases invalid
  rw [clientDo, live.1]
  dsimp only
  rw [if_neg sendable, listening]
  dsimp only
  rw [live.2]

/-- A string without control characters is a valid header value. -/
theorem validHeaderValue_of_printable {s : String} (printable : ∀ c ∈ s.toList, isControl c = false) :
    validHeaderValue s = true := by
  rw [validHeaderValue, List.all_eq_true]
  intro c member
  have noControl := printable c member
  simp only [isControl, Bool.or_eq_false_iff, Bool.and_eq_false_iff, decide_eq_false_iff_not, not_lt,
    not_le] at noControl
  have visible : 0x20 ≤ c.toNat ∧ c.toNat ≠ 0x7f := by omega
  simp [visible.1, visible.2]

/-- A server with a worker and layers answers a POST by the request it reads. -/
theorem handleShardExecute_post {worker : Worker W} {ctx : Ctx} {r : HttpRequest}
    (post : r.method = "POST") (positive : 0 < totalLayers) (state : W) :
    (shardServer worker totalLayers).handleShardExecute wire ctx r state =
      match readShardRequest wire totalLayers r with
      | .error msg => (writeError wire 400 [] msg, state)
      | .ok req => (writeShardResponse wire (worker ctx req state).1, (worker ctx req state).2) := by
  have layers : ¬ totalLayers ≤ 0 := not_le.mpr positive
  rw [Server.handleShardExecute, if_neg (not_not.mpr post)]
  simp only [shardServer, newServer, withShardExecution, List.foldl_cons, List.foldl_nil]
  exact if_neg layers

/-- What a remote call does: with an unpadded id the worker is called and its result written and read
back, and otherwise the server refuses the request. -/
theorem executeShard_reaches (lossless : wire.Lossless) {net : Network (List ShardExecutionRequest × W)}
    {worker : Worker W} {serverCtx ctx : Ctx} {other : Handler (List ShardExecutionRequest × W)}
    (reaches : Reaches go net remote
      ((shardServer (recorded worker) totalLayers).handler wire serverCtx other))
    (live : ctx.check 0 = .ok () ∧ ctx.check 1 = .ok ()) (valid : req.validate totalLayers = .ok ())
    (total : IsInt totalLayers) (position : IsInt req.position)
    (printable : ∀ c ∈ req.requestID.toList, isControl c = false) (fits : BodyFits wire req)
    (log : List ShardExecutionRequest) (state : W) :
    remote.executeShard go wire net ctx req (log, state) =
      if Unpadded req.requestID then
        (readHttpResponse wire req (writeShardResponse wire (worker serverCtx req state).1),
          log ++ [req], (worker serverCtx req state).2)
      else
        (readHttpResponse wire req (writeError wire 400 [] "request id header mismatch"), log, state) := by
  obtain ⟨based, url, parsed, path, listening⟩ := reaches
  obtain ⟨body, rest, sent, decoded, single⟩ :=
    newHttpRequest_eq lossless valid total position fits based parsed
  obtain ⟨-, nonblank, -, shard, -⟩ := ShardExecutionRequest.validate_eq_ok.mp valid
  obtain ⟨-, positive, -⟩ := Shard.validate_eq_ok.mp shard
  have sendable : ∀ field ∈ (shardHttpRequest url req body).header,
      validHeaderValue field.2 = true := by
    intro field member
    rcases List.mem_pair.mp member with rfl | rfl
    · decide
    · exact validHeaderValue_of_printable printable
  have named := headerValue_ne_empty nonblank
  rw [← delivered_requestID url req body] at named
  have answered : ((shardServer (recorded worker) totalLayers).handler wire serverCtx other)
      (shardHttpRequest url req body).delivered (log, state) =
        (shardServer (recorded worker) totalLayers).handleShardExecute wire serverCtx
          (shardHttpRequest url req body).delivered (log, state) := by
    rw [Server.handler]
    exact congrFun (if_pos path) (log, state)
  rw [RemoteShardWorker.executeShard, sent]
  dsimp only
  rw [clientDo_delivered live sendable listening, answered,
    handleShardExecute_post rfl positive, readShardRequest_eq valid decoded single named,
    delivered_requestID, if_congr (headerValue_eq_self printable) rfl rfl]
  by_cases unpadded : Unpadded req.requestID
  · rw [if_pos unpadded, if_pos unpadded]
    rfl
  · rw [if_neg unpadded, if_neg unpadded]

end Call

/-! ### Transparency -/

/-- Remote execution is transparent exactly for request ids with no space at either end. For every valid
request without control characters in its id whose body fits the limit, and every worker that fails or
answers it validly, the worker is called exactly once, with exactly that request, and its response or
failure comes back, if and only if the id is unpadded. -/
theorem remote_execution_transparent_iff (go : GoLib) (wire : WireLib) (lossless : wire.Lossless)
    (net : Network (List ShardExecutionRequest × W)) (remote : RemoteShardWorker) (worker : Worker W)
    (totalLayers : Int) (serverCtx : Ctx) (other : Handler (List ShardExecutionRequest × W))
    (reaches : Reaches go net remote
      ((shardServer (recorded worker) totalLayers).handler wire serverCtx other))
    (ctx : Ctx) (live : ctx.check 0 = .ok () ∧ ctx.check 1 = .ok ()) (req : ShardExecutionRequest)
    (valid : req.validate totalLayers = .ok ()) (total : IsInt totalLayers) (position : IsInt req.position)
    (printable : ∀ c ∈ req.requestID.toList, isControl c = false) (fits : BodyFits wire req)
    (log : List ShardExecutionRequest) (state : W)
    (answers : ∀ resp, (worker serverCtx req state).1 = .ok resp → Answers req resp) :
    Transparent (worker serverCtx req state) req log
        (remote.executeShard go wire net ctx req (log, state)) ↔
      Unpadded req.requestID := by
  rw [executeShard_reaches lossless reaches live valid total position printable fits log state]
  by_cases unpadded : Unpadded req.requestID
  · rw [if_pos unpadded]
    constructor
    · intro _
      exact unpadded
    · intro _
      constructor
      · rfl
      · rfl
      · intro resp answered
        rw [answered]
        exact readHttpResponse_returned lossless (answers resp answered)
      · intro err failed
        rw [failed]
        exact readHttpResponse_failed (by decide : (500 : Int) ≠ 200)
  · rw [if_neg unpadded]
    constructor
    · intro transparent
      -- the refused request never reached the worker
      exact absurd transparent.calls (by simp)
    · intro is
      exact absurd is unpadded

/-- A worker that returns the activation it is given. -/
def echoWorker : Worker Unit := fun _ req state =>
  (.ok ⟨req.sessionID, req.requestID, req.shard.deviceID, req.position, req.hiddenSize, req.activation⟩,
    state)

/-- A network with one server, whatever the URL. -/
def loopback (totalLayers : Int) : Network (List ShardExecutionRequest × Unit) := fun _ =>
  some ((shardServer (recorded echoWorker) totalLayers).handler .plain .background
    fun _ state => (⟨404, [], []⟩, state))

/-- A request for the only layer. -/
def remoteRequest (requestID : String) : ShardExecutionRequest :=
  ⟨"s", requestID, "m", ⟨"p", 0, 0⟩, 0, 1, [0x3f800000]⟩

theorem loopback_reaches (totalLayers : Int) :
    Reaches .plain (loopback totalLayers) ⟨"http://h/"⟩
      ((shardServer (recorded echoWorker) totalLayers).handler .plain .background
        fun _ state => (⟨404, [], []⟩, state)) :=
  ⟨by decide, ⟨"http", "h", "/shards/execute", ""⟩, by decide, rfl, rfl⟩

theorem remoteRequest_valid (requestID : String) (nonblank : trimSpace requestID ≠ "") :
    (remoteRequest requestID).validate 1 = .ok () :=
  ShardExecutionRequest.validate_eq_ok.mpr
    ⟨(by decide : trimSpace "s" ≠ ""), nonblank, (by decide : trimSpace "m" ≠ ""), rfl, rfl⟩

theorem echoWorker_answers (requestID : String) (nonblank : trimSpace requestID ≠ "") :
    ∀ resp, (echoWorker .background (remoteRequest requestID) ()).1 = .ok resp →
      Answers (remoteRequest requestID) resp := by
  intro resp answered
  cases answered
  constructor
  · exact ShardExecutionResponse.validate_eq_ok.mpr
      ⟨(by decide : trimSpace "s" ≠ ""), nonblank, (by decide : trimSpace "p" ≠ ""), rfl⟩
  · rfl
  · exact (by decide : IsInt 0)

theorem bodyFits_of_length {req : ShardExecutionRequest}
    (valid : validateActivation req.position req.hiddenSize req.activation = .ok ())
    (short : (Json.toBytes (requestCodec.write req.bridged)).length ≤ 64 * 2 ^ 20) :
    BodyFits .plain req := by
  intro bridge body made marshalled
  rw [newBridgeRequest_eq valid, Except.ok.injEq] at made
  subst made
  rw [WireLib.plain_marshalRequest, Except.ok.injEq] at marshalled
  rw [← marshalled]
  exact short

/-- A valid request whose id starts with a space is refused, and the worker is never called. -/
theorem padded_request_refused :
    (remoteRequest " r").validate 1 = .ok () ∧
      (∀ c ∈ (remoteRequest " r").requestID.toList, isControl c = false) ∧
      BodyFits .plain (remoteRequest " r") ∧
      (∀ resp, (echoWorker .background (remoteRequest " r") ()).1 = .ok resp →
        Answers (remoteRequest " r") resp) ∧
      (∃ err, (RemoteShardWorker.executeShard .plain .plain (loopback 1) ⟨"http://h/"⟩ .background
        (remoteRequest " r") ([], ())).1 = .error err) ∧
      (RemoteShardWorker.executeShard .plain .plain (loopback 1) ⟨"http://h/"⟩ .background
        (remoteRequest " r") ([], ())).2 = ([], ()) := by
  have valid : (remoteRequest " r").validate 1 = .ok () := remoteRequest_valid " r" (by decide)
  have printable : ∀ c ∈ (remoteRequest " r").requestID.toList, isControl c = false := by
    intro c member
    rcases List.mem_pair.mp (member : c ∈ [' ', 'r']) with rfl | rfl
    · rfl
    · rfl
  have fits : BodyFits .plain (remoteRequest " r") := bodyFits_of_length rfl (by decide +kernel)
  have live : Ctx.background.check 0 = .ok () ∧ Ctx.background.check 1 = .ok () := ⟨rfl, rfl⟩
  have refused := executeShard_reaches WireLib.plain_lossless (loopback_reaches 1) live valid
    (by decide) (by decide) printable fits [] ()
  rw [if_neg (by decide)] at refused
  refine ⟨valid, printable, fits, echoWorker_answers " r" (by decide), ?_, ?_⟩
  · rw [refused]
    exact readHttpResponse_failed (by decide : (400 : Int) ≠ 200)
  · rw [refused]

/-- A request with the id `r` gets through. -/
theorem remote_execution_transparent_r :
    Transparent (echoWorker .background (remoteRequest "r") ()) (remoteRequest "r") []
      (RemoteShardWorker.executeShard .plain .plain (loopback 1) ⟨"http://h/"⟩ .background
        (remoteRequest "r") ([], ())) := by
  have printable : ∀ c ∈ (remoteRequest "r").requestID.toList, isControl c = false := by
    intro c member
    cases List.mem_singleton.mp (member : c ∈ ['r'])
    rfl
  apply (remote_execution_transparent_iff .plain .plain WireLib.plain_lossless (loopback 1) ⟨"http://h/"⟩
    echoWorker 1 .background _ (loopback_reaches 1) .background ⟨rfl, rfl⟩ (remoteRequest "r")
    (remoteRequest_valid "r" (by decide)) (by decide) (by decide) printable
    (bodyFits_of_length rfl (by decide +kernel)) [] () (echoWorker_answers "r" (by decide))).mpr
  decide

end GoExotic
