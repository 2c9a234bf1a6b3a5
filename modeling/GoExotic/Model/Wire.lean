/-
Module: GoExotic.Model.Wire
Purpose: What the model uses of packages encoding/json and net/http. JSON is a parameter; what a result
  needs of it is a hypothesis. Over HTTP a body arrives unchanged, and a header value without its leading
  and trailing whitespace.
Trusted boundary: encoding/json, net/http
Main exports: Reader, maxBytesReader, WireLib, WireLib.Lossless, WireLib.plain, HttpRequest, HttpResponse,
  Network, clientDo
-/
import GoExotic.Model.Protocol
import GoExotic.Theory.Json

namespace GoExotic

/-! ### Package encoding/json -/

/-- `io.EOF`. -/
def eof : GoError := .library "EOF"

/-- What a decoder reads from: the bytes, and the error behind the last of them. -/
structure Reader where
  bytes : List UInt8
  ending : GoError
deriving DecidableEq, Repr

/-- `http.MaxBytesReader` on a body. -/
def maxBytesReader (body : List UInt8) (limit : Nat) : Reader :=
  if body.length ≤ limit then ⟨body, eof⟩
  else ⟨body.take limit, .library "http: request body too large"⟩

/-- The library parameter: the text of an error, and JSON for each type the code puts on the wire. A
decoder of requests rejects unknown fields and leaves what follows the first value; a decoder of error
bodies leaves the map it was given, filled as far as it came. -/
structure WireLib where
  errorText : GoError → String
  marshalRequest : BridgeRequest → Except GoError (List UInt8)
  decodeRequest : Reader → Except GoError (BridgeRequest × Reader)
  decodeEmpty : Reader → Except GoError Unit
  encodeResponse : BridgeResponse → Except GoError (List UInt8)
  decodeResponse : Reader → Except GoError BridgeResponse
  encodeErrorBody : GoMap String → Except GoError (List UInt8)
  decodeErrorBody : Reader → GoMap String

/-- A value of type `int`. -/
def IsInt (n : Int) : Prop := minInt ≤ n ∧ n ≤ maxInt

instance (n : Int) : Decidable (IsInt n) := inferInstanceAs (Decidable (_ ∧ _))

/-- The integers of a bridge request are of type `int`. -/
def BridgeRequest.OfInts (r : BridgeRequest) : Prop :=
  IsInt r.shard.startLayer ∧ IsInt r.shard.endLayer ∧ IsInt r.position ∧ IsInt r.hiddenSize ∧
    IsInt r.activation.hiddenSize

/-- The integers of a bridge response are of type `int`. -/
def BridgeResponse.OfInts (r : BridgeResponse) : Prop :=
  IsInt r.position ∧ IsInt r.hiddenSize ∧ IsInt r.activation.hiddenSize

/-- JSON loses nothing of the two bridge forms, and their text is one value and nothing else. -/
structure WireLib.Lossless (wire : WireLib) : Prop where
  request : ∀ r : BridgeRequest, r.OfInts → ∃ body rest, wire.marshalRequest r = .ok body ∧
    wire.decodeRequest ⟨body, eof⟩ = .ok (r, rest) ∧ wire.decodeEmpty rest = .error eof
  response : ∀ r : BridgeResponse, r.OfInts → ∃ body, wire.encodeResponse r = .ok body ∧
    wire.decodeResponse ⟨body, eof⟩ = .ok r

/-! ### The JSON of the bridge -/

open Json

/-- `exotic.Shard` as JSON. -/
def shardCodec : Codec Shard :=
  ((Codec.string.field "device_id").comma
    ((Codec.int.field "start_layer").comma (Codec.int.field "end_layer"))).object.via
    (fun s => (s.deviceID, s.startLayer, s.endLayer)) (fun (id, first, last) => some ⟨id, first, last⟩)
    fun _ => rfl

/-- `ActivationPayload` as JSON. -/
def payloadCodec : Codec ActivationPayload :=
  ((Codec.string.field "encoding").comma
    ((Codec.int.field "hidden_size").comma (Codec.base64.field "data"))).object.via
    (fun p => (p.encoding, p.hiddenSize, p.data))
    (fun (encoding, hiddenSize, data) => some ⟨encoding, hiddenSize, data⟩)
    fun _ => rfl

/-- `ShardExecutionHTTPBridgeRequest` as JSON. -/
def requestCodec : Codec BridgeRequest :=
  ((Codec.string.field "session_id").comma ((Codec.string.field "request_id").comma
    ((Codec.string.field "model_id").comma ((shardCodec.field "shard").comma
      ((Codec.int.field "position").comma ((Codec.int.field "hidden_size").comma
        (payloadCodec.field "activation"))))))).object.via
    (fun r => (r.sessionID, r.requestID, r.modelID, r.shard, r.position, r.hiddenSize, r.activation))
    (fun (session, request, model, shard, position, hiddenSize, activation) =>
      some ⟨session, request, model, shard, position, hiddenSize, activation⟩)
    fun _ => rfl

/-- `ShardExecutionHTTPBridgeResponse` as JSON. -/
def responseCodec : Codec BridgeResponse :=
  ((Codec.string.field "session_id").comma ((Codec.string.field "request_id").comma
    ((Codec.string.field "peer_id").comma ((Codec.int.field "position").comma
      ((Codec.int.field "hidden_size").comma (payloadCodec.field "activation")))))).object.via
    (fun r => (r.sessionID, r.requestID, r.peerID, r.position, r.hiddenSize, r.activation))
    (fun (session, request, peer, position, hiddenSize, activation) =>
      some ⟨session, request, peer, position, hiddenSize, activation⟩)
    fun _ => rfl

/-- The error body of a failed request as JSON. -/
def errorBodyCodec : Codec String := (Codec.string.field "error").object

/-- The text of an argument of an error. -/
def FmtArg.text : FmtArg → String
  | .int value => toString value
  | .str value => value
  | .float _ => "float64"

/-- Put the texts of the arguments in the place of the verbs of a format. -/
def fillVerbs : List Char → List String → List Char
  | '%' :: _ :: format, arg :: args => arg.toList ++ fillVerbs format args
  | c :: format, args => c :: fillVerbs format args
  | [], _ => []

/-- The text of an error. -/
def GoError.text : GoError → String
  | .errorf format args => String.ofList (fillVerbs format.toList (args.map FmtArg.text))
  | .wrapf format args cause =>
      String.ofList (fillVerbs format.toList (args.map FmtArg.text ++ [cause.text]))
  | .canceled => "context canceled"
  | .deadlineExceeded => "context deadline exceeded"
  | .library text => text

/-- A decoder that reads the compact text of a codec. -/
def decodeWith {α : Type} (c : Codec α) (input : Reader) : Except GoError (α × Reader) :=
  match c.decode input.bytes with
  | some (value, rest) => .ok (value, ⟨rest, input.ending⟩)
  | none => .error (.library "invalid JSON value")

/-- A library that reads and writes compact JSON with the fields in their order. -/
def WireLib.plain : WireLib where
  errorText := GoError.text
  marshalRequest r := .ok (toBytes (requestCodec.write r))
  decodeRequest := decodeWith requestCodec
  decodeEmpty input := if input.bytes = [] then .error input.ending else .ok ()
  encodeResponse r := .ok (toBytes (responseCodec.write r ++ ['\n']))
  decodeResponse input := (decodeWith responseCodec input).map Prod.fst
  encodeErrorBody body := .ok (toBytes (errorBodyCodec.write (body.get "error" "") ++ ['\n']))
  decodeErrorBody input :=
    match decodeWith errorBodyCodec input with
    | .ok (text, _) => AList.insert "error" text ∅
    | .error _ => ∅

theorem decodeWith_toBytes {α : Type} (c : Codec α) (value : α) {rest : List Char}
    (delimited : Delimited rest) :
    decodeWith c ⟨toBytes (c.write value ++ rest), eof⟩ = .ok (value, ⟨toBytes rest, eof⟩) := by
  rw [decodeWith, c.decode_toBytes value delimited]

theorem WireLib.plain_marshalRequest (r : BridgeRequest) :
    WireLib.plain.marshalRequest r = .ok (toBytes (requestCodec.write r)) := rfl

theorem WireLib.plain_decodeRequest : WireLib.plain.decodeRequest = decodeWith requestCodec := rfl

theorem WireLib.plain_lossless : WireLib.plain.Lossless := by
  constructor
  · intro r _
    have read := decodeWith_toBytes requestCodec r Delimited.nil
    rw [List.append_nil] at read
    refine ⟨_, ⟨toBytes [], eof⟩, WireLib.plain_marshalRequest r, ?_, ?_⟩
    · rw [WireLib.plain_decodeRequest, read]
    · simp only [WireLib.plain, toBytes_nil, if_true]
  · intro r _
    have read := decodeWith_toBytes responseCodec r (Delimited.cons (by decide) [] : Delimited ['\n'])
    refine ⟨toBytes (responseCodec.write r ++ ['\n']), rfl, ?_⟩
    simp only [WireLib.plain, read, Except.map]

/-! ### Package net/http -/

/-- The values of the header fields a request carries, by name. -/
abbrev Header := List (String × String)

/-- `Header.Set`. -/
def Header.set (h : Header) (key value : String) : Header :=
  h.filter (fun field => field.1 ≠ key) ++ [(key, value)]

/-- `Header.Get`. -/
def Header.get (h : Header) (key : String) : String := (h.lookup key).getD ""

/-- The whitespace around a header value. -/
def isHeaderSpace (c : Char) : Bool := c == ' ' || c == '\t'

/-- A header value the client sends: no control character but the tab. -/
def validHeaderValue (value : String) : Bool :=
  value.toList.all fun c => (0x20 ≤ c.toNat && c.toNat ≠ 0x7f) || c == '\t'

/-- `http.Request`, with the fields this repository reads. -/
structure HttpRequest where
  method : String
  url : Url
  header : Header
  body : List UInt8

/-- `http.Response`, with the fields this repository reads. -/
structure HttpResponse where
  status : Int
  header : Header
  body : List UInt8

/-- A request as it arrives. -/
def HttpRequest.delivered (r : HttpRequest) : HttpRequest :=
  { r with header := r.header.map fun field => (field.1, trimBoth isHeaderSpace field.2) }

/-- `http.Handler`: the response, and the state after the call. -/
abbrev Handler (W : Type) := HttpRequest → W → HttpResponse × W

/-- The handler that answers at a URL, if a server listens there. -/
abbrev Network (W : Type) := Url → Option (Handler W)

variable {W : Type}

/-- `client.Do`: the context is polled before the request is sent and when the response is there. -/
def clientDo (net : Network W) (ctx : Ctx) (r : HttpRequest) (state : W) :
    Except GoError HttpResponse × W :=
  match ctx.check 0 with
  | .error err => (.error err, state)
  | .ok () =>
      if r.header.any fun field => !validHeaderValue field.2 then
        (.error (.library "net/http: invalid header field value"), state)
      else
        match net r.url with
        | none => (.error (.library "connection refused"), state)
        | some handler =>
            let (resp, state) := handler r.delivered state
            match ctx.check 1 with
            | .error err => (.error err, state)
            | .ok () => (.ok resp, state)

end GoExotic
