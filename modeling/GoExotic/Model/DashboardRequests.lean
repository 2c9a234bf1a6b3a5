/-
Module: GoExotic.Model.DashboardRequests
Purpose: What the dashboard asks the server: the path each card makes of the controls, the request `fetch` sends
  for it, and what `getJSON` and `probeShardExecution` make of the response.
Trusted boundary: JSON.parse, the decoding of a body, and the texts of statuses
Main exports: BrowserLib, getJSON, probeShardExecution, fetchRequest, Controls, Card, Card.path
-/
import GoExotic.Model.Dashboard
import GoExotic.Model.WebAPI
import GoExotic.Theory.QueryString

namespace GoExotic

/-! ### Responses -/

/-- What the dashboard uses of the browser: the text of a body, `JSON.parse`, the field `error` of a parsed value,
empty where it has none, and the text of a status. -/
structure BrowserLib (V : Type) where
  text : List UInt8 → String
  parse : String → Option V
  errorOf : V → String
  statusText : Int → String

/-- The operator `||` on texts. -/
def orElse (a b : String) : String := if a = "" then b else a

/-- `parseJSON`: a text that is no JSON is `none`, and an empty text has no value. -/
def parseJSON {V : Type} (js : BrowserLib V) (text : String) : Option (Option V) :=
  if text = "" then some none else (js.parse text).map some

/-- The field `error` of what was parsed. -/
def parsedError {V : Type} (js : BrowserLib V) : Option (Option V) → String
  | some (some value) => js.errorOf value
  | _ => ""

/-- `ok` of a response. -/
def HttpResponse.ok (resp : HttpResponse) : Prop := 200 ≤ resp.status ∧ resp.status < 300

instance (resp : HttpResponse) : Decidable resp.ok := inferInstanceAs (Decidable (_ ∧ _))

/-- The number and the text of a status. -/
def statusLine {V : Type} (js : BrowserLib V) (status : Int) : String := toString status ++ " " ++ js.statusText status

/-- `getJSON`, for the response to its request. -/
def getJSON {V : Type} (js : BrowserLib V) (resp : HttpResponse) : Outcome V :=
  let text := js.text resp.body
  let parsed := parseJSON js text
  let apiError (message : String) := statusLine js resp.status ++ ": " ++ message
  if ¬ resp.ok then .error (apiError (orElse (orElse (parsedError js parsed) text) "request failed"))
  else
    match parsed with
    | none => .error (apiError "invalid JSON response")
    | some none => .error (apiError "empty JSON response")
    | some (some value) => .ok value

/-- `probeShardExecution`, for the response to its request. -/
def probeShardExecution {V : Type} (js : BrowserLib V) (resp : HttpResponse) : BoundaryStatus :=
  let text := js.text resp.body
  let detail := orElse (orElse (parsedError js (parseJSON js text)) text) (statusLine js resp.status)
  if resp.status = 503 then ⟨.disabled, detail⟩
  else if resp.status = 400 then ⟨.available, "Shard endpoint is wired and validating requests"⟩
  else if resp.ok then ⟨.available, detail⟩
  else ⟨.error, detail⟩

/-! ### Requests -/

/-- The request `fetch` sends for a path of the page's own server. -/
def fetchRequest (host method : String) (header : Header) (body : List UInt8) (path : String) : HttpRequest :=
  let target := path.toList.takeWhile fun c => c != '#'
  let query := (target.dropWhile fun c => c != '?').drop 1
  ⟨method, ⟨"http", host, String.ofList (target.takeWhile fun c => c != '?'),
    String.ofList (QueryString.encodeQuery query)⟩, header, body⟩

/-- The request of `getJSON`. -/
def fetchJSON (host path : String) : HttpRequest :=
  fetchRequest host "GET" [("accept", "application/json")] [] path

/-- The request of `probeShardExecution`. -/
def fetchProbe (host : String) : HttpRequest :=
  fetchRequest host "POST" [("content-type", "application/json"), ("accept", "application/json")]
    (Json.toBytes ['\x7b', '\x7d']) "/shards/execute"

/-- `encodeURIComponent`. -/
def encodeURIComponent (value : String) : String := String.ofList (QueryString.encodeComponent value.toList)

/-- A template literal, by its pieces. -/
def template (pieces : List String) : String := String.ofList (pieces.flatMap String.toList)

/-! ### Cards -/

/-- The text of a number: there is no character to escape in it but the plus of an exponent, which large numbers have,
and no plus in front. -/
structure NumberText where
  text : String
  plain : ∀ c ∈ text.toList, QueryString.unreserved c = true ∨ c = '+'
  unsigned : text.toList.head? ≠ some '+'

/-- The controls of `App`. -/
structure Controls where
  layers : NumberText
  model : String
  modelPath : String
  modelRoot : String
  modelLimit : NumberText

/-- The cards whose path depends on the controls. -/
inductive Card where
  | localModels
  | helpers
  | placement
  | routes
deriving DecidableEq, Repr

namespace Card

/-- What a card shows. -/
def Data : Card → Type
  | .localModels => LocalModelsResponse
  | .helpers => ModelHelperResponse
  | .placement => PlacementPreview
  | .routes => RoutePreview

/-- The path `App` gives to the hook of a card. -/
def path (c : Controls) : Card → String
  | .localModels => template ["/models/local?root=", encodeURIComponent c.modelRoot, "&limit=", c.modelLimit.text]
  | .helpers =>
      template ["/models/helpers?model=", encodeURIComponent c.model, "&path=", encodeURIComponent c.modelPath]
  | .placement => template ["/placement/preview?layers=", c.layers.text, "&model=", encodeURIComponent c.model]
  | .routes => template ["/routes/preview?layers=", c.layers.text, "&model=", encodeURIComponent c.model]

end Card

end GoExotic
