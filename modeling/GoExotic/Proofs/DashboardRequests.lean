/-
Module: GoExotic.Proofs.DashboardRequests
Purpose: What a card shows is what the server computes for the controls. The path a card makes of the controls
  arrives with every text as it was typed, whatever letters it has, and with every number as one that the server
  reads alike, though a plus in it arrives as a space; so in any run of a card, all data it ever shows are
  computed for controls it was rendered with, and once its effects have run and the last request is answered it
  shows the result for the controls as they are. The boundary card tells what `/ui/status` tells.
Trusted boundary: net/url and net/http's mux, through the hypotheses ReadsQueries and routed; JSON, through
  Understands
Main exports: NumberText.atoi_received, ReadsQueries, Understands, Card.expected, serveHTTP_card,
  card_shows_expected, serveHTTP_probe, boundary_card_agrees
-/
import GoExotic.Model.DashboardRequests
import GoExotic.Proofs.ConcurrentServer
import GoExotic.Proofs.Dashboard
import GoExotic.Proofs.PreviewEndpoints

namespace GoExotic

open QueryString Runs

/-! ### Numbers -/

namespace NumberText

/-- A number in a query. -/
def component (n : NumberText) : Component := .raw n.text.toList n.plain

/-- What a server reads of it. -/
def received (n : NumberText) : String := String.ofList (Component.received n.text.toList)

/-- A text with a character that is no digit has no value. -/
theorem decimalValue_none {text : List Char} {c : Char} (member : c ∈ text) (noDigit : c.isDigit = false) :
    decimalValue text = none := by
  have notAll : ¬ text.all Char.isDigit := by
    intro digits
    have isDigit := List.all_eq_true.mp digits c member
    rw [noDigit] at isDigit
    cases isDigit
  exact if_pos (Or.inr notAll)

/-- No number has a character behind its first one that is no digit. -/
theorem atoi_none {first c : Char} {rest : List Char} (noPlus : first ≠ '+') (member : c ∈ rest)
    (noDigit : c.isDigit = false) : atoi (String.ofList (first :: rest)) = none := by
  have noTail := decimalValue_none member noDigit
  have noWhole : decimalValue (first :: rest) = none := decimalValue_none (List.mem_cons_of_mem first member) noDigit
  rw [atoi, String.toList_ofList]
  split
  · rename_i same
    rw [← List.tail_eq_of_cons_eq same, noTail]
    rfl
  · rename_i same
    exact absurd (List.head_eq_of_cons_eq same) noPlus
  · rw [noWhole]
    rfl

/-- A number that is read with a space in it is none, and was none as it was written. -/
theorem received_eq_or (n : NumberText) : n.received = n.text ∨
    (n.received ≠ "" ∧ n.text ≠ "" ∧ atoi n.received = none ∧ atoi n.text = none) := by
  by_cases plus : '+' ∈ n.text.toList
  · right
    cases letters : n.text.toList with
    | nil =>
        rw [letters] at plus
        cases plus
    | cons first rest =>
        have noPlus : first ≠ '+' := by
          have unsigned := n.unsigned
          rw [letters] at unsigned
          exact fun isPlus => unsigned (congrArg some isPlus)
        rw [letters] at plus
        have inRest : '+' ∈ rest := (List.mem_cons.mp plus).resolve_left fun same => noPlus same.symm
        have isText : n.text = String.ofList (first :: rest) := by
          rw [← letters, String.ofList_toList]
        have isReceived : n.received = String.ofList (first :: Component.received rest) := by
          rw [received, letters, Component.received, List.map_cons, if_neg noPlus, Component.received]
        have space : ' ' ∈ Component.received rest := List.mem_map.mpr ⟨'+', inRest, rfl⟩
        have nonempty : ∀ others : List Char, String.ofList (first :: others) ≠ "" := by
          intro others empty
          have noLetters := congrArg String.toList empty
          rw [String.toList_ofList] at noLetters
          cases noLetters
        rw [isText, isReceived]
        exact ⟨nonempty _, nonempty _, atoi_none noPlus space rfl, atoi_none noPlus inRest rfl⟩
  · left
    rw [received, Component.received_of_notMem plus, String.ofList_toList]

theorem atoi_received (n : NumberText) : atoi n.received = atoi n.text := by
  rcases n.received_eq_or with same | ⟨-, -, isNone, wasNone⟩
  · rw [same]
  · rw [isNone, wasNone]

theorem inventoryLimit_received (n : NumberText) : inventoryLimit n.received = inventoryLimit n.text := by
  rcases n.received_eq_or with same | ⟨given, wasGiven, isNone, wasNone⟩
  · rw [same]
  · rw [inventoryLimit, inventoryLimit, if_neg given, if_neg wasGiven, isNone, wasNone]

end NumberText

/-! ### Requests of cards -/

namespace Card

/-- A name and a value to ask with. -/
def asked (name : String) (value : Component) : Component × Component := (.encoded name.toList, value)

/-- The handler of a card. -/
def view : Card → View
  | .localModels => .localModels
  | .helpers => .modelHelpers
  | .placement => .placementPreview
  | .routes => .routesPreview

/-- The names and values a card asks with. Texts are encoded, and numbers are written as they are. -/
def pairs (c : Controls) : Card → List (Component × Component)
  | .localModels => [asked "root" (.encoded c.modelRoot.toList), asked "limit" c.modelLimit.component]
  | .helpers => [asked "model" (.encoded c.model.toList), asked "path" (.encoded c.modelPath.toList)]
  | .placement => [asked "layers" c.layers.component, asked "model" (.encoded c.model.toList)]
  | .routes => [asked "layers" c.layers.component, asked "model" (.encoded c.model.toList)]

/-- The path of a card is its pattern and its query. -/
theorem path_toList (c : Controls) (card : Card) :
    (card.path c).toList = (Endpoint.view card.view).pattern.toList ++ '?' :: build (card.pairs c) := by
  have plain : ["root", "limit", "model", "path", "layers"].all (fun name => name.toList.all unreserved) = true := by
    decide +kernel
  have names : ∀ name ∈ ["root", "limit", "model", "path", "layers"],
      encodeComponent name.toList = name.toList := fun name member =>
    encodeComponent_plain (List.all_eq_true.mp (List.all_eq_true.mp plain name member))
  cases card
  all_goals
    simp only [path, template, pairs, asked, build, encodeURIComponent, String.toList_ofList, List.flatMap_cons,
      List.flatMap_nil, List.map_cons, List.map_nil, List.intercalate_cons_cons, List.intercalate_singleton,
      pairText, Component.encoded, NumberText.component, Component.raw, names "root" (by decide),
      names "limit" (by decide), names "model" (by decide), names "path" (by decide), names "layers" (by decide)]
    simp [view, Endpoint.pattern]

end Card

/-- A path without a fragment is cut where its query begins. -/
theorem fetchRequest_query {host method : String} {header : Header} {body : List UInt8} {path pattern : String}
    {query : List Char} (isPath : path.toList = pattern.toList ++ '?' :: query)
    (plain : pattern.toList.all (fun c => c != '?' && c != '#') = true) (noFragment : '#' ∉ query) :
    fetchRequest host method header body path =
      ⟨method, ⟨"http", host, pattern, String.ofList (encodeQuery query)⟩, header, body⟩ := by
  have beforeQuery : ∀ c ∈ pattern.toList, (c != '?') = true := by
    intro c member
    exact (Bool.and_eq_true_iff.mp (List.all_eq_true.mp plain c member)).1
  have whole : path.toList.takeWhile (fun c => c != '#') = path.toList := by
    rw [List.takeWhile_eq_self_iff, isPath]
    intro c member
    rcases List.mem_append.mp member with inPattern | later
    · exact (Bool.and_eq_true_iff.mp (List.all_eq_true.mp plain c inPattern)).2
    · rcases List.mem_cons.mp later with rfl | inQuery
      · rfl
      · exact Spans.forall_ne_of_notMem noFragment c inQuery
  have cut : ∀ rest, (pattern.toList ++ '?' :: rest).span (fun c => c != '?') = (pattern.toList, '?' :: rest) :=
    fun rest => Spans.span_append beforeQuery fun c isHead => by cases isHead; rfl
  have parts := cut query
  rw [List.span_eq_takeWhile_dropWhile, Prod.mk.injEq] at parts
  rw [fetchRequest, whole, isPath, parts.1, parts.2, String.ofList_toList]
  rfl

namespace Card

/-- The request of a card: its values are in the query. -/
theorem fetchJSON_path (host : String) (c : Controls) (card : Card) :
    fetchJSON host (card.path c) =
      ⟨"GET", ⟨"http", host, (Endpoint.view card.view).pattern, String.ofList (encodeQuery (build (card.pairs c)))⟩,
        [("accept", "application/json")], []⟩ := by
  apply fetchRequest_query (card.path_toList c)
  · cases card <;> decide +kernel
  · exact notMem_build _

end Card

/-! ### What is read of a query -/

/-- Queries are read as they are sent: where all of a query can be read, the value of a name is the first one the
query has for it, and empty if it has none. -/
def ReadsQueries (queryGet : Url → String → String) : Prop :=
  ∀ url key, (∀ piece ∈ url.rawQuery.toList.splitOn '&', (parsePair piece).isSome) →
    queryGet url key = String.ofList (((parse url.rawQuery.toList).lookup key.toList).getD [])

/-- Every value of a card arrives as its field is read. -/
theorem Card.queryGet_fetchJSON {queryGet : Url → String → String} (reads : ReadsQueries queryGet) (host : String)
    (c : Controls) (card : Card) (key : String) :
    queryGet (fetchJSON host (card.path c)).url key =
      String.ofList ((((card.pairs c).map values).lookup key.toList).getD []) := by
  have given : card.pairs c ≠ [] := by
    cases card <;> exact List.cons_ne_nil _ _
  have text : (fetchJSON host (card.path c)).url.rawQuery.toList = encodeQuery (build (card.pairs c)) := by
    rw [card.fetchJSON_path, String.toList_ofList]
  rw [reads _ key (text ▸ readable_build given), text, parse_build]

/-! ### What a card is owed -/

section Expected

variable {W : Type} (go : GoLib) (lib : ServerLib) (s : WebAPI W) (c : Controls)

/-- `positiveIntQuery` of the number of layers. -/
def Controls.layersValue : Except GoError Int :=
  match atoi c.layers.text with
  | none => .error (.errorf "%s must be a positive integer" [.str "layers"])
  | some parsed =>
      if parsed ≤ 0 then .error (.errorf "%s must be a positive integer" [.str "layers"]) else .ok parsed

/-- What a server computes for the controls, or the message of its error. -/
def Card.expected : (card : Card) → Except String card.Data
  | .localModels =>
      match inventoryLimit c.modelLimit.text with
      | none => .error "limit must be a positive integer"
      | some limit =>
          ((lib.listDir (inventoryRoot c.modelRoot)).map
            (GoExotic.localModels go lib.toHelperLib (inventoryRoot c.modelRoot) limit)).mapError lib.errorText
  | .helpers => .ok (modelHelpers go lib.toHelperLib c.model c.modelPath)
  | .placement =>
      Except.mapError lib.errorText do
        let layers ← c.layersValue
        let plan ← newPlan go s.toPlanningServer.placedDevices layers
        return ⟨c.model, layers, plan.shards⟩
  | .routes =>
      Except.mapError lib.errorText do
        let layers ← c.layersValue
        match s.registry with
        | some registry => previewFromRegistry go .background (some registry) c.model layers
        | none => previewFromCapabilities go .background s.capabilitiesCopy c.model layers

/-- The JSON of what a card shows. -/
def Card.encode : (card : Card) → card.Data → Except GoError (List UInt8)
  | .localModels => lib.encodeModels
  | .helpers => lib.encodeHelpers
  | .placement => lib.encodePlacement
  | .routes => lib.encodeRoutes

/-- The response with what a card is owed. -/
def Card.response (card : Card) : Except String card.Data → HttpResponse
  | .ok data => writeJSON 200 [] (card.encode lib data)
  | .error msg => writeError lib.toWireLib 400 [] msg

end Expected

variable {W : Type} {go : GoLib} {lib : ServerLib} {s : WebAPI W}

/-- A server answers the request of a card with what it computes for the controls. -/
theorem serveHTTP_card {card : Card}
    (routed : ∀ r, r.url.path = (Endpoint.view card.view).pattern → lib.mux r = .ok (.view card.view))
    (reads : ReadsQueries lib.queryGet) (host : String) (c : Controls) (now : Int) (w : W) :
    s.serveHTTP go lib .background now (fetchJSON host (card.path c)) w =
      (card.response lib (card.expected go lib s c), w) := by
  have value := card.queryGet_fetchJSON reads host c
  have isGet : ¬ (fetchJSON host (card.path c)).method ≠ "GET" := not_not.mpr rfl
  have routedHere : lib.mux (fetchJSON host (card.path c)) = .ok (.view card.view) := by
    apply routed
    rw [card.fetchJSON_path]
  rw [WebAPI.serveHTTP, routedHere]
  cases card with
  | localModels =>
      have root : lib.toInventoryLib.queryGet (fetchJSON host (Card.localModels.path c)).url "root" = c.modelRoot :=
        (value "root").trans String.ofList_toList
      have limit : lib.toInventoryLib.queryGet (fetchJSON host (Card.localModels.path c)).url "limit" =
          c.modelLimit.received := value "limit"
      change (handleLocalModels go lib.toWireLib lib.toInventoryLib _, w) = _
      rw [handleLocalModels, if_neg isGet, root, limit, c.modelLimit.inventoryLimit_received, Card.expected]
      cases inventoryLimit c.modelLimit.text with
      | none => rfl
      | some limit =>
          dsimp only
          cases lib.listDir (inventoryRoot c.modelRoot) <;> rfl
  | helpers =>
      have model : lib.toHelperLib.queryGet (fetchJSON host (Card.helpers.path c)).url "model" = c.model :=
        (value "model").trans String.ofList_toList
      have path : lib.toHelperLib.queryGet (fetchJSON host (Card.helpers.path c)).url "path" = c.modelPath :=
        (value "path").trans String.ofList_toList
      change (handleModelHelpers go lib.toWireLib lib.toHelperLib _, w) = _
      rw [handleModelHelpers, if_neg isGet, model, path]
      rfl
  | placement =>
      have layers : positiveIntQuery lib.toPreviewLib (fetchJSON host (Card.placement.path c)) "layers" =
          c.layersValue := by
        have text : lib.toPreviewLib.queryGet (fetchJSON host (Card.placement.path c)).url "layers" =
            c.layers.received := value "layers"
        rw [positiveIntQuery, text, c.layers.atoi_received]
        rfl
      have model : lib.toPreviewLib.queryGet (fetchJSON host (Card.placement.path c)).url "model" = c.model :=
        (value "model").trans String.ofList_toList
      change (s.toPlanningServer.handlePlacementPreview go lib.toWireLib lib.toPreviewLib _, w) = _
      rw [PlanningServer.handlePlacementPreview, if_neg isGet, layers, model, Card.expected,
        PlanningServer.placedDevices]
      cases c.layersValue with
      | error err => rfl
      | ok count =>
          rw [ok_bind]
          dsimp only
          cases newPlan go (s.capabilities.map Capability.device) count <;> rfl
  | routes =>
      have layers : positiveIntQuery lib.toPreviewLib (fetchJSON host (Card.routes.path c)) "layers" =
          c.layersValue := by
        have text : lib.toPreviewLib.queryGet (fetchJSON host (Card.routes.path c)).url "layers" =
            c.layers.received := value "layers"
        rw [positiveIntQuery, text, c.layers.atoi_received]
        rfl
      have model : lib.toPreviewLib.queryGet (fetchJSON host (Card.routes.path c)).url "model" = c.model :=
        (value "model").trans String.ofList_toList
      change (s.toPlanningServer.handleRoutesPreview go lib.toWireLib lib.toPreviewLib .background _, w) = _
      rw [PlanningServer.handleRoutesPreview, if_neg isGet, layers, model, Card.expected]
      cases c.layersValue with
      | error err => rfl
      | ok count =>
          rw [ok_bind]
          dsimp only
          cases s.registry with
          | none =>
              dsimp only
              cases previewFromCapabilities go .background s.capabilitiesCopy c.model count <;> rfl
          | some registry =>
              dsimp only
              cases previewFromRegistry go .background (some registry) c.model count <;> rfl

/-! ### What the browser makes of it -/

/-- The browser reads the JSON of a card as what the card shows, and that of an error as its message. -/
structure Understands {V : Type} (js : BrowserLib V) (lib : ServerLib) (card : Card) (shown : card.Data → V) :
    Prop where
  data : ∀ data, ∃ body, card.encode lib data = .ok body ∧ js.text body ≠ "" ∧
    js.parse (js.text body) = some (shown data)
  message : ∀ msg, ∃ body value, lib.encodeErrorBody (AList.insert "error" msg ∅) = .ok body ∧
    js.text body ≠ "" ∧ js.parse (js.text body) = some value ∧ js.errorOf value = msg

section Shown

variable {V : Type} {js : BrowserLib V} {card : Card} {shown : card.Data → V}

/-- The outcome a card is owed. An error without a message is told by the text of its body. -/
def Card.outcome (js : BrowserLib V) (lib : ServerLib) (card : Card) (shown : card.Data → V) :
    Except String card.Data → Outcome V
  | .ok data => .ok (shown data)
  | .error msg =>
      .error (statusLine js 400 ++ ": " ++ orElse msg (js.text (card.response lib (.error msg)).body))

/-- What the dashboard makes of the response is the outcome the card is owed. -/
theorem getJSON_response (understands : Understands js lib card shown) (result : Except String card.Data) :
    getJSON js (card.response lib result) = card.outcome js lib shown result := by
  cases result with
  | ok data =>
      obtain ⟨body, encoded, given, read⟩ := understands.data data
      have parsed : parseJSON js (js.text body) = some (some (shown data)) := by
        rw [parseJSON, if_neg given, read]
        rfl
      have response : card.response lib (.ok data) = ⟨200, Header.set [] "Content-Type" "application/json", body⟩ := by
        simp only [Card.response, writeJSON, encoded]
      have isOk : HttpResponse.ok ⟨200, Header.set [] "Content-Type" "application/json", body⟩ :=
        ⟨le_refl _, by norm_num⟩
      rw [response, getJSON]
      dsimp only
      rw [if_neg (not_not.mpr isOk), parsed]
      rfl
  | error msg =>
      obtain ⟨body, value, encoded, given, read, isMessage⟩ := understands.message msg
      have parsed : parseJSON js (js.text body) = some (some value) := by
        rw [parseJSON, if_neg given, read]
        rfl
      have response : card.response lib (.error msg) =
          ⟨400, Header.set [] "Content-Type" "application/json", body⟩ := by
        simp only [Card.response, writeError, writeJSON, encoded]
      have notOk : ¬ HttpResponse.ok ⟨400, Header.set [] "Content-Type" "application/json", body⟩ :=
        fun isOk => absurd isOk.2 (by norm_num)
      -- a body is never empty, so something is always told of the error
      have told : orElse (orElse msg (js.text body)) "request failed" = orElse msg (js.text body) := by
        apply if_neg
        by_cases silent : msg = ""
        · rw [orElse, if_pos silent]
          exact given
        · rw [orElse, if_neg silent]
          exact silent
      rw [Card.outcome, response, getJSON]
      dsimp only
      rw [if_pos notOk, parsed, parsedError, isMessage, told]

end Shown

/-! ### The hook of a card -/

section Hook

open DataHook

variable {V : Type} (go : GoLib) (lib : ServerLib) (s : WebAPI W) (host : String) (js : BrowserLib V)

/-- An outcome is what the server answers, at some time and in some state of its worker. -/
def AnsweredByServer (path : String) (outcome : Outcome V) : Prop :=
  ∃ now w, outcome = getJSON js (s.serveHTTP go lib .background now (fetchJSON host path) w).1

/-- A card was rendered with controls in a run: it was mounted with them, or rendered with the path it makes of
them. -/
def RenderedWith (card : Card) (first : Controls) (steps : List (DataHook.Step String V)) (c : Controls) : Prop :=
  c = first ∨ .renders (card.path c) ∈ steps

/-- A card asks for controls it was rendered with, and shows only what the server answered for such controls. -/
structure AsksServer (card : Card) (rendered : Controls → Prop) (h : DataHook String V) : Prop where
  key : ∃ c, rendered c ∧ h.key = card.path c
  requests : ∀ r ∈ h.requests, (∃ c, rendered c ∧ r.key = card.path c) ∧
    ∀ outcome, r.outcome = some outcome → AnsweredByServer go lib s host js r.key outcome
  data : ∀ v, h.state.data = some v → ∃ c, rendered c ∧ AnsweredByServer go lib s host js (card.path c) (.ok v)

variable {go lib s host js} {card : Card} {rendered : Controls → Prop} {h t : DataHook String V}
  {e : DataHook.Step String V}

theorem asksServer_mount {c : Controls} (isFirst : rendered c) :
    AsksServer go lib s host js card rendered (mount (card.path c)) := by
  constructor
  · exact ⟨c, isFirst, rfl⟩
  · intro r member
    cases member
  · intro v shows
    cases shows

/-- The cleanup keeps the keys and outcomes of the requests. -/
theorem mem_cleanup {requests : List (SentRequest String V)} {r : SentRequest String V}
    (member : r ∈ cleanup requests) : ∃ old ∈ requests, r.key = old.key ∧ r.outcome = old.outcome := by
  obtain ⟨i, found⟩ := List.mem_iff_getElem?.mp member
  obtain ⟨old, before, same, -⟩ := getElem?_cleanup found
  exact ⟨old, List.mem_of_getElem? before, same⟩

/-- Every step of a card that is rendered with controls and answered by the server keeps it so. -/
theorem AsksServer.step (asks : AsksServer go lib s host js card rendered h) (taken : h.step e = some t)
    (renders : ∀ key, e = .renders key → ∃ c, rendered c ∧ key = card.path c)
    (answered : ∀ i outcome r, e = .answers i outcome → h.requests[i]? = some r →
      AnsweredByServer go lib s host js r.key outcome) : AsksServer go lib s host js card rendered t := by
  cases e with
  | renders key =>
      rw [DataHook.step, Option.ite_none_right_eq_some, Option.some.injEq] at taken
      obtain ⟨-, rfl⟩ := taken
      exact ⟨renders key rfl, asks.requests, asks.data⟩
  | refreshes =>
      rw [DataHook.step, Option.ite_none_right_eq_some, Option.some.injEq] at taken
      obtain ⟨-, rfl⟩ := taken
      exact ⟨asks.key, asks.requests, asks.data⟩
  | runsEffect =>
      rw [DataHook.step, Option.ite_none_right_eq_some, Option.some.injEq] at taken
      obtain ⟨-, rfl⟩ := taken
      refine ⟨asks.key, ?_, asks.data⟩
      intro r member
      rcases List.mem_append.mp member with old | new
      · obtain ⟨before, there, sameKey, sameOutcome⟩ := mem_cleanup old
        rw [sameKey, sameOutcome]
        exact asks.requests before there
      · rw [List.mem_singleton.mp new]
        exact ⟨asks.key, fun outcome given => by cases given⟩
  | answers i outcome =>
      obtain ⟨r, found, -, rfl⟩ := answers_eq_some.mp taken
      obtain ⟨isPath, -⟩ := asks.requests r (List.mem_of_getElem? found)
      have given := answered i outcome r rfl found
      refine ⟨asks.key, ?_, ?_⟩
      · intro other member
        rcases List.mem_or_eq_of_mem_set member with old | rfl
        · exact asks.requests other old
        · refine ⟨isPath, ?_⟩
          rintro _ ⟨⟩
          exact given
      · intro v shows
        dsimp only at shows
        split_ifs at shows with cancelled
        · exact asks.data v shows
        · cases outcome with
          | error message => cases shows
          | ok data =>
              cases shows
              obtain ⟨c, isRendered, isKey⟩ := isPath
              exact ⟨c, isRendered, isKey ▸ given⟩
  | unmounts =>
      rw [DataHook.step, Option.ite_none_right_eq_some, Option.some.injEq] at taken
      obtain ⟨-, rfl⟩ := taken
      refine ⟨asks.key, ?_, asks.data⟩
      intro r member
      obtain ⟨before, there, sameKey, sameOutcome⟩ := mem_cleanup member
      rw [sameKey, sameOutcome]
      exact asks.requests before there

/-- What the server answers a card is the outcome the card is owed for the controls. -/
theorem answeredByServer_path {shown : card.Data → V}
    (routed : ∀ r, r.url.path = (Endpoint.view card.view).pattern → lib.mux r = .ok (.view card.view))
    (reads : ReadsQueries lib.queryGet) (understands : Understands js lib card shown) {c : Controls}
    {outcome : Outcome V} (answered : AnsweredByServer go lib s host js (card.path c) outcome) :
    outcome = card.outcome js lib shown (card.expected go lib s c) := by
  obtain ⟨now, w, rfl⟩ := answered
  rw [serveHTTP_card routed reads, getJSON_response understands]

/-- Every run keeps what a card asks for and shows to the server's answers for controls it was rendered with. -/
theorem AsksServer.run {first : Controls} {steps : List (DataHook.Step String V)}
    (ran : exec DataHook.step (mount (card.path first)) steps = some h)
    (renders : ∀ key, .renders key ∈ steps → ∃ c, key = card.path c)
    (answered : ∀ before i outcome after r,
      Visits DataHook.step (mount (card.path first)) steps before (.answers i outcome) after →
        before.requests[i]? = some r → AnsweredByServer go lib s host js r.key outcome) :
    AsksServer go lib s host js card (RenderedWith card first steps) h := by
  have always : Throughout DataHook.step (fun _ => True) (mount (card.path first)) steps := fun _ _ _ _ _ => trivial
  have keeps : AsksServer go lib s host js card (RenderedWith card first steps) (mount (card.path first)) →
      AsksServer go lib s host js card (RenderedWith card first steps) h := by
    refine exec_related (fun before after => AsksServer go lib s host js card (RenderedWith card first steps) before →
        AsksServer go lib s host js card (RenderedWith card first steps) after)
      (fun _ asks => asks) (fun _ _ _ _ one two asks => two (one asks)) ?_ always ran
    intro before e after visited asks
    have member : e ∈ steps := by
      obtain ⟨earlier, later, rfl, -, -⟩ := visited
      exact List.mem_append_right _ List.mem_cons_self
    refine asks.step visited.taken ?_ ?_
    · rintro key rfl
      obtain ⟨c, rfl⟩ := renders key member
      exact ⟨c, Or.inr member, rfl⟩
    · rintro i outcome r rfl found
      exact answered before i outcome after r visited found
  exact keeps (asksServer_mount (Or.inl rfl))

/-- A card shows what the server computes for its controls. In every run of a card that is rendered with controls of
any kind and whose requests the server answers, in any order: all data it ever shows are computed for controls it was
rendered with; and once its effects have run and the last request is answered, it shows the result for the
controls as they are, or the error. -/
theorem card_shows_expected (go : GoLib) (lib : ServerLib) (s : WebAPI W) (host : String) (js : BrowserLib V)
    (card : Card) (shown : card.Data → V)
    (routed : ∀ r, r.url.path = (Endpoint.view card.view).pattern → lib.mux r = .ok (.view card.view))
    (reads : ReadsQueries lib.queryGet) (understands : Understands js lib card shown) (first : Controls)
    (steps : List (DataHook.Step String V)) (h : DataHook String V)
    (ran : exec DataHook.step (mount (card.path first)) steps = some h)
    (renders : ∀ key, .renders key ∈ steps → ∃ c, key = card.path c)
    (answered : ∀ before i outcome after r,
      Visits DataHook.step (mount (card.path first)) steps before (.answers i outcome) after →
        before.requests[i]? = some r → AnsweredByServer go lib s host js r.key outcome) :
    (∀ v, h.state.data = some v → ∃ c data, RenderedWith card first steps c ∧
      card.expected go lib s c = .ok data ∧ v = shown data) ∧
      (h.mounted = true → h.ranWith = some (h.key, h.tick) →
        (∀ r, h.requests.getLast? = some r → r.outcome ≠ none) → ∀ c, h.key = card.path c →
          h.state = .settled (card.outcome js lib shown (card.expected go lib s c))) := by
  have asks := AsksServer.run ran renders answered
  have latest : LatestShown h :=
    exec_invariant (latestShown_mount _) (fun _ _ _ latest taken => latest.step taken) ran
  constructor
  · intro v shows
    obtain ⟨c, isRendered, given⟩ := asks.data v shows
    have outcome := answeredByServer_path routed reads understands given
    cases computed : card.expected go lib s c with
    | error msg =>
        rw [computed] at outcome
        cases outcome
    | ok data =>
        rw [computed] at outcome
        exact ⟨c, data, isRendered, computed, Except.ok.inj outcome⟩
  · intro mounted flushed settled c isKey
    have keyed := latest.keyed
    rw [flushed, Option.map_some, eq_comm, Option.map_eq_some_iff] at keyed
    obtain ⟨r, last, sameKey⟩ := keyed
    obtain ⟨outcome, given⟩ := Option.ne_none_iff_exists'.mp (settled r last)
    have byServer := (asks.requests r (List.mem_of_getLast? last)).2 outcome given
    rw [sameKey, isKey] at byServer
    rw [latest.shown mounted r outcome last given, answeredByServer_path routed reads understands byServer]

end Hook

/-! ### A card that is typed into -/

/-- A browser that reads placements and error bodies. -/
def plainBrowser : BrowserLib (PlacementPreview ⊕ String) where
  text bytes := ((Json.ofBytes bytes).map String.ofList).getD ""
  parse text := ((placementCodec.read text.toList).map fun read => .inl read.1).or
    ((errorBodyCodec.read text.toList).map fun read => .inr read.1)
  errorOf
    | .inl _ => ""
    | .inr msg => msg
  statusText status := if status = 400 then "Bad Request" else ""

/-- A library over the files of a volume that reads queries with their escapes, and empty objects. -/
def ServerLib.decoding (v : Volume) : ServerLib :=
  { ServerLib.ofVolume v with
    queryGet := fun url key => String.ofList (((parse url.rawQuery.toList).lookup key.toList).getD [])
    decodeRequest := fun input =>
      if input.bytes = Json.toBytes ['\x7b', '\x7d'] then
        .ok (⟨"", "", "", ⟨"", 0, 0⟩, 0, 0, ⟨"", 0, []⟩⟩, ⟨[], input.ending⟩)
      else decodeWith requestCodec input }

theorem plainBrowser_text (text : List Char) : plainBrowser.text (Json.toBytes text) = String.ofList text := by
  rw [plainBrowser]
  dsimp only
  rw [Json.ofBytes_toBytes]
  rfl

theorem plainBrowser_text_ne {text : List Char} (last : Char) :
    plainBrowser.text (Json.toBytes (text ++ [last])) ≠ "" := by
  rw [plainBrowser_text]
  intro empty
  have letters := congrArg String.toList empty
  rw [String.toList_ofList] at letters
  exact List.append_ne_nil_of_right_ne_nil text (List.cons_ne_nil last []) letters

/-- An error body is no placement. -/
theorem placementCodec_read_error (msg : String) :
    placementCodec.read (errorBodyCodec.write msg ++ ['\n']) = none := by
  have text : errorBodyCodec.write msg ++ ['\n'] =
      '\x7b' :: (Json.writeString "error" ++ ':' :: (Json.Codec.string.write msg ++ ['\x7d', '\n'])) := by
    simp [errorBodyCodec, Json.Codec.object, Json.Codec.field, Json.Codec.after, Json.Codec.before]
  rw [text, placementCodec, Json.Codec.via]
  dsimp only
  rw [Json.Codec.read_object_none (Json.Codec.read_comma_none (Json.Codec.read_field_other (by decide) _ _)),
    Option.bind_none]

theorem plainBrowser_parse (text : List Char) : plainBrowser.parse (String.ofList text) =
    ((placementCodec.read text).map fun read => .inl read.1).or
      ((errorBodyCodec.read text).map fun read => .inr read.1) := by
  rw [plainBrowser]
  dsimp only
  rw [String.toList_ofList]

/-- A placement is read back. -/
theorem plainBrowser_placement (p : PlacementPreview) :
    plainBrowser.parse (plainBrowser.text (Json.toBytes (placementCodec.write p ++ ['\n']))) = some (.inl p) := by
  rw [plainBrowser_text, plainBrowser_parse, placementCodec.read_write p _ (.cons (by decide) [])]
  rfl

/-- The message of an error is read back. -/
theorem plainBrowser_message (msg : String) :
    plainBrowser.parse (plainBrowser.text (Json.toBytes (errorBodyCodec.write msg ++ ['\n']))) = some (.inr msg) := by
  rw [plainBrowser_text, plainBrowser_parse, placementCodec_read_error,
    errorBodyCodec.read_write msg _ (.cons (by decide) [])]
  rfl

theorem plainBrowser_understands (v : Volume) : Understands plainBrowser (.decoding v) .placement .inl := by
  constructor
  · exact fun data => ⟨_, rfl, plainBrowser_text_ne '\n', plainBrowser_placement data⟩
  · intro msg
    have isMessage : GoMap.get (AList.insert "error" msg ∅) "error" "" = msg := by
      rw [GoMap.get, AList.lookup_insert]
      rfl
    have encoded : (ServerLib.decoding v).encodeErrorBody (AList.insert "error" msg ∅) =
        .ok (Json.toBytes (errorBodyCodec.write msg ++ ['\n'])) := by
      change Except.ok (Json.toBytes (errorBodyCodec.write (GoMap.get _ "error" "") ++ ['\n'])) = _
      rw [isMessage]
    exact ⟨_, _, encoded, plainBrowser_text_ne '\n', plainBrowser_message msg, rfl⟩

/-- A server with one device. -/
def oneDeviceServer : WebAPI Unit := newWebAPI 0 [exampleCapability "a" "a" (.finite 1)] []

/-- Controls with a model whose name needs escapes. -/
def typedControls (layers : NumberText) : Controls := ⟨layers, "a&b=#1 %", "", "", layers⟩

/-- One layer. -/
def oneLayer : NumberText := ⟨"1", List.forall_mem_singleton.mpr (Or.inl rfl), by decide⟩

/-- A number of layers with an exponent. -/
def manyLayers : NumberText where
  text := "1e+21"
  plain := by
    have plain : ("1e+21".toList.all fun c => unreserved c || c == '+') = true := by decide +kernel
    intro c member
    rcases Bool.or_eq_true_iff.mp (List.all_eq_true.mp plain c member) with stays | isPlus
    · exact Or.inl stays
    · exact Or.inr (beq_iff_eq.mp isPlus)
  unsigned := by
    intro isPlus
    cases isPlus

/-- What the server answers one of those cards. -/
def typedAnswer (layers : NumberText) : Outcome (PlacementPreview ⊕ String) :=
  getJSON plainBrowser (oneDeviceServer.serveHTTP .plain (.decoding modelsVolume) .background 0
    (fetchJSON "h" (Card.placement.path (typedControls layers))) ()).1

/-- The card asks for very many layers, then for one, and the second request is answered. -/
def typedSteps : List (DataHook.Step String (PlacementPreview ⊕ String)) :=
  [.runsEffect, .renders (Card.placement.path (typedControls oneLayer)), .runsEffect, .answers 1 (typedAnswer oneLayer)]

/-- The card shows the layer on the device, for the model as it was typed; what it shows is computed for controls it
was rendered with. -/
theorem card_shows_expected_typed :
    ∃ h, exec DataHook.step (DataHook.mount (Card.placement.path (typedControls manyLayers))) typedSteps = some h ∧
      h.state = .settled (.ok (.inl ⟨"a&b=#1 %", 1, [⟨"a", 0, 0⟩]⟩)) ∧
        ∃ c data, RenderedWith .placement (typedControls manyLayers) typedSteps c ∧
          Card.placement.expected .plain (.decoding modelsVolume) oneDeviceServer c = .ok data ∧
            data = ⟨"a&b=#1 %", 1, [⟨"a", 0, 0⟩]⟩ := by
  have routed : ∀ r : HttpRequest, r.url.path = "/placement/preview" →
      (ServerLib.decoding modelsVolume).mux r = .ok (.view .placementPreview) := by
    intro r isPath
    change plainMux r = _
    rw [plainMux, isPath]
    rfl
  have expected : Card.placement.expected .plain (.decoding modelsVolume) oneDeviceServer (typedControls oneLayer) =
      .ok ⟨"a&b=#1 %", 1, [⟨"a", 0, 0⟩]⟩ := by
    have layers : (typedControls oneLayer).layersValue = .ok 1 := by decide +kernel
    have planned : newPlan .plain oneDeviceServer.toPlanningServer.placedDevices 1 = .ok ⟨1, [⟨"a", 0, 0⟩]⟩ := by
      decide +kernel
    rw [Card.expected, layers, ok_bind, planned]
    rfl
  have ran : ∃ h, exec DataHook.step (DataHook.mount (Card.placement.path (typedControls manyLayers))) typedSteps =
      some h ∧ h.mounted = true ∧ h.ranWith = some (h.key, h.tick) ∧
        h.key = Card.placement.path (typedControls oneLayer) ∧
        ∀ r, h.requests.getLast? = some r → r.outcome ≠ none := by
    refine ⟨_, rfl, rfl, rfl, rfl, ?_⟩
    rintro r ⟨⟩ unanswered
    cases unanswered
  obtain ⟨h, ran, mounted, flushed, isKey, settled⟩ := ran
  obtain ⟨fromRendered, latest⟩ := card_shows_expected .plain (.decoding modelsVolume) oneDeviceServer "h"
    plainBrowser .placement .inl routed (fun _ _ _ => rfl) (plainBrowser_understands modelsVolume)
    (typedControls manyLayers) typedSteps h ran
    (by
      intro key member
      simp only [typedSteps, List.mem_cons, List.not_mem_nil, reduceCtorEq, DataHook.Step.renders.injEq, or_false,
        false_or] at member
      exact ⟨_, member⟩)
    (by
      rintro before i outcome after r ⟨earlier, later, split, reached, -⟩ found
      rw [typedSteps] at split
      rcases earlier with _ | ⟨first, _ | ⟨second, _ | ⟨third, _ | ⟨fourth, rest⟩⟩⟩⟩
      · cases split
      · cases split
      · cases split
      · cases split
        cases reached
        cases found
        exact ⟨0, (), rfl⟩
      · cases rest <;> cases split)
  have shows := latest mounted flushed settled (typedControls oneLayer) isKey
  rw [expected] at shows
  obtain ⟨c, data, isRendered, computed, same⟩ := fromRendered (.inl ⟨"a&b=#1 %", 1, [⟨"a", 0, 0⟩]⟩) (by
    rw [shows]
    rfl)
  exact ⟨h, ran, shows, c, data, isRendered, computed, (Sum.inl.inj same).symm⟩

/-! ### The boundary card -/

/-- What a component shows was answered to it. -/
theorem DataHook.data_answered {κ T : Type} [DecidableEq κ] {key : κ} {steps : List (DataHook.Step κ T)}
    {h : DataHook κ T} {holds : T → Prop} (ran : exec DataHook.step (DataHook.mount key) steps = some h)
    (answered : ∀ before i v after, Visits DataHook.step (DataHook.mount key) steps before (.answers i (.ok v)) after →
      holds v) : ∀ v, h.state.data = some v → holds v := by
  have always : Throughout DataHook.step (fun _ => True) (DataHook.mount key) steps := fun _ _ _ _ _ => trivial
  have keeps := exec_related
    (fun before after : DataHook κ T =>
      (∀ v, before.state.data = some v → holds v) → ∀ v, after.state.data = some v → holds v)
    (fun _ shown => shown) (fun _ _ _ _ one two shown => two (one shown)) (by
      intro before e after visited shown v given
      have taken := visited.taken
      cases e with
      | renders key =>
          rw [DataHook.step, Option.ite_none_right_eq_some, Option.some.injEq] at taken
          obtain ⟨-, rfl⟩ := taken
          exact shown v given
      | refreshes =>
          rw [DataHook.step, Option.ite_none_right_eq_some, Option.some.injEq] at taken
          obtain ⟨-, rfl⟩ := taken
          exact shown v given
      | runsEffect =>
          rw [DataHook.step, Option.ite_none_right_eq_some, Option.some.injEq] at taken
          obtain ⟨-, rfl⟩ := taken
          exact shown v given
      | answers i outcome =>
          obtain ⟨r, -, -, rfl⟩ := DataHook.answers_eq_some.mp taken
          dsimp only at given
          split_ifs at given with cancelled
          · exact shown v given
          · cases outcome with
            | error message => cases given
            | ok data =>
                cases given
                exact answered before i v _ visited
      | unmounts =>
          rw [DataHook.step, Option.ite_none_right_eq_some, Option.some.injEq] at taken
          obtain ⟨-, rfl⟩ := taken
          exact shown v given) always ran
  exact keeps fun v given => by cases given

section Boundary

open DataHook

variable {W : Type} (go : GoLib) (lib : ServerLib) (s : WebAPI W) (host : String)

/-- Shard execution is wired. -/
def WebAPI.Wired : Prop := s.shardWorker.isSome ∧ s.totalLayers > 0

/-- An empty object decodes to a request with no field set. -/
def DecodesEmpty (wire : WireLib) : Prop :=
  ∀ bridge rest, wire.decodeRequest ⟨Json.toBytes ['\x7b', '\x7d'], eof⟩ = .ok (bridge, rest) →
    bridge = ⟨"", "", "", ⟨"", 0, 0⟩, 0, 0, ⟨"", 0, []⟩⟩

variable {go lib s}

/-- The request of a probe is not valid. -/
theorem readShardRequest_probe (decodes : DecodesEmpty lib.toWireLib) (totalLayers : Int) :
    ∃ msg, readShardRequest lib.toWireLib totalLayers (fetchProbe host) = .error msg := by
  have whole : maxBytesReader (fetchProbe host).body (64 * 2 ^ 20) = ⟨Json.toBytes ['\x7b', '\x7d'], eof⟩ := by
    have small : (Json.toBytes ['\x7b', '\x7d']).length ≤ 64 * 2 ^ 20 := by decide +kernel
    exact if_pos small
  rw [readShardRequest, whole]
  cases decoded : lib.decodeRequest ⟨Json.toBytes ['\x7b', '\x7d'], eof⟩ with
  | error err => exact ⟨_, rfl⟩
  | ok read =>
      obtain ⟨bridge, rest⟩ := read
      dsimp only
      by_cases trailing : lib.decodeEmpty rest ≠ .error eof
      · rw [if_pos trailing]
        exact ⟨_, rfl⟩
      · rw [if_neg trailing, decodes bridge rest decoded]
        exact ⟨_, rfl⟩

/-- A probe is answered 400 if shard execution is wired and 503 otherwise, and never executes anything. -/
theorem serveHTTP_probe (routed : ∀ r, r.url.path = "/shards/execute" → lib.mux r = .ok .shardsExecute)
    (decodes : DecodesEmpty lib.toWireLib) (ctx : Ctx) (now : Int) (w : W) :
    (s.serveHTTP go lib ctx now (fetchProbe host) w).2 = w ∧
      (s.Wired → (s.serveHTTP go lib ctx now (fetchProbe host) w).1.status = 400) ∧
      (¬ s.Wired → (s.serveHTTP go lib ctx now (fetchProbe host) w).1.status = 503) := by
  have post : ¬ (fetchProbe host).method ≠ "POST" := not_not.mpr rfl
  have isPath : (fetchProbe host).url.path = "/shards/execute" := by
    have text : String.ofList (("/shards/execute".toList.takeWhile fun c => c != '#').takeWhile fun c => c != '?') =
        "/shards/execute" := by decide +kernel
    exact text
  rw [WebAPI.serveHTTP, routed _ isPath]
  dsimp only
  rw [Server.handleShardExecute, if_neg post, WebAPI.Wired]
  cases s.shardWorker with
  | none => exact ⟨rfl, fun wired => absurd wired.1 (by simp), fun _ => rfl⟩
  | some worker =>
      dsimp only
      by_cases off : s.totalLayers ≤ 0
      · rw [if_pos off]
        exact ⟨rfl, fun wired => absurd wired.2 (by omega), fun _ => rfl⟩
      · obtain ⟨msg, refused⟩ := readShardRequest_probe host decodes s.totalLayers
        rw [if_neg off, refused]
        exact ⟨rfl, fun _ => rfl, fun notWired => absurd ⟨rfl, by omega⟩ notWired⟩

variable {V : Type} {js : BrowserLib V}

/-- The verdict of a probe is the boundary that the status of the server tells. -/
theorem probe_verdict (routed : ∀ r, r.url.path = "/shards/execute" → lib.mux r = .ok .shardsExecute)
    (decodes : DecodesEmpty lib.toWireLib) (ctx : Ctx) (now : Int) (w : W) :
    (probeShardExecution js (s.serveHTTP go lib ctx now (fetchProbe host) w).1).status =
      if s.boundary = "local shard execution explicitly wired" then .available else .disabled := by
  obtain ⟨-, whenWired, whenNot⟩ := @serveHTTP_probe W go lib s host routed decodes ctx now w
  rw [probeShardExecution]
  by_cases wired : s.Wired
  · have isWired : s.boundary = "local shard execution explicitly wired" := if_pos wired
    rw [whenWired wired, if_neg (by decide), if_pos rfl, if_pos isWired]
  · have notWired : s.boundary = "shard execution disabled" := if_neg wired
    rw [whenNot wired, if_pos rfl, notWired, if_neg (by decide)]

/-- The boundary card tells what the status of the server tells. In every run in which probes are answered by the
server or fail on the way, the verdict shown is always the boundary in `/ui/status`; and no probe is executed. -/
theorem boundary_card_agrees (go : GoLib) (lib : ServerLib) (s : WebAPI W) (host : String) (js : BrowserLib V)
    (routed : ∀ r, r.url.path = "/shards/execute" → lib.mux r = .ok .shardsExecute)
    (decodes : DecodesEmpty lib.toWireLib) (steps : List (DataHook.Step Unit BoundaryStatus)) (h : useBoundaryStatus)
    (ran : exec DataHook.step (mount ()) steps = some h)
    (answered : ∀ before i outcome after, Visits DataHook.step (mount ()) steps before (.answers i outcome) after →
      (∃ message, outcome = .error message) ∨ ∃ ctx now w,
        outcome = .ok (probeShardExecution js (s.serveHTTP go lib ctx now (fetchProbe host) w).1)) :
    (∀ b, h.state.data = some b → b.status =
      if s.boundary = "local shard execution explicitly wired" then .available else .disabled) ∧
      ∀ ctx now w, (s.serveHTTP go lib ctx now (fetchProbe host) w).2 = w := by
  refine ⟨DataHook.data_answered ran ?_, fun ctx now w => (serveHTTP_probe host routed decodes ctx now w).1⟩
  intro before i b after visited
  rcases answered before i (.ok b) after visited with ⟨message, failed⟩ | ⟨ctx, now, w, isProbe⟩
  · cases failed
  · rw [Except.ok.inj isProbe]
    exact probe_verdict host routed decodes ctx now w

/-- What a probe makes of the answer of a server with a worker. -/
def wiredProbe : BoundaryStatus :=
  probeShardExecution plainBrowser
    (recallServer.serveHTTP .plain (.decoding modelsVolume) .background 0 (fetchProbe "h") (.fresh 2)).1

/-- The card is rendered, and its probe answered. -/
def wiredSteps : List (DataHook.Step Unit BoundaryStatus) := [.runsEffect, .answers 0 (.ok wiredProbe)]

/-- The card says that the endpoint is wired, and its cache is untouched. -/
theorem boundary_card_agrees_wired :
    ∃ h b, exec DataHook.step (mount ()) wiredSteps = some h ∧ h.state.data = some b ∧ b.status = .available ∧
      (recallServer.serveHTTP .plain (.decoding modelsVolume) .background 0 (fetchProbe "h") (.fresh 2)).2 =
        .fresh 2 := by
  have routed : ∀ r : HttpRequest, r.url.path = "/shards/execute" →
      (ServerLib.decoding modelsVolume).mux r = .ok .shardsExecute := by
    intro r isPath
    change plainMux r = _
    rw [plainMux, isPath]
    rfl
  have decodes : DecodesEmpty (ServerLib.decoding modelsVolume).toWireLib := by
    intro bridge rest decoded
    cases decoded
    rfl
  have ran : exec DataHook.step (mount ()) wiredSteps = some ⟨(), 0, .settled (.ok wiredProbe), some ((), 0),
      [⟨(), false, some (.ok wiredProbe)⟩], true⟩ := rfl
  have whole := boundary_card_agrees .plain (.decoding modelsVolume) recallServer "h" plainBrowser routed decodes
    wiredSteps _ ran (by
      rintro before i outcome after ⟨earlier, later, split, -, -⟩
      have member : DataHook.Step.answers i outcome ∈ wiredSteps := split ▸ List.mem_append_right _ List.mem_cons_self
      rw [wiredSteps] at member
      rcases List.mem_cons.mp member with isEffect | isAnswer
      · cases isEffect
      · cases List.mem_singleton.mp isAnswer
        exact Or.inr ⟨.background, 0, .fresh 2, rfl⟩)
  have isWired : recallServer.boundary = "local shard execution explicitly wired" := by decide +kernel
  refine ⟨_, _, ran, rfl, ?_, whole.2 .background 0 (.fresh 2)⟩
  rw [whole.1 _ rfl, if_pos isWired]

end Boundary

end GoExotic
