/-
Module: GoExotic.Proofs.Advertise
Purpose: What a server that listens advertises. A listen address is normalised once: wildcard hosts become
  the loopback address, anything else is kept, and normalising the result again changes nothing. But the
  text is kept as net.Listen takes it, and a URL takes less: no service name for a port, and no zone that
  is no escape.
Trusted boundary: url.Parse on authorities, as a hypothesis
Main exports: ListenAddress, splitHostPort_text, ListenAddress.advertised, advertise_text, AuthorityRule,
  RoutableListener, advertised_address_routable_iff
-/
import GoExotic.Model.Advertise
import GoExotic.Proofs.DefaultDeviceID
import GoExotic.Proofs.PreviewEndpoints
import GoExotic.Proofs.RemoteExecution
import GoExotic.Proofs.ShardURL

namespace GoExotic

open Spans

/-! ### Splitting at the last colon -/

section Split

variable {host port : List Char}

/-- What comes up to the last colon, and what comes after it. -/
theorem lastColon (noColon : ':' ∉ port) (before : List Char) :
    (before ++ ':' :: port).rdropWhile (fun c => c != ':') = before ++ [':'] ∧
      (before ++ ':' :: port).rtakeWhile (fun c => c != ':') = port := by
  have colon : (':' != ':') = false := rfl
  have inPort : ∀ c ∈ port, (c != ':') = true := forall_ne_of_notMem noColon
  constructor
  · rw [rdropWhile_append_stop (p := fun c => c != ':') colon, List.rdropWhile_eq_nil_iff.mpr inPort]
  · rw [rtakeWhile_append_stop (p := fun c => c != ':') colon, List.rtakeWhile_eq_self_iff.mpr inPort]

/-- A host in brackets may have colons. -/
theorem splitHostPort_bracketed (notOpen : '[' ∉ host) (notClose : ']' ∉ host) (noPortColon : ':' ∉ port)
    (noPortOpen : '[' ∉ port) (noPortClose : ']' ∉ port) :
    splitHostPort (String.ofList ('[' :: (host ++ [']']) ++ ':' :: port)) =
      some (String.ofList host, String.ofList port) := by
  obtain ⟨upToColon, afterColon⟩ := lastColon noPortColon ('[' :: (host ++ [']']))
  have some : '[' :: (host ++ [']']) ++ [':'] ≠ [] := by simp
  have split : (host ++ ']' :: ':' :: port).span (fun c => c != ']') = (host, ']' :: ':' :: port) :=
    span_append (forall_ne_of_notMem notClose) fun c isHead => by cases isHead; rfl
  rw [List.span_eq_takeWhile_dropWhile, Prod.mk.injEq] at split
  rw [splitHostPort, String.toList_ofList]
  simp only [upToColon, afterColon, if_neg some]
  simp [split, notOpen, noPortOpen, noPortClose]

/-- A host without brackets has no colon. -/
theorem splitHostPort_plain (noColon : ':' ∉ host) (notOpen : '[' ∉ host) (notClose : ']' ∉ host)
    (noPortColon : ':' ∉ port) (noPortOpen : '[' ∉ port) (noPortClose : ']' ∉ port) :
    splitHostPort (String.ofList (host ++ ':' :: port)) = some (String.ofList host, String.ofList port) := by
  obtain ⟨upToColon, afterColon⟩ := lastColon noPortColon host
  have some : host ++ [':'] ≠ [] := by simp
  rw [splitHostPort, String.toList_ofList]
  simp only [upToColon, afterColon, if_neg some]
  split
  · next rest opens =>
      -- The first character is one of the host, or the colon.
      cases host with
      | nil => cases opens
      | cons first more =>
          cases opens
          exact absurd List.mem_cons_self notOpen
  · simp [noColon, notOpen, notClose, noPortOpen, noPortClose]

end Split

/-! ### Listen addresses -/

/-- A character of a host name, an IPv4 address or a zone. -/
def nameChar (c : Char) : Bool :=
  (c.isAlphanum || c ∈ ['-', '_', '.', '~'] || decide (0x80 ≤ c.toNat)) && !isSpace c

/-- A character of a host: in brackets, also those of an IPv6 address with a zone. -/
def hostChar (bracketed : Bool) (c : Char) : Bool := nameChar c || (bracketed && (c == ':' || c == '%'))

/-- A character of a port number or a service name. -/
def portChar (c : Char) : Bool := nameChar c || c == '+' || c == '*'

/-- An address to listen on: an empty host, a name, an IPv4 address or, in brackets, an IPv6 address with or
without a zone, and a port number or a service name. -/
structure ListenAddress where
  bracketed : Bool
  host : List Char
  port : List Char
  host_chars : host.all (hostChar bracketed) = true
  port_chars : port.all portChar = true

/-- The characters that no name has: they end a host, a port, a path or a query. -/
def delimiters : List Char := ['/', '?', '#', '[', ']']

theorem nameChar_excludes {c : Char} (isName : nameChar c = true) :
    isSpace c = false ∧ c ∉ delimiters ∧ c ≠ ':' ∧ c ≠ '%' := by
  have none : (':' :: '%' :: delimiters).all (fun d => !nameChar d) = true := by decide
  have excluded : c ∉ ':' :: '%' :: delimiters := by
    intro member
    have notName := List.all_eq_true.mp none c member
    rw [isName] at notName
    cases notName
  rw [List.mem_cons, List.mem_cons, not_or, not_or] at excluded
  refine ⟨?_, excluded.2.2, excluded.1, excluded.2.1⟩
  simpa using (Bool.and_eq_true_iff.mp isName).2

theorem hostChar_excludes {bracketed : Bool} {c : Char} (isHost : hostChar bracketed c = true) :
    isSpace c = false ∧ c ∉ delimiters ∧ (bracketed = false → c ≠ ':') := by
  rw [hostChar, Bool.or_eq_true] at isHost
  rcases isHost with isName | special
  · obtain ⟨notSpace, excluded, notColon, -⟩ := nameChar_excludes isName
    exact ⟨notSpace, excluded, fun _ => notColon⟩
  · rw [Bool.and_eq_true, Bool.or_eq_true, beq_iff_eq, beq_iff_eq] at special
    obtain ⟨isBracketed, rfl | rfl⟩ := special
    · exact ⟨by decide, by decide, fun plain => absurd (plain.symm.trans isBracketed) (by decide)⟩
    · exact ⟨by decide, by decide, fun _ => by decide⟩

theorem portChar_excludes {c : Char} (isPort : portChar c = true) :
    isSpace c = false ∧ c ∉ delimiters ∧ c ≠ ':' := by
  rw [portChar, Bool.or_eq_true, Bool.or_eq_true, beq_iff_eq, beq_iff_eq] at isPort
  rcases isPort with (isName | rfl) | rfl
  · obtain ⟨notSpace, excluded, notColon, -⟩ := nameChar_excludes isName
    exact ⟨notSpace, excluded, notColon⟩
  · decide
  · decide

namespace ListenAddress

theorem hostChar_of_mem (l : ListenAddress) {c : Char} (member : c ∈ l.host) :
    hostChar l.bracketed c = true := List.all_eq_true.mp l.host_chars c member

theorem portChar_of_mem (l : ListenAddress) {c : Char} (member : c ∈ l.port) : portChar c = true :=
  List.all_eq_true.mp l.port_chars c member

/-- The host as it stands in the address. -/
def shownHost (l : ListenAddress) : List Char := if l.bracketed then '[' :: (l.host ++ [']']) else l.host

/-- The address as text. -/
def text (l : ListenAddress) : String := String.ofList (l.shownHost ++ ':' :: l.port)

theorem text_toList (l : ListenAddress) : l.text.toList = l.shownHost ++ ':' :: l.port := String.toList_ofList

/-- A listen address has no white space, and nothing that ends an authority. -/
theorem text_chars (l : ListenAddress) :
    ∀ c ∈ l.text.toList, isSpace c = false ∧ c ≠ '/' ∧ c ≠ '?' ∧ c ≠ '#' := by
  have outside : ∀ {c : Char}, c ∉ delimiters → c ≠ '/' ∧ c ≠ '?' ∧ c ≠ '#' := by
    intro c excluded
    simp only [delimiters, List.mem_cons, not_or] at excluded
    exact ⟨excluded.1, excluded.2.1, excluded.2.2.1⟩
  have host : ∀ c ∈ l.host, isSpace c = false ∧ c ≠ '/' ∧ c ≠ '?' ∧ c ≠ '#' := by
    intro c member
    obtain ⟨notSpace, excluded, -⟩ := hostChar_excludes (l.hostChar_of_mem member)
    exact ⟨notSpace, outside excluded⟩
  intro c member
  rw [text_toList, List.mem_append, List.mem_cons] at member
  rcases member with shown | rfl | inPort
  · rw [shownHost] at shown
    split_ifs at shown
    · rw [List.mem_cons, List.mem_append, List.mem_singleton] at shown
      rcases shown with rfl | inHost | rfl
      · decide
      · exact host c inHost
      · decide
    · exact host c shown
  · decide
  · obtain ⟨notSpace, excluded, -⟩ := portChar_excludes (l.portChar_of_mem inPort)
    exact ⟨notSpace, outside excluded⟩

theorem notMem_host (l : ListenAddress) {c : Char} (delimits : c ∈ delimiters) : c ∉ l.host :=
  fun member => (hostChar_excludes (l.hostChar_of_mem member)).2.1 delimits

theorem notMem_port (l : ListenAddress) {c : Char} (delimits : c ∈ delimiters) : c ∉ l.port :=
  fun member => (portChar_excludes (l.portChar_of_mem member)).2.1 delimits

/-- The text is split into the host and the port again. -/
theorem splitHostPort_text (l : ListenAddress) :
    splitHostPort l.text = some (String.ofList l.host, String.ofList l.port) := by
  have notOpen : '[' ∉ l.host := l.notMem_host (by decide)
  have notClose : ']' ∉ l.host := l.notMem_host (by decide)
  have noPortOpen : '[' ∉ l.port := l.notMem_port (by decide)
  have noPortClose : ']' ∉ l.port := l.notMem_port (by decide)
  have noPortColon : ':' ∉ l.port := fun member => (portChar_excludes (l.portChar_of_mem member)).2.2 rfl
  rw [text, shownHost]
  cases isBracketed : l.bracketed with
  | true =>
      rw [if_pos rfl]
      exact splitHostPort_bracketed notOpen notClose noPortColon noPortOpen noPortClose
  | false =>
      have noColon : ':' ∉ l.host := by
        intro member
        obtain ⟨-, -, excluded⟩ := hostChar_excludes (l.hostChar_of_mem member)
        exact excluded isBracketed rfl
      rw [if_neg Bool.false_ne_true]
      exact splitHostPort_plain noColon notOpen notClose noPortColon noPortOpen noPortClose

/-! ### The advertised address -/

/-- The same port on the loopback interface. -/
def loopback (l : ListenAddress) : ListenAddress where
  bracketed := false
  host := "127.0.0.1".toList
  port := l.port
  host_chars := by decide
  port_chars := l.port_chars

/-- The address a client is told for a listen address. -/
def advertised (l : ListenAddress) : ListenAddress :=
  if String.ofList l.host ∈ ["", "0.0.0.0", "::"] then l.loopback else l

theorem loopback_text (l : ListenAddress) :
    l.loopback.text = "127.0.0.1" ++ String.ofList (':' :: l.port) := by
  rw [text, shownHost, loopback, if_neg Bool.false_ne_true, String.ofList_append, String.ofList_toList]

/-- The text starts with a colon exactly if there is no host. -/
theorem hasPrefix_colon (l : ListenAddress) :
    hasPrefix l.text ":" = true ↔ l.bracketed = false ∧ l.host = [] := by
  have colon : ":".toList = [':'] := rfl
  rw [hasPrefix, text_toList, colon]
  cases isBracketed : l.bracketed with
  | true => simp [shownHost, isBracketed]
  | false =>
      cases isHost : l.host with
      | nil => simp [shownHost, isBracketed, isHost]
      | cons first more =>
          have notColon : first ≠ ':' :=
            (hostChar_excludes (l.hostChar_of_mem (isHost ▸ List.mem_cons_self))).2.2 isBracketed
          simp [shownHost, isBracketed, isHost, notColon.symm]

/-- Before it is trimmed, the address is that of the loopback interface or the one listened on. -/
theorem advertiseHostPort_text (l : ListenAddress) : advertiseHostPort l.text = l.advertised.text := by
  have notWritten : String.ofList l.host ≠ "[::]" := by
    intro same
    have whole : l.host = ['[', ':', ':', ']'] := by
      rw [← String.toList_inj, String.toList_ofList] at same
      exact same
    exact l.notMem_host (c := '[') (by decide) (by rw [whole]; decide)
  have joined : joinHostPort "127.0.0.1" (String.ofList l.port) = l.loopback.text := by
    rw [joinHostPort, if_neg (by decide), loopback_text, ← String.toList_inj]
    simp
  rw [advertiseHostPort, splitHostPort_text]
  by_cases opens : hasPrefix l.text ":" = true
  · obtain ⟨isPlain, isEmpty⟩ := l.hasPrefix_colon.mp opens
    have wildcard : l.advertised = l.loopback := if_pos (by rw [isEmpty]; decide)
    rw [if_pos opens, wildcard, loopback_text, text, shownHost, if_neg (by simp [isPlain]), isEmpty,
      List.nil_append]
  · rw [if_neg opens]
    by_cases wildcard : String.ofList l.host ∈ ["", "0.0.0.0", "::"]
    · have isAdvertised : l.advertised = l.loopback := if_pos wildcard
      have replaced : String.ofList l.host = "" ∨ String.ofList l.host = "0.0.0.0" ∨
          String.ofList l.host = "::" ∨ String.ofList l.host = "[::]" := by
        simpa [notWritten] using wildcard
      rw [isAdvertised, ← joined]
      exact if_pos replaced
    · have isAdvertised : l.advertised = l := if_neg wildcard
      have kept : ¬ (String.ofList l.host = "" ∨ String.ofList l.host = "0.0.0.0" ∨
          String.ofList l.host = "::" ∨ String.ofList l.host = "[::]") := by
        simpa [notWritten] using wildcard
      rw [isAdvertised]
      exact if_neg kept

/-- The text of an address has nothing to trim, also after a scheme. -/
theorem trimSpace_append_text (l : ListenAddress) {start : String}
    (noSpace : start.toList.all (fun c => !isSpace c) = true) : trimSpace (start ++ l.text) = start ++ l.text := by
  have each : ∀ c ∈ (start ++ l.text).toList, isSpace c = false := by
    intro c member
    rw [String.toList_append, List.mem_append] at member
    rcases member with inStart | inText
    · simpa using List.all_eq_true.mp noSpace c inStart
    · exact (l.text_chars c inText).1
  apply trimBoth_eq_self.mpr
  exact ⟨fun c isHead => each c (List.mem_of_mem_head? isHead), fun c isLast => each c (List.mem_of_mem_getLast? isLast)⟩

theorem trimRightSlash_append_text (l : ListenAddress) (start : String) :
    trimRightSlash (start ++ l.text) = start ++ l.text := by
  have colon : (':' == '/') = false := rfl
  have noSlash : l.port.rdropWhile (fun c => c == '/') = l.port := by
    rw [List.rdropWhile_eq_self_iff]
    intro some isSlash
    have inText : l.port.getLast some ∈ l.text.toList := by
      rw [text_toList]
      exact List.mem_append_right _ (List.mem_cons_of_mem _ (List.getLast_mem some))
    exact (l.text_chars _ inText).2.1 (by simpa using isSlash)
  rw [trimRightSlash, ← String.toList_inj, String.toList_ofList, String.toList_append, text_toList,
    ← List.append_assoc, rdropWhile_append_stop (p := fun c => c == '/') colon, noSlash]

theorem trimSpace_http_text (l : ListenAddress) : trimSpace ("http://" ++ l.text) ≠ "" := by
  rw [l.trimSpace_append_text (by decide), ← String.toList_inj.ne, String.toList_append]
  exact List.append_ne_nil_of_left_ne_nil (by decide) _

/-- What is advertised for a listen address. -/
theorem advertiseHTTPAddress_text (l : ListenAddress) :
    advertiseHTTPAddress l.text = "http://" ++ l.advertised.text := by
  have trimmedAfter : trimSpace ("" ++ l.text) = "" ++ l.text := l.trimSpace_append_text rfl
  have trimmed : trimSpace l.text = l.text := by simpa using trimmedAfter
  have kept : trimRightSlash l.advertised.text = l.advertised.text := by
    simpa using l.advertised.trimRightSlash_append_text ""
  have noScheme : ∀ scheme : String, '/' ∈ scheme.toList → hasPrefix l.text scheme = false := by
    intro scheme slash
    apply Bool.eq_false_iff.mpr
    intro starts
    have isPrefix := List.isPrefixOf_iff_prefix.mp starts
    exact (l.text_chars '/' (isPrefix.subset slash)).2.1 rfl
  rw [advertiseHTTPAddress]
  simp only [trimmed, noScheme "http://" (by decide), noScheme "https://" (by decide), Bool.false_eq_true,
    or_self, if_false, advertiseHostPort_text, kept]

/-- An address that was normalised stays as it is. -/
theorem advertiseHTTPAddress_http (l : ListenAddress) :
    advertiseHTTPAddress ("http://" ++ l.text) = "http://" ++ l.text := by
  have starts : hasPrefix ("http://" ++ l.text) "http://" = true := by
    rw [hasPrefix, String.toList_append]
    exact List.isPrefixOf_iff_prefix.mpr (List.prefix_append _ _)
  rw [advertiseHTTPAddress, l.trimSpace_append_text (by decide), if_pos (Or.inl starts),
    trimRightSlash_append_text]

end ListenAddress

/-! ### The server of a listen address -/

section Server

variable {W : Type} {go : GoLib}

/-- The options of shard execution leave the capabilities and the registry of a new server alone. -/
theorem newPlanningServer_serverOptions (caps : List Capability) (serverOpts : List (ServerOption W)) :
    (newPlanningServer caps (serverOpts.map fun opt => some (PlanningOption.ofServerOption opt))).capabilities =
        copyCapabilities caps ∧
      (newPlanningServer caps
        (serverOpts.map fun opt => some (PlanningOption.ofServerOption opt))).registry = none := by
  have kept : ∀ s : PlanningServer W,
      (serverOpts.foldl (fun s opt => PlanningOption.ofServerOption opt s) s).capabilities = s.capabilities ∧
        (serverOpts.foldl (fun s opt => PlanningOption.ofServerOption opt s) s).registry = s.registry := by
    induction serverOpts with
    | nil => exact fun s => ⟨rfl, rfl⟩
    | cons opt rest inductionHypothesis =>
        intro s
        exact inductionHypothesis (PlanningOption.ofServerOption opt s)
  rw [newPlanningServer, List.foldl_map]
  exact kept _

/-- The capability that advertises an address. -/
def localCapability (address : String) : Capability :=
  ⟨"local", ⟨"local", .finite 1, "go-pherence"⟩,
    ((AList.insert "mode" "local-only" ∅).insert "address" address).insert "transport" "http"⟩

theorem localCapability_importedPeer (address : String) :
    (localCapability address).importedPeer =
      ⟨"local", address, "http", ⟨"local", .finite 1, "go-pherence"⟩, 0⟩ := by
  have atAddress : (localCapability address).metadata.get "address" "" = address := by
    rw [GoMap.get, localCapability, AList.lookup_insert_ne (by decide), AList.lookup_insert, Option.getD_some]
  have atTransport : (localCapability address).metadata.get "transport" "" = "http" := by
    rw [GoMap.get, localCapability, AList.lookup_insert, Option.getD_some]
  rw [Capability.importedPeer, atAddress, atTransport]
  rfl

/-- The local capability is that of the advertised address, which the second normalisation keeps. -/
theorem localCapabilities_text (l : ListenAddress) :
    localCapabilities [advertiseHTTPAddress l.text] = [localCapability ("http://" ++ l.advertised.text)] := by
  rw [localCapabilities, l.advertiseHTTPAddress_text]
  simp only [if_pos l.advertised.trimSpace_http_text, l.advertised.advertiseHTTPAddress_http]
  rfl

/-- The local peer is valid if its address parses as an HTTP URL with a host. -/
theorem localPeer_valid_iff (l : ListenAddress) :
    (localCapability ("http://" ++ l.text)).importedPeer.validate go = .ok () ↔
      ¬ badPeerUrl (go.urlParse ("http://" ++ l.text)) := by
  have named : trimSpace "local" ≠ "" := by decide
  have usable : ¬ badWeight (.finite 1) := by decide
  rw [localCapability_importedPeer, Peer.validate_eq_ok]
  simp [l.trimSpace_http_text, named, usable, transportHTTP]

theorem sortDevices_singleton (d : Device) : sortDevices go [d] = [d] :=
  List.perm_singleton.mp (sortDevices_perm go [d])

/-- The local device alone can be planned for. -/
theorem localDevice_plannable (sums : go.float.add .zero (.finite 1) = .finite 1) {totalLayers : Int}
    (positive : 1 ≤ totalLayers) : Plannable go [⟨"local", .finite 1, "go-pherence"⟩] totalLayers := by
  refine ⟨positive, by decide, by simpa using positive, by decide, by decide, by decide, ?_⟩
  rw [sortDevices_singleton, runningTotals, sums, runningTotals]
  decide

/-- A valid capability with the local device can be previewed. -/
theorem local_previewable {cap : Capability} (sums : go.float.add .zero (.finite 1) = .finite 1)
    (peerID : cap.peerID = "local") (device : cap.device = ⟨"local", .finite 1, "go-pherence"⟩)
    (valid : cap.importedPeer.validate go = .ok ()) {totalLayers : Int} (positive : 1 ≤ totalLayers) :
    Previewable go .background [cap] totalLayers where
  openContext := Ctx.openForPreview_background _ _
  plannable := by
    rw [List.map_singleton, device]
    exact localDevice_plannable sums positive
  guarded := by
    rw [List.map_singleton, sortDevices_singleton]
    exact fun d member => by cases member
  valid := by simpa using valid
  peers_distinct := List.nodup_singleton _
  devices_named := by simp [device, peerID]

/-- A GET for a route preview with a layer count is answered if the capabilities can be previewed. -/
theorem handleRoutesPreview_previewable {s : PlanningServer W} {wire : WireLib} {lib : PreviewLib} {ctx : Ctx}
    {r : HttpRequest} {layers : Int} (unregistered : s.registry = none) (isGet : r.method = "GET")
    (parsed : positiveIntQuery lib r "layers" = .ok layers) (bounded : layers ≤ maxInt)
    (previewable : Previewable go ctx s.capabilitiesCopy layers) :
    (s.handleRoutesPreview go wire lib ctx r).status = 200 := by
  obtain ⟨preview, previewed⟩ := previewable.preview bounded (lib.queryGet r.url "model")
  rw [PlanningServer.handleRoutesPreview, if_neg (by simp [isGet]), parsed]
  simp only [unregistered, previewed]
  rfl

theorem positiveIntQuery_range {lib : PreviewLib} {r : HttpRequest} {name : String} {n : Int}
    (parsed : positiveIntQuery lib r name = .ok n) : 1 ≤ n ∧ n ≤ maxInt := by
  rw [positiveIntQuery] at parsed
  cases value : atoi (lib.queryGet r.url name) with
  | none =>
      rw [value] at parsed
      cases parsed
  | some m =>
      rw [value] at parsed
      by_cases nonpositive : m ≤ 0
      · simp [nonpositive] at parsed
      · have same : m = n := by simpa [nonpositive] using parsed
        subst same
        have isInt : IsInt m := by
          rw [atoi, Option.filter_eq_some_iff] at value
          exact of_decide_eq_true value.2
        exact ⟨Int.not_le.mp nonpositive, isInt.2⟩

end Server

/-! ### Routing to the advertised address -/

/-- What `url.Parse` accepts of the addresses that can be listened on: a port that is empty or all digits,
and a host whose percent signs are escapes. -/
structure AuthorityRule (go : GoLib) (listens : ListenAddress → Prop) (validEscapes : List Char → Bool) :
    Prop where
  loopback : ∀ l, listens l → listens l.loopback
  unescaped : ∀ host, '%' ∉ host → validEscapes host = true
  accepts : ∀ l, listens l → (∀ c ∈ l.port, c.isDigit = true) → validEscapes l.host = true →
    ∃ url, go.urlParse ("http://" ++ l.text) = some url ∧ url.scheme = "http" ∧ url.host ≠ ""
  rejects : ∀ l, listens l → ¬ ((∀ c ∈ l.port, c.isDigit = true) ∧ validEscapes l.host = true) →
    go.urlParse ("http://" ++ l.text) = none

section Routable

variable {W : Type} {go : GoLib} {listens : ListenAddress → Prop} {validEscapes : List Char → Bool}

/-- The advertised address is a peer address exactly if it follows the rule. -/
theorem AuthorityRule.peerUrl_iff (rule : AuthorityRule go listens validEscapes) {l : ListenAddress}
    (listened : listens l) :
    ¬ badPeerUrl (go.urlParse ("http://" ++ l.text)) ↔
      (∀ c ∈ l.port, c.isDigit = true) ∧ validEscapes l.host = true := by
  by_cases follows : (∀ c ∈ l.port, c.isDigit = true) ∧ validEscapes l.host = true
  · obtain ⟨url, parsed, scheme, hosted⟩ := rule.accepts l listened follows.1 follows.2
    refine iff_of_true ?_ follows
    rw [parsed]
    simp [badPeerUrl, scheme, hosted]
  · refine iff_of_false ?_ follows
    rw [rule.rejects l listened follows]
    exact fun good => good trivial

/-- A wildcard host is replaced by one without escapes, so the rule asks the same of both addresses. -/
theorem AuthorityRule.advertised_iff (rule : AuthorityRule go listens validEscapes) (l : ListenAddress) :
    ((∀ c ∈ l.advertised.port, c.isDigit = true) ∧ validEscapes l.advertised.host = true) ↔
      (∀ c ∈ l.port, c.isDigit = true) ∧ validEscapes l.host = true := by
  by_cases wildcard : String.ofList l.host ∈ ["", "0.0.0.0", "::"]
  · have isAdvertised : l.advertised = l.loopback := if_pos wildcard
    have plain : '%' ∉ l.host := by
      have each : ∀ host ∈ ["", "0.0.0.0", "::"], '%' ∉ host.toList := by decide
      simpa using each _ wildcard
    have escapes : validEscapes l.host = true := rule.unescaped _ plain
    have loopbackEscapes : validEscapes "127.0.0.1".toList = true := rule.unescaped _ (by decide)
    rw [isAdvertised]
    exact and_congr_right fun _ => iff_of_true loopbackEscapes escapes
  · have isAdvertised : l.advertised = l := if_neg wildcard
    rw [isAdvertised]

theorem AuthorityRule.listens_advertised (rule : AuthorityRule go listens validEscapes) {l : ListenAddress}
    (listened : listens l) : listens l.advertised := by
  rw [ListenAddress.advertised]
  split_ifs
  · exact rule.loopback l listened
  · exact listened

/-- The server that listens on an address can be routed to. -/
structure RoutableListener (go : GoLib) (serverOpts : List (ServerOption W)) (l : ListenAddress) : Prop where
  /-- The capability advertises the address as it was normalised first. -/
  stable : ∀ cap ∈ localCapabilities [advertiseHTTPAddress l.text],
    cap.metadata.get "address" "" = advertiseHTTPAddress l.text
  /-- The peer of the capability is valid. -/
  valid : ∀ cap ∈ localCapabilities [advertiseHTTPAddress l.text],
    ∃ peer, peerFromCapability go cap = .ok peer ∧ peer.validate go = .ok ()
  /-- The route preview of the server answers. -/
  previewed : ∀ (wire : WireLib) (lib : PreviewLib) (r : HttpRequest) (layers : Int), r.method = "GET" →
    positiveIntQuery lib r "layers" = .ok layers →
    ((runServeServer l.text serverOpts).handleRoutesPreview go wire lib .background r).status = 200

/-- Normalising the address a second time does not change it. -/
theorem advertised_address_stable (l : ListenAddress) :
    ∀ cap ∈ localCapabilities [advertiseHTTPAddress l.text],
      cap.metadata.get "address" "" = advertiseHTTPAddress l.text := by
  intro cap member
  rw [localCapabilities_text, List.mem_singleton] at member
  rw [member, l.advertiseHTTPAddress_text, GoMap.get, localCapability, AList.lookup_insert_ne (by decide),
    AList.lookup_insert, Option.getD_some]

/-- A server can be routed to exactly if its port is a number and the percent signs of its host are
escapes; the address is stable in any case. -/
theorem advertised_address_routable_iff (go : GoLib) (listens : ListenAddress → Prop)
    (validEscapes : List Char → Bool) (rule : AuthorityRule go listens validEscapes)
    (sums : go.float.add .zero (.finite 1) = .finite 1) (serverOpts : List (ServerOption W))
    (l : ListenAddress) (listened : listens l) :
    RoutableListener go serverOpts l ↔ (∀ c ∈ l.port, c.isDigit = true) ∧ validEscapes l.host = true := by
  rw [← rule.advertised_iff l, ← rule.peerUrl_iff (rule.listens_advertised listened),
    ← localPeer_valid_iff]
  constructor
  · intro routable
    obtain ⟨peer, imported, -⟩ := routable.valid _ (by
      rw [localCapabilities_text]
      exact List.mem_singleton_self _)
    exact (peerFromCapability_eq_ok.mp imported).1
  · intro valid
    refine ⟨advertised_address_stable l, ?_, ?_⟩
    · intro cap member
      rw [localCapabilities_text, List.mem_singleton] at member
      subst member
      exact ⟨_, peerFromCapability_eq_ok.mpr ⟨valid, rfl⟩, valid⟩
    · intro wire lib r layers isGet parsed
      obtain ⟨positive, bounded⟩ := positiveIntQuery_range parsed
      obtain ⟨capabilities, unregistered⟩ :=
        newPlanningServer_serverOptions (localCapabilities [advertiseHTTPAddress l.text]) serverOpts
      refine handleRoutesPreview_previewable unregistered isGet parsed bounded ?_
      rw [PlanningServer.capabilitiesCopy, runServeServer, capabilities, localCapabilities_text]
      refine local_previewable sums rfl rfl ?_ positive
      rw [importedPeer_copy, importedPeer_copy]
      exact valid

end Routable

/-! ### A library with these checks -/

/-- A text starts with the digits of an escape in a host: that of the percent sign, or one of a byte outside
ASCII. -/
def startsEscape : List Char → Bool
  | first :: second :: _ =>
      (first == '2' && second == '5') ||
        (first ∈ "89abcdefABCDEF".toList && second ∈ "0123456789abcdefABCDEF".toList)
  | _ => false

/-- Every percent sign starts an escape. -/
def hostEscapes : List Char → Bool
  | [] => true
  | c :: rest => (c != '%' || startsEscape rest) && hostEscapes rest

theorem hostEscapes_unescaped {host : List Char} (plain : '%' ∉ host) : hostEscapes host = true := by
  induction host with
  | nil => rfl
  | cons c rest inductionHypothesis =>
      rw [List.mem_cons, not_or] at plain
      have other : (c != '%') = true := by simpa using fun same => plain.1 same.symm
      rw [hostEscapes, other, inductionHypothesis plain.2]
      rfl

/-- The usual URL splitting, with the checks of an authority. -/
def GoLib.checking : GoLib where
  urlParse raw := (splitUrl raw).filter fun url =>
    match splitHostPort url.host with
    | some (host, port) => port.toList.all Char.isDigit && hostEscapes host.toList
    | none => true
  float := FloatOps.exact
  sort := Sorting.SortSlice.insertion

theorem checking_urlParse (l : ListenAddress) :
    GoLib.checking.urlParse ("http://" ++ l.text) =
      if l.port.all Char.isDigit && hostEscapes l.host then some ⟨"http", l.text, "", ""⟩ else none := by
  have parts : AddressParts ("http://" ++ l.text).toList "http".toList l.text.toList [] [] := by
    refine ⟨?_, by decide, fun c member => (l.text_chars c member).2, by simp, by simp, by simp⟩
    rw [String.toList_append]
    simp
  have splits := splitUrl_parts parts
  rw [String.ofList_toList, String.ofList_toList, String.ofList_toList] at splits
  have host : splitHostPort l.text = some (String.ofList l.host, String.ofList l.port) := l.splitHostPort_text
  rw [GoLib.checking]
  simp only [splits, Option.filter, host, String.toList_ofList]
  rfl

theorem checking_authorityRule : AuthorityRule GoLib.checking (fun _ => True) hostEscapes where
  loopback _ _ := trivial
  unescaped _ := hostEscapes_unescaped
  accepts l _ digits escapes := by
    rw [checking_urlParse, if_pos (by simpa [escapes] using digits)]
    refine ⟨_, rfl, rfl, ?_⟩
    rw [← String.toList_inj.ne, l.text_toList]
    simp
  rejects l _ refused := by
    rw [checking_urlParse, if_neg (by simpa using refused)]

/-- Loopback at the port of a service name. -/
def servicePort : ListenAddress :=
  ⟨false, "127.0.0.1".toList, "http".toList, by decide, by decide⟩

/-- A link-local address with its zone. -/
def zonedHost : ListenAddress :=
  ⟨true, "fe80::1%eth0".toList, "8080".toList, by decide, by decide⟩

/-- Both can be listened on, and the peer each advertises is refused. -/
theorem service_port_refused :
    servicePort.text = "127.0.0.1:http" ∧ zonedHost.text = "[fe80::1%eth0]:8080" ∧
      (localCapabilities [advertiseHTTPAddress servicePort.text]).map (peerFromCapability GoLib.checking) =
        [.error (.errorf "invalid peer address %q" [.str "http://127.0.0.1:http"])] ∧
      (localCapabilities [advertiseHTTPAddress zonedHost.text]).map (peerFromCapability GoLib.checking) =
        [.error (.errorf "invalid peer address %q" [.str "http://[fe80::1%eth0]:8080"])] ∧
      ¬ RoutableListener (W := Unit) GoLib.checking [] servicePort ∧
      ¬ RoutableListener (W := Unit) GoLib.checking [] zonedHost := by
  have service : (localCapabilities [advertiseHTTPAddress servicePort.text]).map
      (peerFromCapability GoLib.checking) =
        [.error (.errorf "invalid peer address %q" [.str "http://127.0.0.1:http"])] := by
    decide +kernel
  have zoned : (localCapabilities [advertiseHTTPAddress zonedHost.text]).map
      (peerFromCapability GoLib.checking) =
        [.error (.errorf "invalid peer address %q" [.str "http://[fe80::1%eth0]:8080"])] := by
    decide +kernel
  have refused : ∀ (l : ListenAddress) (err : GoError),
      (localCapabilities [advertiseHTTPAddress l.text]).map (peerFromCapability GoLib.checking) = [.error err] →
        ¬ RoutableListener (W := Unit) GoLib.checking [] l := by
    intro l err isError routable
    rw [localCapabilities_text, List.map_singleton, List.singleton_inj] at isError
    obtain ⟨peer, imported, -⟩ := routable.valid _ (by
      rw [localCapabilities_text]
      exact List.mem_singleton_self _)
    rw [imported] at isError
    cases isError
  exact ⟨by decide +kernel, by decide +kernel, service, zoned, refused _ _ service, refused _ _ zoned⟩

/-- A server that listens on every interface. -/
theorem advertised_address_routable_wildcard :
    RoutableListener (W := Unit) GoLib.checking []
      ⟨false, "0.0.0.0".toList, "8089".toList, by decide, by decide⟩ := by
  apply (advertised_address_routable_iff GoLib.checking (fun _ => True) hostEscapes checking_authorityRule
    (by decide +kernel) [] _ trivial).mpr
  have digits : "8089".toList.all Char.isDigit = true := by decide
  exact ⟨List.all_eq_true.mp digits, by decide⟩

end GoExotic
