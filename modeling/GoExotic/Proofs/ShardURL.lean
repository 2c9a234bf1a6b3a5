/-
Module: GoExotic.Proofs.ShardURL
Purpose: Where a remote worker posts to. The validator looks at the parsed address, the worker trims the
  address as text and appends the path of the shard endpoint. That is the endpoint under the address
  exactly if the address has neither a query nor a fragment, which would swallow the path, and no white
  space at its end, which would be lost.
Trusted boundary: net/url, by the usual splitting rule
Main exports: AddressParts, splitUrl_parts, parts_of_splitUrl, UsualSplit, postedURL, LeadsToEndpoint,
  posted_url_leads_iff
-/
import GoExotic.Model.RemoteWorker
import GoExotic.Proofs.RegistryState
import GoExotic.Theory.Spans

namespace GoExotic

open Spans

/-! ### Splitting -/

/-- The parts of an address `scheme://host`, path and the rest from the first `?` or `#` on. -/
structure AddressParts (raw scheme host path tail : List Char) : Prop where
  whole : raw = scheme ++ ':' :: '/' :: '/' :: (host ++ (path ++ tail))
  scheme_ends : ':' ∉ scheme
  host_chars : ∀ c ∈ host, c ≠ '/' ∧ c ≠ '?' ∧ c ≠ '#'
  path_chars : ∀ c ∈ path, c ≠ '?' ∧ c ≠ '#'
  path_starts : ∀ c, path.head? = some c → c = '/'
  tail_starts : ∀ c, tail.head? = some c → c = '?' ∨ c = '#'

/-- The query in what follows the path. -/
def queryOf : List Char → List Char
  | '?' :: query => query.takeWhile fun c => c != '#'
  | _ => []

/-- An address splits into its parts. -/
theorem splitUrl_parts {raw scheme host path tail : List Char}
    (parts : AddressParts raw scheme host path tail) :
    splitUrl (String.ofList raw) =
      some ⟨String.ofList scheme, String.ofList host, String.ofList path, String.ofList (queryOf tail)⟩ := by
  have schemeSplit : raw.span (fun c => c != ':') = (scheme, ':' :: '/' :: '/' :: (host ++ (path ++ tail))) := by
    rw [parts.whole]
    apply span_append (forall_ne_of_notMem parts.scheme_ends)
    intro c isHead
    cases isHead
    rfl
  have hostSplit : (host ++ (path ++ tail)).span (fun c => c != '/' && c != '?' && c != '#') =
      (host, path ++ tail) := by
    apply span_append
    · intro c member
      simpa [and_assoc] using parts.host_chars c member
    · intro c isHead
      cases path with
      | nil =>
          rcases parts.tail_starts c isHead with rfl | rfl
          · rfl
          · rfl
      | cons first more =>
          cases isHead
          rw [parts.path_starts c rfl]
          rfl
  have pathSplit : (path ++ tail).span (fun c => c != '?' && c != '#') = (path, tail) := by
    apply span_append
    · intro c member
      simpa using parts.path_chars c member
    · intro c isHead
      rcases parts.tail_starts c isHead with rfl | rfl
      · rfl
      · rfl
  rw [splitUrl, String.toList_ofList, schemeSplit]
  simp only [hostSplit, pathSplit]
  rfl

/-- Where an address splits with a host, these are its parts. -/
theorem parts_of_splitUrl {raw : String} {url : Url} (splits : splitUrl raw = some url) (hosted : url.host ≠ "") :
    ∃ tail, AddressParts raw.toList url.scheme.toList url.host.toList url.path.toList tail ∧
      url.rawQuery = String.ofList (queryOf tail) := by
  rw [splitUrl] at splits
  split at splits
  · next scheme authority schemeSplit =>
      obtain ⟨whole, schemeChars, -⟩ := span_spec (fun c => c != ':') raw.toList
      obtain ⟨hostWhole, hostChars, hostEnds⟩ := span_spec (fun c => c != '/' && c != '?' && c != '#') authority
      rcases hostSplit : authority.span (fun c => c != '/' && c != '?' && c != '#') with ⟨host, rest⟩
      obtain ⟨restWhole, pathChars, pathEnds⟩ := span_spec (fun c => c != '?' && c != '#') rest
      rcases pathSplit : rest.span (fun c => c != '?' && c != '#') with ⟨path, tail⟩
      rw [schemeSplit] at whole schemeChars
      rw [hostSplit] at hostWhole hostChars hostEnds
      rw [pathSplit] at restWhole pathChars pathEnds
      simp only [hostSplit, pathSplit, Option.some.injEq] at splits
      subst splits
      dsimp only at whole schemeChars hostWhole hostChars hostEnds restWhole pathChars pathEnds
      simp only [String.toList_ofList]
      refine ⟨tail, ⟨?_, ?_, ?_, ?_, ?_, ?_⟩, rfl⟩
      · rw [whole, hostWhole, restWhole]
      · intro member
        exact absurd (schemeChars ':' member) (by decide)
      · intro c member
        simpa [and_assoc] using hostChars c member
      · intro c member
        simpa using pathChars c member
      · intro c isHead
        cases path with
        | nil => cases isHead
        | cons first more =>
            cases isHead
            obtain ⟨notQuery, notFragment⟩ : c ≠ '?' ∧ c ≠ '#' := by simpa using pathChars c (by simp)
            have outside := hostEnds c (by rw [restWhole]; rfl)
            by_contra notSlash
            simp [notSlash, notQuery, notFragment] at outside
      · intro c isHead
        have outside := pathEnds c isHead
        by_contra neither
        rw [not_or] at neither
        simp [neither.1, neither.2] at outside
  · cases splits
    exact absurd rfl hosted

/-! ### Trimming -/

/-- What the worker makes of the end of an address. -/
def trimEnd (rest : List Char) : List Char := (rest.rdropWhile isSpace).rdropWhile fun c => c == '/'

theorem trimEnd_append_stop {c : Char} (notSpace : isSpace c = false) (notSlash : c ≠ '/')
    (first rest : List Char) : trimEnd (first ++ c :: rest) = first ++ c :: trimEnd rest := by
  have stops : (c == '/') = false := beq_false_of_ne notSlash
  rw [trimEnd, rdropWhile_append_stop notSpace, rdropWhile_append_stop (p := fun c => c == '/') stops, trimEnd]

/-- If only slashes are trimmed, there is no white space at the end. -/
theorem rtakeWhile_of_trimEnd {front slashes : List Char} (trimmed : trimEnd (front ++ slashes) = front)
    (each : ∀ c ∈ slashes, c = '/') : (front ++ slashes).rtakeWhile isSpace = [] := by
  have blanksSplit := List.rdropWhile_append_rtakeWhile (p := isSpace) (l := front ++ slashes)
  have slashesSplit := List.rdropWhile_append_rtakeWhile (p := fun c => c == '/')
    (l := (front ++ slashes).rdropWhile isSpace)
  rw [← trimEnd, trimmed] at slashesSplit
  have ends : ((front ++ slashes).rdropWhile isSpace).rtakeWhile (fun c => c == '/') ++
      (front ++ slashes).rtakeWhile isSpace = slashes := by
    apply (List.append_right_inj front).mp
    rw [← List.append_assoc, slashesSplit, blanksSplit]
  apply List.eq_nil_iff_forall_not_mem.mpr
  intro c blank
  have isBlank : isSpace c = true := List.mem_rtakeWhile_imp blank
  have isSlash : c = '/' := each c (ends ▸ List.mem_append_right _ blank)
  rw [isSlash] at isBlank
  exact absurd isBlank (by decide)

/-- The text of the endpoint that a worker with some address posts to. -/
def postedURL (address : String) : String := (RemoteShardWorker.mk address).base ++ "/shards/execute"

/-- Trimming an address stops at the colon after the scheme. -/
theorem postedURL_toList {address : String} {scheme rest : List Char}
    (whole : address.toList = scheme ++ ':' :: rest) :
    (postedURL address).toList =
      scheme.dropWhile isSpace ++ ':' :: (trimEnd rest ++ "/shards/execute".toList) := by
  have notSpace : isSpace ':' = false := by decide
  have notSlash : (':' == '/') = false := by decide
  simp only [postedURL, RemoteShardWorker.base, trimRightSlash, trimSpace, trimBoth, String.toList_append,
    String.toList_ofList, whole]
  rw [dropWhile_append_stop notSpace, rdropWhile_append_stop notSpace,
    rdropWhile_append_stop (p := fun c => c == '/') notSlash, List.append_assoc, List.cons_append, trimEnd]

/-- The address ends in white space. -/
def EndsInSpace (address : String) : Prop := ∃ c, address.toList.getLast? = some c ∧ isSpace c = true

section Posted

variable {address : String} {scheme host path tail : List Char}

theorem suffix_path : ∀ c, ("/shards/execute".toList).head? = some c → c = '/' := by
  intro c isHead
  cases isHead
  rfl

theorem suffix_chars : ∀ c ∈ "/shards/execute".toList, c ≠ '?' ∧ c ≠ '#' := by
  have each : "/shards/execute".toList.all (fun c => c != '?' && c != '#') = true := by decide
  intro c member
  simpa using List.all_eq_true.mp each c member

/-- A query or a fragment keeps the path of the address, and takes the appended path up. -/
theorem posted_with_tail (parts : AddressParts address.toList scheme host path tail) (more : tail ≠ []) :
    ∃ posted, AddressParts (postedURL address).toList (scheme.dropWhile isSpace) host path posted := by
  obtain ⟨q, later, rfl⟩ := List.exists_cons_of_ne_nil more
  have isMark := parts.tail_starts q rfl
  have notSpace : isSpace q = false := by rcases isMark with rfl | rfl <;> decide
  have notSlash : q ≠ '/' := by rcases isMark with rfl | rfl <;> decide
  refine ⟨q :: (trimEnd later ++ "/shards/execute".toList), ?_, ?_, parts.host_chars, parts.path_chars,
    parts.path_starts, ?_⟩
  · rw [postedURL_toList parts.whole]
    have front : '/' :: '/' :: (host ++ (path ++ q :: later)) = ('/' :: '/' :: (host ++ path)) ++ q :: later := by
      simp
    rw [front, trimEnd_append_stop notSpace notSlash]
    simp
  · exact fun member => parts.scheme_ends ((List.dropWhile_suffix _).subset member)
  · intro c isHead
    cases isHead
    exact isMark

/-- The slashes at the end of an address are those of its path. -/
theorem slashes_of_path (hosted : host ≠ []) (hostChars : ∀ c ∈ host, c ≠ '/') (path : List Char) :
    ('/' :: '/' :: (host ++ path)).rdropWhile (fun c => c == '/') =
      '/' :: '/' :: (host ++ path.rdropWhile fun c => c == '/') := by
  have stops : (host.getLast hosted == '/') = false :=
    beq_false_of_ne (hostChars _ (List.getLast_mem hosted))
  have ends : ∀ rest, '/' :: '/' :: (host ++ rest) =
      ('/' :: '/' :: host.dropLast) ++ host.getLast hosted :: rest := by
    intro rest
    conv_lhs => rw [← List.dropLast_append_getLast hosted]
    simp
  rw [ends, rdropWhile_append_stop (p := fun c => c == '/') stops, ends]

/-- The address ends in the character that follows its scheme last. -/
theorem endsInSpace_iff (parts : AddressParts address.toList scheme host path []) :
    EndsInSpace address ↔ ∃ c, ('/' :: '/' :: (host ++ path)).getLast? = some c ∧ isSpace c = true := by
  have same : address.toList.getLast? = ('/' :: '/' :: (host ++ path)).getLast? := by
    rw [parts.whole, List.append_nil, List.getLast?_append, List.getLast?_cons_cons]
    cases last : ('/' :: '/' :: (host ++ path)).getLast? with
    | none => simp at last
    | some c => rfl
  rw [EndsInSpace, same]

/-- Without them, and without white space at the end, the path is appended to that of the address. -/
theorem posted_plain (parts : AddressParts address.toList scheme host path []) (hosted : host ≠ [])
    (kept : ¬ EndsInSpace address) :
    AddressParts (postedURL address).toList (scheme.dropWhile isSpace) host
      (path.rdropWhile (fun c => c == '/') ++ "/shards/execute".toList) [] := by
  rw [endsInSpace_iff parts] at kept
  have noSpace : ('/' :: '/' :: (host ++ path)).rdropWhile isSpace = '/' :: '/' :: (host ++ path) := by
    rw [List.rdropWhile_eq_self_iff]
    intro given isBlank
    exact kept ⟨_, List.getLast?_eq_some_getLast given, isBlank⟩
  constructor
  case whole =>
    rw [postedURL_toList parts.whole, List.append_nil, trimEnd, noSpace,
      slashes_of_path hosted (fun c member => (parts.host_chars c member).1)]
    simp
  case scheme_ends => exact fun member => parts.scheme_ends ((List.dropWhile_suffix _).subset member)
  case host_chars => exact parts.host_chars
  case path_chars =>
    intro c member
    rcases List.mem_append.mp member with inPath | appended
    · exact parts.path_chars c ((List.rdropWhile_prefix _ path).subset inPath)
    · exact suffix_chars c appended
  case path_starts =>
    intro c isHead
    cases left : path.rdropWhile (fun c => c == '/') with
    | nil =>
        rw [left] at isHead
        exact suffix_path c isHead
    | cons first more =>
        rw [left] at isHead
        cases isHead
        apply parts.path_starts c
        have split := List.rdropWhile_append_rtakeWhile (p := fun c => c == '/') (l := path)
        rw [left] at split
        rw [← split]
        rfl
  case tail_starts =>
    intro c isHead
    cases isHead

/-- Trimming and appending the endpoint make no query and no fragment. -/
theorem noMark_trimmed (parts : AddressParts address.toList scheme host path []) :
    ∀ c ∈ trimEnd ('/' :: '/' :: (host ++ path)) ++ "/shards/execute".toList, ¬ c = '?' ∧ ¬ c = '#' := by
  intro c member
  rcases List.mem_append.mp member with kept | appended
  · have given : c ∈ '/' :: '/' :: (host ++ path) :=
      (List.rdropWhile_prefix _ _).subset ((List.rdropWhile_prefix _ _).subset kept)
    simp only [List.mem_cons, List.mem_append] at given
    rcases given with rfl | rfl | inHost | inPath
    · decide
    · decide
    · exact (parts.host_chars c inHost).2
    · exact parts.path_chars c inPath
  · exact suffix_chars c appended

/-- White space at the end is trimmed, so what is posted has not the whole host and path of the address. -/
theorem posted_trimmed (parts : AddressParts address.toList scheme host path [])
    (blank : EndsInSpace address) {shown later : List Char}
    (posted : AddressParts (postedURL address).toList shown host
      (path.rdropWhile (fun c => c == '/') ++ "/shards/execute".toList) later) : False := by
  obtain ⟨c, isLast, isBlank⟩ := (endsInSpace_iff parts).mp blank
  have sameText := posted.whole
  rw [postedURL_toList parts.whole, List.append_nil] at sameText
  -- What follows the scheme is the same in both readings.
  have afterColon : trimEnd ('/' :: '/' :: (host ++ path)) ++ "/shards/execute".toList =
      '/' :: '/' :: (host ++ ((path.rdropWhile (fun c => c == '/') ++ "/shards/execute".toList) ++ later)) := by
    have noColon : ':' ∉ scheme.dropWhile isSpace :=
      fun member => parts.scheme_ends ((List.dropWhile_suffix _).subset member)
    exact (append_stop_inj (p := fun d => d != ':') rfl (forall_ne_of_notMem noColon)
      (forall_ne_of_notMem posted.scheme_ends) sameText).2
  have noTail : later = [] := by
    cases later with
    | nil => rfl
    | cons d more =>
        have shownThere : d ∈ trimEnd ('/' :: '/' :: (host ++ path)) ++ "/shards/execute".toList := by
          rw [afterColon]
          simp
        have isMark := posted.tail_starts d rfl
        exact absurd isMark (not_or.mpr (noMark_trimmed parts d shownThere))
  have trimmedWhole : trimEnd ('/' :: '/' :: (host ++ path)) =
      '/' :: '/' :: (host ++ path.rdropWhile fun d => d == '/') := by
    apply (List.append_left_inj "/shards/execute".toList).mp
    rw [afterColon, noTail]
    simp
  have pathSplit := List.rdropWhile_append_rtakeWhile (p := fun d => d == '/') (l := path)
  have front : '/' :: '/' :: (host ++ path) = '/' :: '/' :: (host ++ path.rdropWhile fun d => d == '/') ++
      path.rtakeWhile fun d => d == '/' := by
    simp [List.append_assoc, pathSplit]
  rw [front] at trimmedWhole
  have noBlank := rtakeWhile_of_trimEnd trimmedWhole fun d member =>
    beq_iff_eq.mp (List.mem_rtakeWhile_imp (p := fun d => d == '/') member)
  rw [← front, List.rtakeWhile_eq_nil_iff] at noBlank
  rw [List.getLast?_eq_some_getLast (List.cons_ne_nil _ _), Option.some.injEq] at isLast
  exact noBlank (List.cons_ne_nil _ _) (isLast ▸ isBlank)

end Posted

/-! ### The shard endpoint -/

/-- `url.Parse` splits an address, where it has a scheme and a host, by the usual rule; the scheme may change case. -/
def UsualSplit (go : GoLib) (raw : String) : Prop :=
  ∀ url, go.urlParse raw = some url → url.scheme ≠ "" → url.host ≠ "" →
    ∃ scheme : String, splitUrl raw = some { url with scheme := scheme } ∧
      scheme.toList.map Char.toLower = url.scheme.toList.map Char.toLower

/-- What is posted to has the host and the query of the address, and its path with the endpoint's appended. -/
def LeadsToEndpoint (address : String) : Prop :=
  ∃ given posted, splitUrl address = some given ∧ splitUrl (postedURL address) = some posted ∧
    posted.host = given.host ∧ posted.path = trimRightSlash given.path ++ "/shards/execute" ∧
    posted.rawQuery = given.rawQuery

/-- The address has no query, no fragment, and no white space at its end. -/
def BareAddress (address : String) : Prop :=
  '?' ∉ address.toList ∧ '#' ∉ address.toList ∧ ¬ EndsInSpace address

/-- A valid address in parts; its scheme is `http` in some case. -/
theorem parts_of_valid {go : GoLib} {peer : Peer} (usual : UsualSplit go peer.address)
    (valid : peer.validate go = .ok ()) :
    ∃ url scheme tail, splitUrl peer.address = some url ∧ url.host.toList ≠ [] ∧
      AddressParts peer.address.toList scheme url.host.toList url.path.toList tail ∧
      url.rawQuery = String.ofList (queryOf tail) ∧ scheme.map Char.toLower = "http".toList := by
  obtain ⟨-, -, -, -, accepted, -⟩ := Peer.validate_eq_ok.mp valid
  cases parsed : go.urlParse peer.address with
  | none => exact absurd (by rw [parsed]; exact trivial) accepted
  | some url =>
      rw [parsed] at accepted
      obtain ⟨schemed, hosted, isHttp⟩ : url.scheme ≠ "" ∧ url.host ≠ "" ∧ url.scheme = "http" := by
        simpa [badPeerUrl, not_or] using accepted
      obtain ⟨scheme, splits, sameScheme⟩ := usual url parsed schemed hosted
      obtain ⟨tail, parts, query⟩ := parts_of_splitUrl splits hosted
      refine ⟨_, scheme.toList, tail, splits, ?_, parts, query, ?_⟩
      · exact fun empty => hosted (String.toList_eq_nil_iff.mp empty)
      · rw [sameScheme, isHttp]
        decide

/-- Only what follows the path has a question mark or a hash. -/
theorem AddressParts.marks_iff {raw scheme host path tail : List Char}
    (parts : AddressParts raw scheme host path tail) (isHttp : scheme.map Char.toLower = "http".toList) :
    ('?' ∉ raw ∧ '#' ∉ raw) ↔ tail = [] := by
  have inScheme : ∀ c ∈ scheme, c.toLower ∈ "http".toList := by
    intro c member
    rw [← isHttp]
    exact List.mem_map_of_mem member
  constructor
  · rintro ⟨noQuery, noFragment⟩
    cases tail with
    | nil => rfl
    | cons c more =>
        have there : c ∈ raw := by
          rw [parts.whole]
          simp
        rcases parts.tail_starts c rfl with rfl | rfl
        · exact absurd there noQuery
        · exact absurd there noFragment
  · rintro rfl
    rw [parts.whole]
    simp only [List.append_nil, List.mem_append, List.mem_cons, not_or]
    refine ⟨⟨?_, by decide, by decide, by decide, ?_, ?_⟩, ⟨?_, by decide, by decide, by decide, ?_, ?_⟩⟩
    · exact fun member => absurd (inScheme _ member) (by decide)
    · exact fun member => (parts.host_chars _ member).2.1 rfl
    · exact fun member => (parts.path_chars _ member).1 rfl
    · exact fun member => absurd (inScheme _ member) (by decide)
    · exact fun member => (parts.host_chars _ member).2.2 rfl
    · exact fun member => (parts.path_chars _ member).2 rfl

/-- A path is not itself with the endpoint appended, trimmed or not. -/
theorem path_ne_appended (path : String) : path ≠ trimRightSlash path ++ "/shards/execute" := by
  intro same
  have texts : path.toList = (path.toList.rdropWhile fun c => c == '/') ++ "/shards/execut".toList ++ ['e'] := by
    conv_lhs => rw [same]
    rw [String.toList_append, trimRightSlash, String.toList_ofList, List.append_assoc]
    rfl
  -- With the endpoint at its end, the path has no slashes to trim.
  have trimmed : (path.toList.rdropWhile fun c => c == '/') = path.toList := by
    conv_lhs => rw [texts]
    rw [rdropWhile_append_stop (p := fun c => c == '/') (by decide : ('e' == '/') = false), List.rdropWhile_nil]
    exact texts.symm
  have lengths := congrArg List.length texts
  rw [trimmed, List.length_append, List.length_append] at lengths
  have appended : "/shards/execut".toList.length = 14 := by decide
  omega

/-- What is posted to is the parsed text. -/
theorem newHttpRequest_url {go : GoLib} {wire : WireLib} {address : String} {req : ShardExecutionRequest}
    {httpReq : HttpRequest} (made : RemoteShardWorker.newHttpRequest go wire ⟨address⟩ req = .ok httpReq) :
    go.urlParse (postedURL address) = some httpReq.url := by
  simp only [RemoteShardWorker.newHttpRequest, bind_eq_ok, failIf_eq_ok, exists_const] at made
  obtain ⟨-, bridge, -, body, -, parsed⟩ := made
  cases posted : go.urlParse ((RemoteShardWorker.mk address).base ++ "/shards/execute") with
  | none =>
      rw [posted] at parsed
      cases parsed
  | some target =>
      rw [posted] at parsed
      rw [postedURL, posted]
      cases parsed
      rfl

/-- Of the addresses of valid peers, exactly those without a query, a fragment and white space at the end
lead to the shard endpoint. What is posted to is the parsed text. -/
theorem posted_url_leads_iff (go : GoLib) (peer : Peer) (usual : UsualSplit go peer.address)
    (valid : peer.validate go = .ok ()) :
    (LeadsToEndpoint peer.address ↔ BareAddress peer.address) ∧
      ∀ wire req httpReq, RemoteShardWorker.newHttpRequest go wire ⟨peer.address⟩ req = .ok httpReq →
        go.urlParse (postedURL peer.address) = some httpReq.url := by
  obtain ⟨url, scheme, tail, splits, hosted, parts, query, isHttp⟩ := parts_of_valid usual valid
  refine ⟨⟨?_, ?_⟩, ?_⟩
  · rintro ⟨given, posted, alsoSplits, postedSplits, sameHost, path, -⟩
    rw [splits, Option.some.injEq] at alsoSplits
    subst alsoSplits
    have noTail : tail = [] := by
      by_contra more
      obtain ⟨later, postedParts⟩ := posted_with_tail parts more
      have whole := splitUrl_parts postedParts
      rw [String.ofList_toList, postedSplits, Option.some.injEq] at whole
      have samePath := congrArg Url.path whole
      rw [path] at samePath
      exact path_ne_appended url.path (samePath.trans String.ofList_toList).symm
    subst noTail
    obtain ⟨noQuery, noFragment⟩ := (parts.marks_iff isHttp).mpr rfl
    refine ⟨noQuery, noFragment, fun blank => ?_⟩
    have postedHosted : posted.host ≠ "" := by
      rw [sameHost]
      exact fun empty => hosted (String.toList_eq_nil_iff.mpr empty)
    obtain ⟨later, postedParts, -⟩ := parts_of_splitUrl postedSplits postedHosted
    rw [sameHost, path, String.toList_append, trimRightSlash, String.toList_ofList] at postedParts
    exact posted_trimmed parts blank postedParts
  · rintro ⟨noQuery, noFragment, kept⟩
    obtain rfl : tail = [] := (parts.marks_iff isHttp).mp ⟨noQuery, noFragment⟩
    have whole := splitUrl_parts (posted_plain parts hosted kept)
    rw [String.ofList_toList] at whole
    refine ⟨url, _, splits, whole, String.ofList_toList, ?_, query.symm⟩
    change String.ofList _ = trimRightSlash url.path ++ "/shards/execute"
    rw [trimRightSlash, String.ofList_append, String.ofList_toList]
  · intro wire req httpReq made
    exact newHttpRequest_url made

theorem usualSplit_plain (raw : String) : UsualSplit .plain raw := by
  intro url parsed _ _
  exact ⟨url.scheme, parsed, rfl⟩

/-- A peer at some address. -/
def addressedPeer (address : String) : Peer := ⟨"a", address, "http", ⟨"a", .finite 1, ""⟩, 0⟩

/-- A query takes up the endpoint's path, and white space after a path is lost. -/
theorem query_takes_endpoint :
    (addressedPeer "http://h:1?x=1").validate .plain = .ok () ∧
      postedURL "http://h:1?x=1" = "http://h:1?x=1/shards/execute" ∧
      splitUrl (postedURL "http://h:1?x=1") = some ⟨"http", "h:1", "", "x=1/shards/execute"⟩ ∧
      ¬ LeadsToEndpoint "http://h:1?x=1" ∧
      (addressedPeer "http://h:1/a ").validate .plain = .ok () ∧ ¬ LeadsToEndpoint "http://h:1/a " := by
  refine ⟨by decide +kernel, by decide +kernel, by decide +kernel, ?_, by decide +kernel, ?_⟩
  · rintro ⟨given, posted, splits, postedSplits, -, path, -⟩
    have isGiven : splitUrl "http://h:1?x=1" = some ⟨"http", "h:1", "", "x=1"⟩ := by decide +kernel
    have isPosted : splitUrl (postedURL "http://h:1?x=1") = some ⟨"http", "h:1", "", "x=1/shards/execute"⟩ := by
      decide +kernel
    obtain rfl := Option.some.inj (isGiven.symm.trans splits)
    obtain rfl := Option.some.inj (isPosted.symm.trans postedSplits)
    exact absurd path (by decide)
  · rintro ⟨given, posted, splits, postedSplits, -, path, -⟩
    have isGiven : splitUrl "http://h:1/a " = some ⟨"http", "h:1", "/a ", ""⟩ := by decide +kernel
    have isPosted : splitUrl (postedURL "http://h:1/a ") = some ⟨"http", "h:1", "/a/shards/execute", ""⟩ := by
      decide +kernel
    obtain rfl := Option.some.inj (isGiven.symm.trans splits)
    obtain rfl := Option.some.inj (isPosted.symm.trans postedSplits)
    exact absurd path (by decide)

/-- A path with slashes at its end is extended. -/
theorem posted_url_leads_path :
    (LeadsToEndpoint "http://h:1/a//" ↔ BareAddress "http://h:1/a//") ∧
      ∀ wire req httpReq, RemoteShardWorker.newHttpRequest .plain wire ⟨"http://h:1/a//"⟩ req = .ok httpReq →
        GoLib.plain.urlParse (postedURL "http://h:1/a//") = some httpReq.url :=
  posted_url_leads_iff .plain (addressedPeer "http://h:1/a//") (usualSplit_plain _) (by decide +kernel)

end GoExotic
