/-
Module: GoExotic.Theory.QueryString
Purpose: Query strings of names and values. A value is percent-encoded the way a browser encodes a component
  of a URL, or written as it is, and the whole query is encoded once more the way a browser encodes a query; a
  server cuts the query at its separators and undoes the escapes. What was encoded arrives as it was, and of
  what was not, each plus arrives as a space.
Trusted boundary: none
Main exports: encodeComponent, encodeQuery, unescape, Component, Component.encoded, Component.raw, build, parse,
  parse_build, readable_build, notMem_build
-/
import GoExotic.Theory.Json
import GoExotic.Theory.Spans

namespace QueryString

open Json

/-! ### Percent-encoding -/

/-- The upper-case hexadecimal digit of a number below sixteen. -/
def upperHexDigit (n : Nat) : Char := Char.ofNat (if n < 10 then n + 48 else n + 55)

theorem hexValue_upperHexDigit : ∀ n < 16, hexValue (upperHexDigit n) = some n := by decide

/-- A byte as an escape. -/
def percentByte (b : UInt8) : List Char := ['%', upperHexDigit (b.toNat / 16), upperHexDigit (b.toNat % 16)]

/-- The escapes of a character. -/
def percentChar (c : Char) : List Char := (toBytes [c]).flatMap percentByte

/-- A character that stands for itself in a component. -/
def unreserved (c : Char) : Bool := c.isAlphanum || ['-', '_', '.', '!', '~', '*', '\x27', '(', ')'].contains c

/-- Encode a component, as `encodeURIComponent` does. -/
def encodeComponent (text : List Char) : List Char :=
  text.flatMap fun c => if unreserved c then [c] else percentChar c

/-- A character that a browser escapes in the query of an http URL. -/
def queryEscaped (c : Char) : Bool :=
  c.toNat ≤ 0x20 || 0x7e < c.toNat || ['\x22', '<', '>', '\x27'].contains c

/-- Encode a query, as a browser does that parses a URL. -/
def encodeQuery (query : List Char) : List Char :=
  query.flatMap fun c => if queryEscaped c then percentChar c else [c]

/-- Undo the escapes; a plus stands for a space. A bad escape is `none`. -/
def unescape : List Char → Option (List UInt8)
  | [] => some []
  | '%' :: a :: b :: rest =>
      match hexValue a, hexValue b with
      | some a, some b => (unescape rest).map (toByte (a * 16 + b) :: ·)
      | _, _ => none
  | '%' :: _ => none
  | '+' :: rest => (unescape rest).map (0x20 :: ·)
  | c :: rest => (unescape rest).map (toBytes [c] ++ ·)

theorem toBytes_cons (c : Char) (text : List Char) : toBytes (c :: text) = toBytes [c] ++ toBytes text := by
  simp only [toBytes, String.toByteArray_ofList]
  rw [List.utf8Encode_cons, ByteArray.data_append, Array.toList_append]

theorem unescape_percentByte (b : UInt8) (rest : List Char) :
    unescape (percentByte b ++ rest) = (unescape rest).map (b :: ·) := by
  have bound := b.toNat_lt
  have byte : toByte (b.toNat / 16 * 16 + b.toNat % 16) = b := toByte_eq (by omega)
  simp only [percentByte, List.cons_append, List.nil_append]
  rw [unescape, hexValue_upperHexDigit _ (by omega), hexValue_upperHexDigit _ (by omega)]
  dsimp only
  rw [byte]

theorem unescape_percentBytes (bytes : List UInt8) (rest : List Char) :
    unescape (bytes.flatMap percentByte ++ rest) = (unescape rest).map (bytes ++ ·) := by
  induction bytes with
  | nil => simp
  | cons b bytes inductionHypothesis =>
      rw [List.flatMap_cons, List.append_assoc, unescape_percentByte, inductionHypothesis, Option.map_map]
      rfl

/-- A character that is no escape stands for its bytes. -/
theorem unescape_plain {c : Char} (noEscape : c ≠ '%') (noPlus : c ≠ '+') (rest : List Char) :
    unescape (c :: rest) = (unescape rest).map (toBytes [c] ++ ·) := by
  rw [unescape]
  · exact fun _ _ _ same _ => noEscape same
  · exact noEscape
  · exact noPlus

/-! ### One component -/

/-- A character of a name or a value as it is sent. -/
def Sent (c : Char) : Prop := unreserved c = true ∨ c = '%' ∨ c = '+'

theorem sent_percentByte (b : UInt8) : ∀ c ∈ percentByte b, Sent c ∧ queryEscaped c = false := by
  have digit : ∀ n < 16, unreserved (upperHexDigit n) = true ∧ queryEscaped (upperHexDigit n) = false := by
    decide
  have bound := b.toNat_lt
  obtain ⟨high, highPlain⟩ := digit (b.toNat / 16) (by omega)
  obtain ⟨low, lowPlain⟩ := digit (b.toNat % 16) (by omega)
  intro c member
  simp only [percentByte, List.mem_cons, List.not_mem_nil, or_false] at member
  rcases member with rfl | rfl | rfl
  · exact ⟨Or.inr (Or.inl rfl), rfl⟩
  · exact ⟨Or.inl high, highPlain⟩
  · exact ⟨Or.inl low, lowPlain⟩

theorem sent_percentChar (c : Char) : ∀ d ∈ percentChar c, Sent d ∧ queryEscaped d = false := by
  intro d member
  obtain ⟨b, -, inEscape⟩ := List.mem_flatMap.mp member
  exact sent_percentByte b d inEscape

/-- Escapes are not escaped again. -/
theorem encodeQuery_percentChar (c : Char) : encodeQuery (percentChar c) = percentChar c := by
  have plain : ∀ d ∈ percentChar c, (if queryEscaped d then percentChar d else [d]) = [d] := by
    intro d member
    rw [(sent_percentChar c d member).2]
    rfl
  rw [encodeQuery, List.flatMap_congr plain, List.flatMap_singleton']

theorem encodeQuery_append (front back : List Char) :
    encodeQuery (front ++ back) = encodeQuery front ++ encodeQuery back := List.flatMap_append

/-- A character that was encoded twice is itself, or its escapes. -/
theorem encodeQuery_encoded (c : Char) :
    (encodeQuery (if unreserved c then [c] else percentChar c) = [c] ∧ unreserved c = true) ∨
      encodeQuery (if unreserved c then [c] else percentChar c) = percentChar c := by
  by_cases stays : unreserved c = true
  · rw [if_pos stays, encodeQuery, List.flatMap_cons, List.flatMap_nil, List.append_nil]
    by_cases escaped : queryEscaped c = true
    · exact Or.inr (if_pos escaped)
    · exact Or.inl ⟨if_neg escaped, stays⟩
  · rw [if_neg stays]
    exact Or.inr (encodeQuery_percentChar c)

/-- A component as it is sent. -/
def sentComponent (text : List Char) : List Char := encodeQuery (encodeComponent text)

theorem sentComponent_cons (c : Char) (text : List Char) :
    sentComponent (c :: text) =
      encodeQuery (if unreserved c then [c] else percentChar c) ++ sentComponent text := by
  rw [sentComponent, encodeComponent, List.flatMap_cons, encodeQuery_append]
  rfl

theorem sent_sentComponent (text : List Char) : ∀ c ∈ sentComponent text, Sent c := by
  induction text with
  | nil =>
      intro c member
      cases member
  | cons first text inductionHypothesis =>
      intro c member
      rw [sentComponent_cons] at member
      rcases List.mem_append.mp member with front | back
      · rcases encodeQuery_encoded first with ⟨same, stays⟩ | escapes
        · rw [same, List.mem_singleton] at front
          exact Or.inl (front ▸ stays)
        · rw [escapes] at front
          exact (sent_percentChar first c front).1
      · exact inductionHypothesis c back

/-- A component is read back from its escapes. -/
theorem unescape_sentComponent (text : List Char) : unescape (sentComponent text) = some (toBytes text) := by
  have general : ∀ rest, unescape (sentComponent text ++ rest) = (unescape rest).map (toBytes text ++ ·) := by
    induction text with
    | nil =>
        intro rest
        simp [sentComponent, encodeComponent, encodeQuery, toBytes_nil]
    | cons c text inductionHypothesis =>
        intro rest
        have head : unescape (encodeQuery (if unreserved c then [c] else percentChar c) ++
            (sentComponent text ++ rest)) =
              (unescape (sentComponent text ++ rest)).map (toBytes [c] ++ ·) := by
          rcases encodeQuery_encoded c with ⟨same, stays⟩ | escapes
          · rw [same, List.singleton_append]
            apply unescape_plain
            · rintro rfl
              cases stays
            · rintro rfl
              cases stays
          · rw [escapes, percentChar, unescape_percentBytes]
        rw [sentComponent_cons, List.append_assoc, head, inductionHypothesis, Option.map_map, toBytes_cons c text]
        congr 1
        funext bytes
        exact (List.append_assoc _ _ _).symm
  have whole := general []
  rw [List.append_nil] at whole
  rw [whole, unescape, Option.map_some, List.append_nil]

/-! ### Names and values -/

/-- A name or a value: as it is written in a query, and as a server reads it. -/
structure Component where
  written : List Char
  value : List Char
  sent : ∀ c ∈ encodeQuery written, Sent c
  read : unescape (encodeQuery written) = some (toBytes value)

namespace Component

/-- An encoded component is read as what it encodes. -/
def encoded (value : List Char) : Component :=
  ⟨encodeComponent value, value, sent_sentComponent value, unescape_sentComponent value⟩

/-- What a server reads of a text that was not encoded. -/
def received (text : List Char) : List Char := text.map fun c => if c = '+' then ' ' else c

/-- A character that is not encoded is sent as itself or as its escapes. -/
theorem sent_plain {c : Char} (plain : unreserved c = true ∨ c = '+') : ∀ d ∈ encodeQuery [c], Sent d := by
  rcases plain with stays | rfl
  · have component := sent_sentComponent [c]
    rwa [sentComponent, encodeComponent, List.flatMap_cons, if_pos stays] at component
  · exact List.forall_mem_singleton.mpr (Or.inr (Or.inr rfl))

/-- It is read as itself, or as a space. -/
theorem unescape_sent {c : Char} (plain : unreserved c = true ∨ c = '+') (rest : List Char) :
    unescape (encodeQuery [c] ++ rest) = (unescape rest).map (toBytes [if c = '+' then ' ' else c] ++ ·) := by
  rcases plain with stays | rfl
  · have noPlus : c ≠ '+' := by
      rintro rfl
      cases stays
    have noEscape : c ≠ '%' := by
      rintro rfl
      cases stays
    rw [if_neg noPlus]
    rcases encodeQuery_encoded c with ⟨same, -⟩ | escapes
    · rw [if_pos stays] at same
      rw [same, List.singleton_append]
      exact unescape_plain noEscape noPlus rest
    · rw [if_pos stays] at escapes
      rw [escapes, percentChar, unescape_percentBytes]
  · have space : toBytes [' '] = [0x20] := by decide +kernel
    have plus : encodeQuery ['+'] = ['+'] := rfl
    rw [if_pos rfl, space, plus, List.singleton_append, unescape]
    rfl

theorem unescape_text {text : List Char} (plain : ∀ c ∈ text, unreserved c = true ∨ c = '+') :
    unescape (encodeQuery text) = some (toBytes (received text)) := by
  induction text with
  | nil => exact unescape_sentComponent []
  | cons c text inductionHypothesis =>
      have whole : encodeQuery (c :: text) = encodeQuery [c] ++ encodeQuery text := encodeQuery_append [c] text
      have rest := inductionHypothesis fun d member => plain d (List.mem_cons_of_mem c member)
      rw [whole, unescape_sent (plain c List.mem_cons_self), rest, Option.map_some, ← toBytes_cons]
      rfl

/-- A text of plain characters and plus signs that is not encoded. -/
def raw (text : List Char) (plain : ∀ c ∈ text, unreserved c = true ∨ c = '+') : Component where
  written := text
  value := received text
  sent := by
    intro d member
    obtain ⟨c, inText, inEscape⟩ := List.mem_flatMap.mp member
    apply sent_plain (plain c inText)
    rw [encodeQuery, List.flatMap_singleton]
    exact inEscape
  read := unescape_text plain

/-- Where there is no plus, it is read as it is. -/
theorem received_of_notMem {text : List Char} (noPlus : '+' ∉ text) : received text = text := by
  have same : ∀ c ∈ text, (if c = '+' then ' ' else c) = c := by
    intro c member
    apply if_neg
    rintro rfl
    exact noPlus member
  rw [received, List.map_congr_left same, List.map_id']

end Component

/-! ### Queries -/

/-- A name and a value. -/
def pairText (pair : Component × Component) : List Char := pair.1.written ++ '=' :: pair.2.written

/-- A query of names and values. -/
def build (pairs : List (Component × Component)) : List Char := List.intercalate ['&'] (pairs.map pairText)

/-- The name and the value of one piece of a query, if both can be read. -/
def parsePair (piece : List Char) : Option (List Char × List Char) :=
  if piece = [] ∨ ';' ∈ piece then none
  else do
    let name ← unescape (piece.takeWhile fun c => c != '=')
    let value ← unescape ((piece.dropWhile fun c => c != '=').drop 1)
    let name ← ofBytes name
    let value ← ofBytes value
    return (name, value)

/-- The names and values of a query. -/
def parse (query : List Char) : List (List Char × List Char) := (query.splitOn '&').filterMap parsePair

/-- A name and a value as a server reads them. -/
def values (pair : Component × Component) : List Char × List Char := (pair.1.value, pair.2.value)

theorem encodeQuery_intercalate (pieces : List (List Char)) :
    encodeQuery (List.intercalate ['&'] pieces) = List.intercalate ['&'] (pieces.map encodeQuery) := by
  induction pieces with
  | nil => rfl
  | cons piece rest inductionHypothesis =>
      cases rest with
      | nil => simp [List.intercalate]
      | cons next rest =>
          rw [List.map_cons, List.map_cons, List.intercalate_cons_cons, List.intercalate_cons_cons,
            encodeQuery_append, encodeQuery_append, inductionHypothesis]
          rfl

theorem encodeQuery_pairText (pair : Component × Component) :
    encodeQuery (pairText pair) = encodeQuery pair.1.written ++ '=' :: encodeQuery pair.2.written := by
  rw [pairText, encodeQuery_append]
  rfl

theorem Sent.no_separator {c : Char} (isSent : Sent c) : c ≠ '&' ∧ c ≠ '=' ∧ c ≠ ';' ∧ c ≠ '#' := by
  refine ⟨?_, ?_, ?_, ?_⟩
  all_goals
    rintro rfl
    rcases isSent with stays | isPercent | isPlus
    · cases stays
    · cases isPercent
    · cases isPlus

theorem notMem_pair {pair : Component × Component} {stop : Char} (apart : ∀ c, Sent c → c ≠ stop)
    (notEquals : '=' ≠ stop) : stop ∉ encodeQuery (pairText pair) := by
  rw [encodeQuery_pairText]
  intro member
  rcases List.mem_append.mp member with inName | later
  · exact apart _ (pair.1.sent _ inName) rfl
  · rcases List.mem_cons.mp later with isEquals | inValue
    · exact notEquals isEquals.symm
    · exact apart _ (pair.2.sent _ inValue) rfl

/-- A pair is read back from its piece of the query. -/
theorem parsePair_sent (pair : Component × Component) :
    parsePair (encodeQuery (pairText pair)) = some (values pair) := by
  have noSemicolon : ';' ∉ encodeQuery (pairText pair) :=
    notMem_pair (fun c isSent => isSent.no_separator.2.2.1) (by decide)
  have inName : ∀ c ∈ encodeQuery pair.1.written, (c != '=') = true := by
    intro c member
    have apart := (pair.1.sent c member).no_separator.2.1
    simp [apart]
  rw [encodeQuery_pairText] at noSemicolon ⊢
  have some : ¬ (encodeQuery pair.1.written ++ '=' :: encodeQuery pair.2.written = [] ∨
      ';' ∈ encodeQuery pair.1.written ++ '=' :: encodeQuery pair.2.written) := by
    rintro (empty | semicolon)
    · cases List.append_eq_nil_iff.mp empty |>.2
    · exact noSemicolon semicolon
  have name : (encodeQuery pair.1.written ++ '=' :: encodeQuery pair.2.written).takeWhile (fun c => c != '=') =
      encodeQuery pair.1.written := by
    rw [List.takeWhile_append_of_pos inName]
    simp
  have value : ((encodeQuery pair.1.written ++ '=' :: encodeQuery pair.2.written).dropWhile
      fun c => c != '=').drop 1 = encodeQuery pair.2.written := by
    rw [List.dropWhile_append_of_pos inName]
    simp
  rw [parsePair, if_neg some, name, value, pair.1.read, pair.2.read]
  simp [ofBytes_toBytes, values]

/-- A query is cut into its pairs again. -/
theorem splitOn_build {pairs : List (Component × Component)} (given : pairs ≠ []) :
    (encodeQuery (build pairs)).splitOn '&' = pairs.map fun pair => encodeQuery (pairText pair) := by
  have apart : ∀ piece ∈ pairs.map (fun pair => encodeQuery (pairText pair)), '&' ∉ piece := by
    intro piece member
    obtain ⟨pair, -, rfl⟩ := List.mem_map.mp member
    exact notMem_pair (fun c isSent => isSent.no_separator.1) (by decide)
  rw [build, encodeQuery_intercalate, List.map_map]
  exact List.splitOn_intercalate '&' apart (by simp [given])

/-- All of a query can be read. -/
theorem readable_build {pairs : List (Component × Component)} (given : pairs ≠ []) :
    ∀ piece ∈ (encodeQuery (build pairs)).splitOn '&', (parsePair piece).isSome := by
  rw [splitOn_build given]
  intro piece member
  obtain ⟨pair, -, rfl⟩ := List.mem_map.mp member
  rw [parsePair_sent, Option.isSome_some]

/-- Every query arrives as its values. -/
theorem parse_build (pairs : List (Component × Component)) : parse (encodeQuery (build pairs)) = pairs.map values := by
  by_cases given : pairs = []
  · subst given
    rfl
  · have read : (parsePair ∘ fun pair => encodeQuery (pairText pair)) = fun pair => some (values pair) :=
      funext parsePair_sent
    rw [parse, splitOn_build given, List.filterMap_map, read, List.filterMap_eq_map']

/-! ### Queries inside a URL -/

/-- A text without characters to escape is its own component. -/
theorem encodeComponent_plain {text : List Char} (plain : ∀ c ∈ text, unreserved c = true) :
    encodeComponent text = text := by
  have same : ∀ c ∈ text, (if unreserved c then [c] else percentChar c) = [c] :=
    fun c member => if_pos (plain c member)
  rw [encodeComponent, List.flatMap_congr same, List.flatMap_singleton']

/-- A query has no character but those of its pairs and its separators. -/
theorem mem_build {pairs : List (Component × Component)} {c : Char} (member : c ∈ build pairs) :
    (∃ pair ∈ pairs, c ∈ pairText pair) ∨ c = '&' := by
  induction pairs with
  | nil => cases member
  | cons pair rest inductionHypothesis =>
      cases rest with
      | nil =>
          rw [build, List.map_cons, List.map_nil, List.intercalate_singleton] at member
          exact Or.inl ⟨pair, List.mem_cons_self, member⟩
      | cons next rest =>
          rw [build, List.map_cons, List.map_cons, List.intercalate_cons_cons] at member
          rcases List.mem_append.mp member with inFront | inBack
          · rcases List.mem_append.mp inFront with inside | isSeparator
            · exact Or.inl ⟨pair, List.mem_cons_self, inside⟩
            · exact Or.inr (List.mem_singleton.mp isSeparator)
          · rcases inductionHypothesis inBack with ⟨other, isOther, inside⟩ | isSeparator
            · exact Or.inl ⟨other, List.mem_cons_of_mem pair isOther, inside⟩
            · exact Or.inr isSeparator

/-- A query has no fragment in it. -/
theorem notMem_build (pairs : List (Component × Component)) : '#' ∉ build pairs := by
  intro member
  rcases mem_build member with ⟨pair, -, inside⟩ | isSeparator
  · have stays : queryEscaped '#' = false := by decide
    have inQuery : '#' ∈ encodeQuery (pairText pair) := by
      refine List.mem_flatMap.mpr ⟨'#', inside, ?_⟩
      rw [stays]
      exact List.mem_singleton_self '#'
    exact notMem_pair (fun c isSent => isSent.no_separator.2.2.2) (by decide) inQuery
  · cases isSeparator

end QueryString
