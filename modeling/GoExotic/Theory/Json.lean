/-
Module: GoExotic.Theory.Json
Purpose: Codecs of compact JSON text. A codec carries its round trip as a field: it reads back what it
  wrote in front of any text that cannot continue a number. Strings (with the escapes of an encoder that
  is safe in HTML), integers and base64 byte strings are codecs, and so are arrays and objects with a fixed
  order of fields.
Trusted boundary: none
Main exports: Codec, Codec.int, Codec.string, Codec.via, Codec.base64, Codec.comma, Codec.field,
  Codec.object, Codec.array, toBytes, Codec.decode, Codec.decode_toBytes, Codec.size with its lemmas
-/
import Mathlib.Algebra.BigOperators.Group.List.Basic
import Mathlib.Algebra.Order.Ring.Nat
import Mathlib.Data.List.Basic

namespace Json

/-- The text cannot continue a number. -/
def Delimited (rest : List Char) : Prop := ∀ c ∈ rest.head?, c.isDigit = false

theorem Delimited.nil : Delimited [] := by
  intro c member
  cases member

theorem Delimited.cons {c : Char} (notDigit : c.isDigit = false) (rest : List Char) :
    Delimited (c :: rest) := by
  intro other member
  cases member
  exact notDigit

/-- A writer and a prefix reader of JSON text. -/
structure Codec (α : Type) where
  write : α → List Char
  read : List Char → Option (α × List Char)
  read_write : ∀ a rest, Delimited rest → read (write a ++ rest) = some (a, rest)

/-! ### Integers -/

/-- Read the digits of a natural number. -/
def readNat (text : List Char) : Option (Nat × List Char) :=
  match text.takeWhile Char.isDigit with
  | [] => none
  | digits => some (Nat.ofDigitChars 10 digits 0, text.dropWhile Char.isDigit)

theorem takeWhile_digits {rest : List Char} (delimited : Delimited rest) :
    rest.takeWhile Char.isDigit = [] ∧ rest.dropWhile Char.isDigit = rest := by
  cases rest with
  | nil => exact ⟨rfl, rfl⟩
  | cons c rest =>
      have notDigit := delimited c rfl
      exact ⟨by simp [notDigit], by simp [notDigit]⟩

theorem readNat_toDigits (n : Nat) {rest : List Char} (delimited : Delimited rest) :
    readNat (Nat.toDigits 10 n ++ rest) = some (n, rest) := by
  have digits : ∀ c ∈ Nat.toDigits 10 n, c.isDigit = true :=
    fun c member => Nat.isDigit_of_mem_toDigits (by decide) (by decide) member
  obtain ⟨noMore, unread⟩ := takeWhile_digits delimited
  rw [readNat, List.takeWhile_append_of_pos digits, List.dropWhile_append_of_pos digits, noMore, unread,
    List.append_nil]
  cases split : Nat.toDigits 10 n with
  | nil => exact absurd split Nat.toDigits_ne_nil
  | cons c more =>
      dsimp only
      rw [← split, Nat.ofDigitChars_ten_toDigits]

/-- The digits of an integer, with a sign in front of a negative one. -/
def writeInt : Int → List Char
  | .ofNat n => Nat.toDigits 10 n
  | .negSucc n => '-' :: Nat.toDigits 10 (n + 1)

/-- Read an integer. -/
def readInt : List Char → Option (Int × List Char)
  | '-' :: text => (readNat text).map fun read => (-(read.1 : Int), read.2)
  | text => (readNat text).map fun read => (read.1, read.2)

theorem readInt_writeInt (n : Int) {rest : List Char} (delimited : Delimited rest) :
    readInt (writeInt n ++ rest) = some (n, rest) := by
  cases n with
  | ofNat n =>
      have unsigned : ∀ more, writeInt (.ofNat n) ++ rest ≠ '-' :: more := by
        intro more same
        cases split : Nat.toDigits 10 n with
        | nil => exact Nat.toDigits_ne_nil split
        | cons c digits =>
            have digit : c.isDigit = true :=
              Nat.isDigit_of_mem_toDigits (by decide) (by decide) (split ▸ List.mem_cons_self)
            rw [writeInt, split, List.cons_append, List.cons.injEq] at same
            rw [same.1] at digit
            exact absurd digit (by decide)
      rw [readInt.eq_2 _ unsigned, writeInt, readNat_toDigits n delimited]
      rfl
  | negSucc n =>
      rw [writeInt, List.cons_append, readInt, readNat_toDigits (n + 1) delimited]
      rfl

/-- Integers. -/
def Codec.int : Codec Int where
  write := writeInt
  read := readInt
  read_write n _ delimited := readInt_writeInt n delimited

/-! ### Strings -/

/-- The hexadecimal digit of a number below sixteen. -/
def hexDigit (n : Nat) : Char := Char.ofNat (if n < 10 then n + 48 else n + 87)

/-- The number of a hexadecimal digit. -/
def hexValue (c : Char) : Option Nat :=
  if '0' ≤ c ∧ c ≤ '9' then some (c.toNat - 48)
  else if 'a' ≤ c ∧ c ≤ 'f' then some (c.toNat - 87)
  else if 'A' ≤ c ∧ c ≤ 'F' then some (c.toNat - 55)
  else none

theorem hexValue_hexDigit : ∀ n < 16, hexValue (hexDigit n) = some n := by decide

/-- The letter of a short escape. -/
def shortEscape (c : Char) : Option Char :=
  if c = '\x22' then some '\x22'
  else if c = '\\' then some '\\'
  else if c = '\x08' then some 'b'
  else if c = '\x0c' then some 'f'
  else if c = '\n' then some 'n'
  else if c = '\r' then some 'r'
  else if c = '\t' then some 't'
  else none

/-- The character of a short escape. -/
def shortUnescape (c : Char) : Option Char :=
  if c = '\x22' ∨ c = '\\' ∨ c = '/' then some c
  else if c = 'b' then some '\x08'
  else if c = 'f' then some '\x0c'
  else if c = 'n' then some '\n'
  else if c = 'r' then some '\r'
  else if c = 't' then some '\t'
  else none

theorem shortUnescape_shortEscape {c letter : Char} (short : shortEscape c = some letter) :
    shortUnescape letter = some c ∧ letter ≠ 'u' := by
  unfold shortEscape at short
  split_ifs at short <;> cases short <;> simp_all [shortUnescape]

/-- Other control characters, what is unsafe in HTML, and the two separators are escaped by number. -/
def NumberEscaped (c : Char) : Prop :=
  c.toNat < 0x20 ∨ c = '<' ∨ c = '>' ∨ c = '&' ∨ c.toNat = 0x2028 ∨ c.toNat = 0x2029

instance (c : Char) : Decidable (NumberEscaped c) := inferInstanceAs (Decidable (_ ∨ _))

/-- The text of one character inside a string. -/
def writeChar (c : Char) : List Char :=
  match shortEscape c with
  | some letter => ['\\', letter]
  | none =>
      if NumberEscaped c then
        ['\\', 'u', hexDigit (c.toNat / 4096 % 16), hexDigit (c.toNat / 256 % 16),
          hexDigit (c.toNat / 16 % 16), hexDigit (c.toNat % 16)]
      else [c]

/-- Read the rest of a string, up to its closing quote. -/
def readChars : List Char → Option (List Char × List Char)
  | [] => none
  | '\x22' :: rest => some ([], rest)
  | '\\' :: 'u' :: a :: b :: c :: d :: rest =>
      match hexValue a, hexValue b, hexValue c, hexValue d with
      | some a, some b, some c, some d =>
          (readChars rest).map fun read =>
            (Char.ofNat (a * 4096 + b * 256 + c * 16 + d) :: read.1, read.2)
      | _, _, _, _ => none
  | '\\' :: letter :: rest =>
      match shortUnescape letter with
      | some c => (readChars rest).map fun read => (c :: read.1, read.2)
      | none => none
  | '\\' :: [] => none
  | c :: rest => (readChars rest).map fun read => (c :: read.1, read.2)

theorem NumberEscaped.lt {c : Char} (escaped : NumberEscaped c) : c.toNat < 16 * 4096 := by
  rcases escaped with control | rfl | rfl | rfl | line | paragraph
  · omega
  · decide
  · decide
  · decide
  · omega
  · omega

theorem readChars_writeChar (c : Char) (rest : List Char) :
    readChars (writeChar c ++ rest) = (readChars rest).map fun read => (c :: read.1, read.2) := by
  unfold writeChar
  cases short : shortEscape c with
  | some letter =>
      obtain ⟨unescaped, notNumber⟩ := shortUnescape_shortEscape short
      simp [readChars, unescaped, notNumber]
  | none =>
      dsimp only
      split_ifs with escaped
      · have below := escaped.lt
        simp only [List.cons_append, List.nil_append]
        rw [readChars]
        rw [hexValue_hexDigit _ (Nat.mod_lt _ (by decide)), hexValue_hexDigit _ (Nat.mod_lt _ (by decide)),
          hexValue_hexDigit _ (Nat.mod_lt _ (by decide)), hexValue_hexDigit _ (Nat.mod_lt _ (by decide))]
        have digits : c.toNat / 4096 % 16 * 4096 + c.toNat / 256 % 16 * 256 + c.toNat / 16 % 16 * 16 +
            c.toNat % 16 = c.toNat := by omega
        dsimp only
        rw [digits, Char.ofNat_toNat]
      · have notQuote : c ≠ '\x22' := by
          rintro rfl
          cases short
        have notBackslash : c ≠ '\\' := by
          rintro rfl
          cases short
        simp [readChars, notBackslash]

/-- A string with its quotes. -/
def writeString (s : String) : List Char := '\x22' :: (s.toList.flatMap writeChar ++ ['\x22'])

/-- Read a string. -/
def readString : List Char → Option (String × List Char)
  | '\x22' :: text => (readChars text).map fun read => (String.ofList read.1, read.2)
  | _ => none

theorem readChars_flatMap (chars rest : List Char) :
    readChars (chars.flatMap writeChar ++ '\x22' :: rest) = some (chars, rest) := by
  induction chars with
  | nil => rfl
  | cons c chars inductionHypothesis =>
      rw [List.flatMap_cons, List.append_assoc, readChars_writeChar, inductionHypothesis]
      rfl

theorem readString_writeString (s : String) (rest : List Char) :
    readString (writeString s ++ rest) = some (s, rest) := by
  rw [writeString, List.cons_append, List.append_assoc, readString, List.singleton_append,
    readChars_flatMap, Option.map_some, String.ofList_toList]

/-- Strings. -/
def Codec.string : Codec String where
  write := writeString
  read := readString
  read_write s rest _ := readString_writeString s rest

/-! ### Base64 -/

/-- The digit of a number below sixty-four. -/
def digit64 (n : Nat) : Char :=
  if n < 26 then Char.ofNat (n + 65)
  else if n < 52 then Char.ofNat (n + 71)
  else if n < 62 then Char.ofNat (n - 4)
  else if n = 62 then '+'
  else '/'

/-- The number of a base64 digit. -/
def value64 (c : Char) : Option Nat :=
  if 'A' ≤ c ∧ c ≤ 'Z' then some (c.toNat - 65)
  else if 'a' ≤ c ∧ c ≤ 'z' then some (c.toNat - 71)
  else if '0' ≤ c ∧ c ≤ '9' then some (c.toNat + 4)
  else if c = '+' then some 62
  else if c = '/' then some 63
  else none

theorem value64_digit64 : ∀ n < 64, value64 (digit64 n) = some n ∧ digit64 n ≠ '=' := by decide

/-- Padded base64 text. -/
def encode64 : List UInt8 → List Char
  | a :: b :: c :: rest =>
      digit64 (a.toNat / 4) :: digit64 (a.toNat % 4 * 16 + b.toNat / 16) ::
        digit64 (b.toNat % 16 * 4 + c.toNat / 64) :: digit64 (c.toNat % 64) :: encode64 rest
  | [a, b] =>
      [digit64 (a.toNat / 4), digit64 (a.toNat % 4 * 16 + b.toNat / 16), digit64 (b.toNat % 16 * 4), '=']
  | [a] => [digit64 (a.toNat / 4), digit64 (a.toNat % 4 * 16), '=', '=']
  | [] => []

/-- A number as a byte. -/
def toByte (n : Nat) : UInt8 := UInt8.ofNat n

theorem toByte_eq {byte : UInt8} {n : Nat} (same : n = byte.toNat) : toByte n = byte := by
  rw [toByte, same, UInt8.ofNat_toNat]

/-- The bytes of padded base64 text. -/
def decode64 : List Char → Option (List UInt8)
  | [] => some []
  | [p, q, '=', '='] => do
      let p ← value64 p
      let q ← value64 q
      some [toByte (p * 4 + q / 16)]
  | [p, q, r, '='] => do
      let p ← value64 p
      let q ← value64 q
      let r ← value64 r
      some [toByte (p * 4 + q / 16), toByte (q % 16 * 16 + r / 4)]
  | p :: q :: r :: s :: rest => do
      let p ← value64 p
      let q ← value64 q
      let r ← value64 r
      let s ← value64 s
      let bytes ← decode64 rest
      some (toByte (p * 4 + q / 16) :: toByte (q % 16 * 16 + r / 4) :: toByte (r % 4 * 64 + s) :: bytes)
  | _ => none

theorem decode64_encode64 (bytes : List UInt8) : decode64 (encode64 bytes) = some bytes := by
  induction bytes using encode64.induct with
  | case1 a b c rest inductionHypothesis =>
      have boundA := a.toNat_lt
      have boundB := b.toNat_lt
      have boundC := c.toNat_lt
      obtain ⟨p, -⟩ := value64_digit64 (a.toNat / 4) (by omega)
      obtain ⟨q, -⟩ := value64_digit64 (a.toNat % 4 * 16 + b.toNat / 16) (by omega)
      obtain ⟨r, -⟩ := value64_digit64 (b.toNat % 16 * 4 + c.toNat / 64) (by omega)
      obtain ⟨s, notPad⟩ := value64_digit64 (c.toNat % 64) (by omega)
      simp [encode64, decode64, p, q, r, s, notPad, inductionHypothesis]
      exact ⟨toByte_eq (by omega), toByte_eq (by omega), toByte_eq (by omega)⟩
  | case2 a b =>
      have boundA := a.toNat_lt
      have boundB := b.toNat_lt
      obtain ⟨p, -⟩ := value64_digit64 (a.toNat / 4) (by omega)
      obtain ⟨q, -⟩ := value64_digit64 (a.toNat % 4 * 16 + b.toNat / 16) (by omega)
      obtain ⟨r, notPad⟩ := value64_digit64 (b.toNat % 16 * 4) (by omega)
      simp [encode64, decode64, p, q, r]
      exact ⟨toByte_eq (by omega), toByte_eq (by omega)⟩
  | case3 a =>
      have boundA := a.toNat_lt
      obtain ⟨p, -⟩ := value64_digit64 (a.toNat / 4) (by omega)
      obtain ⟨q, -⟩ := value64_digit64 (a.toNat % 4 * 16) (by omega)
      simp [encode64, decode64, p, q]
      exact toByte_eq (by omega)
  | case4 => rfl

/-! ### Composition -/

namespace Codec

variable {α β : Type}

/-- A codec of what its values stand for. -/
def via (c : Codec α) (form : β → α) (back : α → Option β) (back_form : ∀ b, back (form b) = some b) :
    Codec β where
  write b := c.write (form b)
  read text := (c.read text).bind fun read => (back read.1).map fun b => (b, read.2)
  read_write b rest delimited := by
    rw [c.read_write (form b) rest delimited, Option.bind_some, back_form, Option.map_some]

/-- Byte strings, as base64 strings. -/
def base64 : Codec (List UInt8) :=
  string.via (fun bytes => String.ofList (encode64 bytes)) (fun s => decode64 s.toList) fun bytes => by
    rw [String.toList_ofList, decode64_encode64]

/-- A codec behind a fixed text. -/
def after (text : List Char) (c : Codec α) : Codec α where
  write a := text ++ c.write a
  read input := (input.dropPrefix? text).bind c.read
  read_write a rest delimited := by
    rw [List.append_assoc, List.dropPrefix?_append_of_beq _ (beq_self_eq_true text), Option.bind_some,
      c.read_write a rest delimited]

/-- A codec in front of a character that is no digit. -/
def before (c : Codec α) (close : Char) (notDigit : close.isDigit = false) : Codec α where
  write a := c.write a ++ [close]
  read input :=
    match c.read input with
    | some (a, d :: rest) => if d = close then some (a, rest) else none
    | _ => none
  read_write a rest _ := by
    rw [List.append_assoc, List.singleton_append, c.read_write a _ (.cons notDigit rest)]
    exact if_pos rfl

/-- Two codecs with a comma in between. -/
def comma (c : Codec α) (d : Codec β) : Codec (α × β) where
  write both := c.write both.1 ++ (d.after [',']).write both.2
  read input :=
    (c.read input).bind fun read =>
      ((d.after [',']).read read.2).map fun next => ((read.1, next.1), next.2)
  read_write both rest delimited := by
    have separated : Delimited ((d.after [',']).write both.2 ++ rest) := .cons (by decide) _
    rw [List.append_assoc, c.read_write both.1 _ separated, Option.bind_some,
      (d.after [',']).read_write both.2 rest delimited, Option.map_some]

/-- A named field of an object. -/
def field (name : String) (c : Codec α) : Codec α := c.after (writeString name ++ [':'])

/-- An object around its fields. -/
def object (fields : Codec α) : Codec α := (fields.before '\x7d' (by decide)).after ['\x7b']

/-- The elements of an array behind the first one, up to the closing bracket. -/
def writeTail (c : Codec α) : List α → List Char
  | [] => [']']
  | a :: items => ',' :: (c.write a ++ writeTail c items)

/-- Read the elements of an array behind the first one, at most as many as the first argument says. -/
def readTail (c : Codec α) : Nat → List Char → Option (List α × List Char)
  | _, ']' :: rest => some ([], rest)
  | fuel + 1, ',' :: text =>
      (c.read text).bind fun read =>
        (readTail c fuel read.2).map fun more => (read.1 :: more.1, more.2)
  | _, _ => none

theorem length_le_writeTail (c : Codec α) (items : List α) : items.length ≤ (writeTail c items).length := by
  induction items with
  | nil => exact Nat.zero_le _
  | cons a items inductionHypothesis =>
      rw [writeTail, List.length_cons, List.length_cons, List.length_append]
      omega

theorem delimited_writeTail (c : Codec α) (items : List α) (rest : List Char) :
    Delimited (writeTail c items ++ rest) := by
  cases items with
  | nil => exact .cons (by decide) _
  | cons a items => exact .cons (by decide) _

theorem readTail_writeTail (c : Codec α) (items : List α) (rest : List Char) {fuel : Nat}
    (enough : items.length ≤ fuel) : readTail c fuel (writeTail c items ++ rest) = some (items, rest) := by
  induction items generalizing fuel with
  | nil => rw [writeTail, List.singleton_append, readTail]
  | cons a items inductionHypothesis =>
      cases fuel with
      | zero => cases enough
      | succ fuel =>
          rw [writeTail, List.cons_append, readTail, List.append_assoc,
            c.read_write a _ (delimited_writeTail c items rest), Option.bind_some,
            inductionHypothesis (Nat.le_of_succ_le_succ enough), Option.map_some]

/-- Read an array. -/
def readArray (c : Codec α) : List Char → Option (List α × List Char)
  | '[' :: ']' :: rest => some ([], rest)
  | '[' :: text =>
      (c.read text).bind fun read =>
        (readTail c read.2.length read.2).map fun more => (read.1 :: more.1, more.2)
  | _ => none

/-- The text of an array. -/
def writeArray (c : Codec α) : List α → List Char
  | [] => ['[', ']']
  | a :: items => '[' :: (c.write a ++ writeTail c items)

/-- An array of values whose texts do not start with a closing bracket. -/
def array (c : Codec α) (opens : ∀ a rest, (c.write a ++ rest).head? ≠ some ']') : Codec (List α) where
  write := writeArray c
  read := readArray c
  read_write items rest _ := by
    cases items with
    | nil => rfl
    | cons a items =>
        have enough : items.length ≤ (writeTail c items ++ rest).length := by
          rw [List.length_append]
          exact Nat.le_add_right_of_le (length_le_writeTail c items)
        have notClosing : ∀ more, c.write a ++ (writeTail c items ++ rest) ≠ ']' :: more := by
          intro more same
          exact opens a (writeTail c items ++ rest) (congrArg List.head? same)
        rw [writeArray, List.cons_append, List.append_assoc, readArray.eq_2 _ _ notClosing,
          c.read_write a _ (delimited_writeTail c items rest), Option.bind_some,
          readTail_writeTail c items rest enough, Option.map_some]

end Codec

/-! ### Bytes -/

/-- The UTF-8 bytes of a text. -/
def toBytes (text : List Char) : List UInt8 := (String.ofList text).toByteArray.data.toList

theorem toBytes_nil : toBytes [] = [] := rfl

/-- The text of UTF-8 bytes. -/
def ofBytes (bytes : List UInt8) : Option (List Char) :=
  (ByteArray.utf8Decode? ⟨bytes.toArray⟩).map Array.toList

theorem ofBytes_toBytes (text : List Char) : ofBytes (toBytes text) = some text := by
  have decoded : ByteArray.utf8Decode? ⟨(toBytes text).toArray⟩ = some text.toArray := by
    rw [toBytes, Array.toArray_toList, String.toByteArray_ofList]
    exact List.utf8Decode?_utf8Encode
  rw [ofBytes, decoded, Option.map_some]

/-- Read a value from the start of some bytes. -/
def Codec.decode {α : Type} (c : Codec α) (bytes : List UInt8) : Option (α × List UInt8) :=
  (ofBytes bytes).bind fun text => (c.read text).map fun read => (read.1, toBytes read.2)

/-- A codec reads back the bytes of what it wrote. -/
theorem Codec.decode_toBytes {α : Type} (c : Codec α) (a : α) {rest : List Char}
    (delimited : Delimited rest) :
    c.decode (toBytes (c.write a ++ rest)) = some (a, toBytes rest) := by
  rw [Codec.decode, ofBytes_toBytes, Option.bind_some, c.read_write a rest delimited, Option.map_some]

/-! ### Sizes -/

theorem length_toBytes (text : List Char) : (toBytes text).length = (text.map Char.utf8Size).sum := by
  rw [toBytes, String.toByteArray_ofList]
  induction text with
  | nil => rfl
  | cons c text inductionHypothesis =>
      have bytes : ([c].utf8Encode).data.toList.length = c.utf8Size := by
        simp [List.utf8Encode_singleton]
      rw [List.utf8Encode_cons, ByteArray.data_append, Array.toList_append, List.length_append, bytes,
        inductionHypothesis, List.map_cons, List.sum_cons]

@[simp] theorem length_toBytes_append (front back : List Char) :
    (toBytes (front ++ back)).length = (toBytes front).length + (toBytes back).length := by
  simp only [length_toBytes, List.map_append, List.sum_append]

/-- A text of one-byte characters has as many bytes as characters. -/
theorem length_toBytes_of_ascii {text : List Char} (ascii : ∀ c ∈ text, c.utf8Size = 1) :
    (toBytes text).length = text.length := by
  rw [length_toBytes, List.map_congr_left ascii]
  simp

/-- The bytes a string takes between its quotes, after escaping. -/
def escapedSize (s : String) : Nat := (toBytes (s.toList.flatMap writeChar)).length

/-- The characters an integer takes. -/
def intSize (n : Int) : Nat := (writeInt n).length

theorem ascii_of_isDigit {c : Char} (digit : c.isDigit = true) : c.utf8Size = 1 := by
  rw [Char.utf8Size_eq_one_iff]
  rw [Char.isDigit, Bool.and_eq_true, decide_eq_true_eq, decide_eq_true_eq] at digit
  exact UInt32.le_trans digit.2 (by decide)

theorem ascii_writeInt (n : Int) : ∀ c ∈ writeInt n, c.utf8Size = 1 := by
  have digits : ∀ k : Nat, ∀ c ∈ Nat.toDigits 10 k, c.utf8Size = 1 :=
    fun k c member => ascii_of_isDigit (Nat.isDigit_of_mem_toDigits (by decide) (by decide) member)
  cases n with
  | ofNat k => exact digits k
  | negSucc k =>
      intro c member
      rcases List.mem_cons.mp member with rfl | inDigits
      · rfl
      · exact digits (k + 1) c inDigits

/-- The integers below `10 ^ k` take at most `k` characters. -/
theorem intSize_le {n k : Nat} (positive : 0 < k) (below : n < 10 ^ k) : intSize n ≤ k :=
  (Nat.length_toDigits_le_iff (by decide) positive).mpr below

/-- A base64 text has four characters for every three bytes or fewer. -/
theorem length_encode64 (bytes : List UInt8) : (encode64 bytes).length = 4 * ((bytes.length + 2) / 3) := by
  induction bytes using encode64.induct with
  | case1 a b c rest inductionHypothesis =>
      simp only [encode64, List.length_cons, inductionHypothesis]
      omega
  | case2 a b => simp [encode64]
  | case3 a => simp [encode64]
  | case4 => rfl

/-- The digits of base64 and its padding stand for themselves in a string, in one byte each. -/
theorem plain_digit64 : ∀ n < 64, writeChar (digit64 n) = [digit64 n] ∧ (digit64 n).utf8Size = 1 := by
  decide

theorem plain_encode64 (bytes : List UInt8) :
    ∀ c ∈ encode64 bytes, writeChar c = [c] ∧ c.utf8Size = 1 := by
  have pad : writeChar '=' = ['='] ∧ '='.utf8Size = 1 := by decide
  induction bytes using encode64.induct with
  | case1 a b c rest inductionHypothesis =>
      have boundA := a.toNat_lt
      have boundB := b.toNat_lt
      have boundC := c.toNat_lt
      simp only [encode64, List.forall_mem_cons]
      exact ⟨plain_digit64 _ (by omega), plain_digit64 _ (by omega), plain_digit64 _ (by omega),
        plain_digit64 _ (by omega), inductionHypothesis⟩
  | case2 a b =>
      have boundA := a.toNat_lt
      have boundB := b.toNat_lt
      simp only [encode64, List.forall_mem_cons]
      exact ⟨plain_digit64 _ (by omega), plain_digit64 _ (by omega), plain_digit64 _ (by omega), pad,
        by simp⟩
  | case3 a =>
      have boundA := a.toNat_lt
      simp only [encode64, List.forall_mem_cons]
      exact ⟨plain_digit64 _ (by omega), plain_digit64 _ (by omega), pad, pad, by simp⟩
  | case4 => simp [encode64]

/-- A text whose characters stand for themselves is written as it is. -/
theorem flatMap_writeChar {text : List Char} (plain : ∀ c ∈ text, writeChar c = [c]) :
    text.flatMap writeChar = text := by
  rw [List.flatMap_congr plain, List.flatMap_singleton']

namespace Codec

variable {α β : Type}

/-- The bytes a value takes. -/
def size (c : Codec α) (a : α) : Nat := (toBytes (c.write a)).length

@[simp] theorem size_int (n : Int) : int.size n = intSize n :=
  length_toBytes_of_ascii (ascii_writeInt n)

@[simp] theorem size_string (s : String) : string.size s = escapedSize s + 2 := by
  have quote : (toBytes ['\x22']).length = 1 := rfl
  have whole : string.size s =
      (toBytes ['\x22']).length + ((toBytes (s.toList.flatMap writeChar)).length + 1) :=
    (length_toBytes_append ['\x22'] _).trans (congrArg _ (length_toBytes_append _ ['\x22']))
  rw [whole, quote, escapedSize]
  omega

@[simp] theorem size_via (c : Codec α) (form : β → α) (back : α → Option β)
    (back_form : ∀ b, back (form b) = some b) (b : β) : (c.via form back back_form).size b = c.size (form b) :=
  rfl

@[simp] theorem size_base64 (bytes : List UInt8) : base64.size bytes = 4 * ((bytes.length + 2) / 3) + 2 := by
  have plain := plain_encode64 bytes
  rw [base64, size_via, size_string, escapedSize, String.toList_ofList,
    flatMap_writeChar fun c member => (plain c member).1,
    length_toBytes_of_ascii fun c member => (plain c member).2, length_encode64]

@[simp] theorem size_after (text : List Char) (c : Codec α) (a : α) :
    (c.after text).size a = (toBytes text).length + c.size a :=
  length_toBytes_append text (c.write a)

@[simp] theorem size_comma (c : Codec α) (d : Codec β) (both : α × β) :
    (c.comma d).size both = c.size both.1 + (1 + d.size both.2) := by
  have whole : (c.comma d).size both = c.size both.1 + (d.after [',']).size both.2 :=
    length_toBytes_append _ _
  rw [whole, size_after]
  rfl

@[simp] theorem size_field (name : String) (c : Codec α) (a : α) :
    (c.field name).size a = escapedSize name + 3 + c.size a := by
  have colon : (toBytes [':']).length = 1 := rfl
  have quoted : (toBytes (writeString name)).length = escapedSize name + 2 := size_string name
  rw [field, size_after, length_toBytes_append, colon, quoted]

@[simp] theorem size_object (fields : Codec α) (a : α) : fields.object.size a = fields.size a + 2 := by
  have inner : (fields.before '\x7d' (by decide)).size a = fields.size a + 1 :=
    length_toBytes_append (fields.write a) ['\x7d']
  have brace : (toBytes ['\x7b']).length = 1 := rfl
  rw [object, size_after, brace, inner]
  omega

/-! ### Objects of another kind -/

/-- A field is not read under another name. -/
theorem read_field_other {name other : String} (differs : name ≠ other) (c : Codec α) (rest : List Char) :
    (c.field name).read (writeString other ++ ':' :: rest) = none := by
  have absent : (writeString other ++ ':' :: rest).dropPrefix? (writeString name ++ [':']) = none := by
    cases found : (writeString other ++ ':' :: rest).dropPrefix? (writeString name ++ [':']) with
    | none => rfl
    | some more =>
        obtain ⟨start, same, isName⟩ := List.dropPrefix?_eq_some_iff.mp found
        rw [eq_of_beq isName, List.append_assoc, List.singleton_append] at same
        have read := string.read_write other (':' :: rest) (.cons (by decide) rest)
        have readName := string.read_write name (':' :: more) (.cons (by decide) more)
        have together := read.symm.trans ((congrArg string.read same).trans readName)
        rw [Option.some.injEq, Prod.mk.injEq] at together
        exact absurd together.1.symm differs
  change ((writeString other ++ ':' :: rest).dropPrefix? (writeString name ++ [':'])).bind c.read = none
  rw [absent, Option.bind_none]

/-- An object is not read if its fields are not. -/
theorem read_object_none {fields : Codec α} {text : List Char} (none : fields.read text = none) :
    fields.object.read ('\x7b' :: text) = Option.none := by
  have dropped : ('\x7b' :: text).dropPrefix? ['\x7b'] = some text :=
    List.dropPrefix?_append_of_beq text (beq_self_eq_true ['\x7b'])
  change (('\x7b' :: text).dropPrefix? ['\x7b']).bind (fields.before '\x7d' (by decide)).read = Option.none
  rw [dropped, Option.bind_some, before]
  simp only [none]

/-- Two fields are not read if the first is not. -/
theorem read_comma_none {c : Codec α} {d : Codec β} {text : List Char} (none : c.read text = none) :
    (c.comma d).read text = Option.none := by
  rw [comma]
  simp only [none, Option.bind_none]

end Codec

example : Codec.int.object.write (-12) = ['\x7b', '-', '1', '2', '\x7d'] := by decide

end Json
