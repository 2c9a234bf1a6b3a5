/-
Module: GoExotic.Theory.JsonLayout
Purpose: JSON laid out over lines. Indenting a text adds whitespace around its punctuation and compacting takes
  whitespace away, both outside strings only; so an indented text compacts to what the text itself compacts to,
  whatever the text. What codecs write has no whitespace outside its strings, and is read back from its
  indented form.
Trusted boundary: none
Main exports: compact, indent, compact_indent, Tidy, Codec.IsTidy, Codec.read_indent
-/
import GoExotic.Theory.Json

namespace Json

/-! ### Scanning -/

/-- Where in a text a scanner is: outside strings, inside one, or behind a backslash in one. -/
inductive Mode where
  | outside
  | inside
  | escaped
deriving DecidableEq, Repr

/-- The mode behind a character. -/
def Mode.next : Mode → Char → Mode
  | .outside, c => if c = '\x22' then .inside else .outside
  | .inside, c => if c = '\\' then .escaped else if c = '\x22' then .outside else .inside
  | .escaped, _ => .inside

/-- Whitespace of JSON. -/
def isSpace (c : Char) : Bool := [' ', '\t', '\n', '\r'].contains c

/-- A text without the whitespace outside its strings. -/
def compact : Mode → List Char → List Char
  | _, [] => []
  | mode, c :: rest => if mode = .outside ∧ isSpace c then compact mode rest else c :: compact (mode.next c) rest

/-- The start of a line at a depth. -/
def newline (unit : List Char) (depth : Nat) : List Char := '\n' :: (List.replicate depth unit).flatten

/-- Lay a text out over lines, from a mode and a depth on. `fresh` is set right behind an opening bracket, where the
line break waits for what follows. -/
def indentFrom (unit : List Char) : Mode → Bool → Nat → List Char → List Char
  | _, _, _, [] => []
  | .outside, fresh, depth, c :: rest =>
      if isSpace c then indentFrom unit .outside fresh depth rest
      else if c = '\x7d' ∨ c = ']' then
        if fresh then c :: indentFrom unit .outside false depth rest
        else newline unit (depth - 1) ++ c :: indentFrom unit .outside false (depth - 1) rest
      else
        let lead := if fresh then newline unit (depth + 1) else []
        let depth := if fresh then depth + 1 else depth
        if c = '\x7b' ∨ c = '[' then lead ++ c :: indentFrom unit .outside true depth rest
        else if c = ',' then lead ++ c :: (newline unit depth ++ indentFrom unit .outside false depth rest)
        else if c = ':' then lead ++ c :: ' ' :: indentFrom unit .outside false depth rest
        else lead ++ c :: indentFrom unit (Mode.next .outside c) false depth rest
  | mode, fresh, depth, c :: rest => c :: indentFrom unit (mode.next c) fresh depth rest

/-- Lay a text out over lines. -/
def indent (unit text : List Char) : List Char := indentFrom unit .outside false 0 text

example : indent [' ', ' '] "[1,[],[2]]".toList = "[\n  1,\n  [],\n  [\n    2\n  ]\n]".toList := by decide +kernel

/-! ### Compacting what was indented -/

/-- Whitespace before a text compacts to nothing. -/
theorem compact_spaces {spaces : List Char} (blank : ∀ c ∈ spaces, isSpace c = true) (rest : List Char) :
    compact .outside (spaces ++ rest) = compact .outside rest := by
  induction spaces with
  | nil => rfl
  | cons c spaces inductionHypothesis =>
      rw [List.cons_append, compact, if_pos ⟨rfl, blank c List.mem_cons_self⟩]
      exact inductionHypothesis fun d member => blank d (List.mem_cons_of_mem c member)

theorem blank_newline {unit : List Char} (blank : ∀ c ∈ unit, isSpace c = true) (depth : Nat) :
    ∀ c ∈ newline unit depth, isSpace c = true := by
  intro c member
  rcases List.mem_cons.mp member with rfl | inUnits
  · rfl
  · obtain ⟨part, isUnit, inPart⟩ := List.mem_flatten.mp inUnits
    rw [(List.mem_replicate.mp isUnit).2] at inPart
    exact blank c inPart

theorem compact_outside {c : Char} (notSpace : isSpace c = false) (rest : List Char) :
    compact .outside (c :: rest) = c :: compact (Mode.next .outside c) rest := by
  rw [compact, if_neg]
  simp [notSpace]

theorem compact_string {mode : Mode} (inString : mode ≠ .outside) (c : Char) (rest : List Char) :
    compact mode (c :: rest) = c :: compact (mode.next c) rest := by
  rw [compact, if_neg]
  simp [inString]

/-- Punctuation opens no string. -/
theorem next_punctuation {c : Char}
    (isPunctuation : (c = '\x7d' ∨ c = ']') ∨ (c = '\x7b' ∨ c = '[') ∨ c = ',' ∨ c = ':') :
    Mode.next .outside c = .outside := by
  rcases isPunctuation with (rfl | rfl) | (rfl | rfl) | rfl | rfl <;> rfl

/-- An indented text compacts as the text does, whatever follows. -/
theorem compact_indentFrom {unit : List Char} (blank : ∀ c ∈ unit, isSpace c = true) (text more : List Char)
    (mode : Mode) (fresh : Bool) (depth : Nat) :
    compact mode (indentFrom unit mode fresh depth text ++ more) = compact mode (text ++ more) := by
  induction text generalizing mode fresh depth with
  | nil => cases mode <;> rfl
  | cons c rest inductionHypothesis =>
      rw [List.cons_append]
      cases mode with
      | outside =>
          have lead : ∀ later, compact .outside ((if fresh then newline unit (depth + 1) else []) ++ later) =
              compact .outside later := by
            intro later
            split_ifs
            · exact compact_spaces (blank_newline blank _) later
            · rfl
          by_cases space : isSpace c = true
          · rw [indentFrom, if_pos space, inductionHypothesis, compact, if_pos ⟨rfl, space⟩]
          · have one : ∀ later, compact .outside (c :: later) = c :: compact (Mode.next .outside c) later :=
              compact_outside (eq_false_of_ne_true space)
            rw [indentFrom, if_neg space, one]
            by_cases closes : c = '\x7d' ∨ c = ']'
            · have stays := next_punctuation (Or.inl closes)
              rw [if_pos closes]
              split_ifs
              · rw [List.cons_append, one, stays, inductionHypothesis]
              · rw [List.append_assoc, List.cons_append, compact_spaces (blank_newline blank _), one, stays,
                  inductionHypothesis]
            · rw [if_neg closes]
              dsimp only
              by_cases opens : c = '\x7b' ∨ c = '['
              · have stays := next_punctuation (Or.inr (Or.inl opens))
                rw [if_pos opens, List.append_assoc, List.cons_append, lead, one, stays, inductionHypothesis]
              · rw [if_neg opens]
                by_cases comma : c = ','
                · have stays := next_punctuation (Or.inr (Or.inr (Or.inl comma)))
                  rw [if_pos comma, List.append_assoc, List.cons_append, lead, one, stays, List.append_assoc,
                    compact_spaces (blank_newline blank _), inductionHypothesis]
                · rw [if_neg comma]
                  by_cases colon : c = ':'
                  · have stays := next_punctuation (Or.inr (Or.inr (Or.inr colon)))
                    have gap : ∀ later, compact .outside (' ' :: later) = compact .outside later := by
                      intro later
                      rw [compact, if_pos ⟨rfl, rfl⟩]
                    rw [if_pos colon, List.append_assoc, List.cons_append, List.cons_append, lead, one, stays, gap,
                      inductionHypothesis]
                  · rw [if_neg colon, List.append_assoc, List.cons_append, lead, one, inductionHypothesis]
      | inside =>
          rw [indentFrom.eq_def, List.cons_append, compact_string (by decide), compact_string (by decide),
            inductionHypothesis]
      | escaped =>
          rw [indentFrom.eq_def, List.cons_append, compact_string (by decide), compact_string (by decide),
            inductionHypothesis]

/-- Indenting changes nothing but the whitespace outside strings. -/
theorem compact_indent {unit : List Char} (blank : ∀ c ∈ unit, isSpace c = true) (text more : List Char) :
    compact .outside (indent unit text ++ more) = compact .outside (text ++ more) :=
  compact_indentFrom blank text more .outside false 0

/-! ### Texts of codecs -/

/-- A text without whitespace outside its strings, which ends outside them. -/
def Tidy (text : List Char) : Prop := ∀ rest, compact .outside (text ++ rest) = text ++ compact .outside rest

theorem Tidy.nil : Tidy [] := fun _ => rfl

theorem Tidy.append {text more : List Char} (first : Tidy text) (second : Tidy more) : Tidy (text ++ more) := by
  intro rest
  rw [List.append_assoc, first, second, List.append_assoc]

/-- A text of characters that are neither whitespace nor quotes. -/
theorem Tidy.of_plain {text : List Char} (plain : text.all (fun c => !isSpace c && c != '\x22') = true) :
    Tidy text := by
  intro rest
  induction text with
  | nil => rfl
  | cons c text inductionHypothesis =>
      rw [List.all_cons, Bool.and_eq_true, Bool.and_eq_true, Bool.not_eq_true', bne_iff_ne] at plain
      obtain ⟨⟨notSpace, notQuote⟩, plainText⟩ := plain
      have stays : Mode.next .outside c = .outside := if_neg notQuote
      rw [List.cons_append, compact_outside notSpace, stays, inductionHypothesis plainText]
      rfl

/-- Inside a string, a character that is neither a backslash nor a quote stays there. -/
theorem compact_letter {c : Char} (notBackslash : c ≠ '\\') (notQuote : c ≠ '\x22') (rest : List Char) :
    compact .inside (c :: rest) = c :: compact .inside rest := by
  have stays : Mode.next .inside c = .inside := by
    rw [Mode.next, if_neg notBackslash, if_neg notQuote]
  rw [compact_string (by decide), stays]

/-- A backslash takes the character behind it along. -/
theorem compact_escape (letter : Char) (rest : List Char) :
    compact .inside ('\\' :: letter :: rest) = '\\' :: letter :: compact .inside rest := by
  rw [compact_string (by decide), compact_string (by decide)]
  rfl

theorem hexDigit_letter : ∀ n < 16, hexDigit n ≠ '\\' ∧ hexDigit n ≠ '\x22' := by decide

/-- A written character ends inside its string. -/
theorem compact_writeChar (c : Char) (rest : List Char) :
    compact .inside (writeChar c ++ rest) = writeChar c ++ compact .inside rest := by
  have digit : ∀ (n : Nat) (more : List Char),
      compact .inside (hexDigit (n % 16) :: more) = hexDigit (n % 16) :: compact .inside more := by
    intro n more
    obtain ⟨notBackslash, notQuote⟩ := hexDigit_letter (n % 16) (Nat.mod_lt n (by decide))
    exact compact_letter notBackslash notQuote more
  unfold writeChar
  cases short : shortEscape c with
  | some letter => exact compact_escape letter rest
  | none =>
      dsimp only
      split_ifs with escaped
      · simp only [List.cons_append, List.nil_append]
        rw [compact_escape, digit, digit, digit, digit]
      · apply compact_letter
        · rintro rfl
          cases short
        · rintro rfl
          cases short

/-- A string is tidy, whatever is in it. -/
theorem Tidy.string (s : String) : Tidy (writeString s) := by
  have body : ∀ (chars rest : List Char),
      compact .inside (chars.flatMap writeChar ++ rest) = chars.flatMap writeChar ++ compact .inside rest := by
    intro chars rest
    induction chars with
    | nil => rfl
    | cons c chars inductionHypothesis =>
        rw [List.flatMap_cons, List.append_assoc, compact_writeChar, inductionHypothesis, List.append_assoc]
  intro rest
  have opens : ∀ more, compact .outside ('\x22' :: more) = '\x22' :: compact .inside more :=
    fun more => compact_outside rfl more
  have closes : ∀ more, compact .inside ('\x22' :: more) = '\x22' :: compact .outside more :=
    fun more => compact_string (by decide) '\x22' more
  rw [writeString, List.cons_append, opens, List.append_assoc, body, List.singleton_append, closes]
  simp

theorem plain_of_isDigit {c : Char} (digit : c.isDigit = true) : (!isSpace c && c != '\x22') = true := by
  rw [Bool.and_eq_true, Bool.not_eq_true', bne_iff_ne]
  constructor
  · apply eq_false_of_ne_true
    intro space
    have member : c ∈ [' ', '\t', '\n', '\r'] := List.contains_iff_mem.mp space
    simp only [List.mem_cons, List.not_mem_nil, or_false] at member
    rcases member with rfl | rfl | rfl | rfl <;> cases digit
  · rintro rfl
    cases digit

/-- A number is tidy. -/
theorem Tidy.int (n : Int) : Tidy (writeInt n) := by
  have digits : ∀ k : Nat, Tidy (Nat.toDigits 10 k) := by
    intro k
    apply Tidy.of_plain
    rw [List.all_eq_true]
    exact fun c member => plain_of_isDigit (Nat.isDigit_of_mem_toDigits (by decide) (by decide) member)
  cases n with
  | ofNat k => exact digits k
  | negSucc k => exact Tidy.append (.of_plain rfl : Tidy ['-']) (digits (k + 1))

namespace Codec

variable {α β : Type}

/-- A codec that writes tidy texts. -/
def IsTidy (c : Codec α) : Prop := ∀ a, Tidy (c.write a)

theorem IsTidy.string : string.IsTidy := Tidy.string

theorem IsTidy.int : int.IsTidy := Tidy.int

theorem IsTidy.via {c : Codec α} (tidy : c.IsTidy) {form : β → α} {back : α → Option β}
    {back_form : ∀ b, back (form b) = some b} : (c.via form back back_form).IsTidy := fun b => tidy (form b)

theorem IsTidy.after {c : Codec α} (tidy : c.IsTidy) {text : List Char} (fixed : Tidy text) : (c.after text).IsTidy :=
  fun a => fixed.append (tidy a)

theorem IsTidy.before {c : Codec α} (tidy : c.IsTidy) {close : Char} {notDigit : close.isDigit = false}
    (fixed : Tidy [close]) : (c.before close notDigit).IsTidy := fun a => (tidy a).append fixed

theorem IsTidy.comma {c : Codec α} {d : Codec β} (first : c.IsTidy) (second : d.IsTidy) : (c.comma d).IsTidy :=
  fun both => (first both.1).append (second.after (.of_plain rfl) both.2)

theorem IsTidy.field {c : Codec α} (tidy : c.IsTidy) (name : String) : (c.field name).IsTidy :=
  tidy.after ((Tidy.string name).append (.of_plain rfl))

theorem IsTidy.object {c : Codec α} (tidy : c.IsTidy) : c.object.IsTidy :=
  (tidy.before (.of_plain rfl)).after (.of_plain rfl)

theorem IsTidy.array {c : Codec α} (tidy : c.IsTidy) {opens : ∀ a rest, (c.write a ++ rest).head? ≠ some ']'} :
    (c.array opens).IsTidy := by
  have tail : ∀ items, Tidy (writeTail c items) := by
    intro items
    induction items with
    | nil => exact .of_plain rfl
    | cons a items inductionHypothesis =>
        exact Tidy.append (.of_plain rfl : Tidy [',']) ((tidy a).append inductionHypothesis)
  intro items
  cases items with
  | nil => exact (.of_plain rfl : Tidy ['[', ']'])
  | cons a items => exact Tidy.append (.of_plain rfl : Tidy ['[']) ((tidy a).append (tail items))

/-- What a tidy codec wrote is read back from its indented form, with whitespace behind it. -/
theorem read_indent {c : Codec α} (tidy : c.IsTidy) {unit spaces : List Char} (blank : ∀ c ∈ unit, isSpace c = true)
    (behind : ∀ c ∈ spaces, isSpace c = true) (a : α) :
    c.read (compact .outside (indent unit (c.write a) ++ spaces)) = some (a, []) := by
  have nothing : compact .outside spaces = [] := by
    have whole := compact_spaces behind []
    rwa [List.append_nil] at whole
  have read := c.read_write a [] Delimited.nil
  rw [List.append_nil] at read
  rw [compact_indent blank, tidy a spaces, nothing, List.append_nil, read]

end Codec

end Json
