/-
Module: GoExotic.Theory.Shell
Purpose: The words of a shell command. A command is read character by character: blanks and operators end
  a word, quotes and backslashes take characters into it without their meaning, and a hash between words
  starts a comment. A letter of a word remembers how it was quoted, so that it is known what the shell
  would still expand.
Trusted boundary: token recognition of the POSIX shell, without here-documents and substitutions
Main exports: Quoting, Letter, Token, Mode, Lexer, lex, lex_word, lex_word_blank, Token.inert
-/
import Mathlib.Data.List.Basic

namespace Shell

/-- How a letter of a word was quoted. -/
inductive Quoting where
  | bare
  | escaped
  | single
  | double
deriving DecidableEq, Repr

/-- A letter of a word. -/
abbrev Letter := Char × Quoting

/-- What a command is made of. -/
inductive Token where
  | word (letters : List Letter)
  | operator (c : Char)
deriving DecidableEq, Repr

/-- Where in a command the next character stands. -/
inductive Mode where
  | blank
  | word
  | single
  | double
  | escape (inWord : Bool)
  | doubleEscape
  | comment
deriving DecidableEq, Repr

/-- A command read so far: the letters of the word that is not ended, and the tokens before it. -/
structure Lexer where
  mode : Mode
  letters : List Letter
  tokens : List Token
deriving DecidableEq, Repr

/-- The characters that are operators, or start one. -/
def isOperator (c : Char) : Bool := c ∈ ['|', '&', ';', '<', '>', '(', ')', '\n']

namespace Lexer

/-- At the start of a command. -/
def start : Lexer := ⟨.blank, [], []⟩

/-- End the word, if there is one. -/
def endWord (s : Lexer) : Lexer :=
  if s.mode = .word then ⟨.blank, [], s.tokens ++ [.word s.letters]⟩ else { s with mode := .blank }

/-- Add a letter to the word. -/
def add (s : Lexer) (mode : Mode) (c : Char) (quoting : Quoting) : Lexer :=
  { s with mode := mode, letters := s.letters ++ [(c, quoting)] }

/-- Read an unquoted character. -/
def readBare (s : Lexer) (c : Char) : Lexer :=
  if c = ' ' ∨ c = '\t' then s.endWord
  else if isOperator c then { s.endWord with tokens := s.endWord.tokens ++ [.operator c] }
  else if c = '\x27' then { s with mode := .single }
  else if c = '\x22' then { s with mode := .double }
  else if c = '\\' then { s with mode := .escape (s.mode == .word) }
  else if c = '#' ∧ s.mode = .blank then { s with mode := .comment }
  else s.add .word c .bare

/-- Read one character. -/
def step (s : Lexer) (c : Char) : Lexer :=
  match s.mode with
  | .blank => s.readBare c
  | .word => s.readBare c
  | .single => if c = '\x27' then { s with mode := .word } else s.add .single c .single
  | .double =>
      if c = '\x22' then { s with mode := .word }
      else if c = '\\' then { s with mode := .doubleEscape }
      else s.add .double c .double
  | .escape inWord =>
      if c = '\n' then { s with mode := if inWord then .word else .blank } else s.add .word c .escaped
  | .doubleEscape =>
      if c = '\n' then { s with mode := .double }
      else if c ∈ ['$', '\x60', '\x22', '\\'] then s.add .double c .escaped
      else (s.add .double '\\' .double).add .double c .double
  | .comment => if c = '\n' then { s with mode := .blank, tokens := s.tokens ++ [.operator '\n'] } else s

/-- Read a text. -/
def read (s : Lexer) (text : List Char) : Lexer := text.foldl step s

/-- The tokens at the end of a command; one that ends inside quotes has none. -/
def finish (s : Lexer) : Option (List Token) :=
  match s.mode with
  | .blank | .comment => some s.tokens
  | .word => some (s.tokens ++ [.word s.letters])
  | _ => none

theorem read_append (s : Lexer) (a b : List Char) : s.read (a ++ b) = (s.read a).read b :=
  List.foldl_append

/-- The lexer with some tokens before those it has read. -/
def after (s : Lexer) (before : List Token) : Lexer := { s with tokens := before ++ s.tokens }

theorem endWord_after (s : Lexer) (before : List Token) :
    (s.after before).endWord = s.endWord.after before := by
  unfold endWord after
  split_ifs
  · simp
  · rfl

theorem readBare_after (s : Lexer) (before : List Token) (c : Char) :
    (s.after before).readBare c = (s.readBare c).after before := by
  unfold readBare
  rw [endWord_after]
  simp only [after, add]
  split_ifs <;> simp [*]

theorem step_after (s : Lexer) (before : List Token) (c : Char) :
    (s.after before).step c = (s.step c).after before := by
  obtain ⟨mode, letters, tokens⟩ := s
  cases mode with
  | blank => exact readBare_after ⟨.blank, letters, tokens⟩ before c
  | word => exact readBare_after ⟨.word, letters, tokens⟩ before c
  | single => simp only [step, after, add]; split_ifs <;> rfl
  | double => simp only [step, after, add]; split_ifs <;> rfl
  | escape inWord => simp only [step, after, add]; split_ifs <;> rfl
  | doubleEscape => simp only [step, after, add]; split_ifs <;> rfl
  | comment => simp only [step, after]; split_ifs <;> simp

theorem read_after (s : Lexer) (before : List Token) (text : List Char) :
    (s.after before).read text = (s.read text).after before := by
  induction text generalizing s with
  | nil => rfl
  | cons c rest inductionHypothesis =>
      change ((s.after before).step c).read rest = _
      rw [step_after, inductionHypothesis]
      rfl

theorem finish_after (s : Lexer) (before : List Token) :
    (s.after before).finish = s.finish.map fun tokens => before ++ tokens := by
  cases s with
  | mk mode letters tokens => cases mode <;> simp [finish, after]

end Lexer

open Lexer

/-- The tokens of a command. -/
def lex (text : List Char) : Option (List Token) := (start.read text).finish

section Words

variable {before quoted rest : List Char} {tokens later : List Token} {letters : List Letter}

theorem start_after (tokens : List Token) : start.after tokens = ⟨.blank, [], tokens⟩ := by
  rw [after, start, List.append_nil]

/-- A text that reads as one word is the last word after a text that leaves none open. -/
theorem lex_word (first : start.read before = ⟨.blank, [], tokens⟩)
    (isWord : start.read quoted = ⟨.word, letters, []⟩) :
    lex (before ++ quoted) = some (tokens ++ [.word letters]) := by
  rw [lex, read_append, first, ← start_after, read_after, isWord, finish_after]
  rfl

/-- It is a word by itself between such a text and a blank. -/
theorem lex_word_blank (first : start.read before = ⟨.blank, [], tokens⟩)
    (isWord : start.read quoted = ⟨.word, letters, []⟩) (last : lex rest = some later) :
    lex (before ++ quoted ++ ' ' :: rest) = some (tokens ++ .word letters :: later) := by
  have ended : (Lexer.mk .word letters []).step ' ' = start.after [.word letters] := rfl
  rw [lex, read_append, read_append, first, ← start_after, read_after, isWord, read_after]
  change (((Lexer.mk .word letters []).step ' ').read rest |>.after tokens).finish = _
  rw [ended, read_after, finish_after, finish_after]
  rw [lex] at last
  rw [last]
  rfl

end Words

/-! ### Expansion -/

/-- The shell may replace the letter, or the word for it: parameters and commands are expanded outside single
quotes, tildes and patterns outside all. -/
def Letter.expands : Letter → Bool
  | (c, .bare) => c ∈ ['$', '\x60', '*', '?', '[', '~']
  | (c, .double) => c ∈ ['$', '\x60']
  | (_, .single) => false
  | (_, .escaped) => false

/-- A word that stands for its letters. -/
def Token.inert : Token → Bool
  | .word letters => letters.all fun letter => !letter.expands
  | .operator _ => false

/-- A word with all its letters escaped or in single quotes stands for them. -/
theorem Token.inert_of_quoted {letters : List Letter}
    (quoted : ∀ letter ∈ letters, letter.2 = .single ∨ letter.2 = .escaped) : (Token.word letters).inert = true := by
  rw [Token.inert, List.all_eq_true]
  rintro ⟨c, quoting⟩ member
  rcases quoted _ member with isQuoted | isQuoted
  · cases isQuoted
    rfl
  · cases isQuoted
    rfl

end Shell
