/-
Module: GoExotic.Proofs.ModelHelpers
Purpose: The shell commands of the model helpers. A quoted value reads as one word that is the value, with
  every letter of it quoted; so each command has the words of its template, with the model path or the
  model id as one of them, and nothing in it is left for the shell to expand.
Trusted boundary: none
Main exports: quotedLetters, read_shellQuote, OneWord, shellQuote_oneWord, helperTokens,
  helper_commands_quoted
-/
import GoExotic.Model.ModelHelpers
import GoExotic.Theory.Shell

namespace GoExotic

open Shell

/-- How the letters of a quoted value are quoted: an apostrophe is escaped, all else in single quotes. -/
def quotedLetters (value : List Char) : List Letter :=
  value.map fun c => if c = '\x27' then (c, .escaped) else (c, .single)

/-- What `shellQuote` makes of the characters of a value. -/
def quotedBody (value : List Char) : List Char :=
  value.flatMap fun c => if c = '\x27' then ['\x27', '\\', '\x27', '\x27'] else [c]

theorem shellQuote_toList (value : String) :
    (shellQuote value).toList = '\x27' :: (quotedBody value.toList ++ ['\x27']) := by
  rw [shellQuote]
  split_ifs with empty
  · rw [empty]
    decide
  · simp only [String.toList_append, replaceChar, String.toList_ofList]
    rfl

/-- Inside the opening quote, the body is read letter by letter. -/
theorem read_quotedBody (value : List Char) (letters : List Letter) :
    (Lexer.mk .single letters []).read (quotedBody value) =
      ⟨.single, letters ++ quotedLetters value, []⟩ := by
  induction value generalizing letters with
  | nil => simp [quotedBody, quotedLetters, Lexer.read]
  | cons c rest inductionHypothesis =>
      have body : quotedBody (c :: rest) =
          (if c = '\x27' then ['\x27', '\\', '\x27', '\x27'] else [c]) ++ quotedBody rest := rfl
      have quoted : quotedLetters (c :: rest) =
          (if c = '\x27' then (c, .escaped) else (c, .single)) :: quotedLetters rest := rfl
      rw [body, quoted, Lexer.read_append]
      split_ifs with isApostrophe
      · -- The quotes are closed, the apostrophe is escaped, and the quotes are opened again.
        subst isApostrophe
        have reopened : (Lexer.mk .single letters []).read ['\x27', '\\', '\x27', '\x27'] =
            ⟨.single, letters ++ [('\x27', .escaped)], []⟩ := rfl
        rw [reopened, inductionHypothesis, List.append_assoc]
        rfl
      · have kept : (Lexer.mk .single letters []).read [c] = ⟨.single, letters ++ [(c, .single)], []⟩ := by
          simp [Lexer.read, Lexer.step, Lexer.add, isApostrophe]
        rw [kept, inductionHypothesis, List.append_assoc]
        rfl

/-- A quoted value reads as a word. -/
theorem read_shellQuote (value : String) :
    Lexer.start.read (shellQuote value).toList = ⟨.word, quotedLetters value.toList, []⟩ := by
  have opened : Lexer.start.read ['\x27'] = ⟨.single, [], []⟩ := rfl
  rw [shellQuote_toList, ← List.singleton_append, Lexer.read_append, opened, Lexer.read_append,
    read_quotedBody, List.nil_append]
  rfl

/-- The token for a value that is taken literally. -/
def literalToken (value : String) : Token := .word (quotedLetters value.toList)

/-- A text is one word, a value with all letters of it quoted. -/
structure OneWord (text value : String) : Prop where
  lexes : lex text.toList = some [literalToken value]
  verbatim : (quotedLetters value.toList).map Prod.fst = value.toList
  quoted : ∀ letter ∈ quotedLetters value.toList, letter.2 = .single ∨ letter.2 = .escaped

theorem shellQuote_oneWord (value : String) : OneWord (shellQuote value) value := by
  have lexes : lex ([] ++ (shellQuote value).toList) = some ([] ++ [literalToken value]) :=
    lex_word rfl (read_shellQuote value)
  refine ⟨lexes, ?_, ?_⟩
  · have same : (Prod.fst ∘ fun c : Char => if c = '\x27' then (c, Quoting.escaped) else (c, .single)) = id := by
      funext c
      by_cases isApostrophe : c = '\x27' <;> simp [isApostrophe]
    rw [quotedLetters, List.map_map, same, List.map_id]
  · intro letter member
    obtain ⟨c, -, rfl⟩ := List.mem_map.mp member
    by_cases isApostrophe : c = '\x27'
    · exact Or.inr (by rw [if_pos isApostrophe])
    · exact Or.inl (by rw [if_neg isApostrophe])

theorem literalToken_inert (value : String) : (literalToken value).inert = true :=
  Token.inert_of_quoted (shellQuote_oneWord value).quoted

/-! ### The commands -/

/-- A fixed word, all of it quoted in one way. -/
def fixedWord (quoting : Quoting) (text : String) : Token := .word (text.toList.map fun c => (c, quoting))

/-- The tokens of the commands, for the tokens that stand for the model path and the model id. -/
def helperTokens (path model : Token) : List (List Token) :=
  let bare := fixedWord .bare
  [ [bare "mkdir", bare "-p", path],
    [bare "find", path, bare "-maxdepth", bare "1", fixedWord .escaped "(", bare "-name",
      fixedWord .single "config.json", bare "-o", bare "-name", fixedWord .single "tokenizer.json", bare "-o",
      bare "-name", fixedWord .single "*.safetensors", fixedWord .escaped ")", bare "-print"],
    [bare "go", bare "run", bare "./cmd/go-exotic", bare "run", bare "-model", path, bare "-prompt",
      fixedWord .double "Hello", bare "-tokens", bare "1"],
    [bare "go", bare "run", bare "./cmd/go-exotic", bare "routes", bare "-layers", bare "4", bare "-model",
      model, bare "-json"],
    [bare "go", bare "run", bare "./cmd/go-exotic", bare "serve", bare "-addr", bare "127.0.0.1:8089",
      bare "-shard-model", path] ]

/-- A command that ends in a quoted value. -/
theorem lex_command {before : String} (tokens : List Token)
    (first : Lexer.start.read before.toList = ⟨.blank, [], tokens⟩) (value : String) :
    lex (before ++ shellQuote value).toList = some (tokens ++ [literalToken value]) := by
  rw [String.toList_append]
  exact lex_word first (read_shellQuote value)

/-- A command that goes on with a blank after a quoted value. -/
theorem lex_command_blank {before after : String} (tokens later : List Token)
    (first : Lexer.start.read before.toList = ⟨.blank, [], tokens⟩)
    (isBlank : after.toList = ' ' :: after.toList.tail) (last : lex after.toList.tail = some later)
    (value : String) :
    lex (before ++ shellQuote value ++ after).toList = some (tokens ++ literalToken value :: later) := by
  rw [String.toList_append, String.toList_append, isBlank]
  exact lex_word_blank first (read_shellQuote value) last

/-- The commands read as the tokens of their templates. -/
theorem lex_modelCommands (path model : String) :
    (modelCommands (shellQuote path) (shellQuote model)).map (fun c => lex c.command.toList) =
      (helperTokens (literalToken path) (literalToken model)).map some := by
  simp only [modelCommands, helperTokens, List.map_cons, List.map_nil]
  congr 1
  · exact lex_command [fixedWord .bare "mkdir", fixedWord .bare "-p"] (by decide) path
  congr 1
  · rw [String.append_assoc]
    exact lex_command_blank [fixedWord .bare "find"]
      [fixedWord .bare "-maxdepth", fixedWord .bare "1", fixedWord .escaped "(", fixedWord .bare "-name",
        fixedWord .single "config.json", fixedWord .bare "-o", fixedWord .bare "-name",
        fixedWord .single "tokenizer.json", fixedWord .bare "-o", fixedWord .bare "-name",
        fixedWord .single "*.safetensors", fixedWord .escaped ")", fixedWord .bare "-print"]
      (by decide) (by decide) (by decide +kernel) path
  congr 1
  · exact lex_command_blank
      [fixedWord .bare "go", fixedWord .bare "run", fixedWord .bare "./cmd/go-exotic", fixedWord .bare "run",
        fixedWord .bare "-model"]
      [fixedWord .bare "-prompt", fixedWord .double "Hello", fixedWord .bare "-tokens", fixedWord .bare "1"]
      (by decide +kernel) (by decide) (by decide +kernel) path
  congr 1
  · exact lex_command_blank
      [fixedWord .bare "go", fixedWord .bare "run", fixedWord .bare "./cmd/go-exotic", fixedWord .bare "routes",
        fixedWord .bare "-layers", fixedWord .bare "4", fixedWord .bare "-model"]
      [fixedWord .bare "-json"] (by decide +kernel) (by decide) (by decide) model
  congr 1
  · exact lex_command
      [fixedWord .bare "go", fixedWord .bare "run", fixedWord .bare "./cmd/go-exotic", fixedWord .bare "serve",
        fixedWord .bare "-addr", fixedWord .bare "127.0.0.1:8089", fixedWord .bare "-shard-model"]
      (by decide +kernel) path

/-- With inert tokens in it, a template has only inert tokens. -/
theorem helperTokens_inert {path model : Token} (pathInert : path.inert = true) (modelInert : model.inert = true) :
    ∀ tokens ∈ helperTokens path model, ∀ token ∈ tokens, token.inert = true := by
  have each : (helperTokens path model).all (fun tokens => tokens.all Token.inert) = true := by
    simp only [helperTokens, List.all_cons, List.all_nil, pathInert, modelInert]
    decide +kernel
  simpa only [List.all_eq_true] using each

/-- A quoted value is one word, the value. The commands of the model helpers have the words of their
templates, with the model path or the model id in effect as one of them, and leave nothing to expand. -/
theorem helper_commands_quoted (go : GoLib) (lib : HelperLib) (model path : String) :
    (∀ value, OneWord (shellQuote value) value) ∧
      (modelHelpers go lib model path).commands.map (fun c => lex c.command.toList) =
        (helperTokens (literalToken (helperModelPath model path)) (literalToken (helperModelID model))).map some ∧
      ∀ tokens ∈ helperTokens (literalToken (helperModelPath model path)) (literalToken (helperModelID model)),
        ∀ token ∈ tokens, token.inert = true :=
  ⟨shellQuote_oneWord, lex_modelCommands (helperModelPath model path) (helperModelID model),
    helperTokens_inert (literalToken_inert _) (literalToken_inert _)⟩

end GoExotic
