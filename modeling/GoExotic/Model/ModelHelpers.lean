/-
Module: GoExotic.Model.ModelHelpers
Purpose: Package server: the handler of `/models/helpers`, which answers with shell commands for a model
  and with the state of its files.
Trusted boundary: `Get` on the query of a URL, os.ReadDir, filepath.Match and the JSON of the response
Main exports: HelperLib, shellQuote, modelFileStatuses, ModelHelperResponse, modelHelpers,
  handleModelHelpers
-/
import GoExotic.Model.Server

namespace GoExotic

/-- `ModelPreset`. -/
structure ModelPreset where
  id : String
  name : String
  path : String
  description : String
deriving DecidableEq, Repr

/-- `ModelFileStatus`. -/
structure ModelFileStatus where
  pattern : String
  present : Bool
  matching : List String
  truncated : Bool
  limit : Int
deriving DecidableEq, Repr

/-- `ModelCommand`. -/
structure ModelCommand where
  label : String
  command : String
deriving DecidableEq, Repr

/-- `ModelHelperResponse`. -/
structure ModelHelperResponse where
  status : String
  modelPath : String
  presets : List ModelPreset
  requiredFiles : List String
  files : List ModelFileStatus
  commands : List ModelCommand
deriving DecidableEq, Repr

/-- An entry of a directory: its name, and what `entryRegularFile` finds out about it. -/
structure DirEntry where
  name : String
  isRegular : Bool
deriving DecidableEq, Repr

/-- The library parameter: `r.URL.Query().Get`, `os.ReadDir` with no entries for an error, `filepath.Match`
with `none` for a bad pattern, and the JSON of the response. -/
structure HelperLib where
  queryGet : Url → String → String
  readDir : String → List DirEntry
  filepathMatch : String → String → Option Bool
  encodeHelpers : ModelHelperResponse → Except GoError (List UInt8)

/-- `strings.ReplaceAll` of one character. -/
def replaceChar (s : String) (old : Char) (new : String) : String :=
  String.ofList (s.toList.flatMap fun c => if c = old then new.toList else [c])

/-- `shellQuote`. -/
def shellQuote (value : String) : String :=
  if value = "" then "''" else "'" ++ replaceChar value '\x27' "'\\''" ++ "'"

/-- `modelPresets`. -/
def modelPresets : List ModelPreset := [
  ⟨"smollm2-135m", "SmolLM2 135M", "../go-pherence/models/smollm2-135m",
    "Small local fixture used by go-exotic parity tests."⟩,
  ⟨"demo", "Demo placeholder", "../go-pherence/models/demo",
    "Template path for staging a local go-pherence model."⟩]

/-- `maxModelFileStatusMatches`. -/
def maxModelFileStatusMatches : Nat := 20

/-- One pattern of `modelFileStatuses`. -/
def modelFileStatus (go : GoLib) (lib : HelperLib) (entries : List DirEntry) (pattern : String) :
    ModelFileStatus :=
  let regular := entries.filter fun entry => lib.filepathMatch pattern entry.name = some true ∧ entry.isRegular
  let found := go.sort.byKey id (regular.map DirEntry.name)
  let truncated := decide (found.length > maxModelFileStatusMatches)
  let limit := if truncated then maxModelFileStatusMatches else 0
  let found := if truncated then found.take maxModelFileStatusMatches else found
  ⟨pattern, decide (found.length > 0), found, truncated, limit⟩

/-- `modelFileStatuses`. -/
def modelFileStatuses (go : GoLib) (lib : HelperLib) (modelPath : String) (required : List String) :
    List ModelFileStatus :=
  required.map (modelFileStatus go lib (lib.readDir modelPath))

/-- The commands `handleModelHelpers` offers, for a quoted path and a quoted model id. -/
def modelCommands (quotedPath quotedModel : String) : List ModelCommand := [
  ⟨"Create fixture directory", "mkdir -p " ++ quotedPath⟩,
  ⟨"List required files", "find " ++ quotedPath ++ " -maxdepth 1 \\( -name 'config.json' " ++
    "-o -name 'tokenizer.json' -o -name '*.safetensors' \\) -print"⟩,
  ⟨"Local generation smoke", "go run ./cmd/go-exotic run -model " ++ quotedPath ++
    " -prompt \"Hello\" -tokens 1"⟩,
  ⟨"Planning preview", "go run ./cmd/go-exotic routes -layers 4 -model " ++ quotedModel ++ " -json"⟩,
  ⟨"Explicit shard-server opt-in", "go run ./cmd/go-exotic serve -addr 127.0.0.1:8089 -shard-model " ++
    quotedPath⟩]

/-- The model id in effect. -/
def helperModelID (model : String) : String := if model = "" then "MODEL" else model

/-- The model path in effect. -/
def helperModelPath (model path : String) : String :=
  if path = "" then "../go-pherence/models/" ++ helperModelID model else path

/-- The response of `handleModelHelpers` to the query values of `model` and `path`. -/
def modelHelpers (go : GoLib) (lib : HelperLib) (model path : String) : ModelHelperResponse :=
  let modelID := helperModelID model
  let modelPath := helperModelPath model path
  let required := ["config.json", "tokenizer.json", "*.safetensors"]
  { status := "manual"
    modelPath := modelPath
    presets := modelPresets
    requiredFiles := required
    files := modelFileStatuses go lib modelPath required
    commands := modelCommands (shellQuote modelPath) (shellQuote modelID) }

/-- `handleModelHelpers`. -/
def handleModelHelpers (go : GoLib) (wire : WireLib) (lib : HelperLib) (r : HttpRequest) : HttpResponse :=
  if r.method ≠ "GET" then writeMethodNotAllowed wire ["GET"]
  else
    writeJSON 200 [] (lib.encodeHelpers
      (modelHelpers go lib (lib.queryGet r.url "model") (lib.queryGet r.url "path")))

end GoExotic
