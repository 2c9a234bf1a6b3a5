/-
Module: GoExotic.Model.LocalModels
Purpose: Package server: the handler of `/models/local`, which lists the directories of a model root, the
  first ones in the order of their names, with the state of the files in each.
Trusted boundary: os.ReadDir and the JSON of the response, besides what the model helpers use
Main exports: RootEntry, InventoryLib, LocalModel, LocalModelsResponse, inventoryLimit, localModel,
  localModels, handleLocalModels
-/
import GoExotic.Model.ModelHelpers
import GoExotic.Model.PlanningServer
import GoExotic.Model.StaticFiles

namespace GoExotic

/-- `LocalModel`. -/
structure LocalModel where
  id : String
  path : String
  files : List ModelFileStatus
  complete : Bool
deriving DecidableEq, Repr

/-- `LocalModelsResponse`. -/
structure LocalModelsResponse where
  root : String
  models : List LocalModel
  truncated : Bool
  limit : Int
deriving DecidableEq, Repr

/-- An entry of the model root: its name, and `IsDir`. -/
structure RootEntry where
  name : String
  isDir : Bool
deriving DecidableEq, Repr

/-- The library parameter: besides what the model helpers use, `os.ReadDir` with its error, and the JSON of
the response. -/
structure InventoryLib extends HelperLib where
  listDir : String → Except GoError (List RootEntry)
  encodeModels : LocalModelsResponse → Except GoError (List UInt8)

/-- `maxLocalModelInventory`. -/
def maxLocalModelInventory : Int := 200

/-- The model root in effect. -/
def inventoryRoot (root : String) : String := if root = "" then "../go-pherence/models" else root

/-- The limit in effect for the query value of `limit`; a bad one is `none`. -/
def inventoryLimit (rawLimit : String) : Option Int :=
  if rawLimit = "" then some maxLocalModelInventory
  else
    match atoi rawLimit with
    | none => none
    | some parsed =>
        if parsed ≤ 0 then none
        else if parsed < maxLocalModelInventory then some parsed
        else some maxLocalModelInventory

/-- The files a model needs. -/
def requiredModelFiles : List String := ["config.json", "tokenizer.json", "*.safetensors"]

/-- The loop of `handleLocalModels`, at one directory. -/
def localModel (go : GoLib) (lib : HelperLib) (root : String) (entry : RootEntry) : LocalModel :=
  let path := filepathJoin [root, entry.name]
  let files := modelFileStatuses go lib path requiredModelFiles
  ⟨entry.name, path, files, files.all fun file => file.present⟩

/-- The response of `handleLocalModels`, for the entries of the model root. -/
def localModels (go : GoLib) (lib : HelperLib) (root : String) (limit : Int) (entries : List RootEntry) :
    LocalModelsResponse :=
  let dirs := go.sort.byKey RootEntry.name (entries.filter fun entry => entry.isDir)
  let truncated := decide ((dirs.length : Int) > limit)
  let dirs := if truncated then dirs.take limit.toNat else dirs
  ⟨root, dirs.map (localModel go lib root), truncated, limit⟩

/-- `handleLocalModels`. -/
def handleLocalModels (go : GoLib) (wire : WireLib) (lib : InventoryLib) (r : HttpRequest) : HttpResponse :=
  if r.method ≠ "GET" then writeMethodNotAllowed wire ["GET"]
  else
    let root := inventoryRoot (lib.queryGet r.url "root")
    match inventoryLimit (lib.queryGet r.url "limit") with
    | none => writeError wire 400 [] "limit must be a positive integer"
    | some limit =>
        match lib.listDir root with
        | .error err => writeError wire 400 [] (wire.errorText err)
        | .ok entries => writeJSON 200 [] (lib.encodeModels (localModels go lib.toHelperLib root limit entries))

/-! ### The JSON of the inventory -/

open Json

/-- An object with fields that are written already. -/
def objectText (fields : List (String × List Char)) : List Char :=
  '\x7b' :: [','].intercalate (fields.map fun field => writeString field.1 ++ ':' :: field.2) ++ ['\x7d']

/-- An array of items that are written already. -/
def arrayText (items : List (List Char)) : List Char := '[' :: [','].intercalate items ++ [']']

/-- A Boolean value. -/
def boolText (b : Bool) : List Char := (toString b).toList

/-- A field with the option `omitempty`. -/
def omitEmpty (name : String) (isEmpty : Bool) (text : List Char) : List (String × List Char) :=
  if isEmpty then [] else [(name, text)]

/-- `ModelFileStatus` as JSON. -/
def fileStatusText (f : ModelFileStatus) : List Char :=
  objectText ([("pattern", writeString f.pattern), ("present", boolText f.present)] ++
    omitEmpty "matches" f.matching.isEmpty (arrayText (f.matching.map writeString)) ++
    omitEmpty "truncated" (!f.truncated) (boolText f.truncated) ++
    omitEmpty "limit" (f.limit == 0) (writeInt f.limit))

/-- `ModelHelperResponse` as JSON. -/
def helpersText (resp : ModelHelperResponse) : List Char :=
  let preset (p : ModelPreset) := objectText [("id", writeString p.id), ("name", writeString p.name),
    ("path", writeString p.path), ("description", writeString p.description)]
  let command (c : ModelCommand) := objectText [("label", writeString c.label), ("command", writeString c.command)]
  objectText [("status", writeString resp.status), ("model_path", writeString resp.modelPath),
    ("presets", arrayText (resp.presets.map preset)),
    ("required_files", arrayText (resp.requiredFiles.map writeString)),
    ("files", arrayText (resp.files.map fileStatusText)), ("commands", arrayText (resp.commands.map command))]

/-- `LocalModel` as JSON. -/
def localModelText (m : LocalModel) : List Char :=
  objectText [("id", writeString m.id), ("path", writeString m.path),
    ("files", arrayText (m.files.map fileStatusText)), ("complete", boolText m.complete)]

/-- `LocalModelsResponse` as JSON. -/
def localModelsText (resp : LocalModelsResponse) : List Char :=
  objectText [("root", writeString resp.root), ("models", arrayText (resp.models.map localModelText)),
    ("truncated", boolText resp.truncated), ("limit", writeInt resp.limit)]

end GoExotic
