/-
Module: GoExotic.Model.Commands
Purpose: The planning commands, and the indented JSON they print: `Plan.JSON`, and the commands `plan` and `routes`
  behind their flags.
Trusted boundary: package flag, and the texts of errors
Main exports: marshalIndent, planCodec, Plan.json, CommandResult, runPlan, runRoutes
-/
import GoExotic.Model.Advertise
import GoExotic.Theory.JsonLayout

namespace GoExotic

open Json

/-! ### Indented JSON -/

/-- `json.MarshalIndent` with the empty prefix and two blanks. -/
def marshalIndent {α : Type} (c : Codec α) (value : α) : String :=
  String.ofList (indent [' ', ' '] (c.write value))

/-- A shard starts with a brace. -/
theorem opens_shard (s : Shard) (rest : List Char) : (shardCodec.write s ++ rest).head? ≠ some ']' := opens_object

/-- `Plan` as JSON. -/
def planCodec : Codec Plan :=
  ((Codec.int.field "total_layers").comma ((shardCodec.array opens_shard).field "shards")).object.via
    (fun p => (p.totalLayers, p.shards)) (fun (totalLayers, shards) => some ⟨totalLayers, shards⟩)
    fun _ => rfl

/-- `Plan.JSON`. -/
def Plan.json (p : Plan) : Except GoError String := do
  validatePlan p.shards p.totalLayers
  return marshalIndent planCodec p

/-! ### Commands -/

/-- What a command leaves behind: its exit code, and what it wrote. -/
structure CommandResult where
  exitCode : Int
  stdout : String
  stderr : String
deriving DecidableEq, Repr

/-- `fmt.Printf`, with the arguments as texts. -/
def printf (format : String) (args : List String) : String := String.ofList (fillVerbs format.toList args)

/-- The lines that a command prints, each from its own arguments. -/
def printLines (format : String) (lines : List (List String)) : String := String.join (lines.map (printf format))

/-- The failure of a command. -/
def CommandResult.failed (errorText : GoError → String) (err : GoError) : CommandResult :=
  ⟨1, "", errorText err ++ "\n"⟩

section Planning

variable (go : GoLib) (errorText : GoError → String)

/-- `runPlan`, with its flags. -/
def runPlan (layers : Int) (jsonOut : Bool) : CommandResult :=
  if layers ≤ 0 then ⟨2, "", "usage: go-exotic plan -layers N [-json]\n"⟩
  else
    match newPlan go [⟨"local", .finite 1, "go-pherence"⟩] layers with
    | .error err => .failed errorText err
    | .ok plan =>
        if jsonOut then
          match plan.json with
          | .error err => .failed errorText err
          | .ok data => ⟨0, data ++ "\n", ""⟩
        else
          ⟨0, printLines "%s: layers %d-%d\n"
            (plan.shards.map fun s => [s.deviceID, toString s.startLayer, toString s.endLayer]), ""⟩

/-- `runRoutes`, with its flags. -/
def runRoutes (layers : Int) (modelID : String) (jsonOut : Bool) : CommandResult :=
  if layers ≤ 0 then ⟨2, "", "usage: go-exotic routes -layers N [-model ID] [-json]\n"⟩
  else
    match previewFromCapabilities go .background (localCapabilities ["http://127.0.0.1:0"]) modelID layers with
    | .error err => .failed errorText err
    | .ok preview =>
        if jsonOut then ⟨0, marshalIndent routesCodec preview ++ "\n", ""⟩
        else
          ⟨0, printLines "%s (%s): layers %d-%d via %s\n"
            (preview.routes.map fun r => [r.peerID, r.address, toString r.shard.startLayer,
              toString r.shard.endLayer, r.transport]), ""⟩

end Planning

example : printf "%s: layers %d-%d\n" ["local", "0", "3"] = "local: layers 0-3\n" := by decide +kernel

end GoExotic
