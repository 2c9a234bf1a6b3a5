/-
Module: GoExotic.Proofs.Commands
Purpose: What the planning commands print. `Plan.JSON` refuses exactly the plans that do not cover their layers, never
  one that `NewPlan` made, and its text reads back as the plan, indented as it is; so does the text of a route
  preview. The commands `plan` and `routes` print the same layers for every layer count they accept.
Trusted boundary: url.Parse and float64, on the one address and the one sum the commands use
Main exports: readJson, plan_json_round_trip, commands_print_one_plan
-/
import GoExotic.Model.Commands
import GoExotic.Proofs.Advertise

namespace GoExotic

open Json

/-! ### Indented JSON -/

/-- Read a text as one JSON value. Whitespace outside strings is skipped, and nothing may follow. -/
def readJson {α : Type} (c : Codec α) (text : String) : Option α :=
  match c.read (compact .outside text.toList) with
  | some (value, []) => some value
  | _ => none

/-- What was marshalled with an indent reads back, with whitespace behind it. -/
theorem readJson_marshalIndent {α : Type} {c : Codec α} (tidy : c.IsTidy) (value : α) (spaces : String)
    (behind : spaces.toList.all Json.isSpace = true) : readJson c (marshalIndent c value ++ spaces) = some value := by
  have blank : [' ', ' '].all Json.isSpace = true := by decide
  have whole := Codec.read_indent tidy (List.all_eq_true.mp blank) (List.all_eq_true.mp behind) value
  rw [readJson, marshalIndent, String.toList_append, String.toList_ofList, whole]

theorem shardCodec_tidy : shardCodec.IsTidy :=
  ((Codec.IsTidy.string.field _).comma ((Codec.IsTidy.int.field _).comma (Codec.IsTidy.int.field _))).object.via

theorem planCodec_tidy : planCodec.IsTidy :=
  ((Codec.IsTidy.int.field _).comma (shardCodec_tidy.array.field _)).object.via

theorem routesCodec_tidy : routesCodec.IsTidy := by
  have entry : entryCodec.IsTidy := ((Codec.IsTidy.string.field _).comma ((Codec.IsTidy.string.field _).comma
    ((Codec.IsTidy.string.field _).comma (shardCodec_tidy.field _)))).object.via
  exact ((Codec.IsTidy.string.field _).comma ((Codec.IsTidy.int.field _).comma (entry.array.field _))).object.via

/-- The plans that can be printed cover their layers. -/
theorem Plan.json_eq_ok {p : Plan} {text : String} :
    p.json = .ok text ↔ validatePlan p.shards p.totalLayers = .ok () ∧ text = marshalIndent planCodec p := by
  simp only [Plan.json, bind_eq_ok, pure_eq_ok, Except.ok.injEq]
  constructor
  · rintro ⟨u, accepted, rfl⟩
    exact ⟨accepted, rfl⟩
  · rintro ⟨accepted, rfl⟩
    exact ⟨(), accepted, rfl⟩

/-- A plan that `NewPlan` made can be printed. -/
theorem newPlan_json {go : GoLib} {devices : List Device} {totalLayers : Int} {p : Plan}
    (made : newPlan go devices totalLayers = .ok p) : p.json = .ok (marshalIndent planCodec p) := by
  obtain ⟨planned, rfl⟩ := newPlan_eq_ok.mp made
  exact Plan.json_eq_ok.mpr ⟨(planLayerShardsWith_eq_ok.mp planned).2.2, rfl⟩

/-- The indented JSON of a plan is the plan. `Plan.JSON` succeeds exactly for ordered partitions of a layer count
that is an `int`, so for every plan `NewPlan` makes; its text reads back as the plan, so that no two plans have the
same text; and the text of a route preview reads back as the preview. -/
theorem plan_json_round_trip (go : GoLib) :
    (∀ p : Plan, (∃ text, p.json = .ok text) ↔ p.totalLayers ≤ maxInt ∧ OrderedPartition p.shards p.totalLayers) ∧
      (∀ devices totalLayers p, newPlan go devices totalLayers = .ok p → ∃ text, p.json = .ok text) ∧
      (∀ p text, p.json = .ok text → readJson planCodec text = some p) ∧
      ∀ preview, readJson routesCodec (marshalIndent routesCodec preview) = some preview := by
  have whole : ∀ {α : Type} {c : Codec α}, c.IsTidy → ∀ value, readJson c (marshalIndent c value) = some value := by
    intro α c tidy value
    have read := readJson_marshalIndent tidy value "" rfl
    rwa [String.append_empty] at read
  refine ⟨?_, fun devices totalLayers p made => ⟨_, newPlan_json made⟩, ?_, whole routesCodec_tidy⟩
  · intro p
    constructor
    · rintro ⟨text, printed⟩
      exact OrderedPartition.of_validatePlan (Plan.json_eq_ok.mp printed).1
    · rintro ⟨bounded, partition⟩
      exact ⟨_, Plan.json_eq_ok.mpr ⟨(validatePlan_eq_ok bounded).mpr partition, rfl⟩⟩
  · intro p text printed
    obtain ⟨-, rfl⟩ := Plan.json_eq_ok.mp printed
    exact whole planCodec_tidy p

/-! ### The commands -/

theorem printLines_singleton (format : String) (args : List String) :
    printLines format [args] = printf format args := by
  simp [printLines, String.join]

/-- The address of the local capability, which the command `routes` plans with. -/
def localAddress : String := "http://127.0.0.1:0"

theorem localCapabilities_localAddress : localCapabilities [localAddress] = [localCapability localAddress] := by
  have given : trimSpace localAddress ≠ "" := by decide +kernel
  have same : advertiseHTTPAddress localAddress = localAddress := by decide +kernel
  rw [localCapabilities]
  simp only [if_pos given, same]
  rfl

/-- The one shard of a plan for the local device. -/
theorem planned_local {go : GoLib} {totalLayers : Int} {shards : List Shard}
    (planned : planLayerShards go [⟨"local", .finite 1, "go-pherence"⟩] totalLayers = .ok shards) :
    shards = [⟨"local", 0, totalLayers - 1⟩] := by
  have ids := (plannedLayout_of_planned planned).one_per_device
  have tiles := (planLayerShardsWith_partition planned).tiles
  obtain ⟨shard, rfl, isLocal⟩ := List.map_eq_singleton_iff.mp (List.perm_singleton.mp ids)
  obtain ⟨starts, -, ends⟩ := tiles
  obtain ⟨deviceID, startLayer, endLayer⟩ := shard
  cases isLocal
  have lower : startLayer = 0 := starts
  have upper : endLayer = totalLayers - 1 := by
    have last : endLayer + 1 = totalLayers := ends
    omega
  rw [lower, upper]

/-- The route preview for the local device alone. -/
theorem previewed_local {go : GoLib} {modelID : String} {totalLayers : Int} {preview : RoutePreview}
    (previewed : previewFromCapabilities go .background [localCapability localAddress] modelID totalLayers =
      .ok preview) :
    preview = ⟨modelID, totalLayers, [⟨"local", localAddress, "http", ⟨"local", 0, totalLayers - 1⟩⟩]⟩ := by
  obtain ⟨shards, routes, -, made, rfl⟩ := previewFromCapabilities_eq_ok.mp previewed
  have isShard := planned_local made.planned
  have carries := made.routed.shards_eq
  rw [isShard] at carries
  obtain ⟨route, rfl, sameShard⟩ := List.map_eq_singleton_iff.mp carries
  have isPeer := (made.routed.peers_named route List.mem_cons_self).1
  rw [List.map_singleton, List.mem_singleton, localCapability_importedPeer] at isPeer
  rw [previewFromRoutes, List.map_singleton, Route.entry, isPeer, sameShard]

/-- The commands `plan` and `routes` print one plan. For every layer count they both refuse it, with exit code 2 and
nothing printed, or both print all its layers as a single range of the local device: as lines, and as JSON that
reads back as the plan and as the preview for the given model. -/
theorem commands_print_one_plan (go : GoLib) (errorText : GoError → String)
    (sums : go.float.add .zero (.finite 1) = .finite 1) (parses : ¬ badPeerUrl (go.urlParse localAddress))
    (layers : Int) (isInt : layers ≤ maxInt) (modelID : String) :
    (layers ≤ 0 → ∀ json, ∃ usage routesUsage, runPlan go errorText layers json = ⟨2, "", usage⟩ ∧
      runRoutes go errorText layers modelID json = ⟨2, "", routesUsage⟩) ∧
      (1 ≤ layers → ∃ planText routesText,
        runPlan go errorText layers true = ⟨0, planText, ""⟩ ∧
        readJson planCodec planText = some ⟨layers, [⟨"local", 0, layers - 1⟩]⟩ ∧
        runRoutes go errorText layers modelID true = ⟨0, routesText, ""⟩ ∧
        readJson routesCodec routesText =
          some ⟨modelID, layers, [⟨"local", localAddress, "http", ⟨"local", 0, layers - 1⟩⟩]⟩ ∧
        runPlan go errorText layers false =
          ⟨0, printf "%s: layers %d-%d\n" ["local", "0", toString (layers - 1)], ""⟩ ∧
        runRoutes go errorText layers modelID false =
          ⟨0, printf "%s (%s): layers %d-%d via %s\n"
            ["local", localAddress, "0", toString (layers - 1), "http"], ""⟩) := by
  constructor
  · intro none json
    rw [runPlan, runRoutes, if_pos none, if_pos none]
    exact ⟨_, _, rfl, rfl⟩
  · intro positive
    have some : ¬ layers ≤ 0 := by omega
    -- the planner and the preview accept the local device
    obtain ⟨shards, planned⟩ := (planLayerShardsWith_succeeds_iff isInt).mpr
      ⟨localDevice_plannable sums positive, fun d member => by
        rw [sortDevices_singleton] at member
        cases member⟩
    obtain rfl := planned_local planned
    have made : newPlan go [⟨"local", .finite 1, "go-pherence"⟩] layers =
        .ok ⟨layers, [⟨"local", 0, layers - 1⟩]⟩ := newPlan_eq_ok.mpr ⟨planned, rfl⟩
    have valid : (localCapability localAddress).importedPeer.validate go = .ok () := by
      have given : trimSpace localAddress ≠ "" := by decide +kernel
      have named : trimSpace "local" ≠ "" := by decide
      have usable : ¬ badWeight (.finite 1) := by decide
      rw [localCapability_importedPeer, Peer.validate_eq_ok]
      simp [given, named, usable, transportHTTP, parses]
    obtain ⟨preview, previewed⟩ := (local_previewable sums rfl rfl valid positive).preview isInt modelID
    obtain rfl := previewed_local previewed
    have newline : "\n".toList.all Json.isSpace = true := by decide
    refine ⟨_, _, ?_, readJson_marshalIndent planCodec_tidy _ "\n" newline, ?_,
      readJson_marshalIndent routesCodec_tidy _ "\n" newline, ?_, ?_⟩
    · rw [runPlan, if_neg some, made]
      dsimp only
      rw [newPlan_json made]
      rfl
    · rw [runRoutes, if_neg some, ← localAddress, localCapabilities_localAddress, previewed]
      rfl
    · rw [runPlan, if_neg some, made]
      dsimp only
      rw [if_neg Bool.false_ne_true, List.map_singleton, printLines_singleton]
      rfl
    · rw [runRoutes, if_neg some, ← localAddress, localCapabilities_localAddress, previewed]
      dsimp only
      rw [if_neg Bool.false_ne_true, List.map_singleton, printLines_singleton]
      rfl

/-- A plan and a preview of four layers are printed. -/
theorem commands_print_one_plan_four : ∃ planText,
    runPlan .plain GoError.text 4 true = ⟨0, planText, ""⟩ ∧
      readJson planCodec planText = some ⟨4, [⟨"local", 0, 3⟩]⟩ := by
  have whole := (commands_print_one_plan .plain GoError.text (by decide +kernel) (by decide +kernel) 4 (by decide) "m").2
    (by decide)
  obtain ⟨planText, -, ran, reads, -⟩ := whole
  exact ⟨planText, ran, reads⟩

end GoExotic
