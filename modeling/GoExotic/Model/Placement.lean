/-
Module: GoExotic.Model.Placement
Purpose: Packages exotic and placement: devices, shards, the memory-weighted layer planner and the
  validator of a finished plan. The planner takes the computation of a device's share as a parameter, so
  that what does not depend on the share can be said for every share; `planLayerShards` is the planner
  with the share of the source.
Trusted boundary: Go's float64 arithmetic and sort.Slice, through `GoLib`
Main exports: Device, Shard, Shard.validate, validatePlan, planLayerShardsWith, planLayerShards,
  newPlan
-/
import GoExotic.Model.GoLib
import Mathlib.Data.String.Basic

namespace GoExotic

/-- A local or remote worker's inference capacity. -/
structure Device where
  id : String
  memoryGB : Float64
  backend : String
deriving DecidableEq, Repr

/-- The inclusive layer range assigned to a worker. -/
structure Shard where
  deviceID : String
  startLayer : Int
  endLayer : Int
deriving DecidableEq, Repr

/-- `Shard.Validate`. -/
def Shard.validate (s : Shard) (totalLayers : Int) : Except GoError Unit := do
  failIf (s.deviceID = "") (.errorf "empty device id" [])
  failIf (totalLayers ≤ 0) (.errorf "invalid total layers %d" [.int totalLayers])
  failIf (s.startLayer < 0 ∨ s.endLayer < s.startLayer ∨ s.endLayer ≥ totalLayers)
    (.errorf "invalid shard range [%d,%d] for %d layers"
      [.int s.startLayer, .int s.endLayer, .int totalLayers])

/-- The scan of `ValidatePlan`: the index, the start wanted next and the device ids seen so far. The
result is the start wanted after the last shard. -/
def validatePlanLoop (totalLayers : Int) :
    Nat → Int → List String → List Shard → Except GoError Int
  | _, wantStart, _, [] => .ok wantStart
  | i, wantStart, seen, shard :: rest => do
      wrapErr "shard %d: %w" [.int i] (shard.validate totalLayers)
      failIf (shard.deviceID ∈ seen) (.errorf "duplicate shard device id %q" [.str shard.deviceID])
      failIf (shard.startLayer ≠ wantStart)
        (.errorf "shard %d starts at %d, want %d" [.int i, .int shard.startLayer, .int wantStart])
      validatePlanLoop totalLayers (i + 1) (wrapInt (shard.endLayer + 1)) (shard.deviceID :: seen) rest

/-- `ValidatePlan`: shards exactly cover `[0, totalLayers)` without gaps or overlaps. -/
def validatePlan (shards : List Shard) (totalLayers : Int) : Except GoError Unit := do
  failIf (totalLayers ≤ 0) (.errorf "invalid total layers %d" [.int totalLayers])
  failIf (shards.length = 0) (.errorf "no shards" [])
  let wantStart ← validatePlanLoop totalLayers 0 0 [] shards
  failIf (wantStart ≠ totalLayers)
    (.errorf "plan covers %d layers, want %d" [.int wantStart, .int totalLayers])

/-- `d.MemoryGB <= 0 || math.IsNaN(d.MemoryGB) || math.IsInf(d.MemoryGB, 0)`. -/
def badWeight (weight : Float64) : Prop :=
  weight.le .zero = true ∨ weight.isNaN = true ∨ weight.isInf = true

instance (weight : Float64) : Decidable (badWeight weight) := inferInstanceAs (Decidable (_ ∨ _ ∨ _))

/-- The first loop of `PlanLayerShards` over the sorted devices, with the device ids seen and the
running total; the result is `totalWeight`. -/
def sumWeights (go : GoLib) : List String → Float64 → List Device → Except GoError Float64
  | _, totalWeight, [] => .ok totalWeight
  | seen, totalWeight, d :: rest => do
      failIf (d.id = "") (.errorf "device with empty id" [])
      failIf (d.id ∈ seen) (.errorf "duplicate device id %q" [.str d.id])
      failIf (badWeight d.memoryGB)
        (.errorf "device %s has invalid memory %.2f" [.str d.id, .float d.memoryGB])
      let totalWeight := go.float.add totalWeight d.memoryGB
      failIf (totalWeight.isInf = true) (.errorf "device memory weights overflow" [])
      sumWeights go (d.id :: seen) totalWeight rest

/-- `remainingLayers - (remainingDevices - 1)`. -/
def maxForThis (remainingLayers remainingDevices : Int) : Int :=
  wrapInt (remainingLayers - wrapInt (remainingDevices - 1))

/-- The layer count of one device in the assignment loop. The last device takes what is left; every
other one its truncated share, raised to one layer and cut so that each later device keeps one. -/
def layerCount (go : GoLib) (share : Float64) (remainingLayers remainingDevices : Int) (d : Device) :
    Except GoError Int :=
  if remainingDevices > 1 then do
    failIf (share.gt (go.float.ofInt maxInt) = true)
      (.errorf "device %s layer share overflows int" [.str d.id])
    let count := share.toInt
    let count := if count < 1 then 1 else count
    let limit := maxForThis remainingLayers remainingDevices
    return if count > limit then limit else count
  else
    return remainingLayers

/-- The body of the assignment loop: the shard of the device at index `i`, given the next free layer. -/
def assignShard (go : GoLib) (share : Device → Float64) (totalLayers : Int) (devices : Nat)
    (i start : Int) (d : Device) : Except GoError Shard := do
  let remainingLayers := wrapInt (totalLayers - start)
  let remainingDevices := wrapInt (devices - i)
  let count ← layerCount go (share d) remainingLayers remainingDevices d
  let endLayer := wrapInt (wrapInt (start + count) - 1)
  return ⟨d.id, start, endLayer⟩

/-- The assignment loop of `PlanLayerShards` from index `i` and the next free layer `start`. -/
def assignLayers (go : GoLib) (share : Device → Float64) (totalLayers : Int) (devices : Nat) :
    Int → Int → List Device → Except GoError (List Shard)
  | _, _, [] => .ok []
  | i, start, d :: rest => do
      let shard ← assignShard go share totalLayers devices i start d
      let shards ← assignLayers go share totalLayers devices (i + 1) (wrapInt (shard.endLayer + 1)) rest
      return shard :: shards

/-- The devices in the order the planner visits them. -/
def sortDevices (go : GoLib) (devices : List Device) : List Device :=
  go.sort.byKey (fun d => d.id) devices

/-- `PlanLayerShards`, with the share of a device, given the total weight, as a parameter. -/
def planLayerShardsWith (go : GoLib) (share : Float64 → Device → Float64) (devices : List Device)
    (totalLayers : Int) : Except GoError (List Shard) := do
  failIf (totalLayers ≤ 0) (.errorf "invalid total layers %d" [.int totalLayers])
  failIf (devices.length = 0) (.errorf "no devices" [])
  failIf ((devices.length : Int) > totalLayers)
    (.errorf "devices=%d exceeds total layers=%d" [.int devices.length, .int totalLayers])
  let devs := sortDevices go devices
  let totalWeight ← sumWeights go [] .zero devs
  failIf (badWeight totalWeight)
    (.errorf "invalid total device memory weight %.2f" [.float totalWeight])
  let shards ← assignLayers go (share totalWeight) totalLayers devs.length 0 0 devs
  validatePlan shards totalLayers
  return shards

/-- `float64(totalLayers) * d.MemoryGB / totalWeight`. -/
def memoryShare (go : GoLib) (totalLayers : Int) (totalWeight : Float64) (d : Device) : Float64 :=
  go.float.div (go.float.mul (go.float.ofInt totalLayers) d.memoryGB) totalWeight

/-- `PlanLayerShards`: contiguous layer ranges weighted by advertised memory. -/
def planLayerShards (go : GoLib) (devices : List Device) (totalLayers : Int) :
    Except GoError (List Shard) :=
  planLayerShardsWith go (memoryShare go totalLayers) devices totalLayers

/-- A serializable placement preview. -/
structure Plan where
  totalLayers : Int
  shards : List Shard
deriving DecidableEq, Repr

/-- `NewPlan`. -/
def newPlan (go : GoLib) (devices : List Device) (totalLayers : Int) : Except GoError Plan := do
  let shards ← planLayerShards go devices totalLayers
  return { totalLayers := totalLayers, shards := shards }

end GoExotic
