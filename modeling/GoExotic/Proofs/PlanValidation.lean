/-
Module: GoExotic.Proofs.PlanValidation
Purpose: The meaning of `ValidatePlan`. `OrderedPartition` states what a plan is for: distinct non-empty
  device ids and ranges that tile the layers in list order. The single-pass scan with its running start
  accepts exactly the ordered partitions, and no value it computes leaves the layer range.
Trusted boundary: none
Main exports: ShardsTile, OrderedPartition, Shard.validate_eq_ok, validatePlanLoop_eq_ok,
  validatePlan_eq_ok, OrderedPartition.of_validatePlan, validatePlanExact, LayersOnce, LayersOwned,
  validatePlan_accepts_partitions
-/
import GoExotic.Model.Placement
import GoExotic.Theory.Tiling

namespace GoExotic

open Tiling

/-- The layer ranges of a list of shards tile `[lo, hi)` in list order. -/
abbrev ShardsTile : Int → List Shard → Int → Prop :=
  Tiles Shard.startLayer Shard.endLayer

/-- What a plan for `totalLayers` layers is: an assignment of the layers, in order and each once, to
distinct devices. -/
structure OrderedPartition (shards : List Shard) (totalLayers : Int) : Prop where
  layers_pos : 1 ≤ totalLayers
  ids_nonempty : ∀ shard ∈ shards, shard.deviceID ≠ ""
  ids_distinct : (shards.map Shard.deviceID).Nodup
  tiles : ShardsTile 0 shards totalLayers

/-- `Shard.Validate` accepts a named, nonempty range of existing layers. -/
theorem Shard.validate_eq_ok {s : Shard} {totalLayers : Int} {u : Unit} :
    s.validate totalLayers = .ok u ↔
      s.deviceID ≠ "" ∧ 0 < totalLayers ∧
        0 ≤ s.startLayer ∧ s.startLayer ≤ s.endLayer ∧ s.endLayer < totalLayers := by
  simp only [Shard.validate, bind_eq_ok, failIf_eq_ok, exists_const, not_or, not_le, not_lt, ge_iff_le]

/-- The running start stays inside the layers, so its increment does not wrap. -/
theorem Shard.nextStart_eq {s : Shard} {totalLayers : Int} (bounded : totalLayers ≤ maxInt)
    (valid : s.validate totalLayers = .ok ()) : wrapInt (s.endLayer + 1) = s.endLayer + 1 := by
  obtain ⟨-, -, start, nonempty, below⟩ := Shard.validate_eq_ok.mp valid
  have := maxInt_lit
  have := minInt_lit
  exact wrapInt_eq (by omega) (by omega)

/-- The scan from any start with any ids already seen: it succeeds exactly on the tilings from that
start by valid shards whose ids are new and distinct, and returns the start after the last shard. -/
theorem validatePlanLoop_eq_ok {totalLayers : Int} (bounded : totalLayers ≤ maxInt)
    {shards : List Shard} {i : Nat} {wantStart final : Int} {seen : List String} :
    validatePlanLoop totalLayers i wantStart seen shards = .ok final ↔
      (∀ shard ∈ shards, shard.validate totalLayers = .ok ()) ∧
        (shards.map Shard.deviceID).Nodup ∧ (∀ shard ∈ shards, shard.deviceID ∉ seen) ∧
        ShardsTile wantStart shards final := by
  induction shards generalizing i wantStart seen with
  | nil => simp [validatePlanLoop, Tiles.nil_iff]
  | cons shard rest inductionHypothesis =>
      simp only [validatePlanLoop, bind_eq_ok, wrapErr_eq_ok, failIf_eq_ok, exists_const,
        not_not, inductionHypothesis, List.map_cons, List.nodup_cons, List.mem_map,
        List.mem_cons, forall_eq_or_imp, not_or, Tiles.cons_iff, Shard.validate_eq_ok]
      constructor
      · rintro ⟨valid, fresh, start, restValid, restDistinct, restFresh, tiles⟩
        rw [Shard.nextStart_eq bounded (Shard.validate_eq_ok.mpr valid)] at tiles
        refine ⟨⟨valid, restValid⟩, ⟨?_, restDistinct⟩, ⟨fresh, fun s member => (restFresh s member).2⟩,
          start, valid.2.2.2.1, tiles⟩
        rintro ⟨other, member, same⟩
        exact (restFresh other member).1 same
      · rintro ⟨⟨valid, restValid⟩, ⟨newId, restDistinct⟩, ⟨fresh, restFresh⟩, start, -, tiles⟩
        rw [Shard.nextStart_eq bounded (Shard.validate_eq_ok.mpr valid)]
        exact ⟨valid, fresh, start, restValid, restDistinct,
          fun s member => ⟨fun same => newId ⟨s, member, same⟩, restFresh s member⟩, tiles⟩

/-- The scan of a nonempty list returns an `int`. -/
theorem validatePlanLoop_le_maxInt {totalLayers : Int} {shards : List Shard} {i : Nat}
    {wantStart final : Int} {seen : List String} (nonempty : shards ≠ [])
    (accepted : validatePlanLoop totalLayers i wantStart seen shards = .ok final) : final ≤ maxInt := by
  induction shards generalizing i wantStart seen with
  | nil => exact absurd rfl nonempty
  | cons shard rest inductionHypothesis =>
      simp only [validatePlanLoop, bind_eq_ok, wrapErr_eq_ok, failIf_eq_ok, exists_const] at accepted
      obtain ⟨-, -, -, -, tail⟩ := accepted
      cases rest with
      | nil =>
          simp only [validatePlanLoop, Except.ok.injEq] at tail
          exact tail ▸ wrapInt_le _
      | cons next others => exact inductionHypothesis (List.cons_ne_nil next others) tail

/-- On every layer count an `int` can hold, `ValidatePlan` accepts exactly the ordered partitions. -/
theorem validatePlan_eq_ok {shards : List Shard} {totalLayers : Int} (bounded : totalLayers ≤ maxInt) :
    validatePlan shards totalLayers = .ok () ↔ OrderedPartition shards totalLayers := by
  simp only [validatePlan, bind_eq_ok, failIf_eq_ok, exists_const, not_le, not_not,
    validatePlanLoop_eq_ok bounded, Shard.validate_eq_ok, List.length_eq_zero_iff]
  constructor
  · rintro ⟨positive, -, final, ⟨valid, distinct, -, tiles⟩, covers⟩
    exact ⟨positive, fun s member => (valid s member).1, distinct, covers ▸ tiles⟩
  · rintro ⟨positive, named, distinct, tiles⟩
    refine ⟨positive, ?_, totalLayers, ⟨?_, distinct, by simp, tiles⟩, rfl⟩
    · rintro rfl
      have : (0 : Int) = totalLayers := tiles
      omega
    · intro s member
      have inside := tiles.bounds s member
      exact ⟨named s member, by omega, inside.1, inside.2.1, inside.2.2⟩

/-- A plan `ValidatePlan` accepts is an ordered partition of a layer count that is an `int`. -/
theorem OrderedPartition.of_validatePlan {shards : List Shard} {totalLayers : Int}
    (accepted : validatePlan shards totalLayers = .ok ()) :
    totalLayers ≤ maxInt ∧ OrderedPartition shards totalLayers := by
  have bounded : totalLayers ≤ maxInt := by
    simp only [validatePlan, bind_eq_ok, failIf_eq_ok, exists_const, not_not,
      List.length_eq_zero_iff] at accepted
    obtain ⟨-, nonempty, final, scanned, covers⟩ := accepted
    exact covers ▸ validatePlanLoop_le_maxInt nonempty scanned
  exact ⟨bounded, (validatePlan_eq_ok bounded).mp accepted⟩

namespace OrderedPartition

variable {shards : List Shard} {totalLayers : Int}

theorem nonempty (plan : OrderedPartition shards totalLayers) : shards ≠ [] := by
  rintro rfl
  have : (0 : Int) = totalLayers := plan.tiles
  have := plan.layers_pos
  omega

/-- Every shard of a plan passes its own validation. -/
theorem validate (plan : OrderedPartition shards totalLayers) {shard : Shard} (member : shard ∈ shards) :
    shard.validate totalLayers = .ok () := by
  have inside := plan.tiles.bounds shard member
  have := plan.layers_pos
  exact Shard.validate_eq_ok.mpr
    ⟨plan.ids_nonempty shard member, by omega, inside.1, inside.2.1, inside.2.2⟩

end OrderedPartition

/-! ### Partitions of the layers -/

/-- The layers of a shard, in order. -/
def Shard.layerRange (s : Shard) : List Int := span Shard.startLayer Shard.endLayer s

/-- The ranges, one after the other, are the layers in order. -/
structure LayersOnce (shards : List Shard) (totalLayers : Int) : Prop where
  layers_pos : 1 ≤ totalLayers
  ids_nonempty : ∀ shard ∈ shards, shard.deviceID ≠ ""
  ids_distinct : (shards.map Shard.deviceID).Nodup
  ranges_nonempty : ∀ shard ∈ shards, shard.startLayer ≤ shard.endLayer
  concatenated : shards.flatMap Shard.layerRange = Int.range 0 totalLayers

/-- The shards hold layers only, are listed in layer order, and every layer belongs to exactly one. -/
structure LayersOwned (shards : List Shard) (totalLayers : Int) : Prop where
  layers_pos : 1 ≤ totalLayers
  ids_nonempty : ∀ shard ∈ shards, shard.deviceID ≠ ""
  ids_distinct : (shards.map Shard.deviceID).Nodup
  inside : ∀ shard ∈ shards,
    0 ≤ shard.startLayer ∧ shard.startLayer ≤ shard.endLayer ∧ shard.endLayer < totalLayers
  in_order : shards.Pairwise fun a b => a.startLayer ≤ b.startLayer
  one_owner : ∀ layer, 0 ≤ layer → layer < totalLayers →
    owners Shard.startLayer Shard.endLayer shards layer = 1

theorem layersOnce_iff {shards : List Shard} {totalLayers : Int} :
    LayersOnce shards totalLayers ↔ OrderedPartition shards totalLayers := by
  constructor
  · rintro ⟨positive, named, distinct, nonempty, same⟩
    exact ⟨positive, named, distinct, (tiles_iff_flatMap_span (by omega)).mpr ⟨nonempty, same⟩⟩
  · rintro ⟨positive, named, distinct, tiles⟩
    obtain ⟨nonempty, same⟩ := (tiles_iff_flatMap_span (by omega)).mp tiles
    exact ⟨positive, named, distinct, nonempty, same⟩

theorem layersOwned_iff {shards : List Shard} {totalLayers : Int} :
    LayersOwned shards totalLayers ↔ OrderedPartition shards totalLayers := by
  constructor
  · rintro ⟨positive, named, distinct, inside, inOrder, once⟩
    exact ⟨positive, named, distinct, (tiles_iff_owners (by omega)).mpr ⟨inside, inOrder, once⟩⟩
  · rintro ⟨positive, named, distinct, tiles⟩
    obtain ⟨inside, inOrder, once⟩ := (tiles_iff_owners (by omega)).mp tiles
    exact ⟨positive, named, distinct, inside, inOrder, once⟩

/-- The scan of `ValidatePlan` with integers of any size. -/
def validatePlanLoopExact (totalLayers : Int) :
    Nat → Int → List String → List Shard → Except GoError Int
  | _, wantStart, _, [] => .ok wantStart
  | i, wantStart, seen, shard :: rest => do
      wrapErr "shard %d: %w" [.int i] (shard.validate totalLayers)
      failIf (shard.deviceID ∈ seen) (.errorf "duplicate shard device id %q" [.str shard.deviceID])
      failIf (shard.startLayer ≠ wantStart)
        (.errorf "shard %d starts at %d, want %d" [.int i, .int shard.startLayer, .int wantStart])
      validatePlanLoopExact totalLayers (i + 1) (shard.endLayer + 1) (shard.deviceID :: seen) rest

/-- `ValidatePlan` with integers of any size. -/
def validatePlanExact (shards : List Shard) (totalLayers : Int) : Except GoError Unit := do
  failIf (totalLayers ≤ 0) (.errorf "invalid total layers %d" [.int totalLayers])
  failIf (shards.length = 0) (.errorf "no shards" [])
  let wantStart ← validatePlanLoopExact totalLayers 0 0 [] shards
  failIf (wantStart ≠ totalLayers)
    (.errorf "plan covers %d layers, want %d" [.int wantStart, .int totalLayers])

/-- The running start is computed from validated ends alone, so no scan wraps, not even a failing one. -/
theorem validatePlanLoop_exact {totalLayers : Int} (bounded : totalLayers ≤ maxInt) {shards : List Shard}
    {i : Nat} {wantStart : Int} {seen : List String} :
    validatePlanLoop totalLayers i wantStart seen shards =
      validatePlanLoopExact totalLayers i wantStart seen shards := by
  induction shards generalizing i wantStart seen with
  | nil => rfl
  | cons shard rest inductionHypothesis =>
      rw [validatePlanLoop, validatePlanLoopExact]
      cases valid : shard.validate totalLayers with
      | error err => rfl
      | ok u => rw [Shard.nextStart_eq bounded valid, inductionHypothesis]

/-- What `ValidatePlan` says about a list of shards. -/
structure AcceptsPartitions (shards : List Shard) (totalLayers : Int) : Prop where
  accepts_iff : validatePlan shards totalLayers = .ok () ↔ LayersOnce shards totalLayers
  accepts_iff_owned : validatePlan shards totalLayers = .ok () ↔ LayersOwned shards totalLayers
  /-- With integers of any size it would return the same, errors included. -/
  no_overflow : validatePlan shards totalLayers = validatePlanExact shards totalLayers

/-- `ValidatePlan` accepts exactly the ordered partitions of the layers, and never overflows. -/
theorem validatePlan_accepts_partitions (shards : List Shard) (totalLayers : Int)
    (bounded : totalLayers ≤ maxInt) : AcceptsPartitions shards totalLayers := by
  constructor
  · rw [validatePlan_eq_ok bounded, layersOnce_iff]
  · rw [validatePlan_eq_ok bounded, layersOwned_iff]
  · rw [validatePlan, validatePlanExact, validatePlanLoop_exact bounded]

/-- The largest layer count there is, in two shards. -/
theorem validatePlan_accepts_partitions_maxInt :
    LayersOnce [⟨"a", 0, 0⟩, ⟨"b", 1, maxInt - 1⟩] maxInt :=
  (validatePlan_accepts_partitions [⟨"a", 0, 0⟩, ⟨"b", 1, maxInt - 1⟩] maxInt (by decide)).accepts_iff.mp
    (by decide +kernel)

end GoExotic
