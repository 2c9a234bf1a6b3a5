/-
Module: GoExotic.Proofs.Planner
Purpose: The planner partitions the layers. The assignment loop keeps at least one layer for every
  device still to come, so whatever the shares are, every count, start and end it computes stays inside
  the layers and its shards tile them; the guards before the loop decide success, and the final
  validation has nothing left to reject.
Trusted boundary: none
Main exports: sumWeights_eq_ok, layerCount_bounds, AssignState, AssignState.invariant,
  assignLayers_tiles, planLayerShardsWith_ids, planLayerShardsWith_succeeds_iff, planLayerShards_partitions
-/
import GoExotic.Proofs.PlanValidation
import Mathlib.Tactic.GCongr
import Mathlib.Tactic.Positivity

namespace GoExotic

open Tiling

/-! ### The guards before the loop -/

theorem not_badWeight {weight : Float64} : ¬ badWeight weight ↔ weight.PosFinite := Iff.rfl

/-- The running totals of the memory weights, from a total to start with. -/
def runningTotals (go : GoLib) : Float64 → List Device → List Float64
  | _, [] => []
  | total, d :: rest =>
      go.float.add total d.memoryGB :: runningTotals go (go.float.add total d.memoryGB) rest

/-- The last running total. -/
def finalTotal (go : GoLib) (total : Float64) (devices : List Device) : Float64 :=
  devices.foldl (fun sum d => go.float.add sum d.memoryGB) total

theorem finalTotal_mem (go : GoLib) (total : Float64) {devices : List Device} (nonempty : devices ≠ []) :
    finalTotal go total devices ∈ runningTotals go total devices := by
  induction devices generalizing total with
  | nil => exact absurd rfl nonempty
  | cons d rest inductionHypothesis =>
      cases rest with
      | nil => simp [finalTotal, runningTotals]
      | cons next others =>
          exact List.mem_cons_of_mem _
            (inductionHypothesis (go.float.add total d.memoryGB) (List.cons_ne_nil next others))

/-- Adding a usable weight to zero or a usable total gives a usable total unless it overflows. -/
theorem add_usable (go : GoLib) {total weight : Float64} (start : total = .zero ∨ total.PosFinite)
    (usable : weight.PosFinite) (noOverflow : (go.float.add total weight).isInf ≠ true) :
    (go.float.add total weight).PosFinite := by
  obtain ⟨w, wPos, rfl⟩ := Float64.posFinite_iff.mp usable
  have total_nonneg : ∃ t : ℚ, 0 ≤ t ∧ total = .finite t := by
    rcases start with zero | positive
    · exact ⟨0, le_refl 0, zero⟩
    · obtain ⟨t, tPos, same⟩ := Float64.posFinite_iff.mp positive
      exact ⟨t, le_of_lt tPos, same⟩
  obtain ⟨t, tNonneg, rfl⟩ := total_nonneg
  rcases go.float.add_pos t w tNonneg wPos with positive | overflow
  · exact positive
  · exact absurd (by rw [overflow]; rfl) noOverflow

/-- The first loop passes exactly when ids are non-empty and new, memories usable and all running
totals usable; it returns the last total. -/
theorem sumWeights_eq_ok (go : GoLib) {devices : List Device} {seen : List String}
    {total final : Float64} (start : total = .zero ∨ total.PosFinite) :
    sumWeights go seen total devices = .ok final ↔
      (∀ d ∈ devices, d.id ≠ "") ∧ (devices.map Device.id).Nodup ∧ (∀ d ∈ devices, d.id ∉ seen) ∧
        (∀ d ∈ devices, d.memoryGB.PosFinite) ∧ (∀ t ∈ runningTotals go total devices, t.PosFinite) ∧
        finalTotal go total devices = final := by
  induction devices generalizing seen total with
  | nil => simp [sumWeights, runningTotals, finalTotal]
  | cons d rest inductionHypothesis =>
      simp only [sumWeights, bind_eq_ok, failIf_eq_ok, exists_const, not_badWeight]
      constructor
      · rintro ⟨named, fresh, usable, noOverflow, tail⟩
        have totalUsable := add_usable go start usable noOverflow
        obtain ⟨restNamed, restDistinct, restFresh, restUsable, restTotals, same⟩ :=
          (inductionHypothesis (Or.inr totalUsable)).mp tail
        simp only [List.mem_cons, forall_eq_or_imp, List.map_cons, List.nodup_cons, List.mem_map,
          runningTotals, finalTotal, List.foldl_cons]
        refine ⟨⟨named, restNamed⟩, ⟨?_, restDistinct⟩,
          ⟨fresh, fun other member seenToo => restFresh other member (List.mem_cons_of_mem _ seenToo)⟩,
          ⟨usable, restUsable⟩, ⟨totalUsable, restTotals⟩, same⟩
        rintro ⟨other, member, sameId⟩
        exact restFresh other member (by simp [sameId])
      · simp only [List.mem_cons, forall_eq_or_imp, List.map_cons, List.nodup_cons, List.mem_map,
          runningTotals, finalTotal, List.foldl_cons]
        rintro ⟨⟨named, restNamed⟩, ⟨newId, restDistinct⟩, ⟨fresh, restFresh⟩, ⟨usable, restUsable⟩,
          ⟨totalUsable, restTotals⟩, same⟩
        have noOverflow : ¬ (go.float.add total d.memoryGB).isInf = true :=
          fun overflow => totalUsable (Or.inr (Or.inr overflow))
        refine ⟨named, fresh, usable, noOverflow, (inductionHypothesis (Or.inr totalUsable)).mpr
          ⟨restNamed, restDistinct, ?_, restUsable, restTotals, same⟩⟩
        intro other member seenToo
        rcases List.mem_cons.mp seenToo with sameId | already
        · exact newId ⟨other, member, sameId⟩
        · exact restFresh other member already

/-! ### One device -/

/-- A share the overflow guard lets through: a non-negative number within the int range. -/
def RegularShare (share : Float64) : Prop :=
  ∃ q : ℚ, share = .finite q ∧ 0 ≤ q ∧ q ≤ 9223372036854775807

theorem RegularShare.not_gt_maxInt (go : GoLib) {share : Float64} (regular : RegularShare share) :
    share.gt (go.float.ofInt maxInt) = false := by
  obtain ⟨q, rfl, -, bound⟩ := regular
  obtain ⟨limit, converted, large⟩ := go.float.ofInt_maxInt
  have : q ≤ limit := bound.trans large
  simp [maxInt_lit, converted, Float64.gt, Float64.le, this]

/-- The truncated share is an `int`, and not negative. -/
theorem RegularShare.toInt_bounds {share : Float64} (regular : RegularShare share) :
    0 ≤ share.toInt ∧ share.toInt ≤ maxInt := by
  obtain ⟨q, rfl, nonneg, bound⟩ := regular
  rw [Float64.toInt_finite nonneg bound]
  refine ⟨Int.floor_nonneg.mpr nonneg, ?_⟩
  have : (⌊q⌋ : ℚ) ≤ 9223372036854775807 := (Int.floor_le q).trans bound
  exact_mod_cast this

/-- The cap leaves one layer for each later device, and never falls below one. -/
theorem maxForThis_eq {remainingLayers remainingDevices : Int} (devicesPos : 1 ≤ remainingDevices)
    (enough : remainingDevices ≤ remainingLayers) (bounded : remainingLayers ≤ maxInt) :
    maxForThis remainingLayers remainingDevices = remainingLayers - (remainingDevices - 1) := by
  have := maxInt_lit
  have := minInt_lit
  have inner : wrapInt (remainingDevices - 1) = remainingDevices - 1 :=
    wrapInt_eq (by omega) (by omega)
  rw [maxForThis, inner]
  exact wrapInt_eq (by omega) (by omega)

/-- A device gets at least one layer and leaves one for each later device; the last device takes all
that is left. -/
theorem layerCount_bounds {go : GoLib} {share : Float64} {remainingLayers remainingDevices count : Int}
    {d : Device} (devicesPos : 1 ≤ remainingDevices) (enough : remainingDevices ≤ remainingLayers)
    (bounded : remainingLayers ≤ maxInt)
    (counted : layerCount go share remainingLayers remainingDevices d = .ok count) :
    1 ≤ count ∧ count ≤ remainingLayers - (remainingDevices - 1) ∧
      (remainingDevices = 1 → count = remainingLayers) := by
  have cap := maxForThis_eq devicesPos enough bounded
  rw [layerCount] at counted
  by_cases several : remainingDevices > 1
  · simp only [several, if_true, bind_eq_ok, failIf_eq_ok, exists_const, pure_eq_ok,
      Except.ok.injEq, cap] at counted
    obtain ⟨-, rfl⟩ := counted
    refine ⟨?_, ?_, fun single => by omega⟩
    · split_ifs <;> omega
    · split_ifs <;> omega
  · simp only [several, if_false, pure_eq_ok, Except.ok.injEq] at counted
    omega

/-- Only the overflow guard stops the count. -/
theorem layerCount_total (go : GoLib) {share : Float64} (regular : RegularShare share)
    (remainingLayers remainingDevices : Int) (d : Device) :
    ∃ count, layerCount go share remainingLayers remainingDevices d = .ok count := by
  rw [layerCount]
  by_cases several : remainingDevices > 1
  · simp [several, regular.not_gt_maxInt go]
  · simp [several]

/-- The values the variable `count` takes in one iteration, in order: everything that is left, and for
every device but the last the truncated share, that share raised to one layer, and the cut to
`maxForThis`. -/
def countValues (share : Float64) (remainingLayers remainingDevices : Int) : List Int :=
  if remainingDevices > 1 then
    let truncated := share.toInt
    let raised := if truncated < 1 then 1 else truncated
    let limit := maxForThis remainingLayers remainingDevices
    [remainingLayers, truncated, raised, if raised > limit then limit else raised]
  else
    [remainingLayers]

/-- Whatever the share, every value of `count` is an `int` that is not negative. -/
theorem countValues_bounds {share : Float64} (regular : RegularShare share)
    {remainingLayers remainingDevices : Int} (devicesPos : 1 ≤ remainingDevices)
    (enough : remainingDevices ≤ remainingLayers) (bounded : remainingLayers ≤ maxInt) :
    ∀ value ∈ countValues share remainingLayers remainingDevices, 0 ≤ value ∧ value ≤ maxInt := by
  have cap := maxForThis_eq devicesPos enough bounded
  have truncated := regular.toInt_bounds
  have := maxInt_lit
  intro value member
  rw [countValues, cap] at member
  by_cases several : remainingDevices > 1
  · simp only [several, if_true, List.mem_cons, List.not_mem_nil, or_false] at member
    split_ifs at member <;> omega
  · simp only [several, if_false, List.mem_singleton] at member
    omega

/-- The count a device gets is the last value the variable takes. -/
theorem layerCount_eq_getLast {go : GoLib} {share : Float64} {remainingLayers remainingDevices count : Int}
    {d : Device} (counted : layerCount go share remainingLayers remainingDevices d = .ok count) :
    (countValues share remainingLayers remainingDevices).getLast? = some count := by
  rw [layerCount] at counted
  by_cases several : remainingDevices > 1
  · simp only [several, if_true, bind_eq_ok, failIf_eq_ok, exists_const, pure_eq_ok,
      Except.ok.injEq] at counted
    simp only [countValues, several, if_true, ← counted.2]
    rfl
  · simp only [several, if_false, pure_eq_ok, Except.ok.injEq] at counted
    simp [countValues, several, counted]

/-! ### The assignment loop -/

section Loop

variable {go : GoLib} {share : Device → Float64} {totalLayers : Int} {devices : Nat}

/-- The iterations of the assignment loop over `all`: the index, the next free layer and the devices
still to come. -/
inductive AssignState (go : GoLib) (share : Device → Float64) (totalLayers : Int) (all : List Device) :
    Int → Int → List Device → Prop where
  | start : AssignState go share totalLayers all 0 0 all
  | next {i start : Int} {d : Device} {rest : List Device} {shard : Shard}
      (before : AssignState go share totalLayers all i start (d :: rest))
      (assigned : assignShard go share totalLayers all.length i start d = .ok shard) :
      AssignState go share totalLayers all (i + 1) (wrapInt (shard.endLayer + 1)) rest

/-- What the loop keeps: as many layers as devices are still to come, and nothing is left over once the
last device has been served. -/
structure AssignInvariant (totalLayers : Int) (devices : Nat) (i start : Int) (rest : List Device) :
    Prop where
  index : i + rest.length = devices
  index_nonneg : 0 ≤ i
  start_nonneg : 0 ≤ start
  enough : rest.length ≤ totalLayers - start
  finished : rest = [] → start = totalLayers

namespace AssignInvariant

variable {i start : Int} {d : Device} {rest : List Device}

theorem remainingLayers_eq (keeps : AssignInvariant totalLayers devices i start (d :: rest))
    (bounded : totalLayers ≤ maxInt) : wrapInt (totalLayers - start) = totalLayers - start := by
  have := keeps.start_nonneg
  have := keeps.enough
  have := maxInt_lit
  have := minInt_lit
  exact wrapInt_eq (by omega) (by omega)

theorem remainingDevices_eq (keeps : AssignInvariant totalLayers devices i start (d :: rest))
    (bounded : totalLayers ≤ maxInt) : wrapInt (devices - i) = rest.length + 1 := by
  have index := keeps.index
  have := keeps.start_nonneg
  have enough := keeps.enough
  have := maxInt_lit
  have := minInt_lit
  push_cast [List.length_cons] at index enough
  rw [show (devices : Int) - i = rest.length + 1 by omega]
  exact wrapInt_eq (by omega) (by omega)

/-- One iteration: the count it settles on, the shard it appends, and the invariant for the rest. -/
theorem step (keeps : AssignInvariant totalLayers devices i start (d :: rest))
    (bounded : totalLayers ≤ maxInt) {shard : Shard}
    (assigned : assignShard go share totalLayers devices i start d = .ok shard) :
    shard.deviceID = d.id ∧ shard.startLayer = start ∧ start ≤ shard.endLayer ∧
      shard.endLayer < totalLayers ∧
      layerCount go (share d) (totalLayers - start) (rest.length + 1) d =
        .ok (shard.endLayer + 1 - start) ∧
      wrapInt (shard.endLayer + 1) = shard.endLayer + 1 ∧
      AssignInvariant totalLayers devices (i + 1) (shard.endLayer + 1) rest := by
  have index := keeps.index
  have indexNonneg := keeps.index_nonneg
  have startNonneg := keeps.start_nonneg
  have enough := keeps.enough
  have := maxInt_lit
  have := minInt_lit
  push_cast [List.length_cons] at index enough
  simp only [assignShard, bind_eq_ok, pure_eq_ok, Except.ok.injEq,
    keeps.remainingLayers_eq bounded, keeps.remainingDevices_eq bounded] at assigned
  obtain ⟨count, counted, rfl⟩ := assigned
  obtain ⟨positive, capped, last⟩ :=
    layerCount_bounds (by omega) (by omega) (by omega) counted
  have sum : wrapInt (start + count) = start + count := wrapInt_eq (by omega) (by omega)
  have stop : wrapInt (start + count - 1) = start + count - 1 := wrapInt_eq (by omega) (by omega)
  have following : wrapInt (start + count - 1 + 1) = start + count - 1 + 1 :=
    wrapInt_eq (by omega) (by omega)
  simp only [sum, stop]
  refine ⟨trivial, trivial, by omega, by omega, ?_, following, ?_⟩
  · rw [counted]
    congr 1
    omega
  · refine ⟨by omega, by omega, by omega, by omega, ?_⟩
    rintro rfl
    have := last (by simp)
    omega

end AssignInvariant

/-- Every iteration the loop reaches satisfies the invariant. -/
theorem AssignState.invariant {all : List Device} (bounded : totalLayers ≤ maxInt)
    (fits : (all.length : Int) ≤ totalLayers) (nonempty : all ≠ []) {i start : Int}
    {rest : List Device} (reached : AssignState go share totalLayers all i start rest) :
    AssignInvariant totalLayers all.length i start rest := by
  induction reached with
  | start => exact ⟨by simp, le_refl 0, le_refl 0, by omega, fun empty => absurd empty nonempty⟩
  | next before assigned inductionHypothesis =>
      obtain ⟨-, -, -, -, -, noWrap, keeps⟩ := inductionHypothesis.step bounded assigned
      rw [noWrap]
      exact keeps

/-- The shards the loop appends carry the ids of the devices it visits. -/
theorem assignLayers_ids {visited : List Device} {i start : Int} {shards : List Shard}
    (assigned : assignLayers go share totalLayers devices i start visited = .ok shards) :
    shards.map Shard.deviceID = visited.map Device.id := by
  induction visited generalizing i start shards with
  | nil =>
      simp only [assignLayers, Except.ok.injEq] at assigned
      simp [← assigned]
  | cons d rest inductionHypothesis =>
      simp only [assignLayers, bind_eq_ok, pure_eq_ok, Except.ok.injEq] at assigned
      obtain ⟨shard, body, others, tail, rfl⟩ := assigned
      simp only [assignShard, bind_eq_ok, pure_eq_ok, Except.ok.injEq] at body
      obtain ⟨count, -, rfl⟩ := body
      simp [inductionHypothesis tail]

/-- From an iteration that satisfies the invariant on, the appended shards tile what is left. -/
theorem assignLayers_tiles {visited : List Device} {i start : Int} {shards : List Shard}
    (bounded : totalLayers ≤ maxInt) (keeps : AssignInvariant totalLayers devices i start visited)
    (assigned : assignLayers go share totalLayers devices i start visited = .ok shards) :
    ShardsTile start shards totalLayers := by
  induction visited generalizing i start shards with
  | nil =>
      simp only [assignLayers, Except.ok.injEq] at assigned
      rw [← assigned]
      exact keeps.finished rfl
  | cons d rest inductionHypothesis =>
      simp only [assignLayers, bind_eq_ok, pure_eq_ok, Except.ok.injEq] at assigned
      obtain ⟨shard, body, others, tail, rfl⟩ := assigned
      obtain ⟨-, starts, nonempty, -, -, noWrap, keepsNext⟩ := keeps.step bounded body
      rw [noWrap] at tail
      exact ⟨starts, starts ▸ nonempty, inductionHypothesis keepsNext tail⟩

/-- With regular shares the loop always finishes. -/
theorem assignLayers_total {visited : List Device} (regular : ∀ d ∈ visited, RegularShare (share d))
    (i start : Int) : ∃ shards, assignLayers go share totalLayers devices i start visited = .ok shards := by
  induction visited generalizing i start with
  | nil => exact ⟨[], rfl⟩
  | cons d rest inductionHypothesis =>
      obtain ⟨count, counted⟩ := layerCount_total go (regular d (by simp))
        (wrapInt (totalLayers - start)) (wrapInt (devices - i)) d
      obtain ⟨shards, tail⟩ := inductionHypothesis
        (fun other member => regular other (List.mem_cons_of_mem d member)) (i + 1)
        (wrapInt (wrapInt (wrapInt (start + count) - 1) + 1))
      exact ⟨⟨d.id, start, wrapInt (wrapInt (start + count) - 1)⟩ :: shards, by
        simp [assignLayers, assignShard, counted, tail]⟩

/-- An iteration fails only where the overflow guard fires, which the last device does not reach. -/
theorem AssignInvariant.assignShard_succeeds_iff {i start : Int} {d : Device} {rest : List Device}
    (keeps : AssignInvariant totalLayers devices i start (d :: rest)) (bounded : totalLayers ≤ maxInt) :
    (∃ shard, assignShard go share totalLayers devices i start d = .ok shard) ↔
      (rest ≠ [] → (share d).gt (go.float.ofInt maxInt) = false) := by
  have several : ((rest.length : Int) + 1 > 1) ↔ rest ≠ [] := by
    rw [ne_eq, ← List.length_eq_zero_iff]
    omega
  simp only [assignShard, bind_eq_ok, keeps.remainingLayers_eq bounded, keeps.remainingDevices_eq bounded,
    layerCount]
  by_cases single : rest = []
  · simp [single]
  · simp [several.mpr single, single]

/-- From an iteration that satisfies the invariant on, the loop finishes exactly if the overflow guard
lets the share of every device but the last through. -/
theorem assignLayers_succeeds_iff {visited : List Device} {i start : Int} (bounded : totalLayers ≤ maxInt)
    (keeps : AssignInvariant totalLayers devices i start visited) :
    (∃ shards, assignLayers go share totalLayers devices i start visited = .ok shards) ↔
      ∀ d ∈ visited.dropLast, (share d).gt (go.float.ofInt maxInt) = false := by
  induction visited generalizing i start with
  | nil => simp [assignLayers]
  | cons d rest inductionHypothesis =>
      have iteration : (∃ shard, assignShard go share totalLayers devices i start d = .ok shard) ↔
          (rest ≠ [] → (share d).gt (go.float.ofInt maxInt) = false) :=
        keeps.assignShard_succeeds_iff bounded
      have guards : (∀ e ∈ (d :: rest).dropLast, (share e).gt (go.float.ofInt maxInt) = false) ↔
          (rest ≠ [] → (share d).gt (go.float.ofInt maxInt) = false) ∧
            ∀ e ∈ rest.dropLast, (share e).gt (go.float.ofInt maxInt) = false := by
        cases rest with
        | nil => simp
        | cons next others => simp
      simp only [assignLayers, bind_eq_ok, pure_eq_ok, Except.ok.injEq]
      rw [guards]
      constructor
      · rintro ⟨shards, shard, body, others, tail, -⟩
        obtain ⟨-, -, -, -, -, noWrap, keepsNext⟩ := keeps.step bounded body
        rw [noWrap] at tail
        exact ⟨iteration.mp ⟨shard, body⟩, (inductionHypothesis keepsNext).mp ⟨others, tail⟩⟩
      · rintro ⟨passes, restPasses⟩
        obtain ⟨shard, body⟩ := iteration.mpr passes
        obtain ⟨-, -, -, -, -, noWrap, keepsNext⟩ := keeps.step bounded body
        obtain ⟨others, tail⟩ := (inductionHypothesis keepsNext).mpr restPasses
        rw [← noWrap] at tail
        exact ⟨shard :: others, shard, body, others, tail, rfl⟩

end Loop

/-! ### The planner -/

/-- The device lists the planner accepts. -/
structure Plannable (go : GoLib) (devices : List Device) (totalLayers : Int) : Prop where
  layers_pos : 1 ≤ totalLayers
  devices_pos : 1 ≤ devices.length
  fits : (devices.length : Int) ≤ totalLayers
  ids_nonempty : ∀ d ∈ devices, d.id ≠ ""
  ids_distinct : (devices.map Device.id).Nodup
  memories_usable : ∀ d ∈ devices, d.memoryGB.PosFinite
  totals_usable : ∀ t ∈ runningTotals go .zero (sortDevices go devices), t.PosFinite

/-- A finished plan, as the planner promises it. -/
structure PlannedLayout (devices : List Device) (totalLayers : Int) (shards : List Shard) : Prop where
  one_per_device : (shards.map Shard.deviceID).Perm (devices.map Device.id)
  ascending : shards.Pairwise fun a b => a.deviceID < b.deviceID
  nonempty_ranges : ∀ shard ∈ shards, shard.startLayer ≤ shard.endLayer
  first_start : ∀ shard, shards.head? = some shard → shard.startLayer = 0
  consecutive : shards.IsChain fun a b => b.startLayer = a.endLayer + 1
  last_end : ∀ shard, shards.getLast? = some shard → shard.endLayer = totalLayers - 1

/-- The values one iteration of the assignment loop computes: all of them stay inside the layers, except
that `count`, between truncating the share and cutting it to `maxForThis`, is bounded by the int range
alone. -/
structure IterationInRange (go : GoLib) (share : Device → Float64) (totalLayers : Int) (devices : Nat)
    (i start : Int) (d : Device) : Prop where
  start_range : 0 ≤ start ∧ start ≤ totalLayers
  limit_range :
    1 ≤ maxForThis (wrapInt (totalLayers - start)) (wrapInt (devices - i)) ∧
      maxForThis (wrapInt (totalLayers - start)) (wrapInt (devices - i)) ≤ totalLayers
  first_count_range : 0 ≤ wrapInt (totalLayers - start) ∧ wrapInt (totalLayers - start) ≤ totalLayers
  every_count_range : ∀ value ∈
    countValues (share d) (wrapInt (totalLayers - start)) (wrapInt (devices - i)),
      0 ≤ value ∧ value ≤ maxInt
  given_count_range : ∀ count,
    layerCount go (share d) (wrapInt (totalLayers - start)) (wrapInt (devices - i)) d = .ok count →
      1 ≤ count ∧ count ≤ totalLayers
  end_range : ∀ shard, assignShard go share totalLayers devices i start d = .ok shard →
    0 ≤ shard.endLayer ∧ shard.endLayer ≤ totalLayers

section Planner

variable {go : GoLib} {share : Float64 → Device → Float64} {devices : List Device} {totalLayers : Int}

theorem sortDevices_perm (go : GoLib) (devices : List Device) :
    (sortDevices go devices).Perm devices :=
  go.sort.byKey_perm _ devices

theorem mem_sortDevices {d : Device} : d ∈ sortDevices go devices ↔ d ∈ devices :=
  (sortDevices_perm go devices).mem_iff

theorem length_sortDevices (go : GoLib) (devices : List Device) : (sortDevices go devices).length = devices.length :=
  (sortDevices_perm go devices).length_eq

theorem sortDevices_nonempty (positive : 1 ≤ devices.length) : sortDevices go devices ≠ [] := by
  intro empty
  have := length_sortDevices go devices
  rw [empty] at this
  simp at this
  omega

/-- The guards of the planner, taken together. -/
theorem planLayerShardsWith_eq_ok {shards : List Shard} :
    planLayerShardsWith go share devices totalLayers = .ok shards ↔
      Plannable go devices totalLayers ∧
        assignLayers go (share (finalTotal go .zero (sortDevices go devices))) totalLayers
          devices.length 0 0 (sortDevices go devices) = .ok shards ∧
        validatePlan shards totalLayers = .ok () := by
  have sameIds : ((sortDevices go devices).map Device.id).Nodup ↔ (devices.map Device.id).Nodup :=
    ((sortDevices_perm go devices).map Device.id).nodup_iff
  simp only [planLayerShardsWith, bind_eq_ok, failIf_eq_ok, exists_const, not_badWeight, pure_eq_ok,
    Except.ok.injEq, sumWeights_eq_ok go (Or.inl rfl), mem_sortDevices, length_sortDevices, sameIds]
  constructor
  · rintro ⟨positive, nonempty, fits, total, ⟨named, distinct, -, usable, totals, rfl⟩, -, planned,
      assigned, u, accepted, rfl⟩
    exact ⟨⟨by omega, by omega, by omega, named, distinct, usable, totals⟩, assigned, accepted⟩
  · rintro ⟨⟨positive, nonempty, fits, named, distinct, usable, totals⟩, assigned, accepted⟩
    have totalUsable := totals _ (finalTotal_mem go .zero (sortDevices_nonempty nonempty))
    exact ⟨by omega, by omega, by omega, _, ⟨named, distinct, by simp, usable, totals, rfl⟩,
      totalUsable, shards, assigned, (), accepted, rfl⟩

/-- A finished plan names the planned devices in ascending id order. -/
theorem planLayerShardsWith_ids {shards : List Shard}
    (planned : planLayerShardsWith go share devices totalLayers = .ok shards) :
    shards.map Shard.deviceID = (sortDevices go devices).map Device.id := by
  obtain ⟨-, assigned, -⟩ := planLayerShardsWith_eq_ok.mp planned
  exact assignLayers_ids assigned

/-- A finished plan is an ordered partition, because the planner validates it. -/
theorem planLayerShardsWith_partition {shards : List Shard}
    (planned : planLayerShardsWith go share devices totalLayers = .ok shards) :
    OrderedPartition shards totalLayers := by
  obtain ⟨-, -, accepted⟩ := planLayerShardsWith_eq_ok.mp planned
  exact (OrderedPartition.of_validatePlan accepted).2

theorem Plannable.initial (plannable : Plannable go devices totalLayers) :
    AssignInvariant totalLayers devices.length 0 0 (sortDevices go devices) := by
  have fits := plannable.fits
  have same := length_sortDevices go devices
  refine ⟨by simp [same], le_refl 0, le_refl 0, by omega, ?_⟩
  intro empty
  exact absurd empty (sortDevices_nonempty plannable.devices_pos)

/-- Whatever the loop appends for an accepted device list, the final validation accepts. -/
theorem Plannable.validatePlan_assigned (plannable : Plannable go devices totalLayers)
    (bounded : totalLayers ≤ maxInt) {shareOf : Device → Float64} {shards : List Shard}
    (assigned : assignLayers go shareOf totalLayers devices.length 0 0 (sortDevices go devices) =
      .ok shards) : validatePlan shards totalLayers = .ok () := by
  have ids := assignLayers_ids assigned
  refine (validatePlan_eq_ok bounded).mpr ⟨plannable.layers_pos, ?_, ?_, ?_⟩
  · intro shard member
    have named : shard.deviceID ∈ (sortDevices go devices).map Device.id :=
      ids ▸ List.mem_map_of_mem member
    obtain ⟨d, dMember, same⟩ := List.mem_map.mp named
    rw [← same]
    exact plannable.ids_nonempty d (mem_sortDevices.mp dMember)
  · rw [ids]
    exact ((sortDevices_perm go devices).map Device.id).nodup_iff.mpr plannable.ids_distinct
  · exact assignLayers_tiles bounded plannable.initial assigned

/-- With regular shares, an accepted device list is planned. -/
theorem Plannable.planned (plannable : Plannable go devices totalLayers) (bounded : totalLayers ≤ maxInt)
    (regular : ∀ d ∈ devices, RegularShare (share (finalTotal go .zero (sortDevices go devices)) d)) :
    ∃ shards, planLayerShardsWith go share devices totalLayers = .ok shards := by
  have finished : ∃ shards,
      assignLayers go (share (finalTotal go .zero (sortDevices go devices))) totalLayers devices.length
        0 0 (sortDevices go devices) = .ok shards :=
    assignLayers_total (fun d member => regular d (mem_sortDevices.mp member)) 0 0
  obtain ⟨shards, assigned⟩ := finished
  exact ⟨shards, planLayerShardsWith_eq_ok.mpr
    ⟨plannable, assigned, plannable.validatePlan_assigned bounded assigned⟩⟩

/-- The planner succeeds exactly where its guards and, for every device but the last, the overflow guard of
the loop pass; whatever the shares are, nothing else can fail. -/
theorem planLayerShardsWith_succeeds_iff (bounded : totalLayers ≤ maxInt) :
    (∃ shards, planLayerShardsWith go share devices totalLayers = .ok shards) ↔
      Plannable go devices totalLayers ∧ ∀ d ∈ (sortDevices go devices).dropLast,
        (share (finalTotal go .zero (sortDevices go devices)) d).gt (go.float.ofInt maxInt) = false := by
  constructor
  · rintro ⟨shards, planned⟩
    obtain ⟨plannable, assigned, -⟩ := planLayerShardsWith_eq_ok.mp planned
    exact ⟨plannable, (assignLayers_succeeds_iff bounded plannable.initial).mp ⟨shards, assigned⟩⟩
  · rintro ⟨plannable, passes⟩
    obtain ⟨shards, assigned⟩ := (assignLayers_succeeds_iff bounded plannable.initial).mpr passes
    exact ⟨shards, planLayerShardsWith_eq_ok.mpr
      ⟨plannable, assigned, plannable.validatePlan_assigned bounded assigned⟩⟩

/-- A finished plan has the promised layout. -/
theorem plannedLayout_of_planned {shards : List Shard}
    (planned : planLayerShardsWith go share devices totalLayers = .ok shards) :
    PlannedLayout devices totalLayers shards := by
  have plan := planLayerShardsWith_partition planned
  have ids := planLayerShardsWith_ids planned
  obtain ⟨plannable, -, -⟩ := planLayerShardsWith_eq_ok.mp planned
  have deviceOrder : (sortDevices go devices).Pairwise fun a b => a.id < b.id :=
    go.sort.byKey_pairwise_lt _ plannable.ids_distinct
  refine ⟨?_, ?_, fun shard member => (plan.tiles.bounds shard member).2.1, ?_, plan.tiles.isChain, ?_⟩
  · rw [ids]
    exact (sortDevices_perm go devices).map Device.id
  · have idOrder : ((sortDevices go devices).map Device.id).Pairwise (· < ·) :=
      List.pairwise_map.mpr deviceOrder
    rw [← ids] at idOrder
    exact List.pairwise_map.mp idOrder
  · intro shard isHead
    cases shards with
    | nil => simp at isHead
    | cons head rest =>
        simp only [List.head?_cons, Option.some.injEq] at isHead
        exact isHead ▸ plan.tiles.head_first
  · intro shard isLast
    have last := plan.tiles.getLast_last plan.nonempty
    rw [List.getLast?_eq_some_getLast plan.nonempty, Option.some.injEq] at isLast
    rw [isLast] at last
    omega

/-- Every iteration over an accepted device list computes inside the layers. -/
theorem Plannable.iteration_in_range (plannable : Plannable go devices totalLayers)
    (bounded : totalLayers ≤ maxInt) {shareOf : Device → Float64}
    (regular : ∀ d, RegularShare (shareOf d)) {i start : Int} {d : Device} {rest : List Device}
    (reached : AssignState go shareOf totalLayers (sortDevices go devices) i start (d :: rest)) :
    IterationInRange go shareOf totalLayers (sortDevices go devices).length i start d := by
  have fits : ((sortDevices go devices).length : Int) ≤ totalLayers := by
    rw [length_sortDevices]
    exact plannable.fits
  have keeps := reached.invariant bounded fits (sortDevices_nonempty plannable.devices_pos)
  have startNonneg := keeps.start_nonneg
  have enough := keeps.enough
  push_cast [List.length_cons] at enough
  have limit : maxForThis (totalLayers - start) (rest.length + 1) =
      totalLayers - start - (rest.length + 1 - 1) :=
    maxForThis_eq (by omega) (by omega) (by omega)
  constructor
  case start_range => omega
  case limit_range =>
    rw [keeps.remainingLayers_eq bounded, keeps.remainingDevices_eq bounded, limit]
    omega
  case first_count_range =>
    rw [keeps.remainingLayers_eq bounded]
    omega
  case every_count_range =>
    rw [keeps.remainingLayers_eq bounded, keeps.remainingDevices_eq bounded]
    exact countValues_bounds (regular d) (by omega) (by omega) (by omega)
  case given_count_range =>
    intro count counted
    rw [keeps.remainingLayers_eq bounded, keeps.remainingDevices_eq bounded] at counted
    have := layerCount_bounds (by omega) (by omega) (by omega) counted
    omega
  case end_range =>
    intro shard assigned
    have := keeps.step bounded assigned
    omega

/-- The planner partitions the layers: with every share a non-negative number in the int range, it
succeeds exactly on the plannable device lists, returns the promised layout, keeps every iteration's
values in range, and its final validation never rejects. -/
theorem planLayerShards_partitions (go : GoLib) (share : Float64 → Device → Float64)
    (devices : List Device) (totalLayers : Int) (bounded : totalLayers ≤ maxInt)
    (regular : ∀ total d, RegularShare (share total d)) :
    ((∃ shards, planLayerShardsWith go share devices totalLayers = .ok shards) ↔
        Plannable go devices totalLayers) ∧
      (∀ shards, planLayerShardsWith go share devices totalLayers = .ok shards →
        PlannedLayout devices totalLayers shards) ∧
      (Plannable go devices totalLayers → ∀ totalWeight,
        (∀ i start rest,
          AssignState go (share totalWeight) totalLayers (sortDevices go devices) i start rest →
            0 ≤ start ∧ start ≤ totalLayers) ∧
        (∀ i start d rest,
          AssignState go (share totalWeight) totalLayers (sortDevices go devices) i start (d :: rest) →
            IterationInRange go (share totalWeight) totalLayers (sortDevices go devices).length
              i start d) ∧
        (∀ shards, assignLayers go (share totalWeight) totalLayers (sortDevices go devices).length 0 0
            (sortDevices go devices) = .ok shards → validatePlan shards totalLayers = .ok ())) := by
  refine ⟨⟨?_, fun plannable => plannable.planned bounded fun d _ => regular _ d⟩,
    fun shards planned => plannedLayout_of_planned planned, ?_⟩
  · rintro ⟨shards, planned⟩
    exact (planLayerShardsWith_eq_ok.mp planned).1
  · intro plannable totalWeight
    refine ⟨?_, ?_, ?_⟩
    · intro i start rest reached
      have fits : ((sortDevices go devices).length : Int) ≤ totalLayers := by
        rw [length_sortDevices]
        exact plannable.fits
      have keeps := reached.invariant bounded fits (sortDevices_nonempty plannable.devices_pos)
      have := keeps.start_nonneg
      have := keeps.enough
      omega
    · intro i start d rest reached
      exact plannable.iteration_in_range bounded (regular totalWeight) reached
    · intro shards assigned
      rw [length_sortDevices] at assigned
      exact plannable.validatePlan_assigned bounded assigned

/-- Two devices and two layers with every share `5`, which is an `int`: the plan succeeds, and in the first
iteration `count` is 5 before the cut, more than there are layers. -/
theorem planLayerShards_count_exceeds_layers :
    RegularShare (.finite 5) ∧
      planLayerShardsWith .plain (fun _ _ => .finite 5) [⟨"a", .finite 1, ""⟩, ⟨"b", .finite 1, ""⟩] 2 =
        .ok [⟨"a", 0, 0⟩, ⟨"b", 1, 1⟩] ∧
      layerCount .plain (.finite 5) (wrapInt (2 - 0)) (wrapInt (2 - 0)) ⟨"a", .finite 1, ""⟩ = .ok 1 ∧
      ¬ ∀ value ∈ countValues (.finite 5) (wrapInt (2 - 0)) (wrapInt (2 - 0)), 0 ≤ value ∧ value ≤ 2 := by
  refine ⟨⟨5, rfl, by norm_num, by norm_num⟩, by decide +kernel, by decide +kernel, ?_⟩
  intro inside
  have truncated : (5 : Int) ∈ countValues (.finite 5) (wrapInt (2 - 0)) (wrapInt (2 - 0)) := by
    decide +kernel
  have := inside 5 truncated
  omega

/-- Two devices and four layers with every share `1`: the device with the smaller id gets one layer, the
last one the rest. -/
theorem planLayerShards_partitions_pair :
    planLayerShardsWith .plain (fun _ _ => .finite 1) [⟨"b", .finite 3, ""⟩, ⟨"a", .finite 1, ""⟩] 4 =
        .ok [⟨"a", 0, 0⟩, ⟨"b", 1, 3⟩] ∧
      PlannedLayout [⟨"b", .finite 3, ""⟩, ⟨"a", .finite 1, ""⟩] 4 [⟨"a", 0, 0⟩, ⟨"b", 1, 3⟩] := by
  have planned : planLayerShardsWith .plain (fun _ _ => .finite 1)
      [⟨"b", .finite 3, ""⟩, ⟨"a", .finite 1, ""⟩] 4 = .ok [⟨"a", 0, 0⟩, ⟨"b", 1, 3⟩] := by
    decide +kernel
  have regular : ∀ (total : Float64) (d : Device), RegularShare (.finite 1) :=
    fun _ _ => ⟨1, rfl, by norm_num, by norm_num⟩
  exact ⟨planned, (planLayerShards_partitions .plain (fun _ _ => .finite 1) _ 4 (by norm_num)
    regular).2.1 _ planned⟩

end Planner

/-! ### Exact arithmetic -/

section Exact

variable {go : GoLib} {devices : List Device}

theorem exactAdd_finite (exact : go.float = FloatOps.exact) (x y : ℚ) :
    go.float.add (.finite x) (.finite y) = .finite (x + y) := by
  rw [exact]
  rfl

/-- Exact running totals of usable memories are usable. -/
theorem runningTotals_exact (exact : go.float = FloatOps.exact)
    (usable : ∀ d ∈ devices, d.memoryGB.PosFinite) {total : ℚ} (nonneg : 0 ≤ total) :
    ∀ t ∈ runningTotals go (.finite total) devices, t.PosFinite := by
  induction devices generalizing total with
  | nil => simp [runningTotals]
  | cons d rest inductionHypothesis =>
      obtain ⟨memory, positive, same⟩ := Float64.posFinite_iff.mp (usable d (by simp))
      have sumPos : 0 < total + memory := add_pos_of_nonneg_of_pos nonneg positive
      rw [runningTotals, same, exactAdd_finite exact]
      simp only [List.mem_cons, forall_eq_or_imp, Float64.posFinite_finite]
      exact ⟨sumPos, inductionHypothesis (fun other member => usable other (List.mem_cons_of_mem d member))
        (le_of_lt sumPos)⟩

/-- The exact total is at least every single memory. -/
theorem finalTotal_exact (exact : go.float = FloatOps.exact)
    (usable : ∀ d ∈ devices, d.memoryGB.PosFinite) (total : ℚ) :
    ∃ sum : ℚ, finalTotal go (.finite total) devices = .finite sum ∧ total ≤ sum ∧
      ∀ d ∈ devices, ∀ memory, d.memoryGB = .finite memory → total + memory ≤ sum := by
  induction devices generalizing total with
  | nil => exact ⟨total, rfl, le_refl total, by simp⟩
  | cons d rest inductionHypothesis =>
      obtain ⟨memory, positive, same⟩ := Float64.posFinite_iff.mp (usable d (by simp))
      obtain ⟨sum, isSum, above, each⟩ := inductionHypothesis
        (fun other member => usable other (List.mem_cons_of_mem d member)) (total + memory)
      refine ⟨sum, ?_, by linarith, ?_⟩
      · rw [finalTotal, List.foldl_cons, same, exactAdd_finite exact]
        exact isSum
      · intro other member amount isAmount
        rcases List.mem_cons.mp member with rfl | inRest
        · rw [same] at isAmount
          cases isAmount
          exact above
        · have := each other inRest amount isAmount
          linarith

/-- Exact shares are regular: no memory exceeds the total. -/
theorem memoryShare_regular (exact : go.float = FloatOps.exact) {totalLayers : Int}
    (nonneg : 0 ≤ totalLayers) (bounded : totalLayers ≤ maxInt)
    (usable : ∀ d ∈ devices, d.memoryGB.PosFinite) {d : Device} (member : d ∈ devices) :
    RegularShare (memoryShare go totalLayers (finalTotal go .zero devices) d) := by
  obtain ⟨sum, isSum, -, each⟩ := finalTotal_exact exact usable 0
  obtain ⟨memory, positive, same⟩ := Float64.posFinite_iff.mp (usable d member)
  have fits : memory ≤ sum := by
    have := each d member memory same
    linarith
  have sumPos : 0 < sum := lt_of_lt_of_le positive fits
  have layersNonneg : (0 : ℚ) ≤ totalLayers := by exact_mod_cast nonneg
  have layersBound : (totalLayers : ℚ) ≤ 9223372036854775807 := by exact_mod_cast bounded
  refine ⟨totalLayers * memory / sum, ?_, by positivity, ?_⟩
  · rw [memoryShare, Float64.zero, isSum, same, exact]
    change (if sum = 0 then _ else Float64.finite (totalLayers * memory / sum)) = _
    rw [if_neg (ne_of_gt sumPos)]
  · calc (totalLayers : ℚ) * memory / sum ≤ totalLayers * sum / sum := by gcongr
      _ = totalLayers := mul_div_cancel_right₀ _ (ne_of_gt sumPos)
      _ ≤ 9223372036854775807 := layersBound

/-- With exact arithmetic, the planner succeeds on every list of at most `totalLayers` usable devices
with distinct ids. -/
theorem planLayerShards_exact (exact : go.float = FloatOps.exact) {totalLayers : Int}
    (bounded : totalLayers ≤ maxInt) (nonempty : 1 ≤ devices.length)
    (fits : (devices.length : Int) ≤ totalLayers) (named : ∀ d ∈ devices, d.id ≠ "")
    (distinct : (devices.map Device.id).Nodup) (usable : ∀ d ∈ devices, d.memoryGB.PosFinite) :
    ∃ shards, planLayerShards go devices totalLayers = .ok shards := by
  have sortedUsable : ∀ d ∈ sortDevices go devices, d.memoryGB.PosFinite :=
    fun d member => usable d (mem_sortDevices.mp member)
  have plannable : Plannable go devices totalLayers :=
    ⟨by omega, nonempty, fits, named, distinct, usable,
      runningTotals_exact exact sortedUsable (le_refl 0)⟩
  apply plannable.planned bounded
  intro d member
  exact memoryShare_regular exact (by omega) bounded sortedUsable (mem_sortDevices.mpr member)

end Exact

end GoExotic
