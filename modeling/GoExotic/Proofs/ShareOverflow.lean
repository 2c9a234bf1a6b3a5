/-
Module: GoExotic.Proofs.ShareOverflow
Purpose: When arithmetic makes the planner refuse a device list that passes its checks. The share is the
  layers times the memory, divided by the total. With numbers that overflow, the product can leave the
  finite range although the quotient is at most the layers; then the share is +Inf, and the guard against
  shares that are no `int` refuses the list.
Trusted boundary: float64 as exact rationals with overflow
Main exports: finalTotal_overflowing, memoryShare_overflowing, ComputesShare, NeverRefused,
  planLayerShards_never_refused_iff
-/
import GoExotic.Proofs.MemoryQuota

namespace GoExotic

variable {go : GoLib} {devices : List Device} {totalLayers : Int}

/-! ### Totals and shares -/

theorem overflowingAdd_finite (overflowing : go.float = FloatOps.overflowing) (x y : ℚ) :
    go.float.add (.finite x) (.finite y) = FloatOps.overflow (.finite (x + y)) := by
  rw [overflowing]
  rfl

/-- A number that did not overflow is the exact one. -/
theorem overflow_of_posFinite {q : ℚ} (nonneg : 0 ≤ q) (usable : (FloatOps.overflow (.finite q)).PosFinite) :
    FloatOps.overflow (.finite q) = .finite q := by
  rw [FloatOps.overflow_finite nonneg] at usable ⊢
  by_cases large : FloatOps.maxFinite < q
  · rw [if_pos large] at usable
    exact absurd (Or.inr (Or.inr rfl)) usable
  · exact if_neg large

/-- Running totals that do not overflow are exact. -/
theorem finalTotal_overflowing (overflowing : go.float = FloatOps.overflowing)
    (usable : ∀ d ∈ devices, d.memoryGB.PosFinite) {total : ℚ} (nonneg : 0 ≤ total)
    (totals : ∀ t ∈ runningTotals go (.finite total) devices, t.PosFinite) :
    finalTotal go (.finite total) devices = .finite (total + (devices.map Device.memory).sum) := by
  induction devices generalizing total with
  | nil => simp [finalTotal]
  | cons d rest inductionHypothesis =>
      obtain ⟨isNumber, positive⟩ := memory_of_usable (usable d (by simp))
      rw [runningTotals, isNumber, overflowingAdd_finite overflowing] at totals
      have sum : FloatOps.overflow (.finite (total + d.memory)) = .finite (total + d.memory) :=
        overflow_of_posFinite (by linarith) (totals _ (by simp))
      rw [sum] at totals
      have tail := inductionHypothesis (fun other member => usable other (List.mem_cons_of_mem d member))
        (by linarith) (fun t member => totals t (List.mem_cons_of_mem _ member))
      rw [finalTotal, List.foldl_cons, isNumber, overflowingAdd_finite overflowing, sum, ← finalTotal, tail,
        List.map_cons, List.sum_cons, add_assoc]

/-- No quota exceeds the layers. -/
theorem quotient_within (overflowing : go.float = FloatOps.overflowing) {total memory : ℚ} (positive : 0 < total)
    (memoryPos : 0 < memory) (part : memory ≤ total) (layersPos : 1 ≤ totalLayers)
    (bounded : totalLayers ≤ maxInt) :
    RegularShare (.finite (totalLayers * memory / total)) ∧
      (Float64.finite (totalLayers * memory / total)).gt (go.float.ofInt totalLayers) = false := by
  have layers : (1 : ℚ) ≤ totalLayers := by exact_mod_cast layersPos
  have layersBound : (totalLayers : ℚ) ≤ 9223372036854775807 := by exact_mod_cast bounded
  have atMost : (totalLayers : ℚ) * memory / total ≤ totalLayers := by
    rw [div_le_iff₀ positive]
    gcongr
  refine ⟨⟨_, rfl, by positivity, atMost.trans layersBound⟩, ?_⟩
  rw [overflowing]
  change (!decide ((totalLayers : ℚ) * memory / total ≤ totalLayers)) = false
  rw [decide_eq_true atMost]
  rfl

/-- The share of a device: its quota if the product of the layers and its memory is finite, and +Inf
otherwise. -/
theorem memoryShare_overflowing (overflowing : go.float = FloatOps.overflowing) {total : ℚ} (positive : 0 < total)
    {d : Device} (usable : d.memoryGB.PosFinite) (part : d.memory ≤ total) (layersPos : 1 ≤ totalLayers)
    (bounded : totalLayers ≤ maxInt) :
    memoryShare go totalLayers (.finite total) d =
      if FloatOps.maxFinite < totalLayers * d.memory then .inf false
      else .finite (totalLayers * d.memory / total) := by
  obtain ⟨isNumber, memoryPos⟩ := memory_of_usable usable
  have layers : (1 : ℚ) ≤ totalLayers := by exact_mod_cast layersPos
  have product : go.float.mul (go.float.ofInt totalLayers) d.memoryGB =
      FloatOps.overflow (.finite (totalLayers * d.memory)) := by
    rw [isNumber, overflowing]
    rfl
  rw [memoryShare, product, FloatOps.overflow_finite (by positivity), overflowing]
  split_ifs with large
  · change FloatOps.overflow (.inf (false != FloatOps.isNegative (.finite total))) = .inf false
    have notNegative : FloatOps.isNegative (.finite total) = false :=
      decide_eq_false (not_lt.mpr (le_of_lt positive))
    rw [notNegative]
    rfl
  · have quotient : FloatOps.exactDiv (.finite (totalLayers * d.memory)) (.finite total) =
        .finite (totalLayers * d.memory / total) := if_neg (ne_of_gt positive)
    obtain ⟨⟨q, isQuotient, -, within⟩, -⟩ :=
      quotient_within overflowing positive memoryPos part layersPos bounded
    have finite : ¬ FloatOps.maxFinite < (totalLayers : ℚ) * d.memory / total := by
      have large : (9223372036854775807 : ℚ) ≤ FloatOps.maxFinite := by decide +kernel
      rw [Float64.finite.inj isQuotient]
      linarith
    change FloatOps.overflow (FloatOps.exactDiv (.finite (totalLayers * d.memory)) (.finite total)) = _
    rw [quotient, FloatOps.overflow_finite (by positivity), if_neg finite]

/-! ### The guard -/

/-- The devices whose shares the assignment loop computes: all but the last in id order. -/
def ComputesShare (go : GoLib) (devices : List Device) (d : Device) : Prop :=
  d ∈ (sortDevices go devices).dropLast

/-- Arithmetic gives the planner no reason to refuse a list. -/
structure NeverRefused (go : GoLib) (devices : List Device) (totalLayers : Int) : Prop where
  /-- No share exceeds the layers. -/
  shares : ∀ d, ComputesShare go devices d →
    (memoryShare go totalLayers (finalTotal go .zero (sortDevices go devices)) d).gt
      (go.float.ofInt totalLayers) = false
  no_overflow_error : ∀ id, planLayerShards go devices totalLayers ≠
    .error (.errorf "device %s layer share overflows int" [.str id])
  planned : ∃ shards, planLayerShards go devices totalLayers = .ok shards

/-- A list that passes the checks before the loop is planned exactly if it passes the guard in the loop. -/
theorem Plannable.planned_iff_guarded (plannable : Plannable go devices totalLayers)
    (bounded : totalLayers ≤ maxInt) :
    (∃ shards, planLayerShards go devices totalLayers = .ok shards) ↔
      ∀ d, ComputesShare go devices d →
        (memoryShare go totalLayers (finalTotal go .zero (sortDevices go devices)) d).gt
          (go.float.ofInt maxInt) = false := by
  rw [planLayerShards, planLayerShardsWith_succeeds_iff bounded]
  exact ⟨fun planned => planned.2, fun passes => ⟨plannable, passes⟩⟩

/-- The shares of a list that passes the checks before the loop. -/
theorem Plannable.share_overflowing (plannable : Plannable go devices totalLayers)
    (overflowing : go.float = FloatOps.overflowing) (bounded : totalLayers ≤ maxInt) {d : Device}
    (computed : ComputesShare go devices d) :
    memoryShare go totalLayers (finalTotal go .zero (sortDevices go devices)) d =
      if FloatOps.maxFinite < totalLayers * d.memory then .inf false
      else .finite (totalLayers * d.memory / ((sortDevices go devices).map Device.memory).sum) := by
  have usable : ∀ d ∈ sortDevices go devices, d.memoryGB.PosFinite :=
    fun d member => plannable.memories_usable d (mem_sortDevices.mp member)
  have member := List.mem_of_mem_dropLast computed
  have total : finalTotal go .zero (sortDevices go devices) =
      .finite ((sortDevices go devices).map Device.memory).sum := by
    rw [Float64.zero, finalTotal_overflowing overflowing usable (le_refl 0) plannable.totals_usable, zero_add]
  rw [total]
  exact memoryShare_overflowing overflowing (total_pos usable (sortDevices_nonempty plannable.devices_pos))
    (usable d member) (memory_le_sum usable member) plannable.layers_pos bounded

/-- A share whose product is finite is a regular one, within the layers. -/
theorem Plannable.share_within (plannable : Plannable go devices totalLayers)
    (overflowing : go.float = FloatOps.overflowing) (bounded : totalLayers ≤ maxInt) {d : Device}
    (computed : ComputesShare go devices d) (small : (totalLayers : ℚ) * d.memory ≤ FloatOps.maxFinite) :
    RegularShare (memoryShare go totalLayers (finalTotal go .zero (sortDevices go devices)) d) ∧
      (memoryShare go totalLayers (finalTotal go .zero (sortDevices go devices)) d).gt
        (go.float.ofInt totalLayers) = false := by
  have usable : ∀ d ∈ sortDevices go devices, d.memoryGB.PosFinite :=
    fun d member => plannable.memories_usable d (mem_sortDevices.mp member)
  have member := List.mem_of_mem_dropLast computed
  rw [plannable.share_overflowing overflowing bounded computed, if_neg (not_lt.mpr small)]
  exact quotient_within overflowing (total_pos usable (sortDevices_nonempty plannable.devices_pos))
    (memory_of_usable (usable d member)).2 (memory_le_sum usable member) plannable.layers_pos bounded

/-- Of the lists that pass the checks before the loop, exactly those are planned in which the layers times
the memory of every device but the last in id order do not overflow. -/
theorem planLayerShards_never_refused_iff (go : GoLib) (overflowing : go.float = FloatOps.overflowing)
    (devices : List Device) (totalLayers : Int) (bounded : totalLayers ≤ maxInt)
    (plannable : Plannable go devices totalLayers) :
    NeverRefused go devices totalLayers ↔
      ∀ d, ComputesShare go devices d → (totalLayers : ℚ) * d.memory ≤ FloatOps.maxFinite := by
  constructor
  · intro never d computed
    have passes := (plannable.planned_iff_guarded bounded).mp never.planned d computed
    by_contra large
    rw [plannable.share_overflowing overflowing bounded computed, if_pos (not_le.mp large),
      overflowing] at passes
    cases passes
  · intro small
    have within := fun d computed => plannable.share_within overflowing bounded computed (small d computed)
    have planned := (plannable.planned_iff_guarded bounded).mpr fun d computed =>
      (within d computed).1.not_gt_maxInt go
    refine ⟨fun d computed => (within d computed).2, ?_, planned⟩
    intro id refused
    obtain ⟨shards, succeeded⟩ := planned
    rw [refused] at succeeded
    cases succeeded

/-- Numbers that overflow, otherwise the plain library. -/
def GoLib.overflowing : GoLib := { GoLib.plain with float := FloatOps.overflowing }

/-- Two devices of `8e307` gigabytes each: their total is finite, four times the memory of one is not. -/
def hugePair : List Device := [⟨"a", .finite (8 * 10 ^ 307), ""⟩, ⟨"b", .finite (8 * 10 ^ 307), ""⟩]

theorem hugePair_plannable : Plannable .overflowing hugePair 4 := by
  have planned : planLayerShardsWith .overflowing (fun _ _ => .finite 1) hugePair 4 =
      .ok [⟨"a", 0, 0⟩, ⟨"b", 1, 3⟩] := by
    decide +kernel
  exact (planLayerShardsWith_eq_ok.mp planned).1

/-- They pass the checks and are refused. -/
theorem hugePair_refused : Plannable .overflowing hugePair 4 ∧
    planLayerShards .overflowing hugePair 4 =
      .error (.errorf "device %s layer share overflows int" [.str "a"]) ∧
    ¬ NeverRefused .overflowing hugePair 4 := by
  have refused : planLayerShards .overflowing hugePair 4 =
      .error (.errorf "device %s layer share overflows int" [.str "a"]) := by
    decide +kernel
  exact ⟨hugePair_plannable, refused, fun never => never.no_overflow_error "a" refused⟩

/-- For two layers the product is finite, and they are planned. -/
theorem planLayerShards_never_refused_huge : NeverRefused .overflowing hugePair 2 := by
  have planned : planLayerShardsWith .overflowing (fun _ _ => .finite 1) hugePair 2 =
      .ok [⟨"a", 0, 0⟩, ⟨"b", 1, 1⟩] := by
    decide +kernel
  apply (planLayerShards_never_refused_iff .overflowing rfl hugePair 2 (by decide)
    (planLayerShardsWith_eq_ok.mp planned).1).mpr
  intro d computed
  have first : (sortDevices .overflowing hugePair).dropLast = [⟨"a", .finite (8 * 10 ^ 307), ""⟩] := by
    decide +kernel
  rw [ComputesShare, first, List.mem_singleton] at computed
  subst computed
  decide +kernel

end GoExotic
