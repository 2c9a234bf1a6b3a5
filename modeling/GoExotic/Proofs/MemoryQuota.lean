/-
Module: GoExotic.Proofs.MemoryQuota
Purpose: How many layers each device gets. With exact shares the assignment loop is the allotment of the
  layers by the memory quotas of the devices, in id order: every device but the last gets its quota
  rounded down, at least one layer, and at most what leaves one layer for each later device. So every
  count stays within one layer less than there are devices of the quota.
Trusted boundary: none
Main exports: Shard.width, Device.memory, memoryQuota, layerCount_exact, assignLayers_allot,
  memoryShare_exact, NearQuota, planLayerShards_near_quota
-/
import GoExotic.Proofs.Planner
import GoExotic.Theory.Quota
import Mathlib.Algebra.BigOperators.Ring.List

namespace GoExotic

variable {go : GoLib} {totalLayers : Int}

/-- The number of layers of a shard. -/
def Shard.width (shard : Shard) : Int := shard.endLayer + 1 - shard.startLayer

/-- The memory of a device, as a number. -/
def Device.memory (d : Device) : ℚ :=
  match d.memoryGB with
  | .finite amount => amount
  | _ => 0

/-- The part of the layers a device's memory stands for. -/
def memoryQuota (devices : List Device) (totalLayers : Int) (d : Device) : ℚ :=
  totalLayers * d.memory / (devices.map Device.memory).sum

/-! ### The loop as an allotment -/

/-- A share that is a number in range counts as the allotment says. -/
theorem layerCount_exact {share : ℚ} (nonneg : 0 ≤ share) (bound : share ≤ 9223372036854775807)
    {remainingLayers count : Int} {later : ℕ} (some : later ≠ 0) (enough : later + 1 ≤ remainingLayers)
    (bounded : remainingLayers ≤ maxInt) {d : Device}
    (counted : layerCount go (.finite share) remainingLayers (later + 1) d = .ok count) :
    count = min (Quota.raised share) (remainingLayers - later) := by
  have several : (later + 1 : Int) > 1 := by omega
  simp only [layerCount, several, if_true, bind_eq_ok, failIf_eq_ok, exists_const, pure_eq_ok,
    Except.ok.injEq, maxForThis_eq (by omega : (1 : Int) ≤ later + 1) enough bounded,
    Float64.toInt_finite nonneg bound] at counted
  obtain ⟨-, rfl⟩ := counted
  rw [Quota.raised]
  split_ifs <;> omega

/-- The layers of the shards the loop appends are the allotment of what is left by the shares. -/
theorem assignLayers_allot {share : Device → Float64} {quota : Device → ℚ} {devices : Nat}
    (bounded : totalLayers ≤ maxInt) {visited : List Device}
    (exact_shares : ∀ d ∈ visited, share d = .finite (quota d) ∧ 0 ≤ quota d ∧ quota d ≤ 9223372036854775807)
    {i start : Int} {shards : List Shard}
    (keeps : AssignInvariant totalLayers devices i start visited)
    (assigned : assignLayers go share totalLayers devices i start visited = .ok shards) :
    shards.map Shard.width = Quota.allot (totalLayers - start) (visited.map quota) := by
  induction visited generalizing i start shards with
  | nil =>
      simp only [assignLayers, Except.ok.injEq] at assigned
      rw [← assigned]
      rfl
  | cons d rest inductionHypothesis =>
      simp only [assignLayers, bind_eq_ok, pure_eq_ok, Except.ok.injEq] at assigned
      obtain ⟨shard, body, others, tail, rfl⟩ := assigned
      have enough := keeps.enough
      have startNonneg := keeps.start_nonneg
      rw [List.length_cons] at enough
      push_cast at enough
      obtain ⟨-, starts, -, -, counted, noWrap, keepsNext⟩ := keeps.step bounded body
      rw [noWrap] at tail
      have layers : shard.width = shard.endLayer + 1 - start := by rw [Shard.width, starts]
      have later := inductionHypothesis (fun other member => exact_shares other (List.mem_cons_of_mem d member))
        keepsNext tail
      rw [List.map_cons, List.map_cons, later, layers]
      by_cases single : rest = []
      · -- the last device takes what is left
        subst single
        have finished := keepsNext.finished rfl
        simp only [List.map_nil, Quota.allot, finished]
      · have nonempty : rest.map quota ≠ [] := by simpa using single
        have behind : rest.length ≠ 0 := fun empty => single (List.length_eq_zero_iff.mp empty)
        obtain ⟨isNumber, nonneg, bound⟩ := exact_shares d (by simp)
        rw [isNumber] at counted
        have count := layerCount_exact nonneg bound behind (by omega) (by omega) counted
        have left : totalLayers - start - (shard.endLayer + 1 - start) = totalLayers - (shard.endLayer + 1) := by
          omega
        rw [Quota.allot_cons nonempty, List.length_map, ← count, left]

/-! ### Exact shares -/

section Exact

variable {devices : List Device}

theorem memory_of_usable {d : Device} (usable : d.memoryGB.PosFinite) :
    d.memoryGB = .finite d.memory ∧ 0 < d.memory := by
  obtain ⟨amount, positive, same⟩ := Float64.posFinite_iff.mp usable
  rw [Device.memory, same]
  exact ⟨rfl, positive⟩

/-- The exact total is the sum of the memories. -/
theorem finalTotal_sum (exact : go.float = FloatOps.exact) (usable : ∀ d ∈ devices, d.memoryGB.PosFinite)
    (total : ℚ) :
    finalTotal go (.finite total) devices = .finite (total + (devices.map Device.memory).sum) := by
  induction devices generalizing total with
  | nil => simp [finalTotal]
  | cons d rest inductionHypothesis =>
      have tail := inductionHypothesis (fun other member => usable other (List.mem_cons_of_mem d member))
        (total + d.memory)
      rw [finalTotal, List.foldl_cons, (memory_of_usable (usable d (by simp))).1, exactAdd_finite exact,
        ← finalTotal, tail, List.map_cons, List.sum_cons, add_assoc]

theorem total_pos (usable : ∀ d ∈ devices, d.memoryGB.PosFinite) (nonempty : devices ≠ []) :
    0 < (devices.map Device.memory).sum := by
  apply List.sum_pos
  · intro amount member
    obtain ⟨d, isDevice, rfl⟩ := List.mem_map.mp member
    exact (memory_of_usable (usable d isDevice)).2
  · simpa using nonempty

/-- No memory exceeds the total. -/
theorem memory_le_sum (usable : ∀ d ∈ devices, d.memoryGB.PosFinite) {d : Device} (member : d ∈ devices) :
    d.memory ≤ (devices.map Device.memory).sum := by
  apply List.single_le_sum _ _ (List.mem_map_of_mem member)
  intro amount isMemory
  obtain ⟨other, isDevice, rfl⟩ := List.mem_map.mp isMemory
  exact le_of_lt (memory_of_usable (usable other isDevice)).2

/-- The exact share of a device is its quota. -/
theorem memoryShare_exact (exact : go.float = FloatOps.exact)
    (usable : ∀ d ∈ devices, d.memoryGB.PosFinite) {d : Device} (member : d ∈ devices) :
    memoryShare go totalLayers (finalTotal go .zero devices) d =
      .finite (memoryQuota devices totalLayers d) := by
  have positive := total_pos usable (List.ne_nil_of_mem member)
  rw [memoryShare, Float64.zero, finalTotal_sum exact usable, (memory_of_usable (usable d member)).1, exact,
    zero_add]
  change (if (devices.map Device.memory).sum = 0 then _ else Float64.finite _) = _
  rw [if_neg (ne_of_gt positive)]
  rfl

/-- The quotas are positive, and add up to the layers. -/
theorem memoryQuota_pos (usable : ∀ d ∈ devices, d.memoryGB.PosFinite) (positive : 1 ≤ totalLayers)
    {d : Device} (member : d ∈ devices) : 0 < memoryQuota devices totalLayers d := by
  have total := total_pos usable (List.ne_nil_of_mem member)
  have memory := (memory_of_usable (usable d member)).2
  have layers : (0 : ℚ) < totalLayers := by exact_mod_cast positive
  rw [memoryQuota]
  positivity

theorem memoryQuota_sum (usable : ∀ d ∈ devices, d.memoryGB.PosFinite) (nonempty : devices ≠ []) :
    (devices.map (memoryQuota devices totalLayers)).sum = totalLayers := by
  have total := total_pos usable nonempty
  have split : devices.map (memoryQuota devices totalLayers) =
      devices.map fun d => (totalLayers / (devices.map Device.memory).sum : ℚ) * d.memory := by
    apply List.map_congr_left
    intro d _
    rw [memoryQuota]
    ring
  rw [split, List.sum_map_mul_left]
  exact div_mul_cancel₀ _ (ne_of_gt total)

end Exact

/-! ### The plan -/

variable {devices : List Device} {shards : List Shard}

/-- The counts of a plan, device by device in id order, next to the quotas. -/
structure NearQuota (go : GoLib) (devices : List Device) (totalLayers : Int) (shards : List Shard) :
    Prop where
  in_id_order : shards.map Shard.deviceID = (sortDevices go devices).map Device.id ∧
    (shards.map Shard.deviceID).Pairwise (· < ·)
  near : ∀ (i : ℕ) d shard, (sortDevices go devices)[i]? = some d → shards[i]? = some shard →
    |(shard.width : ℚ) - memoryQuota devices totalLayers d| < devices.length - 1
  /-- All but the last get the quota rounded down, at least one layer, unless the cap binds, which leaves
  one layer for each later device. -/
  capped : ∀ (i : ℕ) d shard, (sortDevices go devices)[i]? = some d → shards[i]? = some shard →
    i + 1 < devices.length →
    shard.width = min (max 1 ⌊memoryQuota devices totalLayers d⌋)
      (totalLayers - shard.startLayer - (devices.length - 1 - i))
  /-- Behind a device whose count the cap has cut everyone gets one layer. -/
  after_cut : ∀ (i j : ℕ) d shard later, (sortDevices go devices)[i]? = some d → shards[i]? = some shard →
    i + 1 < devices.length → i < j → shards[j]? = some later →
    totalLayers - shard.startLayer - (devices.length - 1 - i) <
      max 1 ⌊memoryQuota devices totalLayers d⌋ →
    later.width = 1

/-- The exact quotas of a plannable list are a balanced start of the allotment. -/
theorem Plannable.balanced (plannable : Plannable go devices totalLayers) :
    Quota.Balanced 0 totalLayers ((sortDevices go devices).map (memoryQuota devices totalLayers)) := by
  have perm := (sortDevices_perm go devices).map (memoryQuota devices totalLayers)
  have some := plannable.devices_pos
  have nonempty : devices ≠ [] := by
    rintro rfl
    simp at some
  refine ⟨?_, ?_, ?_, fun started => absurd rfl started⟩
  · intro quota member
    obtain ⟨d, isDevice, rfl⟩ := List.mem_map.mp (perm.mem_iff.mp member)
    exact memoryQuota_pos plannable.memories_usable plannable.layers_pos isDevice
  · rw [List.length_map, length_sortDevices]
    exact plannable.fits
  · intro _
    rw [perm.sum_eq]
    exact memoryQuota_sum plannable.memories_usable nonempty

/-- With exact shares the layers of the shards are the allotment by the quotas. -/
theorem planned_allot (exact : go.float = FloatOps.exact) (bounded : totalLayers ≤ maxInt)
    (planned : planLayerShards go devices totalLayers = .ok shards) :
    shards.map Shard.width =
      Quota.allot totalLayers ((sortDevices go devices).map (memoryQuota devices totalLayers)) := by
  obtain ⟨plannable, assigned, -⟩ := planLayerShardsWith_eq_ok.mp planned
  have balanced := plannable.balanced
  have usable : ∀ d ∈ sortDevices go devices, d.memoryGB.PosFinite :=
    fun d member => plannable.memories_usable d (mem_sortDevices.mp member)
  have sameQuota : memoryQuota (sortDevices go devices) totalLayers = memoryQuota devices totalLayers := by
    funext d
    rw [memoryQuota, memoryQuota, ((sortDevices_perm go devices).map Device.memory).sum_eq]
  have layersBound : (totalLayers : ℚ) ≤ 9223372036854775807 := by exact_mod_cast bounded
  have whole : shards.map Shard.width = Quota.allot (totalLayers - 0)
      ((sortDevices go devices).map (memoryQuota devices totalLayers)) := by
    refine assignLayers_allot bounded ?_ plannable.initial assigned
    intro d member
    have share : memoryShare go totalLayers (finalTotal go .zero (sortDevices go devices)) d =
        .finite (memoryQuota devices totalLayers d) := by
      rw [memoryShare_exact exact usable member, sameQuota]
    have isQuota : memoryQuota devices totalLayers d ∈
        (sortDevices go devices).map (memoryQuota devices totalLayers) := List.mem_map_of_mem member
    have below := List.single_le_sum (fun quota isOther => le_of_lt (balanced.positive quota isOther)) _ isQuota
    rw [balanced.first rfl] at below
    exact ⟨share, le_of_lt (balanced.positive _ isQuota), below.trans layersBound⟩
  rwa [Int.sub_zero] at whole

/-- The cap of a device, by the start of its shard. -/
theorem capAt_eq {quotas : List ℚ} (tiles : ShardsTile 0 shards totalLayers)
    (counts : shards.map Shard.width = Quota.allot totalLayers quotas) {i : ℕ} {shard : Shard}
    (found : shards[i]? = some shard) :
    Quota.capAt totalLayers quotas i = totalLayers - shard.startLayer - (quotas.length - 1 - i) := by
  have starts : shard.startLayer = 0 + ((shards.take i).map Shard.width).sum := tiles.first_eq found
  rw [Quota.capAt, ← counts, starts, List.map_take, zero_add]

/-- With exact shares every accepted plan for at least two devices is near the quotas. -/
theorem planLayerShards_near_quota (go : GoLib) (exact : go.float = FloatOps.exact) (devices : List Device)
    (totalLayers : Int) (bounded : totalLayers ≤ maxInt) (several : 2 ≤ devices.length)
    (shards : List Shard) (planned : planLayerShards go devices totalLayers = .ok shards) :
    NearQuota go devices totalLayers shards := by
  obtain ⟨plannable, -, accepted⟩ := planLayerShardsWith_eq_ok.mp planned
  have length := length_sortDevices go devices
  have tiles := (OrderedPartition.of_validatePlan accepted).2.tiles
  have counts := planned_allot exact bounded planned
  have ids := planLayerShardsWith_ids planned
  have quota_at : ∀ {i : ℕ} {d : Device}, (sortDevices go devices)[i]? = some d →
      ((sortDevices go devices).map (memoryQuota devices totalLayers))[i]? =
        some (memoryQuota devices totalLayers d) := by
    intro i d found
    rw [List.getElem?_map, found]
    rfl
  have count_at : ∀ {i : ℕ} {shard : Shard}, shards[i]? = some shard →
      (Quota.allot totalLayers ((sortDevices go devices).map (memoryQuota devices totalLayers)))[i]? =
        some shard.width := by
    intro i shard found
    rw [← counts, List.getElem?_map, found]
    rfl
  have cap_at : ∀ {i : ℕ} {shard : Shard}, shards[i]? = some shard →
      Quota.capAt totalLayers ((sortDevices go devices).map (memoryQuota devices totalLayers)) i =
        totalLayers - shard.startLayer - (devices.length - 1 - i) := by
    intro i shard found
    rw [capAt_eq tiles counts found, List.length_map, length]
  refine ⟨⟨ids, ?_⟩, ?_, ?_, ?_⟩
  · rw [ids, List.pairwise_map]
    exact go.sort.byKey_pairwise_lt _ plannable.ids_distinct
  · intro i d shard isDevice isShard
    have near := Quota.allot_near plannable.balanced (by rw [List.length_map]; omega) i _ _
      (quota_at isDevice) (count_at isShard)
    rwa [List.length_map, length, Nat.cast_zero, zero_add] at near
  · intro i d shard isDevice isShard notLast
    have count := count_at isShard
    rw [Quota.allot_at (quota_at isDevice) (by rw [List.length_map]; omega), cap_at isShard,
      Option.some.injEq] at count
    exact count.symm
  · intro i j d shard later isDevice isShard notLast behind isLater cut
    rw [← cap_at isShard] at cut
    exact Quota.allot_after_cut (quota_at isDevice) (by rw [List.length_map]; omega) cut behind
      (count_at isLater)

/-- The cap cuts the count of the first of three devices, whose quota is 200/51. -/
theorem planLayerShards_near_quota_three :
    NearQuota .plain [⟨"c", .finite (1 / 10), ""⟩, ⟨"a", .finite 10, ""⟩, ⟨"b", .finite (1 / 10), ""⟩] 4
      [⟨"a", 0, 1⟩, ⟨"b", 2, 2⟩, ⟨"c", 3, 3⟩] := by
  have planned : planLayerShards .plain
      [⟨"c", .finite (1 / 10), ""⟩, ⟨"a", .finite 10, ""⟩, ⟨"b", .finite (1 / 10), ""⟩] 4 =
        .ok [⟨"a", 0, 1⟩, ⟨"b", 2, 2⟩, ⟨"c", 3, 3⟩] := by
    decide +kernel
  exact planLayerShards_near_quota .plain rfl _ 4 (by decide) (by decide) _ planned

end GoExotic
