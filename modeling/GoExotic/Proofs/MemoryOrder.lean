/-
Module: GoExotic.Proofs.MemoryOrder
Purpose: How the layers of a device depend on its memory. The counts of a plan with exact shares have a
  closed form: the plain count of a device, its quota rounded down but at least one layer, cut to the room
  the plain counts before it leave. Of two devices in one plan the larger one can get fewer layers, and it
  is stated exactly when; in two plans that differ in the memory of one device, the device gets at least
  as many layers for the larger one.
Trusted boundary: none
Main exports: plainCount, roomFor, Serves, MemoryOrder, planLayerShards_memory_order, withMemory,
  MoreMemory, planLayerShards_more_memory
-/
import GoExotic.Proofs.MemoryQuota

namespace GoExotic

variable {go : GoLib} {devices : List Device} {totalLayers : Int} {shards : List Shard}

/-! ### One plan -/

/-- The quota of a device rounded down, but at least one layer. -/
def plainCount (devices : List Device) (totalLayers : Int) (d : Device) : Int :=
  Quota.raised (memoryQuota devices totalLayers d)

/-- The layers left for the device at position `i` in id order, if every device before it takes its plain
count and one layer is kept for every device behind it. -/
def roomFor (go : GoLib) (devices : List Device) (totalLayers : Int) (i : ℕ) : Int :=
  Quota.roomAt totalLayers ((sortDevices go devices).map (memoryQuota devices totalLayers)) i

/-- The device at position `i` in id order, with its shard. -/
structure Serves (go : GoLib) (devices : List Device) (shards : List Shard) (i : ℕ) (d : Device)
    (shard : Shard) : Prop where
  device : (sortDevices go devices)[i]? = some d
  shard : shards[i]? = some shard

theorem Serves.member {i : ℕ} {d : Device} {shard : Shard} (serves : Serves go devices shards i d shard) :
    d ∈ devices :=
  mem_sortDevices.mp (List.mem_of_getElem? serves.device)

/-- The layers of a shard are a count of the division by quotas. -/
theorem Serves.countAt (exact : go.float = FloatOps.exact) (bounded : totalLayers ≤ maxInt)
    (planned : planLayerShards go devices totalLayers = .ok shards) {i : ℕ} {d : Device} {shard : Shard}
    (serves : Serves go devices shards i d shard) :
    Quota.CountAt totalLayers ((sortDevices go devices).map (memoryQuota devices totalLayers)) i
      (memoryQuota devices totalLayers d) shard.width := by
  obtain ⟨plannable, -, -⟩ := planLayerShardsWith_eq_ok.mp planned
  constructor
  · rw [List.length_map, length_sortDevices]
    exact plannable.fits
  · rw [List.getElem?_map, serves.device]
    rfl
  · rw [← planned_allot exact bounded planned, List.getElem?_map, serves.shard]
    rfl

/-- More memory is a larger quota. -/
theorem memoryQuota_mono (usable : ∀ d ∈ devices, d.memoryGB.PosFinite) (positive : 1 ≤ totalLayers)
    {d larger : Device} (member : d ∈ devices) (more : d.memory ≤ larger.memory) :
    memoryQuota devices totalLayers d ≤ memoryQuota devices totalLayers larger := by
  have total := total_pos usable (List.ne_nil_of_mem member)
  have layers : (0 : ℚ) ≤ totalLayers := by exact_mod_cast (by omega : (0 : Int) ≤ totalLayers)
  rw [memoryQuota, memoryQuota]
  gcongr

/-- When, of two devices of a plan, the one with more memory gets at least as many layers. -/
structure MemoryOrder (go : GoLib) (devices : List Device) (totalLayers : Int) (shards : List Shard) :
    Prop where
  /-- Always, if it comes first in id order and the other is not the last. -/
  earlier : ∀ (i j : ℕ) a b sa sb, Serves go devices shards i a sa → Serves go devices shards j b sb →
    b.memory < a.memory → i < j → j + 1 < devices.length → sb.width ≤ sa.width
  /-- If the other is the last device, exactly where the room for that one is at most its plain count. -/
  before_last : ∀ (i j : ℕ) a b sa sb, Serves go devices shards i a sa → Serves go devices shards j b sb →
    b.memory < a.memory → i < j → j + 1 = devices.length →
      (sb.width ≤ sa.width ↔ roomFor go devices totalLayers j ≤ plainCount devices totalLayers a)
  /-- If it comes behind the other, exactly where it has room for the plain count of the other, or the
  other had room for one layer only. -/
  behind : ∀ (i j : ℕ) a b sa sb, Serves go devices shards i a sa → Serves go devices shards j b sb →
    b.memory < a.memory → j < i →
      (sb.width ≤ sa.width ↔ plainCount devices totalLayers b ≤ max 1 (roomFor go devices totalLayers i) ∨
        roomFor go devices totalLayers j ≤ 1)
  /-- Always, where every quota comes to a layer and the other is not the last device. -/
  whole_quotas : (∀ d ∈ devices, 1 ≤ memoryQuota devices totalLayers d) →
    ∀ (i j : ℕ) a b sa sb, Serves go devices shards i a sa → Serves go devices shards j b sb →
      b.memory < a.memory → j + 1 < devices.length → sb.width ≤ sa.width

/-- Where every quota comes to a layer there is room for every plain count. -/
theorem plainCount_le_roomFor (plannable : Plannable go devices totalLayers)
    (whole : ∀ d ∈ devices, 1 ≤ memoryQuota devices totalLayers d) {i : ℕ} {d : Device}
    (found : (sortDevices go devices)[i]? = some d) :
    plainCount devices totalLayers d ≤ roomFor go devices totalLayers i := by
  have quotas : ∀ quota ∈ (sortDevices go devices).map (memoryQuota devices totalLayers), 1 ≤ quota := by
    intro quota member
    obtain ⟨other, isDevice, rfl⟩ := List.mem_map.mp member
    exact whole other (mem_sortDevices.mp isDevice)
  have isQuota : ((sortDevices go devices).map (memoryQuota devices totalLayers))[i]? =
      some (memoryQuota devices totalLayers d) := by
    rw [List.getElem?_map, found]
    rfl
  have room := Quota.share_le_roomAt quotas (le_of_eq (plannable.balanced.first rfl)) isQuota
  have atLeast : (1 : Int) ≤ Quota.roomAt totalLayers
      ((sortDevices go devices).map (memoryQuota devices totalLayers)) i := by
    exact_mod_cast (quotas _ (List.mem_of_getElem? isQuota)).trans room
  exact max_le atLeast ((Int.floor_le_floor room).trans_eq (Int.floor_intCast _))

/-- With exact shares, of two devices the one with more memory gets at least as many layers exactly under
these conditions. -/
theorem planLayerShards_memory_order (go : GoLib) (exact : go.float = FloatOps.exact)
    (devices : List Device) (totalLayers : Int) (bounded : totalLayers ≤ maxInt) (shards : List Shard)
    (planned : planLayerShards go devices totalLayers = .ok shards) :
    MemoryOrder go devices totalLayers shards := by
  obtain ⟨plannable, -, -⟩ := planLayerShardsWith_eq_ok.mp planned
  have length : ((sortDevices go devices).map (memoryQuota devices totalLayers)).length = devices.length := by
    rw [List.length_map, length_sortDevices]
  have ordered : ∀ {a b : Device}, b ∈ devices → b.memory < a.memory →
      plainCount devices totalLayers b ≤ plainCount devices totalLayers a := by
    intro a b member less
    exact Quota.raised_mono
      (memoryQuota_mono plannable.memories_usable plannable.layers_pos member (le_of_lt less))
  have earlier : ∀ (i j : ℕ) a b sa sb, Serves go devices shards i a sa → Serves go devices shards j b sb →
      b.memory < a.memory → i < j → j + 1 < devices.length → sb.width ≤ sa.width := by
    intro i j a b sa sb servesA servesB less before notLast
    exact (servesA.countAt exact bounded planned).le_earlier (servesB.countAt exact bounded planned) before
      (length ▸ notLast) (ordered servesB.member less)
  have behind : ∀ (i j : ℕ) a b sa sb, Serves go devices shards i a sa → Serves go devices shards j b sb →
      b.memory < a.memory → j < i →
        (sb.width ≤ sa.width ↔ plainCount devices totalLayers b ≤ max 1 (roomFor go devices totalLayers i) ∨
          roomFor go devices totalLayers j ≤ 1) := by
    intro i j a b sa sb servesA servesB less before
    exact (servesB.countAt exact bounded planned).le_later_iff (servesA.countAt exact bounded planned) before
      (ordered servesB.member less)
  refine ⟨earlier, ?_, behind, ?_⟩
  · intro i j a b sa sb servesA servesB _ before last
    exact (servesA.countAt exact bounded planned).last_le_iff (servesB.countAt exact bounded planned) before
      (length ▸ last)
  · intro whole i j a b sa sb servesA servesB less notLast
    rcases Nat.lt_trichotomy i j with before | same | after
    · exact earlier i j a b sa sb servesA servesB less before notLast
    · subst same
      have sameDevice : a = b := Option.some.inj (servesA.device.symm.trans servesB.device)
      exact absurd less (by rw [sameDevice]; exact lt_irrefl _)
    · apply (behind i j a b sa sb servesA servesB less after).mpr
      have fits := plainCount_le_roomFor plannable whole servesA.device
      exact Or.inl (((ordered servesB.member less).trans fits).trans (le_max_right _ _))

/-- Three devices whose quotas of four layers are 3/2, 3/2 and 1. -/
def lastSmallest : List Device := [⟨"a", .finite 3, ""⟩, ⟨"b", .finite 3, ""⟩, ⟨"c", .finite 2, ""⟩]

/-- The smallest of the three comes last and gets what is left, more than `a` gets. -/
theorem planLayerShards_last_exceeds_larger :
    planLayerShards .plain lastSmallest 4 = .ok [⟨"a", 0, 0⟩, ⟨"b", 1, 1⟩, ⟨"c", 2, 3⟩] ∧
      ¬ ∀ (i j : ℕ) a b sa sb,
        Serves .plain lastSmallest [⟨"a", 0, 0⟩, ⟨"b", 1, 1⟩, ⟨"c", 2, 3⟩] i a sa →
          Serves .plain lastSmallest [⟨"a", 0, 0⟩, ⟨"b", 1, 1⟩, ⟨"c", 2, 3⟩] j b sb →
            b.memory < a.memory → sb.width ≤ sa.width := by
  refine ⟨by decide +kernel, ?_⟩
  intro monotone
  have fewer := monotone 0 2 ⟨"a", .finite 3, ""⟩ ⟨"c", .finite 2, ""⟩ ⟨"a", 0, 0⟩ ⟨"c", 2, 3⟩
    ⟨by decide +kernel, rfl⟩ ⟨by decide +kernel, rfl⟩ (by decide +kernel)
  exact absurd fewer (by decide)

/-- In that plan the room for the last device, two layers, exceeds the plain count of `a`. -/
theorem planLayerShards_memory_order_three :
    ¬ roomFor .plain lastSmallest 4 2 ≤ plainCount lastSmallest 4 ⟨"a", .finite 3, ""⟩ := by
  have order := planLayerShards_memory_order .plain rfl lastSmallest 4 (by decide)
    [⟨"a", 0, 0⟩, ⟨"b", 1, 1⟩, ⟨"c", 2, 3⟩] (by decide +kernel)
  rw [← order.before_last 0 2 ⟨"a", .finite 3, ""⟩ ⟨"c", .finite 2, ""⟩ ⟨"a", 0, 0⟩ ⟨"c", 2, 3⟩
    ⟨by decide +kernel, rfl⟩ ⟨by decide +kernel, rfl⟩ (by decide +kernel) (by decide) rfl]
  decide

/-! ### Two plans -/

/-- The list entry of a device, with another memory if it is the one with this id. -/
def withMemory (id : String) (amount : Float64) (d : Device) : Device :=
  if d.id = id then { d with memoryGB := amount } else d

@[simp] theorem withMemory_id (id : String) (amount : Float64) (d : Device) :
    (withMemory id amount d).id = d.id := by
  rw [withMemory]
  split_ifs <;> rfl

theorem withMemory_self (amount : Float64) (d : Device) :
    withMemory d.id amount d = { d with memoryGB := amount } := if_pos rfl

theorem withMemory_of_ne {id : String} {d : Device} (other : d.id ≠ id) (amount : Float64) :
    withMemory id amount d = d := if_neg other

/-- The devices are sorted by id, whatever their memories. -/
theorem sortDevices_withMemory (distinct : (devices.map Device.id).Nodup) (id : String) (amount : Float64) :
    sortDevices go (devices.map (withMemory id amount)) = (sortDevices go devices).map (withMemory id amount) := by
  apply go.sort.byKey_eq
  · exact (sortDevices_perm go devices).symm.map _
  · rw [List.pairwise_map]
    simp only [withMemory_id]
    exact go.sort.byKey_pairwise_lt _ distinct

/-- The total changes by what the memory of the one device changes by. -/
theorem sum_withMemory (distinct : (devices.map Device.id).Nodup) {d : Device} (member : d ∈ devices)
    (larger : ℚ) :
    ((devices.map (withMemory d.id (.finite larger))).map Device.memory).sum =
      (devices.map Device.memory).sum - d.memory + larger := by
  induction devices with
  | nil => cases member
  | cons head rest inductionHypothesis =>
      rw [List.map_cons, List.nodup_cons] at distinct
      rw [List.map_cons, List.map_cons, List.map_cons, List.sum_cons, List.sum_cons]
      rcases List.mem_cons.mp member with rfl | inRest
      · have others : rest.map (withMemory d.id (.finite larger)) = rest := by
          conv_rhs => rw [← List.map_id rest]
          apply List.map_congr_left
          intro other isOther
          apply withMemory_of_ne
          intro same
          exact distinct.1 (same ▸ List.mem_map_of_mem isOther)
        rw [others, withMemory_self]
        change larger + _ = _
        ring
      · have different : head.id ≠ d.id := by
          intro same
          exact distinct.1 (same ▸ List.mem_map_of_mem inRest)
        rw [withMemory_of_ne different, inductionHypothesis distinct.2 inRest]
        ring

section Richer

variable {d : Device} {larger : ℚ}

/-- The quota of the device with more memory is not smaller. -/
theorem memoryQuota_withMemory_self (plannable : Plannable go devices totalLayers) (member : d ∈ devices)
    (more : d.memory < larger) :
    memoryQuota devices totalLayers d ≤ memoryQuota (devices.map (withMemory d.id (.finite larger)))
      totalLayers (withMemory d.id (.finite larger) d) := by
  have total := total_pos plannable.memories_usable (List.ne_nil_of_mem member)
  have part := memory_le_sum plannable.memories_usable member
  have layers : (1 : ℚ) ≤ totalLayers := by exact_mod_cast plannable.layers_pos
  have amount : (withMemory d.id (.finite larger) d).memory = larger := by
    rw [withMemory_self]
    rfl
  rw [memoryQuota, memoryQuota, sum_withMemory plannable.ids_distinct member, amount,
    div_le_div_iff₀ total (by linarith)]
  -- the larger memory gains by the share the others have of the total
  have gain : 0 ≤ (larger - d.memory) * ((devices.map Device.memory).sum - d.memory) :=
    mul_nonneg (by linarith) (by linarith)
  nlinarith [mul_nonneg (by linarith : (0 : ℚ) ≤ totalLayers) gain]

/-- The quotas of all other devices are not larger. -/
theorem memoryQuota_withMemory_of_ne (plannable : Plannable go devices totalLayers) (member : d ∈ devices)
    (more : d.memory < larger) {other : Device} (isDevice : other ∈ devices) (different : other.id ≠ d.id) :
    memoryQuota (devices.map (withMemory d.id (.finite larger))) totalLayers
        (withMemory d.id (.finite larger) other) ≤ memoryQuota devices totalLayers other := by
  have total := total_pos plannable.memories_usable (List.ne_nil_of_mem member)
  have positive := (memory_of_usable (plannable.memories_usable other isDevice)).2
  have layers : (1 : ℚ) ≤ totalLayers := by exact_mod_cast plannable.layers_pos
  rw [memoryQuota, memoryQuota, sum_withMemory plannable.ids_distinct member, withMemory_of_ne different]
  apply div_le_div_of_nonneg_left _ total (by linarith)
  positivity

/-- With more memory in one device the list is still planned. -/
theorem planLayerShards_withMemory (exact : go.float = FloatOps.exact) (bounded : totalLayers ≤ maxInt)
    (plannable : Plannable go devices totalLayers) (positive : 0 < larger) :
    ∃ richer, planLayerShards go (devices.map (withMemory d.id (.finite larger))) totalLayers = .ok richer := by
  have sameIds : (devices.map (withMemory d.id (.finite larger))).map Device.id = devices.map Device.id := by
    rw [List.map_map]
    apply List.map_congr_left
    intro other _
    exact withMemory_id _ _ other
  apply planLayerShards_exact exact bounded
  · rw [List.length_map]
    exact plannable.devices_pos
  · rw [List.length_map]
    exact plannable.fits
  · intro other member
    obtain ⟨original, isDevice, rfl⟩ := List.mem_map.mp member
    rw [withMemory_id]
    exact plannable.ids_nonempty original isDevice
  · rw [sameIds]
    exact plannable.ids_distinct
  · intro other member
    obtain ⟨original, isDevice, rfl⟩ := List.mem_map.mp member
    by_cases same : original.id = d.id
    · rw [withMemory, if_pos same]
      exact Float64.posFinite_finite.mpr positive
    · rw [withMemory_of_ne same]
      exact plannable.memories_usable original isDevice

end Richer

/-- The plans before and after a device gets more memory. -/
structure MoreMemory (shards richer : List Shard) (id : String) : Prop where
  given : ∃ shard ∈ shards, shard.deviceID = id
  given_richer : ∃ shard ∈ richer, shard.deviceID = id
  no_fewer : ∀ shard ∈ shards, ∀ more ∈ richer, shard.deviceID = id → more.deviceID = id →
    shard.width ≤ more.width

/-- The id of a device that comes before a position is smaller than the id there. -/
theorem id_lt_of_mem_take {sorted : List Device} (ascending : sorted.Pairwise fun a b => a.id < b.id) {i : ℕ}
    {d other : Device} (found : sorted[i]? = some d) (taken : other ∈ sorted.take i) : other.id < d.id := by
  obtain ⟨inside, rfl⟩ := List.getElem?_eq_some_iff.mp found
  obtain ⟨k, before, rfl⟩ := List.mem_take_iff_getElem.mp taken
  exact List.pairwise_iff_getElem.mp ascending k i (by omega) inside (by omega)

/-- One id stands at one position only. -/
theorem position_unique {sorted : List Device} (ascending : sorted.Pairwise fun a b => a.id < b.id) {i j : ℕ}
    {d other : Device} (found : sorted[i]? = some d) (there : sorted[j]? = some other)
    (same : d.id = other.id) : i = j := by
  obtain ⟨insideI, rfl⟩ := List.getElem?_eq_some_iff.mp found
  obtain ⟨insideJ, rfl⟩ := List.getElem?_eq_some_iff.mp there
  rcases Nat.lt_trichotomy i j with before | equal | after
  · exact absurd same (ne_of_lt (List.pairwise_iff_getElem.mp ascending i j insideI insideJ before))
  · exact equal
  · exact absurd same.symm (ne_of_lt (List.pairwise_iff_getElem.mp ascending j i insideJ insideI after))

/-- A shard of a plan that carries the id of a device is the one at the position of the device. -/
theorem serves_of_deviceID (planned : planLayerShards go devices totalLayers = .ok shards) {d : Device}
    (member : d ∈ devices) {shard : Shard} (isShard : shard ∈ shards) (named : shard.deviceID = d.id) :
    ∃ i, Serves go devices shards i d shard := by
  obtain ⟨plannable, -, -⟩ := planLayerShardsWith_eq_ok.mp planned
  have ids := planLayerShardsWith_ids planned
  obtain ⟨i, found⟩ := List.mem_iff_getElem?.mp isShard
  have here : ((sortDevices go devices).map Device.id)[i]? = some d.id := by
    rw [← ids, List.getElem?_map, found, Option.map_some, named]
  rw [List.getElem?_map] at here
  obtain ⟨other, isOther, sameId⟩ := Option.map_eq_some_iff.mp here
  have same : other = d := List.inj_on_of_nodup_map plannable.ids_distinct
    (mem_sortDevices.mp (List.mem_of_getElem? isOther)) member sameId
  exact ⟨i, same ▸ isOther, found⟩

theorem exists_shard (planned : planLayerShards go devices totalLayers = .ok shards) {d : Device}
    (member : d ∈ devices) : ∃ shard ∈ shards, shard.deviceID = d.id := by
  have ids := planLayerShardsWith_ids planned
  have named : d.id ∈ shards.map Shard.deviceID := by
    rw [ids]
    exact List.mem_map_of_mem (mem_sortDevices.mpr member)
  exact List.mem_map.mp named

/-- With exact shares, a device that gets more memory, all others unchanged, keeps its layers. -/
theorem planLayerShards_more_memory (go : GoLib) (exact : go.float = FloatOps.exact) (devices : List Device)
    (totalLayers : Int) (bounded : totalLayers ≤ maxInt) (shards : List Shard)
    (planned : planLayerShards go devices totalLayers = .ok shards) (d : Device) (member : d ∈ devices)
    (larger : ℚ) (more : d.memory < larger) :
    ∃ richer,
      planLayerShards go (devices.map (withMemory d.id (.finite larger))) totalLayers = .ok richer ∧
        MoreMemory shards richer d.id := by
  obtain ⟨plannable, -, -⟩ := planLayerShardsWith_eq_ok.mp planned
  have positive := (memory_of_usable (plannable.memories_usable d member)).2
  obtain ⟨richer, planned'⟩ := planLayerShards_withMemory exact bounded plannable (positive.trans more)
  have isDevice : withMemory d.id (.finite larger) d ∈ devices.map (withMemory d.id (.finite larger)) :=
    List.mem_map_of_mem member
  refine ⟨richer, planned', exists_shard planned member, ?_, ?_⟩
  · have given := exists_shard planned' isDevice
    rwa [withMemory_id] at given
  intro shard isShard shard' isShard' named named'
  obtain ⟨i, serves⟩ := serves_of_deviceID planned member isShard named
  obtain ⟨j, serves'⟩ := serves_of_deviceID planned' isDevice isShard' (named'.trans (withMemory_id ..).symm)
  have sorted : sortDevices go (devices.map (withMemory d.id (.finite larger))) =
      (sortDevices go devices).map (withMemory d.id (.finite larger)) :=
    sortDevices_withMemory plannable.ids_distinct d.id (.finite larger)
  have ascending : (sortDevices go devices).Pairwise fun a b => a.id < b.id :=
    go.sort.byKey_pairwise_lt _ plannable.ids_distinct
  have samePosition : i = j := by
    have there := serves'.device
    rw [sorted, List.getElem?_map] at there
    obtain ⟨other, isOther, same⟩ := Option.map_eq_some_iff.mp there
    have sameId : other.id = d.id := by
      rw [← withMemory_id d.id (.finite larger) other, same, withMemory_id]
    exact position_unique ascending serves.device isOther sameId.symm
  subst samePosition
  have gets := serves.countAt exact bounded planned
  have getsMore := serves'.countAt exact bounded planned'
  apply gets.mono getsMore
  · rw [sorted, List.length_map, List.length_map, List.length_map]
  · exact Quota.raised_mono (memoryQuota_withMemory_self plannable member more)
  · -- the devices before it have smaller quotas now, so they leave more room
    rw [sorted, List.map_map]
    apply Quota.roomAt_mono
    intro other taken
    have isOther := mem_sortDevices.mp (List.mem_of_mem_take taken)
    exact Quota.raised_mono (memoryQuota_withMemory_of_ne plannable member more isOther
      (ne_of_lt (id_lt_of_mem_take ascending serves.device taken)))

/-- The second of three devices gets more memory, and two layers instead of one. -/
theorem planLayerShards_more_memory_three :
    ∃ richer, planLayerShards .plain (lastSmallest.map (withMemory "b" (.finite 20))) 4 = .ok richer ∧
      MoreMemory [⟨"a", 0, 0⟩, ⟨"b", 1, 1⟩, ⟨"c", 2, 3⟩] richer "b" :=
  planLayerShards_more_memory .plain rfl lastSmallest 4 (by decide)
    [⟨"a", 0, 0⟩, ⟨"b", 1, 1⟩, ⟨"c", 2, 3⟩] (by decide +kernel) ⟨"b", .finite 3, ""⟩ (by simp [lastSmallest]) 20
    (by decide +kernel)

end GoExotic
