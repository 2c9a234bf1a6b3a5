/-
Module: GoExotic.Theory.Tiling
Purpose: Lists of closed integer ranges that tile a half-open interval: the first starts at the lower
  end, each next one starts right after the previous one's end, none is empty, and the last ends right
  before the upper end. The ranges are read off arbitrary records by two projections. A tiling covers
  every cell of the interval exactly once, and its cells listed range by range are the cells of the
  interval in order.
Trusted boundary: none
Main exports: Tiles, Tiles.bounds, Tiles.starts_ascend, Tiles.cover, Tiles.owner_unique, Tiles.first_eq, cells,
  Tiles.flatMap_cells, tiles_of_flatMap_cells, span, tiles_iff_flatMap_span, owners, tiles_iff_owners
-/
import Mathlib.Algebra.Order.Ring.Int
import Mathlib.Data.Int.Range
import Mathlib.Data.List.Basic
import Mathlib.Data.List.Nodup

namespace Tiling

variable {α β : Type}

/-- The ranges `[first r, last r]` of a list tile `[lo, hi)`. -/
def Tiles (first last : α → Int) : Int → List α → Int → Prop
  | lo, [], hi => lo = hi
  | lo, r :: rest, hi => first r = lo ∧ first r ≤ last r ∧ Tiles first last (last r + 1) rest hi

instance Tiles.decidable (first last : α → Int) :
    ∀ lo ranges hi, Decidable (Tiles first last lo ranges hi)
  | lo, [], hi => inferInstanceAs (Decidable (lo = hi))
  | lo, r :: rest, hi =>
      have := Tiles.decidable first last (last r + 1) rest hi
      inferInstanceAs
        (Decidable (first r = lo ∧ first r ≤ last r ∧ Tiles first last (last r + 1) rest hi))

namespace Tiles

variable {first last : α → Int}

theorem nil_iff {lo hi : Int} : Tiles first last lo [] hi ↔ lo = hi := Iff.rfl

theorem cons_iff {lo hi : Int} {r : α} {rest : List α} :
    Tiles first last lo (r :: rest) hi ↔
      first r = lo ∧ first r ≤ last r ∧ Tiles first last (last r + 1) rest hi := Iff.rfl

/-- Reading the ranges off through a projection or off the projected list is the same. -/
theorem map_iff (f : β → α) {ranges : List β} {lo hi : Int} :
    Tiles first last lo (ranges.map f) hi ↔
      Tiles (fun b => first (f b)) (fun b => last (f b)) lo ranges hi := by
  induction ranges generalizing lo with
  | nil => exact Iff.rfl
  | cons r rest inductionHypothesis =>
      simp only [List.map_cons, cons_iff, inductionHypothesis]

theorem le {ranges : List α} {lo hi : Int} (tiles : Tiles first last lo ranges hi) : lo ≤ hi := by
  induction ranges generalizing lo with
  | nil => exact Int.le_of_eq tiles
  | cons r rest inductionHypothesis =>
      obtain ⟨starts, nonempty, tail⟩ := tiles
      have := inductionHypothesis tail
      omega

/-- Every range is nonempty and lies inside the interval. -/
theorem bounds {ranges : List α} {lo hi : Int} (tiles : Tiles first last lo ranges hi) :
    ∀ r ∈ ranges, lo ≤ first r ∧ first r ≤ last r ∧ last r < hi := by
  induction ranges generalizing lo with
  | nil => simp
  | cons head rest inductionHypothesis =>
      obtain ⟨starts, nonempty, tail⟩ := tiles
      intro r member
      rcases List.mem_cons.mp member with rfl | inRest
      · have := tail.le
        omega
      · have := inductionHypothesis tail r inRest
        omega

/-- Earlier ranges end before later ones start. -/
theorem ordered {ranges : List α} {lo hi : Int} (tiles : Tiles first last lo ranges hi) :
    ranges.Pairwise fun a b => last a < first b := by
  induction ranges generalizing lo with
  | nil => exact List.Pairwise.nil
  | cons head rest inductionHypothesis =>
      obtain ⟨-, -, tail⟩ := tiles
      refine List.pairwise_cons.mpr ⟨?_, inductionHypothesis tail⟩
      intro later member
      have := tail.bounds later member
      omega

/-- The starts strictly ascend. -/
theorem starts_ascend {ranges : List α} {lo hi : Int} (tiles : Tiles first last lo ranges hi) :
    ranges.Pairwise fun a b => first a < first b := by
  have apart := tiles.ordered
  refine List.Pairwise.imp_of_mem ?_ apart
  intro a b aMember _ before
  have := tiles.bounds a aMember
  omega

/-- Every cell of the interval lies in some range. -/
theorem cover {ranges : List α} {lo hi : Int} (tiles : Tiles first last lo ranges hi) {cell : Int}
    (above : lo ≤ cell) (below : cell < hi) : ∃ r ∈ ranges, first r ≤ cell ∧ cell ≤ last r := by
  induction ranges generalizing lo with
  | nil =>
      have : lo = hi := tiles
      omega
  | cons head rest inductionHypothesis =>
      obtain ⟨starts, nonempty, tail⟩ := tiles
      by_cases inHead : cell ≤ last head
      · exact ⟨head, by simp, by omega, inHead⟩
      · obtain ⟨r, member, inside⟩ := inductionHypothesis tail (by omega)
        exact ⟨r, List.mem_cons_of_mem _ member, inside⟩

/-- No cell lies in two ranges: positions that hold one cell are equal. -/
theorem owner_unique {ranges : List α} {lo hi : Int} (tiles : Tiles first last lo ranges hi)
    {a b : α} (aMember : a ∈ ranges) (bMember : b ∈ ranges) {cell : Int}
    (inA : first a ≤ cell ∧ cell ≤ last a) (inB : first b ≤ cell ∧ cell ≤ last b) : a = b := by
  induction ranges generalizing lo with
  | nil => simp at aMember
  | cons head rest inductionHypothesis =>
      obtain ⟨starts, nonempty, tail⟩ := tiles
      rcases List.mem_cons.mp aMember with rfl | aRest <;>
        rcases List.mem_cons.mp bMember with rfl | bRest
      · rfl
      · have := tail.bounds b bRest
        omega
      · have := tail.bounds a aRest
        omega
      · exact inductionHypothesis tail aRest bRest

/-- The first range starts at the lower end. -/
theorem head_first {r : α} {rest : List α} {lo hi : Int} (tiles : Tiles first last lo (r :: rest) hi) :
    first r = lo := tiles.1

/-- Each range starts right after the one before it. -/
theorem isChain {ranges : List α} {lo hi : Int} (tiles : Tiles first last lo ranges hi) :
    ranges.IsChain fun a b => first b = last a + 1 := by
  induction ranges generalizing lo with
  | nil => exact List.IsChain.nil
  | cons head rest inductionHypothesis =>
      obtain ⟨-, -, tail⟩ := tiles
      cases rest with
      | nil => exact List.IsChain.singleton head
      | cons next others =>
          exact List.isChain_cons_cons.mpr ⟨tail.head_first, inductionHypothesis tail⟩

/-- The last range ends right before the upper end. -/
theorem getLast_last {ranges : List α} {lo hi : Int} (tiles : Tiles first last lo ranges hi)
    (nonempty : ranges ≠ []) : last (ranges.getLast nonempty) + 1 = hi := by
  induction ranges generalizing lo with
  | nil => exact absurd rfl nonempty
  | cons head rest inductionHypothesis =>
      obtain ⟨-, -, tail⟩ := tiles
      cases rest with
      | nil => exact tail
      | cons next others =>
          rw [List.getLast_cons (List.cons_ne_nil next others)]
          exact inductionHypothesis tail (List.cons_ne_nil next others)

/-- A range starts behind the lengths of the ranges before it. -/
theorem first_eq {ranges : List α} {lo hi : Int} (tiles : Tiles first last lo ranges hi) {i : Nat} {r : α}
    (found : ranges[i]? = some r) :
    first r = lo + ((ranges.take i).map fun before => last before + 1 - first before).sum := by
  induction ranges generalizing lo i with
  | nil => cases found
  | cons head rest inductionHypothesis =>
      obtain ⟨starts, -, tail⟩ := tiles
      cases i with
      | zero =>
          cases found
          simp [starts]
      | succ i =>
          rw [List.getElem?_cons_succ] at found
          rw [inductionHypothesis tail found, List.take_succ_cons, List.map_cons, List.sum_cons]
          omega

end Tiles

/-- The cells of a range, in order, as natural numbers. -/
def cells (first last : α → Int) (r : α) : List Nat :=
  List.range' (first r).toNat (last r + 1 - first r).toNat

theorem mem_cells {first last : α → Int} {r : α} (start : 0 ≤ first r) {cell : Nat} :
    cell ∈ cells first last r ↔ first r ≤ cell ∧ (cell : Int) ≤ last r := by
  rw [cells, List.mem_range'_1]
  omega

/-- The cells of a tiling, range by range, are the cells of the interval. -/
theorem Tiles.flatMap_cells {first last : α → Int} {ranges : List α} {lo hi : Int}
    (tiles : Tiles first last lo ranges hi) (start : 0 ≤ lo) :
    ranges.flatMap (cells first last) = List.range' lo.toNat (hi - lo).toNat := by
  induction ranges generalizing lo with
  | nil =>
      have empty : lo = hi := tiles
      simp [empty]
  | cons head rest inductionHypothesis =>
      obtain ⟨starts, nonempty, tail⟩ := tiles
      have rest_le := tail.le
      have restCells := inductionHypothesis tail (by omega)
      have next : (last head + 1).toNat = lo.toNat + (last head + 1 - lo).toNat := by omega
      have total : (hi - lo).toNat =
          (last head + 1 - lo).toNat + (hi - (last head + 1)).toNat := by omega
      rw [List.flatMap_cons, restCells, cells, starts, next, total, List.range'_append_1]

/-- Nonempty ranges whose cells, range by range, are those of the interval tile it. -/
theorem tiles_of_flatMap_cells {first last : α → Int} {ranges : List α} {lo hi : Int}
    (nonempty : ∀ r ∈ ranges, 0 ≤ first r ∧ first r ≤ last r) (start : 0 ≤ lo) (ordered : lo ≤ hi)
    (same : ranges.flatMap (cells first last) = List.range' lo.toNat (hi - lo).toNat) :
    Tiles first last lo ranges hi := by
  induction ranges generalizing lo with
  | nil =>
      have none : (hi - lo).toNat = 0 := by
        have lengths := congrArg List.length same
        rw [List.length_range'] at lengths
        exact lengths.symm
      rw [Tiles.nil_iff]
      omega
  | cons head rest inductionHypothesis =>
      obtain ⟨headStart, headNonempty⟩ := nonempty head (by simp)
      rw [List.flatMap_cons, cells] at same
      -- the head range is the first part of the interval
      obtain ⟨size, sizes⟩ : ∃ size, (last head + 1 - first head).toNat = size + 1 :=
        ⟨(last head - first head).toNat, by omega⟩
      have fits : size + 1 ≤ (hi - lo).toNat := by
        have lengths := congrArg List.length same
        rw [List.length_append, List.length_range', List.length_range', sizes] at lengths
        omega
      have split : List.range' lo.toNat (hi - lo).toNat =
          List.range' lo.toNat (size + 1) ++ List.range' (lo.toNat + (size + 1)) ((hi - lo).toNat - (size + 1)) := by
        rw [List.range'_append_1]
        congr 1
        omega
      rw [split, sizes] at same
      obtain ⟨sameHead, sameRest⟩ := List.append_inj same (by simp)
      have starts : first head = lo := by
        rw [List.range'_succ, List.range'_succ, List.cons.injEq] at sameHead
        omega
      rw [Tiles.cons_iff]
      refine ⟨starts, headNonempty, ?_⟩
      apply inductionHypothesis (fun r member => nonempty r (List.mem_cons_of_mem head member))
        (by omega) (by omega)
      rw [sameRest]
      congr 1 <;> omega

/-! ### Ranges of integers -/

/-- The members of a range, in order. -/
def span (first last : α → Int) (r : α) : List Int := Int.range (first r) (last r + 1)

theorem length_range (lo hi : Int) : (Int.range lo hi).length = (hi - lo).toNat := by
  rw [Int.range, List.length_map, List.length_range]

/-- An interval is cut at any of its members. -/
theorem range_append {lo mid hi : Int} (below : lo ≤ mid) (above : mid ≤ hi) :
    Int.range lo mid ++ Int.range mid hi = Int.range lo hi := by
  have sizes : (hi - lo).toNat = (mid - lo).toNat + (hi - mid).toNat := by omega
  rw [Int.range, Int.range, Int.range, sizes, List.range_add, List.map_append, List.map_map]
  congr 1
  apply List.map_congr_left
  intro k _
  simp only [Function.comp_apply]
  omega

/-- A nonempty interval starts with its lower end. -/
theorem range_eq_cons {lo hi : Int} (nonempty : lo < hi) : Int.range lo hi = lo :: Int.range (lo + 1) hi := by
  have one : Int.range lo (lo + 1) = [lo] := by
    simp [Int.range, Int.add_comm lo 1]
  rw [← range_append (by omega : lo ≤ lo + 1) (by omega), one, List.singleton_append]

/-- Nonempty ranges tile an interval exactly if their members, range by range, are its members. -/
theorem tiles_iff_flatMap_span {first last : α → Int} {ranges : List α} {lo hi : Int} (ordered : lo ≤ hi) :
    Tiles first last lo ranges hi ↔
      (∀ r ∈ ranges, first r ≤ last r) ∧ ranges.flatMap (span first last) = Int.range lo hi := by
  induction ranges generalizing lo with
  | nil =>
      rw [Tiles.nil_iff, List.flatMap_nil]
      constructor
      · rintro rfl
        simp [Int.range]
      · rintro ⟨-, none⟩
        have size := congrArg List.length none
        rw [length_range, List.length_nil] at size
        omega
  | cons head rest inductionHypothesis =>
      rw [Tiles.cons_iff, List.flatMap_cons, List.forall_mem_cons, span]
      constructor
      · rintro ⟨starts, nonempty, tail⟩
        obtain ⟨restNonempty, same⟩ := (inductionHypothesis tail.le).mp tail
        refine ⟨⟨nonempty, restNonempty⟩, ?_⟩
        have behind := tail.le
        rw [same, starts]
        exact range_append (by omega) behind
      · rintro ⟨⟨nonempty, restNonempty⟩, same⟩
        have sizes := congrArg List.length same
        rw [List.length_append, length_range, length_range] at sizes
        have starts : first head = lo := by
          rw [range_eq_cons (by omega : first head < last head + 1), range_eq_cons (by omega : lo < hi)] at same
          exact (List.cons.inj same).1
        rw [starts] at same sizes
        have behind : last head + 1 ≤ hi := by omega
        rw [← range_append (by omega : lo ≤ last head + 1) behind] at same
        exact ⟨starts, nonempty, (inductionHypothesis behind).mpr ⟨restNonempty, List.append_cancel_left same⟩⟩

/-- How many ranges hold a cell. -/
def owners (first last : α → Int) (ranges : List α) (cell : Int) : Nat :=
  ranges.countP fun r => decide (first r ≤ cell ∧ cell ≤ last r)

theorem owners_cons_of_mem {first last : α → Int} {head : α} {rest : List α} {cell : Int}
    (inside : first head ≤ cell ∧ cell ≤ last head) :
    owners first last (head :: rest) cell = owners first last rest cell + 1 := by
  rw [owners, owners, List.countP_cons_of_pos]
  exact decide_eq_true inside

theorem owners_cons_of_notMem {first last : α → Int} {head : α} {rest : List α} {cell : Int}
    (outside : ¬ (first head ≤ cell ∧ cell ≤ last head)) :
    owners first last (head :: rest) cell = owners first last rest cell := by
  rw [owners, owners, List.countP_cons_of_neg]
  simpa using outside

theorem owners_pos {first last : α → Int} {ranges : List α} {cell : Int} :
    0 < owners first last ranges cell ↔ ∃ r ∈ ranges, first r ≤ cell ∧ cell ≤ last r := by
  rw [owners, List.countP_pos_iff]
  simp

/-- Where every cell is in one range, the first of the ordered ranges starts the interval. -/
theorem first_eq_of_owners {first last : α → Int} {head : α} {rest : List α} {lo : Int} (atLeast : lo ≤ first head)
    (first_least : ∀ r ∈ rest, first head ≤ first r) (once : owners first last (head :: rest) lo = 1) :
    first head = lo := by
  have owned : 0 < owners first last (head :: rest) lo := by
    rw [once]
    exact Nat.one_pos
  obtain ⟨r, member, holds, -⟩ := owners_pos.mp owned
  rcases List.mem_cons.mp member with rfl | inRest
  · omega
  · have := first_least r inRest
    omega

/-- A range that started inside the first would share its own start with it. -/
theorem behind_of_owners {first last : α → Int} {head r : α} {rest : List α} (member : r ∈ rest)
    (nonempty : first r ≤ last r) (notBefore : first head ≤ first r)
    (once : owners first last (head :: rest) (first r) = 1) : last head + 1 ≤ first r := by
  by_contra overlaps
  rw [owners_cons_of_mem ⟨notBefore, by omega⟩] at once
  have owned : 0 < owners first last rest (first r) := owners_pos.mpr ⟨r, member, le_refl _, nonempty⟩
  omega

/-- A first range in front of others that own every cell behind it once owns its own cells. -/
theorem owners_cons_eq_one {first last : α → Int} {head : α} {rest : List α} {hi cell : Int}
    (behind : ∀ r ∈ rest, last head + 1 ≤ first r)
    (once : ∀ cell, last head + 1 ≤ cell → cell < hi → owners first last rest cell = 1)
    (above : first head ≤ cell) (below : cell < hi) : owners first last (head :: rest) cell = 1 := by
  by_cases inHead : cell ≤ last head
  · rw [owners_cons_of_mem ⟨above, inHead⟩]
    have none : ¬ 0 < owners first last rest cell := by
      rw [owners_pos]
      rintro ⟨r, member, holds, -⟩
      have := behind r member
      omega
    omega
  · rw [owners_cons_of_notMem (fun holds => inHead holds.2)]
    exact once cell (by omega) below

/-- Nonempty ranges inside an interval tile it exactly if they are listed in order and every cell of the
interval lies in exactly one of them. -/
theorem tiles_iff_owners {first last : α → Int} {ranges : List α} {lo hi : Int} (ordered : lo ≤ hi) :
    Tiles first last lo ranges hi ↔
      (∀ r ∈ ranges, lo ≤ first r ∧ first r ≤ last r ∧ last r < hi) ∧
        (ranges.Pairwise fun a b => first a ≤ first b) ∧
          ∀ cell, lo ≤ cell → cell < hi → owners first last ranges cell = 1 := by
  induction ranges generalizing lo with
  | nil =>
      rw [Tiles.nil_iff]
      constructor
      · rintro rfl
        refine ⟨by simp, List.Pairwise.nil, ?_⟩
        intro cell above below
        omega
      · rintro ⟨-, -, once⟩
        by_contra different
        have := once lo (le_refl lo) (by omega)
        simp [owners] at this
  | cons head rest inductionHypothesis =>
      rw [Tiles.cons_iff, List.forall_mem_cons, List.pairwise_cons]
      constructor
      · rintro ⟨starts, nonempty, tail⟩
        obtain ⟨inside, restOrdered, once⟩ := (inductionHypothesis tail.le).mp tail
        have behind := tail.le
        refine ⟨⟨by omega, ?_⟩, ⟨?_, restOrdered⟩, ?_⟩
        · intro r member
          have := inside r member
          omega
        · intro r member
          have := inside r member
          omega
        · intro cell above below
          exact owners_cons_eq_one (fun r member => (inside r member).1) once (starts ▸ above) below
      · rintro ⟨⟨headInside, restInside⟩, ⟨first_least, restOrdered⟩, once⟩
        have starts : first head = lo :=
          first_eq_of_owners headInside.1 first_least (once lo (le_refl lo) (by omega))
        have behind : ∀ r ∈ rest, last head + 1 ≤ first r := by
          intro r member
          have inside := restInside r member
          exact behind_of_owners member inside.2.1 (first_least r member) (once (first r) inside.1 (by omega))
        refine ⟨starts, headInside.2.1, (inductionHypothesis (by omega)).mpr ⟨?_, restOrdered, ?_⟩⟩
        · intro r member
          exact ⟨behind r member, (restInside r member).2⟩
        · intro cell above below
          rw [← once cell (by omega) below, owners_cons_of_notMem]
          omega

end Tiling
