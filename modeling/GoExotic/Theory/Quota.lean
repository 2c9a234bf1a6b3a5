/-
Module: GoExotic.Theory.Quota
Purpose: Dividing units among claimants one after the other. Each but the last gets its share rounded
  down, at least one unit, and at most what leaves one unit for every later claimant; the last gets what
  is left. As long as the cap does not bind the error of a count is below one unit, and once it has bound
  there is one unit left for everyone; so all counts of `n` claimants stay within `n - 1` units of their
  shares. The cap has a closed form in the raised shares, from which the counts of two claimants, and of
  one claimant in two divisions, are compared.
Trusted boundary: none
Main exports: raised, allot, capAt, allot_at, allot_after_cut, Balanced, allot_near, roomAt, capAt_eq_room,
  CountAt, CountAt.le_earlier, CountAt.last_le_iff, CountAt.le_later_iff, CountAt.mono
-/
import Mathlib.Algebra.BigOperators.Group.List.Basic
import Mathlib.Algebra.Order.BigOperators.Group.List
import Mathlib.Algebra.Order.Floor.Ring
import Mathlib.Tactic.Linarith

namespace Quota

section Counts

variable {K : Type} [Ring K] [LinearOrder K] [FloorRing K]

/-- A share rounded down, but at least one unit. -/
def raised (share : K) : ℤ := max 1 ⌊share⌋

theorem one_le_raised (share : K) : 1 ≤ raised share := le_max_left 1 ⌊share⌋

/-- The units of each claimant, by share, where so many are to be divided. -/
def allot : ℤ → List K → List ℤ
  | _, [] => []
  | units, [_] => [units]
  | units, share :: next :: rest =>
      let count := min (raised share) (units - (next :: rest).length)
      count :: allot (units - count) (next :: rest)

/-- The claimants before the last are capped, each in turn. -/
theorem allot_cons {units : ℤ} {share : K} {rest : List K} (some : rest ≠ []) :
    allot units (share :: rest) =
      min (raised share) (units - rest.length) ::
        allot (units - min (raised share) (units - rest.length)) rest := by
  cases rest with
  | nil => exact absurd rfl some
  | cons next others => rfl

/-- Where there are as many units as claimants everyone gets one. -/
theorem allot_exhausted (shares : List K) :
    allot shares.length shares = List.replicate shares.length 1 := by
  induction shares with
  | nil => rfl
  | cons share rest inductionHypothesis =>
      by_cases single : rest = []
      · rw [single]
        rfl
      · have one : min (raised share) ((share :: rest).length - rest.length : ℤ) = 1 := by
          rw [List.length_cons]
          push_cast
          rw [add_sub_cancel_left]
          exact min_eq_right (one_le_raised share)
        have left : ((share :: rest).length : ℤ) - 1 = rest.length := by
          rw [List.length_cons]
          push_cast
          exact add_sub_cancel_right _ _
        rw [allot_cons single, one, left, inductionHypothesis, List.length_cons, List.replicate_succ]

/-- What leaves one unit for every claimant behind position `i`, of the units left there. -/
def capAt (units : ℤ) (shares : List K) (i : ℕ) : ℤ :=
  units - ((allot units shares).take i).sum - (shares.length - 1 - i)

theorem capAt_zero (units : ℤ) (share : K) (rest : List K) :
    capAt units (share :: rest) 0 = units - rest.length := by
  simp [capAt]

theorem capAt_succ {units : ℤ} {share : K} {rest : List K} (several : rest ≠ []) (i : ℕ) :
    capAt units (share :: rest) (i + 1) =
      capAt (units - min (raised share) (units - rest.length)) rest i := by
  rw [capAt, capAt, allot_cons several, List.take_succ_cons, List.sum_cons, List.length_cons]
  push_cast
  omega

/-- Every claimant but the last gets its raised share, or what the cap leaves of it. -/
theorem allot_at {units : ℤ} {shares : List K} {i : ℕ} {share : K} (found : shares[i]? = some share)
    (notLast : i + 1 < shares.length) :
    (allot units shares)[i]? = some (min (raised share) (capAt units shares i)) := by
  induction shares generalizing units i with
  | nil => cases found
  | cons first rest inductionHypothesis =>
      have several : rest ≠ [] := by
        rintro rfl
        simp at notLast
      rw [allot_cons several]
      cases i with
      | zero =>
          cases found
          rw [capAt_zero]
          rfl
      | succ i =>
          rw [List.getElem?_cons_succ] at found ⊢
          rw [capAt_succ several, inductionHypothesis found (by simpa using notLast)]

/-- Once the cap has cut a claimant's count, everyone behind it gets one unit. -/
theorem allot_after_cut {units : ℤ} {shares : List K} {i j : ℕ} {share : K} {count : ℤ}
    (found : shares[i]? = some share) (notLast : i + 1 < shares.length)
    (cut : capAt units shares i < raised share) (behind : i < j)
    (counted : (allot units shares)[j]? = some count) : count = 1 := by
  induction shares generalizing units i j with
  | nil => cases found
  | cons first rest inductionHypothesis =>
      have several : rest ≠ [] := by
        rintro rfl
        simp at notLast
      obtain ⟨j, rfl⟩ := Nat.exists_eq_succ_of_ne_zero (by omega : j ≠ 0)
      rw [allot_cons several, List.getElem?_cons_succ] at counted
      cases i with
      | zero =>
          cases found
          rw [capAt_zero] at cut
          rw [min_eq_right (le_of_lt cut), sub_sub_cancel, allot_exhausted] at counted
          exact List.eq_of_mem_replicate (List.mem_of_getElem? counted)
      | succ i =>
          rw [capAt_succ several] at cut
          exact inductionHypothesis found (by simpa using notLast) cut (by omega) counted

end Counts

/-! ### Distance from the shares -/

section Distance

variable {K : Type} [Field K] [LinearOrder K] [IsStrictOrderedRing K] [FloorRing K]

/-- Rounding moves a positive share by less than one unit. -/
theorem raised_near {share : K} (positive : 0 < share) : |(raised share : K) - share| < 1 := by
  have below := Int.floor_le share
  have above := Int.lt_floor_add_one share
  rw [raised, abs_sub_lt_iff]
  rcases le_total 1 ⌊share⌋ with large | small
  · rw [max_eq_right large]
    constructor <;> linarith
  · have atMost : (⌊share⌋ : K) ≤ 1 := by exact_mod_cast small
    rw [max_eq_left small, Int.cast_one]
    constructor <;> linarith

/-- The units left for some claimants, against the sum of their shares: the two differ by less than one
unit for each claimant served before, and there is one unit for everyone. -/
structure Balanced (served : ℕ) (units : ℤ) (shares : List K) : Prop where
  positive : ∀ share ∈ shares, 0 < share
  enough : (shares.length : ℤ) ≤ units
  first : served = 0 → shares.sum = units
  near : served ≠ 0 → |shares.sum - units| < served

namespace Balanced

variable {served : ℕ} {units : ℤ} {share : K} {rest : List K}

omit [FloorRing K] in
/-- Before the first claimant the sums agree, later they differ by less than `served`. -/
theorem distance_le (balanced : Balanced served units (share :: rest)) :
    |(share :: rest).sum - units| ≤ served := by
  by_cases start : served = 0
  · rw [balanced.first start, sub_self, abs_zero]
    exact Nat.cast_nonneg served
  · exact le_of_lt (balanced.near start)

/-- A count that is not capped keeps the balance. -/
theorem next (balanced : Balanced served units (share :: rest))
    (uncapped : raised share ≤ units - rest.length) :
    Balanced (served + 1) (units - raised share) rest := by
  have error := raised_near (balanced.positive share (by simp))
  have distance := balanced.distance_le
  rw [List.sum_cons] at distance
  refine ⟨fun other member => balanced.positive other (List.mem_cons_of_mem _ member), by omega, by simp, ?_⟩
  intro _
  rw [abs_lt] at error ⊢
  rw [abs_le] at distance
  push_cast
  constructor <;> linarith [distance.1, distance.2, error.1, error.2]

/-- Where a count is cut, its claimant had a larger share, but not by as many units as claimants. -/
theorem cut_near (balanced : Balanced served units (share :: rest))
    (cut : units - rest.length < raised share) :
    ((units - rest.length : ℤ) : K) < share ∧
      share - ((units - rest.length : ℤ) : K) + rest.sum ≤ served + rest.length := by
  have enough := balanced.enough
  have distance := balanced.distance_le
  rw [List.length_cons] at enough
  push_cast at enough
  rw [List.sum_cons, abs_le] at distance
  have onlyFloor : raised share = ⌊share⌋ := by
    rw [raised] at cut ⊢
    omega
  constructor
  · rw [onlyFloor] at cut
    have strict : ((units - rest.length : ℤ) : K) < ⌊share⌋ := by exact_mod_cast cut
    exact lt_of_lt_of_le strict (Int.floor_le share)
  · push_cast
    linarith [distance.2]

end Balanced

namespace Balanced

variable {served : ℕ} {units : ℤ} {first : K} {rest : List K}

omit [IsStrictOrderedRing K] [FloorRing K] in
/-- The last claimant takes what is left, so its error is the whole distance. -/
theorem last_near (balanced : Balanced served units [first]) (several : served ≠ 0) :
    |(units : K) - first| < served := by
  have near := balanced.near several
  rw [List.sum_singleton, abs_sub_comm] at near
  exact near

/-- Behind a cut everyone gets one unit, and no share there comes to as many units as claimants. -/
theorem after_cut_near (balanced : Balanced served units (first :: rest))
    (cut : units - rest.length < raised first) {share : K} (member : share ∈ rest) :
    |(1 : K) - share| < served + rest.length := by
  obtain ⟨less, near⟩ := balanced.cut_near cut
  have positive : ∀ other ∈ rest, 0 < other :=
    fun other inRest => balanced.positive other (List.mem_cons_of_mem _ inRest)
  have below := List.single_le_sum (fun other inRest => le_of_lt (positive other inRest)) share member
  have some := positive share member
  have behind : (1 : K) ≤ rest.length := by
    exact_mod_cast List.length_pos_of_mem member
  have served_nonneg : (0 : K) ≤ served := Nat.cast_nonneg served
  rw [abs_sub_lt_iff]
  constructor <;> linarith

/-- The count that is cut is itself near, as later shares are positive. -/
theorem cut_count_near (balanced : Balanced served units (first :: rest)) (several : rest ≠ [])
    (cut : units - rest.length < raised first) :
    |((units - rest.length : ℤ) : K) - first| < served + rest.length := by
  obtain ⟨less, near⟩ := balanced.cut_near cut
  have positive : 0 < rest.sum := by
    apply List.sum_pos _ _ several
    exact fun other inRest => balanced.positive other (List.mem_cons_of_mem _ inRest)
  have served_nonneg : (0 : K) ≤ served := Nat.cast_nonneg served
  have length_nonneg : (0 : K) ≤ rest.length := Nat.cast_nonneg rest.length
  rw [abs_sub_lt_iff]
  constructor <;> linarith

end Balanced

/-- The counts of at least two claimants whose shares add up to the units differ from the shares by less
than the number of claimants minus one. -/
theorem allot_near {served : ℕ} {units : ℤ} {shares : List K} (balanced : Balanced served units shares)
    (several : 2 ≤ served + shares.length) :
    ∀ (i : ℕ) share count, shares[i]? = some share → (allot units shares)[i]? = some count →
      |(count : K) - share| < served + shares.length - 1 := by
  induction shares generalizing served units with
  | nil =>
      intro i share count found
      cases found
  | cons first rest inductionHypothesis =>
      intro i share count found counted
      rw [List.length_cons] at several ⊢
      push_cast
      rw [← add_assoc, add_sub_cancel_right]
      by_cases single : rest = []
      · subst single
        cases i with
        | zero =>
            cases found
            cases counted
            have near := balanced.last_near (by simp at several; omega)
            simpa using near
        | succ i => cases found
      · rw [allot_cons single] at counted
        by_cases uncapped : raised first ≤ units - rest.length
        · rw [min_eq_left uncapped] at counted
          cases i with
          | zero =>
              cases found
              cases counted
              have error := raised_near (balanced.positive first (by simp))
              have behind : (1 : K) ≤ rest.length := by
                exact_mod_cast List.length_pos_iff.mpr single
              have served_nonneg : (0 : K) ≤ served := Nat.cast_nonneg served
              linarith
          | succ i =>
              rw [List.getElem?_cons_succ] at found counted
              have bound := inductionHypothesis (balanced.next uncapped) (by omega) i share count found counted
              push_cast at bound
              linarith
        · -- from a cut on one unit is left for everyone
          have cut : units - rest.length < raised first := not_le.mp uncapped
          rw [min_eq_right (le_of_lt cut), sub_sub_cancel, allot_exhausted] at counted
          cases i with
          | zero =>
              cases found
              cases counted
              exact balanced.cut_count_near single cut
          | succ i =>
              rw [List.getElem?_cons_succ] at found counted
              have one : count = 1 := List.eq_of_mem_replicate (List.mem_of_getElem? counted)
              rw [one, Int.cast_one]
              exact balanced.after_cut_near cut (List.mem_of_getElem? found)

end Distance

/-! ### Closed form -/

section ClosedForm

variable {K : Type} [Ring K] [LinearOrder K] [FloorRing K]

/-- The last claimant gets what its cap leaves. -/
theorem allot_last {units : ℤ} {shares : List K} {i : ℕ} (last : i + 1 = shares.length) :
    (allot units shares)[i]? = some (capAt units shares i) := by
  induction shares generalizing units i with
  | nil => cases last
  | cons first rest inductionHypothesis =>
      by_cases several : rest = []
      · subst several
        obtain rfl : i = 0 := by simpa using last
        simp [allot, capAt]
      · rw [allot_cons several]
        cases i with
        | zero =>
            have none : rest.length = 0 := by simpa using last.symm
            exact absurd (List.length_eq_zero_iff.mp none) several
        | succ i =>
            rw [List.getElem?_cons_succ, capAt_succ several]
            exact inductionHypothesis (by simpa using last)

/-- What is left at position `i` for its claimant if every claimant before takes its raised share and one
unit is kept for everyone behind. -/
def roomAt (units : ℤ) (shares : List K) (i : ℕ) : ℤ :=
  units - ((shares.take i).map raised).sum - (shares.length - 1 - i)

theorem roomAt_zero (units : ℤ) (share : K) (rest : List K) :
    roomAt units (share :: rest) 0 = units - rest.length := by
  simp [roomAt]

theorem roomAt_cons (units : ℤ) (share : K) (rest : List K) (i : ℕ) :
    roomAt units (share :: rest) (i + 1) = roomAt (units - raised share) rest i := by
  rw [roomAt, roomAt, List.take_succ_cons, List.map_cons, List.sum_cons, List.length_cons]
  push_cast
  omega

/-- Raised shares are at least one unit each. -/
theorem length_le_sum_raised (shares : List K) : (shares.length : ℤ) ≤ (shares.map raised).sum := by
  have least := List.card_nsmul_le_sum (shares.map raised) 1 (by simp [one_le_raised])
  simpa using least

theorem roomAt_le_of_le {units larger : ℤ} (more : units ≤ larger) (shares : List K) (i : ℕ) :
    roomAt units shares i ≤ roomAt larger shares i := by
  rw [roomAt, roomAt]
  omega

/-- Where there are as many units as claimants, nobody has room for more than one. -/
theorem roomAt_exhausted {shares : List K} {i : ℕ} (inside : i < shares.length) :
    roomAt shares.length shares i ≤ 1 := by
  have taken := length_le_sum_raised (shares.take i)
  rw [List.length_take_of_le (le_of_lt inside)] at taken
  rw [roomAt]
  omega

/-- The cap is the room, but at least one unit. -/
theorem capAt_eq_room {units : ℤ} {shares : List K} (enough : (shares.length : ℤ) ≤ units) {i : ℕ}
    (inside : i < shares.length) : capAt units shares i = max 1 (roomAt units shares i) := by
  induction shares generalizing units i with
  | nil => simp at inside
  | cons first rest inductionHypothesis =>
      rw [List.length_cons] at enough inside
      push_cast at enough
      cases i with
      | zero =>
          rw [capAt_zero, roomAt_zero]
          omega
      | succ i =>
          have insideRest : i < rest.length := by omega
          have several : rest ≠ [] := by
            rintro rfl
            simp at insideRest
          rw [capAt_succ several, roomAt_cons]
          by_cases uncapped : raised first ≤ units - rest.length
          · rw [min_eq_left uncapped]
            exact inductionHypothesis (by omega) insideRest
          · -- from a cut on neither the cap nor the room exceeds one
            have cut := le_of_lt (not_le.mp uncapped)
            rw [min_eq_right cut, sub_sub_cancel, inductionHypothesis (le_refl _) insideRest]
            have exhausted := roomAt_exhausted insideRest
            have less := roomAt_le_of_le (by omega : units - raised first ≤ rest.length) rest i
            omega

theorem roomAt_succ {units : ℤ} {shares : List K} {i : ℕ} {share : K} (found : shares[i]? = some share) :
    roomAt units shares (i + 1) = roomAt units shares i - raised share + 1 := by
  rw [roomAt, roomAt, List.take_add_one, found, List.map_append, List.sum_append]
  push_cast
  simp only [Option.toList_some, List.map_cons, List.map_nil, List.sum_singleton]
  omega

/-- Behind a claimant the room is smaller by what its raised share exceeds one unit. -/
theorem roomAt_behind (units : ℤ) {shares : List K} {i j : ℕ} {share : K} (found : shares[i]? = some share)
    (behind : i < j) (inside : j < shares.length) :
    roomAt units shares j ≤ roomAt units shares i - raised share + 1 := by
  induction j, behind using Nat.le_induction with
  | base => exact le_of_eq (roomAt_succ found)
  | succ j after inductionHypothesis =>
      obtain ⟨next, here⟩ : ∃ next, shares[j]? = some next := ⟨_, List.getElem?_eq_getElem (by omega)⟩
      have atLeast := one_le_raised next
      have before := inductionHypothesis (by omega)
      rw [roomAt_succ here]
      omega

/-- The room grows where the claimants before get less. -/
theorem roomAt_mono {α : Type} {units : ℤ} {claimants : List α} {share other : α → K} {i : ℕ}
    (less : ∀ a ∈ claimants.take i, raised (other a) ≤ raised (share a)) :
    roomAt units (claimants.map share) i ≤ roomAt units (claimants.map other) i := by
  have sums := List.sum_le_sum less
  rw [roomAt, roomAt, List.length_map, List.length_map, ← List.map_take, ← List.map_take, List.map_map,
    List.map_map]
  simp only [Function.comp_def]
  omega

/-- Larger shares are not raised to less. -/
theorem raised_mono [IsOrderedRing K] {share larger : K} (le : share ≤ larger) : raised share ≤ raised larger :=
  max_le_max (le_refl 1) (Int.floor_le_floor le)

/-- A division in which the claimant at position `i`, with this share, gets `count`. -/
structure CountAt (units : ℤ) (shares : List K) (i : ℕ) (share : K) (count : ℤ) : Prop where
  enough : (shares.length : ℤ) ≤ units
  found : shares[i]? = some share
  counted : (allot units shares)[i]? = some count

namespace CountAt

variable {units : ℤ} {shares : List K} {i j : ℕ} {share other : K} {count otherCount : ℤ}

theorem inside (gets : CountAt units shares i share count) : i < shares.length :=
  (List.getElem?_eq_some_iff.mp gets.found).1

/-- Before the last position a claimant gets its raised share if there is room for it. -/
theorem eq_min (gets : CountAt units shares i share count) (notLast : i + 1 < shares.length) :
    count = min (raised share) (max 1 (roomAt units shares i)) := by
  have counted := gets.counted
  rw [allot_at gets.found notLast, capAt_eq_room gets.enough gets.inside] at counted
  exact (Option.some.inj counted).symm

/-- The last claimant gets all the room. -/
theorem eq_room (gets : CountAt units shares i share count) (last : i + 1 = shares.length) :
    count = max 1 (roomAt units shares i) := by
  have counted := gets.counted
  rw [allot_last last, capAt_eq_room gets.enough gets.inside] at counted
  exact (Option.some.inj counted).symm

/-- Of two claimants before the last position the earlier one gets no less for a share that is not less. -/
theorem le_earlier (gets : CountAt units shares i share count) (later : CountAt units shares j other otherCount)
    (before : i < j) (notLast : j + 1 < shares.length) (atLeast : raised other ≤ raised share) :
    otherCount ≤ count := by
  have room := roomAt_behind units gets.found before later.inside
  have one := one_le_raised share
  rw [gets.eq_min (by omega), later.eq_min notLast]
  omega

/-- The last claimant gets no more than an earlier one exactly if its room is at most the earlier one's
raised share. -/
theorem last_le_iff (gets : CountAt units shares i share count)
    (later : CountAt units shares j other otherCount) (before : i < j) (last : j + 1 = shares.length) :
    otherCount ≤ count ↔ roomAt units shares j ≤ raised share := by
  have room := roomAt_behind units gets.found before later.inside
  have one := one_le_raised share
  rw [gets.eq_min (by omega), later.eq_room last]
  omega

/-- A later claimant whose share is not less gets no less exactly if it has room for the earlier one's
raised share, or the earlier one had no room for more than one unit. -/
theorem le_later_iff (gets : CountAt units shares i share count)
    (later : CountAt units shares j other otherCount) (before : i < j) (atLeast : raised share ≤ raised other) :
    count ≤ otherCount ↔ raised share ≤ max 1 (roomAt units shares j) ∨ roomAt units shares i ≤ 1 := by
  have room := roomAt_behind units gets.found before later.inside
  have inside := later.inside
  rw [gets.eq_min (by omega)]
  by_cases last : j + 1 = shares.length
  · rw [later.eq_room last]
    omega
  · rw [later.eq_min (by omega)]
    omega

/-- A claimant gets no less in a division with a larger share for it and more room. -/
theorem mono {better : List K} (gets : CountAt units shares i share count)
    (getsBetter : CountAt units better i other otherCount) (sameLength : shares.length = better.length)
    (atLeast : raised share ≤ raised other) (room : roomAt units shares i ≤ roomAt units better i) :
    count ≤ otherCount := by
  have inside := gets.inside
  by_cases last : i + 1 = shares.length
  · rw [gets.eq_room last, getsBetter.eq_room (by omega)]
    omega
  · rw [gets.eq_min (by omega), getsBetter.eq_min (by omega)]
    omega

end CountAt

end ClosedForm

section WholeShares

variable {K : Type} [Field K] [LinearOrder K] [IsStrictOrderedRing K] [FloorRing K]

/-- Where every share comes to a unit there is room for every share. -/
theorem share_le_roomAt {units : ℤ} {shares : List K} (whole : ∀ share ∈ shares, 1 ≤ share)
    (fits : shares.sum ≤ units) {i : ℕ} {share : K} (found : shares[i]? = some share) :
    share ≤ roomAt units shares i := by
  induction shares generalizing units i with
  | nil => cases found
  | cons first rest inductionHypothesis =>
      have restWhole : ∀ other ∈ rest, 1 ≤ other := fun other member => whole other (List.mem_cons_of_mem _ member)
      rw [List.sum_cons] at fits
      cases i with
      | zero =>
          cases found
          have least := List.card_nsmul_le_sum rest 1 restWhole
          rw [nsmul_eq_mul, mul_one] at least
          rw [roomAt_zero]
          push_cast
          linarith
      | succ i =>
          have isFloor : raised first = ⌊first⌋ := max_eq_right (Int.le_floor.mpr (by simpa using whole first (by simp)))
          have below := Int.floor_le first
          rw [roomAt_cons]
          apply inductionHypothesis restWhole
          · rw [isFloor]
            push_cast
            linarith
          · exact found

end WholeShares

end Quota
