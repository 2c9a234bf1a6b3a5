/-
Module: GoExotic.Theory.Sorting
Purpose: Sorting routines known only by their contract. A `SortSlice` returns some permutation of its
  input in which no element is followed by a smaller one; how it orders ties is left open, so a result
  proved for every `SortSlice` holds for stable and unstable library sorts alike. Sorting by a key whose
  values are pairwise distinct has one possible outcome.
Trusted boundary: none
Main exports: SortSlice, SortSlice.byKey, SortSlice.byKey_pairwise, SortSlice.byKey_eq,
  SortSlice.insertion
-/
import Mathlib.Data.List.Sort
import Mathlib.Order.Basic

namespace Sorting

/-- The comparison functions a sort is specified for: `less` is asymmetric, and being "not greater" is
transitive. -/
structure StrictWeakOrder {α : Type} (less : α → α → Bool) : Prop where
  asymm : ∀ a b, less a b = true → less b a = false
  trans : ∀ a b c, less b a = false → less c b = false → less c a = false

/-- A sorting routine together with its contract. -/
structure SortSlice where
  /-- Sort a list by a comparison function. -/
  sort : {α : Type} → (α → α → Bool) → List α → List α
  perm : ∀ {α : Type} (less : α → α → Bool) (items : List α), (sort less items).Perm items
  sorted : ∀ {α : Type} (less : α → α → Bool) (items : List α), StrictWeakOrder less →
    (sort less items).Pairwise fun a b => less b a = false

/-- Comparing by a key in a linear order is a strict weak order. -/
theorem strictWeakOrder_key {α κ : Type} [LinearOrder κ] (key : α → κ) :
    StrictWeakOrder fun a b => decide (key a < key b) where
  asymm a b less := by
    have lt : key a < key b := of_decide_eq_true less
    exact decide_eq_false (not_lt_of_gt lt)
  trans a b c ab bc := by
    have first : key a ≤ key b := not_lt.mp (of_decide_eq_false ab)
    have second : key b ≤ key c := not_lt.mp (of_decide_eq_false bc)
    exact decide_eq_false (not_lt_of_ge (first.trans second))

namespace SortSlice

variable {α κ : Type} [LinearOrder κ]

/-- Sort by ascending key. -/
def byKey (routine : SortSlice) (key : α → κ) (items : List α) : List α :=
  routine.sort (fun a b => decide (key a < key b)) items

theorem byKey_perm (routine : SortSlice) (key : α → κ) (items : List α) :
    (routine.byKey key items).Perm items :=
  routine.perm _ items

@[simp] theorem mem_byKey (routine : SortSlice) (key : α → κ) (items : List α) (item : α) :
    item ∈ routine.byKey key items ↔ item ∈ items :=
  (routine.byKey_perm key items).mem_iff

/-- The keys of the result ascend. -/
theorem byKey_pairwise (routine : SortSlice) (key : α → κ) (items : List α) :
    (routine.byKey key items).Pairwise fun a b => key a ≤ key b := by
  refine (routine.sorted _ items (strictWeakOrder_key key)).imp ?_
  intro a b notLess
  exact not_lt.mp (of_decide_eq_false notLess)

/-- Where the keys are pairwise distinct the keys of the result strictly ascend. -/
theorem byKey_pairwise_lt (routine : SortSlice) (key : α → κ) {items : List α}
    (distinct : (items.map key).Nodup) :
    (routine.byKey key items).Pairwise fun a b => key a < key b := by
  have sortedDistinct : ((routine.byKey key items).map key).Nodup :=
    ((routine.byKey_perm key items).map key).nodup_iff.mpr distinct
  have apart : (routine.byKey key items).Pairwise fun a b => key a ≠ key b :=
    List.pairwise_map.mp sortedDistinct
  exact (routine.byKey_pairwise key items).imp₂ (fun _ _ le ne => lt_of_le_of_ne le ne) apart

/-- Sorting by a key has one possible outcome when some permutation of the input strictly ascends. -/
theorem byKey_eq (routine : SortSlice) (key : α → κ) {items ordered : List α}
    (perm : items.Perm ordered) (ascending : ordered.Pairwise fun a b => key a < key b) :
    routine.byKey key items = ordered := by
  have sorted := routine.byKey_pairwise key items
  have samePerm : (routine.byKey key items).Perm ordered := (routine.byKey_perm key items).trans perm
  refine List.Perm.eq_of_pairwise ?_ sorted (ascending.imp fun lt => le_of_lt lt) samePerm
  intro a b aMember bMember ab ba
  have aOrdered : a ∈ ordered := samePerm.mem_iff.mp aMember
  have sameKey : key a = key b := le_antisymm ab ba
  have distinct : (ordered.map key).Nodup := List.pairwise_map.mpr (ascending.imp fun lt => ne_of_lt lt)
  exact List.inj_on_of_nodup_map distinct aOrdered bMember sameKey

/-- Insertion sort meets the contract. -/
def insertion : SortSlice where
  sort less items := items.insertionSort fun a b => less b a = false
  perm less items := List.perm_insertionSort _ items
  sorted {α} less items order := by
    have total : Std.Total fun a b : α => less b a = false := ⟨fun a b => by
      cases reverse : less b a with
      | false => exact Or.inl rfl
      | true => exact Or.inr (order.asymm b a reverse)⟩
    have trans : IsTrans α fun a b : α => less b a = false := ⟨order.trans⟩
    exact List.pairwise_insertionSort _ items

end SortSlice

example : SortSlice.insertion.byKey (fun n : Nat => n) [3, 1, 2] = [1, 2, 3] := by decide

end Sorting
