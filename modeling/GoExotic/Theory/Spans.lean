/-
Module: GoExotic.Theory.Spans
Purpose: Where lists are split and trimmed. A list that is cut at the first element of a kind is determined
  by its parts, and trimming at either end stops at an element that is kept.
Trusted boundary: none
Main exports: forall_ne_of_notMem, span_append, span_spec, append_stop_inj, dropWhile_append_stop,
  rdropWhile_append_stop, rtakeWhile_append_stop
-/
import Mathlib.Data.List.DropRight
import Mathlib.Data.List.TakeDrop
import Mathlib.Data.List.TakeWhile

namespace Spans

variable {α : Type} {p : α → Bool}

/-- An element that is absent stops nothing in a list. -/
theorem forall_ne_of_notMem [DecidableEq α] {stop : α} {l : List α} (absent : stop ∉ l) :
    ∀ a ∈ l, (a != stop) = true := by
  intro a member
  have other : a ≠ stop := fun same => absent (same ▸ member)
  simpa using other

/-- A list is split where its first part ends. -/
theorem span_append {first rest : List α} (inside : ∀ a ∈ first, p a = true)
    (ends : ∀ a, rest.head? = some a → p a = false) : (first ++ rest).span p = (first, rest) := by
  rw [List.span_eq_takeWhile_dropWhile, List.takeWhile_append_of_pos inside,
    List.dropWhile_append_of_pos inside]
  cases rest with
  | nil => simp
  | cons a more => simp [ends a rfl]

/-- What `span` gives: a first part inside, and a rest that does not start inside. -/
theorem span_spec (p : α → Bool) (l : List α) :
    l = (l.span p).1 ++ (l.span p).2 ∧ (∀ a ∈ (l.span p).1, p a = true) ∧
      ∀ a, (l.span p).2.head? = some a → p a = false := by
  rw [List.span_eq_takeWhile_dropWhile]
  refine ⟨List.takeWhile_append_dropWhile.symm, fun a member => List.mem_takeWhile_imp member, ?_⟩
  intro a isHead
  have outside := List.head?_dropWhile_not p l
  rw [isHead] at outside
  exact outside

variable {a : α}

/-- A list is cut at the first element of a kind in one way only. -/
theorem append_stop_inj {first second rest more : List α} (stops : p a = false)
    (insideFirst : ∀ b ∈ first, p b = true) (insideSecond : ∀ b ∈ second, p b = true)
    (same : first ++ a :: rest = second ++ a :: more) : first = second ∧ rest = more := by
  have ends : ∀ (tail : List α) (b : α), (a :: tail).head? = some b → p b = false := by
    intro tail b isHead
    cases isHead
    exact stops
  have spans := congrArg (List.span p) same
  rw [span_append insideFirst (ends rest), span_append insideSecond (ends more), Prod.mk.injEq,
    List.cons.injEq] at spans
  exact ⟨spans.1, spans.2.2⟩

/-- Trimming at the start stops at an element that is kept. -/
theorem dropWhile_append_stop (stops : p a = false) (first rest : List α) :
    (first ++ a :: rest).dropWhile p = first.dropWhile p ++ a :: rest := by
  rw [List.dropWhile_append]
  cases left : first.dropWhile p with
  | nil => simp [stops]
  | cons b more => simp

/-- Trimming at the end stops at an element that is kept. -/
theorem rdropWhile_append_stop (stops : p a = false) (first rest : List α) :
    (first ++ a :: rest).rdropWhile p = first ++ a :: rest.rdropWhile p := by
  have reversed : (first ++ a :: rest).reverse = rest.reverse ++ a :: first.reverse := by simp
  rw [List.rdropWhile, reversed, dropWhile_append_stop stops, List.rdropWhile]
  simp

/-- What is trimmed at the end comes after an element that is kept. -/
theorem rtakeWhile_append_stop (stops : p a = false) (first rest : List α) :
    (first ++ a :: rest).rtakeWhile p = rest.rtakeWhile p := by
  have whole := List.rdropWhile_append_rtakeWhile (p := p) (l := first ++ a :: rest)
  have after := List.rdropWhile_append_rtakeWhile (p := p) (l := rest)
  rw [rdropWhile_append_stop stops] at whole
  apply (List.append_right_inj (first ++ a :: rest.rdropWhile p)).mp
  rw [whole, List.append_assoc, List.cons_append, after]

end Spans
