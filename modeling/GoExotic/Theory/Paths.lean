/-
Module: GoExotic.Theory.Paths
Purpose: Path names as text. A path is split at its slashes; the lexical normaliser drops empty and dot
  components and lets a double dot cancel the component before it. A path it leaves alone has only plain
  components after its root, and plain components at the end of a path survive it.
Trusted boundary: none
Main exports: Name, components, Plain, rooted, clean, join, components_append, plain_of_clean,
  components_clean_append, components_join_append
-/
import Mathlib.Data.List.Basic

namespace Paths

/-- A component of a path. -/
abbrev Name := List Char

/-- The components between the slashes of a path; empty ones count. -/
def components (path : List Char) : List Name := path.splitOn '/'

/-- The path starts at the root. -/
def rooted (path : List Char) : Bool := path.head? == some '/'

/-- A component that names an entry of a directory. -/
def Plain (name : Name) : Prop := name ≠ [] ∧ name ≠ ['.'] ∧ name ≠ ['.', '.']

instance (name : Name) : Decidable (Plain name) := inferInstanceAs (Decidable (_ ∧ _))

/-- What a double dot leaves of the components before it. -/
def up (fromRoot : Bool) : List Name → List Name
  | [] => if fromRoot then [] else [['.', '.']]
  | top :: below => if top = ['.', '.'] then ['.', '.'] :: top :: below else below

/-- Push a component on the stack of those before it. -/
def push (fromRoot : Bool) (stack : List Name) (name : Name) : List Name :=
  if name = [] ∨ name = ['.'] then stack
  else if name = ['.', '.'] then up fromRoot stack
  else name :: stack

/-- The components left of some components. -/
def reduce (fromRoot : Bool) (names : List Name) : List Name := (names.foldl (push fromRoot) []).reverse

/-- The lexical normaliser. -/
def clean (path : List Char) : List Char :=
  let names := reduce (rooted path) (components path)
  if rooted path then '/' :: ['/'].intercalate names
  else if names = [] then ['.']
  else ['/'].intercalate names

/-- The paths one after the other, normalised; empty ones at the start are ignored. -/
def join (paths : List (List Char)) : List Char :=
  match paths.dropWhile (fun path => path.isEmpty) with
  | [] => []
  | given => clean (['/'].intercalate given)

example : clean "/a/./b//../c".toList = "/a/c".toList ∧ clean "../a/..".toList = "..".toList ∧
    join ["".toList, "web".toList, "static".toList] = "web/static".toList := by decide

/-! ### Splitting -/

theorem components_append (a b : List Char) : components (a ++ '/' :: b) = components a ++ components b :=
  List.splitOn_append_cons_self a b

theorem components_ne_nil (path : List Char) : components path ≠ [] := List.splitOn_ne_nil '/' path

theorem components_nil : components [] = [[]] := List.splitOn_nil '/'

/-- No component has a slash. -/
theorem slash_notMem_components (path : List Char) : ∀ name ∈ components path, '/' ∉ name := by
  induction path with
  | nil => simp [components_nil]
  | cons c rest inductionHypothesis =>
      intro name member
      rw [components, List.splitOn_cons_eq_if_modifyHead] at member
      split_ifs at member with isSlash
      · rcases List.mem_cons.mp member with rfl | inRest
        · simp
        · exact inductionHypothesis name inRest
      · cases split : List.splitOn '/' rest with
        | nil => exact absurd split (List.splitOn_ne_nil '/' rest)
        | cons first others =>
            have ofRest : ∀ name ∈ first :: others, '/' ∉ name := by
              rw [← split]
              exact inductionHypothesis
            rw [split, List.modifyHead_cons] at member
            rcases List.mem_cons.mp member with rfl | inRest
            · have notSlash : '/' ≠ c := fun same => isSlash (beq_iff_eq.mpr same.symm)
              exact List.not_mem_cons_of_ne_of_not_mem notSlash (ofRest first (by simp))
            · exact ofRest name (List.mem_cons_of_mem _ inRest)

theorem components_intercalate {names : List Name} (given : names ≠ [])
    (noSlash : ∀ name ∈ names, '/' ∉ name) : components (['/'].intercalate names) = names :=
  List.splitOn_intercalate '/' noSlash given

/-! ### The stack -/

section Stack

variable {fromRoot : Bool}

theorem push_plain {stack : List Name} {name : Name} (plain : Plain name) :
    push fromRoot stack name = name :: stack := by
  obtain ⟨nonempty, notDot, notDots⟩ := plain
  rw [push, if_neg (not_or.mpr ⟨nonempty, notDot⟩), if_neg notDots]

theorem foldl_push_plain {names : List Name} (plain : ∀ name ∈ names, Plain name) (stack : List Name) :
    names.foldl (push fromRoot) stack = names.reverse ++ stack := by
  induction names generalizing stack with
  | nil => rfl
  | cons name rest inductionHypothesis =>
      rw [List.foldl_cons, push_plain (plain name (by simp)),
        inductionHypothesis (fun other member => plain other (List.mem_cons_of_mem name member)),
        List.reverse_cons, List.append_assoc]
      rfl

/-- Plain components at the end are kept. -/
theorem reduce_append_plain (names : List Name) {last : List Name} (plain : ∀ name ∈ last, Plain name) :
    reduce fromRoot (names ++ last) = reduce fromRoot names ++ last := by
  rw [reduce, List.foldl_append, foldl_push_plain plain, List.reverse_append, List.reverse_reverse, reduce]

/-- What a double dot leaves: itself, unless it is at the root of plain components, and what was there. -/
theorem mem_up {stack : List Name} {kept : Name} (member : kept ∈ up fromRoot stack) :
    (kept = ['.', '.'] ∧ (fromRoot = true → ['.', '.'] ∈ stack)) ∨ kept ∈ stack := by
  cases stack with
  | nil =>
      rw [up] at member
      split_ifs at member with isRooted
      · cases member
      · exact Or.inl ⟨List.mem_singleton.mp member, fun atRoot => absurd atRoot isRooted⟩
  | cons top below =>
      rw [up] at member
      split_ifs at member with topDots
      · rcases List.mem_cons.mp member with rfl | there
        · exact Or.inl ⟨rfl, fun _ => by simp [topDots]⟩
        · exact Or.inr there
      · exact Or.inr (List.mem_cons_of_mem top member)

/-- What a push leaves on the stack: the component, unless it is empty or a dot, and what was there. -/
theorem mem_push {stack : List Name} {name kept : Name} (member : kept ∈ push fromRoot stack name) :
    (kept = name ∧ name ≠ [] ∧ name ≠ ['.'] ∧ (fromRoot = true → ['.', '.'] ∉ stack → Plain name)) ∨ kept ∈ stack := by
  rw [push] at member
  split_ifs at member with skipped isDots
  · exact Or.inr member
  · obtain ⟨nonempty, notDot⟩ := not_or.mp skipped
    rcases mem_up member with ⟨rfl, below⟩ | there
    · exact Or.inl ⟨isDots.symm, nonempty, notDot, fun isRooted none => absurd (below isRooted) none⟩
    · exact Or.inr there
  · obtain ⟨nonempty, notDot⟩ := not_or.mp skipped
    rcases List.mem_cons.mp member with rfl | there
    · exact Or.inl ⟨rfl, nonempty, notDot, fun _ _ => ⟨nonempty, notDot, isDots⟩⟩
    · exact Or.inr there

/-- The stack holds given components, none of them empty or a dot. -/
theorem mem_foldl_push {names stack : List Name} {kept : Name}
    (member : kept ∈ names.foldl (push fromRoot) stack) :
    (kept ∈ names ∧ kept ≠ [] ∧ kept ≠ ['.']) ∨ kept ∈ stack := by
  induction names generalizing stack with
  | nil => exact Or.inr member
  | cons name rest inductionHypothesis =>
      rcases inductionHypothesis member with ⟨inRest, proper⟩ | pushed
      · exact Or.inl ⟨List.mem_cons_of_mem name inRest, proper⟩
      · rcases mem_push pushed with ⟨rfl, nonempty, notDot, -⟩ | there
        · exact Or.inl ⟨by simp, nonempty, notDot⟩
        · exact Or.inr there

theorem mem_reduce {names : List Name} {kept : Name} (member : kept ∈ reduce fromRoot names) :
    kept ∈ names ∧ kept ≠ [] ∧ kept ≠ ['.'] := by
  rcases mem_foldl_push (List.mem_reverse.mp member) with found | none
  · exact found
  · cases none

/-- At the root a double dot has nothing to stay for. -/
theorem plain_of_mem_reduce (isRooted : fromRoot = true) {names : List Name} {kept : Name}
    (member : kept ∈ reduce fromRoot names) : Plain kept := by
  have each : ∀ (names stack : List Name), (∀ name ∈ stack, Plain name) →
      ∀ name ∈ names.foldl (push fromRoot) stack, Plain name := by
    intro names
    induction names with
    | nil => exact fun stack plain => plain
    | cons name rest inductionHypothesis =>
        intro stack plain
        apply inductionHypothesis
        intro other pushed
        rcases mem_push pushed with ⟨rfl, -, -, isPlain⟩ | there
        · exact isPlain isRooted fun dots => (plain _ dots).2.2 rfl
        · exact plain other there
  exact each names [] (by simp) kept (List.mem_reverse.mp member)

end Stack

/-! ### Normalised paths -/

/-- The components a path starts with: an empty one if it starts at the root. -/
def lead (fromRoot : Bool) : List Name := if fromRoot then [[]] else []

/-- A rooted path that normalisation leaves alone has plain components. -/
theorem plain_of_clean {path : List Char} (given : path ≠ []) (clean : clean ('/' :: path) = '/' :: path) :
    ∀ name ∈ components path, Plain name := by
  have isRooted : rooted ('/' :: path) = true := rfl
  rw [Paths.clean, isRooted, if_pos rfl, List.cons.injEq] at clean
  have joined := clean.2
  generalize isNames : reduce true (components ('/' :: path)) = names at joined
  have each : ∀ name ∈ names, name ∈ components ('/' :: path) ∧ Plain name := by
    rw [← isNames]
    exact fun name member => ⟨(mem_reduce member).1, plain_of_mem_reduce rfl member⟩
  have some : names ≠ [] := by
    rintro rfl
    exact given joined.symm
  rw [← joined, components_intercalate some fun name member =>
    slash_notMem_components _ name (each name member).1]
  exact fun name member => (each name member).2

theorem rooted_append {path : List Char} (given : path ≠ []) (later : List Char) :
    rooted (path ++ later) = rooted path := by
  cases path with
  | nil => exact absurd rfl given
  | cons c rest => rfl

/-- The components of a normalised path, if it keeps any. -/
theorem components_clean {path : List Char} (some : reduce (rooted path) (components path) ≠ []) :
    components (clean path) = lead (rooted path) ++ reduce (rooted path) (components path) := by
  have whole : components (['/'].intercalate (reduce (rooted path) (components path))) =
      reduce (rooted path) (components path) :=
    components_intercalate some fun name member => slash_notMem_components _ name (mem_reduce member).1
  rw [clean, lead]
  split_ifs with isRooted
  · have split := components_append [] (['/'].intercalate (reduce (rooted path) (components path)))
    rwa [List.nil_append, whole, components_nil] at split
  · exact whole

theorem rooted_clean {path : List Char} (some : reduce (rooted path) (components path) ≠ []) :
    rooted (clean path) = rooted path := by
  rw [clean]
  split_ifs with isRooted
  · exact isRooted.symm
  · -- The first component that is kept is not empty and has no slash.
    obtain ⟨first, others, split⟩ := List.exists_cons_of_ne_nil some
    have kept : first ∈ reduce (rooted path) (components path) := split ▸ List.mem_cons_self
    obtain ⟨given, nonempty, -⟩ := mem_reduce kept
    obtain ⟨c, rest, rfl⟩ := List.exists_cons_of_ne_nil nonempty
    have notSlash : c ≠ '/' := by
      rintro rfl
      exact slash_notMem_components path _ given (by simp)
    have startsPlain : rooted (['/'].intercalate ((c :: rest) :: others)) = false := by
      cases others with
      | nil => simp [rooted, notSlash]
      | cons next more => simp [rooted, notSlash]
    rw [split, startsPlain]
    exact (Bool.eq_false_iff.mpr isRooted).symm

/-- Plain components at the end of a path survive normalisation. -/
theorem components_clean_append {path last : List Char} (given : path ≠ [])
    (plain : ∀ name ∈ components last, Plain name) :
    components (clean (path ++ '/' :: last)) =
        lead (rooted path) ++ reduce (rooted path) (components path) ++ components last ∧
      rooted (clean (path ++ '/' :: last)) = rooted path := by
  have sameRoot := rooted_append given ('/' :: last)
  have reduced : reduce (rooted path) (components (path ++ '/' :: last)) =
      reduce (rooted path) (components path) ++ components last := by
    rw [components_append, reduce_append_plain _ plain]
  have some : reduce (rooted (path ++ '/' :: last)) (components (path ++ '/' :: last)) ≠ [] := by
    rw [sameRoot, reduced]
    exact List.append_ne_nil_of_right_ne_nil _ (components_ne_nil last)
  rw [components_clean some, rooted_clean some, sameRoot, reduced, List.append_assoc]
  exact ⟨rfl, rfl⟩

/-- Plain components joined to a path are walked after it. -/
theorem components_join_append {dir middle last : List Char} (given : dir ≠ [])
    (plainMiddle : ∀ name ∈ components middle, Plain name)
    (plainLast : ∀ name ∈ components last, Plain name) :
    components (join [dir, middle, last]) = components (join [dir, middle]) ++ components last ∧
      rooted (join [dir, middle, last]) = rooted (join [dir, middle]) := by
  have isEmpty : dir.isEmpty = false := List.isEmpty_eq_false_iff.mpr given
  have first : join [dir, middle] = clean (dir ++ '/' :: middle) := by
    simp [join, List.dropWhile, isEmpty]
  have second : join [dir, middle, last] = clean ((dir ++ '/' :: middle) ++ '/' :: last) := by
    simp [join, List.dropWhile, isEmpty]
  have some : dir ++ '/' :: middle ≠ [] := List.append_ne_nil_of_left_ne_nil given _
  obtain ⟨base, baseRoot⟩ := components_clean_append given plainMiddle
  obtain ⟨whole, wholeRoot⟩ := components_clean_append some plainLast
  have sameRoot := rooted_append given ('/' :: middle)
  have reduced : reduce (rooted dir) (components (dir ++ '/' :: middle)) =
      reduce (rooted dir) (components dir) ++ components middle := by
    rw [components_append, reduce_append_plain _ plainMiddle]
  rw [first, second, whole, wholeRoot, base, baseRoot, sameRoot, reduced, ← List.append_assoc]
  exact ⟨rfl, rfl⟩

end Paths
