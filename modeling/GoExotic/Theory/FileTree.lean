/-
Module: GoExotic.Theory.FileTree
Purpose: Directory trees with symbolic links, and how a path is looked up in one. Names are walked one by
  one from a directory; a link is replaced by its target, at most so many times, except that a lookup of
  the entry itself does not follow a link that is the last name. A walk over plain names that meets no link
  before the last one ends right below where it started.
Trusted boundary: none
Main exports: Node, FileTree, FileTree.locate, FileTree.lstat, FileTree.readFile, resolve_append,
  resolve_followed, resolve_direct, readFile_of_lstat
-/
import GoExotic.Theory.Paths

open Paths

/-- An entry of a directory tree. -/
inductive FileTree.Node (δ : Type) where
  | dir
  | file (data : δ)
  | link (target : List Char)
  | special
deriving DecidableEq, Repr

/-- A directory tree as a process sees it: the entry at the end of a chain of names from the root, the
directory that relative paths start from, and how many links a lookup follows. -/
structure FileTree (δ : Type) where
  node : List Name → Option (FileTree.Node δ)
  workDir : List Name
  maxLinks : Nat

namespace FileTree

variable {δ : Type}

/-- Walk some names from a directory, up to a link that is to be followed. -/
def walk (tree : FileTree δ) (follows : Bool)
    (follow : List Name → List Char → List Name → Option (List Name)) :
    List Name → List Name → Option (List Name)
  | here, [] => some here
  | here, name :: rest =>
      if name = [] ∨ name = ['.'] then walk tree follows follow here rest
      else if name = ['.', '.'] then walk tree follows follow here.dropLast rest
      else
        match tree.node (here ++ [name]) with
        | none => none
        | some .dir => walk tree follows follow (here ++ [name]) rest
        | some (.link target) =>
            if rest = [] ∧ follows = false then some (here ++ [name]) else follow here target rest
        | some _ => if rest = [] then some (here ++ [name]) else none

/-- Walk some names from a directory, following at most `links` links. -/
def resolve (tree : FileTree δ) (follows : Bool) : Nat → List Name → List Name → Option (List Name)
  | 0 => walk tree follows fun _ _ _ => none
  | links + 1 => walk tree follows fun here target rest =>
      resolve tree follows links (if rooted target then [] else here) (components target ++ rest)

/-- Where a path leads. -/
def locate (tree : FileTree δ) (follows : Bool) (path : List Char) : Option (List Name) :=
  tree.resolve follows tree.maxLinks (if rooted path then [] else tree.workDir) (components path)

/-- The entry a path names; a link at its end is not followed. -/
def lstat (tree : FileTree δ) (path : List Char) : Option (Node δ) :=
  (tree.locate false path).bind tree.node

/-- The data of the file a path leads to. -/
def readFile (tree : FileTree δ) (path : List Char) : Option δ :=
  match (tree.locate true path).bind tree.node with
  | some (.file data) => some data
  | _ => none

variable {tree : FileTree δ} {follows : Bool}

/-! ### Walking on -/

section Walk

variable {follow : List Name → List Char → List Name → Option (List Name)}

theorem walk_stay {here rest : List Name} {name : Name} (stays : name = [] ∨ name = ['.']) :
    tree.walk follows follow here (name :: rest) = tree.walk follows follow here rest := by
  rw [walk, if_pos stays]

theorem walk_up (here rest : List Name) :
    tree.walk follows follow here (['.', '.'] :: rest) = tree.walk follows follow here.dropLast rest := by
  rw [walk, if_neg (by decide), if_pos rfl]

/-- A walk over a plain name looks at the entry below. -/
theorem walk_plain {here rest : List Name} {name : Name} (plain : Plain name) :
    tree.walk follows follow here (name :: rest) =
      match tree.node (here ++ [name]) with
      | none => none
      | some .dir => tree.walk follows follow (here ++ [name]) rest
      | some (.link target) =>
          if rest = [] ∧ follows = false then some (here ++ [name]) else follow here target rest
      | some _ => if rest = [] then some (here ++ [name]) else none := by
  obtain ⟨nonempty, notDot, notDots⟩ := plain
  rw [walk, if_neg (not_or.mpr ⟨nonempty, notDot⟩), if_neg notDots]

theorem name_cases (name : Name) : (name = [] ∨ name = ['.']) ∨ name = ['.', '.'] ∨ Plain name := by
  by_cases stays : name = [] ∨ name = ['.']
  · exact Or.inl stays
  · obtain ⟨nonempty, notDot⟩ := not_or.mp stays
    by_cases isDots : name = ['.', '.']
    · exact Or.inr (Or.inl isDots)
    · exact Or.inr (Or.inr ⟨nonempty, notDot, isDots⟩)

/-- A walk that ends below some names has passed the end of the first of them, if that holds of what is
walked at the links. -/
theorem walk_append (links : Nat) {followFirst : List Name → List Char → List Name → Option (List Name)}
    {last found : List Name} (given : last ≠ [])
    (walked : tree.resolve follows links = tree.walk follows follow)
    (atLink : ∀ here target rest, follow here target (rest ++ last) = some found →
      ∃ left between, followFirst here target rest = some between ∧
        tree.resolve follows left between last = some found)
    {here first : List Name} (ends : tree.walk follows follow here (first ++ last) = some found) :
    ∃ left between, tree.walk true followFirst here first = some between ∧
      tree.resolve follows left between last = some found := by
  induction first generalizing here with
  | nil => exact ⟨links, here, rfl, by rw [walked]; exact ends⟩
  | cons name rest inductionHypothesis =>
      have more : ¬ rest ++ last = [] := List.append_ne_nil_of_right_ne_nil rest given
      rw [List.cons_append] at ends
      rcases name_cases name with stays | rfl | plain
      · rw [walk_stay stays] at ends ⊢
        exact inductionHypothesis ends
      · rw [walk_up] at ends ⊢
        exact inductionHypothesis ends
      · rw [walk_plain plain] at ends ⊢
        cases entry : tree.node (here ++ [name]) with
        | none => simp [entry] at ends
        | some node =>
            rw [entry] at ends
            cases node with
            | dir => exact inductionHypothesis ends
            | link target =>
                simp only [more, false_and, if_false] at ends
                simp only [Bool.true_eq_false, and_false, if_false]
                exact atLink here target rest ends
            | file data => simp [more] at ends
            | special => simp [more] at ends

/-- A walk that does not follow a last link, and ends at none, is that of a lookup that follows it. -/
theorem walk_followed {followLast : List Name → List Char → List Name → Option (List Name)}
    {found : List Name} (noLink : ∀ target, tree.node found ≠ some (.link target))
    (atLink : ∀ here target rest, follow here target rest = some found →
      followLast here target rest = some found)
    {here names : List Name} (ends : tree.walk false follow here names = some found) :
    tree.walk true followLast here names = some found := by
  induction names generalizing here with
  | nil => exact ends
  | cons name rest inductionHypothesis =>
      rcases name_cases name with stays | rfl | plain
      · rw [walk_stay stays] at ends ⊢
        exact inductionHypothesis ends
      · rw [walk_up] at ends ⊢
        exact inductionHypothesis ends
      · rw [walk_plain plain] at ends ⊢
        cases entry : tree.node (here ++ [name]) with
        | none => simp [entry] at ends
        | some node =>
            rw [entry] at ends
            cases node with
            | dir => exact inductionHypothesis ends
            | file data => exact ends
            | special => exact ends
            | link target =>
                simp only [and_true, Bool.true_eq_false, and_false, if_false] at ends ⊢
                by_cases isLast : rest = []
                · rw [if_pos isLast, Option.some.injEq] at ends
                  exact absurd (ends ▸ entry) (noLink target)
                · rw [if_neg isLast] at ends
                  exact atLink here target rest ends

/-- A walk over one plain name ends at the entry below. -/
theorem walk_last {here found : List Name} {name : Name} (plain : Plain name)
    (ends : tree.walk false follow here [name] = some found) : found = here ++ [name] := by
  rw [walk_plain plain] at ends
  cases entry : tree.node (here ++ [name]) with
  | none => simp [entry] at ends
  | some node => cases node <;> simp_all [walk]

/-- A walk over a plain name that is no link and not the last goes through a directory. -/
theorem walk_into {here rest found : List Name} {name : Name} (plain : Plain name) (more : rest ≠ [])
    (noLink : ∀ target, tree.node (here ++ [name]) ≠ some (.link target))
    (ends : tree.walk false follow here (name :: rest) = some found) :
    tree.node (here ++ [name]) = some .dir ∧ tree.walk false follow (here ++ [name]) rest = some found := by
  rw [walk_plain plain] at ends
  cases entry : tree.node (here ++ [name]) with
  | none => simp [entry] at ends
  | some node =>
      rw [entry] at ends
      cases node with
      | dir => exact ⟨rfl, ends⟩
      | link target => exact absurd entry (noLink target)
      | file data => simp [more] at ends
      | special => simp [more] at ends

/-- Over plain names, a walk that meets no link before the last one passes directories, down to the entry
the names lead to. -/
theorem walk_direct {here names found : List Name} (plain : ∀ name ∈ names, Plain name)
    (noLink : ∀ k, 0 < k → k < names.length → ∀ target, tree.node (here ++ names.take k) ≠ some (.link target))
    (ends : tree.walk false follow here names = some found) :
    found = here ++ names ∧
      ∀ k, 0 < k → k < names.length → tree.node (here ++ names.take k) = some .dir := by
  induction names generalizing here with
  | nil =>
      rw [walk, Option.some.injEq] at ends
      exact ⟨by rw [← ends, List.append_nil], fun k _ inside => absurd inside (Nat.not_lt_zero k)⟩
  | cons name rest inductionHypothesis =>
      by_cases isLast : rest = []
      · subst isLast
        refine ⟨walk_last (plain name (by simp)) ends, fun k above below => ?_⟩
        rw [List.length_singleton] at below
        omega
      · have length : (name :: rest).length = rest.length + 1 := List.length_cons
        have more := List.length_pos_iff.mpr isLast
        obtain ⟨isDir, walked⟩ := walk_into (plain name (by simp)) isLast (noLink 1 Nat.one_pos (by omega)) ends
        have deeper : ∀ k, here ++ [name] ++ rest.take k = here ++ (name :: rest).take (k + 1) := by
          intro k
          rw [List.take_succ_cons, List.append_assoc]
          rfl
        obtain ⟨rfl, dirs⟩ := inductionHypothesis
          (fun other member => plain other (List.mem_cons_of_mem name member))
          (fun k above below target => by
            rw [deeper]
            exact noLink (k + 1) (by omega) (by omega) target) walked
        refine ⟨by rw [List.append_assoc]; rfl, ?_⟩
        intro k above below
        cases k with
        | zero => exact absurd above (Nat.lt_irrefl 0)
        | succ k =>
            rw [← deeper]
            cases k with
            | zero => rwa [List.take_zero, List.append_nil]
            | succ k => exact dirs (k + 1) (by omega) (by omega)

end Walk

/-! ### Looking up -/

/-- Names that end somewhere pass the end of the first of them, and go on from there with the links left. -/
theorem resolve_append {links : Nat} {here first last found : List Name} (given : last ≠ [])
    (ends : tree.resolve follows links here (first ++ last) = some found) :
    ∃ left between, tree.resolve true links here first = some between ∧
      tree.resolve follows left between last = some found := by
  induction links generalizing here first with
  | zero => exact walk_append 0 given rfl (fun _ _ _ none => by cases none) ends
  | succ links inductionHypothesis =>
      apply walk_append (links + 1) given rfl ?_ ends
      intro here target rest ends
      rw [← List.append_assoc] at ends
      exact inductionHypothesis ends

/-- Where a lookup ends at no link, one that follows a last link ends too. -/
theorem resolve_followed {links : Nat} {here names found : List Name}
    (noLink : ∀ target, tree.node found ≠ some (.link target))
    (ends : tree.resolve false links here names = some found) :
    tree.resolve true links here names = some found := by
  induction links generalizing here names with
  | zero => exact walk_followed noLink (fun _ _ _ none => none) ends
  | succ links inductionHypothesis =>
      exact walk_followed noLink (fun here target rest ends => inductionHypothesis ends) ends

/-- Plain names without a link before the last one lead through directories to the entry they name. -/
theorem resolve_direct {links : Nat} {here names found : List Name} (plain : ∀ name ∈ names, Plain name)
    (noLink : ∀ k, 0 < k → k < names.length → ∀ target, tree.node (here ++ names.take k) ≠ some (.link target))
    (ends : tree.resolve false links here names = some found) :
    found = here ++ names ∧ ∀ k, 0 < k → k < names.length → tree.node (here ++ names.take k) = some .dir := by
  cases links with
  | zero => exact walk_direct plain noLink ends
  | succ links => exact walk_direct plain noLink ends

/-- A lookup that finds a file is that of its reader. -/
theorem readFile_of_lstat {path : List Char} {data : δ} (isFile : tree.lstat path = some (.file data)) :
    ∃ found, tree.locate true path = some found ∧ tree.locate false path = some found ∧
      tree.node found = some (.file data) ∧ tree.readFile path = some data := by
  obtain ⟨found, ends, entry⟩ := Option.bind_eq_some_iff.mp isFile
  have noLink : ∀ target, tree.node found ≠ some (.link target) := by
    intro target isLink
    rw [entry] at isLink
    cases isLink
  have followed : tree.locate true path = some found := resolve_followed noLink ends
  refine ⟨found, followed, ends, entry, ?_⟩
  rw [readFile, followed, Option.bind_some, entry]

end FileTree
