/-
Module: GoExotic.Theory.Directories
Purpose: Looking up a name in a directory that a path leads to. The path of the entry is written by joining
  the path of the directory and the name and normalising the result as text. The text leads to the entry if
  the directory's path goes up only before it goes down; behind a name that is a link, going up leads
  elsewhere than the text says.
Trusted boundary: none
Main exports: GoesUpFirst, clean_ne_nil, join_pair, FileTree.IsDir, resolve_into, resolve_reduce,
  locate_join
-/
import GoExotic.Theory.FileTree

open Paths

/-- No double dot follows a plain name. -/
def Paths.GoesUpFirst (names : List Name) : Prop :=
  names.Pairwise fun earlier later => later = ['.', '.'] → ¬ Plain earlier

instance (names : List Name) : Decidable (GoesUpFirst names) := inferInstanceAs (Decidable (List.Pairwise _ _))

/-- A normalised path is not empty. -/
theorem Paths.clean_ne_nil (path : List Char) : clean path ≠ [] := by
  rw [clean]
  split_ifs with isRooted none
  · exact List.cons_ne_nil _ _
  · exact List.cons_ne_nil _ _
  · intro empty
    have split := components_intercalate none fun name member =>
      slash_notMem_components path name (mem_reduce member).1
    rw [empty, components_nil] at split
    exact (mem_reduce (split ▸ List.mem_singleton_self [])).2.1 rfl

/-- A path that is not empty, joined with another, is normalised after it. -/
theorem Paths.join_pair {path : List Char} (given : path ≠ []) (name : List Char) :
    join [path, name] = clean (path ++ '/' :: name) := by
  have isEmpty : path.isEmpty = false := List.isEmpty_eq_false_iff.mpr given
  simp [join, List.dropWhile, isEmpty]

namespace FileTree

variable {δ : Type} {tree : FileTree δ} {follows : Bool}

/-- The names from the root lead to a directory. -/
def IsDir (tree : FileTree δ) (names : List Name) : Prop := names = [] ∨ tree.node names = some .dir

instance [DecidableEq δ] (tree : FileTree δ) (names : List Name) : Decidable (tree.IsDir names) :=
  inferInstanceAs (Decidable (_ ∨ _))

/-! ### Going on in a directory -/

/-- A walk that ends in a directory goes on there, if that holds at the links. -/
theorem walk_into_dir {followFirst follow : List Name → List Char → List Name → Option (List Name)}
    {last between : List Name} {found : Option (List Name)} (given : last ≠ []) (isDir : tree.IsDir between)
    (goesOn : tree.walk follows follow between last = found)
    (atLink : ∀ here target rest, followFirst here target rest = some between →
      follow here target (rest ++ last) = found)
    {here first : List Name} (ends : tree.walk true followFirst here first = some between) :
    tree.walk follows follow here (first ++ last) = found := by
  induction first generalizing here with
  | nil =>
      rw [walk, Option.some.injEq] at ends
      rw [ends]
      exact goesOn
  | cons name rest inductionHypothesis =>
      have more : ¬ rest ++ last = [] := List.append_ne_nil_of_right_ne_nil rest given
      rw [List.cons_append]
      rcases name_cases name with stays | rfl | plain
      · rw [walk_stay stays] at ends ⊢
        exact inductionHypothesis ends
      · rw [walk_up] at ends ⊢
        exact inductionHypothesis ends
      · rw [walk_plain plain] at ends ⊢
        cases entry : tree.node (here ++ [name]) with
        | none => simp [entry] at ends
        | some node =>
            rw [entry] at ends
            -- an entry at the end of the first names is the directory itself
            have notLast : ∀ other, node = other → other ≠ .dir → some (here ++ [name]) ≠ some between := by
              rintro other rfl notDir same
              rw [Option.some.injEq] at same
              rcases isDir with top | dir
              · exact absurd (same.trans top) (List.append_ne_nil_of_right_ne_nil here (List.cons_ne_nil name []))
              · rw [← same, entry, Option.some.injEq] at dir
                exact notDir dir
            cases node with
            | dir => exact inductionHypothesis ends
            | link target =>
                simp only [Bool.true_eq_false, and_false, if_false] at ends
                simp only [more, false_and, if_false]
                exact atLink here target rest ends
            | file data =>
                dsimp only at ends
                split_ifs at ends with isLast
                exact absurd ends (notLast _ rfl (by simp))
            | special =>
                dsimp only at ends
                split_ifs at ends with isLast
                exact absurd ends (notLast _ rfl (by simp))

/-- An entry of a directory that some names lead to is where the names and its own name lead to. -/
theorem resolve_into {links : Nat} {here first between : List Name} {name : Name} (plain : Plain name)
    (isDir : tree.IsDir between) (entry : tree.node (between ++ [name]) = some .dir)
    (ends : tree.resolve true links here first = some between) :
    tree.resolve follows links here (first ++ [name]) = some (between ++ [name]) := by
  have goesOn : ∀ follow, tree.walk follows follow between [name] = some (between ++ [name]) := by
    intro follow
    rw [walk_plain plain, entry]
    rfl
  induction links generalizing here first with
  | zero => exact walk_into_dir (List.cons_ne_nil name []) isDir (goesOn _) (fun _ _ _ none => by cases none) ends
  | succ links inductionHypothesis =>
      apply walk_into_dir (List.cons_ne_nil name []) isDir (goesOn _) ?_ ends
      intro here target rest ends
      rw [← List.append_assoc]
      exact inductionHypothesis ends

/-! ### Normalised names -/

/-- An empty name or a dot before other names makes no difference. -/
theorem resolve_stay {links : Nat} {here first last : List Name} {name : Name}
    (stays : name = [] ∨ name = ['.']) (given : last ≠ []) :
    tree.resolve follows links here (first ++ name :: last) = tree.resolve follows links here (first ++ last) := by
  have each : ∀ (follow : List Name → List Char → List Name → Option (List Name)) (here first : List Name),
      (∀ here target rest, follow here target (rest ++ name :: last) = follow here target (rest ++ last)) →
        tree.walk follows follow here (first ++ name :: last) = tree.walk follows follow here (first ++ last) := by
    intro follow here first atLink
    induction first generalizing here with
    | nil => exact walk_stay stays
    | cons other rest inductionHypothesis =>
        have more : ¬ rest ++ name :: last = [] := List.append_ne_nil_of_right_ne_nil rest (List.cons_ne_nil _ _)
        have alsoMore : ¬ rest ++ last = [] := List.append_ne_nil_of_right_ne_nil rest given
        rw [List.cons_append, List.cons_append]
        rcases name_cases other with skipped | rfl | plain
        · rw [walk_stay skipped, walk_stay skipped]
          exact inductionHypothesis here
        · rw [walk_up, walk_up]
          exact inductionHypothesis here.dropLast
        · rw [walk_plain plain, walk_plain plain]
          simp only [more, alsoMore, false_and, if_false, atLink, inductionHypothesis]
  induction links generalizing here first with
  | zero => exact each _ here first fun _ _ _ => rfl
  | succ links inductionHypothesis =>
      apply each
      intro here target rest
      rw [← List.append_assoc, ← List.append_assoc]
      exact inductionHypothesis

/-- At the root, a double dot stays there. -/
theorem resolve_up_root (links : Nat) (names : List Name) :
    tree.resolve follows links [] (['.', '.'] :: names) = tree.resolve follows links [] names := by
  cases links with
  | zero => exact walk_up [] names
  | succ links => exact walk_up [] names

/-- Normalising names that go up first does not change where they lead, in front of another name. -/
theorem resolve_reduce {links : Nat} {here names last : List Name} {fromRoot : Bool}
    (atRoot : fromRoot = true → here = []) (given : last ≠ []) (goesUpFirst : GoesUpFirst names) :
    tree.resolve follows links here (reduce fromRoot names ++ last) =
      tree.resolve follows links here (names ++ last) := by
  -- the stack holds names that are kept, and goes up first together with the names to come
  have each : ∀ (names stack : List Name), GoesUpFirst (stack.reverse ++ names) →
      (∀ name ∈ stack, name ≠ [] ∧ name ≠ ['.']) → (fromRoot = true → ['.', '.'] ∉ stack) →
        tree.resolve follows links here ((names.foldl (push fromRoot) stack).reverse ++ last) =
          tree.resolve follows links here (stack.reverse ++ names ++ last) := by
    intro names
    induction names with
    | nil =>
        intro stack _ _ _
        rw [List.foldl_nil, List.append_nil]
    | cons name rest inductionHypothesis =>
        intro stack upFirst kept rootKept
        rw [List.foldl_cons]
        have shorter : GoesUpFirst (stack.reverse ++ rest) :=
          upFirst.sublist ((List.Sublist.refl _).append (List.sublist_cons_self name rest))
        have pushed : stack.reverse ++ name :: rest = (name :: stack).reverse ++ rest := by
          rw [List.reverse_cons, List.append_assoc]
          rfl
        rcases name_cases name with stays | rfl | plain
        · rw [push, if_pos stays, inductionHypothesis stack shorter kept rootKept, List.append_assoc,
            List.append_assoc, List.cons_append]
          exact (resolve_stay stays (List.append_ne_nil_of_right_ne_nil rest given)).symm
        · have onlyDots : ∀ top ∈ stack, top = ['.', '.'] := by
            intro top member
            have notPlain := (List.pairwise_append.mp upFirst).2.2 top (List.mem_reverse.mpr member)
              ['.', '.'] (by simp) rfl
            obtain ⟨nonempty, notDot⟩ := kept top member
            exact not_not.mp fun other => notPlain ⟨nonempty, notDot, other⟩
          rw [push, if_neg (by decide), if_pos rfl]
          by_cases isRooted : fromRoot = true
          · -- there is nothing on the stack at the root
            have nothing : stack = [] := by
              apply List.eq_nil_iff_forall_not_mem.mpr
              intro top member
              exact rootKept isRooted (onlyDots top member ▸ member)
            subst nothing
            rw [up, if_pos isRooted, inductionHypothesis [] shorter kept rootKept, atRoot isRooted]
            exact (resolve_up_root links _).symm
          · have raised : up fromRoot stack = ['.', '.'] :: stack := by
              cases stack with
              | nil => rw [up, if_neg isRooted]
              | cons top below => rw [up, if_pos (onlyDots top (by simp))]
            rw [raised, pushed]
            apply inductionHypothesis _ (pushed ▸ upFirst)
            · intro top member
              rcases List.mem_cons.mp member with rfl | there
              · decide
              · exact kept top there
            · intro isRooted'
              exact absurd isRooted' isRooted
        · rw [push_plain plain, pushed]
          apply inductionHypothesis _ (pushed ▸ upFirst)
          · intro top member
            rcases List.mem_cons.mp member with rfl | there
            · exact ⟨plain.1, plain.2.1⟩
            · exact kept top there
          · intro isRooted member
            rcases List.mem_cons.mp member with same | there
            · exact plain.2.2 same.symm
            · exact rootKept isRooted there
  have whole := each names [] goesUpFirst (by simp) (by simp)
  rwa [List.reverse_nil, List.nil_append] at whole

/-! ### Joined paths -/

/-- The path of a directory joined with the name of a directory in it leads to that one, if the first goes up
only before it goes down. -/
theorem locate_join {path name : List Char} {dir : List Name} (given : path ≠ [])
    (goesUpFirst : GoesUpFirst (components path)) (located : tree.locate true path = some dir)
    (isDir : tree.IsDir dir) (plain : Plain name) (noSlash : '/' ∉ name)
    (entry : tree.node (dir ++ [name]) = some .dir) :
    tree.locate follows (join [path, name]) = some (dir ++ [name]) := by
  have single : components name = [name] := by
    have whole := components_intercalate (List.cons_ne_nil name []) (by simpa using noSlash)
    rwa [List.intercalate_singleton] at whole
  have allPlain : ∀ other ∈ components name, Plain other := by
    rw [single]
    simpa using plain
  obtain ⟨names, sameRoot⟩ := components_clean_append given allPlain
  rw [single] at names
  rw [locate] at located
  rw [join_pair given, locate, names, sameRoot, List.append_assoc]
  have skipLead : ∀ here rest, rest ≠ [] →
      tree.resolve follows tree.maxLinks here (lead (rooted path) ++ rest) =
        tree.resolve follows tree.maxLinks here rest := by
    intro here rest nonempty
    rw [lead]
    split_ifs
    · exact @resolve_stay _ tree follows tree.maxLinks here [] rest [] (Or.inl rfl) nonempty
    · rfl
  rw [skipLead _ _ (List.append_ne_nil_of_right_ne_nil _ (List.cons_ne_nil name [])),
    resolve_reduce (fun isRooted => by rw [if_pos isRooted]) (List.cons_ne_nil name []) goesUpFirst]
  exact resolve_into plain isDir entry located

end FileTree
