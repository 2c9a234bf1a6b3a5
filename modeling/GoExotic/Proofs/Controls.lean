/-
Module: GoExotic.Proofs.Controls
Purpose: The controls stay in range and survive a reload. Whatever is typed, stored or refused, and whatever other tabs
  write, the number of layers is positive and the inventory limit is between 1 and 200. If the browser read what it
  had stored when the page was loaded and wrote every change since, a reload that can read shows the same controls,
  but for empty texts, which come back as their defaults.
Trusted boundary: Number reads back what String wrote, through LosslessNumbers
Main exports: LosslessNumbers, ControlValues.InRange, ControlValues.defaulted, Page.Synced, controls_survive_reload
-/
import GoExotic.Model.Controls
import Mathlib.Data.List.Induction

namespace GoExotic

variable {N : Type} [LinearOrder N] {lib : NumberLib N}

/-- `Number` reads back what `String` wrote, which is never empty, and the integers are in their order. -/
structure LosslessNumbers (lib : NumberLib N) : Prop where
  reads : ∀ n, lib.parse (lib.print n) = some n
  given : ∀ n, lib.print n ≠ ""
  ascending : StrictMono lib.ofNat

/-! ### Storage -/

theorem loadString_saved (key other value fallback : String) (items : LocalStorage) :
    loadString (some (saveValue true key value items)) other fallback =
      if other = key then orElse value fallback else loadString (some items) other fallback := by
  rw [saveValue, if_pos rfl]
  by_cases same : other = key
  · rw [if_pos same, same, loadString, Function.update_self, Option.getD_some]
  · rw [if_neg same, loadString, Function.update_of_ne same]
    rfl

theorem loadString_ne_empty {fallback : String} (given : fallback ≠ "") (storage : Option LocalStorage)
    (key : String) : loadString storage key fallback ≠ "" := by
  cases storage with
  | none => exact given
  | some items =>
      rw [loadString, orElse]
      split_ifs with empty
      · exact given
      · exact empty

theorem orElse_of_ne {text : String} (given : text ≠ "") (fallback : String) : orElse text fallback = text :=
  if_neg given

/-- A number that was saved is loaded again if it is positive, and no other number changes. -/
theorem loadNumber_saved (lossless : LosslessNumbers lib) {n : N} (positive : lib.ofNat 0 < n)
    (key other : String) (fallback : N) (items : LocalStorage) :
    loadNumber lib (some (saveValue true key (lib.print n) items)) other fallback =
      if other = key then n else loadNumber lib (some items) other fallback := by
  rw [loadNumber, loadString_saved]
  split_ifs with same
  · rw [orElse_of_ne (lossless.given n), lossless.reads n]
    exact if_pos positive
  · rfl

theorem loadNumber_positive (storage : Option LocalStorage) (key : String) {fallback : N}
    (positive : lib.ofNat 0 < fallback) : lib.ofNat 0 < loadNumber lib storage key fallback := by
  rw [loadNumber]
  cases lib.parse (loadString storage key (lib.print fallback)) with
  | none => exact positive
  | some parsed =>
      dsimp only
      split_ifs with isPositive
      · exact isPositive
      · exact positive

/-! ### Ranges -/

/-- The controls are in range. -/
structure ControlValues.InRange (lib : NumberLib N) (c : ControlValues N) : Prop where
  layers : lib.ofNat 0 < c.layers
  limit : lib.ofNat 1 ≤ c.modelLimit ∧ c.modelLimit ≤ lib.ofNat 200

theorem clamp_range (lossless : LosslessNumbers lib) (value : N) :
    lib.ofNat 1 ≤ max (lib.ofNat 1) (min (lib.ofNat 200) value) ∧
      max (lib.ofNat 1) (min (lib.ofNat 200) value) ≤ lib.ofNat 200 :=
  ⟨le_max_left _ _, max_le (lossless.ascending.monotone (by decide)) (min_le_left _ _)⟩

theorem nextLayers_range (lossless : LosslessNumbers lib) (value : Option N) :
    lib.ofNat 1 ≤ nextLayers lib value ∧ lib.ofNat 0 < nextLayers lib value := by
  have atLeast : lib.ofNat 1 ≤ nextLayers lib value := by
    cases value with
    | none => exact le_refl _
    | some value => exact le_max_left _ _
  exact ⟨atLeast, lt_of_lt_of_le (lossless.ascending (by decide)) atLeast⟩

theorem nextModelLimit_range (lossless : LosslessNumbers lib) (value : Option N) :
    lib.ofNat 1 ≤ nextModelLimit lib value ∧ nextModelLimit lib value ≤ lib.ofNat 200 := by
  cases value with
  | none => exact ⟨le_refl _, lossless.ascending.monotone (by decide)⟩
  | some value => exact clamp_range lossless value

theorem inRange_load (lossless : LosslessNumbers lib) (storage : String → Option LocalStorage) :
    (ControlValues.load lib storage).InRange lib :=
  ⟨loadNumber_positive _ _ (lossless.ascending (by decide)), clamp_range lossless _⟩

/-- Every step keeps the controls in range. -/
theorem inRange_step (lossless : LosslessNumbers lib) {p : Page N} (inRange : p.controls.InRange lib)
    (step : Page.Step N) : (p.step lib step).controls.InRange lib := by
  cases step with
  | setLayers value written => exact ⟨(nextLayers_range lossless value).2, inRange.limit⟩
  | setModel value written => exact ⟨inRange.layers, inRange.limit⟩
  | setModelPath value written => exact ⟨inRange.layers, inRange.limit⟩
  | setModelRoot value written => exact ⟨inRange.layers, inRange.limit⟩
  | setModelLimit value written => exact ⟨inRange.layers, nextModelLimit_range lossless value⟩
  | reloads readable => exact inRange_load lossless _
  | othersWrite items => exact inRange

/-! ### Reloads -/

/-- The controls with their defaults in place of empty texts. -/
def ControlValues.defaulted (c : ControlValues N) : ControlValues N :=
  { c with
    model := orElse c.model "demo"
    modelPath := orElse c.modelPath "../go-pherence/models/demo"
    modelRoot := orElse c.modelRoot "../go-pherence/models" }

/-- What the storage holds is what the controls show. -/
def Page.Synced (lib : NumberLib N) (p : Page N) : Prop := .load lib (fun _ => some p.items) = p.controls.defaulted

/-- A step in which the browser writes and reads, and nobody else writes. -/
def Page.Step.Kept : Page.Step N → Prop
  | .setLayers _ written => written = true
  | .setModel _ written => written = true
  | .setModelPath _ written => written = true
  | .setModelRoot _ written => written = true
  | .setModelLimit _ written => written = true
  | .reloads readable => ∀ key, readable key = true
  | .othersWrite _ => False

theorem defaulted_load (storage : String → Option LocalStorage) :
    (ControlValues.load lib storage).defaulted = .load lib storage := by
  rw [ControlValues.defaulted, ControlValues.load]
  dsimp only
  rw [orElse_of_ne (loadString_ne_empty (by decide) _ _), orElse_of_ne (loadString_ne_empty (by decide) _ _),
    orElse_of_ne (loadString_ne_empty (by decide) _ _)]

/-- A page that was just loaded shows what is stored. -/
theorem synced_reloaded (p : Page N) : (p.step lib (.reloads fun _ => true)).Synced lib := (defaulted_load _).symm

/-- Saving a text changes that text. -/
theorem load_saved_text {key : String} (notLayers : "go-exotic.layers" ≠ key) (notLimit : "go-exotic.modelLimit" ≠ key)
    (value : String) (items : LocalStorage) :
    ControlValues.load lib (fun _ => some (saveValue true key value items)) =
      { ControlValues.load lib (fun _ => some items) with
        model := if "go-exotic.model" = key then orElse value "demo" else loadString (some items) "go-exotic.model" "demo"
        modelPath := if "go-exotic.modelPath" = key then orElse value "../go-pherence/models/demo"
          else loadString (some items) "go-exotic.modelPath" "../go-pherence/models/demo"
        modelRoot := if "go-exotic.modelRoot" = key then orElse value "../go-pherence/models"
          else loadString (some items) "go-exotic.modelRoot" "../go-pherence/models" } := by
  have same : ∀ {other : String} (fallback : N), other ≠ key →
      loadNumber lib (some (saveValue true key value items)) other fallback =
        loadNumber lib (some items) other fallback := by
    intro other fallback apart
    rw [loadNumber, loadString_saved, if_neg apart]
    rfl
  rw [ControlValues.load, ControlValues.load, loadBoundedNumber, same _ notLayers, same _ notLimit, loadString_saved,
    loadString_saved, loadString_saved]
  rfl

/-- Saving a positive number changes that number. -/
theorem load_saved_number (lossless : LosslessNumbers lib) {n : N} (positive : lib.ofNat 0 < n) {key : String}
    (notText : key ≠ "go-exotic.model" ∧ key ≠ "go-exotic.modelPath" ∧ key ≠ "go-exotic.modelRoot")
    (items : LocalStorage) :
    ControlValues.load lib (fun _ => some (saveValue true key (lib.print n) items)) =
      { ControlValues.load lib (fun _ => some items) with
        layers := if "go-exotic.layers" = key then n
          else loadNumber lib (some items) "go-exotic.layers" (lib.ofNat 4)
        modelLimit := max (lib.ofNat 1) (min (lib.ofNat 200) (if "go-exotic.modelLimit" = key then n
          else loadNumber lib (some items) "go-exotic.modelLimit" (lib.ofNat 50))) } := by
  rw [ControlValues.load, ControlValues.load, loadBoundedNumber, loadNumber_saved lossless positive,
    loadNumber_saved lossless positive, loadString_saved, loadString_saved, loadString_saved,
    if_neg notText.1.symm, if_neg notText.2.1.symm, if_neg notText.2.2.symm]

/-- Every step that is kept leaves what is stored at what is shown. -/
theorem Page.Synced.step (lossless : LosslessNumbers lib) {p : Page N} (synced : p.Synced lib) {step : Page.Step N}
    (kept : step.Kept) : (p.step lib step).Synced lib := by
  have shown := synced
  rw [Page.Synced, ControlValues.load, ControlValues.defaulted, ControlValues.mk.injEq] at shown
  obtain ⟨layers, model, modelPath, modelRoot, modelLimit⟩ := shown
  cases step with
  | setLayers value written =>
      cases kept
      rw [Page.Synced, Page.step, load_saved_number lossless (nextLayers_range lossless value).2 (by decide), synced,
        if_pos rfl, if_neg (by decide), ← loadBoundedNumber, modelLimit]
      rfl
  | setModel value written =>
      cases kept
      rw [Page.Synced, Page.step, load_saved_text (by decide) (by decide), synced, modelPath, modelRoot]
      rfl
  | setModelPath value written =>
      cases kept
      rw [Page.Synced, Page.step, load_saved_text (by decide) (by decide), synced, model, modelRoot]
      rfl
  | setModelRoot value written =>
      cases kept
      rw [Page.Synced, Page.step, load_saved_text (by decide) (by decide), synced, model, modelPath]
      rfl
  | setModelLimit value written =>
      cases kept
      obtain ⟨above, below⟩ := nextModelLimit_range lossless value
      have positive : lib.ofNat 0 < nextModelLimit lib value := lt_of_lt_of_le (lossless.ascending (by decide)) above
      rw [Page.Synced, Page.step, load_saved_number lossless positive (by decide), synced, if_neg (by decide),
        if_pos rfl, layers, min_eq_right below, max_eq_right above]
      rfl
  | reloads readable =>
      obtain rfl : readable = fun _ => true := funext kept
      exact synced_reloaded p
  | othersWrite items => exact absurd kept id

/-! ### Whole runs -/

theorem after_append (p : Page N) (steps more : List (Page.Step N)) :
    p.after lib (steps ++ more) = (p.after lib steps).after lib more := List.foldl_append

theorem inRange_after (lossless : LosslessNumbers lib) {p : Page N} (inRange : p.controls.InRange lib)
    (steps : List (Page.Step N)) : (p.after lib steps).controls.InRange lib := by
  induction steps generalizing p with
  | nil => exact inRange
  | cons step rest inductionHypothesis => exact inductionHypothesis (inRange_step lossless inRange step)

theorem Page.Synced.after (lossless : LosslessNumbers lib) {p : Page N} (synced : p.Synced lib)
    {steps : List (Page.Step N)} (kept : ∀ step ∈ steps, step.Kept) : (p.after lib steps).Synced lib := by
  induction steps generalizing p with
  | nil => exact synced
  | cons step rest inductionHypothesis =>
      exact inductionHypothesis (synced.step lossless (kept step List.mem_cons_self)) fun later member =>
        kept later (List.mem_cons_of_mem step member)

/-- Reloading again changes nothing. -/
theorem reloads_after (p : Page N) (more : Nat) :
    p.after lib (List.replicate (more + 1) (.reloads fun _ => true)) = p.step lib (.reloads fun _ => true) := by
  induction more generalizing p with
  | zero => rfl
  | succ more inductionHypothesis =>
      rw [List.replicate_succ]
      exact inductionHypothesis (p.step lib (.reloads fun _ => true))

/-- The controls stay in range and survive reloads. In every run from any storage, whatever is typed, whatever read or
write the browser refuses and whatever other tabs write: the number of layers is positive and the inventory limit is
between 1 and 200. Whenever the browser wrote and read everything since some load of the page and nobody else
wrote, a reload shows the same controls, with the default in place of an empty text; and it shows that again, however
often it is reloaded. -/
theorem controls_survive_reload (lib : NumberLib N) (lossless : LosslessNumbers lib) (items : LocalStorage)
    (readable : String → Bool) (steps : List (Page.Step N)) :
    ((Page.opened lib items readable).after lib steps).controls.InRange lib ∧
      ∀ earlier since, steps = earlier ++ .reloads (fun _ => true) :: since → (∀ step ∈ since, step.Kept) →
        ∀ more : Nat, ((Page.opened lib items readable).after lib
            (steps ++ List.replicate (more + 1) (.reloads fun _ => true))).controls =
          ((Page.opened lib items readable).after lib steps).controls.defaulted := by
  refine ⟨inRange_after lossless (inRange_load lossless _) steps, ?_⟩
  rintro earlier since rfl kept more
  have synced : ((Page.opened lib items readable).after lib (earlier ++ .reloads (fun _ => true) :: since)).Synced
      lib := by
    rw [after_append]
    exact (synced_reloaded _).after lossless kept
  rw [after_append, reloads_after]
  exact synced

/-- Natural numbers, written with digits. -/
def decimalNumbers : NumberLib Nat where
  print n := String.ofList (Nat.toDigits 10 n)
  parse text := (decimalValue text.toList).map Int.toNat
  ofNat n := n

theorem decimalNumbers_lossless : LosslessNumbers decimalNumbers where
  reads n := by
    have digits : (Nat.toDigits 10 n).all Char.isDigit = true :=
      List.all_eq_true.mpr fun c member => Nat.isDigit_of_mem_toDigits (by decide) (by decide) member
    rw [decimalNumbers]
    dsimp only
    rw [String.toList_ofList, decimalValue, if_neg (by simp [digits, Nat.toDigits_ne_nil]),
      Nat.ofDigitChars_toDigits (by decide) (by decide)]
    rfl
  given n empty := by
    have letters := congrArg String.toList empty
    rw [decimalNumbers, String.toList_ofList] at letters
    exact Nat.toDigits_ne_nil letters
  ascending := strictMono_id

/-- No layers are typed, and the model is cleared. -/
def clearedSteps : List (Page.Step Nat) := [.reloads fun _ => true, .setLayers (some 0) true, .setModel "" true]

/-- After a reload the page shows one layer and the default model. -/
theorem controls_survive_reload_cleared :
    ((Page.opened decimalNumbers (fun _ => none) fun key => key == "go-exotic.model").after decimalNumbers
      (clearedSteps ++ [.reloads fun _ => true])).controls =
        ⟨1, "demo", "../go-pherence/models/demo", "../go-pherence/models", 50⟩ := by
  have whole := (controls_survive_reload decimalNumbers decimalNumbers_lossless (fun _ => none)
    (fun key => key == "go-exotic.model") clearedSteps).2 [] [.setLayers (some 0) true, .setModel "" true] rfl
    (by simp [Page.Step.Kept]) 0
  refine whole.trans ?_
  decide +kernel

end GoExotic
