/-
Module: GoExotic.Proofs.Dashboard
Purpose: The dashboard shows the answer to its last request. Whatever the order of renders, refreshes, effects
  and answers: every request but the last is cancelled, so an answer that comes late is never shown; a card
  says it is loading exactly until the last request is answered, and then shows that answer; and once its
  effects have run, the last request is for what the card was last rendered with.
Trusted boundary: none
Main exports: LatestShown, LatestShown.step, hook_shows_latest
-/
import GoExotic.Model.Dashboard

namespace GoExotic

namespace DataHook

open Runs

variable {κ T : Type}

/-! ### Requests -/

/-- The cleanup cancels the last request and touches no other. -/
theorem getElem?_cleanup {requests : List (SentRequest κ T)} {i : Nat} {r : SentRequest κ T}
    (found : (cleanup requests)[i]? = some r) : ∃ old, requests[i]? = some old ∧
      (r.key = old.key ∧ r.outcome = old.outcome) ∧
        (r.cancelled = true ↔ old.cancelled = true ∨ i + 1 = requests.length) := by
  rw [cleanup, List.getElem?_modify] at found
  cases before : requests[i]? with
  | none =>
      rw [before] at found
      cases found
  | some old =>
      have inside : i < requests.length := (List.getElem?_eq_some_iff.mp before).1
      rw [before, Option.map_eq_map, Option.map_some, Option.some.injEq] at found
      refine ⟨old, rfl, ?_⟩
      by_cases isLast : requests.length - 1 = i
      · rw [if_pos isLast] at found
        rw [← found]
        exact ⟨⟨rfl, rfl⟩, iff_of_true rfl (Or.inr (by omega))⟩
      · rw [if_neg isLast] at found
        rw [← found]
        refine ⟨⟨rfl, rfl⟩, ?_⟩
        constructor
        · exact Or.inl
        · rintro (already | last)
          · exact already
          · omega

@[simp] theorem length_cleanup (requests : List (SentRequest κ T)) :
    (cleanup requests).length = requests.length := List.length_modify ..

theorem getLast?_cleanup_key (requests : List (SentRequest κ T)) :
    (cleanup requests).getLast?.map SentRequest.key = requests.getLast?.map SentRequest.key := by
  rw [List.getLast?_eq_getElem?, List.getLast?_eq_getElem?, length_cleanup]
  cases found : (cleanup requests)[requests.length - 1]? with
  | none =>
      have missing := List.getElem?_eq_none_iff.mp found
      rw [length_cleanup] at missing
      rw [List.getElem?_eq_none_iff.mpr missing]
  | some r =>
      obtain ⟨old, before, ⟨sameKey, -⟩, -⟩ := getElem?_cleanup found
      rw [before, Option.map_some, Option.map_some, sameKey]

/-! ### One step -/

/-- What a component shows is owed to its last request. -/
structure LatestShown (s : DataHook κ T) : Prop where
  /-- Every request but the last is cancelled, and the last one too once the component is unmounted. -/
  cancelled : ∀ i r, s.requests[i]? = some r →
    (r.cancelled = true ↔ i + 1 < s.requests.length ∨ s.mounted = false)
  /-- While it is mounted, it is loading exactly until the last request is answered. -/
  loading : s.mounted = true →
    (s.state.loading = true ↔ ∀ r, s.requests.getLast? = some r → r.outcome = none)
  /-- While it is mounted, it shows the answer to the last request once that is there. -/
  shown : s.mounted = true → ∀ r outcome, s.requests.getLast? = some r → r.outcome = some outcome →
    s.state = .settled outcome
  /-- No error is shown while it is loading. -/
  clean : s.state.loading = true → s.state.error = none
  /-- The last request is for what the effect last ran with. -/
  keyed : s.ranWith.map Prod.fst = s.requests.getLast?.map SentRequest.key

theorem latestShown_mount (key : κ) : LatestShown (mount key : DataHook κ T) := by
  constructor
  · simp [mount]
  · simp [mount]
  · simp [mount]
  · simp [mount]
  · rfl

theorem settled_loading (outcome : Outcome T) : (LoadState.settled outcome).loading = false := by
  cases outcome <;> rfl

/-- The effect sends a request, after it cancelled the one before. -/
theorem LatestShown.runsEffect [DecidableEq κ] {s t : DataHook κ T} (latest : LatestShown s)
    (taken : s.step .runsEffect = some t) : LatestShown t := by
  rw [step, Option.ite_none_right_eq_some, Option.some.injEq] at taken
  obtain ⟨⟨mounted, -⟩, rfl⟩ := taken
  have newest : (cleanup s.requests ++ [SentRequest.mk s.key false none]).getLast? = some ⟨s.key, false, none⟩ :=
    List.getLast?_concat ..
  constructor
  · intro i r found
    dsimp only at found ⊢
    rw [List.length_append, length_cleanup, List.length_singleton, mounted]
    rw [List.getElem?_append, length_cleanup] at found
    split_ifs at found with before
    · obtain ⟨old, oldFound, -, cancels⟩ := getElem?_cleanup found
      rw [cancels, latest.cancelled i old oldFound, mounted]
      omega
    · rw [List.getElem?_singleton, Option.ite_none_right_eq_some, Option.some.injEq] at found
      obtain ⟨isNew, rfl⟩ := found
      simp
      omega
  · intro _
    dsimp only
    rw [newest]
    simp
  · intro _ r outcome last answered
    dsimp only at last
    rw [newest, Option.some.injEq] at last
    rw [← last] at answered
    cases answered
  · intro _
    rfl
  · dsimp only
    rw [newest]
    rfl

/-- An answer sets the outcome of its request, and what is shown if the request is not cancelled. -/
theorem answers_eq_some [DecidableEq κ] {s t : DataHook κ T} {i : Nat} {outcome : Outcome T} :
    s.step (.answers i outcome) = some t ↔ ∃ r, s.requests[i]? = some r ∧ r.outcome = none ∧
      t = { s with
        requests := s.requests.set i { r with outcome := some outcome }
        state := if r.cancelled then s.state else .settled outcome } := by
  rw [step]
  cases s.requests[i]? with
  | none => simp
  | some r =>
      simp only [Option.some.injEq, exists_eq_left']
      cases answered : r.outcome with
      | none => exact ⟨fun same => ⟨rfl, (Option.some.inj same).symm⟩, fun same => congrArg some same.2.symm⟩
      | some given => simp

/-- The last request of a mounted component is not cancelled. -/
theorem LatestShown.not_cancelled {s : DataHook κ T} (latest : LatestShown s) {i : Nat} {r : SentRequest κ T}
    (found : s.requests[i]? = some r) (isLast : i + 1 = s.requests.length) (mounted : s.mounted = true) :
    r.cancelled = false := by
  rw [← Bool.not_eq_true, latest.cancelled i r found, not_or, Bool.not_eq_false]
  exact ⟨by omega, mounted⟩

/-- An answer that is shown is to the last request of a mounted component. -/
theorem LatestShown.answer_shown [DecidableEq κ] {s t : DataHook κ T} (latest : LatestShown s) {i : Nat}
    {outcome : Outcome T} (taken : s.step (.answers i outcome) = some t) (changed : t.state ≠ s.state) :
    i + 1 = s.requests.length ∧ s.mounted = true ∧ t.state = .settled outcome := by
  obtain ⟨r, found, -, rfl⟩ := answers_eq_some.mp taken
  have inside : i < s.requests.length := (List.getElem?_eq_some_iff.mp found).1
  by_cases cancelled : r.cancelled = true
  · simp [cancelled] at changed
  · have isLast := cancelled
    rw [latest.cancelled i r found, not_or, Bool.not_eq_false] at isLast
    exact ⟨by omega, isLast.2, if_neg cancelled⟩

/-- An answer to the last request is shown, and one to a cancelled request is not. -/
theorem LatestShown.answers [DecidableEq κ] {s t : DataHook κ T} (latest : LatestShown s) {i : Nat}
    {outcome : Outcome T} (taken : s.step (.answers i outcome) = some t) : LatestShown t := by
  obtain ⟨r, found, unanswered, rfl⟩ := answers_eq_some.mp taken
  have inside : i < s.requests.length := (List.getElem?_eq_some_iff.mp found).1
  have cancels := latest.cancelled i r found
  have newest : (s.requests.set i { r with outcome := some outcome }).getLast? =
      if i + 1 = s.requests.length then some { r with outcome := some outcome } else s.requests.getLast? := by
    rw [List.getLast?_eq_getElem?, List.length_set, List.getElem?_set, List.getLast?_eq_getElem?]
    by_cases isLast : i + 1 = s.requests.length
    · rw [if_pos isLast, if_pos (by omega), if_pos (by omega)]
    · rw [if_neg isLast, if_neg (by omega)]
  constructor
  case cancelled =>
    intro j other there
    dsimp only at there ⊢
    rw [List.length_set]
    rw [List.getElem?_set] at there
    split_ifs at there with same
    · cases there
      rw [← same]
      exact cancels
    · exact latest.cancelled j other there
  case loading =>
    intro mounted
    dsimp only
    rw [newest]
    by_cases isLast : i + 1 = s.requests.length
    · have shows := latest.not_cancelled found isLast mounted
      simp [isLast, shows, settled_loading]
    · have stays : r.cancelled = true := cancels.mpr (Or.inl (by omega))
      rw [if_neg isLast, if_pos stays]
      exact latest.loading mounted
  case shown =>
    intro mounted other given last answered
    dsimp only at last ⊢
    rw [newest] at last
    by_cases isLast : i + 1 = s.requests.length
    · have shows := latest.not_cancelled found isLast mounted
      rw [if_pos isLast, Option.some.injEq] at last
      rw [← last, Option.some.injEq] at answered
      simp [shows, answered]
    · have stays : r.cancelled = true := cancels.mpr (Or.inl (by omega))
      rw [if_neg isLast] at last
      rw [if_pos stays]
      exact latest.shown mounted other given last answered
  case clean =>
    dsimp only
    split_ifs with stays
    · exact latest.clean
    · rw [settled_loading]
      simp
  case keyed =>
    dsimp only
    rw [newest, latest.keyed, List.getLast?_eq_getElem?]
    split_ifs with isLast
    · have last : s.requests.length - 1 = i := by omega
      rw [last, found]
      rfl
    · rfl

/-- Every step leaves what is shown to the last request. -/
theorem LatestShown.step [DecidableEq κ] {s t : DataHook κ T} {e : Step κ T} (latest : LatestShown s)
    (taken : s.step e = some t) : LatestShown t := by
  cases e with
  | renders key =>
      rw [DataHook.step, Option.ite_none_right_eq_some, Option.some.injEq] at taken
      obtain ⟨-, rfl⟩ := taken
      exact ⟨latest.cancelled, latest.loading, latest.shown, latest.clean, latest.keyed⟩
  | refreshes =>
      rw [DataHook.step, Option.ite_none_right_eq_some, Option.some.injEq] at taken
      obtain ⟨-, rfl⟩ := taken
      exact ⟨latest.cancelled, latest.loading, latest.shown, latest.clean, latest.keyed⟩
  | runsEffect => exact latest.runsEffect taken
  | answers i outcome => exact latest.answers taken
  | unmounts =>
      rw [DataHook.step, Option.ite_none_right_eq_some, Option.some.injEq] at taken
      obtain ⟨mounted, rfl⟩ := taken
      constructor
      · intro i r found
        obtain ⟨old, before, -, cancels⟩ := getElem?_cleanup found
        have inside : i < s.requests.length := (List.getElem?_eq_some_iff.mp before).1
        rw [cancels, latest.cancelled i old before, mounted]
        simp
        omega
      · intro still
        cases still
      · intro still
        cases still
      · exact latest.clean
      · dsimp only
        rw [getLast?_cleanup_key]
        exact latest.keyed

/-! ### Whole runs -/

/-- The hook shows the answer to its last request, in every run from the first render on: what is shown is owed to
the last request; an answer changes it only if it is to the last request and the component is still mounted; and
once the effects have run and the last request is answered, the answer is to what was rendered last. -/
theorem hook_shows_latest [DecidableEq κ] (key : κ) (steps : List (Step κ T)) (s : DataHook κ T)
    (ran : exec DataHook.step (mount key) steps = some s) :
    LatestShown s ∧
      (∀ before i outcome after, Visits DataHook.step (mount key) steps before (.answers i outcome) after →
        after.state ≠ before.state →
          i + 1 = before.requests.length ∧ before.mounted = true ∧ after.state = .settled outcome) ∧
      (s.mounted = true → s.ranWith = some (s.key, s.tick) →
        (∀ r, s.requests.getLast? = some r → r.outcome ≠ none) →
          ∃ r outcome, s.requests.getLast? = some r ∧ r.key = s.key ∧ r.outcome = some outcome ∧
            s.state = .settled outcome) := by
  have reached : ∀ {steps : List (Step κ T)} {t}, exec DataHook.step (mount key) steps = some t → LatestShown t :=
    fun ran => exec_invariant (latestShown_mount key) (fun _ _ _ latest taken => latest.step taken) ran
  refine ⟨reached ran, ?_, ?_⟩
  · rintro before i outcome after ⟨earlier, later, -, reachedBefore, taken⟩ changed
    exact (reached reachedBefore).answer_shown taken changed
  · intro mounted flushed answered
    have latest := reached ran
    have keyed := latest.keyed
    rw [flushed, Option.map_some, eq_comm, Option.map_eq_some_iff] at keyed
    obtain ⟨r, last, sameKey⟩ := keyed
    obtain ⟨outcome, given⟩ := Option.ne_none_iff_exists'.mp (answered r last)
    exact ⟨r, outcome, last, sameKey, given, latest.shown mounted r outcome last given⟩

/-- The second request is answered before the first. -/
def overtakenAnswers : List (Step String Nat) :=
  [.runsEffect, .renders "b", .runsEffect, .answers 1 (.ok 2), .answers 0 (.ok 1)]

/-- The card shows the answer to the second one. -/
theorem hook_shows_latest_overtaken :
    ∃ s : DataHook String Nat, exec DataHook.step (mount "a") overtakenAnswers = some s ∧ LatestShown s ∧
      ∃ r outcome, s.requests.getLast? = some r ∧ r.key = "b" ∧ r.outcome = some outcome ∧
        s.state = .settled outcome := by
  have ran : ∃ s : DataHook String Nat, exec DataHook.step (mount "a") overtakenAnswers = some s ∧
      s.mounted = true ∧ s.ranWith = some (s.key, s.tick) ∧ s.key = "b" ∧
      s.requests.getLast? = some ⟨"b", false, some (.ok 2)⟩ := ⟨_, rfl, rfl, rfl, rfl, rfl⟩
  obtain ⟨s, ran, mounted, flushed, isKey, last⟩ := ran
  obtain ⟨latest, -, settled⟩ := hook_shows_latest "a" overtakenAnswers s ran
  refine ⟨s, ran, latest, isKey ▸ settled mounted flushed ?_⟩
  intro r isLast
  rw [last, Option.some.injEq] at isLast
  rw [← isLast]
  exact Option.some_ne_none _

end DataHook

end GoExotic
