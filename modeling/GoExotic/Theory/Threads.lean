/-
Module: GoExotic.Theory.Threads
Purpose: Threads on one store without locks. A thread is a tree of actions on the store, each atomic, that
  ends in an answer; calls start threads, and the actions of all threads interleave. As long as the calls
  in flight at a time use different slots of the store, every interleaving is linearizable: the calls in
  the order they return are a serial use of the store with the same answers, and a slot that no call in
  flight uses holds what the serial calls leave there.
Trusted boundary: none
Main exports: Thread, Thread.run, Thread.map, Thread.Within, Pool, Run, Run.finishes, Shadows, Run.shadows,
  Run.linearizable, Run.linearizable_alone
-/
import GoExotic.Theory.Linearization
import GoExotic.Theory.SlotStore

namespace Threads

open Linearization SlotStore

variable {ι κ σ ρ S : Type}

/-! ### One thread -/

/-- What is left of a thread: its answer, or an action on the store and the rest, which may depend on what the
action saw. -/
inductive Thread (σ ρ : Type) where
  | ret (answer : ρ)
  | act (action : σ → σ) (next : σ → Thread σ ρ)

namespace Thread

/-- Run a thread by itself. -/
def run : Thread σ ρ → σ → ρ × σ
  | ret answer, s => (answer, s)
  | act action next, s => (next s).run (action s)

/-- Rewrite the answer of a thread. -/
def map {ρ' : Type} (f : ρ → ρ') : Thread σ ρ → Thread σ ρ'
  | ret answer => ret (f answer)
  | act action next => act action fun s => (next s).map f

/-- Every action of the thread reads and writes the slots of `inside` only. -/
inductive Within (slot : σ → ι → S) (inside : ι → Prop) : Thread σ ρ → Prop where
  | ret (answer : ρ) : Within slot inside (ret answer)
  | act {action : σ → σ} {next : σ → Thread σ ρ}
      (footprint : Footprint slot inside fun s => (next s, action s))
      (rest : ∀ s, Within slot inside (next s)) : Within slot inside (act action next)

variable {slot : σ → ι → S} {inside : ι → Prop} {thread : Thread σ ρ}

theorem run_map {ρ' : Type} (f : ρ → ρ') (thread : Thread σ ρ) (s : σ) :
    (thread.map f).run s = (f (thread.run s).1, (thread.run s).2) := by
  induction thread generalizing s with
  | ret answer => rfl
  | act action next inductionHypothesis => exact inductionHypothesis s (action s)

/-- A thread within some slots has them as its footprint. -/
theorem Within.footprint (within : thread.Within slot inside) : Footprint slot inside thread.run := by
  induction within with
  | ret answer => exact Footprint.pure slot inside answer
  | act first _ inductionHypothesis =>
      constructor
      · intro s t agree
        have sameNext := first.result_eq s t agree
        dsimp only at sameNext
        rw [run, run, sameNext]
        exact (inductionHypothesis t).result_eq _ _ (first.agree s t agree)
      · intro s t agree
        have sameNext := first.result_eq s t agree
        dsimp only at sameNext
        rw [run, run, sameNext]
        exact (inductionHypothesis t).agree _ _ (first.agree s t agree)
      · intro s i outside
        rw [run, (inductionHypothesis s).frame _ i outside]
        exact first.frame s i outside

theorem Within.map {ρ' : Type} (within : thread.Within slot inside) (f : ρ → ρ') :
    (thread.map f).Within slot inside := by
  induction within with
  | ret answer => exact Within.ret (f answer)
  | act first _ inductionHypothesis =>
      exact Within.act (first.map fun next => next.map f) inductionHypothesis

end Thread

/-! ### Interleavings -/

/-- How far a call has come. -/
inductive Phase (κ σ ρ : Type) where
  | idle
  | running (call : κ) (thread : Thread σ ρ)
  | returned

/-- The store, and how far each call has come. -/
structure Pool (κ σ ρ : Type) where
  store : σ
  phase : Nat → Phase κ σ ρ

/-- What the calls do: start a thread, take an action of it, and return its answer. -/
inductive Step (κ ρ : Type) where
  | invoke (id : Nat) (call : κ)
  | act (id : Nat)
  | respond (id : Nat) (answer : ρ)

/-- How an observer sees a step. -/
def Step.event : Step κ ρ → Option (Event κ ρ)
  | .invoke id call => some (.invoke id call)
  | .act _ => none
  | .respond id answer => some (.respond id answer)

/-- An interleaving as an observer sees it. -/
def seen (steps : List (Step κ ρ)) : List (Event κ ρ) := steps.filterMap Step.event

/-- A call is in flight. -/
def Pool.InFlight (p : Pool κ σ ρ) (id : Nat) (call : κ) : Prop := ∃ thread, p.phase id = .running call thread

/-- The interleavings in which a call starts only while no call in flight uses a slot of it, with the pool
they lead to. -/
inductive Run (code : κ → Thread σ ρ) (uses : κ → ι → Prop) (init : σ) :
    List (Step κ ρ) → Pool κ σ ρ → Prop where
  | start : Run code uses init [] ⟨init, fun _ => .idle⟩
  | invoke {past : List (Step κ ρ)} {p : Pool κ σ ρ} {id : Nat} {call : κ} (run : Run code uses init past p)
      (idle : p.phase id = .idle) (apart : ∀ other call', p.InFlight other call' → ∀ i, uses call i → ¬ uses call' i) :
      Run code uses init (past ++ [.invoke id call])
        { p with phase := Function.update p.phase id (.running call (code call)) }
  | act {past : List (Step κ ρ)} {p : Pool κ σ ρ} {id : Nat} {call : κ} {action : σ → σ} {next : σ → Thread σ ρ}
      (run : Run code uses init past p) (there : p.phase id = .running call (.act action next)) :
      Run code uses init (past ++ [.act id])
        ⟨action p.store, Function.update p.phase id (.running call (next p.store))⟩
  | respond {past : List (Step κ ρ)} {p : Pool κ σ ρ} {id : Nat} {call : κ} {answer : ρ}
      (run : Run code uses init past p) (there : p.phase id = .running call (.ret answer)) :
      Run code uses init (past ++ [.respond id answer])
        { p with phase := Function.update p.phase id .returned }

variable {code : κ → Thread σ ρ} {uses : κ → ι → Prop} {init : σ} {slot : σ → ι → S}

theorem seen_append (past : List (Step κ ρ)) (step : Step κ ρ) :
    seen (past ++ [step]) = seen past ++ step.event.toList := by
  rw [seen, List.filterMap_append, seen]
  cases step <;> rfl

/-! ### Serial shadows -/

/-- A call of the pool and the same call of the serial world. -/
inductive Mirrors : Phase κ σ ρ → Linearization.Phase κ ρ → Prop where
  | idle : Mirrors .idle .idle
  | running (call : κ) (thread : Thread σ ρ) : Mirrors (.running call thread) (.invoked call)
  | returned : Mirrors .returned .returned

/-- A serial world that knows only the calls that have returned. The store differs from its object only where a
call in flight is at work, and what such a call has left to do on the store is what the whole call would do on
the object. -/
structure Shadows (slot : σ → ι → S) (code : κ → Thread σ ρ) (uses : κ → ι → Prop) (p : Pool κ σ ρ)
    (w : World κ ρ σ) : Prop where
  mirrors : ∀ id, Mirrors (p.phase id) (w.phase id)
  apart : ∀ id other call call', id ≠ other → p.InFlight id call → p.InFlight other call' →
    ∀ i, uses call i → ¬ uses call' i
  elsewhere : ∀ i, (∀ id call, p.InFlight id call → ¬ uses call i) → slot p.store i = slot w.object i
  ahead : ∀ id call thread, p.phase id = .running call thread → thread.Within slot (uses call) ∧
    (thread.run p.store).1 = ((code call).run w.object).1 ∧
    AgreeOn slot (uses call) (thread.run p.store).2 ((code call).run w.object).2

variable {past : List (Step κ ρ)} {p : Pool κ σ ρ} {w : World κ ρ σ}

/-- A call in flight that is left alone with the store returns what is left of its thread. -/
theorem Run.finishes (run : Run code uses init past p) (id : Nat) {call : κ} {thread : Thread σ ρ}
    (there : p.phase id = .running call thread) :
    ∃ acts answer store, seen acts = [] ∧ Run code uses init (past ++ (acts ++ [.respond id answer]))
      ⟨store, Function.update p.phase id .returned⟩ := by
  induction thread generalizing past p with
  | ret answer => exact ⟨[], answer, p.store, rfl, .respond run there⟩
  | act action next inductionHypothesis =>
      obtain ⟨acts, answer, store, silent, done⟩ :=
        inductionHypothesis p.store (.act run there) (Function.update_self id _ p.phase)
      rw [Function.update_idem, List.append_assoc] at done
      exact ⟨.act id :: acts, answer, store, silent, done⟩

theorem shadows_start : Shadows slot code uses (⟨init, fun _ => .idle⟩ : Pool κ σ ρ)
    (⟨init, fun _ => .idle⟩ : World κ ρ σ) where
  mirrors _ := .idle
  apart _ _ _ _ _ inFlight := by
    obtain ⟨_, running⟩ := inFlight
    cases running
  elsewhere _ _ := rfl
  ahead _ _ _ running := by cases running

/-- The calls in flight after a change of one phase. -/
theorem Pool.inFlight_update {id other : Nat} {phase : Phase κ σ ρ} {s : σ} {call' : κ}
    (inFlight : Pool.InFlight ⟨s, Function.update p.phase id phase⟩ other call') :
    (other = id ∧ ∃ thread, phase = .running call' thread) ∨ (other ≠ id ∧ p.InFlight other call') := by
  obtain ⟨thread, running⟩ := inFlight
  dsimp only at running
  by_cases same : other = id
  · rw [same, Function.update_self] at running
    exact Or.inl ⟨same, thread, running⟩
  · rw [Function.update_of_ne same] at running
    exact Or.inr ⟨same, thread, running⟩

/-- The other calls stay in flight. -/
theorem Pool.inFlight_of_ne {id other : Nat} {call' : κ} (different : other ≠ id)
    (inFlight : p.InFlight other call') (s : σ) (phase : Phase κ σ ρ) :
    Pool.InFlight ⟨s, Function.update p.phase id phase⟩ other call' := by
  obtain ⟨thread, running⟩ := inFlight
  exact ⟨thread, (Function.update_of_ne different phase p.phase).trans running⟩

theorem mirrors_update {phase : Phase κ σ ρ} {serial : Linearization.Phase κ ρ}
    (mirrors : ∀ id, Mirrors (p.phase id) (w.phase id)) (id : Nat) (moved : Mirrors phase serial) (other : Nat) :
    Mirrors (Function.update p.phase id phase other) (Function.update w.phase id serial other) := by
  by_cases same : other = id
  · rw [same, Function.update_self, Function.update_self]
    exact moved
  · rw [Function.update_of_ne same, Function.update_of_ne same]
    exact mirrors other

/-- A call starts on slots where the store is the object. -/
theorem Shadows.invoke (shadows : Shadows slot code uses p w) (within : ∀ call, (code call).Within slot (uses call))
    {id : Nat} {call : κ} (idle : p.phase id = .idle)
    (apart : ∀ other call', p.InFlight other call' → ∀ i, uses call i → ¬ uses call' i) :
    Shadows slot code uses { p with phase := Function.update p.phase id (.running call (code call)) }
      { w with phase := Function.update w.phase id (.invoked call) } := by
  have notYet : ∀ call', ¬ p.InFlight id call' := by
    rintro call' ⟨thread, running⟩
    rw [idle] at running
    cases running
  constructor
  case mirrors => exact mirrors_update shadows.mirrors id (.running call (code call))
  case apart =>
    intro one other oneCall otherCall different oneFlies otherFlies i used usedToo
    rcases Pool.inFlight_update oneFlies with ⟨rfl, _, isNew⟩ | ⟨_, wasThere⟩
    · cases isNew
      rcases Pool.inFlight_update otherFlies with ⟨same, -⟩ | ⟨_, alsoThere⟩
      · exact different same.symm
      · exact apart other otherCall alsoThere i used usedToo
    · rcases Pool.inFlight_update otherFlies with ⟨rfl, _, isNew⟩ | ⟨_, alsoThere⟩
      · cases isNew
        exact apart one oneCall wasThere i usedToo used
      · exact shadows.apart one other oneCall otherCall different wasThere alsoThere i used usedToo
  case elsewhere =>
    intro i unused
    apply shadows.elsewhere i
    intro other call' ⟨thread, running⟩
    have different : other ≠ id := by
      rintro rfl
      exact notYet call' ⟨thread, running⟩
    exact unused other call' (Pool.inFlight_of_ne different ⟨thread, running⟩ _ _)
  case ahead =>
    intro other call' thread running
    dsimp only at running ⊢
    by_cases same : other = id
    · rw [same, Function.update_self] at running
      cases running
      have agree : AgreeOn slot (uses call) p.store w.object := by
        intro i used
        exact shadows.elsewhere i fun other call' inFlight => apart other call' inFlight i used
      have footprint := (within call).footprint
      exact ⟨within call, footprint.result_eq _ _ agree, footprint.agree _ _ agree⟩
    · rw [Function.update_of_ne same] at running
      exact shadows.ahead other call' thread running

/-- An action of one thread is out of the way of the others. -/
theorem Shadows.act (shadows : Shadows slot code uses p w) {id : Nat} {call : κ} {action : σ → σ}
    {next : σ → Thread σ ρ} (there : p.phase id = .running call (.act action next)) :
    Shadows slot code uses ⟨action p.store, Function.update p.phase id (.running call (next p.store))⟩ w := by
  obtain ⟨isWithin, sameAnswer, sameSlots⟩ := shadows.ahead id call _ there
  cases isWithin with
  | act footprint rest =>
    have stillFlies : ∀ other call', p.InFlight other call' ↔ Pool.InFlight
        ⟨action p.store, Function.update p.phase id (.running call (next p.store))⟩ other call' := by
      intro other call'
      constructor
      · rintro ⟨thread, running⟩
        by_cases same : other = id
        · subst same
          rw [there] at running
          cases running
          exact ⟨_, Function.update_self ..⟩
        · exact Pool.inFlight_of_ne same ⟨thread, running⟩ _ _
      · intro inFlight
        rcases Pool.inFlight_update inFlight with ⟨rfl, _, isNew⟩ | ⟨_, wasThere⟩
        · cases isNew
          exact ⟨_, there⟩
        · exact wasThere
    constructor
    case mirrors =>
      have kept := mirrors_update shadows.mirrors id (.running call (next p.store))
      have mirror := shadows.mirrors id
      rw [there] at mirror
      cases serial : w.phase id with
      | invoked op =>
          rw [serial] at mirror
          cases mirror
          rwa [← serial, Function.update_eq_self] at kept
      | _ =>
          rw [serial] at mirror
          cases mirror
    case apart =>
      intro one other oneCall otherCall different oneFlies otherFlies
      exact shadows.apart one other oneCall otherCall different ((stillFlies one oneCall).mpr oneFlies)
        ((stillFlies other otherCall).mpr otherFlies)
    case elsewhere =>
      intro i unused
      have outside : ¬ uses call i := unused id call ((stillFlies id call).mp ⟨_, there⟩)
      have framed := footprint.frame p.store i outside
      dsimp only at framed ⊢
      rw [framed]
      exact shadows.elsewhere i fun other call' inFlight => unused other call' ((stillFlies other call').mp inFlight)
    case ahead =>
      intro other call' thread running
      dsimp only at running ⊢
      by_cases same : other = id
      · rw [same, Function.update_self] at running
        cases running
        exact ⟨rest p.store, sameAnswer, sameSlots⟩
      · rw [Function.update_of_ne same] at running
        obtain ⟨otherWithin, otherAnswer, otherSlots⟩ := shadows.ahead other call' thread running
        have disjoint := shadows.apart other id call' call same ⟨thread, running⟩ ⟨_, there⟩
        have agree : AgreeOn slot (uses call') (action p.store) p.store :=
          footprint.agree_left_of_disjoint disjoint (AgreeOn.refl slot _ p.store)
        refine ⟨otherWithin, (otherWithin.footprint.result_eq _ _ agree).trans otherAnswer, ?_⟩
        intro i used
        exact (otherWithin.footprint.agree _ _ agree i used).trans (otherSlots i used)

/-- A call that returns takes effect on the object as a whole. -/
theorem Shadows.respond (shadows : Shadows slot code uses p w)
    (within : ∀ call, (code call).Within slot (uses call)) {id : Nat} {call : κ} {answer : ρ}
    (there : p.phase id = .running call (.ret answer)) :
    ((code call).run w.object).1 = answer ∧
      Shadows slot code uses { p with phase := Function.update p.phase id .returned }
        ⟨((code call).run w.object).2, Function.update w.phase id .returned⟩ := by
  obtain ⟨-, sameAnswer, sameSlots⟩ := shadows.ahead id call _ there
  refine ⟨sameAnswer.symm, ?_⟩
  have footprint := (within call).footprint
  constructor
  case mirrors => exact mirrors_update shadows.mirrors id .returned
  case apart =>
    intro one other oneCall otherCall different oneFlies otherFlies
    rcases Pool.inFlight_update oneFlies with ⟨_, _, none⟩ | ⟨_, wasThere⟩
    · cases none
    · rcases Pool.inFlight_update otherFlies with ⟨_, _, none⟩ | ⟨_, alsoThere⟩
      · cases none
      · exact shadows.apart one other oneCall otherCall different wasThere alsoThere
  case elsewhere =>
    intro i unused
    dsimp only
    by_cases used : uses call i
    · exact sameSlots i used
    · rw [footprint.frame w.object i used]
      apply shadows.elsewhere i
      rintro other call' ⟨thread, running⟩
      by_cases same : other = id
      · subst same
        rw [there] at running
        cases running
        exact used
      · exact unused other call' (Pool.inFlight_of_ne same ⟨thread, running⟩ _ _)
  case ahead =>
    intro other call' thread running
    dsimp only at running ⊢
    by_cases same : other = id
    · rw [same, Function.update_self] at running
      cases running
    · rw [Function.update_of_ne same] at running
      obtain ⟨otherWithin, otherAnswer, otherSlots⟩ := shadows.ahead other call' thread running
      have disjoint := shadows.apart other id call' call same ⟨thread, running⟩ ⟨_, there⟩
      have agree : AgreeOn slot (uses call') ((code call).run w.object).2 w.object :=
        footprint.agree_left_of_disjoint disjoint (AgreeOn.refl slot _ w.object)
      have whole := (within call').footprint
      refine ⟨otherWithin, otherAnswer.trans (whole.result_eq _ _ agree).symm, ?_⟩
      intro i isUsed
      exact (otherSlots i isUsed).trans (whole.agree _ _ agree i isUsed).symm

/-! ### Serial orders -/

/-- Every interleaving has a serial shadow that an observer cannot tell from it. -/
theorem Run.shadows {steps : List (Step κ ρ)} (within : ∀ call, (code call).Within slot (uses call))
    (run : Run code uses init steps p) :
    ∃ (actions : List (Action κ κ ρ)) (w : World κ ρ σ),
      Linearization.Run (fun call => (code call).run) Eq init actions w ∧
        Linearization.history actions = seen steps ∧ Shadows slot code uses p w := by
  induction run with
  | start => exact ⟨[], _, .start, rfl, shadows_start⟩
  | @invoke _ p id call _ idle apart inductionHypothesis =>
      obtain ⟨actions, w, serial, sameHistory, shadows⟩ := inductionHypothesis
      have isIdle := shadows.mirrors id
      rw [idle] at isIdle
      generalize there : w.phase id = phase at isIdle
      cases isIdle
      refine ⟨_, _, .invoke serial there, ?_, shadows.invoke within idle apart⟩
      rw [Linearization.history_append, seen_append, sameHistory]
      rfl
  | act _ there inductionHypothesis =>
      obtain ⟨actions, w, serial, sameHistory, shadows⟩ := inductionHypothesis
      refine ⟨actions, w, serial, ?_, shadows.act there⟩
      rw [seen_append, sameHistory]
      exact (List.append_nil _).symm
  | @respond _ p id call answer _ there inductionHypothesis =>
      obtain ⟨actions, w, serial, sameHistory, shadows⟩ := inductionHypothesis
      have isInvoked := shadows.mirrors id
      rw [there] at isInvoked
      generalize atCall : w.phase id = phase at isInvoked
      cases isInvoked
      obtain ⟨rfl, after⟩ := shadows.respond within there
      -- the call takes effect and returns at once
      have took := serial.take atCall rfl
      have returned := took.respond (Function.update_self ..)
      rw [Function.update_idem] at returned
      refine ⟨_, _, returned, ?_, after⟩
      rw [Linearization.history_append, Linearization.history_append, seen_append, sameHistory]
      simp [Action.event, Step.event]

/-- Calls on different slots are linearizable, and a slot that no call in flight uses holds what the serial
calls leave there. -/
theorem Run.linearizable {steps : List (Step κ ρ)} (within : ∀ call, (code call).Within slot (uses call))
    (run : Run code uses init steps p) :
    ∃ order, Linearizes (fun call => (code call).run) Eq init (seen steps) order ∧
      ∀ i, (∀ id call, p.InFlight id call → ¬ uses call i) →
        slot p.store i = slot (Runs.final (serveAt fun call => (code call).run) order init) i := by
  obtain ⟨actions, w, serial, sameHistory, shadows⟩ := run.shadows within
  refine ⟨order actions, sameHistory ▸ serial.linearizes, ?_⟩
  intro i unused
  rw [shadows.elsewhere i unused, serial.object_eq]

/-- Calls whose slots the other calls never use are linearizable by themselves, as if the others had not been
made. -/
theorem Run.linearizable_alone {steps : List (Step κ ρ)} (within : ∀ call, (code call).Within slot (uses call))
    (run : Run code uses init steps p) (mine : Nat → Bool)
    (dedicated : ∀ id call other call', .invoke id call ∈ seen steps → .invoke other call' ∈ seen steps →
      mine id = true → mine other = false → ∀ i, uses call i → ¬ uses call' i) :
    ∃ order, Linearizes (fun call => (code call).run) Eq init
      ((seen steps).filter fun event => mine event.id) order := by
  obtain ⟨order, linearizes, -⟩ := run.linearizable within
  have invoked : ∀ call ∈ order, .invoke call.1 call.2 ∈ seen steps := by
    rintro ⟨id, call⟩ member
    obtain ⟨_, began, rfl⟩ := linearizes.invoked id call member
    exact began
  have undisturbed : Undisturbed (fun call : Nat × κ => mine call.1) (fun call => uses call.2) true order := by
    apply List.pairwise_of_forall_mem_list
    intro earlier earlierMember later laterMember isMine notMine
    exact dedicated later.1 later.2 earlier.1 earlier.2 (invoked later laterMember) (invoked earlier earlierMember)
      isMine (Bool.not_eq_true _ ▸ notMine)
  have alone := trace_isolated _ _ (fun call : Nat × κ => (within call.2).footprint) true undisturbed init
  simp only [Bool.decide_eq_true] at alone
  exact ⟨_, linearizes.restrict alone⟩

end Threads
