/-
Module: GoExotic.Theory.SlotStore
Purpose: Stores made of independent slots, and operations that touch only some of them. An operation
  has a footprint when its answer and its effect depend on the slots of the footprint alone and every
  other slot keeps its content. Footprints compose along a list of steps (`run`), along blocks of steps
  held by several owners with a store each (`runBlocks`), and along a mixed sequence of calls from
  several clients (`trace`). The last two carry the results a sharded pipeline needs: blocks that
  partition the steps refine the single run, and a client whose footprints nobody else has touched
  cannot tell the other clients' calls were made.
Trusted boundary: none
Main exports: AgreeOn, Footprint, SlotLocal, run, run_footprint, run_append, runBlocks,
  runBlocks_refines, BlocksAgree.both, trace_isolated
-/
import GoExotic.Theory.Runs
import Mathlib.Data.List.Nodup
import Mathlib.Data.List.Pairwise
import Mathlib.Logic.Function.Basic

namespace SlotStore

open Runs

variable {ι σ S ρ : Type}

/-- Two stores hold the same content in every slot of a set. -/
def AgreeOn (slot : σ → ι → S) (inside : ι → Prop) (s t : σ) : Prop :=
  ∀ i, inside i → slot s i = slot t i

namespace AgreeOn

variable {slot : σ → ι → S} {inside smaller : ι → Prop} {s t u : σ}

theorem refl (slot : σ → ι → S) (inside : ι → Prop) (s : σ) : AgreeOn slot inside s s :=
  fun _ _ => rfl

theorem mono (agree : AgreeOn slot inside s t) (subset : ∀ i, smaller i → inside i) :
    AgreeOn slot smaller s t :=
  fun i member => agree i (subset i member)

end AgreeOn

/-- The operation reads and writes the slots of `inside` only. -/
structure Footprint (slot : σ → ι → S) (inside : ι → Prop) (operation : σ → ρ × σ) : Prop where
  result_eq : ∀ s t, AgreeOn slot inside s t → (operation s).1 = (operation t).1
  agree : ∀ s t, AgreeOn slot inside s t → AgreeOn slot inside (operation s).2 (operation t).2
  frame : ∀ s i, ¬ inside i → slot (operation s).2 i = slot s i

namespace Footprint

variable {slot : σ → ι → S} {inside larger : ι → Prop} {operation : σ → ρ × σ}

/-- Agreement on any set that contains the footprint survives the operation. -/
theorem agree_of_subset (footprint : Footprint slot inside operation)
    (subset : ∀ i, inside i → larger i) {s t : σ} (agree : AgreeOn slot larger s t) :
    AgreeOn slot larger (operation s).2 (operation t).2 := by
  intro i member
  by_cases touched : inside i
  · exact footprint.agree s t (agree.mono subset) i touched
  · rw [footprint.frame s i touched, footprint.frame t i touched]
    exact agree i member

/-- Agreement on any set that misses the footprint survives running the operation on one side. -/
theorem agree_left_of_disjoint (footprint : Footprint slot inside operation)
    (disjoint : ∀ i, larger i → ¬ inside i) {s t : σ} (agree : AgreeOn slot larger s t) :
    AgreeOn slot larger (operation s).2 t := by
  intro i member
  rw [footprint.frame s i (disjoint i member)]
  exact agree i member

/-- An operation with a footprint has every larger set as a footprint too. -/
theorem mono (footprint : Footprint slot inside operation) (subset : ∀ i, inside i → larger i) :
    Footprint slot larger operation where
  result_eq s t agree := footprint.result_eq s t (agree.mono subset)
  agree _ _ agree := footprint.agree_of_subset subset agree
  frame s i outside := footprint.frame s i fun member => outside (subset i member)

/-- Answering from the slots of a set, without touching the store, has that set as its footprint. -/
theorem read {answer : σ → ρ} (fromSlots : ∀ s t, AgreeOn slot inside s t → answer s = answer t) :
    Footprint slot inside fun s => (answer s, s) where
  result_eq := fromSlots
  agree _ _ agree := agree
  frame _ _ _ := rfl

/-- A fixed answer has every footprint. -/
theorem pure (slot : σ → ι → S) (inside : ι → Prop) (answer : ρ) :
    Footprint slot inside fun s => (answer, s) :=
  read fun _ _ _ => rfl

/-- Choosing between two operations by what the slots of a set say stays in that set. -/
theorem ite {other : σ → ρ × σ} {condition : σ → Prop} [DecidablePred condition]
    (decided : ∀ s t, AgreeOn slot inside s t → (condition s ↔ condition t))
    (yes : Footprint slot inside operation) (no : Footprint slot inside other) :
    Footprint slot inside fun s => if condition s then operation s else other s where
  result_eq s t agree := by
    by_cases holds : condition s
    · rw [if_pos holds, if_pos ((decided s t agree).mp holds)]
      exact yes.result_eq s t agree
    · rw [if_neg holds, if_neg (mt (decided s t agree).mpr holds)]
      exact no.result_eq s t agree
  agree s t agree := by
    by_cases holds : condition s
    · rw [if_pos holds, if_pos ((decided s t agree).mp holds)]
      exact yes.agree s t agree
    · rw [if_neg holds, if_neg (mt (decided s t agree).mpr holds)]
      exact no.agree s t agree
  frame s i outside := by
    by_cases holds : condition s
    · rw [if_pos holds]
      exact yes.frame s i outside
    · rw [if_neg holds]
      exact no.frame s i outside

/-- Rewriting the answer leaves the footprint. -/
theorem map {ρ' : Type} (footprint : Footprint slot inside operation) (f : ρ → ρ') :
    Footprint slot inside fun s => (f (operation s).1, (operation s).2) where
  result_eq s t agree := congrArg f (footprint.result_eq s t agree)
  agree := footprint.agree
  frame := footprint.frame

/-- Sequencing two operations unites their footprints; here both lie in one set. -/
theorem bind {ρ' : Type} (footprint : Footprint slot inside operation)
    {next : ρ → σ → ρ' × σ} (nextFootprint : ∀ answer, Footprint slot inside (next answer)) :
    Footprint slot inside fun s => next (operation s).1 (operation s).2 where
  result_eq s t agree := by
    rw [footprint.result_eq s t agree]
    exact (nextFootprint _).result_eq _ _ (footprint.agree s t agree)
  agree s t agree := by
    rw [footprint.result_eq s t agree]
    exact (nextFootprint _).agree _ _ (footprint.agree s t agree)
  frame s i outside := by
    rw [(nextFootprint _).frame _ i outside, footprint.frame s i outside]

end Footprint

/-! ### Runs of slot-local steps -/

section Run

variable {A E : Type}

/-- Step `i` works on slot `i` alone. -/
def SlotLocal (slot : σ → ι → S) (step : ι → A → σ → Except E A × σ) : Prop :=
  ∀ i a, Footprint slot (fun j => j = i) (step i a)

/-- Run the steps of a list in order, handing each result to the next step; stop at the first failure
with the store as that step left it. -/
def run (step : ι → A → σ → Except E A × σ) : List ι → A → σ → Except E A × σ
  | [], a, s => (.ok a, s)
  | i :: rest, a, s =>
      match step i a s with
      | (.error e, s') => (.error e, s')
      | (.ok b, s') => run step rest b s'

variable {slot : σ → ι → S} {step : ι → A → σ → Except E A × σ}

@[simp] theorem run_nil (a : A) (s : σ) : run step [] a s = (.ok a, s) := rfl

theorem run_cons (i : ι) (rest : List ι) (a : A) (s : σ) :
    run step (i :: rest) a s =
      match (step i a s).1 with
      | .error e => (.error e, (step i a s).2)
      | .ok b => run step rest b (step i a s).2 := by
  rw [run]
  rcases step i a s with ⟨e | b, s'⟩ <;> rfl

/-- A run of slot-local steps touches the slots of its steps only. -/
theorem run_footprint (isLocal : SlotLocal slot step) (steps : List ι) :
    ∀ a, Footprint slot (fun i => i ∈ steps) (run step steps a) := by
  induction steps with
  | nil => exact fun a => Footprint.pure slot _ (Except.ok a)
  | cons i rest inductionHypothesis =>
      intro a
      have head : Footprint slot (fun j => j ∈ i :: rest) (step i a) :=
        (isLocal i a).mono fun j same => by simp [same]
      have tail : ∀ answer : Except E A, Footprint slot (fun j => j ∈ i :: rest)
          (fun s => match answer with
            | .error e => (.error e, s)
            | .ok b => run step rest b s) := by
        intro answer
        cases answer with
        | error e => exact Footprint.pure slot _ (Except.error e)
        | ok b => exact (inductionHypothesis b).mono fun j member => List.mem_cons_of_mem i member
      have whole := head.bind tail
      have sameRun : run step (i :: rest) a = fun s =>
          match (step i a s).1 with
          | .error e => (.error e, (step i a s).2)
          | .ok b => run step rest b (step i a s).2 := funext fun s => run_cons i rest a s
      rw [sameRun]
      exact whole

/-- Running a concatenation is running the parts one after the other. -/
theorem run_append (first second : List ι) (a : A) (s : σ) :
    run step (first ++ second) a s =
      match run step first a s with
      | (.error e, s') => (.error e, s')
      | (.ok b, s') => run step second b s' := by
  induction first generalizing a s with
  | nil => rfl
  | cons i rest inductionHypothesis =>
      simp only [List.cons_append, run]
      rcases step i a s with ⟨e | b, s'⟩
      · rfl
      · exact inductionHypothesis b s'

/-- A property of values kept by every step holds of the result of a run. -/
theorem run_value_invariant (keeps : A → Prop)
    (step_keeps : ∀ i a s b, keeps a → (step i a s).1 = .ok b → keeps b)
    (steps : List ι) {a b : A} {s : σ} (start : keeps a) (result : (run step steps a s).1 = .ok b) :
    keeps b := by
  induction steps generalizing a s with
  | nil =>
      simp only [run_nil, Except.ok.injEq] at result
      exact result ▸ start
  | cons i rest inductionHypothesis =>
      rw [run_cons] at result
      cases stepped : (step i a s).1 with
      | error e => simp [stepped] at result
      | ok c =>
          rw [stepped] at result
          exact inductionHypothesis (step_keeps i a s c start stepped) result

end Run

/-! ### Runs split over several stores -/

section Blocks

variable {A E ω : Type}

/-- Each block of steps runs on its owner's store; the value is handed from block to block. -/
def runBlocks [DecidableEq ω] (step : ι → A → σ → Except E A × σ) :
    List (ω × List ι) → A → (ω → σ) → Except E A × (ω → σ)
  | [], a, stores => (.ok a, stores)
  | (owner, steps) :: rest, a, stores =>
      match run step steps a (stores owner) with
      | (.error e, s') => (.error e, Function.update stores owner s')
      | (.ok b, s') => runBlocks step rest b (Function.update stores owner s')

/-- The steps of all blocks, in order. -/
def allSteps (blocks : List (ω × List ι)) : List ι :=
  blocks.flatMap fun block => block.2

/-- Every owner holds, for its own steps, the slots of the single store. -/
def BlocksAgree (slot : σ → ι → S) (blocks : List (ω × List ι)) (stores : ω → σ) (whole : σ) : Prop :=
  ∀ block ∈ blocks, AgreeOn slot (fun i => i ∈ block.2) (stores block.1) whole

variable {slot : σ → ι → S} {step : ι → A → σ → Except E A × σ}

theorem allSteps_cons (block : ω × List ι) (rest : List (ω × List ι)) :
    allSteps (block :: rest) = block.2 ++ allSteps rest := rfl

theorem mem_allSteps {blocks : List (ω × List ι)} {block : ω × List ι} {i : ι}
    (member : block ∈ blocks) (inside : i ∈ block.2) : i ∈ allSteps blocks :=
  List.mem_flatMap.mpr ⟨block, member, inside⟩

/-- Two blocks that share a step are one. -/
theorem eq_of_mem_of_mem {blocks : List (ω × List ι)} (disjoint : (allSteps blocks).Nodup)
    {block other : ω × List ι} (member : block ∈ blocks) (isOther : other ∈ blocks) {i : ι}
    (inside : i ∈ block.2) (inOther : i ∈ other.2) : block = other := by
  by_contra apart
  rw [allSteps, List.nodup_flatMap] at disjoint
  have symmetric : Std.Symm (Function.onFun List.Disjoint fun block : ω × List ι => block.2) :=
    ⟨fun _ _ apart _ first second => apart second first⟩
  exact (disjoint.2.forall member isOther apart) inside inOther

variable [DecidableEq ω]

/-- A block that fails ends the run. -/
theorem runBlocks_cons_error {owner : ω} {steps : List ι} {rest : List (ω × List ι)} {a : A} {err : E}
    {stores : ω → σ} {after : σ} (ran : run step steps a (stores owner) = (.error err, after)) :
    runBlocks step ((owner, steps) :: rest) a stores = (.error err, Function.update stores owner after) := by
  rw [runBlocks, ran]

/-- A block that succeeds hands its value to the next one. -/
theorem runBlocks_cons_ok {owner : ω} {steps : List ι} {rest : List (ω × List ι)} {a b : A}
    {stores : ω → σ} {after : σ} (ran : run step steps a (stores owner) = (.ok b, after)) :
    runBlocks step ((owner, steps) :: rest) a stores =
      runBlocks step rest b (Function.update stores owner after) := by
  rw [runBlocks, ran]

/-- Slots outside all blocks keep their content in every store. -/
theorem runBlocks_frame (isLocal : SlotLocal slot step) (blocks : List (ω × List ι)) {i : ι}
    (outside : i ∉ allSteps blocks) (a : A) (stores : ω → σ) (owner : ω) :
    slot ((runBlocks step blocks a stores).2 owner) i = slot (stores owner) i := by
  induction blocks generalizing a stores with
  | nil => rfl
  | cons block rest inductionHypothesis =>
      obtain ⟨blockOwner, steps⟩ := block
      rw [allSteps_cons, List.mem_append, not_or] at outside
      have frame := (run_footprint isLocal steps a).frame (stores blockOwner) i outside.1
      have updated : ∀ s', slot s' i = slot (stores blockOwner) i →
          slot (Function.update stores blockOwner s' owner) i = slot (stores owner) i := by
        intro s' same
        by_cases isOwner : owner = blockOwner
        · rw [isOwner, Function.update_self, same]
        · rw [Function.update_of_ne isOwner]
      rw [runBlocks]
      rcases ran : run step steps a (stores blockOwner) with ⟨e | b, s'⟩
      · rw [ran] at frame
        exact updated s' frame
      · rw [ran] at frame
        exact (inductionHypothesis outside.2 b _).trans (updated s' frame)

/-- After a block has run on its owner's store and on the single store, the blocks that follow still
agree: none of them shares a slot with it. -/
theorem BlocksAgree.update {steps : List ι} {rest : List (ω × List ι)} {stores : ω → σ}
    {whole : σ} (owner : ω) (isLocal : SlotLocal slot step) (agree : BlocksAgree slot rest stores whole)
    (disjoint : ∀ i ∈ steps, i ∉ allSteps rest) (a : A) :
    BlocksAgree slot rest
      (Function.update stores owner (run step steps a (stores owner)).2)
      (run step steps a whole).2 := by
  intro block member i inside
  have untouched : i ∉ steps := fun inSteps => disjoint i inSteps (mem_allSteps member inside)
  rw [(run_footprint isLocal steps a).frame whole i untouched]
  by_cases isOwner : block.1 = owner
  · rw [isOwner, Function.update_self, (run_footprint isLocal steps a).frame (stores owner) i untouched]
    exact isOwner ▸ agree block member i inside
  · rw [Function.update_of_ne isOwner]
    exact agree block member i inside

/-- Blocks without a shared slot refine the single run: from agreeing stores they give the same answer
and end in agreeing stores. -/
theorem runBlocks_refines (isLocal : SlotLocal slot step) (blocks : List (ω × List ι))
    (disjoint : (allSteps blocks).Nodup) (a : A) {stores : ω → σ} {whole : σ}
    (agree : BlocksAgree slot blocks stores whole) :
    (runBlocks step blocks a stores).1 = (run step (allSteps blocks) a whole).1 ∧
      BlocksAgree slot blocks (runBlocks step blocks a stores).2
        (run step (allSteps blocks) a whole).2 := by
  induction blocks generalizing a stores whole with
  | nil => exact ⟨rfl, agree⟩
  | cons block rest inductionHypothesis =>
      obtain ⟨owner, steps⟩ := block
      rw [allSteps_cons, List.nodup_append] at disjoint
      obtain ⟨-, restDisjoint, apart⟩ := disjoint
      have misses : ∀ i ∈ steps, i ∉ allSteps rest := fun i inSteps inRest => apart i inSteps i inRest rfl
      have headAgree : AgreeOn slot (fun i => i ∈ steps) (stores owner) whole :=
        agree (owner, steps) (by simp)
      have restAgree : BlocksAgree slot rest stores whole :=
        fun other member => agree other (List.mem_cons_of_mem _ member)
      have sameAnswer := (run_footprint isLocal steps a).result_eq _ _ headAgree
      have headAfter := (run_footprint isLocal steps a).agree _ _ headAgree
      have restAfter := restAgree.update owner isLocal misses a
      simp only [allSteps_cons, runBlocks, run_append]
      rcases ranOwner : run step steps a (stores owner) with ⟨answer, ownerAfter⟩
      rcases ranWhole : run step steps a whole with ⟨answer', wholeAfter⟩
      rw [ranOwner, ranWhole] at sameAnswer headAfter restAfter
      dsimp only at sameAnswer headAfter restAfter
      subst sameAnswer
      have headStored : AgreeOn slot (fun i => i ∈ steps)
          (Function.update stores owner ownerAfter owner) wholeAfter := by
        rw [Function.update_self]
        exact headAfter
      cases answer with
      | error e =>
          refine ⟨rfl, ?_⟩
          intro other member
          rcases List.mem_cons.mp member with rfl | inRest
          · exact headStored
          · exact restAfter other inRest
      | ok b =>
          obtain ⟨sameResult, tailAgree⟩ := inductionHypothesis restDisjoint b restAfter
          refine ⟨sameResult, ?_⟩
          intro other member
          rcases List.mem_cons.mp member with rfl | inRest
          · intro i inside
            have missed := misses i inside
            rw [runBlocks_frame isLocal rest missed b _ owner]
            rw [(run_footprint isLocal (allSteps rest) b).frame wholeAfter i missed]
            exact headStored i inside
          · exact tailAgree other inRest

/-- An operation on the slots of one block, on the store of its owner and on the single store: all blocks
still agree. -/
theorem BlocksAgree.both {ρ : Type} {inside : ι → Prop} {operation : σ → ρ × σ} {blocks : List (ω × List ι)}
    {stores : ω → σ} {whole : σ} {block : ω × List ι} (footprint : Footprint slot inside operation)
    (member : block ∈ blocks) (within : ∀ i, inside i → i ∈ block.2) (disjoint : (allSteps blocks).Nodup)
    (agree : BlocksAgree slot blocks stores whole) :
    BlocksAgree slot blocks (Function.update stores block.1 (operation (stores block.1)).2)
      (operation whole).2 := by
  have own := footprint.agree _ _ ((agree block member).mono within)
  intro other isOther i inOther
  by_cases touched : inside i
  · have isBlock := eq_of_mem_of_mem disjoint member isOther (within i touched) inOther
    rw [← isBlock, Function.update_self]
    exact own i touched
  · rw [footprint.frame whole i touched]
    by_cases isOwner : other.1 = block.1
    · rw [isOwner, Function.update_self, footprint.frame _ i touched, ← isOwner]
      exact agree other isOther i inOther
    · rw [Function.update_of_ne isOwner]
      exact agree other isOther i inOther

end Blocks

/-! ### Calls from several clients on one store -/

section Clients

variable {ε κ : Type}

/-- No slot a call of `client` uses was used by an earlier call of somebody else. -/
def Undisturbed (key : ε → κ) (inside : ε → ι → Prop) (client : κ) (calls : List ε) : Prop :=
  calls.Pairwise fun earlier later =>
    key later = client → key earlier ≠ client → ∀ i, inside later i → ¬ inside earlier i

variable {slot : σ → ι → S} {serve : ε → σ → ρ × σ} [DecidableEq κ]

/-- The isolation argument with its invariant: the two stores agree off the slots other clients have
dirtied, and no later call of the client uses a dirty slot. -/
private theorem trace_isolated_aux (key : ε → κ) (inside : ε → ι → Prop)
    (footprint : ∀ call, Footprint slot (inside call) (serve call)) (client : κ) (calls : List ε) :
    ∀ (dirty : ι → Prop) (shared alone : σ),
      AgreeOn slot (fun i => ¬ dirty i) shared alone →
      (∀ call ∈ calls, key call = client → ∀ i, inside call i → ¬ dirty i) →
      Undisturbed key inside client calls →
      (trace serve calls shared).filter (fun entry => key entry.1 = client) =
        trace serve (calls.filter fun call => key call = client) alone := by
  induction calls with
  | nil => intros; rfl
  | cons call rest inductionHypothesis =>
      intro dirty shared alone agree clean undisturbed
      obtain ⟨headApart, restUndisturbed⟩ := List.pairwise_cons.mp undisturbed
      have restClean : ∀ later ∈ rest, key later = client → ∀ i, inside later i → ¬ dirty i :=
        fun later member => clean later (List.mem_cons_of_mem _ member)
      by_cases own : key call = client
      · -- a call of the client: it sees clean slots only, so both stores give the same answer
        have headClean := clean call (by simp) own
        have sameAnswer := (footprint call).result_eq shared alone (agree.mono headClean)
        have agreeAfter := (footprint call).agree_of_subset headClean agree
        have tail := inductionHypothesis dirty _ _ agreeAfter restClean restUndisturbed
        simp only [trace, own, decide_true, List.filter_cons_of_pos, sameAnswer, tail]
      · -- somebody else's call: its slots become dirty, the other store stays as it is
        have agreeAfter : AgreeOn slot (fun i => ¬ (dirty i ∨ inside call i)) (serve call shared).2 alone :=
          (footprint call).agree_left_of_disjoint (fun i spared => fun used => spared (Or.inr used))
            (agree.mono fun i spared => fun isDirty => spared (Or.inl isDirty))
        have stillClean : ∀ later ∈ rest, key later = client →
            ∀ i, inside later i → ¬ (dirty i ∨ inside call i) := by
          intro later member isClient i used
          rw [not_or]
          exact ⟨restClean later member isClient i used, headApart later member isClient own i used⟩
        have tail := inductionHypothesis _ _ _ agreeAfter stillClean restUndisturbed
        simp only [trace, own, decide_false, List.filter_cons, Bool.false_eq_true, if_false, tail]

/-- A client whose slots nobody else has used gets the answers it would get alone. -/
theorem trace_isolated (key : ε → κ) (inside : ε → ι → Prop)
    (footprint : ∀ call, Footprint slot (inside call) (serve call)) (client : κ) {calls : List ε}
    (undisturbed : Undisturbed key inside client calls) (s : σ) :
    (trace serve calls s).filter (fun entry => key entry.1 = client) =
      trace serve (calls.filter fun call => key call = client) s :=
  trace_isolated_aux key inside footprint client calls (fun _ => False) s s
    (AgreeOn.refl slot _ s) (fun _ _ _ _ _ => id) undisturbed

end Clients

end SlotStore
