/-
Module: GoExotic.Proofs.StoppedLayers
Purpose: A stopped generation over layer executors. With a model whose layers append one step to their slot at a
  time, a context only stops an executor: what it leaves in the caches is what whole calls of `ForwardLayer` made of
  the caches before, and what a longer run leaves, whole calls made of that. The same so holds of generation with one
  executor a peer.
Trusted boundary: go-pherence, through the hypothesis AppendsStep
Main exports: LlamaModel.StepsSlot, KVCache.GrewBySteps, forwardLayers_cut, executeLayerRange_cut,
  heapWorker_stoppable, newSimulator_lookup, cancelled_generation_appended_whole_steps
-/
import GoExotic.Proofs.StoppedGeneration

namespace GoExotic

open Stopping

variable {W : Type}

/-! ### Layer executors -/

/-- A call of `ForwardLayer` that succeeds, at some position and on some caches, makes the second slot of the first, to
which it appends its step. -/
structure LlamaModel.StepsSlot (m : LlamaModel) (layer : Nat) (before after : KVSlot) : Prop where
  ran : ∃ hidden position cache out next, m.forwardLayer hidden layer position position cache = (some out, next) ∧
    cache.slot layer = before ∧ next.slot layer = after
  grew : before.Grew after

/-- Of every slot, some whole steps of the model in a row made what it has become. -/
def KVCache.GrewBySteps (m : LlamaModel) (before after : KVCache) : Prop :=
  ∀ layer, Relation.ReflTransGen (m.StepsSlot layer) (before.slot layer) (after.slot layer)

instance (m : LlamaModel) : IsPreorder KVCache (KVCache.GrewBySteps m) where
  refl _ _ := Relation.ReflTransGen.refl
  trans _ _ _ first second layer := (first layer).trans (second layer)

section Executor

variable {m : LlamaModel} {e : PherenceLayerExecutor} {ctx longer : Ctx} {totalLayers : Int}

/-- A layer that completes is one step of its slot. -/
theorem LlamaModel.AppendsStep.grewBySteps (appends : m.AppendsStep) {layer : Nat} {hidden out : List Float32Bits}
    {position : Int} {cache next : KVCache} (insideK : layer < cache.k.length) (insideV : layer < cache.v.length)
    (ran : m.forwardLayer hidden layer position position cache = (some out, next)) : cache.GrewBySteps m next := by
  intro other
  by_cases isLayer : other = layer
  · subst isLayer
    have grew := appends.appends other hidden position cache out next insideK insideV ran
    exact Relation.ReflTransGen.single ⟨⟨hidden, position, cache, out, next, ran, rfl, rfl⟩, grew⟩
  · rw [appends.others layer hidden position cache out next ran other isLayer]

/-- The loop goes on from the caches before. -/
theorem forwardLayers_goesOn (appends : m.AppendsStep) (ctx : Ctx) (position : Int) (remaining : Nat) :
    ∀ (poll layer : Nat) (hidden : List Float32Bits) (cache : KVCache),
      layer + remaining ≤ cache.k.length → layer + remaining ≤ cache.v.length →
      cache.GrewBySteps m (forwardLayers m ctx position remaining poll layer hidden cache).2 := by
  induction remaining with
  | zero =>
      intro poll layer hidden cache insideK insideV
      exact Std.Refl.refl cache
  | succ remaining inductionHypothesis =>
      intro poll layer hidden cache insideK insideV
      rw [forwardLayers]
      cases ctx.check poll with
      | error err => exact Std.Refl.refl cache
      | ok live =>
          dsimp only
          rcases ran : m.forwardLayer hidden layer position position cache with ⟨_ | out, next⟩
          · rw [appends.untouched layer hidden position cache next ran]
            exact Std.Refl.refl cache
          · have sizes := appends.sizes (by omega) (by omega) ran
            have first := appends.grewBySteps (by omega) (by omega) ran
            have rest := inductionHypothesis (poll + 1) (layer + 1) out next (by omega) (by omega)
            rw [Nat.cast_succ] at rest
            exact IsTrans.trans _ _ _ first rest

/-- The loop under a context is cut short at most. -/
theorem forwardLayers_cut (appends : m.AppendsStep) (outlives : longer.Outlives ctx) (position : Int)
    (remaining : Nat) :
    ∀ (poll layer : Nat) (hidden : List Float32Bits) (cache : KVCache),
      layer + remaining ≤ cache.k.length → layer + remaining ≤ cache.v.length →
      CutShort ctx.Caused (KVCache.GrewBySteps m) (forwardLayers m ctx position remaining poll layer hidden cache)
        (forwardLayers m longer position remaining poll layer hidden cache) := by
  induction remaining with
  | zero =>
      intro poll layer hidden cache insideK insideV
      exact .same _
  | succ remaining inductionHypothesis =>
      intro poll layer hidden cache insideK insideV
      have onward := forwardLayers_goesOn appends longer position (remaining + 1) poll layer hidden cache insideK
        insideV
      rw [forwardLayers]
      rcases outlives.check poll with same | ⟨-, err, stops, caused⟩
      · rw [forwardLayers, same]
        cases ctx.check poll with
        | error err => exact .same _
        | ok live =>
            dsimp only
            rcases ran : m.forwardLayer hidden layer position position cache with ⟨_ | out, next⟩
            · exact .same _
            · have sizes := appends.sizes (by omega) (by omega) ran
              have rest := inductionHypothesis (poll + 1) (layer + 1) out next (by omega) (by omega)
              rw [Nat.cast_succ] at rest
              exact rest
      · rw [stops]
        exact .stopped caused onward

/-- What passes the checks runs layers inside the caches. -/
theorem checkLayerRange_inside {ctx : Ctx} {req : ShardExecutionRequest} {cache : KVCache}
    (checked : e.checkLayerRange ctx req cache totalLayers = .ok m) :
    e.model = some m ∧ 0 ≤ req.shard.startLayer ∧
      req.shard.startLayer.toNat + (req.shard.endLayer + 1 - req.shard.startLayer).toNat ≤ cache.k.length ∧
      req.shard.startLayer.toNat + (req.shard.endLayer + 1 - req.shard.startLayer).toNat ≤ cache.v.length := by
  simp only [PherenceLayerExecutor.checkLayerRange, bind_eq_ok, failIf_eq_ok, exists_const, not_or, not_not,
    pure_eq_ok, Except.ok.injEq] at checked
  obtain ⟨_, accepted, sized, rfl⟩ := checked
  obtain ⟨isModel, -, layers, valid, -⟩ := checkRequest_eq_ok.mp accepted
  obtain ⟨-, -, start, nonempty, below⟩ := Shard.validate_eq_ok.mp (ShardExecutionRequest.shard_valid valid)
  exact ⟨isModel, start, by omega, by omega⟩

theorem executeLayerRange_goesOn (isModel : e.model = some m) (appends : m.AppendsStep) (ctx : Ctx)
    (req : ShardExecutionRequest) (cache : KVCache) (totalLayers : Int) :
    cache.GrewBySteps m (e.executeLayerRange ctx req cache totalLayers).2 := by
  rw [PherenceLayerExecutor.executeLayerRange]
  cases checked : e.checkLayerRange ctx req cache totalLayers with
  | error err => exact Std.Refl.refl cache
  | ok model =>
      obtain ⟨sameModel, start, insideK, insideV⟩ := checkLayerRange_inside checked
      rw [isModel, Option.some.injEq] at sameModel
      subst sameModel
      have loop := forwardLayers_goesOn appends (ctx.call 1) req.position _ 0 req.shard.startLayer.toNat
        req.activation cache insideK insideV
      rw [Int.toNat_of_nonneg start] at loop
      dsimp only
      rcases ran : forwardLayers m (ctx.call 1) req.position
        (req.shard.endLayer + 1 - req.shard.startLayer).toNat 0 req.shard.startLayer req.activation
        cache with ⟨err | hidden, after⟩
      · rw [ran] at loop
        exact loop
      · rw [ran] at loop
        exact loop

theorem checkLayerRange_cut (outlives : longer.Outlives ctx) (req : ShardExecutionRequest) (cache : KVCache) :
    Cut ctx.Caused (e.checkLayerRange ctx req cache totalLayers)
      (e.checkLayerRange longer req cache totalLayers) := by
  have accepts : Cut ctx.Caused (e.checkRequest ctx req totalLayers) (e.checkRequest longer req totalLayers) := by
    rw [PherenceLayerExecutor.checkRequest, PherenceLayerExecutor.checkRequest]
    cases e.model with
    | none => exact .same _
    | some model =>
        apply (outlives.check_cut 0).bind
        intro _
        exact .same _
  apply accepts.bind
  intro _
  exact .same _

theorem executeLayerRange_cut (isModel : e.model = some m) (appends : m.AppendsStep)
    (outlives : longer.Outlives ctx) (req : ShardExecutionRequest) (cache : KVCache) (totalLayers : Int) :
    CutShort ctx.Caused (KVCache.GrewBySteps m) (e.executeLayerRange ctx req cache totalLayers)
      (e.executeLayerRange longer req cache totalLayers) := by
  have onward := executeLayerRange_goesOn isModel appends longer req cache totalLayers
  have accepts : Cut ctx.Caused (e.checkLayerRange ctx req cache totalLayers)
      (e.checkLayerRange longer req cache totalLayers) := checkLayerRange_cut outlives req cache
  rw [PherenceLayerExecutor.executeLayerRange]
  generalize accepted : e.checkLayerRange ctx req cache totalLayers = short at accepts ⊢
  generalize full : e.checkLayerRange longer req cache totalLayers = whole at accepts
  cases accepts with
  | stopped caused => exact .stopped caused onward
  | same _ =>
      rw [PherenceLayerExecutor.executeLayerRange, full]
      cases short with
      | error err => exact .same _
      | ok model =>
          obtain ⟨sameModel, start, insideK, insideV⟩ := checkLayerRange_inside accepted
          rw [isModel, Option.some.injEq] at sameModel
          subst sameModel
          have loop := forwardLayers_cut appends (outlives.call 1) req.position _ 0 req.shard.startLayer.toNat
            req.activation cache insideK insideV
          rw [Int.toNat_of_nonneg start] at loop
          have called := loop.mono Ctx.caused_of_call
          dsimp only
          generalize forwardLayers m (ctx.call 1) req.position
            (req.shard.endLayer + 1 - req.shard.startLayer).toNat 0 req.shard.startLayer req.activation cache =
              ended at called ⊢
          generalize forwardLayers m (longer.call 1) req.position
            (req.shard.endLayer + 1 - req.shard.startLayer).toNat 0 req.shard.startLayer req.activation cache =
              done at called ⊢
          cases called with
          | same _ => exact .same _
          | stopped caused goesOn =>
              refine .stopped caused ?_
              rcases done with ⟨err | hidden, after⟩
              · exact goesOn
              · exact goesOn

/-- Workers over one executor, every cache of which grew by some steps. -/
def HeapGrew (m : LlamaModel) (e : PherenceLayerExecutor) (totalLayers : Int) (before after : Heap) : Prop :=
  ∀ caches, before = heapOf e caches totalLayers → ∃ caches', after = heapOf e caches' totalLayers ∧
    ∀ id, (caches id).GrewBySteps m (caches' id)

instance (m : LlamaModel) (e : PherenceLayerExecutor) (totalLayers : Int) :
    IsPreorder Heap (HeapGrew m e totalLayers) where
  refl _ caches isHeap := ⟨caches, isHeap, fun id => Std.Refl.refl (caches id)⟩
  trans _ _ _ first second caches isHeap := by
    obtain ⟨caches', isHeap', grew⟩ := first caches isHeap
    obtain ⟨caches'', isHeap'', grew'⟩ := second caches' isHeap'
    exact ⟨caches'', isHeap'', fun id => IsTrans.trans _ _ _ (grew id) (grew' id)⟩

/-- Caches that differ in one place, where they grew, grew. -/
theorem heapGrew_update {caches : String → KVCache} {id : String} {before after : KVCache}
    (grew : before.GrewBySteps m after) :
    HeapGrew m e totalLayers (heapOf e (Function.update caches id before) totalLayers)
      (heapOf e (Function.update caches id after) totalLayers) := by
  intro caches' same
  refine ⟨_, rfl, ?_⟩
  intro other
  rw [← heapOf_injective same]
  by_cases isOwner : other = id
  · subst isOwner
    rw [Function.update_self, Function.update_self]
    exact grew
  · rw [Function.update_of_ne isOwner, Function.update_of_ne isOwner]
    exact Std.Refl.refl (caches other)

/-- A layer worker over a model that appends its steps is stoppable. -/
theorem heapWorker_stoppable (isModel : e.model = some m) (appends : m.AppendsStep) (totalLayers : Int)
    (id : String) : Worker.Stoppable (heapWorker id) (HeapGrew m e totalLayers) (HeapOver e totalLayers) := by
  constructor
  · rintro ctx req _ ⟨caches, rfl⟩
    rw [heapWorker_heapOf]
    have grew : HeapGrew m e totalLayers (heapOf e (Function.update caches id (caches id)) totalLayers) _ :=
      heapGrew_update (executeLayerRange_goesOn isModel appends ctx req (caches id) totalLayers)
    rw [Function.update_eq_self] at grew
    exact grew
  · rintro ctx longer req _ outlives ⟨caches, rfl⟩
    rw [heapWorker_heapOf, heapWorker_heapOf]
    have called := executeLayerRange_cut isModel appends outlives req (caches id) totalLayers
    generalize e.executeLayerRange ctx req (caches id) totalLayers = short at called ⊢
    generalize e.executeLayerRange longer req (caches id) totalLayers = full at called ⊢
    cases called with
    | same _ => exact .same _
    | stopped caused goesOn =>
        exact .stopped caused (heapGrew_update goesOn)

/-- What the copy loop of `NewSimulator` accepts is named and not nil. -/
theorem copyWorkers_accepted {entries : List (Sigma fun _ : String => Option (Worker W))} :
    ∀ {copied workers : GoMap (Worker W)}, copyWorkers entries copied = .ok workers →
      ∀ entry ∈ entries, entry.1 ≠ "" ∧ entry.2 ≠ none := by
  induction entries with
  | nil =>
      intro copied workers _ entry member
      cases member
  | cons first rest inductionHypothesis =>
      obtain ⟨id, worker⟩ := first
      intro copied workers made entry member
      simp only [copyWorkers, bind_eq_ok, failIf_eq_ok, exists_const] at made
      obtain ⟨named, made⟩ := made
      cases worker with
      | none => cases made
      | some worker =>
          rcases List.mem_cons.mp member with rfl | later
          · exact ⟨named, Option.some_ne_none worker⟩
          · exact inductionHypothesis made entry later

/-- A simulator has the workers of the map it was made from. -/
theorem newSimulator_lookup {workers : GoMap (Option (Worker W))} {sim : Simulator W}
    (made : newSimulator workers = .ok sim) (id : String) :
    sim.workers.lookup id = (workers.lookup id).join := by
  have accepted := made
  simp only [newSimulator, bind_eq_ok, failIf_eq_ok, exists_const, pure_eq_ok, Except.ok.injEq] at accepted
  obtain ⟨some, copied, copies, -⟩ := accepted
  obtain ⟨same, ok, found⟩ := newSimulator_succeeds (fun none => some (List.length_eq_zero_iff.mpr none))
    (copyWorkers_accepted copies)
  rw [made, Except.ok.injEq] at ok
  subst ok
  exact found id

/-- The simulator of some layer workers has layer workers only. -/
theorem simulator_of_layerWorkers {ids : List String} (nonempty : ids ≠ []) (named : ∀ id ∈ ids, id ≠ "") :
    ∃ sim, newSimulator (layerWorkers ids) = .ok sim ∧
      ∀ id, sim.workers.lookup id = if id ∈ ids then some (heapWorker id) else none := by
  obtain ⟨sim, made, -⟩ := newSimulator_layerWorkers nonempty named
  refine ⟨sim, made, ?_⟩
  intro id
  rw [newSimulator_lookup made, lookup_layerWorkers]
  split_ifs with listed
  · rfl
  · rfl

/-- A stopped generation has appended whole steps only. With one layer executor a peer, over a model whose
successful `ForwardLayer` appends one step to the slot of its layer, and a context that another one outlives: the
slots that generation leaves under it are those before after some successful calls of `ForwardLayer` in a row, those
the longer run leaves are these slots after some more, and the two runs return the same and leave the same caches
unless the first one fails with an error that wraps the context's own. -/
theorem cancelled_generation_appended_whole_steps (go : GoLib) (m : LlamaModel) (e : PherenceLayerExecutor)
    (isModel : e.model = some m) (appends : m.AppendsStep) (totalLayers : Int) (ids : List String)
    (nonempty : ids ≠ []) (named : ∀ id ∈ ids, id ≠ "") :
    ∃ sim, newSimulator (layerWorkers ids) = .ok sim ∧
      ∀ (ctx longer : Ctx) (routes : List Route) (base : ShardExecutionRequest) (maxTokens : Int)
        (project : Option Simulator.TokenProjector) (caches : String → KVCache), longer.Outlives ctx →
        ∃ left done answer whole,
          sim.generateTokens go ctx routes base totalLayers maxTokens project (heapOf e caches totalLayers) =
            (answer, heapOf e left totalLayers) ∧
          sim.generateTokens go longer routes base totalLayers maxTokens project (heapOf e caches totalLayers) =
            (whole, heapOf e done totalLayers) ∧
          (∀ id, (caches id).GrewBySteps m (left id) ∧ (left id).GrewBySteps m (done id)) ∧
          ((answer = whole ∧ left = done) ∨ ∃ err, answer = .error err ∧ ctx.Caused err) := by
  obtain ⟨sim, made, workers⟩ := simulator_of_layerWorkers nonempty named
  refine ⟨sim, made, ?_⟩
  intro ctx longer routes base maxTokens project caches outlives
  have stoppable : sim.Stoppable (HeapGrew m e totalLayers) (HeapOver e totalLayers) := by
    constructor
    · rintro _ _ grew ⟨caches, rfl⟩
      obtain ⟨caches', isHeap, -⟩ := grew caches rfl
      exact ⟨caches', isHeap⟩
    · intro id worker found
      rw [workers] at found
      split_ifs at found with listed
      rw [Option.some.injEq] at found
      subst found
      exact heapWorker_stoppable isModel appends totalLayers id
  have cut := stoppable.generateTokens_cut go outlives routes base totalLayers maxTokens project ⟨caches, rfl⟩
  obtain ⟨left, isLeft, grew⟩ := stoppable.generateTokens_goesOn go ctx routes base totalLayers maxTokens project
    ⟨caches, rfl⟩ caches rfl
  obtain ⟨done, isDone, onward⟩ := cut.state left isLeft
  refine ⟨left, done, _, _, Prod.ext rfl isLeft, Prod.ext rfl isDone, fun id => ⟨grew id, onward id⟩, ?_⟩
  rcases cut.eq_or with same | ⟨err, stopped, caused⟩
  · left
    rw [same] at isLeft
    exact ⟨congrArg Prod.fst same, heapOf_injective (isLeft.symm.trans isDone)⟩
  · exact Or.inr ⟨err, stopped, caused⟩

/-- A context that is cancelled before the second token. -/
def cancelledBeforeSecondToken : Ctx := fun path => if path = [1] then some .canceled else none

/-- What a decode of two tokens on two workers returns. -/
def twoTokens (ctx : Ctx) : Except GoError (List Int) :=
  match newSimulator (layerWorkers ["b", "a"]) with
  | .error err => .error err
  | .ok sim =>
      (sim.generateTokens .plain ctx [⟨servingPeer "a", ⟨"a", 0, 0⟩⟩, ⟨servingPeer "b", ⟨"b", 1, 1⟩⟩]
        (exampleRequest "s" 0 0) 2 2 (some headToken) (freshHeap (recallModel 2) 2)).1

/-- A decode of two tokens on two workers, cancelled before the second one, fails after whole steps. -/
theorem cancelled_generation_appended_whole_steps_pair :
    ∃ sim left done answer, newSimulator (layerWorkers ["b", "a"]) = .ok sim ∧
      sim.generateTokens .plain cancelledBeforeSecondToken
          [⟨servingPeer "a", ⟨"a", 0, 0⟩⟩, ⟨servingPeer "b", ⟨"b", 1, 1⟩⟩] (exampleRequest "s" 0 0) 2 2
          (some headToken) (freshHeap (recallModel 2) 2) = (answer, heapOf ⟨some (recallModel 2)⟩ left 2) ∧
      sim.generateTokens .plain .background
          [⟨servingPeer "a", ⟨"a", 0, 0⟩⟩, ⟨servingPeer "b", ⟨"b", 1, 1⟩⟩] (exampleRequest "s" 0 0) 2 2
          (some headToken) (freshHeap (recallModel 2) 2) = (.ok [0, 2], heapOf ⟨some (recallModel 2)⟩ done 2) ∧
      (∀ id, KVCache.GrewBySteps (recallModel 2) (.fresh 2) (left id) ∧
        (left id).GrewBySteps (recallModel 2) (done id)) ∧
      ∃ err, answer = .error err ∧ cancelledBeforeSecondToken.Caused err := by
  obtain ⟨sim, made, runs⟩ := cancelled_generation_appended_whole_steps .plain (recallModel 2)
    ⟨some (recallModel 2)⟩ rfl (recallModel_appendsStep 2) 2 ["b", "a"] (by decide) (by decide)
  obtain ⟨left, done, answer, whole, stopped, full, grew, ends⟩ := runs cancelledBeforeSecondToken .background
    [⟨servingPeer "a", ⟨"a", 0, 0⟩⟩, ⟨servingPeer "b", ⟨"b", 1, 1⟩⟩] (exampleRequest "s" 0 0) 2 (some headToken)
    (fun _ => .fresh 2) (Ctx.background_outlives _)
  have returned : ∀ ctx result, sim.generateTokens .plain ctx
      [⟨servingPeer "a", ⟨"a", 0, 0⟩⟩, ⟨servingPeer "b", ⟨"b", 1, 1⟩⟩] (exampleRequest "s" 0 0) 2 2
      (some headToken) (freshHeap (recallModel 2) 2) = result → result.1 = twoTokens ctx := by
    rintro ctx _ rfl
    rw [twoTokens, made]
  have isWhole : whole = .ok [0, 2] := by
    have tokens : twoTokens .background = .ok [0, 2] := by decide +kernel
    exact (returned _ _ full).trans tokens
  have refused : twoTokens cancelledBeforeSecondToken ≠ .ok [0, 2] := by decide +kernel
  subst isWhole
  refine ⟨sim, left, done, answer, made, stopped, full, grew, ?_⟩
  rcases ends with ⟨same, -⟩ | failed
  · exact absurd ((returned _ _ stopped).symm.trans same) refused
  · exact failed

end Executor

end GoExotic
