/-
Module: GoExotic.Proofs.Decoding
Purpose: The decode loop over arbitrary workers. It is a relay over the step numbers whose legs are
  executions, so its worker calls, as a log notes them, are those of its steps one after the other, and
  each step starts from the activation the step before it ended with. A shorter generation is a prefix of
  a longer one, no position wraps, and on routes with distinct peers no response of a generation passes
  for that of another of its calls.
Trusted boundary: none
Main exports: stepRequest, decodeRules, decode_relay, generateCalls, DecodeStep, Decoded,
  generateTokens_decoded, stepRequest_position, PrefixStable, generation_prefix_stable, Echoes, Unmixed,
  generation_unmixed
-/
import GoExotic.Proofs.Custody
import GoExotic.Model.Wire

namespace GoExotic.Simulator

open Relay

variable {W : Type}

/-! ### The loop as a relay -/

/-- The request of a decode step. -/
def stepRequest (base : ShardExecutionRequest) (step : Nat) (activation : List Float32Bits) :
    ShardExecutionRequest :=
  { base with position := wrapInt (base.position + step), activation := activation }

section Loop

variable (go : GoLib) (s : Simulator W) (ctx : Ctx) (routes : List Route) (base : ShardExecutionRequest)
  (totalLayers : Int) (project : TokenProjector)

/-- The rules of the relay `GenerateTokens` runs: a stage is a step number, a token the activation the
step starts from with the state of the workers, and an answer what `Execute` returned. -/
def decodeRules : Rules Nat (List Float32Bits × W) (Except GoError ShardExecutionResponse × W) GoError where
  asks _ _ := True
  answers step token answer :=
    answer = s.execute go (ctx.call step) routes (stepRequest base step token.1) totalLayers token.2
  next _ _ answer :=
    match answer with
    | (.error _, _) => none
    | (.ok resp, state) =>
        match project resp.activation with
        | .error _ => none
        | .ok _ => some (resp.activation, state)
  refuses step _ err := ctx.check step = .error err

/-- A leg of a generation. -/
abbrev DecodeLeg (W : Type) := Leg Nat (List Float32Bits × W) (Except GoError ShardExecutionResponse × W)

/-- The worker calls of a step. -/
def stepCalls (leg : DecodeLeg W) : List WorkerCall :=
  s.executeCalls go (ctx.call leg.stage) routes (stepRequest base leg.stage leg.token.1) totalLayers
    leg.token.2

/-- A token is what the projector makes of the response a step ended with. -/
def Projects (project : TokenProjector) (result : Except GoError ShardExecutionResponse) (tok : Int) : Prop :=
  ∃ resp, result = .ok resp ∧ project resp.activation = .ok tok

/-- What the loop returns for a run of the relay, after the tokens `out`. -/
def Produces (project : TokenProjector) (out : List Int) (legs : List (DecodeLeg W)) (stop : Option GoError) :
    Except GoError (List Int) → Prop
  | .ok tokens => stop = none ∧
      ∃ produced, tokens = out ++ produced ∧
        List.Forall₂ (fun leg tok => Projects project leg.answer.1 tok) legs produced
  | .error err => stop = some err

/-- The decode loop is a relay over the step numbers, and its calls are those of the steps. -/
theorem decode_relay (remaining step : Nat) (activation : List Float32Bits) (out : List Int) (state : W) :
    ∃ legs stop, Run (decodeRules go s ctx routes base totalLayers project) (activation, state)
        (List.range' step remaining) legs stop ∧
      Produces project out legs stop
        (s.decode go ctx routes base totalLayers project remaining step activation out state).1 ∧
      ∀ log, s.logged.decode go ctx routes base totalLayers project remaining step activation out
          (log, state) =
        ((s.decode go ctx routes base totalLayers project remaining step activation out state).1,
          log ++ legs.flatMap (stepCalls go s ctx routes base totalLayers),
          (s.decode go ctx routes base totalLayers project remaining step activation out state).2) := by
  induction remaining generalizing step activation out state with
  | zero =>
      refine ⟨[], none, .finished _, ⟨rfl, [], (List.append_nil out).symm, .nil⟩, ?_⟩
      simp [decode]
  | succ remaining inductionHypothesis =>
      have steps : List.range' step (remaining + 1) = step :: List.range' (step + 1) remaining :=
        List.range'_succ
      simp only [decode, steps]
      cases polled : ctx.check step with
      | error err => exact ⟨[], some err, .refused polled, rfl, by simp⟩
      | ok u =>
          have logged := execute_logged go s (ctx.call step) routes (stepRequest base step activation)
            totalLayers state
          rw [stepRequest] at logged
          simp only [logged]
          rcases executed : s.execute go (ctx.call step) routes
            { base with position := wrapInt (base.position + step), activation := activation } totalLayers
            state with ⟨err | resp, after⟩
          · refine ⟨[⟨step, (activation, state), (.error err, after)⟩], some err,
              .dropped trivial executed.symm rfl, rfl, ?_⟩
            intro log
            rw [List.flatMap_singleton]
            rfl
          · dsimp only
            cases projected : project resp.activation with
            | error err =>
                refine ⟨[⟨step, (activation, state), (.ok resp, after)⟩], some err,
                  .dropped trivial executed.symm ?_, rfl, ?_⟩
                · simp only [decodeRules, projected]
                · intro log
                  rw [List.flatMap_singleton]
                  rfl
            | ok tok =>
                dsimp only
                obtain ⟨legs, stop, run, produces, logs⟩ :=
                  inductionHypothesis (step + 1) resp.activation (out ++ [tok]) after
                refine ⟨⟨step, (activation, state), (.ok resp, after)⟩ :: legs, stop,
                  .passed trivial executed.symm ?_ run, ?_, ?_⟩
                · simp only [decodeRules, projected]
                · revert produces
                  cases (s.decode go ctx routes base totalLayers project remaining (step + 1)
                    resp.activation (out ++ [tok]) after).1 with
                  | error err => exact id
                  | ok tokens =>
                      rintro ⟨through, produced, rfl, each⟩
                      refine ⟨through, tok :: produced, ?_, .cons ⟨resp, rfl, projected⟩ each⟩
                      rw [List.append_assoc, List.singleton_append]
                · intro log
                  rw [logs, List.append_assoc, List.flatMap_cons]
                  rfl

end Loop

/-! ### Generations -/

/-- The worker calls of a generation. -/
def generateCalls (go : GoLib) (s : Simulator W) (ctx : Ctx) (routes : List Route)
    (base : ShardExecutionRequest) (totalLayers maxTokens : Int) (project : Option TokenProjector)
    (state : W) : List WorkerCall :=
  (s.logged.generateTokens go ctx routes base totalLayers maxTokens project ([], state)).2.1

/-- A decode step: the activation it starts from, its worker calls, and what `Execute` returned. -/
structure DecodeStep where
  activation : List Float32Bits
  calls : List WorkerCall
  result : Except GoError ShardExecutionResponse

/-- The steps of a generation, next to its calls and its result. -/
structure Decoded (go : GoLib) (s : Simulator W) (ctx : Ctx) (routes : List Route)
    (base : ShardExecutionRequest) (totalLayers maxTokens : Int) (project : Option TokenProjector)
    (steps : List DecodeStep) (calls : List WorkerCall) (result : Except GoError (List Int)) : Prop where
  calls_eq : calls = steps.flatMap DecodeStep.calls
  /-- There is no step unless the arguments are accepted, and never more than one for a token. -/
  checked : steps ≠ [] → ∃ p, project = some p ∧ checkGeneration base maxTokens project = .ok p
  bounded : (steps.length : Int) ≤ max 0 maxTokens
  /-- A step is an execution of its request in some state of the workers. -/
  executed : ∀ (k : Nat) step, steps[k]? = some step → ∃ state,
    step.calls = s.executeCalls go (ctx.call k) routes (stepRequest base k step.activation) totalLayers
        state ∧
      step.result = (s.execute go (ctx.call k) routes (stepRequest base k step.activation) totalLayers
        state).1
  first : ∀ step, steps[0]? = some step → step.activation = base.activation
  handover : ∀ (k : Nat) step later, steps[k]? = some step → steps[k + 1]? = some later →
    ∃ resp, step.result = .ok resp ∧ later.activation = resp.activation
  /-- Success takes one step a token, and each token is projected from the end of its step. -/
  success : ∀ tokens, result = .ok tokens → ∃ p, project = some p ∧ (steps.length : Int) = maxTokens ∧
    List.Forall₂ (fun step tok => Projects p step.result tok) steps tokens
  /-- A step that yields no token is the last. -/
  halts : ∀ (k : Nat) step, steps[k]? = some step →
    (∀ p tok, project = some p → ¬ Projects p step.result tok) →
    steps.length = k + 1 ∧ ∃ err, result = .error err

theorem checkGeneration_eq_ok {base : ShardExecutionRequest} {maxTokens : Int}
    {project : Option TokenProjector} {p : TokenProjector} :
    checkGeneration base maxTokens project = .ok p ↔
      0 ≤ maxTokens ∧ (0 < maxTokens → base.position ≤ wrapInt (maxInt - wrapInt (maxTokens - 1))) ∧
        project = some p ∧ (base.activation.length : Int) = base.hiddenSize ∧ 0 < base.hiddenSize := by
  simp only [checkGeneration, bind_eq_ok, failIf_eq_ok, exists_const, not_lt, gt_iff_lt, not_and]
  cases project with
  | none => simp
  | some project =>
      simp only [bind_eq_ok, failIf_eq_ok, exists_const, pure_eq_ok, Except.ok.injEq, Option.some.injEq,
        not_or, not_not, not_le, ne_eq]
      constructor
      · rintro ⟨nonneg, fits, shape, rfl⟩
        exact ⟨nonneg, fits, rfl, shape⟩
      · rintro ⟨nonneg, fits, rfl, shape⟩
        exact ⟨nonneg, fits, shape, rfl⟩

section Generate

variable (go : GoLib) (s : Simulator W) (ctx : Ctx) (routes : List Route) (base : ShardExecutionRequest)
  (totalLayers maxTokens : Int) (project : Option TokenProjector) (state : W)

/-- A step hands on the activation it ended with, if the projector accepts it. -/
theorem projected_eq_some {p : TokenProjector} {leg : DecodeLeg W} {handed : List Float32Bits × W} :
    leg.handed (decodeRules go s ctx routes base totalLayers p) = some handed ↔
      ∃ resp tok, leg.answer.1 = .ok resp ∧ p resp.activation = .ok tok ∧
        handed = (resp.activation, leg.answer.2) := by
  obtain ⟨stage, token, answer, after⟩ := leg
  cases answer with
  | error err => simp [Leg.handed, decodeRules]
  | ok resp =>
      cases projected : p resp.activation with
      | error err => simp [Leg.handed, decodeRules, projected]
      | ok tok => simp [Leg.handed, decodeRules, projected, eq_comm]

/-- A leg of the relay, as a step. -/
def stepOf (leg : DecodeLeg W) : DecodeStep :=
  ⟨leg.token.1, stepCalls go s ctx routes base totalLayers leg, leg.answer.1⟩

/-- The step at a position is that of the leg there, which has the number of the position. -/
theorem step_at {p : TokenProjector} {token : List Float32Bits × W} {legs : List (DecodeLeg W)}
    {stop : Option GoError} {count : Nat}
    (run : Run (decodeRules go s ctx routes base totalLayers p) token (List.range' 0 count) legs stop)
    {k : Nat} {step : DecodeStep}
    (found : (legs.map (stepOf go s ctx routes base totalLayers))[k]? = some step) :
    ∃ leg, legs[k]? = some leg ∧ leg.stage = k ∧ stepOf go s ctx routes base totalLayers leg = step := by
  rw [List.getElem?_map] at found
  obtain ⟨leg, here, same⟩ := Option.map_eq_some_iff.mp found
  have numbered := run.stage_at here
  have inside : k < count := by
    simpa using (List.getElem?_eq_some_iff.mp numbered).1
  rw [List.getElem?_range' inside] at numbered
  exact ⟨leg, here, (Option.some.inj numbered).symm.trans (by omega), same⟩

/-- Every generation is made of such steps, whatever its workers do. -/
theorem generateTokens_decoded :
    ∃ steps, Decoded go s ctx routes base totalLayers maxTokens project steps
      (s.generateCalls go ctx routes base totalLayers maxTokens project state)
      (s.generateTokens go ctx routes base totalLayers maxTokens project state).1 := by
  simp only [generateCalls, generateTokens]
  cases accepted : checkGeneration base maxTokens project with
  | error err => exact ⟨[], by constructor <;> simp⟩
  | ok p =>
      obtain ⟨nonneg, -, isProjector, -⟩ := checkGeneration_eq_ok.mp accepted
      obtain ⟨legs, stop, run, produces, logs⟩ := decode_relay go s ctx routes base totalLayers p
        maxTokens.toNat 0 base.activation [] state
      have fewer : legs.length ≤ maxTokens.toNat := by
        simpa using run.stages_prefix.length_le
      refine ⟨legs.map (stepOf go s ctx routes base totalLayers), ?_⟩
      dsimp only
      constructor
      case calls_eq =>
        rw [logs, List.flatMap_map]
        rfl
      case checked => exact fun _ => ⟨p, isProjector, accepted⟩
      case bounded =>
        rw [List.length_map]
        omega
      case executed =>
        intro k step found
        obtain ⟨leg, here, rfl, rfl⟩ := step_at go s ctx routes base totalLayers run found
        obtain ⟨-, answered⟩ := run.each leg (List.mem_of_getElem? here)
        exact ⟨leg.token.2, rfl, congrArg Prod.fst answered⟩
      case first =>
        intro step found
        obtain ⟨leg, here, -, rfl⟩ := step_at go s ctx routes base totalLayers run found
        exact congrArg Prod.fst (run.head here)
      case handover =>
        intro k step later found foundLater
        obtain ⟨leg, here, -, rfl⟩ := step_at go s ctx routes base totalLayers run found
        obtain ⟨next, there, -, rfl⟩ := step_at go s ctx routes base totalLayers run foundLater
        obtain ⟨resp, tok, answered, -, handed⟩ :=
          (projected_eq_some go s ctx routes base totalLayers).mp (run.handover here there)
        exact ⟨resp, answered, congrArg Prod.fst handed⟩
      case success =>
        intro tokens succeeded
        rw [succeeded] at produces
        obtain ⟨through, produced, same, each⟩ := produces
        rw [List.nil_append] at same
        have all := congrArg List.length (run.finished_all through).1
        rw [List.length_map, List.length_range'] at all
        refine ⟨p, isProjector, ?_, ?_⟩
        · rw [List.length_map]
          omega
        · rw [List.forall₂_map_left_iff, same]
          exact each
      case halts =>
        intro k step found nothing
        obtain ⟨leg, here, -, rfl⟩ := step_at go s ctx routes base totalLayers run found
        have handsNothing : leg.handed (decodeRules go s ctx routes base totalLayers p) = none := by
          rw [Option.eq_none_iff_forall_ne_some]
          intro handed hands
          obtain ⟨resp, tok, answered, projected, -⟩ :=
            (projected_eq_some go s ctx routes base totalLayers).mp hands
          exact nothing p tok isProjector ⟨resp, answered, projected⟩
        obtain ⟨length, err, stops⟩ := run.stopped here handsNothing
        rw [List.length_map]
        refine ⟨length, ?_⟩
        cases result : (s.decode go ctx routes base totalLayers p maxTokens.toNat 0 base.activation []
            state).1 with
        | error err => exact ⟨err, rfl⟩
        | ok tokens =>
            rw [result] at produces
            exact absurd (produces.1.symm.trans stops) (by simp)

end Generate

/-! ### Prefixes and positions -/

section Prefix

variable {go : GoLib} {s : Simulator W} {ctx : Ctx} {routes : List Route} {base : ShardExecutionRequest}
  {totalLayers : Int} {project : TokenProjector}

/-- The loop succeeds exactly if its first step yields a token and the rest succeeds. -/
theorem decode_succ_eq_ok {remaining step : Nat} {activation : List Float32Bits} {out tokens : List Int}
    {state : W} :
    (s.decode go ctx routes base totalLayers project (remaining + 1) step activation out state).1 =
        .ok tokens ↔
      ctx.check step = .ok () ∧ ∃ resp after tok,
        s.execute go (ctx.call step) routes (stepRequest base step activation) totalLayers state =
          (.ok resp, after) ∧
        project resp.activation = .ok tok ∧
        (s.decode go ctx routes base totalLayers project remaining (step + 1) resp.activation
          (out ++ [tok]) after).1 = .ok tokens := by
  rw [decode, stepRequest]
  cases polled : ctx.check step with
  | error err => simp
  | ok u =>
      rcases executed : s.execute go (ctx.call step) routes
        { base with position := wrapInt (base.position + step), activation := activation } totalLayers
        state with ⟨err | resp, after⟩
      · simp [executed]
      · cases projected : project resp.activation with
        | error err => simp [executed, projected]
        | ok tok => simp [executed, projected]

/-- A loop that succeeds yields a token a step, and with fewer steps to go the first of these tokens. -/
theorem decode_take {remaining extra step : Nat} {activation : List Float32Bits} {out tokens : List Int}
    {state : W}
    (succeeded : (s.decode go ctx routes base totalLayers project (remaining + extra) step activation out
      state).1 = .ok tokens) :
    tokens.length = out.length + (remaining + extra) ∧
      (s.decode go ctx routes base totalLayers project remaining step activation out state).1 =
        .ok (tokens.take (out.length + remaining)) := by
  induction remaining generalizing step activation out state with
  | zero =>
      have produced : tokens.length = out.length + extra ∧ out <+: tokens := by
        rw [Nat.zero_add] at succeeded
        induction extra generalizing step activation out state with
        | zero =>
            cases succeeded
            exact ⟨rfl, List.prefix_refl _⟩
        | succ extra inductionHypothesis =>
            obtain ⟨-, resp, after, tok, -, -, rest⟩ := decode_succ_eq_ok.mp succeeded
            obtain ⟨length, starts⟩ := inductionHypothesis rest
            rw [List.length_append, List.length_singleton] at length
            exact ⟨by omega, (List.prefix_append out [tok]).trans starts⟩
      refine ⟨by rw [produced.1, Nat.zero_add], ?_⟩
      rw [Nat.add_zero, ← List.prefix_iff_eq_take.mp produced.2]
      rfl
  | succ remaining inductionHypothesis =>
      rw [Nat.add_right_comm] at succeeded
      obtain ⟨polled, resp, after, tok, executed, projected, rest⟩ := decode_succ_eq_ok.mp succeeded
      obtain ⟨length, shorter⟩ := inductionHypothesis rest
      rw [List.length_append, List.length_singleton] at length shorter
      refine ⟨by omega, decode_succ_eq_ok.mpr ⟨polled, resp, after, tok, executed, projected, ?_⟩⟩
      rw [shorter, Nat.add_assoc, Nat.add_comm 1 remaining]

end Prefix

/-- The position check is that of the exact last position. -/
theorem position_check {position maxTokens : Int} (count : IsInt maxTokens) :
    (0 < maxTokens → position ≤ wrapInt (maxInt - wrapInt (maxTokens - 1))) ↔
      (0 < maxTokens → position + (maxTokens - 1) ≤ maxInt) := by
  obtain ⟨-, fewer⟩ := count
  have := maxInt_lit
  have := minInt_lit
  apply imp_congr_right
  intro positive
  have before : wrapInt (maxTokens - 1) = maxTokens - 1 := wrapInt_eq (by omega) (by omega)
  have last : wrapInt (maxInt - (maxTokens - 1)) = maxInt - (maxTokens - 1) :=
    wrapInt_eq (by omega) (by omega)
  rw [before, last]
  omega

/-- Arguments that are accepted are accepted with a smaller count. -/
theorem checkGeneration_fewer {base : ShardExecutionRequest} {m : Int} {n : Nat}
    {project : Option TokenProjector} {p : TokenProjector} (count : IsInt m) (fewer : (n : Int) ≤ m)
    (accepted : checkGeneration base m project = .ok p) : checkGeneration base n project = .ok p := by
  obtain ⟨-, fits, isProjector, shape⟩ := checkGeneration_eq_ok.mp accepted
  rw [position_check count] at fits
  have := minInt_lit
  have smaller : IsInt n := ⟨by omega, le_trans fewer count.2⟩
  refine checkGeneration_eq_ok.mpr ⟨by omega, ?_, isProjector, shape⟩
  rw [position_check smaller]
  intro positive
  have last := fits (by omega)
  omega

/-- The arguments `GenerateTokens` accepts leave room for the position of every step. -/
theorem stepRequest_position {base : ShardExecutionRequest} {maxTokens : Int}
    {project : Option TokenProjector} {p : TokenProjector} (position : IsInt base.position)
    (count : IsInt maxTokens) (accepted : checkGeneration base maxTokens project = .ok p) {k : Nat}
    (asked : (k : Int) < maxTokens) (activation : List Float32Bits) :
    (stepRequest base k activation).position = base.position + k ∧ base.position + k ≤ maxInt := by
  obtain ⟨-, fits, -⟩ := checkGeneration_eq_ok.mp accepted
  have room := (position_check count).mp fits (by omega)
  obtain ⟨above, -⟩ := position
  exact ⟨wrapInt_eq (by omega) (by omega), by omega⟩

/-- What a generation owes to its shorter ones and to the positions of its steps. -/
structure PrefixStable (go : GoLib) (s : Simulator W) (ctx : Ctx) (routes : List Route)
    (base : ShardExecutionRequest) (totalLayers m : Int) (project : Option TokenProjector) (state : W)
    (steps : List DecodeStep) : Prop where
  decoded : Decoded go s ctx routes base totalLayers m project steps
    (s.generateCalls go ctx routes base totalLayers m project state)
    (s.generateTokens go ctx routes base totalLayers m project state).1
  /-- A success has as many tokens as asked for, and asking for fewer yields the first of them. -/
  stable : ∀ tokens, (s.generateTokens go ctx routes base totalLayers m project state).1 = .ok tokens →
    (tokens.length : Int) = m ∧ ∀ n : Nat, (n : Int) ≤ m →
      (s.generateTokens go ctx routes base totalLayers n project state).1 = .ok (tokens.take n)
  /-- Every call of step `k` has the exact position `k` after the base. -/
  positions : ∀ (k : Nat) step call, steps[k]? = some step → call ∈ step.calls →
    call.request.position = base.position + k ∧ 0 ≤ base.position + k ∧ base.position + k ≤ maxInt
  /-- The first call of a step carries what the last call of the step before answered. -/
  carried : ∀ (k : Nat) step later, steps[k]? = some step → steps[k + 1]? = some later →
    ∃ call resp, step.calls.getLast? = some call ∧ call.answer = .ok resp ∧
      later.activation = resp.activation ∧
      ∀ next, later.calls[0]? = some next → next.request.activation = resp.activation
  /-- Where a step yields no token, there are none at all. -/
  failed : ∀ (k : Nat) step, steps[k]? = some step →
    (∀ p tok, project = some p → ¬ Projects p step.result tok) →
    ∃ err, (s.generateTokens go ctx routes base totalLayers m project state).1 = .error err

namespace Decoded

variable {go : GoLib} {s : Simulator W} {ctx : Ctx} {routes : List Route} {base : ShardExecutionRequest}
  {totalLayers maxTokens : Int} {project : Option TokenProjector} {steps : List DecodeStep}
  {calls : List WorkerCall} {result : Except GoError (List Int)} {k : Nat} {step : DecodeStep}

/-- A step is made only of accepted arguments, and at most as often as asked. -/
theorem asked
    (decoded : Decoded go s ctx routes base totalLayers maxTokens project steps calls result)
    (found : steps[k]? = some step) :
    (k : Int) < maxTokens ∧ ∃ p, checkGeneration base maxTokens project = .ok p := by
  have inside := (List.getElem?_eq_some_iff.mp found).1
  have bounded := decoded.bounded
  obtain ⟨p, -, accepted⟩ := decoded.checked (List.ne_nil_of_length_pos (by omega))
  exact ⟨by omega, p, accepted⟩

/-- A step keeps the chain of custody. -/
theorem custody
    (decoded : Decoded go s ctx routes base totalLayers maxTokens project steps calls result)
    (found : steps[k]? = some step) :
    Custody go s (ctx.call k) routes (stepRequest base k step.activation) totalLayers step.calls
      step.result := by
  obtain ⟨state, sameCalls, sameResult⟩ := decoded.executed k step found
  rw [sameCalls, sameResult]
  exact (execute_relay go s (ctx.call k) routes _ totalLayers state).custody

theorem position
    (decoded : Decoded go s ctx routes base totalLayers maxTokens project steps calls result)
    (start : IsInt base.position) (count : IsInt maxTokens) (found : steps[k]? = some step) :
    (stepRequest base k step.activation).position = base.position + k ∧ base.position + k ≤ maxInt := by
  obtain ⟨asked, p, accepted⟩ := decoded.asked found
  exact stepRequest_position start count accepted asked step.activation

end Decoded

/-- A generation is stable under asking for fewer tokens, its positions are exact and never wrap, each
step starts from where the one before it ended, and one failing step leaves no token. -/
theorem generation_prefix_stable (go : GoLib) (s : Simulator W) (ctx : Ctx) (routes : List Route)
    (base : ShardExecutionRequest) (totalLayers m : Int) (project : Option TokenProjector) (state : W)
    (position : IsInt base.position) (count : IsInt m) :
    ∃ steps, PrefixStable go s ctx routes base totalLayers m project state steps := by
  obtain ⟨steps, decoded⟩ := generateTokens_decoded go s ctx routes base totalLayers m project state
  refine ⟨steps, decoded, ?_, ?_, ?_, ?_⟩
  · intro tokens succeeded
    obtain ⟨p, rfl, all, each⟩ := decoded.success tokens succeeded
    refine ⟨by rw [← each.length_eq, all], ?_⟩
    intro n fewer
    rw [generateTokens] at succeeded ⊢
    cases accepted : checkGeneration base m (some p) with
    | error err =>
        rw [accepted] at succeeded
        cases succeeded
    | ok q =>
        rw [accepted] at succeeded
        rw [checkGeneration_fewer count fewer accepted]
        obtain ⟨extra, more⟩ := Nat.exists_eq_add_of_le (by omega : n ≤ m.toNat)
        rw [more] at succeeded
        have taken := (decode_take succeeded).2
        rwa [List.length_nil, Nat.zero_add] at taken
  · intro k step call found member
    obtain ⟨exact_position, below⟩ := decoded.position position count found
    obtain ⟨j, here⟩ := List.mem_iff_getElem?.mp member
    obtain ⟨route, -, -, -, request, valid⟩ := (decoded.custody found).kth j call here
    have same : call.request.position = base.position + k := by
      rw [request]
      exact exact_position
    obtain ⟨-, -, -, -, activation⟩ := ShardExecutionRequest.validate_eq_ok.mp valid
    obtain ⟨nonneg, -⟩ := validateActivation_eq_ok.mp activation
    exact ⟨same, same ▸ nonneg, below⟩
  · intro k step later found foundLater
    obtain ⟨resp, answered, carries⟩ := decoded.handover k step later found foundLater
    obtain ⟨-, route, call, -, last, ended, -⟩ := (decoded.custody found).success resp answered
    refine ⟨call, resp, last, ended, carries, ?_⟩
    intro next there
    rw [(decoded.custody foundLater).first next there]
    exact carries
  · intro k step found nothing
    exact (decoded.halts k step found nothing).2

/-- A projector that counts the values. -/
def countingProjector : TokenProjector := fun activation => .ok activation.length

/-- Two tokens from one worker, from the last positions there are. -/
theorem generation_prefix_stable_last_positions :
    (singleWorker.generateTokens .plain .background [firstLayerRoute]
        { singleRequest with position := maxInt - 1 } 1 2 (some countingProjector) ()).1 = .ok [1, 1] ∧
      ∃ steps, PrefixStable .plain singleWorker .background [firstLayerRoute]
        { singleRequest with position := maxInt - 1 } 1 2 (some countingProjector) () steps :=
  ⟨by decide +kernel, generation_prefix_stable .plain singleWorker .background [firstLayerRoute]
    { singleRequest with position := maxInt - 1 } 1 2 (some countingProjector) () (by decide) (by decide)⟩

/-! ### Responses of the same generation -/

/-- The response echoes the metadata of the request and names the peer. -/
structure Echoes (req : ShardExecutionRequest) (peerID : String) (resp : ShardExecutionResponse) :
    Prop where
  session : resp.sessionID = req.sessionID
  request : resp.requestID = req.requestID
  position : resp.position = req.position
  hiddenSize : resp.hiddenSize = req.hiddenSize
  peer : resp.peerID = peerID

/-- An honest answer for every call of a generation, by step and route. -/
def HonestAnswers (base : ShardExecutionRequest) (maxTokens : Int) (routes : List Route)
    (honest : Nat → Nat → ShardExecutionResponse) : Prop :=
  ∀ (i j : Nat) route, (i : Int) < maxTokens → routes[j]? = some route →
    Echoes (stepRequest base i base.activation) route.peer.id (honest i j)

/-- No honest answer passes for that of another call of the same generation. -/
structure Unmixed (go : GoLib) (s : Simulator W) (ctx : Ctx) (routes : List Route)
    (base : ShardExecutionRequest) (totalLayers maxTokens : Int) (project : Option TokenProjector)
    (state : W) (honest : Nat → Nat → ShardExecutionResponse) (steps : List DecodeStep) : Prop where
  decoded : Decoded go s ctx routes base totalLayers maxTokens project steps
    (s.generateCalls go ctx routes base totalLayers maxTokens project state)
    (s.generateTokens go ctx routes base totalLayers maxTokens project state).1
  /-- The answer of another call ends the step at this call, and the generation without tokens. -/
  refused : ∀ (i j i' j' : Nat) step call, steps[i]? = some step → step.calls[j]? = some call →
    (i' : Int) < maxTokens → j' < routes.length → ¬ (i' = i ∧ j' = j) → call.answer = .ok (honest i' j') →
    (step.calls.length = j + 1 ∧ ∃ err, step.result = .error err) ∧
      steps.length = i + 1 ∧
      ∃ err, (s.generateTokens go ctx routes base totalLayers maxTokens project state).1 = .error err
  /-- A step that ends with a response made one call a route, each handing its activation to the next. -/
  chain : ∀ (i : Nat) step resp, steps[i]? = some step → step.result = .ok resp →
    step.calls.length = routes.length ∧
      (∃ call, step.calls.getLast? = some call ∧ call.answer = .ok resp) ∧
      (∀ call, step.calls[0]? = some call → call.request.activation = step.activation) ∧
      (∀ (j : Nat) call later, step.calls[j]? = some call → step.calls[j + 1]? = some later →
        ∃ between, call.answer = .ok between ∧ later.request.activation = between.activation) ∧
      ∀ (j : Nat) call, step.calls[j]? = some call → ∃ route, routes[j]? = some route ∧
        call.peerID = route.peer.id ∧
        call.request = routeRequest (stepRequest base i step.activation) route call.request.activation ∧
        ∀ i' j' : Nat, (i' : Int) < maxTokens → j' < routes.length → call.answer = .ok (honest i' j') →
          i' = i ∧ j' = j

/-- Routes with distinct peers and positions that do not wrap tell the calls of a generation apart. -/
theorem honest_accepted {base : ShardExecutionRequest} {maxTokens : Int} {routes : List Route}
    {honest : Nat → Nat → ShardExecutionResponse} (answers : HonestAnswers base maxTokens routes honest)
    (distinct : (routes.map fun route => route.peer.id).Nodup)
    (exact_positions : ∀ k : Nat, (k : Int) < maxTokens →
      (stepRequest base k base.activation).position = base.position + k)
    {i j i' j' : Nat} {call : WorkerCall} {route : Route} {activation : List Float32Bits}
    (asked : (i : Int) < maxTokens) (routed : routes[j]? = some route)
    (request : call.request = routeRequest (stepRequest base i activation) route call.request.activation)
    (step_inside : (i' : Int) < maxTokens) (route_inside : j' < routes.length)
    (answered : call.answer = .ok (honest i' j')) (accepted : Accepts j route call) : i' = i ∧ j' = j := by
  obtain ⟨resp, alsoAnswered, checked⟩ := accepted
  have same : resp = honest i' j' := Except.ok.inj (alsoAnswered.symm.trans answered)
  rw [same] at checked
  obtain ⟨-, peer, -, -, position, -⟩ := checkResponse_eq_ok.mp checked
  have echoes := answers i' j' routes[j'] step_inside (List.getElem?_eq_getElem route_inside)
  constructor
  · have sent : call.request.position = base.position + i := by
      rw [request]
      exact exact_positions i asked
    have echoed : (honest i' j').position = base.position + i' :=
      echoes.position.trans (exact_positions i' step_inside)
    omega
  · have samePeer : routes[j'].peer.id = route.peer.id := echoes.peer.symm.trans peer
    have inside : j' < (routes.map fun route => route.peer.id).length := by
      rwa [List.length_map]
    refine (List.getElem?_inj inside distinct).mp ?_
    rw [List.getElem?_map, List.getElem?_map, routed, List.getElem?_eq_getElem route_inside]
    exact congrArg some samePeer

/-- On built routes, a response that belongs to another call of the generation, as every earlier,
duplicated or reordered one does, ends the generation without tokens; what reaches the projector is the
end of the chain of calls of its own step, one a route. -/
theorem generation_unmixed (go : GoLib) (s : Simulator W) (planCtx ctx : Ctx) (peers : List Peer)
    (shards : List Shard) (plannedLayers : Int) (routes : List Route)
    (built : buildRoutes go planCtx peers shards plannedLayers = .ok routes)
    (base : ShardExecutionRequest) (totalLayers maxTokens : Int) (project : Option TokenProjector)
    (state : W) (position : IsInt base.position) (count : IsInt maxTokens)
    (honest : Nat → Nat → ShardExecutionResponse) (answers : HonestAnswers base maxTokens routes honest) :
    ∃ steps, Unmixed go s ctx routes base totalLayers maxTokens project state honest steps := by
  have plan := (buildRoutes_eq_ok.mp built).2
  have distinct : (routes.map fun route => route.peer.id).Nodup := by
    rw [plan.peer_ids]
    exact plan.partition.ids_distinct
  have inOrder : orderedRoutes go routes = routes :=
    plan.sorted (List.Perm.refl routes)
  obtain ⟨steps, decoded⟩ := generateTokens_decoded go s ctx routes base totalLayers maxTokens project state
  -- an accepted answer of the generation is that of the call it was accepted for
  have own : ∀ {i j i' j' : Nat} {step call route}, steps[i]? = some step → step.calls[j]? = some call →
      routes[j]? = some route → Accepts j route call → (i' : Int) < maxTokens → j' < routes.length →
      call.answer = .ok (honest i' j') → i' = i ∧ j' = j := by
    intro i j i' j' step call route found called routed accepted step_inside route_inside answered
    obtain ⟨other, there, -, -, request, -⟩ := (decoded.custody found).kth j call called
    rw [inOrder] at there
    have same : other = route := Option.some.inj (there.symm.trans routed)
    rw [same] at request
    obtain ⟨asked, p, checked⟩ := decoded.asked found
    exact honest_accepted answers distinct
      (fun k inside => (stepRequest_position position count checked inside base.activation).1)
      asked routed request step_inside route_inside answered accepted
  refine ⟨steps, decoded, ?_, ?_⟩
  · intro i j i' j' step call found called step_inside route_inside other answered
    have custody := decoded.custody found
    obtain ⟨route, there, -⟩ := custody.kth j call called
    have routed : routes[j]? = some route := by rwa [inOrder] at there
    have rejected : ¬ Accepts j route call := fun accepted =>
      other (own found called routed accepted step_inside route_inside answered)
    obtain ⟨last, err, failed⟩ := custody.halts j call route called there rejected
    refine ⟨⟨last, err, failed⟩, decoded.halts i step found ?_⟩
    rintro p tok - ⟨resp, succeeded, -⟩
    rw [failed] at succeeded
    cases succeeded
  · intro i step resp found succeeded
    have custody := decoded.custody found
    obtain ⟨length, -, call, -, last, ended, -⟩ := custody.success resp succeeded
    refine ⟨length, ⟨call, last, ended⟩, custody.first, custody.handover, ?_⟩
    intro j call called
    obtain ⟨route, there, peer, -, request, -⟩ := custody.kth j call called
    have routed : routes[j]? = some route := by rwa [inOrder] at there
    refine ⟨route, routed, peer, request, ?_⟩
    intro i' j' step_inside route_inside answered
    have accepted := custody.accepts succeeded called there
    exact own found called routed accepted step_inside route_inside answered

/-- Two workers, of which the second always answers for position 0. -/
def replayingWorkers : Simulator Unit :=
  ⟨(AList.insert "a" (fun _ req state => (.ok ⟨req.sessionID, req.requestID, "a", req.position,
      req.hiddenSize, req.activation⟩, state)) ∅).insert "b" (fun _ req state => (.ok ⟨req.sessionID,
      req.requestID, "b", 0, req.hiddenSize, req.activation⟩, state))⟩

/-- Two routes, to peers `a` and `b`. -/
def pairRoutes : List Route :=
  [firstLayerRoute, ⟨⟨"b", "http://h", "http", ⟨"b", .finite 1, ""⟩, 0⟩, ⟨"b", 1, 1⟩⟩]

/-- The second of two steps is answered with the last response of the first one. -/
theorem generation_unmixed_replay :
    (∃ err, (replayingWorkers.generateTokens .plain .background pairRoutes singleRequest 2 2
        (some countingProjector) ()).1 = .error err) ∧
      ∃ steps, Unmixed .plain replayingWorkers .background pairRoutes singleRequest 2 2
        (some countingProjector) ()
        (fun i j => ⟨"s", "r", if j = 0 then "a" else "b", i, 1, [0x3f800000]⟩) steps := by
  constructor
  · exact ⟨.errorf "route %d response metadata mismatch" [.int 1], by decide +kernel⟩
  · have built : buildRoutes .plain .background (pairRoutes.map Route.peer) (pairRoutes.map Route.shard) 2 =
        .ok pairRoutes := by
      decide +kernel
    refine generation_unmixed .plain replayingWorkers .background .background _ _ 2 pairRoutes built
      singleRequest 2 2 (some countingProjector) () (by decide) (by decide) _ ?_
    intro i j route inside routed
    have exact_position : (i : Int) = (stepRequest singleRequest i singleRequest.activation).position := by
      have := maxInt_lit
      have := minInt_lit
      simp only [stepRequest, singleRequest, Int.zero_add]
      rw [wrapInt_eq (by omega) (by omega)]
    match j, routed with
    | 0, routed =>
        cases routed
        exact ⟨rfl, rfl, exact_position, rfl, rfl⟩
    | 1, routed =>
        cases routed
        exact ⟨rfl, rfl, exact_position, rfl, rfl⟩

end GoExotic.Simulator
