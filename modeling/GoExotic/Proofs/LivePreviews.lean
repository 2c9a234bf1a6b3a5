/-
Module: GoExotic.Proofs.LivePreviews
Purpose: Route previews from a registry that others change at the same time. `PreviewFromRegistry` takes the
  registry's peers in one call and computes on what it took, so what it returns is the preview of the registry as
  the run has it at one moment of that call: a complete layout over the peers registered then, which sees every
  registration that had returned and none that had not begun.
Trusted boundary: none
Main exports: previewFromPeers, previewFromRegistry_taken, Progress, listed_at, live_previews_are_layouts
-/
import GoExotic.Proofs.Preview
import GoExotic.Proofs.RegistryCalls

namespace GoExotic

open Linearization Runs

/-! ### The part after the snapshot -/

/-- What `PreviewFromRegistry` makes of the peers it took. -/
def previewFromPeers (go : GoLib) (ctx : Ctx) (peers : List Peer) (modelID : String) (totalLayers : Int) :
    Except GoError RoutePreview := do
  failIf (peers.length = 0) (.errorf "no peers" [])
  let caps ← exportPeers go (ctx.call 1) 0 peers
  previewFromCapabilities go (ctx.call 2) caps modelID totalLayers

/-- `PreviewFromRegistry` polls its context, takes the peers, and goes on with these. -/
theorem previewFromRegistry_taken (go : GoLib) (ctx : Ctx) (r : Registry) (modelID : String) (totalLayers : Int) :
    previewFromRegistry go ctx (some r) modelID totalLayers =
      ctx.check 0 >>= fun _ => previewFromPeers go ctx (r.peers go) modelID totalLayers := rfl

/-! ### Registrations -/

namespace Registry

variable {go : GoLib}

/-- Of what a history registered without evicting anything, nothing is missing. -/
def NoneMissing (go : GoLib) (past : List Record) (r : Registry) : Prop :=
  r.WellFormed go ∧ ((∀ record ∈ past, ∀ id, ¬ Evicts id record) →
    ∀ id, (∃ record ∈ past, Registers id record) → (r.find id).isSome = true)

theorem NoneMissing.step {past : List Record} {r : Registry} (missing : NoneMissing go past r) (call : Call) :
    NoneMissing go (past ++ [(call, (serve go call r).1)]) (serve go call r).2 := by
  obtain ⟨wellFormed, registered⟩ := missing
  have done := serve_served wellFormed call
  refine ⟨done.keeps_wellFormed wellFormed, ?_⟩
  intro keeps id recorded
  cases done.effect wellFormed id with
  | registered peer now _ _ stored =>
      rw [stored]
      rfl
  | refreshed now old _ _ stored =>
      rw [stored]
      rfl
  | evicted evicts _ => exact absurd evicts (keeps _ (by simp) id)
  | untouched registersNot _ _ same =>
      rw [same]
      apply registered fun record inPast => keeps record (List.mem_append_left _ inPast)
      obtain ⟨record, member, registers⟩ := recorded
      rcases List.mem_append.mp member with inPast | isLast
      · exact ⟨record, inPast, registers⟩
      · rw [List.mem_singleton.mp isLast] at registers
        exact absurd registers registersNot

theorem noneMissing_after (go : GoLib) (calls : List Call) :
    NoneMissing go (historyOf go calls) (after go calls) :=
  history_invariant (fun _ _ call missing => missing.step call)
    (⟨WellFormed.new go, by simp⟩ : NoneMissing go [] .new) calls

/-- Only an eviction evicts. -/
theorem evicts_of_recorded {calls : List Call} {record : Record} (recorded : record ∈ historyOf go calls)
    {id : String} (evicts : Evicts id record) : ∃ maxAge now, .evictStale maxAge now ∈ calls := by
  obtain ⟨call, answer⟩ := record
  obtain ⟨earlier, later, split, answered⟩ := answered_of_mem_trace _ recorded
  obtain ⟨peers, isEvicted, -⟩ := evicts
  cases call with
  | upsert peer now => rw [answered] at isEvicted; cases isEvicted
  | heartbeat peerID now => rw [answered] at isEvicted; cases isEvicted
  | evictStale maxAge now => exact ⟨maxAge, now, by rw [split]; simp⟩

/-- A stored peer is what an `Upsert` gave, but for when it was seen. -/
theorem upsert_of_find {calls : List Call} {id : String} {p : Peer} (stored : (after go calls).find id = some p) :
    ∃ peer now, .upsert peer now ∈ calls ∧ peer.id = id ∧ p = { peer with lastSeen := p.lastSeen } := by
  obtain ⟨peer, now, since, registered, -, same⟩ := (accounted_after go calls).present id p stored
  obtain ⟨earlier, split⟩ := registered.split
  have recorded : upserted peer now ∈ historyOf go calls := by
    rw [split]
    simp
  have called : Call.upsert peer now ∈ (historyOf go calls).map Prod.fst := List.mem_map_of_mem recorded
  rw [historyOf, trace_calls] at called
  exact ⟨peer, now, called, registered.named, same⟩

end Registry

namespace RegistryCalls

variable {go : GoLib}

/-- An update of a serial use is in the history of its updates. -/
theorem update_recorded {calls : List (Nat × SerialCall)} {id : Nat} {call : Registry.Call}
    {answer : Registry.Answer} : ∀ {r : Registry},
      ((id, .update call), .updated answer) ∈ trace (serveAt (serveSerial go)) calls r →
        (call, answer) ∈ trace (Registry.serve go) (updates calls) r := by
  induction calls with
  | nil =>
      intro r served
      cases served
  | cons first rest inductionHypothesis =>
      intro r served
      obtain ⟨number, update | _⟩ := first
      · rcases List.mem_cons.mp served with isFirst | inRest
        · cases isFirst
          exact List.mem_cons_self
        · exact List.mem_cons_of_mem _ (inductionHypothesis inRest)
      · rcases List.mem_cons.mp served with isFirst | inRest
        · cases isFirst
        · exact inductionHypothesis inRest

/-- What an observer sees are the begins and returns of the run. -/
theorem invoke_mem_seen {steps : List Step} {call : Nat} {op : RegistryOp} :
    .invoke call op ∈ seen steps ↔ .enters call op ∈ steps := by
  rw [seen, List.mem_filterMap]
  constructor
  · rintro ⟨e, member, isEvent⟩
    cases e with
    | enters other op' =>
        cases isEvent
        exact member
    | tick | prepares | locks | returns => cases isEvent
  · exact fun member => ⟨_, member, rfl⟩

theorem respond_mem_seen {steps : List Step} {call : Nat} {answer : RegistryAnswer} :
    .respond call answer ∈ seen steps ↔ .returns call answer ∈ steps := by
  rw [seen, List.mem_filterMap]
  constructor
  · rintro ⟨e, member, isEvent⟩
    cases e with
    | returns other answer' =>
        cases isEvent
        exact member
    | tick | enters | prepares | locks => cases isEvent
  · exact fun member => ⟨_, member, rfl⟩

/-! ### The moment of a snapshot -/

/-- What the run says about how far its calls have come. -/
structure Progress (go : GoLib) (clock : Int) (steps : List Step) (s : RegistryCalls) : Prop where
  entered : ∀ call op, s.phase call = .entered op → .enters call op ∈ steps
  waiting : ∀ call op critical, s.phase call = .waiting op critical →
    .enters call op ∈ steps ∧ ∃ now, beforeLock go now op = .ok critical
  /-- A list was taken of the registry in the critical section of its call. -/
  listed : ∀ call peers, s.phase call = .answered (.listed peers) → ∃ before after op,
    Visits (RegistryCalls.step go) (start clock) steps before (.locks call) after ∧
      before.phase call = .waiting op .list ∧ peers = before.registry.peers go

theorem progress_start (go : GoLib) (clock : Int) : Progress go clock [] (start clock) := by
  constructor
  · intro call op isEntered
    cases isEntered
  · intro call op critical isWaiting
    cases isWaiting
  · intro call peers isAnswered
    cases isAnswered

/-- Only a list is answered with peers. -/
theorem updated_of_early {now : Int} {op : RegistryOp} {answer : RegistryAnswer}
    (early : beforeLock go now op = .error answer) : ∃ updated, answer = .updated updated := by
  cases op with
  | upsert peer =>
      rw [beforeLock] at early
      cases valid : peer.validate go with
      | error err =>
          rw [valid] at early
          cases early
          exact ⟨_, rfl⟩
      | ok u =>
          rw [valid] at early
          cases early
  | heartbeat peerID =>
      rw [beforeLock] at early
      split_ifs at early
      cases early
      exact ⟨_, rfl⟩
  | evictStale maxAge =>
      rw [beforeLock] at early
      split_ifs at early
      cases early
      exact ⟨_, rfl⟩
  | peers => cases early

/-- Only `Peers` takes a list. -/
theorem peers_of_list {now : Int} {op : RegistryOp} (ready : beforeLock go now op = .ok .list) : op = .peers := by
  cases op with
  | upsert peer =>
      rw [beforeLock] at ready
      cases valid : peer.validate go with
      | error err =>
          rw [valid] at ready
          cases ready
      | ok u =>
          rw [valid] at ready
          cases ready
  | heartbeat peerID =>
      rw [beforeLock] at ready
      split_ifs at ready
      cases ready
  | evictStale maxAge =>
      rw [beforeLock] at ready
      split_ifs at ready
      cases ready
  | peers => rfl

section OneStep

variable {clock : Int} {steps : List Step} {before after : RegistryCalls} {e : Step}

/-- What a call has done it has done after one more step. -/
theorem Progress.longer (progress : Progress go clock steps before) (e : Step) :
    Progress go clock (steps ++ [e]) before := by
  constructor
  · intro call op isEntered
    exact List.mem_append_left _ (progress.entered call op isEntered)
  · intro call op critical isWaiting
    obtain ⟨member, ready⟩ := progress.waiting call op critical isWaiting
    exact ⟨List.mem_append_left _ member, ready⟩
  · intro call peers isAnswered
    obtain ⟨atStep, left, op, visited, isWaiting, same⟩ := progress.listed call peers isAnswered
    exact ⟨atStep, left, op, visited.append_left [e], isWaiting, same⟩

/-- A call that moves to a phase the run can say something about, while the others stay. -/
theorem Progress.moved (progress : Progress go clock steps before) {call : Nat} {phase : CallPhase}
    {registry : Registry} (entered : ∀ op, phase = .entered op → .enters call op ∈ steps)
    (waiting : ∀ op critical, phase = .waiting op critical →
      .enters call op ∈ steps ∧ ∃ now, beforeLock go now op = .ok critical)
    (listed : ∀ peers, phase = .answered (.listed peers) → ∃ atStep left op,
      Visits (RegistryCalls.step go) (start clock) steps atStep (.locks call) left ∧
        atStep.phase call = .waiting op .list ∧ peers = atStep.registry.peers go) :
    Progress go clock steps { before.moved call phase with registry := registry } := by
  have cases_at : ∀ (other : Nat) (there : CallPhase), Function.update before.phase call phase other = there →
      (other = call ∧ phase = there) ∨ before.phase other = there := by
    intro other there isThere
    by_cases same : other = call
    · rw [same, Function.update_self] at isThere
      exact Or.inl ⟨same, isThere⟩
    · rw [Function.update_of_ne same] at isThere
      exact Or.inr isThere
  constructor
  · intro other op isEntered
    rcases cases_at other _ isEntered with ⟨rfl, isPhase⟩ | isPhase
    · exact entered op isPhase
    · exact progress.entered other op isPhase
  · intro other op critical isWaiting
    rcases cases_at other _ isWaiting with ⟨rfl, isPhase⟩ | isPhase
    · exact waiting op critical isPhase
    · exact progress.waiting other op critical isPhase
  · intro other peers isAnswered
    rcases cases_at other _ isAnswered with ⟨rfl, isPhase⟩ | isPhase
    · exact listed peers isPhase
    · exact progress.listed other peers isPhase

theorem Progress.step (progress : Progress go clock steps before)
    (reached : exec (RegistryCalls.step go) (start clock) steps = some before)
    (taken : RegistryCalls.step go before e = some after) : Progress go clock (steps ++ [e]) after := by
  have here : Visits (RegistryCalls.step go) (start clock) (steps ++ [e]) before e after :=
    Visits.append_singleton_iff.mpr (Or.inr ⟨rfl, reached, taken⟩)
  have longer := progress.longer e
  cases step_effect taken with
  | ticks forward => exact ⟨longer.entered, longer.waiting, longer.listed⟩
  | @enters call op idle =>
      refine longer.moved ?_ ?_ ?_
      · rintro _ ⟨⟩
        exact List.mem_append_right _ (List.mem_singleton_self _)
      · rintro _ _ ⟨⟩
      · rintro _ ⟨⟩
  | returnsEarly entered early =>
      obtain ⟨updated, rfl⟩ := updated_of_early early
      refine longer.moved ?_ ?_ ?_
      · rintro _ ⟨⟩
      · rintro _ _ ⟨⟩
      · rintro _ ⟨⟩
  | @prepares call op critical entered ready =>
      refine longer.moved ?_ ?_ ?_
      · rintro _ ⟨⟩
      · rintro _ _ ⟨⟩
        exact ⟨longer.entered call op entered, before.clock, ready⟩
      · rintro _ ⟨⟩
  | @locks call op critical waiting =>
      refine longer.moved ?_ ?_ ?_
      · rintro _ ⟨⟩
      · rintro _ _ ⟨⟩
      · intro peers isAnswer
        cases critical with
        | list =>
            cases isAnswer
            exact ⟨before, _, op, here, waiting, rfl⟩
        | store | refresh | evict => cases isAnswer
  | returns answered =>
      refine longer.moved ?_ ?_ ?_
      · rintro _ ⟨⟩
      · rintro _ _ ⟨⟩
      · rintro _ ⟨⟩

end OneStep

theorem progress_of_exec {clock : Int} {steps : List Step} {s : RegistryCalls}
    (ran : exec (RegistryCalls.step go) (start clock) steps = some s) : Progress go clock steps s := by
  refine exec_history ?_ ?_ ran
  · exact progress_start go clock
  · intro past before e after progress reached taken
    exact progress.step reached taken

/-- What a call of `Peers` returned are the peers of the registry at one moment of the run, between its begin and its
return. -/
theorem listed_at {clock : Int} {steps : List Step} {s : RegistryCalls}
    (ran : exec (RegistryCalls.step go) (start clock) steps = some s) {id : Nat} {peers : List Peer}
    (returned : .returns id (.listed peers) ∈ steps) :
    ∃ earlier later moment, steps = earlier ++ .locks id :: later ∧ .enters id .peers ∈ earlier ∧
      .returns id (.listed peers) ∈ later ∧ exec (RegistryCalls.step go) (start clock) earlier = some moment ∧
        peers = moment.registry.peers go := by
  obtain ⟨past, rest, rfl⟩ := List.mem_iff_append.mp returned
  obtain ⟨atReturn, reached, last⟩ := exec_append.mp ran
  obtain ⟨left, returns, -⟩ := exec_cons.mp last
  have answered : atReturn.phase id = .answered (.listed peers) := by
    cases step_effect returns with
    | returns answered => exact answered
  obtain ⟨moment, after, op, ⟨earlier, between, rfl, reachedMoment, -⟩, isWaiting, same⟩ :=
    (progress_of_exec reached).listed id peers answered
  obtain ⟨entered, now, ready⟩ := (progress_of_exec reachedMoment).waiting id op _ isWaiting
  rw [peers_of_list ready] at entered
  refine ⟨earlier, between ++ .returns id (.listed peers) :: rest, moment, ?_, entered, ?_, reachedMoment, same⟩
  · rw [List.append_assoc, List.cons_append]
  · exact List.mem_append_right _ List.mem_cons_self

/-! ### What the registry holds -/

section Held

variable {clock : Int} {steps : List Step} {s : RegistryCalls}

/-- The registry of a run is that of some updates, the ones that have taken effect. -/
theorem registry_of_run (ran : exec (RegistryCalls.step go) (start clock) steps = some s) :
    ∃ calls, s.registry = Registry.after go calls ∧
      (∀ call ∈ calls, ∃ other op now, .enters other op ∈ steps ∧ serialCall now op = .update call) ∧
      ∀ other op answer, .enters other op ∈ steps → .returns other (.updated answer) ∈ steps →
        ∃ call now, serialCall now op = .update call ∧ (call, answer) ∈ Registry.historyOf go calls := by
  obtain ⟨actions, phase, run, -, sameHistory, -⟩ := explained_of_exec ran
  have linearizes := run.linearizes
  have once := run.invoked_once.2
  rw [sameHistory] at linearizes once
  refine ⟨updates (order actions), run.object_eq.trans (final_updates _ _), ?_, ?_⟩
  · intro update member
    obtain ⟨⟨other, call⟩, inOrder, isUpdate⟩ := List.mem_filterMap.mp member
    obtain ⟨op, invoked, now, fits⟩ := linearizes.invoked other call inOrder
    have isCall : call = .update update := by
      cases call with
      | update given =>
          cases isUpdate
          rfl
      | peers => cases isUpdate
    exact ⟨other, op, now, invoke_mem_seen.mp invoked, fits.symm.trans isCall⟩
  · intro other op answer entered returned
    obtain ⟨call, served⟩ := linearizes.answers other _ (respond_mem_seen.mpr returned)
    have inOrder : (other, call) ∈ order actions := by
      have traced := trace_calls (serveAt (serveSerial go)) (order actions) .new
      rw [← traced]
      exact List.mem_map_of_mem served
    obtain ⟨op', invoked, now, fits⟩ := linearizes.invoked other call inOrder
    have sameOp := once other op' op invoked (invoke_mem_seen.mpr entered)
    subst sameOp
    cases call with
    | update call => exact ⟨call, now, fits.symm, update_recorded served⟩
    | peers =>
        obtain ⟨_, _, _, isListed⟩ := answered_of_mem_trace _ served
        cases isListed

/-- The registry of a run is well-formed. -/
theorem wellFormed_of_run (ran : exec (RegistryCalls.step go) (start clock) steps = some s) :
    s.registry.WellFormed go := by
  obtain ⟨calls, isRegistry, -⟩ := registry_of_run ran
  rw [isRegistry]
  exact (Registry.accounted_after go calls).wellFormed

/-- A peer whose registration has returned is stored, if no eviction has begun. -/
theorem find_of_returned (ran : exec (RegistryCalls.step go) (start clock) steps = some s)
    (quiet : ∀ other maxAge, .enters other (.evictStale maxAge) ∉ steps) {other : Nat} {peer : Peer}
    (entered : .enters other (.upsert peer) ∈ steps) (returned : .returns other (.updated (.done (.ok ()))) ∈ steps) :
    (s.registry.find peer.id).isSome = true := by
  obtain ⟨calls, isRegistry, begun, seen⟩ := registry_of_run ran
  obtain ⟨call, now, isCall, recorded⟩ := seen other _ _ entered returned
  cases isCall
  rw [isRegistry]
  apply (Registry.noneMissing_after go calls).2
  · intro record inHistory gone evicts
    obtain ⟨maxAge, later, called⟩ := Registry.evicts_of_recorded inHistory evicts
    obtain ⟨evictor, op, reading, entered, isEviction⟩ := begun _ called
    cases op with
    | evictStale _ =>
        cases isEviction
        exact quiet evictor maxAge entered
    | upsert | heartbeat | peers => cases isEviction
  · exact ⟨_, recorded, Registry.registers_upserted.mpr rfl⟩

/-- A stored peer is what an `Upsert` that has begun gave, but for when it was seen. -/
theorem entered_of_find (ran : exec (RegistryCalls.step go) (start clock) steps = some s) {id : String} {p : Peer}
    (stored : s.registry.find id = some p) :
    ∃ other peer, .enters other (.upsert peer) ∈ steps ∧ peer.id = id ∧ p = { peer with lastSeen := p.lastSeen } := by
  obtain ⟨calls, isRegistry, begun, -⟩ := registry_of_run ran
  rw [isRegistry] at stored
  obtain ⟨peer, now, called, named, same⟩ := Registry.upsert_of_find stored
  obtain ⟨other, op, reading, entered, isUpsert⟩ := begun _ called
  cases op with
  | upsert given =>
      cases isUpsert
      exact ⟨other, peer, entered, named, same⟩
  | heartbeat | evictStale | peers => cases isUpsert

end Held

end RegistryCalls

/-- A preview from a registry in use is a layout of one moment. In every interleaving of `Upsert`, `Heartbeat`,
`EvictStale` and `Peers` calls, take a `Peers` call that returned, as `PreviewFromRegistry` makes it, and a preview
that is computed from what it returned. There is a moment of the run between the begin and the return of that call
such that the preview is what `PreviewFromRegistry` computes of the registry as it is at that moment, and a complete
layout over its peers; a peer whose registration has returned by then is in it, if no eviction has begun; and every
entry has the address and transport of an `Upsert` of its peer that has begun by then. -/
theorem live_previews_are_layouts (go : GoLib) (clock : Int) (steps : List RegistryCalls.Step) (s : RegistryCalls)
    (ran : exec (RegistryCalls.step go) (RegistryCalls.start clock) steps = some s) (id : Nat) (peers : List Peer)
    (returned : .returns id (.listed peers) ∈ steps) (ctx : Ctx) (live : ctx.check 0 = .ok ()) (modelID : String)
    (totalLayers : Int) (preview : RoutePreview)
    (previewed : previewFromPeers go ctx peers modelID totalLayers = .ok preview) :
    ∃ earlier later moment, steps = earlier ++ .locks id :: later ∧ .enters id .peers ∈ earlier ∧
      .returns id (.listed peers) ∈ later ∧
      exec (RegistryCalls.step go) (RegistryCalls.start clock) earlier = some moment ∧
      previewFromRegistry go ctx (some moment.registry) modelID totalLayers = .ok preview ∧
      CompleteLayout go moment.registry totalLayers preview ∧
      ((∀ other maxAge, .enters other (.evictStale maxAge) ∉ earlier) → ∀ other peer,
        .enters other (.upsert peer) ∈ earlier → .returns other (.updated (.done (.ok ()))) ∈ earlier →
          peer.id ∈ preview.routes.map RouteEntry.peerID) ∧
      ∀ entry ∈ preview.routes, ∃ other peer, .enters other (.upsert peer) ∈ earlier ∧
        entry.peerID = peer.id ∧ entry.address = peer.address ∧ entry.transport = peer.transport := by
  obtain ⟨earlier, later, moment, split, entered, returns, reached, rfl⟩ := RegistryCalls.listed_at ran returned
  have whole : previewFromRegistry go ctx (some moment.registry) modelID totalLayers = .ok preview := by
    rw [previewFromRegistry_taken, live, ok_bind, previewed]
  simp only [previewFromPeers, bind_eq_ok, failIf_eq_ok, exists_const, exportPeers_eq_ok,
    previewFromCapabilities_eq_ok] at previewed
  obtain ⟨-, _, ⟨-, -, rfl⟩, shards, routes, -, made, rfl⟩ := previewed
  have layout := made.completeLayout (RegistryCalls.wellFormed_of_run reached) modelID
  refine ⟨earlier, later, moment, split, entered, returns, reached, whole, layout, ?_, ?_⟩
  · intro quiet other peer began done
    apply (layout.registered peer.id).mpr
    exact RegistryCalls.find_of_returned reached quiet began done
  · intro entry member
    obtain ⟨p, stored, sameAddress, sameTransport⟩ := layout.stored entry member
    obtain ⟨other, peer, began, named, same⟩ := RegistryCalls.entered_of_find reached stored
    refine ⟨other, peer, began, named.symm, ?_, ?_⟩
    · rw [sameAddress, same]
    · rw [sameTransport, same]

namespace RegistryCalls

/-- One peer is registered when a `Peers` call begins, and a second one while it waits for the lock. -/
def joinedDuringPeers : List Step :=
  [.enters 0 (.upsert (examplePeer "a" "a")), .prepares 0, .locks 0, .returns 0 (.updated (.done (.ok ()))),
    .enters 1 .peers, .enters 2 (.upsert (examplePeer "b" "b")), .prepares 1, .prepares 2, .locks 2, .locks 1,
    .returns 1 (.listed [examplePeer "a" "a", examplePeer "b" "b"])]

end RegistryCalls

/-- The preview has the peer that had joined, and here also the one that was joining. -/
theorem live_previews_are_layouts_joining :
    ∃ earlier later moment, RegistryCalls.joinedDuringPeers = earlier ++ .locks 1 :: later ∧
      exec (RegistryCalls.step .plain) (RegistryCalls.start 0) earlier = some moment ∧
      CompleteLayout .plain moment.registry 2
        ⟨"m", 2, [⟨"a", "http://h", "http", ⟨"a", 0, 0⟩⟩, ⟨"b", "http://h", "http", ⟨"b", 1, 1⟩⟩]⟩ := by
  have ran : ∃ s, exec (RegistryCalls.step .plain) (RegistryCalls.start 0) RegistryCalls.joinedDuringPeers =
      some s := ⟨_, rfl⟩
  obtain ⟨s, ran⟩ := ran
  obtain ⟨earlier, later, moment, split, -, -, reached, -, layout, -⟩ := live_previews_are_layouts .plain 0 _ s ran 1
    [examplePeer "a" "a", examplePeer "b" "b"] (by decide) .background rfl "m" 2
    ⟨"m", 2, [⟨"a", "http://h", "http", ⟨"a", 0, 0⟩⟩, ⟨"b", "http://h", "http", ⟨"b", 1, 1⟩⟩]⟩ (by decide +kernel)
  exact ⟨earlier, later, moment, split, reached, layout⟩

end GoExotic
