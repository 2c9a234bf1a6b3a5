/-
Module: GoExotic.Proofs.Cancellation
Purpose: A context can only stop a call. Planning under a context that may be cancelled returns what it returns
  under a context that outlives it, or an error that wraps the context's own; the route preview of a server so
  answers the same or a bad request with that error.
Trusted boundary: none
Main exports: GoError.Is, Ctx.Outlives, Ctx.Caused, buildRoutes_cut, previewFromCapabilities_cut,
  previewFromRegistry_cut, cancelled_preview
-/
import GoExotic.Model.PlanningServer
import GoExotic.Theory.Stopping

namespace GoExotic

open Stopping

variable {W : Type}

/-! ### Contexts -/

/-- `errors.Is`. -/
def GoError.Is : GoError → GoError → Prop
  | .wrapf format args cause, target => .wrapf format args cause = target ∨ cause.Is target
  | err, target => err = target

theorem GoError.Is.refl (err : GoError) : err.Is err := by
  cases err with
  | wrapf format args cause => exact Or.inl rfl
  | errorf | canceled | deadlineExceeded | library => rfl

namespace Ctx

/-- The context is cancelled, if at all, at polls where the other one is, and for the same reason. -/
def Outlives (longer ctx : Ctx) : Prop := ∀ path, longer path = none ∨ longer path = ctx path

/-- The error wraps an answer of the context. -/
def Caused (ctx : Ctx) (err : GoError) : Prop := ∃ path cause, ctx path = some cause ∧ err.Is cause

theorem background_outlives (ctx : Ctx) : background.Outlives ctx := fun _ => Or.inl rfl

variable {ctx longer : Ctx} {err : GoError}

theorem Outlives.call (outlives : longer.Outlives ctx) (site : Nat) :
    (longer.call site).Outlives (ctx.call site) :=
  fun path => outlives (site :: path)

/-- What stops a callee stops the call. -/
theorem caused_of_call {site : Nat} (err : GoError) (caused : (ctx.call site).Caused err) : ctx.Caused err := by
  obtain ⟨path, cause, answered, wraps⟩ := caused
  exact ⟨site :: path, cause, answered, wraps⟩

theorem Caused.wrap (caused : ctx.Caused err) (format : String) (args : List FmtArg) :
    ctx.Caused (.wrapf format args err) := by
  obtain ⟨path, cause, answered, wraps⟩ := caused
  exact ⟨path, cause, answered, Or.inr wraps⟩

/-- At a poll the longer context answers the same, or only the shorter one stops. -/
theorem Outlives.check (outlives : longer.Outlives ctx) (poll : Nat) :
    longer.check poll = ctx.check poll ∨
      longer.check poll = .ok () ∧ ∃ err, ctx.check poll = .error err ∧ ctx.Caused err := by
  rcases outlives [poll] with live | same
  · cases answered : ctx [poll] with
    | none =>
        left
        rw [Ctx.check, Ctx.check, live, answered]
    | some err =>
        right
        refine ⟨by rw [Ctx.check, live], err, by rw [Ctx.check, answered], [poll], err, answered, ?_⟩
        exact GoError.Is.refl err
  · left
    rw [Ctx.check, Ctx.check, same]

theorem Outlives.check_cut (outlives : longer.Outlives ctx) (poll : Nat) :
    Cut ctx.Caused (ctx.check poll) (longer.check poll) := by
  rcases outlives.check poll with same | ⟨-, err, stops, caused⟩
  · rw [same]
    exact .same _
  · rw [stops]
    exact .stopped caused

end Ctx

/-! ### Planning -/

section Planning

variable {go : GoLib} {ctx longer : Ctx} (outlives : longer.Outlives ctx)

include outlives

theorem indexPeers_cut (peers : List Peer) : ∀ (i : Nat) (index : GoMap Peer),
    Cut ctx.Caused (indexPeers go ctx i index peers) (indexPeers go longer i index peers) := by
  induction peers with
  | nil =>
      intro i index
      exact .same _
  | cons peer rest inductionHypothesis =>
      intro i index
      rw [indexPeers, indexPeers]
      apply (outlives.check_cut i).bind
      intro _
      apply (Cut.same _).bind
      intro _
      apply (Cut.same _).bind
      intro _
      exact inductionHypothesis (i + 1) _

theorem routeShards_cut (index : GoMap Peer) (shards : List Shard) : ∀ i : Nat,
    Cut ctx.Caused (routeShards ctx index i shards) (routeShards longer index i shards) := by
  induction shards with
  | nil =>
      intro i
      exact .same _
  | cons shard rest inductionHypothesis =>
      intro i
      rw [routeShards, routeShards]
      apply (outlives.check_cut i).bind
      intro _
      cases index.lookup shard.deviceID with
      | none => exact .same _
      | some peer =>
          apply (inductionHypothesis (i + 1)).bind
          intro _
          exact .same _

theorem buildRoutes_cut (peers : List Peer) (shards : List Shard) (totalLayers : Int) :
    Cut ctx.Caused (buildRoutes go ctx peers shards totalLayers)
      (buildRoutes go longer peers shards totalLayers) := by
  rw [buildRoutes, buildRoutes]
  apply (outlives.check_cut 0).bind
  intro _
  apply (Cut.same _).bind
  intro _
  apply (Cut.same _).bind
  intro _
  apply ((indexPeers_cut (outlives.call 1) peers 0 ∅).mono Ctx.caused_of_call).bind
  intro index
  apply (Cut.same _).bind
  intro _
  apply ((routeShards_cut (outlives.call 2) index shards 0).mono Ctx.caused_of_call).bind
  intro _
  exact .same _

theorem importPeers_cut (caps : List Capability) : ∀ i : Nat,
    Cut ctx.Caused (importPeers go ctx i caps) (importPeers go longer i caps) := by
  induction caps with
  | nil =>
      intro i
      exact .same _
  | cons cap rest inductionHypothesis =>
      intro i
      rw [importPeers, importPeers]
      apply (outlives.check_cut i).bind
      intro _
      apply (Cut.same _).bind
      intro _
      apply (inductionHypothesis (i + 1)).bind
      intro _
      exact .same _

theorem exportPeers_cut (peers : List Peer) : ∀ i : Nat,
    Cut ctx.Caused (exportPeers go ctx i peers) (exportPeers go longer i peers) := by
  induction peers with
  | nil =>
      intro i
      exact .same _
  | cons peer rest inductionHypothesis =>
      intro i
      rw [exportPeers, exportPeers]
      apply (outlives.check_cut i).bind
      intro _
      apply (Cut.same _).bind
      intro _
      apply (inductionHypothesis (i + 1)).bind
      intro _
      exact .same _

theorem buildRoutesFromCapabilities_cut (caps : List Capability) (shards : List Shard) (totalLayers : Int) :
    Cut ctx.Caused (buildRoutesFromCapabilities go ctx caps shards totalLayers)
      (buildRoutesFromCapabilities go longer caps shards totalLayers) := by
  rw [buildRoutesFromCapabilities, buildRoutesFromCapabilities]
  apply (outlives.check_cut 0).bind
  intro _
  apply ((importPeers_cut (outlives.call 1) caps 0).mono Ctx.caused_of_call).bind
  intro peers
  exact (buildRoutes_cut (outlives.call 2) peers shards totalLayers).mono Ctx.caused_of_call

theorem previewFromCapabilities_cut (caps : List Capability) (modelID : String) (totalLayers : Int) :
    Cut ctx.Caused (previewFromCapabilities go ctx caps modelID totalLayers)
      (previewFromCapabilities go longer caps modelID totalLayers) := by
  rw [previewFromCapabilities, previewFromCapabilities]
  apply (outlives.check_cut 0).bind
  intro _
  apply (Cut.same _).bind
  intro plan
  apply ((buildRoutesFromCapabilities_cut (outlives.call 1) caps plan.shards totalLayers).mono
    Ctx.caused_of_call).bind
  intro _
  exact .same _

theorem previewFromRegistry_cut (registry : Option Registry) (modelID : String) (totalLayers : Int) :
    Cut ctx.Caused (previewFromRegistry go ctx registry modelID totalLayers)
      (previewFromRegistry go longer registry modelID totalLayers) := by
  rw [previewFromRegistry.eq_def, previewFromRegistry.eq_def]
  apply (outlives.check_cut 0).bind
  intro _
  cases registry with
  | none => exact .same _
  | some r =>
      apply (Cut.same _).bind
      intro _
      apply ((exportPeers_cut (outlives.call 1) (r.peers go) 0).mono Ctx.caused_of_call).bind
      intro caps
      exact (previewFromCapabilities_cut (outlives.call 2) caps modelID totalLayers).mono Ctx.caused_of_call

end Planning

/-- A cancelled preview is the preview or the cancellation. Whatever the server was built from, its answer to a
request for the route preview whose context another one outlives is the answer under that other context, or a bad
request with an error that wraps the context's own. -/
theorem cancelled_preview (go : GoLib) (wire : WireLib) (lib : PreviewLib) (s : PlanningServer W)
    (ctx longer : Ctx) (outlives : longer.Outlives ctx) (r : HttpRequest) :
    s.handleRoutesPreview go wire lib ctx r = s.handleRoutesPreview go wire lib longer r ∨
      ∃ err, ctx.Caused err ∧
        s.handleRoutesPreview go wire lib ctx r = writeError wire 400 [] (wire.errorText err) := by
  rw [PlanningServer.handleRoutesPreview, PlanningServer.handleRoutesPreview]
  by_cases method : r.method ≠ "GET"
  · rw [if_pos method, if_pos method]
    exact Or.inl rfl
  · rw [if_neg method, if_neg method]
    cases positiveIntQuery lib r "layers" with
    | error err => exact Or.inl rfl
    | ok layers =>
        dsimp only
        cases s.registry with
        | some registry =>
            rcases (previewFromRegistry_cut outlives (some registry) (lib.queryGet r.url "model") layers).eq_or
              with same | ⟨err, stopped, caused⟩
            · dsimp only
              rw [same]
              exact Or.inl rfl
            · dsimp only
              rw [stopped]
              exact Or.inr ⟨err, caused, rfl⟩
        | none =>
            rcases (previewFromCapabilities_cut outlives s.capabilitiesCopy (lib.queryGet r.url "model")
              layers).eq_or with same | ⟨err, stopped, caused⟩
            · dsimp only
              rw [same]
              exact Or.inl rfl
            · dsimp only
              rw [stopped]
              exact Or.inr ⟨err, caused, rfl⟩

/-- A server that plans for two peers. -/
def twoPeerServer : PlanningServer Unit :=
  newPlanningServer [⟨"p", ⟨"p", .finite 1, ""⟩, AList.insert "address" "http://h" ∅⟩,
    ⟨"q", ⟨"q", .finite 1, ""⟩, AList.insert "address" "http://i" ∅⟩] []

/-- A request for the routes of two layers. -/
def routesRequest : HttpRequest := ⟨"GET", ⟨"http", "h", "/routes/preview", "layers=2"⟩, [], []⟩

/-- A context that is cancelled when `BuildRoutes` has looked up the peer of the first shard. -/
def cancelledAtSecondShard : Ctx := fun path => if path = [1, 2, 2, 1] then some .canceled else none

/-- A request that is cancelled between two shards of its plan is a bad request, and would have been answered. -/
theorem cancelled_preview_halfway :
    (twoPeerServer.handleRoutesPreview .plain .plain .plain .background routesRequest).status = 200 ∧
      ∃ err, cancelledAtSecondShard.Caused err ∧
        twoPeerServer.handleRoutesPreview .plain .plain .plain cancelledAtSecondShard routesRequest =
          writeError .plain 400 [] (WireLib.plain.errorText err) := by
  have answered : (twoPeerServer.handleRoutesPreview .plain .plain .plain .background routesRequest).status = 200 := by
    decide +kernel
  have refused :
      (twoPeerServer.handleRoutesPreview .plain .plain .plain cancelledAtSecondShard routesRequest).status = 400 := by
    decide +kernel
  refine ⟨answered, ?_⟩
  rcases cancelled_preview .plain .plain .plain twoPeerServer cancelledAtSecondShard .background
    (Ctx.background_outlives _) routesRequest with same | cut
  · rw [same, answered] at refused
    exact absurd refused (by decide)
  · exact cut

end GoExotic
