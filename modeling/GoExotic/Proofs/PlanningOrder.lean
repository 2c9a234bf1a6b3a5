/-
Module: GoExotic.Proofs.PlanningOrder
Purpose: Planning does not depend on the order in which peers were discovered, nor on which sort routine
  the library uses. Device ids of a plan are distinct, so every sort visits the devices in one order;
  routes are looked up by id. Two runs over the same peers in different orders succeed or fail alike, and
  a success is the same preview, whether the peers come as capabilities, from a registry, or through the
  route preview of a server.
Trusted boundary: none
Main exports: GoLib.sortedBy, planLayerShards_perm, previewFromCapabilities_perm, Registry.SamePeers,
  previewFromRegistry_samePeers, samePeers_of_registered, SameOutcome, planning_order_independent
-/
import GoExotic.Proofs.Preview
import GoExotic.Model.PlanningServer

namespace GoExotic

/-- The same library with another sort routine. -/
def GoLib.sortedBy (go : GoLib) (sort : Sorting.SortSlice) : GoLib := { go with sort := sort }

theorem GoLib.sortedBy_back (go : GoLib) (sort : Sorting.SortSlice) :
    (go.sortedBy sort).sortedBy go.sort = go := rfl

variable {go : GoLib} {ctx : Ctx} (sort : Sorting.SortSlice)

/-! ### Plans -/

theorem runningTotals_sortedBy (total : Float64) (devices : List Device) :
    runningTotals (go.sortedBy sort) total devices = runningTotals go total devices := by
  induction devices generalizing total with
  | nil => rfl
  | cons d rest inductionHypothesis => exact congrArg _ (inductionHypothesis _)

theorem assignLayers_sortedBy (share : Device → Float64) (totalLayers : Int) (devices : Nat) (i start : Int)
    (rest : List Device) :
    assignLayers (go.sortedBy sort) share totalLayers devices i start rest =
      assignLayers go share totalLayers devices i start rest := by
  induction rest generalizing i start with
  | nil => rfl
  | cons d rest inductionHypothesis =>
      rw [assignLayers, assignLayers]
      apply bind_congr
      intro shard
      rw [inductionHypothesis]

/-- Devices with distinct ids are visited in one order, whatever order they come in. -/
theorem sortDevices_perm_eq {devices others : List Device} (distinct : (devices.map Device.id).Nodup)
    (perm : devices.Perm others) : sortDevices (go.sortedBy sort) others = sortDevices go devices :=
  sort.byKey_eq _ (perm.symm.trans (sortDevices_perm go devices).symm) (go.sort.byKey_pairwise_lt _ distinct)

/-- What the planner accepts, it accepts in any order. -/
theorem Plannable.perm {devices others : List Device} {totalLayers : Int} (perm : devices.Perm others)
    (plannable : Plannable go devices totalLayers) : Plannable (go.sortedBy sort) others totalLayers where
  layers_pos := plannable.layers_pos
  devices_pos := perm.length_eq ▸ plannable.devices_pos
  fits := perm.length_eq ▸ plannable.fits
  ids_nonempty := fun d member => plannable.ids_nonempty d (perm.mem_iff.mpr member)
  ids_distinct := (perm.map Device.id).nodup_iff.mp plannable.ids_distinct
  memories_usable := fun d member => plannable.memories_usable d (perm.mem_iff.mpr member)
  totals_usable := by
    rw [runningTotals_sortedBy, sortDevices_perm_eq sort plannable.ids_distinct perm]
    exact plannable.totals_usable

/-- A plan for some devices is the plan for any reordering of them. -/
theorem planLayerShards_perm {devices others : List Device} {totalLayers : Int} {shards : List Shard}
    (perm : devices.Perm others) (planned : planLayerShards go devices totalLayers = .ok shards) :
    planLayerShards (go.sortedBy sort) others totalLayers = .ok shards := by
  obtain ⟨plannable, assigned, accepted⟩ := planLayerShardsWith_eq_ok.mp planned
  refine planLayerShardsWith_eq_ok.mpr ⟨plannable.perm sort perm, ?_, accepted⟩
  rw [assignLayers_sortedBy, sortDevices_perm_eq sort plannable.ids_distinct perm, ← perm.length_eq]
  exact assigned

/-! ### Previews from capabilities -/

/-- A route plan over some peers is one over any reordering of them. -/
theorem RoutePlan.perm {peers others : List Peer} {shards : List Shard} {totalLayers : Int}
    {routes : List Route} (perm : peers.Perm others) (plan : RoutePlan go peers shards totalLayers routes) :
    RoutePlan (go.sortedBy sort) others shards totalLayers routes where
  accepted := plan.accepted
  peers_valid := fun p member => plan.peers_valid p (perm.mem_iff.mpr member)
  ids_distinct := (perm.map Peer.id).nodup_iff.mp plan.ids_distinct
  shards_eq := plan.shards_eq
  peers_named := by
    intro route member
    obtain ⟨peer, named⟩ := plan.peers_named route member
    exact ⟨perm.mem_iff.mp peer, named⟩

theorem CapabilityPreview.perm {caps others : List Capability} {totalLayers : Int} {shards : List Shard}
    {routes : List Route} (perm : caps.Perm others)
    (preview : CapabilityPreview go caps totalLayers shards routes) :
    CapabilityPreview (go.sortedBy sort) others totalLayers shards routes where
  planned := planLayerShards_perm sort (perm.map Capability.device) preview.planned
  routed := preview.routed.perm sort (perm.map Capability.importedPeer)

theorem previewFromCapabilities_perm {caps others : List Capability} {modelID : String} {totalLayers : Int}
    {preview : RoutePreview} (perm : caps.Perm others)
    (previewed : previewFromCapabilities go ctx caps modelID totalLayers = .ok preview) :
    previewFromCapabilities (go.sortedBy sort) ctx others modelID totalLayers = .ok preview := by
  obtain ⟨shards, routes, isOpen, made, rfl⟩ := previewFromCapabilities_eq_ok.mp previewed
  rw [perm.length_eq] at isOpen
  exact previewFromCapabilities_eq_ok.mpr ⟨shards, routes, isOpen, made.perm sort perm, rfl⟩

/-! ### Previews from a registry -/

/-- A peer without the time it was last seen. -/
def Peer.forgetSeen (p : Peer) : Peer := { p with lastSeen := 0 }

/-- Two registries hold the same peers, whenever they were seen. -/
def Registry.SamePeers (r other : Registry) : Prop :=
  ∀ id, (r.find id).map Peer.forgetSeen = (other.find id).map Peer.forgetSeen

theorem Registry.SamePeers.symm {r other : Registry} (same : r.SamePeers other) : other.SamePeers r :=
  fun id => (same id).symm

/-- The entries of the map without the times. -/
def Registry.forgottenEntries (r : Registry) : List (Sigma fun _ : String => Peer) :=
  r.peerMap.entries.map (.map id fun _ => Peer.forgetSeen)

theorem Registry.peers_forgotten (r : Registry) :
    ((r.peers go).map Peer.forgetSeen).Perm (r.forgottenEntries.map fun entry => entry.2) := by
  have listed := (go.sort.byKey_perm Peer.id (r.peerMap.entries.map fun entry => entry.2)).map Peer.forgetSeen
  rw [Registry.forgottenEntries, List.map_map]
  rw [List.map_map] at listed
  exact listed

theorem Registry.SamePeers.entries_perm {r other : Registry} (same : r.SamePeers other) :
    r.forgottenEntries.Perm other.forgottenEntries := by
  apply List.lookup_ext (r.peerMap.nodupKeys.map₂ fun _ => Peer.forgetSeen)
    (other.peerMap.nodupKeys.map₂ fun _ => Peer.forgetSeen)
  intro id p
  have found : (r.peerMap.entries.dlookup id).map Peer.forgetSeen =
      (other.peerMap.entries.dlookup id).map Peer.forgetSeen := same id
  rw [List.dlookup_map₂, List.dlookup_map₂, found]

/-- Registries with the same peers list the same peers, in whatever order. -/
theorem Registry.SamePeers.peers_perm {r other : Registry} (same : r.SamePeers other) :
    ((r.peers go).map Peer.forgetSeen).Perm ((other.peers (go.sortedBy sort)).map Peer.forgetSeen) :=
  (r.peers_forgotten.trans (same.entries_perm.map _)).trans other.peers_forgotten.symm

theorem previewFromRegistry_samePeers {r other : Registry} {modelID : String} {totalLayers : Int}
    {preview : RoutePreview} (same : r.SamePeers other)
    (previewed : previewFromRegistry go ctx (some r) modelID totalLayers = .ok preview) :
    previewFromRegistry (go.sortedBy sort) ctx (some other) modelID totalLayers = .ok preview := by
  have perm : ((r.peers go).map Peer.forgetSeen).Perm
      ((other.peers (go.sortedBy sort)).map Peer.forgetSeen) := same.peers_perm sort
  have length : (r.peers go).length = (other.peers (go.sortedBy sort)).length := by
    have sameLength := perm.length_eq
    rwa [List.length_map, List.length_map] at sameLength
  have exported : ((r.peers go).map Peer.exported).Perm
      ((other.peers (go.sortedBy sort)).map Peer.exported) := by
    have forgotten := perm.map Peer.exported
    rw [List.map_map, List.map_map] at forgotten
    exact forgotten
  obtain ⟨now, some, exportOpen, valid, shards, routes, isOpen, made, rfl⟩ :=
    previewFromRegistry_eq_ok.mp previewed
  rw [length] at some exportOpen isOpen
  refine previewFromRegistry_eq_ok.mpr ⟨now, some, exportOpen, ?_, shards, routes, isOpen,
    made.perm sort exported, rfl⟩
  intro p member
  obtain ⟨q, listed, forgotten⟩ := List.mem_map.mp (perm.mem_iff.mpr (List.mem_map_of_mem member))
  have sameChecks : ∀ p : Peer, p.forgetSeen.validate (go.sortedBy sort) = p.validate go := fun _ => rfl
  have back : p.validate (go.sortedBy sort) = p.validate go := rfl
  rw [back, ← sameChecks, ← forgotten, sameChecks]
  exact valid q listed

/-! ### Registering in another order -/

namespace Registry

/-- The registry after some peers registered, one after the other, each at a reading of the clock. -/
def registered (go : GoLib) (registrations : List (Peer × Int)) : Registry :=
  after go (registrations.map fun reg => .upsert reg.1 reg.2)

theorem find_upsert {r : Registry} {peer : Peer} {now : Int} {id : String} :
    (serve go (.upsert peer now) r).2.find id =
      if peer.validate go = .ok () ∧ peer.id = id then some { peer with lastSeen := now } else r.find id := by
  rw [serve]
  cases valid : peer.validate go with
  | error err => simp [upsert_rejected valid]
  | ok u => simp [upsert_accepted valid, find_store, eq_comm]

/-- Peers with distinct ids are stored if they are valid; what was stored before stays otherwise. -/
theorem find_final_registered {registrations : List (Peer × Int)}
    (distinct : (registrations.map fun reg => reg.1.id).Nodup) {r : Registry} {id : String} {p : Peer} :
    (Runs.final (serve go) (registrations.map fun reg => .upsert reg.1 reg.2) r).find id = some p ↔
      (∃ reg ∈ registrations, reg.1.validate go = .ok () ∧ reg.1.id = id ∧
          p = { reg.1 with lastSeen := reg.2 }) ∨
        (∀ reg ∈ registrations, ¬ (reg.1.validate go = .ok () ∧ reg.1.id = id)) ∧ r.find id = some p := by
  induction registrations generalizing r with
  | nil => simp [Runs.final]
  | cons reg rest inductionHypothesis =>
      rw [List.map_cons, List.nodup_cons, List.mem_map] at distinct
      obtain ⟨new, restDistinct⟩ := distinct
      rw [List.map_cons, Runs.final, inductionHypothesis restDistinct, find_upsert]
      simp only [List.mem_cons, forall_eq_or_imp, exists_eq_or_imp]
      by_cases stored : reg.1.validate go = .ok () ∧ reg.1.id = id
      · have others : ∀ other ∈ rest, ¬ (other.1.validate go = .ok () ∧ other.1.id = id) := by
          rintro other member ⟨-, same⟩
          exact new ⟨other, member, same.trans stored.2.symm⟩
        rw [if_pos stored, Option.some.injEq]
        constructor
        · rintro (later | ⟨-, same⟩)
          · exact Or.inl (Or.inr later)
          · exact Or.inl (Or.inl ⟨stored.1, stored.2, same.symm⟩)
        · rintro ((⟨-, -, same⟩ | later) | ⟨⟨notStored, -⟩, -⟩)
          · exact Or.inr ⟨others, same.symm⟩
          · exact Or.inl later
          · exact absurd stored notStored
      · rw [if_neg stored]
        constructor
        · rintro (later | ⟨none, before⟩)
          · exact Or.inl (Or.inr later)
          · exact Or.inr ⟨⟨stored, none⟩, before⟩
        · rintro ((⟨valid, same, -⟩ | later) | ⟨⟨-, none⟩, before⟩)
          · exact absurd ⟨valid, same⟩ stored
          · exact Or.inl later
          · exact Or.inr ⟨none, before⟩

/-- Peers with distinct ids are the same peers whatever order, and whenever, they register in. -/
theorem samePeers_of_registered {registrations others : List (Peer × Int)}
    (distinct : (registrations.map fun reg => reg.1.id).Nodup)
    (perm : (registrations.map Prod.fst).Perm (others.map Prod.fst)) :
    (registered go registrations).SamePeers (registered go others) := by
  have ids : (registrations.map fun reg => reg.1.id).Perm (others.map fun reg => reg.1.id) := by
    have mapped := perm.map Peer.id
    rw [List.map_map, List.map_map] at mapped
    exact mapped
  have stored : ∀ {registrations : List (Peer × Int)}, (registrations.map fun reg => reg.1.id).Nodup →
      ∀ id p, ((registered go registrations).find id).map Peer.forgetSeen = some p ↔
        ∃ q ∈ registrations.map Prod.fst, q.validate go = .ok () ∧ q.id = id ∧ p = q.forgetSeen := by
    intro registrations distinct id p
    simp only [registered, after, Option.map_eq_some_iff, find_final_registered distinct, find_new,
      reduceCtorEq, and_false, or_false]
    constructor
    · rintro ⟨_, ⟨reg, member, valid, same, rfl⟩, rfl⟩
      exact ⟨reg.1, List.mem_map_of_mem member, valid, same, rfl⟩
    · rintro ⟨q, member, valid, same, rfl⟩
      obtain ⟨reg, isReg, rfl⟩ := List.mem_map.mp member
      exact ⟨_, ⟨reg, isReg, valid, same, rfl⟩, rfl⟩
  intro id
  apply Option.ext
  intro p
  rw [stored distinct, stored (ids.nodup_iff.mp distinct)]
  simp only [perm.mem_iff]

end Registry

/-! ### Order independence -/

/-- Both succeed with the same value, or both fail. -/
def SameOutcome {α : Type} (x y : Except GoError α) : Prop :=
  (∃ a, x = .ok a ∧ y = .ok a) ∨ (∃ err, x = .error err) ∧ ∃ err, y = .error err

theorem SameOutcome.of_iff {α : Type} {x y : Except GoError α} (same : ∀ a, x = .ok a ↔ y = .ok a) :
    SameOutcome x y := by
  cases first : x with
  | ok a => exact Or.inl ⟨a, rfl, (same a).mp first⟩
  | error err =>
      refine Or.inr ⟨⟨err, rfl⟩, exists_error_of_not_ok ?_⟩
      intro a second
      rw [(same a).mpr second] at first
      cases first

/-- Where one run succeeds, so does the other. -/
theorem SameOutcome.iff {α : Type} {x y : Except GoError α} (same : SameOutcome x y) (a : α) :
    x = .ok a ↔ y = .ok a := by
  rcases same with ⟨b, rfl, rfl⟩ | ⟨⟨err, rfl⟩, other, rfl⟩
  · exact Iff.rfl
  · exact iff_of_false (by simp) (by simp)

/-- Planning from capabilities does not depend on their order. -/
theorem previewFromCapabilities_sameOutcome {caps others : List Capability} (modelID : String)
    (totalLayers : Int) (perm : caps.Perm others) :
    SameOutcome (previewFromCapabilities go ctx caps modelID totalLayers)
      (previewFromCapabilities (go.sortedBy sort) ctx others modelID totalLayers) := by
  apply SameOutcome.of_iff
  intro preview
  constructor
  · exact previewFromCapabilities_perm sort perm
  · intro previewed
    rw [← go.sortedBy_back sort]
    exact previewFromCapabilities_perm go.sort perm.symm previewed

/-- Planning from a registry depends on its peers only. -/
theorem previewFromRegistry_sameOutcome {r other : Registry} (modelID : String) (totalLayers : Int)
    (same : r.SamePeers other) :
    SameOutcome (previewFromRegistry go ctx (some r) modelID totalLayers)
      (previewFromRegistry (go.sortedBy sort) ctx (some other) modelID totalLayers) := by
  apply SameOutcome.of_iff
  intro preview
  constructor
  · exact previewFromRegistry_samePeers sort same
  · intro previewed
    rw [← go.sortedBy_back sort]
    exact previewFromRegistry_samePeers go.sort same.symm previewed

/-- Two servers plan over the same peers: the same capabilities in some order without a registry, or
registries with the same peers. -/
def PlanningServer.SamePeers {W : Type} (s other : PlanningServer W) : Prop :=
  (s.registry = none ∧ other.registry = none ∧ s.capabilities.Perm other.capabilities) ∨
    ∃ r q, s.registry = some r ∧ other.registry = some q ∧ r.SamePeers q

/-- Two responses have the same status, and are the same response if it is 200. -/
def SameResponse (first second : HttpResponse) : Prop :=
  first.status = second.status ∧ (first.status = 200 → first = second)

theorem copyCapabilities_perm {caps others : List Capability} (perm : caps.Perm others) :
    (copyCapabilities caps).Perm (copyCapabilities others) := perm.map _

/-- The route preview of a server depends on the peers it plans over only. -/
theorem PlanningServer.SamePeers.handleRoutesPreview {W : Type} {s other : PlanningServer W}
    (same : s.SamePeers other) (wire : WireLib) (lib : PreviewLib) (r : HttpRequest) :
    SameResponse (s.handleRoutesPreview go wire lib ctx r)
      (other.handleRoutesPreview (go.sortedBy sort) wire lib ctx r) := by
  rw [PlanningServer.handleRoutesPreview, PlanningServer.handleRoutesPreview]
  by_cases isGet : r.method ≠ "GET"
  · rw [if_pos isGet, if_pos isGet]
    exact ⟨rfl, fun _ => rfl⟩
  · rw [if_neg isGet, if_neg isGet]
    cases parsed : positiveIntQuery lib r "layers" with
    | error err => exact ⟨rfl, fun _ => rfl⟩
    | ok layers =>
        rcases same with ⟨static, otherStatic, perm⟩ | ⟨registry, otherRegistry, live, otherLive, samePeers⟩
        · simp only [static, otherStatic, PlanningServer.capabilitiesCopy]
          have outcome : SameOutcome
              (previewFromCapabilities go ctx (copyCapabilities s.capabilities) (lib.queryGet r.url "model")
                layers)
              (previewFromCapabilities (go.sortedBy sort) ctx (copyCapabilities other.capabilities)
                (lib.queryGet r.url "model") layers) :=
            previewFromCapabilities_sameOutcome sort _ layers (copyCapabilities_perm perm)
          rcases outcome with
            ⟨preview, first, second⟩ | ⟨⟨err, first⟩, otherErr, second⟩
          · rw [first, second]
            exact ⟨rfl, fun _ => rfl⟩
          · rw [first, second]
            exact ⟨rfl, fun succeeded => by cases succeeded⟩
        · simp only [live, otherLive]
          have outcome : SameOutcome
              (previewFromRegistry go ctx (some registry) (lib.queryGet r.url "model") layers)
              (previewFromRegistry (go.sortedBy sort) ctx (some otherRegistry)
                (lib.queryGet r.url "model") layers) :=
            previewFromRegistry_sameOutcome sort _ layers samePeers
          rcases outcome with
            ⟨preview, first, second⟩ | ⟨⟨err, first⟩, otherErr, second⟩
          · rw [first, second]
            exact ⟨rfl, fun _ => rfl⟩
          · rw [first, second]
            exact ⟨rfl, fun succeeded => by cases succeeded⟩

/-- Planning is independent of the order of discovery and of the sort routine: previews from reordered
capabilities and from registries with the same peers have the same outcome, the order of registration
leaves the same peers, and so the route preview of a server depends on its peers only. -/
theorem planning_order_independent (go : GoLib) (sort : Sorting.SortSlice) (ctx : Ctx) :
    (∀ caps others modelID totalLayers, List.Perm caps others →
      SameOutcome (previewFromCapabilities go ctx caps modelID totalLayers)
        (previewFromCapabilities (go.sortedBy sort) ctx others modelID totalLayers)) ∧
    (∀ (r other : Registry) modelID totalLayers, r.SamePeers other →
      SameOutcome (previewFromRegistry go ctx (some r) modelID totalLayers)
        (previewFromRegistry (go.sortedBy sort) ctx (some other) modelID totalLayers)) ∧
    (∀ registrations others : List (Peer × Int), (registrations.map fun reg => reg.1.id).Nodup →
      (registrations.map Prod.fst).Perm (others.map Prod.fst) →
      (Registry.registered go registrations).SamePeers (Registry.registered go others)) ∧
    ∀ {W : Type} (s other : PlanningServer W) wire lib r, s.SamePeers other →
      SameResponse (s.handleRoutesPreview go wire lib ctx r)
        (other.handleRoutesPreview (go.sortedBy sort) wire lib ctx r) := by
  refine ⟨?_, ?_, ?_, ?_⟩
  · intro caps others modelID totalLayers perm
    exact previewFromCapabilities_sameOutcome sort modelID totalLayers perm
  · intro r other modelID totalLayers same
    exact previewFromRegistry_sameOutcome sort modelID totalLayers same
  · intro registrations others distinct perm
    exact Registry.samePeers_of_registered distinct perm
  · intro W s other wire lib r same
    exact same.handleRoutesPreview sort wire lib r

/-- Three peers discovered in two orders. -/
theorem planning_order_independent_three :
    SameOutcome
      (previewFromCapabilities .plain .background [exampleCapability "a" "a" (.finite 3),
        exampleCapability "b" "b" (.finite 1), exampleCapability "c" "c" (.finite 2)] "m" 12)
      (previewFromCapabilities .plain .background [exampleCapability "c" "c" (.finite 2),
        exampleCapability "a" "a" (.finite 3), exampleCapability "b" "b" (.finite 1)] "m" 12) := by
  have perm : ([exampleCapability "a" "a" (.finite 3), exampleCapability "b" "b" (.finite 1)] ++
      [exampleCapability "c" "c" (.finite 2)]).Perm ([exampleCapability "c" "c" (.finite 2)] ++
      [exampleCapability "a" "a" (.finite 3), exampleCapability "b" "b" (.finite 1)]) :=
    List.perm_append_comm
  exact (planning_order_independent .plain .insertion .background).1 _ _ "m" 12 perm

end GoExotic
