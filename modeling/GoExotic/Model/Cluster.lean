/-
Module: GoExotic.Model.Cluster
Purpose: Package cluster: peers with their validator, and the in-memory registry. A registry operation
  takes the reading of the clock it uses as an argument; the pieces of `Upsert` and `EvictStale` that
  run under the lock are definitions of their own.
Trusted boundary: url.Parse, through `GoLib`; a time is an integer number of nanoseconds
Main exports: Peer, Peer.validate, Peer.capability, localPeer, Registry, Registry.upsert,
  Registry.heartbeat, Registry.evictStale, Registry.peers, Registry.serve
-/
import GoExotic.Model.Protocol

namespace GoExotic

/-- `TransportHTTP`. -/
def transportHTTP : String := "http"

/-- The cluster-facing view of a node that can host model shards. -/
structure Peer where
  id : String
  address : String
  transport : String
  device : Device
  lastSeen : Int
deriving DecidableEq, Repr

/-- The check `Peer.Validate` makes of the parsed address. -/
def badPeerUrl : Option Url → Prop
  | none => True
  | some u => u.scheme = "" ∨ u.host = "" ∨ u.scheme ≠ "http"

instance (u : Option Url) : Decidable (badPeerUrl u) :=
  match u with
  | none => inferInstanceAs (Decidable True)
  | some u => inferInstanceAs (Decidable (u.scheme = "" ∨ u.host = "" ∨ u.scheme ≠ "http"))

/-- `Peer.Validate`. -/
def Peer.validate (go : GoLib) (p : Peer) : Except GoError Unit := do
  failIf (trimSpace p.id = "") (.errorf "empty peer id" [])
  failIf (trimSpace p.address = "") (.errorf "empty peer address" [])
  failIf (p.transport = "") (.errorf "empty peer transport" [])
  failIf (p.transport ≠ transportHTTP) (.errorf "unsupported peer transport %q" [.str p.transport])
  failIf (badPeerUrl (go.urlParse p.address)) (.errorf "invalid peer address %q" [.str p.address])
  failIf (p.device.id = "") (.errorf "peer device id is empty" [])
  failIf (badWeight p.device.memoryGB)
    (.errorf "peer device memory %.2f out of range" [.float p.device.memoryGB])

/-- `Peer.Capability`. -/
def Peer.capability (go : GoLib) (p : Peer) : Except GoError Capability := do
  p.validate go
  return {
    peerID := p.id
    device := p.device
    metadata := (AList.insert "transport" p.transport ∅).insert "address" p.address }

/-- `LocalPeer`, at the reading `now` of the clock. -/
def localPeer (go : GoLib) (id address : String) (memoryGB : Float64) (now : Int) :
    Except GoError Peer := do
  let p : Peer := {
    id := trimSpace id
    address := trimRightSlash (trimSpace address)
    transport := transportHTTP
    device := ⟨trimSpace id, memoryGB, "go-pherence"⟩
    lastSeen := now }
  p.validate go
  return p

/-! ### The registry -/

/-- Known peers, by id. -/
structure Registry where
  peerMap : GoMap Peer

namespace Registry

/-- `NewRegistry`. -/
def new : Registry := ⟨∅⟩

/-- The peer stored under an id. -/
def find (r : Registry) (id : String) : Option Peer := r.peerMap.lookup id

/-- The critical section of `Upsert`: store a peer stamped with a time read before. -/
def store (r : Registry) (peer : Peer) (seen : Int) : Registry :=
  ⟨r.peerMap.insert peer.id { peer with lastSeen := seen }⟩

/-- `Registry.Upsert`, at the reading `now` of the clock. -/
def upsert (go : GoLib) (r : Registry) (peer : Peer) (now : Int) : Except GoError Unit × Registry :=
  match peer.validate go with
  | .error err => (.error err, r)
  | .ok () => (.ok (), r.store peer now)

/-- `Registry.Heartbeat`, at the reading `now` of the clock. -/
def heartbeat (r : Registry) (peerID : String) (now : Int) : Except GoError Unit × Registry :=
  if peerID = "" then (.error (.errorf "empty peer id" []), r)
  else
    match r.peerMap.lookup peerID with
    | none => (.error (.errorf "unknown peer %q" [.str peerID]), r)
    | some peer => (.ok (), ⟨r.peerMap.insert peerID { peer with lastSeen := now }⟩)

/-- `sortPeers`. -/
def sortPeers (go : GoLib) (peers : List Peer) : List Peer :=
  go.sort.byKey (fun p => p.id) peers

/-- The loop of `EvictStale` over the entries of the map: what is evicted so far and what is left. -/
def evictLoop (cutoff : Int) : List (Sigma fun _ : String => Peer) → List Peer → GoMap Peer →
    List Peer × GoMap Peer
  | [], evicted, remaining => (evicted, remaining)
  | ⟨id, peer⟩ :: entries, evicted, remaining =>
      if peer.lastSeen < cutoff then evictLoop cutoff entries (evicted ++ [peer]) (remaining.erase id)
      else evictLoop cutoff entries evicted remaining

/-- The critical section of `EvictStale`: evict by a cutoff computed before. -/
def evictBefore (go : GoLib) (r : Registry) (cutoff : Int) : List Peer × Registry :=
  let (evicted, remaining) := evictLoop cutoff r.peerMap.entries [] r.peerMap
  (sortPeers go evicted, ⟨remaining⟩)

/-- `Registry.EvictStale`. -/
def evictStale (go : GoLib) (r : Registry) (maxAge now : Int) : List Peer × Registry :=
  if maxAge ≤ 0 then ([], r) else r.evictBefore go (now - maxAge)

/-- `Registry.Peers`. -/
def peers (go : GoLib) (r : Registry) : List Peer :=
  sortPeers go (r.peerMap.entries.map fun entry => entry.2)

/-! ### Calls -/

/-- A call of the registry with its arguments and the reading of the clock it makes. -/
inductive Call where
  | upsert (peer : Peer) (now : Int)
  | heartbeat (peerID : String) (now : Int)
  | evictStale (maxAge now : Int)
deriving DecidableEq, Repr

/-- What a call returns. -/
inductive Answer where
  | done (result : Except GoError Unit)
  | evicted (peers : List Peer)
deriving DecidableEq

/-- Serve a call: its answer and the registry after it. -/
def serve (go : GoLib) : Call → Registry → Answer × Registry
  | .upsert peer now, r => (.done (r.upsert go peer now).1, (r.upsert go peer now).2)
  | .heartbeat peerID now, r => (.done (r.heartbeat peerID now).1, (r.heartbeat peerID now).2)
  | .evictStale maxAge now, r => (.evicted (r.evictStale go maxAge now).1, (r.evictStale go maxAge now).2)

end Registry

end GoExotic
