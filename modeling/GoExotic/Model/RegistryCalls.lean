/-
Module: GoExotic.Model.RegistryCalls
Purpose: A registry under concurrent calls, each followed from its entry to its return: the part before the
  lock, where `Upsert` validates and reads the clock and `EvictStale` computes its cutoff, the critical
  section, and the return. Between any two of these steps other calls may take theirs, and the clock may
  move on.
Trusted boundary: sync.RWMutex makes critical sections atomic
Main exports: RegistryOp, RegistryAnswer, Section, beforeLock, Section.run, RegistryCalls, RegistryCalls.Step,
  RegistryCalls.step
-/
import GoExotic.Model.Cluster

namespace GoExotic

/-- A call of a registry that is not nil, with its arguments. -/
inductive RegistryOp where
  | upsert (peer : Peer)
  | heartbeat (peerID : String)
  | evictStale (maxAge : Int)
  | peers
deriving DecidableEq, Repr

/-- What a call returns. -/
inductive RegistryAnswer where
  | updated (answer : Registry.Answer)
  | listed (peers : List Peer)
deriving DecidableEq

/-- What a call does under the lock. -/
inductive Section where
  | store (peer : Peer) (seen : Int)
  | refresh (peerID : String)
  | evict (cutoff : Int)
  | list
deriving DecidableEq, Repr

/-- The part of a call before the lock, at the reading `now` of the clock: an early return, or the critical
section to run. -/
def beforeLock (go : GoLib) (now : Int) : RegistryOp → Except RegistryAnswer Section
  | .upsert peer =>
      match peer.validate go with
      | .error err => .error (.updated (.done (.error err)))
      | .ok () => .ok (.store peer now)
  | .heartbeat peerID =>
      if peerID = "" then .error (.updated (.done (.error (.errorf "empty peer id" []))))
      else .ok (.refresh peerID)
  | .evictStale maxAge => if maxAge ≤ 0 then .error (.updated (.evicted [])) else .ok (.evict (now - maxAge))
  | .peers => .ok .list

/-- A critical section, at the reading `now` of the clock. -/
def Section.run (go : GoLib) (now : Int) (r : Registry) : Section → RegistryAnswer × Registry
  | .store peer seen => (.updated (.done (.ok ())), r.store peer seen)
  | .refresh peerID => (.updated (.done (r.heartbeat peerID now).1), (r.heartbeat peerID now).2)
  | .evict cutoff => (.updated (.evicted (r.evictBefore go cutoff).1), (r.evictBefore go cutoff).2)
  | .list => (.listed (r.peers go), r)

/-- How far a call has come. -/
inductive CallPhase where
  | idle
  | entered (op : RegistryOp)
  | waiting (op : RegistryOp) (critical : Section)
  | answered (answer : RegistryAnswer)
  | returned
deriving DecidableEq

/-- The clock, the registry, and how far each call has come. Calls are told apart by a number. -/
structure RegistryCalls where
  clock : Int
  registry : Registry
  phase : Nat → CallPhase

namespace RegistryCalls

/-- A fresh registry at some time. -/
def start (clock : Int) : RegistryCalls := ⟨clock, .new, fun _ => .idle⟩

/-- What can happen next. -/
inductive Step where
  | tick (later : Int)
  | enters (call : Nat) (op : RegistryOp)
  | prepares (call : Nat)
  | locks (call : Nat)
  | returns (call : Nat) (answer : RegistryAnswer)
deriving DecidableEq

/-- The call comes to a phase. -/
def moved (s : RegistryCalls) (call : Nat) (phase : CallPhase) : RegistryCalls :=
  { s with phase := Function.update s.phase call phase }

/-- One step, if it can happen. -/
def step (go : GoLib) (s : RegistryCalls) : Step → Option RegistryCalls
  | .tick later => if s.clock ≤ later then some { s with clock := later } else none
  | .enters call op =>
      match s.phase call with
      | .idle => some (s.moved call (.entered op))
      | _ => none
  | .prepares call =>
      match s.phase call with
      | .entered op =>
          match beforeLock go s.clock op with
          | .error answer => some (s.moved call (.answered answer))
          | .ok critical => some (s.moved call (.waiting op critical))
      | _ => none
  | .locks call =>
      match s.phase call with
      | .waiting _ critical =>
          let (answer, registry) := critical.run go s.clock s.registry
          some { s.moved call (.answered answer) with registry := registry }
      | _ => none
  | .returns call answer =>
      match s.phase call with
      | .answered given => if given = answer then some (s.moved call .returned) else none
      | _ => none

end RegistryCalls

end GoExotic
