/-
Module: GoExotic.Model.SharedRegistry
Purpose: A registry used by concurrent calls. Each critical section under `Registry.mu` is one step.
  `Upsert` and `EvictStale` read the clock before they take the lock, so each of them is two steps with
  anything in between; `Heartbeat` reads it under the lock and is one step. The clock moves on between
  steps and never goes back.
Trusted boundary: sync.RWMutex makes critical sections atomic
Main exports: SharedRegistry, SharedRegistry.Step, SharedRegistry.step
-/
import GoExotic.Model.Cluster

namespace GoExotic

/-- The clock, the registry, and the calls between their clock reading and the lock: for an `Upsert` its
peer with the reading, for an `EvictStale` its cutoff. Calls are told apart by a number. -/
structure SharedRegistry where
  clock : Int
  registry : Registry
  storing : Nat → Option (Peer × Int)
  evicting : Nat → Option Int

namespace SharedRegistry

/-- A fresh registry at some time. -/
def start (clock : Int) : SharedRegistry := ⟨clock, .new, fun _ => none, fun _ => none⟩

/-- What can happen next. -/
inductive Step where
  | tick (later : Int)
  | upsertReadsClock (call : Nat) (peer : Peer)
  | upsertStores (call : Nat)
  | heartbeat (peerID : String)
  | evictReadsClock (call : Nat) (maxAge : Int)
  | evictRuns (call : Nat)
deriving DecidableEq, Repr

/-- One step, if it can happen. A call that returns early, because `Peer.Validate` fails or `maxAge` is
not positive, never reads the clock. -/
def step (go : GoLib) (s : SharedRegistry) : Step → Option SharedRegistry
  | .tick later => if s.clock ≤ later then some { s with clock := later } else none
  | .upsertReadsClock call peer =>
      match s.storing call, peer.validate go with
      | some _, _ => none
      | none, .error _ => some s
      | none, .ok () => some { s with storing := Function.update s.storing call (some (peer, s.clock)) }
  | .upsertStores call =>
      match s.storing call with
      | none => none
      | some (peer, seen) => some { s with
          registry := s.registry.store peer seen
          storing := Function.update s.storing call none }
  | .heartbeat peerID => some { s with registry := (s.registry.heartbeat peerID s.clock).2 }
  | .evictReadsClock call maxAge =>
      match s.evicting call with
      | some _ => none
      | none =>
          if maxAge ≤ 0 then some s
          else some { s with evicting := Function.update s.evicting call (some (s.clock - maxAge)) }
  | .evictRuns call =>
      match s.evicting call with
      | none => none
      | some cutoff => some { s with
          registry := (s.registry.evictBefore go cutoff).2
          evicting := Function.update s.evicting call none }

end SharedRegistry

end GoExotic
