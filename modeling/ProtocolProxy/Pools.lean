import ProtocolProxy.Endpoint
import ProtocolProxy.Pool

/-!
# The pools of the HTTP handler

`Pools::get_or_create` of `rust/crates/utopia-proxy/src/server/http/pool.rs` as any number of calls
of `Handler::forward_request` (`handler.rs`) use it at the same time.  A call looks its authority
up, and if there is no pool it takes the entry, which another call may have filled in the meantime.

What a call does with its client is one of the pool's moves.  Any of them may happen at any time,
not only in the order in which `forward_request` makes them.
-/

namespace ProtocolProxy

namespace Pools

def authority (endpoint : Text) : Text :=
  let (host, port) := parseEndpoint endpoint 80
  host ++ ':' :: portText port

/-- A call of `forward_request` for an endpoint. -/
inductive Call
  /-- about to look the pool up -/
  | looking (endpoint : Text)
  /-- has found none, and is about to take the entry -/
  | inserting (endpoint : Text)
  /-- is a task of a pool -/
  | pooled (endpoint : Text) (pool task : ℕ)
  deriving DecidableEq, Repr

/-- The pools that have been created, of which the map has the numbers.  `sent` has the requests
that were sent, each with its endpoint and the client it was sent on, and is read by nothing. -/
structure State where
  pools : List Pool.State
  map : Text → Option ℕ
  calls : List Call
  sent : List (Text × Pool.Client)

def new : State := ⟨[], fun _ => none, [], []⟩

/-- Call `i` has pool `p` and begins to acquire a client. -/
def State.enter (s : State) (i : ℕ) (endpoint : Text) (p : ℕ) : Option State := do
  let pool ← s.pools[p]?
  let pool' ← Pool.step pool .acquire
  return { s with
    pools := s.pools.set p pool'
    calls := s.calls.set i (.pooled endpoint p pool.tasks.length) }

/-- The pool that `or_insert_with` creates. -/
def State.create (size : ℕ) (s : State) (endpoint : Text) : State :=
  { s with
    pools := s.pools ++ [Pool.new endpoint size]
    map := Function.update s.map endpoint (some s.pools.length) }

inductive Action
  | forward (endpoint : Text)
  /-- `map.get` -/
  | get (i : ℕ)
  /-- `map.entry` -/
  | entry (i : ℕ)
  /-- a task of pool `p` goes on -/
  | pool (p task : ℕ) (move : Pool.Move)
  /-- call `i` sends its request -/
  | send (i : ℕ)
  deriving DecidableEq, Repr

def step (size : ℕ) (s : State) : Action → Option State
  | .forward endpoint => some { s with calls := s.calls ++ [.looking endpoint] }
  | .get i =>
    match s.calls[i]? with
    | some (.looking endpoint) =>
      match s.map (authority endpoint) with
      | some p => s.enter i endpoint p
      | none => some { s with calls := s.calls.set i (.inserting endpoint) }
    | _ => none
  | .entry i =>
    match s.calls[i]? with
    | some (.inserting endpoint) =>
      match s.map (authority endpoint) with
      | some p => s.enter i endpoint p
      | none => (s.create size (authority endpoint)).enter i endpoint s.pools.length
    | _ => none
  | .pool p task move => do
    let pool ← s.pools[p]?
    let pool' ← Pool.step pool (.resume task move)
    return { s with pools := s.pools.set p pool' }
  | .send i =>
    match s.calls[i]? with
    | some (.pooled endpoint p task) =>
      match s.pools[p]?.bind fun pool => pool.tasks[task]? with
      | some (.holding _ client) => some { s with sent := s.sent ++ [(endpoint, client)] }
      | _ => none
    | _ => none

/-- No request goes to a backend that is not its own. -/
structure Separate (s : State) : Prop where
  /-- a request is sent on a connection that was dialed at its authority -/
  sent : ∀ endpoint client, (endpoint, client) ∈ s.sent → client.endpoint = authority endpoint
  /-- at most one pool has been created for an authority -/
  one : (s.pools.map Pool.State.endpoint).Nodup
  /-- two calls share a pool exactly if their endpoints have the same host and port -/
  shared : ∀ e e' p p' t t', .pooled e p t ∈ s.calls → .pooled e' p' t' ∈ s.calls →
    (p = p' ↔ parseEndpoint e 80 = parseEndpoint e' 80)

end Pools

end ProtocolProxy
