import ProtocolProxy.Machine
import ProtocolProxy.Resolver

/-!
# The pool of HTTP clients

One `Pool` of `rust/crates/utopia-proxy/src/server/http/pool.rs` with any number of tasks that
acquire a client, hold it in a `PooledClient` and drop it.  A task is cut where it awaits something,
and where another thread can come between: after it has the permit, and between the release of the
client and the return of the permit.

A task that is cancelled while it holds a client drops it as any other does.  The semaphore is never
closed.  Whether a client's sender is ready is an input whenever it is asked.
-/

namespace ProtocolProxy

namespace Pool

/-- A client.  `id` and `endpoint`, the address it was dialed at, are read by nothing. -/
structure Client where
  id : ℕ
  endpoint : Text
  healthy : Bool
  deriving DecidableEq, Repr

def Client.isHealthy (c : Client) (ready : Bool) : Bool := c.healthy && ready

/-- Where a task is.  `permit` says whether it has one: a `PooledClient` has a pool to give its
client back to exactly if it has a permit. -/
inductive Stage
  /-- in `acquire_owned` -/
  | waiting
  /-- has the permit and is about to look for an idle client -/
  | permitted
  /-- in `connect` -/
  | dialing (permit : Bool)
  /-- has a `PooledClient` -/
  | holding (permit : Bool) (client : Client)
  /-- in `drop`, after the release -/
  | releasing (permit : Bool)
  | over
  deriving DecidableEq, Repr

/-- What has happened to the clients, which nothing reads. -/
inductive Event
  /-- obtained by a dial, with a permit or without -/
  | dialed (id : ℕ) (permit : Bool)
  /-- handed out after it was idle -/
  | reused (id : ℕ) (healthy ready : Bool)
  /-- `invalidate`, or a failed `send` -/
  | invalidated (id : ℕ)
  /-- its `PooledClient` was dropped -/
  | released (id : ℕ) (ready : Bool)
  deriving DecidableEq, Repr

structure State where
  endpoint : Text
  available : ℕ
  idle : List Client
  tasks : List Stage
  dialed : ℕ
  log : List Event
  deriving DecidableEq, Repr

/-- `Pool::new`. -/
def new (endpoint : Text) (size : ℕ) : State := ⟨endpoint, size, [], [], 0, []⟩

def State.put (s : State) (i : ℕ) (stage : Stage) : State := { s with tasks := s.tasks.set i stage }

def State.record (s : State) (e : Event) : State := { s with log := s.log ++ [e] }

/-- A permit, if there is one, is dropped. -/
def State.giveBack (s : State) (permit : Bool) : State :=
  { s with available := s.available + permit.toNat }

def State.release (s : State) (client : Client) (ready : Bool) : State :=
  if client.isHealthy ready then { s with idle := s.idle ++ [client] } else s

inductive Move
  | permit
  | timeout
  | pop (ready : Bool)
  | connected
  | connectFails
  | cancel
  | invalidate
  | drop (ready : Bool)
  | returnPermit
  deriving DecidableEq, Repr

/-- The next step of task `i`. -/
def State.resume (s : State) (i : ℕ) : Stage → Move → Option State
  | .waiting, .permit =>
    if 0 < s.available then some { s.put i .permitted with available := s.available - 1 } else none
  | .waiting, .timeout => some (s.put i (.dialing false))
  | .waiting, .cancel => some (s.put i .over)
  | .permitted, .pop ready =>
    match s.idle with
    | client :: rest =>
      if client.isHealthy ready then
        some ({ s.put i (.holding true client) with idle := rest }.record
          (.reused client.id client.healthy ready))
      else some { s.put i (.dialing true) with idle := rest }
    | [] => some (s.put i (.dialing true))
  | .dialing permit, .connected =>
    some ({ s.put i (.holding permit ⟨s.dialed, s.endpoint, true⟩) with
      dialed := s.dialed + 1 }.record (.dialed s.dialed permit))
  | .dialing permit, .connectFails => some ((s.put i .over).giveBack permit)
  | .dialing permit, .cancel => some ((s.put i .over).giveBack permit)
  | .holding permit client, .invalidate =>
    some ((s.put i (.holding permit { client with healthy := false })).record
      (.invalidated client.id))
  | .holding permit client, .drop ready =>
    let s := (s.put i (.releasing permit)).record (.released client.id ready)
    some (if permit then s.release client ready else s)
  | .releasing permit, .returnPermit => some ((s.put i .over).giveBack permit)
  | _, _ => none

inductive Action
  | acquire
  | resume (i : ℕ) (move : Move)
  deriving DecidableEq, Repr

def step (s : State) : Action → Option State
  | .acquire => some { s with tasks := s.tasks ++ [.waiting] }
  | .resume i move => s.tasks[i]?.bind fun stage => s.resume i stage move

/-! ## What the pool promises -/

def Stage.hasPermit : Stage → Bool
  | .permitted => true
  | .dialing permit | .holding permit _ | .releasing permit => permit
  | .waiting | .over => false

/-- The task has a permit, and a client or one that is being dialed. -/
def Stage.isBusy : Stage → Bool
  | .dialing permit | .holding permit _ => permit
  | _ => false

def Stage.heldId : Stage → Option ℕ
  | .holding _ client => some client.id
  | _ => none

structure Sound (size : ℕ) (s : State) : Prop where
  /-- permits out and permits available -/
  permits : s.available + s.tasks.countP Stage.hasPermit = size
  /-- idle clients, and those that tasks with a permit hold or dial -/
  bound : s.idle.length + s.tasks.countP Stage.isBusy ≤ size
  /-- no client is owned twice -/
  owned : (s.idle.map Client.id ++ s.tasks.filterMap Stage.heldId).Nodup
  /-- an idle client was not obtained without a permit, nor invalidated, nor unready at a release -/
  kept : ∀ c ∈ s.idle, .dialed c.id false ∉ s.log ∧ .invalidated c.id ∉ s.log
    ∧ .released c.id false ∉ s.log
  /-- a client that was idle was healthy when it was handed out -/
  reused : ∀ id healthy ready, .reused id healthy ready ∈ s.log → healthy = true ∧ ready = true

end Pool

end ProtocolProxy
