import ProtocolProxy.PhpDuplex

/-!
# The PHP coroutine server

`handleConnection` of `src/Server/TCP/Swoole/Coroutine.php` for any number of clients of one port,
over one adapter (`getConnection`, `connect` and `closeConnection` of `src/Adapter/TCP.php`).  The
adapter keeps its connections under the clients' object ids.  PHP gives an id to a new object as
soon as no object has it, and a client's object lives until its coroutine has returned.

`getConnection` looks into the table before the route and again after it, and writes it after the
dial.
-/

namespace ProtocolProxy

namespace PhpSessions

/-- How far `getConnection` is. -/
inductive Get
  | looking
  | routing
  | dialing
  deriving DecidableEq, Repr

/-- A client with its object id.  `got` is the client whose connection it was given, which nothing
reads. -/
structure Session where
  id : ℕ
  duplex : PhpDuplex.State
  get : Get
  got : Option ℕ

def Session.isLive (x : Session) : Bool := x.duplex.main ≠ .returned

/-- `adapter` has the clients whose connections the adapter keeps under the ids.  `connections` is
the server's counter. -/
structure State where
  sessions : List Session
  adapter : ℕ → Option ℕ
  connections : ℕ

def new : State := ⟨[], fun _ => none, 0⟩

/-- Client `i` goes on.  The adapter's table and the counter follow what it does. -/
def State.put (s : State) (i : ℕ) (x x' : Session) : State where
  sessions := s.sessions.set i x'
  adapter :=
    if x.duplex.entry = x'.duplex.entry then s.adapter
    else Function.update s.adapter x.id (if x'.duplex.entry then some i else none)
  connections := if x.isLive && !x'.isLive then s.connections - 1 else s.connections

inductive Action
  | accept (id : ℕ) (fromClient fromBackend : Bytes)
  /-- client `i` calls `getConnection` -/
  | get (i : ℕ)
  | routed (i : ℕ) (ok : Bool)
  | dialed (i : ℕ) (ok : Bool)
  /-- client `i` goes on outside of `getConnection` -/
  | session (i : ℕ) (a : PhpDuplex.Action)
  deriving DecidableEq, Repr

section

variable (bufferSize : ℕ)

/-- Client `i` looks into the adapter's table: it takes what is there or goes on. -/
def State.lookup (s : State) (i : ℕ) (x : Session) (next : Get) : Option State :=
  match s.adapter x.id with
  | some j =>
    (PhpDuplex.step bufferSize x.duplex (.main (.connected true))).map fun duplex =>
      { s with sessions := s.sessions.set i { x with duplex := duplex, got := some j } }
  | none => some { s with sessions := s.sessions.set i { x with get := next } }

/-- `getConnection` throws, or returns a connection of its own. -/
def State.connected (s : State) (i : ℕ) (x : Session) (ok : Bool) : Option State :=
  (PhpDuplex.step bufferSize x.duplex (.main (.connected ok))).map fun duplex =>
    s.put i x { x with duplex := duplex, got := if ok then some i else none }

/-- Whether a client is in `getConnection`. -/
def Session.isConnecting (x : Session) : Bool :=
  match x.duplex.main with
  | .connecting _ => true
  | _ => false

def step (s : State) : Action → Option State
  | .accept id fromClient fromBackend =>
    if s.sessions.any fun x => x.isLive && x.id = id then none
    else
      some { s with
        sessions := s.sessions ++ [⟨id, PhpDuplex.new fromClient fromBackend, .looking, none⟩]
        connections := s.connections + 1 }
  | .get i =>
    s.sessions[i]?.bind fun x =>
      if x.isConnecting && x.get = .looking then s.lookup bufferSize i x .routing else none
  | .routed i ok =>
    s.sessions[i]?.bind fun x =>
      if x.isConnecting && x.get = .routing then
        if ok then s.lookup bufferSize i x .dialing else s.connected bufferSize i x false
      else none
  | .dialed i ok =>
    s.sessions[i]?.bind fun x =>
      if x.isConnecting && x.get = .dialing then s.connected bufferSize i x ok else none
  | .session i a =>
    s.sessions[i]?.bind fun x =>
      if x.isConnecting then none
      else
        (PhpDuplex.step bufferSize x.duplex a).map fun duplex =>
          s.put i x { x with duplex := duplex }

end

end PhpSessions

end ProtocolProxy
