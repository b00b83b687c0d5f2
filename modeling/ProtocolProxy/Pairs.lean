import ProtocolProxy.Machine
import ProtocolProxy.Sockmap

/-!
# The sockmap's pairs and who keeps track of them

`TcpAdapter::get_connection`, `activate_sockmap` and `close_connection`
(`rust/crates/utopia-proxy/src/adapter/tcp.rs`) on any number of adapters that share one `Sockmap`
(`sockmap/mod.rs`, `sockmap/linux.rs`).  Each adapter has its `connections` and its `sockmap_pairs`,
the loader has `allocated_pairs`, and the kernel has `peers`.

A call is cut where it touches one of these maps, and the calls for different clients are mixed in
any order.  `Sockmap::insert_pair` and `remove_pair` hold the lock from their first access to their
last, so each is one step.  The calls for one client are made one after the other, by the adapter
that accepted it, and a client is not activated again before it is closed.

As in `handle_connection` (`server/tcp/server.rs`), the client's socket is closed when `run_client`
returns, and `close_connection` is called after that.  In between the number of its descriptor is
free, but no other client is given it before `close_connection` has returned.

Whether the sockmap could be loaded does not change while the adapters run.  The object the loader
holds has the map that `remove_pair` looks up, since it was found when the object was loaded.
-/

namespace ProtocolProxy

namespace Pairs

open Sockmap

structure Adapter where
  connections : RawFd → Option RawFd
  sockmapPairs : RawFd → Option RawFd

/-- Where the calls for a client are. -/
inductive Call
  /-- in no call -/
  | idle
  /-- in `get_connection`, which found no entry -/
  | dialing
  /-- in `get_connection`, connected and about to store the backend -/
  | dialed (backend : RawFd)
  /-- in `activate_sockmap`, before `insert_pair` -/
  | inserting (backend : RawFd)
  /-- in `activate_sockmap`, after an `insert_pair` that returned true -/
  | inserted (backend : RawFd)
  /-- in `close_connection`, before `remove_pair` -/
  | unpairing (backend : RawFd)
  /-- in `close_connection`, before the connection is removed -/
  | disconnecting
  deriving DecidableEq

/-- An accepted client, until its `close_connection` has returned.  `activated` is set from the
`activate_sockmap` that returns true to `close_connection`. -/
structure Client (ι : Type*) where
  adapter : ι
  sock : Socket
  /-- whether `run_client` has returned, and the socket is closed -/
  closed : Bool
  call : Call
  activated : Bool

/-- `fds` are the open sockets, `released` the backends among them that `close_connection` has
removed but that are still to be closed. -/
structure State (ι : Type*) where
  fds : Fds
  clients : RawFd → Option (Client ι)
  released : RawFd → Bool
  adapters : ι → Adapter
  available : Bool
  inner : Inner

variable {ι : Type*}

def new (available : Bool) : State ι where
  fds := fun _ => none
  clients := fun _ => none
  released := fun _ => false
  adapters := fun _ => ⟨fun _ => none, fun _ => none⟩
  available := available
  inner := ⟨fun _ => none, fun _ => none⟩

def State.conn (s : State ι) (i : ι) (c : RawFd) : Option RawFd := (s.adapters i).connections c

def State.pair (s : State ι) (i : ι) (c : RawFd) : Option RawFd := (s.adapters i).sockmapPairs c

def State.put (s : State ι) (c : RawFd) (x : Client ι) : State ι :=
  { s with clients := Function.update s.clients c (some x) }

def State.forget (s : State ι) (c : RawFd) : State ι :=
  { s with clients := Function.update s.clients c none }

variable [DecidableEq ι]

def State.setConn (s : State ι) (i : ι) (c : RawFd) (v : Option RawFd) : State ι :=
  let a := s.adapters i
  { s with
    adapters := Function.update s.adapters i
      ⟨Function.update a.connections c v, a.sockmapPairs⟩ }

def State.setPair (s : State ι) (i : ι) (c : RawFd) (v : Option RawFd) : State ι :=
  let a := s.adapters i
  { s with
    adapters := Function.update s.adapters i
      ⟨a.connections, Function.update a.sockmapPairs c v⟩ }

/-- A step of a call. -/
inductive Move
  | getConnection
  /-- The route fails, or the connect fails or times out. -/
  | dialFails
  | dial (backend : RawFd) (sock : Socket)
  | nodelayFails
  | connect
  | activateSockmap
  | insertPair (k : MapAnswers)
  | registerPair
  | closeConnection
  | removePair
  | disconnect

inductive Action (ι : Type*)
  | accept (i : ι) (c : RawFd) (sock : Socket)
  /-- `run_client` returns. -/
  | hangup (c : RawFd)
  | resume (c : RawFd) (move : Move)
  /-- A released backend is closed. -/
  | drop (backend : RawFd)

/-- The next step of the calls for client `c`, which is `x`. -/
def State.resume (s : State ι) (c : RawFd) (x : Client ι) : Move → Option (State ι)
  | .getConnection =>
    if x.call = .idle ∧ x.closed = false then
      match s.conn x.adapter c with
      | some _ => some s
      | none => some (s.put c { x with call := .dialing })
    else none
  | .dialFails => if x.call = .dialing then some (s.put c { x with call := .idle }) else none
  | .dial backend sock =>
    if x.call = .dialing ∧ s.fds backend = none then
      some { s.put c { x with call := .dialed backend } with
        fds := Function.update s.fds backend (some sock) }
    else none
  | .nodelayFails =>
    match x.call with
    | .dialed backend =>
      some { s.put c { x with call := .idle } with fds := Function.update s.fds backend none }
    | _ => none
  | .connect =>
    match x.call with
    | .dialed backend =>
      some ((s.setConn x.adapter c (some backend)).put c { x with call := .idle })
    | _ => none
  | .activateSockmap =>
    if x.call = .idle ∧ x.closed = false ∧ x.activated = false then
      if !s.available then some s
      else
        match s.conn x.adapter c with
        | none => some s
        | some backend =>
          if backend = 0 then some s else some (s.put c { x with call := .inserting backend })
    else none
  | .insertPair k =>
    match x.call with
    | .inserting backend =>
      if !s.available then some (s.put c { x with call := .idle })
      else
        let (inner, ok) := insertPair s.fds s.inner k c backend
        some { s.put c { x with call := if ok then .inserted backend else .idle } with
          inner := inner }
    | _ => none
  | .registerPair =>
    match x.call with
    | .inserted backend =>
      some ((s.setPair x.adapter c (some backend)).put c
        { x with call := .idle, activated := true })
    | _ => none
  | .closeConnection =>
    if x.call = .idle ∧ x.closed = true then
      match s.pair x.adapter c with
      | some backend =>
        some ((s.setPair x.adapter c none).put c
          { x with call := .unpairing backend, activated := false })
      | none => some (s.put c { x with call := .disconnecting, activated := false })
    else none
  | .removePair =>
    match x.call with
    | .unpairing _ =>
      some { s.put c { x with call := .disconnecting } with inner := removePair s.inner true c }
    | _ => none
  | .disconnect =>
    if x.call = .disconnecting then
      match s.conn x.adapter c with
      | some backend =>
        some { (s.setConn x.adapter c none).forget c with
          released := Function.update s.released backend true }
      | none => some (s.forget c)
    else none

def step (s : State ι) : Action ι → Option (State ι)
  | .accept i c sock =>
    if s.fds c = none ∧ s.clients c = none then
      some { s.put c ⟨i, sock, false, .idle, false⟩ with
        fds := Function.update s.fds c (some sock) }
    else none
  | .hangup c =>
    match s.clients c with
    | some x =>
      if x.call = .idle ∧ x.closed = false then
        some { s.put c { x with closed := true } with fds := Function.update s.fds c none }
      else none
    | none => none
  | .resume c move => (s.clients c).bind fun x => s.resume c x move
  | .drop backend =>
    if s.released backend then
      some { s with
        fds := Function.update s.fds backend none
        released := Function.update s.released backend false }
    else none

/-! ## What is assumed of the kernel -/

/-- No open socket has the key of `sock`. -/
def KeyUnused (fds : Fds) (sock : Socket) : Prop :=
  ∀ fd t, fds fd = some t → ∀ key, buildTupleKey t = some key → buildTupleKey sock ≠ some key

/-- Sockets that are open at the same time have different keys, and the entry that was just made can
be deleted.  Whether the map is found by `insert_pair` and whether its updates succeed is open. -/
def Assumed (s : State ι) : Action ι → Prop
  | .accept _ _ sock | .resume _ (.dial _ sock) => KeyUnused s.fds sock
  | .resume _ (.insertPair k) => k.delete = true
  | _ => True

/-- A pair is inserted only when neither its client's socket nor its backend's has the key of
another client whose socket is closed already and whose pair has not been removed. -/
def Vacant (s : State ι) : Action ι → Prop
  | .resume c (.insertPair _) => ∀ x backend, s.clients c = some x → x.call = .inserting backend →
      ∀ d y keys, s.clients d = some y → y.closed = true →
        s.inner.allocatedPairs d = some keys →
          buildTupleKey x.sock ≠ some keys.1
            ∧ ∀ sock, s.fds backend = some sock → buildTupleKey sock ≠ some keys.1
  | _ => True

/-! ## How the four maps go together -/

/-- What the two entries of a client's pair are made of: the client's socket, which may be closed
already, the backend the adapter has for it, the backend's socket, and the keys of the two
sockets. -/
structure Paired (s : State ι) (c : RawFd) (keys : UInt64 × UInt64) (backend : RawFd)
    (sock backendSock : Socket) : Prop where
  allocated : s.inner.allocatedPairs c = some keys
  connected : ∃ i, s.conn i c = some backend
  client : ∃ x, s.clients c = some x ∧ x.sock = sock
  backend : s.fds backend = some backendSock
  selfKey : buildTupleKey sock = some keys.1
  peerKey : buildTupleKey backendSock = some keys.2

/-- The entries of `peers` are those of the pairs in `allocated_pairs`. -/
def PeersExact (s : State ι) : Prop :=
  (∀ c keys, s.inner.allocatedPairs c = some keys →
      ∃ backend sock backendSock, Paired s c keys backend sock backendSock)
    ∧ ∀ key t, s.inner.peers key = some t ↔ ∃ c keys backend sock backendSock,
        Paired s c keys backend sock backendSock
          ∧ (key = keys.1 ∧ t = backendSock ∨ key = keys.2 ∧ t = sock)

/-- No call for `c` is between the two places where its pair is recorded. -/
def Settled (s : State ι) (c : RawFd) : Prop :=
  ∀ x, s.clients c = some x → ∀ backend, x.call ≠ .inserted backend ∧ x.call ≠ .unpairing backend

/-- The four maps. -/
def State.maps (s : State ι) :
    (ι → RawFd → Option RawFd) × (ι → RawFd → Option RawFd) × (RawFd → Option (UInt64 × UInt64))
      × (UInt64 → Option Socket) :=
  (s.conn, s.pair, s.inner.allocatedPairs, s.inner.peers)

/-- The steps of a `get_connection` or an `activate_sockmap` that returns an error or false: the
first one, which may return already, and the one that fails. -/
def Failing (s : State ι) : Action ι → Prop
  | .resume _ .getConnection | .resume _ .dialFails | .resume _ (.dial _ _)
  | .resume _ .nodelayFails | .resume _ .activateSockmap => True
  | .resume c (.insertPair k) => ∀ x backend, s.clients c = some x → x.call = .inserting backend →
      s.available = false ∨ (insertPair s.fds s.inner k c backend).2 = false
  | _ => False

/-- The client is in no map, and the entries of `peers` are those of other clients. -/
def Gone (s : State ι) (c : RawFd) : Prop :=
  (∀ i, s.conn i c = none ∧ s.pair i c = none) ∧ s.inner.allocatedPairs c = none
    ∧ ∀ key t, s.inner.peers key = some t → ∃ d keys, d ≠ c
      ∧ s.inner.allocatedPairs d = some keys ∧ (key = keys.1 ∨ key = keys.2)

end Pairs

end ProtocolProxy
