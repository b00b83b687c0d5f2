import ProtocolProxy.Endpoint
import ProtocolProxy.Machine

/-!
# The connections of a TCP adapter

`TcpAdapter::get_connection` and `TcpAdapter::close_connection`
(`rust/crates/utopia-proxy/src/adapter/tcp.rs`) as the handlers of one listening port call them
(`handle_connection` and `run_client` in `server/tcp/server.rs`), each in its own order and in any
order among them.

A handler's socket is open until `run_client` returns.  A backend's socket is open as long as a
handler or the map holds it.  The kernel gives a new socket any number that is not open.

The sockmap side of `close_connection` is left out: it touches nothing here.
-/

namespace ProtocolProxy

namespace Connections

/-- A backend connection.  `dialedFor` is the handler that dialed it, which nothing reads. -/
structure TcpClient where
  fd : RawFd
  dialedFor : ℕ
  deriving DecidableEq

/-- How connecting to a backend ends. -/
inductive Connect
  | timeout
  | failed (e : String)
  | noNodelay (e : String)
  | connected (fd : RawFd)

/-- The part of `get_connection` after the lookup, up to the backend's descriptor. -/
def dial (port : UInt16) (route : Except ResolverError ConnectionResult) (connect : Connect) :
    Except ProxyError RawFd :=
  match route with
  | .error e => .error (.resolver e)
  | .ok result =>
    let (host, port) := parseEndpoint result.endpoint port
    let address := String.ofList (host ++ ':' :: portText port)
    match connect with
    | .timeout => .error (.backendConnect ("Timeout connecting to backend: " ++ address))
    | .failed e =>
      .error (.backendConnect ("Failed to connect to backend: " ++ address ++ ": " ++ e))
    | .noNodelay e => .error (.backendConnect ("set_nodelay failed: " ++ e))
    | .connected fd => .ok fd

inductive Stage
  /-- before `get_connection` -/
  | accepted
  /-- in `get_connection`, which found no entry -/
  | dialing
  /-- in `get_connection`, about to store the backend -/
  | dialed (client : TcpClient)
  /-- `get_connection` has returned -/
  | running
  /-- `run_client` has returned -/
  | closed
  /-- `close_connection` has returned -/
  | done
  deriving DecidableEq

/-- A handler, with what its call of `get_connection` returned. -/
structure Handler where
  fd : RawFd
  stage : Stage
  got : Option (Except ProxyError TcpClient)

def Handler.socketOpen (h : Handler) : Bool :=
  match h.stage with
  | .closed | .done => false
  | _ => true

/-- The backend a handler holds. -/
def Handler.holds (h : Handler) : Option TcpClient :=
  match h.stage, h.got with
  | .dialed c, _ => some c
  | .running, some (.ok c) => some c
  | _, _ => none

/-- The backend a handler got, until it has called `close_connection`. -/
def Handler.serving (h : Handler) : Option TcpClient :=
  match h.stage, h.got with
  | .running, some (.ok c) => some c
  | .closed, some (.ok c) => some c
  | _, _ => none

structure State where
  handlers : List Handler
  connections : AList fun _ : RawFd => TcpClient

def new : State := ⟨[], ∅⟩

/-- Whether a descriptor is in use. -/
def State.isOpen (s : State) (fd : RawFd) : Bool :=
  s.handlers.any (fun h => (h.socketOpen && h.fd == fd) || h.holds.any (·.fd == fd))
    || s.connections.entries.any (·.2.fd == fd)

def State.put (s : State) (i : ℕ) (h : Handler) : State := { s with handlers := s.handlers.set i h }

/-- A handler's step. -/
inductive Move
  | lookup
  | connect (route : Except ResolverError ConnectionResult) (connect : Connect)
  | insert
  | close
  | closeConnection

inductive Action
  | accept (fd : RawFd)
  | resume (i : ℕ) (move : Move)

/-- The next step of handler `i`, which is `h`. -/
def State.resume (port : UInt16) (s : State) (i : ℕ) (h : Handler) : Move → Option State
  | .lookup =>
    if h.stage = .accepted then
      match s.connections.lookup h.fd with
      | some existing => some (s.put i { h with stage := .running, got := some (.ok existing) })
      | none => some (s.put i { h with stage := .dialing })
    else none
  | .connect route connect =>
    if h.stage = .dialing then
      match dial port route connect with
      | .error e => some (s.put i { h with stage := .running, got := some (.error e) })
      | .ok fd => if s.isOpen fd then none else some (s.put i { h with stage := .dialed ⟨fd, i⟩ })
    else none
  | .insert =>
    match h.stage with
    | .dialed client =>
      some { s.put i { h with stage := .running, got := some (.ok client) } with
        connections := s.connections.insert h.fd client }
    | _ => none
  | .close =>
    if h.stage = .accepted ∨ h.stage = .running then some (s.put i { h with stage := .closed })
    else none
  | .closeConnection =>
    if h.stage = .closed then
      some { s.put i { h with stage := .done } with connections := s.connections.erase h.fd }
    else none

def step (port : UInt16) (s : State) : Action → Option State
  | .accept fd =>
    if s.isOpen fd then none
    else some { s with handlers := s.handlers ++ [⟨fd, .accepted, none⟩] }
  | .resume i move => s.handlers[i]?.bind fun h => s.resume port i h move

/-! ## Whose backends the handlers get -/

/-- Every backend a handler got was dialed for it, and is what the map has for the handler's
descriptor until the handler has called `close_connection`. -/
structure Owned (s : State) : Prop where
  got : ∀ (i : ℕ) (h : Handler) (c : TcpClient), s.handlers[i]? = some h → h.got = some (.ok c) →
    c.dialedFor = i
  kept : ∀ (i : ℕ) (h : Handler) (c : TcpClient), s.handlers[i]? = some h → h.serving = some c →
    s.connections.lookup h.fd = some c

/-- No other handler that was given the same number as `h` is between its successful
`get_connection` and its `close_connection`. -/
def Alone (s : State) (i : ℕ) (h : Handler) : Prop :=
  ∀ (j : ℕ) (h' : Handler), j ≠ i → s.handlers[j]? = some h' → h'.fd = h.fd → h'.serving = none

/-- The handler that looks up or removes its entry is alone with its number. -/
def Exclusive (s : State) : Action → Prop
  | .resume i .lookup | .resume i .closeConnection => ∀ h, s.handlers[i]? = some h → Alone s i h
  | _ => True

end Connections

end ProtocolProxy
