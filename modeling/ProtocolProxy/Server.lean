import ProtocolProxy.Connections
import ProtocolProxy.Handler
import ProtocolProxy.Route
import ProtocolProxy.Smtp

/-!
# The servers over their adapter

Each server of `rust/crates/utopia-proxy/src/server` has the clients of one listener share one
`Adapter`: a client's first packet, the domain of its `EHLO` or its `Host` header is routed, and
what the route returns is dialed.  Here the machines for the clients (`Connections`, `Smtp`,
`Pools`) and the one for the adapter (`Route`) run together, every step of any of them at any time.

`Served` is what the three have in common: an adapter with its calls, and the connections that are
made with what the calls return.  The servers differ in what they route, in the port they take where
the endpoint has none, and in who dials.
-/

namespace ProtocolProxy

/-- A connection that is made for what was routed. -/
structure Dial where
  data : Bytes
  host : Text
  port : UInt16
  deriving DecidableEq

namespace Served

structure State where
  adapter : Route.State
  dials : List Dial

def new : State := ⟨Route.new, []⟩

/-- What is dialed after a call has returned, if it returned an endpoint. -/
def dialOf (defaultPort : UInt16) (c : Route.Call) : Option Dial :=
  match c.pc with
  | .returned (.ok result) =>
    let (host, port) := parseEndpoint result.endpoint defaultPort
    some ⟨c.data, host, port⟩
  | _ => none

inductive Action
  | adapter (a : Route.Action)
  | dial (call : ℕ)

def step (A : Route.Adapter) (defaultPort : UInt16) (s : State) : Action → Option State
  | .adapter a => (Route.step A s.adapter a).map fun adapter => { s with adapter := adapter }
  | .dial call =>
    (s.adapter.calls[call]?.bind (dialOf defaultPort)).map fun dial =>
      { s with dials := s.dials ++ [dial] }

/-- What a connection rests on.  A resolver or a callback gave an endpoint for what was routed, and
`validate` accepted it: its address is not blocked.  The connection goes where `parse_endpoint` says
for that address, which is the address itself if it is an IPv4 one. -/
def Checked (log : List Route.Event) (defaultPort : UInt16) (d : Dial) : Prop :=
  ∃ i raw env ip port, .obtained i d.data raw ∈ log
    ∧ validate env raw = .ok (addressText ip port) ∧ isBlockedIp ip = false
    ∧ parseEndpoint (addressText ip port) defaultPort = (d.host, d.port)
    ∧ (ip.isIpv4 = true → d.host = ip.text ∧ d.port = port.getD defaultPort)

end Served

/-! ## The TCP server -/

namespace TcpServer

/-- One listening port.  `routing` has the calls of `route` that the handlers have made.  Nothing
reads `packets`, what they made them with, and `dials`, what they connected to. -/
structure State where
  adapter : Route.State
  connections : Connections.State
  routing : ℕ → Option ℕ
  packets : ℕ → Option Bytes
  dials : List (ℕ × Dial)

def new : State := ⟨Route.new, Connections.new, fun _ => none, fun _ => none, []⟩

inductive Action
  /-- a call of `route` goes on, a setting changes, an entry is evicted or time passes -/
  | adapter (a : Route.Action)
  | accept (fd : RawFd)
  /-- handler `i` calls `get_connection` with what it has read -/
  | getConnection (i : ℕ) (data : Bytes)
  /-- handler `i` has its route and dials -/
  | connect (i : ℕ) (connect : Connections.Connect)
  | insert (i : ℕ)
  | close (i : ℕ)
  | closeConnection (i : ℕ)

variable (A : Route.Adapter) (port : UInt16)

/-- Handler `i` makes a move that is its own. -/
def State.move (s : State) (i : ℕ) (move : Connections.Move) : Option State :=
  (Connections.step port s.connections (.resume i move)).map fun connections =>
    { s with connections := connections }

/-- Handler `i` begins to route `data`. -/
def State.route (s : State) (i : ℕ) (data : Bytes) : Option State :=
  (Route.step A s.adapter (.route data)).map fun adapter =>
    { s with
      adapter := adapter
      routing := Function.update s.routing i (some s.adapter.calls.length)
      packets := Function.update s.packets i (some data) }

/-- Whether handler `i` has found no connection. -/
def State.isDialing (s : State) (i : ℕ) : Bool :=
  s.connections.handlers[i]?.any fun h => h.stage = .dialing

def step (s : State) : Action → Option State
  | .adapter (.route _) => none
  | .adapter a => (Route.step A s.adapter a).map fun adapter => { s with adapter := adapter }
  | .accept fd =>
    (Connections.step port s.connections (.accept fd)).map fun connections =>
      { s with connections := connections }
  | .getConnection i data =>
    (s.move port i .lookup).bind fun s => if s.isDialing i then s.route A i data else some s
  | .connect i connect =>
    (s.routing i).bind fun call => s.adapter.calls[call]?.bind fun c =>
      match c.pc with
      | .returned route =>
        (s.move port i (.connect route connect)).map fun s =>
          { s with dials := s.dials ++ ((Served.dialOf port c).map (i, ·)).toList }
      | _ => none
  | .insert i => s.move port i .insert
  | .close i => s.move port i .close
  | .closeConnection i => s.move port i .closeConnection

end TcpServer

/-! ## The SMTP server -/

namespace SmtpServer

structure State where
  adapter : Route.State
  sessions : List Smtp.State
  routing : ℕ → Option ℕ
  dials : List Dial

def new : State := ⟨Route.new, [], fun _ => none, []⟩

/-- The domain that a session has `handle_helo` route. -/
def routed (x : Smtp.State) : Option Text :=
  match x.pc with
  | .routing _ domain => some domain
  | _ => none

inductive Action
  | adapter (a : Route.Action)
  | accept
  /-- session `i` goes on, other than with its route -/
  | session (i : ℕ) (a : Smtp.Action)
  /-- session `i` has its route and dials -/
  | connect (i : ℕ)

variable (A : Route.Adapter)

/-- Session `i` is in a new state, and begins to route if it has come to that. -/
def State.put (s : State) (i : ℕ) (x x' : Smtp.State) : Option State :=
  let s := { s with sessions := s.sessions.set i x' }
  match routed x, routed x' with
  | none, some domain =>
    (Route.step A s.adapter (.route (asBytes domain))).map fun adapter =>
      { s with
        adapter := adapter
        routing := Function.update s.routing i (some s.adapter.calls.length) }
  | _, _ => some s

def step (s : State) : Action → Option State
  | .adapter (.route _) => none
  | .adapter a => (Route.step A s.adapter a).map fun adapter => { s with adapter := adapter }
  | .accept => some { s with sessions := s.sessions ++ [Smtp.new] }
  | .session _ (.input (.routed _)) => none
  | .session i a =>
    s.sessions[i]?.bind fun x => (Smtp.step x a).bind fun x' => s.put A i x x'
  | .connect i =>
    (s.routing i).bind fun call => s.adapter.calls[call]?.bind fun c =>
      s.sessions[i]?.bind fun x =>
        match c.pc with
        | .returned route =>
          (Smtp.step x (.input (.routed route))).map fun x' =>
            { s with
              sessions := s.sessions.set i x'
              dials := s.dials ++ (Served.dialOf Smtp.defaultPort c).toList }
        | _ => none

end SmtpServer

/-! ## A worker of the HTTP server -/

namespace HttpWorker

inductive Stage
  /-- in `adapter.route` -/
  | routing (call : ℕ)
  /-- in `forward_request` -/
  | pooled (call : ℕ)
  /-- in `forward_raw_request`, on a connection of its own -/
  | raw (authority : Text)
  /-- answered by the handler itself -/
  | answered
  deriving DecidableEq

structure State where
  adapter : Route.State
  pools : Pools.State
  requests : List (Http.Request × Stage)
  dials : List Dial

def new : State := ⟨Route.new, Pools.new, [], []⟩

inductive Action
  | adapter (a : Route.Action)
  | pools (a : Pools.Action)
  /-- a request comes in -/
  | handle (request : Http.Request)
  /-- request `i` has its route -/
  | forward (i : ℕ)

section

variable (A : Route.Adapter) (config : Http.Config)

/-- Whether a request takes the raw way. -/
def takesRaw (request : Http.Request) : Bool :=
  config.rawBackend && (request.method = .get ∨ request.method = .head)

/-- `handle` after the route: request `i` is forwarded to an endpoint. -/
def State.forward (s : State) (i : ℕ) (request : Http.Request) (endpoint : Text) : Option State :=
  if takesRaw config request then
    some { s with requests := s.requests.set i (request, .raw (Pools.authority endpoint)) }
  else
    (Pools.step config.poolSize s.pools (.forward endpoint)).map fun pools =>
      { s with
        pools := pools
        requests := s.requests.set i (request, .pooled s.pools.calls.length) }

/-- `handle` without a request handler or a direct response, up to the route. -/
def State.handle (s : State) (request : Http.Request) : Option State :=
  match config.fixedBackend with
  | some endpoint =>
    State.forward config { s with requests := s.requests ++ [(request, .answered)] }
      s.requests.length request endpoint
  | none =>
    match Http.extractHost request with
    | .ok (.ok host) =>
      (Route.step A s.adapter (.route (asBytes host))).map fun adapter =>
        { s with
          adapter := adapter
          requests := s.requests ++ [(request, .routing s.adapter.calls.length)] }
    | _ => some { s with requests := s.requests ++ [(request, .answered)] }

def step (s : State) : Action → Option State
  | .adapter (.route _) => none
  | .adapter a => (Route.step A s.adapter a).map fun adapter => { s with adapter := adapter }
  | .pools (.forward _) => none
  | .pools a =>
    (Pools.step config.poolSize s.pools a).map fun pools => { s with pools := pools }
  | .handle request => s.handle A config request
  | .forward i =>
    match s.requests[i]? with
    | some (request, .routing call) =>
      s.adapter.calls[call]?.bind fun c =>
        match c.pc with
        | .returned (.ok result) =>
          (s.forward config i request result.endpoint).map fun s =>
            { s with dials := s.dials ++ (Served.dialOf 80 c).toList }
        | .returned (.error _) =>
          some { s with requests := s.requests.set i (request, .answered) }
        | _ => none
    | _ => none

end

/-- The address that request `i` is connected to, if it has a connection. -/
def State.connectedTo (s : State) (i : ℕ) : Option Text :=
  match s.requests[i]? with
  | some (_, .raw authority) => some authority
  | some (_, .pooled call) =>
    match s.pools.calls[call]? with
    | some (.pooled _ p task) =>
      match s.pools.pools[p]?.bind fun pool => pool.tasks[task]? with
      | some (.holding _ client) => some client.endpoint
      | _ => none
    | _ => none
  | _ => none

end HttpWorker

end ProtocolProxy
