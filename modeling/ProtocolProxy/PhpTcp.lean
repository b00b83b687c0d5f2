import ProtocolProxy.Machine
import ProtocolProxy.Resolver

/-!
# One client of the PHP TCP server

`onReceive` and `onClose` of `src/Server/TCP/Swoole.php` for one descriptor, with `getConnection`,
`connect`, `activateSockmap` and `closeConnection` of `src/Adapter/TCP.php`.

Swoole starts a coroutine for every packet, in the order of arrival.  It runs until it yields: in
`route`, in `connect` and in `send`.  The server keeps a `Connection` for the descriptor and the
adapter keeps a client of its own, and both are written only after the dial.

The direction from the backend to the client is left out, but for `forward` closing the client when
it cannot export the backend's socket.
-/

namespace ProtocolProxy

namespace PhpTcp

/-- What the server is set up with: whether there is an adapter for the port, and the adapter's
`initialDataTransformer`, which may return something that is not a string.  `ρ` is what a route
gives. -/
structure Setup (ρ : Type) where
  registered : Bool
  transformer : Option (Bytes → ρ → Option Bytes)

variable {ρ : Type}

def Setup.transformInitialData (u : Setup ρ) (data : Bytes) (result : ρ) : Option Bytes :=
  match u.transformer with
  | none => some data
  | some transform => transform data result

/-- Where a packet's coroutine has yielded.  Backends are numbered in the order they are dialed. -/
inductive Pc
  | routing (data : Bytes)
  | dialing (k : ℕ) (data initialData : Bytes)
  /-- before `send` of what `getInitialData` gave -/
  | sendingFirst (k : ℕ) (data : Bytes)
  /-- before `send` on the fast path -/
  | sending (k : ℕ) (data : Bytes)
  | done
  deriving DecidableEq, Repr

structure Connection where
  backend : Option ℕ
  deriving DecidableEq, Repr

/-- `connection` is the server's entry for the descriptor, `client` and `initialData` are the
adapter's.  `closing` says that the server has closed the client, `gone` that `onClose` has run.
Nothing reads the rest: the packets that have arrived, the route of the first one, and what was sent
to which backend. -/
structure State (ρ : Type) where
  connection : Option Connection
  client : Option ℕ
  initialData : Option Bytes
  sockmapActive : Bool
  closing : Bool
  gone : Bool
  tasks : List Pc
  dialed : ℕ
  arrived : List Bytes
  result : Option ρ
  sent : List (ℕ × Bytes)
  deriving DecidableEq, Repr

def new : State ρ := ⟨none, none, none, false, false, false, [], 0, [], none, []⟩

def State.start (s : State ρ) (pc : Pc) : State ρ := { s with tasks := s.tasks ++ [pc] }

def State.put (s : State ρ) (i : ℕ) (pc : Pc) : State ρ := { s with tasks := s.tasks.set i pc }

/-- `$server->close($fd)`. -/
def State.close (s : State ρ) : State ρ := { s with closing := true }

/-- What `onReceive` does before it yields. -/
def State.receive (u : Setup ρ) (s : State ρ) (data : Bytes) : State ρ :=
  let s := { s with arrived := s.arrived ++ [data] }
  match s.connection with
  | some ⟨some k⟩ =>
    if u.registered && s.sockmapActive then s.start .done else s.start (.sending k data)
  | _ =>
    let s := { s with connection := some (s.connection.getD ⟨none⟩) }
    if !u.registered then (s.start .done).close
    else
      match s.client with
      | some k =>
        { s with connection := some ⟨some k⟩ }.start (.sendingFirst k (s.initialData.getD data))
      | none => s.start (.routing data)

/-- `getConnection` returns client `k`, and the initial data is about to be sent to it. -/
def State.backed (s : State ρ) (i k : ℕ) (data : Bytes) : State ρ :=
  { s with connection := some ⟨some k⟩ }.put i (.sendingFirst k (s.initialData.getD data))

/-- What a coroutine resumes with. -/
inductive Input (ρ : Type)
  | routed (result : Option ρ)
  | connected (ok : Bool)
  /-- `activated`: the sockmap takes the pair; `exported`: `forward` gets the backend's socket -/
  | wrote (ok activated exported : Bool)
  deriving DecidableEq, Repr

/-- The coroutine of packet `i`, which is at `pc`, goes on. -/
def State.resume (u : Setup ρ) (s : State ρ) (i : ℕ) (pc : Pc) (input : Input ρ) :
    Option (State ρ) :=
  match pc, input with
  | .routing _, .routed none => some (s.put i .done).close
  | .routing data, .routed (some result) =>
    let s := if i = 0 then { s with result := some result } else s
    match u.transformInitialData data result with
    | none => some (s.put i .done).close
    | some initialData =>
      match s.client with
      | some k => some (s.backed i k data)
      | none => some { s.put i (.dialing s.dialed data initialData) with dialed := s.dialed + 1 }
  | .dialing k data initialData, .connected ok =>
    if ok then some ({ s with client := some k, initialData := some initialData }.backed i k data)
    else some (s.put i .done).close
  | .sendingFirst k data, .wrote ok activated exported =>
    -- the result of this send is not looked at
    let s := { s.put i .done with sent := if ok then s.sent ++ [(k, data)] else s.sent }
    if activated && s.client.isSome then some { s with sockmapActive := true }
    else if exported then some s
    else some s.close
  | .sending k data, .wrote ok _ _ =>
    if ok then some { s.put i .done with sent := s.sent ++ [(k, data)] }
    else some (s.put i .done).close
  | _, _ => none

/-- `onClose` and `closeConnection`. -/
def State.onClose (u : Setup ρ) (s : State ρ) : State ρ :=
  let s := { s with closing := true, gone := true }
  match s.connection with
  | none => s
  | some _ =>
    let s := { s with connection := none }
    if u.registered && s.client.isSome then
      { s with client := none, initialData := none, sockmapActive := false }
    else s

inductive Action (ρ : Type)
  | receive (data : Bytes)
  | resume (i : ℕ) (input : Input ρ)
  | onClose
  deriving DecidableEq, Repr

/-- What happens up to `onClose`.  A client that the server has closed sends nothing more. -/
def step (u : Setup ρ) (s : State ρ) (a : Action ρ) : Option (State ρ) :=
  if s.gone then none
  else
    match a with
    | .receive data => if s.closing then none else some (s.receive u data)
    | .resume i input => s.tasks[i]?.bind fun pc => s.resume u i pc input
    | .onClose => some (s.onClose u)

/-! ## One ordered stream -/

/-- What the packets are to be sent as: the first one after `transformInitialData`. -/
def expected (u : Setup ρ) (result : Option ρ) : List Bytes → List Bytes
  | [] => []
  | data :: rest => (result.bind (u.transformInitialData data)).getD data :: rest

/-- At most one backend is dialed and sent anything.  Unless the client is closed, it is sent the
packets in order, and a coroutine that is done has sent its packet. -/
def OneStream (u : Setup ρ) (s : State ρ) : Prop :=
  s.dialed ≤ 1 ∧ (∀ x ∈ s.sent, x.1 = 0)
    ∧ (s.closing ∨ ∃ n, s.sent.map Prod.snd = (expected u s.result s.arrived).take n
      ∧ ∀ i, s.tasks[i]? = some .done → i < n)

/-- A packet after the first one arrives when the connection has its backend and the sockmap is not
active, coroutines go on in the order of their packets, and the first packet's send succeeds. -/
def InTurn (s : State ρ) : Action ρ → Prop
  | .receive _ => s.tasks = [] ∨ (∃ k, s.connection = some ⟨some k⟩) ∧ s.sockmapActive = false
  | .resume i input => (∀ j < i, s.tasks[j]? = some .done)
      ∧ ∀ k data ok activated exported, s.tasks[i]? = some (.sendingFirst k data) →
        input = .wrote ok activated exported → ok = true
  | .onClose => True

/-! ## After `onClose` -/

/-- What happens at all.  Swoole calls neither `onReceive` nor `onClose` again, but the packets'
coroutines go on, with a `Connection` that the server no longer has. -/
def stepOn (u : Setup ρ) (s : State ρ) (a : Action ρ) : Option (State ρ) :=
  if s.gone then
    match a with
    | .resume i input =>
      (s.tasks[i]?.bind fun pc => s.resume u i pc input).map ({ · with connection := none })
    | _ => none
  else step u s a

/-- Neither the server nor the adapter has anything for the descriptor. -/
def State.Forgotten (s : State ρ) : Prop :=
  s.connection = none ∧ s.client = none ∧ s.initialData = none ∧ s.sockmapActive = false

/-- The action is not a dial that succeeds after `onClose`. -/
def InTime (s : State ρ) (a : Action ρ) : Prop :=
  s.gone = true → ∀ i, a ≠ .resume i (.connected true)

end PhpTcp

end ProtocolProxy
