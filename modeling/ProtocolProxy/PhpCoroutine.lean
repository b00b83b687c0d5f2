import ProtocolProxy.PhpTcp

/-!
# One client of the PHP coroutine TCP server

`handleConnectionData` of `src/Server/TCP/Swoole/Coroutine.php` without a connection handler, over
the same adapter as the event-driven server: one coroutine reads the client's packets and sends them
to the backend one by one.  The id it passes to the adapter is that of an object in use, so the
adapter knows no client under it at first.

The direction from the backend to the client is left out.  Its end closes the client's socket, after
which `recv` returns false.
-/

namespace ProtocolProxy

namespace PhpTcp

variable {ρ : Type}

/-- The packets were sent as they are to be, as far as they have been sent. -/
def Forwards (u : Setup ρ) (result : Option ρ) (arrived sent : List Bytes) : Prop :=
  sent <+: expected u result arrived

/-- A send succeeds only if every packet before it has been sent: a connection on which a send has
failed takes nothing more. -/
def Unbroken (s : State ρ) : Action ρ → Prop
  | .resume i (.wrote true _ _) => s.sent.length = i
  | _ => True

namespace Coroutine

/-- Where the coroutine has yielded. -/
inductive Pc
  /-- in the first `recv` -/
  | receiving
  | routing (data : Bytes)
  | dialing (data initialData : Bytes)
  /-- in the `sendAll` after `getConnection` -/
  | sendingFirst (data : Bytes)
  /-- in the `recv` of the loop -/
  | reading
  /-- in the `sendAll` of the loop -/
  | sending (data : Bytes)
  | done
  deriving DecidableEq, Repr

/-- `client` and `initialData` are the adapter's.  Nothing reads `arrived`, `result` and `sent`. -/
structure State (ρ : Type) where
  client : Bool
  initialData : Option Bytes
  pc : Pc
  arrived : List Bytes
  result : Option ρ
  sent : List Bytes
  deriving DecidableEq, Repr

def new : State ρ := ⟨false, none, .receiving, [], none, []⟩

inductive Input (ρ : Type)
  /-- none stands for false -/
  | received (data : Option Bytes)
  | routed (result : Option ρ)
  | connected (ok : Bool)
  | wrote (ok : Bool)
  deriving DecidableEq, Repr

/-- `closeConnection`. -/
def State.closeConnection (s : State ρ) : State ρ :=
  if s.client then { s with client := false, initialData := none } else s

/-- A packet is read, and the coroutine goes on at `pc`. -/
def State.got (s : State ρ) (data : Bytes) (pc : Pc) : State ρ :=
  { s with arrived := s.arrived ++ [data], pc := pc }

/-- A packet is sent, and the next one is read. -/
def State.put (s : State ρ) (data : Bytes) : State ρ :=
  { s with sent := s.sent ++ [data], pc := .reading }

def step (u : Setup ρ) (s : State ρ) (input : Input ρ) : Option (State ρ) :=
  match s.pc, input with
  | .receiving, .received none => some { s with pc := .done }
  | .receiving, .received (some data) =>
    if data.isEmpty then some { s with pc := .done }
    else some (s.got data (if s.client then .sendingFirst data else .routing data))
  | .routing _, .routed none => some { s with pc := .done }
  | .routing data, .routed (some result) =>
    match u.transformInitialData data result with
    | none => some { s with result := some result, pc := .done }
    | some initialData => some { s with result := some result, pc := .dialing data initialData }
  | .dialing data initialData, .connected ok =>
    if ok then
      some { s with client := true, initialData := some initialData, pc := .sendingFirst data }
    else some { s with pc := .done }
  | .sendingFirst data, .wrote ok =>
    if ok then some (s.put data) else some { s.closeConnection with pc := .done }
  | .reading, .received none => some { s.closeConnection with pc := .done }
  | .reading, .received (some data) =>
    if data.isEmpty then some { s.closeConnection with pc := .done }
    else some (s.got data (.sending data))
  | .sending data, .wrote ok =>
    if ok then some (s.put data) else some { s.closeConnection with pc := .done }
  | _, _ => none

end Coroutine

/-! ## Both servers -/

/-- The event-driven server forwards a client whose first packet is `packet`, routed to `result`, to
one backend, in every run that is in turn. -/
def EventForwards (u : Setup ρ) (packet : Bytes) (result : ρ) : Prop :=
  ∀ as s, Machine.EachStep (step u) (fun s a => InTurn s a ∧ Unbroken s a) new as →
    Machine.run (step u) new as = some s → s.arrived.head? = some packet →
    s.result = some result →
      (∀ x ∈ s.sent, x.1 = 0) ∧ Forwards u s.result s.arrived (s.sent.map Prod.snd)

/-- So does the coroutine server, in every run. -/
def CoroutineForwards (u : Setup ρ) (packet : Bytes) (result : ρ) : Prop :=
  ∀ inputs s, Machine.run (Coroutine.step u) Coroutine.new inputs = some s →
    s.arrived.head? = some packet → s.result = some result →
      Forwards u s.result s.arrived s.sent

end PhpTcp

end ProtocolProxy
