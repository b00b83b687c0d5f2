import ProtocolProxy.Machine
import ProtocolProxy.Resolver
import ProtocolProxy.Stream

/-!
# A session of the PHP coroutine server

`handleConnectionData` of `src/Server/TCP/Swoole/Coroutine.php` without a connection handler, for
one client, in both directions.  The coroutine that was started for the client reads from the client
and sends to the backend; after the dial it starts another one for the way back.  They share the two
sockets and a channel, on which the second one says that it has ended.

A socket that is closed gives false to whoever reads from it or writes to it, also if they were
waiting already.  What a call comes to otherwise is part of the action: how many bytes `recv` gives
or `sendAll` gets rid of, that the peer has ended, or that the call fails.

A `sendAll` that stops after it has written something, because of an error, the write timeout of the
backend's socket or a socket that is closed under it, does not give false but the length of what it
has written.  Both loops compare with false only, so they go on with the next packet.
-/

namespace ProtocolProxy

namespace PhpDuplex

/-! ## Sockets -/

/-- A connection to a peer.  `sent` is all that the peer sends, of which some is still `pending` and
some has come and was not received.  `eof` says that the peer's end has come, `closed` that the
proxy has closed the socket.  `delivered` is what was written to the peer.  Nothing reads `cut`: a
`sendAll` has stopped in the middle of its data and left the socket open. -/
structure Socket where
  sent : Bytes
  pending : Bytes
  inbox : Bytes
  eof : Bool
  closed : Bool
  delivered : Bytes
  cut : Bool
  deriving DecidableEq, Repr

def Socket.new (sent : Bytes) : Socket := ⟨sent, sent, [], false, false, [], false⟩

def Socket.close (x : Socket) : Socket := { x with closed := true }

/-- Some bytes of the peer come. -/
def Socket.arrive (x : Socket) (n : ℕ) : Option Socket :=
  if 0 < n ∧ n ≤ x.pending.length then
    some { x with inbox := x.inbox ++ x.pending.take n, pending := x.pending.drop n }
  else none

/-- The peer's end comes, after everything it has sent. -/
def Socket.fin (x : Socket) : Option Socket :=
  if x.pending = [] ∧ x.eof = false then some { x with eof := true } else none

/-- What a call of `recv` comes to. -/
inductive Read
  | data (n : ℕ)
  | eof
  | closed
  | failed
  deriving DecidableEq, Repr

/-- `recv`, if it comes to this: the bytes and the socket afterwards, or nothing where it gives
false or an empty string. -/
def Socket.recv (bufferSize : ℕ) (x : Socket) : Read → Option (Option (Bytes × Socket))
  | .data n =>
    if x.closed = false ∧ 0 < n ∧ n ≤ bufferSize ∧ n ≤ x.inbox.length then
      some (some (x.inbox.take n, { x with inbox := x.inbox.drop n }))
    else none
  | .eof => if x.closed = false ∧ x.inbox = [] ∧ x.eof = true then some none else none
  | .closed => if x.closed = true then some none else none
  | .failed => if x.closed = false then some none else none

/-- What writing a piece of what `sendAll` was given comes to. -/
inductive Write
  | wrote (n : ℕ)
  | closed
  | failed
  deriving DecidableEq, Repr

/-- A step of `sendAll`, which has written something already if `begun`: what is left to be written
and the socket afterwards, or nothing where it gives false.  If it stops after it has written
something, what is left is dropped. -/
def Socket.send (x : Socket) (begun : Bool) (rest : Bytes) :
    Write → Option (Option (Bytes × Socket))
  | .wrote n =>
    if x.closed = false ∧ 0 < n ∧ n ≤ rest.length then
      some (some (rest.drop n, { x with delivered := x.delivered ++ rest.take n }))
    else none
  | .closed =>
    if x.closed = true then some (if begun then some ([], x) else none) else none
  | .failed =>
    if x.closed = false then some (if begun then some ([], { x with cut := true }) else none)
    else none

/-! ## Sessions -/

/-- Where the coroutine of the client has yielded. -/
inductive Main
  /-- in the first `recv` -/
  | recvFirst
  /-- in `getConnection` -/
  | connecting (data : Bytes)
  /-- in the first `sendAll`, or in that of the loop -/
  | send (first : Bool) (rest : Bytes) (begun : Bool)
  /-- in the `recv` of the loop -/
  | recv
  /-- in `$done->pop(1.0)`, after the first `sendAll` has failed, or in `$done->pop()` -/
  | pop (limited : Bool)
  | returned
  deriving DecidableEq, Repr

/-- Where the coroutine for the way back has yielded. -/
inductive Relay
  | unborn
  | recv
  | send (rest : Bytes) (begun : Bool)
  /-- before `$done->push(true)` -/
  | push
  | returned
  deriving DecidableEq, Repr

/-- `done` says that there is something in the channel, `entry` that the adapter has a connection
for the client.  Nothing reads `failed`: a call has failed that was not on a closed socket. -/
structure State where
  client : Socket
  backend : Socket
  main : Main
  relay : Relay
  done : Bool
  entry : Bool
  failed : Bool
  deriving DecidableEq, Repr

/-- A client and a backend that send this much. -/
def new (fromClient fromBackend : Bytes) : State :=
  ⟨.new fromClient, .new fromBackend, .recvFirst, .unborn, false, false, false⟩

inductive Side
  | client
  | backend
  deriving DecidableEq, Repr

inductive Input
  | read (r : Read)
  | connected (ok : Bool)
  | write (w : Write)
  /-- `pop` gives what was in the channel -/
  | popped
  | timedOut
  | pushed
  deriving DecidableEq, Repr

inductive Action
  | arrive (side : Side) (n : ℕ)
  | fin (side : Side)
  | main (input : Input)
  | relay (input : Input)
  deriving DecidableEq, Repr

/-- `closeConnection`, and the end of the coroutine. -/
def State.closeConnection (s : State) : State := { s with entry := false, main := .returned }

/-- What follows `pop`: the client's socket is closed here if the first `sendAll` failed. -/
def State.afterPop (s : State) (limited : Bool) : State :=
  { s with client := if limited then s.client.close else s.client }.closeConnection

def State.stepMain (bufferSize : ℕ) (s : State) : Main → Input → Option State
  | .recvFirst, .read r =>
    (s.client.recv bufferSize r).map fun
      | none =>
        { s with client := s.client.close, main := .returned, failed := s.failed || r = .failed }
      | some (data, client) => { s with client := client, main := .connecting data }
  | .connecting data, .connected ok =>
    if ok then some { s with entry := true, relay := .recv, main := .send true data false }
    else some { s with client := s.client.close, main := .returned, failed := true }
  | .send first rest begun, .write w =>
    (s.backend.send begun rest w).map fun
      | none =>
        { s with
          backend := s.backend.close
          main := .pop first
          failed := s.failed || w = .failed }
      | some (rest, backend) =>
        { s with
          backend := backend
          main := if rest = [] then .recv else .send first rest true
          failed := s.failed || w = .failed }
  | .recv, .read r =>
    (s.client.recv bufferSize r).map fun
      | none =>
        { s with
          backend := s.backend.close
          main := .pop false
          failed := s.failed || r = .failed }
      | some (data, client) => { s with client := client, main := .send false data false }
  | .pop limited, .popped =>
    if s.done then some ({ s with done := false }.afterPop limited) else none
  | .pop limited, .timedOut => if limited then some (s.afterPop limited) else none
  | _, _ => none

def State.stepRelay (bufferSize : ℕ) (s : State) : Relay → Input → Option State
  | .recv, .read r =>
    (s.backend.recv bufferSize r).map fun
      | none =>
        { s with client := s.client.close, relay := .push, failed := s.failed || r = .failed }
      | some (data, backend) => { s with backend := backend, relay := .send data false }
  | .send rest begun, .write w =>
    (s.client.send begun rest w).map fun
      | none =>
        { s with client := s.client.close, relay := .push, failed := s.failed || w = .failed }
      | some (rest, client) =>
        { s with
          client := client
          relay := if rest = [] then .recv else .send rest true
          failed := s.failed || w = .failed }
  | .push, .pushed => some { s with done := true, relay := .returned }
  | _, _ => none

/-- A backend sends nothing before it is dialed. -/
def step (bufferSize : ℕ) (s : State) : Action → Option State
  | .arrive .client n => (s.client.arrive n).map fun client => { s with client := client }
  | .arrive .backend n =>
    if s.relay = .unborn then none
    else (s.backend.arrive n).map fun backend => { s with backend := backend }
  | .fin .client => s.client.fin.map fun client => { s with client := client }
  | .fin .backend =>
    if s.relay = .unborn then none
    else s.backend.fin.map fun backend => { s with backend := backend }
  | .main input => s.stepMain bufferSize s.main input
  | .relay input => s.stepRelay bufferSize s.relay input

/-- The call fails. -/
def Input.isFailure : Input → Bool
  | .read .failed | .write .failed | .connected false => true
  | _ => false

/-- The steps of the two coroutines, but for calls that fail. -/
def IsOwn : Action → Prop
  | .main input | .relay input => input.isFailure = false
  | _ => False

/-- Both coroutines have returned, or the second one was not started. -/
def State.Returned (s : State) : Prop :=
  s.main = .returned ∧ (s.relay = .unborn ∨ s.relay = .returned)

/-- Neither peer has ended, and whoever has not returned waits for what has not come: the client's
first bytes, or something from either peer. -/
def State.Waits (s : State) : Prop :=
  s.client.eof = false ∧ s.backend.eof = false ∧ s.client.inbox = []
    ∧ (s.main = .recvFirst ∨ s.main = .recv ∧ s.relay = .recv ∧ s.backend.inbox = [])

/-- All that the client sent was written to the backend. -/
def State.ToBackend (s : State) : Prop := s.backend.delivered = s.client.sent

/-- All that the backend sent was written to the client. -/
def State.ToClient (s : State) : Prop := s.client.delivered = s.backend.sent

end PhpDuplex

end ProtocolProxy
