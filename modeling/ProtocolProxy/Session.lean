import ProtocolProxy.Machine
import ProtocolProxy.Tls

/-!
# A TCP session

`run_client` of `rust/crates/utopia-proxy/src/server/tcp/server.rs` with the functions it is made of
(`send_to_backend`, `bidirectional_copy`, `forward_serialised`, `wait_for_close`) and
`TcpAdapter::activate_sockmap`, as a machine over the session's two sockets.

A socket has the stream its peer sends: what is still to come, and what stands in the receive queue.
Segments arrive at any time and of any length.  Once a socket has an entry in the sockmap they no
longer go to its queue but are written to the other socket at once.  A read takes a part of the
queue; a read that is cancelled takes nothing.  A write may be accepted in pieces.

After the TLS handshake the client's stream is the decrypted one.  The backend is used by this
session alone.
-/

namespace ProtocolProxy

namespace Session

inductive Side
  | client
  | backend
  deriving DecidableEq

def Side.other : Side → Side
  | .client => .backend
  | .backend => .client

structure Sock where
  /-- the whole stream of the peer -/
  sent : Bytes
  /-- what has not arrived -/
  pending : Bytes
  /-- the receive queue -/
  queue : Bytes
  /-- whether the end of the stream has arrived -/
  eof : Bool
  errored : Bool
  /-- what has been written to the peer -/
  written : Bytes
  /-- whether there is a sockmap entry for this socket -/
  redirect : Bool
  /-- the receive queue when the entry was made -/
  atEntry : Option Bytes

def Sock.new (stream : Bytes) : Sock := ⟨stream, stream, [], false, false, [], false, none⟩

/-- One direction of tokio's `copy_bidirectional`. -/
structure Half where
  buf : Bytes
  readDone : Bool
  shut : Bool

/-- Where the session stands, with what it has read and not passed on. -/
inductive Pc
  | readFirst
  | respond (initial : Bytes)
  | tlsAccept (initial : Bytes)
  | readPost
  | getConnection (data : Bytes) (tls : Bool)
  | sendToBackend (rest : Bytes) (tls : Bool)
  | activateSockmap
  | insertPeer
  | deleteEntry
  | waitForClose
  | tryUnwrap
  | select
  | writeAll (dest : Side) (rest : Bytes)
  | copy (half : Side → Half)
  | done (result : Except ProxyError Unit) (dropped : Side → Bytes)

structure State where
  socks : Side → Sock
  pc : Pc
  /-- the first packet -/
  initial : Option Bytes
  /-- what the adapter was asked to route -/
  routed : Option Bytes
  /-- whether `S` was sent -/
  responded : Bool
  /-- the verifier of the completed TLS handshake -/
  handshake : Option ClientVerifier
  connected : Bool
  /-- whether the adapter still has a reference to the backend -/
  adapterHolds : Bool
  /-- whether a sockmap entry was ever made -/
  touched : Bool
  /-- whether `activate_sockmap` returned true -/
  active : Bool
  /-- whether `bidirectional_copy` was called -/
  relayed : Bool

/-- A session just accepted, with the streams of its two peers. -/
def start (client backend : Bytes) : State where
  socks
    | .client => Sock.new client
    | .backend => Sock.new backend
  pc := .readFirst
  initial := none
  routed := none
  responded := false
  handshake := none
  connected := false
  adapterHolds := false
  touched := false
  active := false
  relayed := false

/-- Bytes of one side only. -/
def holding (x : Side) (data : Bytes) : Side → Bytes := Function.update (fun _ => []) x data

/-- What has been read from a side and not passed on. -/
def Pc.held : Pc → Side → Bytes
  | .respond data | .tlsAccept data | .getConnection data _ | .sendToBackend data _ =>
    holding .client data
  | .writeAll dest rest => holding dest.other rest
  | .copy half => fun x => (half x).buf
  | .done _ dropped => dropped
  | _ => fun _ => []

def Pc.isDone : Pc → Bool
  | .done _ _ => true
  | _ => false

/-! ## The sockets -/

def State.setSock (s : State) (x : Side) (k : Sock) : State :=
  { s with socks := Function.update s.socks x k }

def State.goto (s : State) (pc : Pc) : State := { s with pc := pc }

/-- The session ends; what it holds is lost. -/
def State.finish (s : State) (result : Except ProxyError Unit) : State :=
  s.goto (.done result s.pc.held)

/-- A read into a buffer of `cap` bytes that returns `n` of them. -/
def State.read (s : State) (x : Side) (cap n : ℕ) : Option (Bytes × State) :=
  let k := s.socks x
  if 0 < n ∧ n ≤ cap ∧ n ≤ k.queue.length then
    some (k.queue.take n, s.setSock x { k with queue := k.queue.drop n })
  else none

/-- Whether a read into a buffer of `cap` bytes may return zero. -/
def State.readsEnd (s : State) (x : Side) (cap : ℕ) : Bool :=
  cap == 0 || ((s.socks x).queue.isEmpty && (s.socks x).eof)

def State.write (s : State) (x : Side) (data : Bytes) : State :=
  s.setSock x { s.socks x with written := (s.socks x).written ++ data }

/-- A sockmap entry is made for the socket. -/
def State.redirect (s : State) (x : Side) : State :=
  { s.setSock x { s.socks x with redirect := true, atEntry := some (s.socks x).queue } with
    touched := true }

/-- A segment of `n` bytes arrives. -/
def State.arrive (s : State) (x : Side) (n : ℕ) : State :=
  let k := s.socks x
  let data := k.pending.take n
  if k.redirect then (s.setSock x { k with pending := k.pending.drop n }).write x.other data
  else s.setSock x { k with pending := k.pending.drop n, queue := k.queue ++ data }

/-! ## The session's steps -/

/-- What an await of the session returns. -/
inductive Input
  | read (x : Side) (n : ℕ)
  | readEnd (x : Side)
  | readError (x : Side) (e : String)
  | wrote (x : Side) (n : ℕ)
  | writeError (x : Side) (e : String)
  | tls (result : Except String Bytes)
  | connection (result : Except ProxyError Unit)
  | sockmap (ok : Bool)
  | unwrap
  | shutdown (x : Side)

/-- The session has its first packet. -/
def State.firstRead (c : Shared) (port : UInt16) (s : State) (data : Bytes) : State :=
  { s with
    initial := some data
    pc := if port = 5432 ∧ c.tlsAcceptor.isSome ∧ isPostgresqlSslRequest data then .respond data
      else .getConnection data false }

/-- Part of `rest` is accepted by the socket; `last` follows the whole of it. -/
def State.wrote (s : State) (x : Side) (rest : Bytes) (n : ℕ) (more : Bytes → Pc) (last : Pc) :
    Option State :=
  if 0 < n ∧ n ≤ rest.length then
    some ((s.write x (rest.take n)).goto (if rest.drop n = [] then last else more (rest.drop n)))
  else none

/-- `copy_bidirectional`: each direction has a buffer, and is shut down when its stream has ended
and the buffer is empty. -/
def State.copyStep (s : State) (half : Side → Half) : Input → Option State
  | .read x n =>
    if (half x).readDone then none
    else (s.read x n n).map fun (data, s) =>
      s.goto (.copy (Function.update half x { half x with buf := (half x).buf ++ data }))
  | .readEnd x =>
    if s.readsEnd x 1 then
      some (s.goto (.copy (Function.update half x { half x with readDone := true })))
    else none
  | .wrote x n =>
    let h := half x.other
    if 0 < n ∧ n ≤ h.buf.length then
      some ((s.write x (h.buf.take n)).goto
        (.copy (Function.update half x.other { h with buf := h.buf.drop n })))
    else none
  | .shutdown x =>
    let h := half x.other
    if h.readDone ∧ h.buf = [] ∧ !h.shut then
      if (half x).shut then some (s.finish (.ok ()))
      else some (s.goto (.copy (Function.update half x.other { h with shut := true })))
    else none
  | .readError x _ => if (s.socks x).errored then some (s.finish (.ok ())) else none
  | .writeError _ _ => some (s.finish (.ok ()))
  | _ => none

/-- The session's next step with what it was waiting for. -/
def next (c : Shared) (port : UInt16) (s : State) : Pc → Input → Option State
  | .readFirst, .read .client n =>
    (s.read .client c.config.receiveBufferSize n).map fun (data, s) => s.firstRead c port data
  | .readFirst, .readEnd .client | .readPost, .readEnd .client =>
    if s.readsEnd .client c.config.receiveBufferSize then some (s.finish (.ok ())) else none
  | .readFirst, .readError .client e | .readPost, .readError .client e =>
    if (s.socks .client).errored then some (s.finish (.error (.io e))) else none
  | .respond initial, .wrote .client 1 =>
    some { s with responded := true, pc := .tlsAccept initial }
  | .respond _, .writeError .client e => some (s.finish (.error (.io e)))
  | .tlsAccept _, .tls (.ok plain) =>
    c.tlsAcceptor.map fun acceptor =>
      { s.setSock .client { Sock.new plain with written := (s.socks .client).written } with
        handshake := some acceptor.verifier
        pc := .readPost }
  | .tlsAccept _, .tls (.error e) =>
    some (s.finish (.error (.tls ("PostgreSQL STARTTLS accept failed: " ++ e))))
  | .readPost, .read .client n =>
    (s.read .client c.config.receiveBufferSize n).map fun (data, s) =>
      s.goto (.getConnection data true)
  | .getConnection data tls, .connection (.ok ()) =>
    some { s with
      routed := some data, connected := true, adapterHolds := true, pc := .sendToBackend data tls }
  | .getConnection data _, .connection (.error e) =>
    some { s.finish (.error e) with routed := some data }
  | .sendToBackend rest tls, .wrote .backend n =>
    s.wrote .backend rest n (.sendToBackend · tls) (if tls then .tryUnwrap else .activateSockmap)
  | .sendToBackend _ _, .writeError .backend e => some (s.finish (.error (.io e)))
  | .activateSockmap, .sockmap false => some (s.goto .tryUnwrap)
  | .activateSockmap, .sockmap true =>
    if c.sockmap ∧ s.adapterHolds then some ((s.redirect .client).goto .insertPeer) else none
  | .insertPeer, .sockmap true =>
    some { s.redirect .backend with active := true, pc := .waitForClose }
  | .insertPeer, .sockmap false => some (s.goto .deleteEntry)
  | .deleteEntry, .sockmap deleted =>
    let k := s.socks .client
    some ((s.setSock .client { k with redirect := k.redirect && !deleted }).goto .tryUnwrap)
  | .waitForClose, .read .client n =>
    (s.read .client 1 n).map fun (data, s) =>
      s.goto (.done (.ok ()) (holding .client data))
  | .waitForClose, .readEnd .client =>
    if s.readsEnd .client 1 then some (s.finish (.ok ())) else none
  | .waitForClose, .readError .client _ =>
    if (s.socks .client).errored then some (s.finish (.ok ())) else none
  | .tryUnwrap, .unwrap =>
    some { s with
      relayed := true
      pc := if s.adapterHolds then .select else .copy fun _ => ⟨[], false, false⟩ }
  | .select, .read x n =>
    (s.read x c.config.receiveBufferSize n).map fun (data, s) => s.goto (.writeAll x.other data)
  | .select, .readEnd x =>
    if s.readsEnd x c.config.receiveBufferSize then some (s.finish (.ok ())) else none
  | .select, .readError x _ =>
    if (s.socks x).errored then some (s.finish (.ok ())) else none
  | .writeAll dest rest, .wrote x n =>
    if x = dest then s.wrote dest rest n (.writeAll dest) .select else none
  | .writeAll dest _, .writeError x _ => if x = dest then some (s.finish (.ok ())) else none
  | .copy half, input => s.copyStep half input
  | _, _ => none

/-- The inputs that are I/O errors. -/
def Input.isError : Input → Bool
  | .readError _ _ | .writeError _ _ | .tls (.error _) => true
  | _ => false

inductive Action
  | arrive (x : Side) (n : ℕ)
  | eof (x : Side)
  | error (x : Side)
  /-- `close_connection` was called for this client's descriptor from elsewhere -/
  | adapterDrops
  | go (input : Input)

/-- Whether a peer's segments can reach the session. -/
def State.hears (s : State) (x : Side) : Bool :=
  !s.pc.isDone && !(s.socks x).errored && (x == .client || s.connected)

def step (c : Shared) (port : UInt16) (s : State) : Action → Option State
  | .arrive x n =>
    if s.hears x ∧ 0 < n ∧ n ≤ (s.socks x).pending.length then some (s.arrive x n) else none
  | .eof x =>
    if s.hears x ∧ (s.socks x).pending = [] then some (s.setSock x { s.socks x with eof := true })
    else none
  | .error x => if s.hears x then some (s.setSock x { s.socks x with errored := true }) else none
  | .adapterDrops => some { s with adapterHolds := false }
  | .go input => next c port s s.pc input

/-! ## What a session owes its peers -/

/-- Nothing is written to the backend without a TLS handshake that asked for a certificate. -/
def Protected (s : State) : Prop :=
  (s.socks .backend).written ≠ [] → ∃ roots, s.handshake = some (.webPki roots)

/-- The session is on its way to TLS: it reads the first packet, answers it with `S` and accepts the
handshake, and what it routes and writes to the backend comes from inside TLS. -/
structure Upgrading (s : State) : Prop where
  answers : s.pc = .readFirst ∨ (∃ data, s.pc = .respond data)
    ∨ s.responded = true ∧ ((∃ data, s.pc = .tlsAccept data) ∨ s.handshake.isSome = true)
  before : s.handshake = none → s.routed = none ∧ (s.socks .backend).written = []
  after : s.handshake.isSome = true →
    (∀ data ∈ s.routed, data <+: (s.socks .client).sent)
      ∧ (s.socks .backend).written <+: (s.socks .client).sent

/-- The first read returns something, and nothing fails before the handshake is done. -/
def Undisturbed (s : State) : Action → Prop
  | .go (.readEnd .client) => s.pc ≠ .readFirst
  | .go input => input.isError = true → s.handshake.isSome = true
  | _ => True

/-- The first read returns as many bytes as an SSLRequest has. -/
def WholeRequest (s : State) : Action → Prop
  | .go (.read .client n) => s.pc = .readFirst → n = pgSslRequest.length
  | _ => True

/-- Each peer has been written the whole stream of the other. -/
def Complete (s : State) : Prop := ∀ x, (s.socks x.other).written = (s.socks x).sent

/-- If `bidirectional_copy` was called and the session is over, both streams are complete. -/
def Delivered (s : State) : Prop := s.pc.isDone = true → s.relayed = true → Complete s

/-- The steps without I/O errors.  One is that the kernel refuses the second of the two entries. -/
def Faultless (s : State) : Action → Prop
  | .error _ => False
  | .go (.sockmap false) => s.pc ≠ .insertPeer
  | .go input => input.isError = false
  | _ => True

/-- When the loop of `forward_serialised` reads the end of one stream, the other one has wholly
arrived and been read. -/
def EndsLast (s : State) : Action → Prop
  | .go (.readEnd x) =>
    s.pc = .select → (s.socks x.other).queue = [] ∧ (s.socks x.other).pending = []
  | _ => True

/-- Before the sockmap is active no segment is redirected past bytes of its own stream that stand in
the receive queue or are held by the session. -/
def InOrder (s : State) : Action → Prop
  | .arrive x _ => s.active = false → (s.socks x).redirect = true →
      (s.socks x).queue = [] ∧ s.pc.held x = []
  | _ => True

/-- Everything that has arrived on one socket has been written to the other.  The session has not
ended before the client closed or failed, nor before each peer has been written the whole stream of
the other. -/
def Lossless (s : State) : Prop :=
  (∀ x, (s.socks x.other).written ++ (s.socks x).pending = (s.socks x).sent)
    ∧ (s.pc.isDone = true →
      ((s.socks .client).eof = true ∨ (s.socks .client).errored = true) ∧ Complete s)

/-- When the read of `wait_for_close` returns, both streams have wholly arrived. -/
def ClosesLast (s : State) : Action → Prop
  | .go _ => s.pc = .waitForClose → ∀ x, (s.socks x).pending = []
  | _ => True

/-! ## What a session waits for -/

/-- Nothing can be read from the socket, and something may still come. -/
structure Quiet (k : Sock) : Prop where
  queue : k.queue = []
  eof : k.eof = false
  errored : k.errored = false

/-- The session waits for its peers. -/
inductive Waits (s : State) : Prop
  /-- for the client alone: for its first packet, or while the kernel relays -/
  | client (at_ : s.pc = .readFirst ∨ s.pc = .readPost ∨ s.pc = .waitForClose)
      (quiet : Quiet (s.socks .client)) : Waits s
  /-- for either of them, in the loop of `forward_serialised` -/
  | select (at_ : s.pc = .select) (quiet : ∀ x, Quiet (s.socks x)) : Waits s
  /-- for one of them in `copy_bidirectional`, which has passed on what it has read, while the
  direction from the other waits too or is shut down -/
  | copy (half : Side → Half) (at_ : s.pc = .copy half) (x : Side) (quiet : Quiet (s.socks x))
      (passed : (half x).buf = [])
      (other : Quiet (s.socks x.other) ∧ (half x.other).buf = []
        ∨ (half x.other).shut = true ∧ (s.socks x.other).errored = false) : Waits s

def Input.isWriteError : Input → Bool
  | .writeError _ _ => true
  | _ => false

/-- No step of the session changes anything.  What it awaits apart from the peers' streams, the dial
and the TLS handshake included, is taken to come to an end, and writes to succeed. -/
def Rests (c : Shared) (port : UInt16) (s : State) : Prop :=
  ∀ input s', input.isWriteError = false → next c port s s.pc input = some s' → s' = s

/-- The action changes something. -/
def Changes (c : Shared) (port : UInt16) (s : State) (a : Action) : Prop :=
  step c port s a ≠ some s

end Session

end ProtocolProxy
