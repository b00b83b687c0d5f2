import ProtocolProxy.Http
import ProtocolProxy.Machine
import ProtocolProxy.Numeric
import ProtocolProxy.PhpHttp
import ProtocolProxy.Search

/-!
# The raw forwarder in PHP

`forwardRawRequest` of `src/Server/HTTP/Swoole/Handler.php` for any number of `GET` and `HEAD`
requests at the same time, as a machine: each request is stopped where it waits for the pool, for
its connection or for bytes.  What is left open is when the bytes of a backend come, how they are
cut, and which of the calls fail.  The number that `recv` is given is a time limit, so one call may
return all the bytes that have come.

Unlike in Rust the connections are kept: one that has answered goes to the pool of its host and
port, and the next request is written to it.  What the backend sends in answer to request `i` is
`answer i`, which comes after everything the backend has to send on the same connection.
-/

namespace ProtocolProxy

namespace PhpRaw

open Digits Search
open Http (crlfCrlf splitCrlf)
open Numeric (intCast isBlank isDigit)
open PhpHttp (Fields hostAndPort strtolower)

/-! ## Header blocks -/

/-- The characters of a string, one for a byte. -/
def chars (bytes : Bytes) : Text := bytes.map fun b => Char.ofNat b.toNat

def isTrimmed (c : Char) : Bool := Trim.phpBlanks.contains c.toNat

/-- What is left of a text after one or more characters of a class, if there is one. -/
def skip (p : Char → Bool) : Text → Option Text
  | c :: s => if p c then some (s.dropWhile p) else none
  | [] => none

/-- The group of `/^HTTP\/\d+\.\d+\s+(\d+)/`. -/
def matchStatus (line : Text) : Option Text := do
  let s ← if "HTTP/".toList.isPrefixOf line then skip isDigit (line.drop 5) else none
  let s ← if ['.'].isPrefixOf s then skip isDigit (s.drop 1) else none
  let s ← skip isBlank s
  if s.takeWhile isDigit = [] then none else some (s.takeWhile isDigit)

structure Head where
  statusCode : ℤ
  headers : Fields
  contentLength : Option ℤ
  chunked : Bool
  deriving DecidableEq, Repr

def skipHeaders : List Text :=
  ["connection".toList, "keep-alive".toList, "transfer-encoding".toList, "content-length".toList]

/-- The body of the loop over the lines. -/
def readLine (head : Head) (line : Text) : Head :=
  match splitOnce ':' line with
  | none => head
  | some (key, rest) =>
    let value := Trim.trimmed isTrimmed rest
    let lower := strtolower key
    let head :=
      if lower = "content-length".toList then { head with contentLength := some (intCast value) }
      else if lower = "transfer-encoding".toList
          ∧ (firstAt "chunked".toList (strtolower value)).isSome then
        { head with chunked := true }
      else head
    if skipHeaders.contains lower then head
    else { head with headers := head.headers ++ [(key, value)] }

def parseHead (headerPart : Text) : Head :=
  let lines := splitCrlf headerPart
  let statusCode := (matchStatus (lines.headD [])).elim 200 intCast
  lines.tail.foldl readLine ⟨statusCode, [], none, false⟩

/-- The length of the body, if the forwarder goes by it. -/
def Head.length (head : Head) : Option ℤ := if head.chunked then none else head.contentLength

/-! ## Requests -/

inductive Method
  | get
  | head
  deriving DecidableEq, Repr

structure Request where
  method : Method
  requestUri : Option Text
  queryString : Option Text
  deriving DecidableEq, Repr

def Request.path (request : Request) : Text :=
  let path := request.requestUri.getD ['/']
  let query := request.queryString.getD []
  if query ≠ [] then path ++ '?' :: query else path

/-- What is written to the backend. -/
def requestLine (request : Request) (host : Text) (port : ℤ) : Text :=
  (match request.method with
    | .get => "GET".toList
    | .head => "HEAD".toList)
    ++ ' ' :: request.path ++ " HTTP/1.1\r\nHost: ".toList
    ++ (if port = 80 then host else hostAndPort host port)
    ++ "\r\nConnection: keep-alive\r\n\r\n".toList

/-- The response that the client gets. -/
structure Response where
  status : ℤ
  headers : Fields
  body : Bytes
  deriving DecidableEq, Repr

/-- The 502 response, with the headers that were set before. -/
def badGateway (headers : Fields) : Response := ⟨502, headers, asBytes "Bad Gateway".toList⟩

structure Config where
  poolSize : ℕ
  rawBackendAssumeOk : Bool

/-- The backend's response with this much of its body. -/
def relay (config : Config) (head : Head) (body : Bytes) : Response :=
  ⟨if config.rawBackendAssumeOk then 200 else head.statusCode, head.headers, body⟩

/-! ## Connections -/

/-- Who has a connection. -/
inductive Owner
  | idle (poolKey : Text)
  | call (i : ℕ)
  | closed
  deriving DecidableEq, Repr

/-- A connection: where it was dialed, what was written to it, what has come and was not received,
and what is still to come.  Nothing reads `written` and `owner`. -/
structure Client where
  host : Text
  port : ℤ
  written : Bytes
  inbox : Bytes
  pending : Bytes
  owner : Owner
  deriving DecidableEq, Repr

def Client.new (host : Text) (port : ℤ) (owner : Owner) : Client := ⟨host, port, [], [], [], owner⟩

def Client.unread (c : Client) : Bytes := c.inbox ++ c.pending

def Client.send (c : Client) (data answer : Bytes) : Client :=
  { c with written := c.written ++ data, pending := c.pending ++ answer }

/-- Some bytes come. -/
def Client.arrive (c : Client) (n : ℕ) : Client :=
  { c with inbox := c.inbox ++ c.pending.take n, pending := c.pending.drop n }

def Client.recv (c : Client) (n : ℕ) : Client := { c with inbox := c.inbox.drop n }

def Client.give (c : Client) (owner : Owner) : Client := { c with owner := owner }

/-! ## Requests over the pools -/

inductive Stage
  /-- in `$pool->pop` -/
  | popping
  /-- in `$client->connect` -/
  | connecting
  /-- in `$client->send` -/
  | sending (k : ℕ)
  /-- in the first `$client->recv` -/
  | readHead (k : ℕ) (buffer : Bytes)
  /-- in the second `$client->recv` -/
  | readBody (k : ℕ) (head : Head) (body : Bytes) (remaining : ℤ)
  /-- after `$response->end`, in `$pool->push` -/
  | pushing (k : ℕ)
  | returned
  deriving DecidableEq, Repr

structure Call where
  request : Request
  host : Text
  port : ℤ
  stage : Stage
  response : Option Response
  deriving DecidableEq, Repr

def rawKey (host : Text) (port : ℤ) : Text := "raw:".toList ++ hostAndPort host port

def Call.poolKey (call : Call) : Text := rawKey call.host call.port

def Call.goto (call : Call) (stage : Stage) : Call := { call with stage := stage }

/-- The response is ended. -/
def Call.ended (call : Call) (response : Response) (stage : Stage) : Call :=
  { call with stage := stage, response := some response }

structure State where
  pools : Text → List ℕ
  clients : List Client
  calls : List Call

def new : State := ⟨fun _ => [], [], []⟩

def State.put (s : State) (i : ℕ) (call : Call) : State := { s with calls := s.calls.set i call }

def State.setClient (s : State) (k : ℕ) (c : Client) : State :=
  { s with clients := s.clients.set k c }

def State.setPool (s : State) (poolKey : Text) (pool : List ℕ) : State :=
  { s with pools := Function.update s.pools poolKey pool }

inductive Move
  /-- `pop` gives a connection, which is connected or not -/
  | pop (connected : Bool)
  | popTimeout
  | connect (ok : Bool)
  | send (ok : Bool)
  | recv (n : ℕ)
  /-- `recv` gives nothing -/
  | recvFails
  | push (connected : Bool)
  | pushTimeout
  deriving DecidableEq, Repr

inductive Action
  | forward (request : Request) (endpoint : Text)
  | arrive (k n : ℕ)
  | resume (i : ℕ) (move : Move)
  deriving DecidableEq, Repr

section

variable (config : Config) (answer : ℕ → Bytes)

/-- A channel has room for at least one client. -/
def capacity : ℕ := max 1 config.poolSize

/-- The test of the loop that reads the body. -/
def State.readBody (s : State) (i k : ℕ) (call : Call) (head : Head) (body : Bytes)
    (remaining : ℤ) : State :=
  if 0 < remaining then s.put i (call.goto (.readBody k head body remaining))
  else s.put i (call.ended (relay config head body) (.pushing k))

/-- The test of the loop that reads the headers, and what is made of them. -/
def State.readHead (s : State) (i k : ℕ) (c : Client) (call : Call) (buffer : Bytes) : State :=
  match firstAt crlfCrlf buffer with
  | none => s.put i (call.goto (.readHead k buffer))
  | some position =>
    let head := parseHead (chars (buffer.take position))
    let bodyPart := buffer.drop (position + 4)
    match head.length with
    | some contentLength =>
      s.readBody config i k call head bodyPart (contentLength - bodyPart.length)
    | none =>
      (s.setClient k (c.give .closed)).put i (call.ended (relay config head bodyPart) .returned)

/-- The next step of call `i`. -/
def State.resume (s : State) (i : ℕ) (call : Call) : Stage → Move → Option State
  | .popping, .pop connected =>
    match s.pools call.poolKey with
    | [] => none
    | k :: rest =>
      s.clients[k]?.map fun c =>
        let s := s.setPool call.poolKey rest
        if connected then (s.setClient k (c.give (.call i))).put i (call.goto (.sending k))
        else (s.setClient k (c.give .closed)).put i (call.goto .connecting)
  | .popping, .popTimeout => some (s.put i (call.goto .connecting))
  | .connecting, .connect ok =>
    if ok then
      some ({ s with clients := s.clients ++ [Client.new call.host call.port (.call i)] }.put i
        (call.goto (.sending s.clients.length)))
    else some (s.put i (call.ended (badGateway []) .returned))
  | .sending k, .send ok =>
    s.clients[k]?.map fun c =>
      if ok then
        (s.setClient k (c.send (asBytes (requestLine call.request call.host call.port))
          (answer i))).put i (call.goto (.readHead k []))
      else (s.setClient k (c.give .closed)).put i (call.ended (badGateway []) .returned)
  | .readHead k buffer, .recv n =>
    s.clients[k]?.bind fun c =>
      if 0 < n ∧ n ≤ c.inbox.length then
        some ((s.setClient k (c.recv n)).readHead config i k (c.recv n) call
          (buffer ++ c.inbox.take n))
      else none
  | .readHead k _, .recvFails =>
    s.clients[k]?.map fun c =>
      (s.setClient k (c.give .closed)).put i (call.ended (badGateway []) .returned)
  | .readBody k head body remaining, .recv n =>
    s.clients[k]?.bind fun c =>
      if 0 < n ∧ n ≤ c.inbox.length then
        some ((s.setClient k (c.recv n)).readBody config i k call head (body ++ c.inbox.take n)
          (remaining - n))
      else none
  | .readBody k head _ _, .recvFails =>
    s.clients[k]?.map fun c =>
      (s.setClient k (c.give .closed)).put i (call.ended (badGateway head.headers) .returned)
  | .pushing k, .push connected =>
    s.clients[k]?.bind fun c =>
      if connected then
        if (s.pools call.poolKey).length < capacity config then
          some (((s.setPool call.poolKey (s.pools call.poolKey ++ [k])).setClient k
            (c.give (.idle call.poolKey))).put i (call.goto .returned))
        else none
      else some ((s.setClient k (c.give .closed)).put i (call.goto .returned))
  | .pushing k, .pushTimeout =>
    s.clients[k]?.map fun c => (s.setClient k (c.give .closed)).put i (call.goto .returned)
  | _, _ => none

def step (s : State) : Action → Option State
  | .forward request endpoint =>
    let (host, port) := PhpHttp.parseEndpoint intCast endpoint 80
    some { s with calls := s.calls ++ [⟨request, host, port, .popping, none⟩] }
  | .arrive k n => s.clients[k]?.map fun c => s.setClient k (c.arrive n)
  | .resume i move => s.calls[i]?.bind fun call => s.resume config answer i call call.stage move

end

/-! ## Replies -/

/-- The header block of a reply and what follows it. -/
def Splits (reply head body : Bytes) : Prop :=
  reply = head ++ crlfCrlf ++ body ∧ firstAt crlfCrlf reply = some head.length

/-- A backend's reply is sound if after the header block there is nothing, or as much as the
forwarder takes it to announce, or anything if it takes it to announce no length. -/
def Sound (reply : Bytes) : Prop :=
  ∃ head body, Splits reply head body
    ∧ ∀ n, (parseHead (chars head)).length = some n → body = [] ∨ n = body.length

/-- A response is the reply: its status and headers, and all of its body if it announces a length,
else the part of the body that has come with the headers. -/
def Relays (config : Config) (reply : Bytes) (response : Response) : Prop :=
  ∃ head body part, Splits reply head body
    ∧ response = relay config (parseHead (chars head)) part ∧ part <+: body
    ∧ ((parseHead (chars head)).length.isSome → part = body)

end PhpRaw

end ProtocolProxy
