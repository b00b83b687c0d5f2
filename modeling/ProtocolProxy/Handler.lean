import ProtocolProxy.Hostname
import ProtocolProxy.Http
import ProtocolProxy.Pools

/-!
# The HTTP handler

`Handler::handle` of `rust/crates/utopia-proxy/src/server/http/handler.rs` for one request, with its
two ways of forwarding: through a pooled hyper client (`forwardRequest`), and as bytes on a
connection of its own (`forwardRawRequest`).

What the awaits of a call give is in its `Env`: what the adapter routes to, what becomes of a
connect or a send, and the reads from a raw backend one after the other.
-/

namespace ProtocolProxy

namespace Http

open Digits Search Trim

/-! ## A call's surroundings -/

/-- The settings that are used.  The timeout is its text in messages. -/
structure Config where
  requestHandler : Option (Request → Except ProxyError Response)
  directResponse : Option Text
  directResponseStatus : UInt16
  fixedBackend : Option Text
  rawBackend : Bool
  rawBackendAssumeOk : Bool
  fastPathAssumeOk : Bool
  poolSize : ℕ
  timeout : String

/-- What a call with a time limit comes to. -/
inductive Timed (α : Type)
  | done (value : α)
  | failed (e : String)
  | timedOut

/-- The bytes that one read into a buffer of 8192 bytes returns. -/
def Chunk : Type := { bytes : Bytes // 1 ≤ bytes.length ∧ bytes.length ≤ 8192 }

/-- What a read from a raw backend comes to. -/
inductive Read
  | data (chunk : Chunk)
  | eof
  | failed (e : String)
  | timedOut

/-- A request as it is passed to the pooled client. -/
structure Outbound where
  method : Method
  uri : Text
  headers : Headers
  body : Bytes
  deriving DecidableEq, Repr

/-- A response as hyper gives it: it reads a hundred headers at most. -/
structure BackendResponse where
  status : ℕ
  headers : Headers
  few : headers.length ≤ 100
  body : Timed Bytes

/-- A `PooledClient`, which has its client until it is dropped. -/
structure PooledClient where
  client : Option ℕ

structure Env where
  route : Bytes → Except ResolverError ConnectionResult
  /-- whether there is a pool for an authority -/
  pooled : Text → Bool
  /-- the client that the pool of an authority hands out -/
  acquire : Text → Except ProxyError ℕ
  /-- what reading the request's body comes to -/
  collect : Timed Unit
  send : Outbound → Timed BackendResponse
  connect : Text → Timed Unit
  nodelay : Except String Unit
  /-- whether writing the request takes too long -/
  writeTimesOut : Bytes → Bool
  /-- the reads from the raw backend; when there are no more, the next one times out -/
  reads : List Read

/-! ## The responses of the handler itself -/

def textResponse (status : ℕ) (body : Bytes) : Partial Response :=
  (expect "text response must build" (.ok [] : Builder)).map fun headers => ⟨status, headers, body⟩

def resolverErrorResponse (e : ResolverError) : Partial Response :=
  textResponse ((statusCode e.code.toNat).getD 503) (asBytes e.text.toList)

def unavailableBody : Text :=
  ("\x7b\"error\":\"Service Unavailable\",\"message\":\"The requested service is temporarily "
    ++ "unavailable\"\x7d").toList

def serviceUnavailable (lib : Library) : Partial Response := do
  let headers ← expect "static service-unavailable response must build" (.ok [] : Builder)
  let headers ← appendHeader lib headers "content-type".toList (asBytes "application/json".toList)
  return ⟨503, headers, asBytes unavailableBody⟩

def extractHost (request : Request) : Partial (Except Response Text) :=
  match (request.headers.lookup "host".toList).bind toStr with
  | none => (textResponse 400 (asBytes "Missing Host header".toList)).map .error
  | some host =>
    if host = [] then (textResponse 400 (asBytes "Missing Host header".toList)).map .error
    else if isValidHostname host then .ok (.ok host)
    else (textResponse 400 (asBytes "Invalid Host header".toList)).map .error

/-! ## The pooled way -/

/-- The host and port as they stand in the `Host` header. -/
def hostValue (endpoint : Text) : Text :=
  let (host, port) := parseEndpoint endpoint 80
  if port = 80 then host else host ++ ':' :: portText port

/-- The body that is forwarded. -/
def bodyBytes (config : Config) (env : Env) (request : Request) : Except ProxyError Bytes :=
  if request.method = .get ∨ request.method = .head then .ok []
  else
    match env.collect with
    | .done () => .ok request.body
    | .failed e => .error (.other ("failed to read request body: " ++ e))
    | .timedOut => .error (.other ("reading request body timed out after " ++ config.timeout))

def path (request : Request) : Text := request.pathAndQuery.getD ['/']

/-- The headers of the forwarded request: all but `Host` and `Connection`, and the new `Host`. -/
def outboundHeaders (lib : Library) (endpoint : Text) (request : Request) : Builder :=
  let start : Builder :=
    match lib.uriError (path request) with
    | some message => .error (.uri message)
    | none => .ok []
  let copied := request.headers.foldl (fun builder (name, value) =>
    if name = "host".toList ∨ name = "connection".toList then builder
    else builder.append lib name value) start
  copied.header lib "host".toList (hostValue endpoint)

/-- The request that is passed to the pooled client. -/
def outbound (lib : Library) (config : Config) (env : Env) (request : Request) (endpoint : Text) :
    Except ProxyError Outbound := do
  let body ← bodyBytes config env request
  match outboundHeaders lib endpoint request with
  | .ok headers => .ok ⟨request.method, path request, headers, body⟩
  | .error e => .error (.other ("build outbound request: " ++ e.text))

/-- `Pools::get_or_create`. -/
def getOrCreate (lib : Library) (config : Config) (env : Env) (authority : Text) : Partial Unit :=
  if env.pooled authority then .ok ()
  else if config.poolSize ≤ 2 ^ 61 - 1 then withCapacity config.poolSize lib.clientSize
  else .error .tooManyPermits

/-- `PooledClient::client_mut`. -/
def PooledClient.clientMut (pooled : PooledClient) : Partial ℕ :=
  match pooled.client with
  | some client => .ok client
  | none => .error (.expect "PooledClient accessed after drop")

/-- The backend's headers are relayed, but for those of the connection. -/
def relayHeaders (lib : Library) : Headers → Headers → Partial Headers
  | headers, [] => .ok headers
  | headers, (name, value) :: rest => do
    if isHopByHop name then relayHeaders lib headers rest
    else relayHeaders lib (← appendHeader lib headers name value) rest

def clientResponse (lib : Library) (config : Config) (response : BackendResponse) :
    Partial (Except ProxyError Response) :=
  match response.body with
  | .failed e => .ok (.error (.other ("reading backend body failed: " ++ e)))
  | .timedOut => .ok (.error (.other ("reading backend body timed out after " ++ config.timeout)))
  | .done body => do
    let headers ← relayHeaders lib [] response.headers
    return .ok ⟨if config.fastPathAssumeOk then 200 else response.status, headers, body⟩

def forwardRequest (lib : Library) (config : Config) (env : Env) (request : Request)
    (endpoint : Text) : Partial (Except ProxyError Response) := do
  let authority := Pools.authority endpoint
  getOrCreate lib config env authority
  match env.acquire authority with
  | .error e => return .error e
  | .ok client =>
    match outbound lib config env request endpoint with
    | .error e => return .error e
    | .ok out =>
      let _ ← PooledClient.clientMut ⟨some client⟩
      match env.send out with
      | .failed e => return .error (.backendConnect e)
      | .timedOut => return .error (.other ("backend request timed out after " ++ config.timeout))
      | .done response => clientResponse lib config response

/-! ## The raw way -/

/-- The request line and the headers that are written to a raw backend. -/
def requestLine (request : Request) (endpoint : Text) : Text :=
  (match request.method with
    | .get => "GET".toList
    | .head => "HEAD".toList
    | .other name => name)
    ++ ' ' :: path request ++ " HTTP/1.1\r\nHost: ".toList ++ hostValue endpoint
    ++ "\r\nConnection: keep-alive\r\n\r\n".toList

/-- The loop that reads up to the end of the header block: where that is, what has been read, and
the reads that are left. -/
def readHeaders (buffer : Bytes) (reads : List Read) :
    Except ProxyError (ℕ × Bytes × List Read) :=
  match findSubslice buffer crlfCrlf with
  | some position => .ok (position + 4, buffer, reads)
  | none =>
    match reads with
    | [] | .timedOut :: _ => .error (.other "read timed out")
    | .failed e :: _ => .error (.other ("read failed: " ++ e))
    | .eof :: _ => .error (.other "backend closed before headers")
    | .data chunk :: reads => readHeaders (buffer ++ chunk.val) reads

/-- What the header lines say. -/
structure Scan where
  builder : Builder
  contentLength : Option ℕ
  chunked : Bool

/-- The headers that are not relayed. -/
def isFraming (name : Text) : Bool :=
  ["connection".toList, "keep-alive".toList, "transfer-encoding".toList,
    "content-length".toList].contains name

def scanLine (lib : Library) (scan : Scan) (line : Text) : Scan :=
  match splitOnce ':' line with
  | none => scan
  | some (key, value) =>
    let key := trim key
    let value := trim value
    let lower := key.map Char.toLower
    let scan :=
      if lower = "content-length".toList then
        { scan with contentLength := parseUnsigned (2 ^ 64) value }
      else if lower = "transfer-encoding".toList ∧ value.map Char.toLower = "chunked".toList then
        { scan with chunked := true }
      else scan
    if isFraming lower then scan
    else { scan with builder := scan.builder.header lib key value }

/-- The loop that reads the rest of a body of `total` bytes. -/
def readBody (total : ℕ) (body : Bytes) (reads : List Read) : Partial (Except ProxyError Bytes) :=
  if body.length < total then
    match sub total body.length with
    | .error panic => .error panic
    | .ok remaining =>
      match reads with
      | [] | .timedOut :: _ => .ok (.error (.other "read timed out"))
      | .failed e :: _ => .ok (.error (.other ("read failed: " ++ e)))
      | .eof :: _ => .ok (.error (.other "backend closed mid-body"))
      | .data chunk :: reads => readBody total (body ++ chunk.val.take (min remaining 8192)) reads
  else .ok (.ok body)

/-- The response with the headers that were built. -/
def buildResponse (status : ℕ) (builder : Builder) (body : Bytes) : Except ProxyError Response :=
  match builder with
  | .ok headers => .ok ⟨status, headers, body⟩
  | .error e => .error (.other ("build response: " ++ e.text))

/-- The status that is relayed from a raw backend. -/
def rawStatus (config : Config) (statusLine : Text) : ℕ :=
  if config.rawBackendAssumeOk then 200
  else (statusCode ((parseStatusLine statusLine).getD 200)).getD 200

/-- What is made of the header block and the bytes that came with it. -/
def rawReply (lib : Library) (config : Config) (header : Text) (buffer : Bytes)
    (reads : List Read) : Partial (Except ProxyError Response) :=
  match splitCrlf header with
  | [] => .ok (.error (.other "missing status line"))
  | statusLine :: lines => do
    let status := rawStatus config statusLine
    let scan := lines.foldl (scanLine lib) ⟨.ok [], none, false⟩
    if scan.chunked || scan.contentLength.isNone then
      return buildResponse status scan.builder buffer
    let total ← unwrap scan.contentLength
    withCapacity total 1
    match ← readBody total buffer reads with
    | .error e => return .error e
    | .ok body => return buildResponse status scan.builder body

/-- The reading of a raw backend's response. -/
def readRaw (lib : Library) (config : Config) (reads : List Read) :
    Partial (Except ProxyError Response) :=
  match readHeaders [] reads with
  | .error e => .ok (.error e)
  | .ok (headerEnd, buffer, reads) => do
    let (headerBytes, buffer) ← splitTo buffer headerEnd
    let headerStr ← sliceTo headerBytes (← sub headerEnd 4)
    match fromUtf8 headerStr with
    | none => return .error (.other "non-utf8 header")
    | some header => rawReply lib config header buffer reads

def forwardRawRequest (lib : Library) (config : Config) (env : Env) (request : Request)
    (endpoint : Text) : Partial (Except ProxyError Response) :=
  if request.method ≠ .get ∧ request.method ≠ .head then
    forwardRequest lib config env request endpoint
  else
    let authority := Pools.authority endpoint
    match env.connect authority with
    | .failed e => .ok (.error (.backendConnect e))
    | .timedOut =>
      .ok (.error (.backendConnect ("connect to " ++ String.ofList authority ++ " timed out")))
    | .done () =>
      match env.nodelay with
      | .error e => .ok (.error (.backendConnect e))
      | .ok () =>
        if env.writeTimesOut (asBytes (requestLine request endpoint)) then
          .ok (.error (.other "write request timed out: deadline has elapsed"))
        else readRaw lib config env.reads

/-! ## The handler -/

/-- The endpoint that a request is forwarded to, or the response to it. -/
def chooseEndpoint (config : Config) (env : Env) (request : Request) :
    Partial (Except Response Text) :=
  match config.fixedBackend with
  | some endpoint => .ok (.ok endpoint)
  | none => do
    match ← extractHost request with
    | .error response => return .error response
    | .ok host =>
      match env.route (asBytes host) with
      | .ok result => return .ok result.endpoint
      | .error e => return .error (← resolverErrorResponse e)

def handle (lib : Library) (config : Config) (env : Env) (request : Request) : Partial Response :=
  match config.requestHandler with
  | some handler =>
    match handler request with
    | .ok response => .ok response
    | .error _ => textResponse 500 (asBytes "Internal Server Error".toList)
  | none =>
    match config.directResponse with
    | some body =>
      textResponse ((statusCode config.directResponseStatus.toNat).getD 200) (asBytes body)
    | none => do
      match ← chooseEndpoint config env request with
      | .error response => return response
      | .ok endpoint =>
        let forward ←
          if config.rawBackend then forwardRawRequest lib config env request endpoint
          else forwardRequest lib config env request endpoint
        match forward with
        | .ok response => return response
        | .error _ => serviceUnavailable lib

/-! ## Framing -/

def contentLength : Text := "content-length".toList

/-- The number that decimal digits spell. -/
def decimal (value : Bytes) : Option ℕ :=
  if value ≠ [] ∧ value.all fun b => 48 ≤ b ∧ b ≤ 57 then
    some (value.foldl (fun n b => n * 10 + (b.toNat - 48)) 0)
  else none

/-- Every `Content-Length` is the length of the body. -/
def Framed (headers : Headers) (body : Bytes) : Prop :=
  ∀ value, (contentLength, value) ∈ headers → decimal value = some body.length

/-! ## Replies of a raw backend -/

/-- What the reads return, up to the first that returns nothing. -/
def pieces : List Read → List Bytes
  | .data chunk :: reads => chunk.val :: pieces reads
  | _ => []

/-- The bytes that a raw backend sends. -/
def stream (env : Env) : Bytes := (pieces env.reads).flatten

/-- The request is written to a raw backend. -/
def Written (env : Env) (request : Request) (endpoint : Text) : Prop :=
  env.connect (Pools.authority endpoint) = .done () ∧ env.nodelay = .ok ()
    ∧ env.writeTimesOut (asBytes (requestLine request endpoint)) = false

def statusLine (header : Text) : Text := (splitCrlf header).headD []

/-- The header lines that have a colon: what stands before and after it. -/
def fields (header : Text) : List (Text × Text) :=
  (splitCrlf header).tail.filterMap fun line =>
    (splitOnce ':' line).map fun p => (trim p.1, trim p.2)

/-- The values of the headers of some name, which is in lower case. -/
def values (name : Text) (header : Text) : List Text :=
  ((fields header).filter fun p => p.1.map Char.toLower = name).map Prod.snd

def isChunked (header : Text) : Bool :=
  (values "transfer-encoding".toList header).any fun value =>
    value.map Char.toLower = "chunked".toList

/-- The last `Content-Length`, if it is a `usize`. -/
def lastLength (header : Text) : Option ℕ :=
  (values contentLength header).getLast?.bind (parseUnsigned (2 ^ 64))

/-- The headers that are relayed. -/
def relayed (lib : Library) (header : Text) : Builder :=
  ((fields header).filter fun p => !isFraming (p.1.map Char.toLower)).foldl
    (fun builder p => builder.header lib p.1 p.2) (.ok [])

/-- The header block is a text and the headers to relay are valid. -/
def Relayable (lib : Library) (head : Bytes) : Prop :=
  ∃ header headers, fromUtf8 head = some header ∧ relayed lib header = .ok headers

/-- The response has the status and the headers of the header block, and this body. -/
def Relays (lib : Library) (config : Config) (head body : Bytes)
    (result : Partial (Except ProxyError Response)) : Prop :=
  ∃ header headers, fromUtf8 head = some header ∧ relayed lib header = .ok headers
    ∧ result = .ok (.ok ⟨rawStatus config (statusLine header), headers, body⟩)

def IsDecimal (text : Text) (n : ℕ) : Prop :=
  text ≠ [] ∧ (∀ c ∈ text, (toDigit 10 c).isSome) ∧ value 10 0 text = n

/-- A header block, if it is a text, has one `Content-Length` and is not chunked. -/
def HasLength (head : Bytes) (n : ℕ) : Prop :=
  ∀ header, fromUtf8 head = some header →
    isChunked header = false ∧ ∃ text, values contentLength header = [text] ∧ IsDecimal text n

/-! ## Replies to HEAD -/

/-- A character of a reason phrase or of the value of a header. -/
def isPlain (c : Char) : Bool := c = '\t' ∨ ' ' ≤ c ∧ c ≠ '\x7f'

/-- A well-formed HTTP/1.1 reply without a body.  What stands after the colon of a header may begin
and end with blanks. -/
structure Reply where
  code : ℕ
  reason : Text
  headers : List (Text × Text)
  code_valid : 100 ≤ code ∧ code < 1000
  reason_plain : ∀ c ∈ reason, isPlain c
  name_token : ∀ p ∈ headers, p.1 ≠ [] ∧ ∀ c ∈ p.1, isToken c
  value_plain : ∀ p ∈ headers, ∀ c ∈ p.2, isPlain c

def Reply.statusLine (reply : Reply) : Text :=
  "HTTP/1.1".toList ++ ' ' :: (Nat.toDigits 10 reply.code ++ ' ' :: reply.reason)

/-- The header block. -/
def Reply.text (reply : Reply) : Text :=
  reply.statusLine ++ reply.headers.flatMap fun p => '\r' :: '\n' :: (p.1 ++ ':' :: p.2)

/-- The values of the headers of some name, which is in lower case. -/
def Reply.values (reply : Reply) (name : Text) : List Text :=
  (reply.headers.filter fun p => p.1.map Char.toLower = name).map fun p => trim p.2

/-- The reply announces a body: its last `Content-Length` is a positive `usize`, and it is not
chunked. -/
def Reply.Announces (reply : Reply) : Prop :=
  (∃ text ∈ (reply.values contentLength).getLast?, ∃ n, 0 < n
      ∧ parseUnsigned (2 ^ 64) text = some n)
    ∧ ∀ text ∈ reply.values "transfer-encoding".toList,
      text.map Char.toLower ≠ "chunked".toList

/-- The response has this status and no body. -/
def AnswersHead (code : ℕ) (result : Partial (Except ProxyError Response)) : Prop :=
  ∃ headers, result = .ok (.ok ⟨code, headers, []⟩)

/-- The request is sent by a pooled client, which gets this response. -/
def Sent (lib : Library) (config : Config) (env : Env) (request : Request) (endpoint : Text)
    (response : BackendResponse) : Prop :=
  getOrCreate lib config env (Pools.authority endpoint) = .ok ()
    ∧ ∃ client out, env.acquire (Pools.authority endpoint) = .ok client
      ∧ outbound lib config env request endpoint = .ok out ∧ env.send out = .done response

/-! ## Panics -/

/-- A result that is there: nothing has panicked. -/
def Returns {α : Type} (result : Partial α) : Prop := ∃ a, result = .ok a

/-- The request goes to this endpoint: the fixed one, or the one its `Host` is routed to. -/
def RoutesTo (config : Config) (env : Env) (request : Request) (endpoint : Text) : Prop :=
  config.fixedBackend = some endpoint
    ∨ config.fixedBackend = none ∧ ∃ host result,
      (request.headers.lookup "host".toList).bind toStr = some host ∧ host ≠ []
        ∧ isValidHostname host = true ∧ env.route (asBytes host) = .ok result
        ∧ result.endpoint = endpoint

/-- The bytes have a header block that announces a body which is too large to be allocated. -/
def Oversized (bytes : Bytes) : Prop :=
  ∃ h header n, firstAt crlfCrlf bytes = some h ∧ fromUtf8 (bytes.take h) = some header
    ∧ isChunked header = false ∧ lastLength header = some n ∧ isizeMax < n

/-- The request takes the raw way. -/
def TakesRaw (config : Config) (request : Request) : Prop :=
  config.rawBackend = true ∧ (request.method = .get ∨ request.method = .head)

/-- The pool of an endpoint has to be made and is too large to be allocated. -/
def PoolTooLarge (lib : Library) (config : Config) (env : Env) (endpoint : Text) : Prop :=
  env.pooled (Pools.authority endpoint) = false ∧ isizeMax < config.poolSize * lib.clientSize

/-! ## A call without incidents -/

/-- Libraries without limits. -/
def plainLibrary : Library := ⟨fun _ => none, fun _ => true, fun _ _ => rfl, 24⟩

def plainConfig : Config := ⟨none, none, 200, none, false, false, false, 1024, "30s"⟩

/-- Everything goes well and the backend's answers are empty. -/
def plainEnv : Env where
  route _ := .error (.notFound "")
  pooled _ := false
  acquire _ := .ok 0
  collect := .done ()
  send _ := .done ⟨200, [], Nat.zero_le _, .done []⟩
  connect _ := .done ()
  nodelay := .ok ()
  writeTimesOut _ := false
  reads := []

end Http

end ProtocolProxy
