import ProtocolProxy.Hostname
import ProtocolProxy.HttpReplies
import ProtocolProxy.PhpRouter

/-!
# The PHP HTTP handler

`onRequest` of `src/Server/HTTP/Swoole/Handler.php` with `fastPath` off, for any number of requests
at the same time, over the adapter's routing cache (`PhpRouter`) and the two forwarders (`PhpHttp`
and `PhpRaw`).  What a request comes to at once is a function of it (`begin`).  It may then have to
wait for its route, and is after that a call of one of the forwarders.

What is outside is given with the steps: what the route meets, what Swoole's HTTP client has
received, and what becomes of the raw connections.  The validator `Hostname` is an argument.  Only
the request handler and the route throw; an `Error` is caught from the request handler alone, and
otherwise there is no response.
-/

namespace ProtocolProxy

namespace PhpHandler

open PhpHttp (Fields)
open PhpRaw (Response SameAs)

/-! ## Requests -/

/-- A request with what is read of its `server`. -/
structure Request extends PhpHttp.Request where
  requestMethod : Option Text
  requestUri : Option Text
  queryString : Option Text
  deriving DecidableEq, Repr

def Request.method (request : Request) : Text :=
  (request.requestMethod.getD "GET".toList).map Char.toUpper

/-- The request as the raw forwarder takes it, if it takes its method. -/
def Request.raw (request : Request) : Option PhpRaw.Request :=
  if request.method = "GET".toList then some ⟨.get, request.requestUri, request.queryString⟩
  else if request.method = "HEAD".toList then
    some ⟨.head, request.requestUri, request.queryString⟩
  else none

/-- What the request handler comes to.  If it throws, the headers it had set stay set. -/
abbrev Outcome := Except Fields Response

structure Config extends PhpRaw.Config where
  requestHandler : Option (Request → Outcome)
  directResponse : Option Text
  directResponseStatus : ℤ
  fixedBackend : Option Text
  rawBackend : Bool
  fastPathAssumeOk : Bool

/-! ## The handler's own responses -/

/-- A response with a text and no headers. -/
def textResponse (status : ℤ) (body : String) : Response := ⟨status, [], asBytes body.toList⟩

/-- `json_encode` of an array of texts in which nothing is escaped. -/
def jsonEncode (fields : List (String × String)) : Text :=
  let field (p : String × String) := '"' :: p.1.toList ++ '"' :: ':' :: '"' :: p.2.toList ++ ['"']
  '\x7b' :: [','].intercalate (fields.map field) ++ ['\x7d']

/-- The response to a request whose route has thrown. -/
def unavailable : Response where
  status := 503
  headers := [("Content-Type".toList, "application/json".toList)]
  body := asBytes (jsonEncode [("error", "Service Unavailable"),
    ("message", "The requested service is temporarily unavailable")])

/-- `preg_replace('/:\d+$/', '', $hostname)`, for a text that does not end with a line feed. -/
def stripPort (hostname : Text) : Text :=
  let digits := hostname.rtakeWhile Char.isDigit
  let before := hostname.rdropWhile Char.isDigit
  if digits ≠ [] ∧ before.getLast? = some ':' then before.dropLast else hostname

def isValidHostname (isValid : Text → Bool) (hostname : Text) : Bool :=
  isValid (stripPort hostname)

/-- `$requestHeaders['host'] ?? null`. -/
def hostOf (request : Request) : Option Text := request.header.lookup "host".toList

/-- What a request comes to without waiting. -/
inductive Next
  | respond (response : Response)
  | route (host : Text)
  | forward (endpoint : Text)

/-- `onRequest` up to the route or the forwarders.  The host `0` is false to PHP, as the empty one
is. -/
def begin (isValid : Text → Bool) (config : Config) (request : Request) : Next :=
  match config.requestHandler with
  | some handler =>
    match handler request with
    | .ok response => .respond response
    | .error headers => .respond ⟨500, headers, asBytes "Internal Server Error".toList⟩
  | none =>
    match config.directResponse with
    | some body => .respond ⟨config.directResponseStatus, [], asBytes body⟩
    | none =>
      match config.fixedBackend with
      | some endpoint => .forward endpoint
      | none =>
        match hostOf request with
        | none => .respond (textResponse 400 "Missing Host header")
        | some hostname =>
          if hostname = [] ∨ hostname = ['0'] then
            .respond (textResponse 400 "Missing Host header")
          else if !isValidHostname isValid hostname then
            .respond (textResponse 400 "Invalid Host header")
          else .route hostname

/-- What an `HttpClient` has after a request: a status that is negative if there was no reply, the
headers, the lines of the cookies and what they set, and the body. -/
structure Received where
  statusCode : ℤ
  headers : Fields
  setCookieHeaders : List Text
  cookies : Fields
  body : Bytes
  deriving DecidableEq, Repr

/-- The end of `forwardRequest`: the response that is made of what the client has. -/
def pooledResponse (config : Config) (received : Received) : Response where
  status := if config.fastPathAssumeOk then 200 else received.statusCode
  headers := received.headers ++ received.setCookieHeaders.map (("Set-Cookie".toList, ·))
  body := received.body

/-! ## Requests over the adapter and the forwarders -/

/-- Where a request is. -/
inductive Stage
  /-- in `route`, for a host that was not in the table -/
  | routing (host : Text)
  /-- in `forwardRequest`, as its call `k` -/
  | forwarding (k : ℕ)
  /-- in `forwardRawRequest`, as its call `k` -/
  | forwardingRaw (k : ℕ)
  | answered (response : Response)
  deriving DecidableEq, Repr

/-- Nothing reads `route`, which is what the route of the request has come to. -/
structure Call where
  request : Request
  stage : Stage
  route : Option (Except ResolverError Php.RouteResult)

structure State where
  router : Php.State
  http : PhpHttp.State
  raw : PhpRaw.State
  calls : List Call

/-- No request has come yet. -/
def new (router : Php.State) : State := ⟨router, PhpHttp.new, PhpRaw.new, []⟩

def State.accept (s : State) (call : Call) : State := { s with calls := s.calls ++ [call] }

def State.put (s : State) (i : ℕ) (call : Call) : State := { s with calls := s.calls.set i call }

/-- The response to a request, if there is one yet. -/
def State.responseTo (s : State) (call : Call) : Option Response :=
  match call.stage with
  | .answered response => some response
  | .forwardingRaw k => s.raw.calls[k]?.bind PhpRaw.Call.response
  | .routing _ | .forwarding _ => none

inductive Action
  /-- a request comes -/
  | request (request : Request) (now : ℤ)
  /-- the route of request `i`, the `j`-th that waits, goes on to its end -/
  | routed (i j : ℕ) (w : Php.World)
  /-- the client of request `i` has received something -/
  | received (i : ℕ) (received : Received) (connected : Bool)
  /-- some bytes come on a raw connection -/
  | arrive (k n : ℕ)
  /-- call `k` of the raw forwarder goes on -/
  | resume (k : ℕ) (move : PhpRaw.Move)

section

variable (A : Php.Adapter) (isValid : Text → Bool) (config : Config) (answer : ℕ → Bytes)

/-- A step of the adapter, and the result of a route if it has come to one. -/
def State.adapter (s : State) (a : Php.Action) :
    Option (Option (Except ResolverError Php.RouteResult) × State) :=
  (Php.step A s.router a).map fun router =>
    (router.results[s.router.results.length]?, { s with router := router })

/-- The call of a forwarder. -/
def State.forward (s : State) (request : Request) (endpoint : Text) : Option (Stage × State) :=
  match if config.rawBackend then request.raw else none with
  | some raw =>
    (PhpRaw.step config.toConfig answer s.raw (.forward raw endpoint)).map fun raw =>
      (.forwardingRaw s.raw.calls.length, { s with raw := raw })
  | none =>
    (PhpHttp.step Numeric.intCast config.poolSize s.http
      (.forward request.toRequest endpoint)).map fun http =>
        (.forwarding s.http.calls.length, { s with http := http })

/-- What follows the route. -/
def State.afterRoute (s : State) (request : Request) :
    Except ResolverError Php.RouteResult → Option (Stage × State)
  | .ok result => s.forward config answer request result.endpoint
  | .error _ => some (.answered unavailable, s)

def step (s : State) : Action → Option State
  | .request request now =>
    match begin isValid config request with
    | .respond response => some (s.accept ⟨request, .answered response, none⟩)
    | .forward endpoint =>
      (s.forward config answer request endpoint).map fun (stage, s) =>
        s.accept ⟨request, stage, none⟩
    | .route host =>
      (s.adapter A (.route host now)).bind fun
        | (none, s) => some (s.accept ⟨request, .routing host, none⟩)
        | (some result, s) =>
          (s.afterRoute config answer request result).map fun (stage, s) =>
            s.accept ⟨request, stage, some result⟩
  | .routed i j w =>
    s.calls[i]?.bind fun call =>
      match call.stage, s.router.pending[j]? with
      | .routing host, some p =>
        if p.data = host then
          (s.adapter A (.finish j w)).bind fun
            | (none, _) => none
            | (some result, s) =>
              (s.afterRoute config answer call.request result).map fun (stage, s) =>
                s.put i ⟨call.request, stage, some result⟩
        else none
      | _, _ => none
  | .received i received connected =>
    s.calls[i]?.bind fun call =>
      match call.stage with
      | .forwarding k =>
        (PhpHttp.step Numeric.intCast config.poolSize s.http
          (.respond k received.cookies connected)).map fun http =>
            { s with http := http }.put i
              { call with stage := .answered (pooledResponse config received) }
      | _ => none
  | .arrive k n =>
    (PhpRaw.step config.toConfig answer s.raw (.arrive k n)).map fun raw => { s with raw := raw }
  | .resume k move =>
    (PhpRaw.step config.toConfig answer s.raw (.resume k move)).map fun raw =>
      { s with raw := raw }

end

/-! ## The two handlers -/

/-- Both request handlers fail, PHP's without having set a header, or both respond with the same. -/
def Agree {ε : Type} (outcome : Outcome) : Except ε Http.Response → Prop
  | .ok response => ∃ response', outcome = .ok response' ∧ SameAs response' response
  | .error _ => outcome = .error []

/-- The Rust handler has the same settings, with raw backends, and gets the same `GET`. -/
structure Alike (isValid : Text → Bool) (config : Config) (request : Request) (rust : Http.Config)
    (rustRequest : Http.Request) : Prop where
  handler : Option.Rel Agree (config.requestHandler.map (· request))
    (rust.requestHandler.map (· rustRequest))
  directResponse : config.directResponse = rust.directResponse
  directResponseStatus : config.directResponseStatus = rust.directResponseStatus.toNat
  /-- a status that there is -/
  status : 100 ≤ rust.directResponseStatus.toNat ∧ rust.directResponseStatus.toNat < 1000
  fixedBackend : config.fixedBackend = rust.fixedBackend
  rawBackend : config.rawBackend = true ∧ rust.rawBackend = true
  assumeOk : rust.rawBackendAssumeOk = config.rawBackendAssumeOk
  method : request.method = "GET".toList ∧ rustRequest.method = .get
  host : hostOf request = (rustRequest.headers.lookup "host".toList).bind Http.toStr
  not_zero : hostOf request ≠ some ['0']
  valid : ∀ host, hostOf request = some host →
    (isValid (hostnamePart host) = true
      ↔ IsHost (hostnamePart host) ∨ LooseName (hostnamePart host))

/-- The route of the request has thrown. -/
def Call.RouteFailed (call : Call) : Prop := ∃ e, call.route = some (.error e)

/-- The endpoint that the request was forwarded to. -/
def Call.endpoint (config : Config) (call : Call) : Option Text :=
  config.fixedBackend.or (call.route.bind fun result => result.toOption.map (·.endpoint))

/-- Call `k` of the raw forwarder was made with the request and the endpoint. -/
def State.MadeFor (s : State) (request : Request) (endpoint : Text) (k : ℕ) : Prop :=
  ∃ raw c, request.raw = some raw ∧ s.raw.calls[k]? = some c ∧ c.request = raw
    ∧ (c.host, c.port) = PhpHttp.parseEndpoint Numeric.intCast endpoint 80

/-- What a request is answered with is its own. -/
structure State.Own (config : Config) (s : State) (i : ℕ) (call : Call) : Prop where
  /-- its endpoint is one that the adapter has found for its host -/
  route : ∀ result, call.route = some (.ok result) → ∃ host, hostOf call.request = some host
    ∧ Php.Found s.router.log host result.endpoint
  /-- its call of the raw forwarder was made with it and with its endpoint -/
  forwarded : ∀ k, call.stage = .forwardingRaw k → ∃ endpoint,
    call.endpoint config = some endpoint ∧ s.MadeFor call.request endpoint k
  /-- and is no other request's -/
  only : ∀ k j call', call.stage = .forwardingRaw k → s.calls[j]? = some call' →
    call'.stage = .forwardingRaw k → j = i

/-- The raw forwarder has answered with something other than the backend's reply. -/
def State.ForwardFailed (config : Config) (answer : ℕ → Bytes) (s : State) (call : Call) : Prop :=
  ∃ k response, call.stage = .forwardingRaw k ∧ s.responseTo call = some response
    ∧ ¬ PhpRaw.Relays config.toConfig (answer k) response

/-- The Rust handler meets the same as a request that PHP has answered: its route comes to the same
endpoint or fails too, and its backend sends the same reply or its forwarder fails too. -/
structure Meets (config : Config) (answer : ℕ → Bytes) (s : State) (call : Call)
    (lib : Http.Library) (rust : Http.Config) (env : Http.Env) (rustRequest : Http.Request) :
    Prop where
  route : ∀ host result, hostOf call.request = some host → call.route = some result →
    result.toOption.map (·.endpoint) = (env.route (asBytes host)).toOption.map (·.endpoint)
  reply : ∀ k endpoint, call.stage = .forwardingRaw k → call.endpoint config = some endpoint →
    ¬ s.ForwardFailed config answer call →
      Http.Written env rustRequest endpoint ∧ Http.stream env = answer k
  fails : ∀ endpoint, call.endpoint config = some endpoint → s.ForwardFailed config answer call →
    ∃ e, Http.forwardRawRequest lib rust env rustRequest endpoint = .ok (.error e)

/-- The client is sent the same response by both. -/
def SameResponse (response : Response) (lib : Http.Library) (rust : Http.Config) (env : Http.Env)
    (rustRequest : Http.Request) : Prop :=
  ∃ rustResponse, Http.handle lib rust env rustRequest = .ok rustResponse
    ∧ SameAs response rustResponse

/-- Both send the same, exactly if neither the route nor the forwarder fails.  If the route fails,
PHP says that the service is unavailable and the Rust handler what the error is; if the forwarder
fails, PHP says that the gateway is bad and the Rust handler that the service is unavailable. -/
def Agrees (config : Config) (answer : ℕ → Bytes) (s : State) (call : Call) (response : Response)
    (lib : Http.Library) (rust : Http.Config) (env : Http.Env) (rustRequest : Http.Request) :
    Prop :=
  (SameResponse response lib rust env rustRequest
      ↔ ¬ call.RouteFailed ∧ ¬ s.ForwardFailed config answer call)
    ∧ (call.RouteFailed → response = unavailable
      ∧ ∃ e, Http.handle lib rust env rustRequest = Http.resolverErrorResponse e)
    ∧ (s.ForwardFailed config answer call → (∃ headers, response = PhpRaw.badGateway headers)
      ∧ Http.handle lib rust env rustRequest = Http.serviceUnavailable lib)

end PhpHandler

end ProtocolProxy
