import ProtocolProxy.Digits
import ProtocolProxy.Machine
import ProtocolProxy.Resolver

/-!
# Forwarding over pooled HTTP clients in PHP

`forwardRequest` of `src/Server/HTTP/Swoole/Handler.php` with `fastPath` off, for any number of
requests at the same time.  A request has its client to itself from the `pop` to the `push`.

A client sends the headers and cookies it has stored with every request.  `setHeaders` and
`setCookies` replace them, and the cookies a response sets are added.  Of the request and the
response only headers and cookies are modelled.
-/

namespace ProtocolProxy

namespace PhpHttp

/-- An array from strings to strings, in the order of insertion. -/
abbrev Fields := List (Text × Text)

/-- `$fields[$key] = $value`. -/
def assign : Fields → Text → Text → Fields
  | [], key, value => [(key, value)]
  | (k, v) :: rest, key, value =>
    if k = key then (k, value) :: rest else (k, v) :: assign rest key value

/-- A request's `header` and `cookie`, empty if they are not set. -/
structure Request where
  header : Fields
  cookie : Fields
  deriving DecidableEq, Repr

structure HttpClient where
  host : Text
  port : ℤ
  headers : Fields
  cookies : Fields
  deriving DecidableEq, Repr

def HttpClient.new (host : Text) (port : ℤ) : HttpClient := ⟨host, port, [], []⟩

def HttpClient.setHeaders (c : HttpClient) (headers : Fields) : HttpClient :=
  { c with headers := headers }

def HttpClient.setCookies (c : HttpClient) (cookies : Fields) : HttpClient :=
  { c with cookies := cookies }

/-- The client reads the cookies of a response. -/
def HttpClient.addCookies (c : HttpClient) (cookies : Fields) : HttpClient :=
  { c with cookies := cookies.foldl (fun fields kv => assign fields kv.1 kv.2) c.cookies }

/-- `Adapter::parseEndpoint`.  `intval` is the cast of a string to an integer. -/
def parseEndpoint (intval : Text → ℤ) (endpoint : Text) (defaultPort : ℤ) : Text × ℤ :=
  match Digits.splitOnce ':' endpoint with
  | some (host, portStr) => (host, if portStr ≠ [] then intval portStr else defaultPort)
  | none => (endpoint, defaultPort)

def hostAndPort (host : Text) (port : ℤ) : Text := host ++ ':' :: (toString port).toList

def strtolower (s : Text) : Text := s.map Char.toLower

/-- The headers of the outbound request. -/
def outboundHeaders (request : Request) (host : Text) (port : ℤ) : Fields :=
  let headers := request.header.foldl (fun headers kv =>
    let lower := strtolower kv.1
    if lower ≠ "host".toList ∧ lower ≠ "connection".toList then assign headers kv.1 kv.2
    else headers) []
  assign headers "Host".toList (if port = 80 then host else hostAndPort host port)

/-- What `forwardRequest` does to its client before the request is sent. -/
def HttpClient.prepare (c : HttpClient) (request : Request) (host : Text) (port : ℤ) : HttpClient :=
  let c := c.setHeaders (outboundHeaders request host port)
  if request.cookie ≠ [] then c.setCookies request.cookie else c

/-! ## Requests over the pools -/

/-- A request in progress, or one that is over. -/
inductive Call
  | sent (poolKey : Text) (client : HttpClient)
  | over
  deriving DecidableEq, Repr

/-- The idle clients of each pool, the one to be popped first in front. -/
structure State where
  pools : Text → List HttpClient
  calls : List Call

def new : State := ⟨fun _ => [], []⟩

/-- The client a request gets: an idle one, or a new one if there is none. -/
def State.pop (s : State) (poolKey host : Text) (port : ℤ) : HttpClient × List HttpClient :=
  match s.pools poolKey with
  | [] => (.new host port, [])
  | client :: rest => (client, rest)

inductive Action
  /-- a request is sent on -/
  | forward (request : Request) (endpoint : Text)
  /-- the response to call `i` has come, with the cookies it sets -/
  | respond (i : ℕ) (cookies : Fields) (connected : Bool)
  deriving DecidableEq, Repr

section

variable (intval : Text → ℤ) (poolSize : ℕ)

/-- The client as it sends a request. -/
def State.outbound (s : State) (request : Request) (endpoint : Text) : HttpClient :=
  let (host, port) := parseEndpoint intval endpoint 80
  (s.pop (hostAndPort host port) host port).1.prepare request host port

/-- A channel has room for at least one client. -/
def capacity : ℕ := max 1 poolSize

def step (s : State) : Action → Option State
  | .forward request endpoint =>
    let (host, port) := parseEndpoint intval endpoint 80
    let poolKey := hostAndPort host port
    some {
      pools := Function.update s.pools poolKey (s.pop poolKey host port).2
      calls := s.calls ++ [.sent poolKey (s.outbound intval request endpoint)] }
  | .respond i cookies connected =>
    match s.calls[i]? with
    | some (.sent poolKey client) =>
      let pool := s.pools poolKey
      let pool :=
        if connected ∧ pool.length < capacity poolSize then pool ++ [client.addCookies cookies]
        else pool
      some { pools := Function.update s.pools poolKey pool, calls := s.calls.set i .over }
    | _ => none

/-- In any two runs the request leaves for the endpoint with the same headers and cookies. -/
def Unleaked (request : Request) (endpoint : Text) : Prop :=
  ∀ as as' s s', Machine.run (step intval poolSize) new as = some s →
    Machine.run (step intval poolSize) new as' = some s' →
    let out := s.outbound intval request endpoint
    let out' := s'.outbound intval request endpoint
    out.headers = out'.headers ∧ out.cookies = out'.cookies

end

end PhpHttp

end ProtocolProxy
