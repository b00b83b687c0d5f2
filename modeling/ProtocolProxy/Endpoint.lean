import ProtocolProxy.IpText
import ProtocolProxy.Resolver

/-!
# Endpoints: the SSRF check and the address that is dialed

`Adapter::validate` and `Adapter::parse_endpoint` (`rust/crates/utopia-proxy/src/adapter/mod.rs`)
with the block lists, and the lookup behind them, `dns::resolve`, with its strict variant
`dns::resolve_strict` (`dns.rs`).

A lookup's outcome is given: what the DNS cache holds, and what the resolver would answer.
-/

namespace ProtocolProxy

open Net Digits

/-! ## The block list -/

def isBlockedIpv4 (ip : Ipv4Addr) : Bool :=
  let a := ip.a
  let b := ip.b
  if a = 10 then true
  else if a = 172 ∧ 16 ≤ b ∧ b ≤ 31 then true
  else if a = 192 ∧ b = 168 then true
  else if a = 127 then true
  else if a = 169 ∧ b = 254 then true
  else if 224 ≤ a then true
  else if a = 0 then true
  else false

def isBlockedIpv6 (ip : Ipv6Addr) : Bool :=
  let seg (i : ℕ) : UInt16 := ip.segments.getD i 0
  if ip.segments = [0, 0, 0, 0, 0, 0, 0, 1] then true
  else if seg 0 &&& 0xffc0 = 0xfe80 then true
  else if seg 0 &&& 0xfe00 = 0xfc00 then true
  else if seg 0 = 0 ∧ seg 1 = 0 ∧ seg 2 = 0 ∧ seg 3 = 0 ∧ seg 4 = 0 ∧ seg 5 = 0xffff then true
  else false

def isBlockedIp : IpAddr → Bool
  | .v4 ip => isBlockedIpv4 ip
  | .v6 ip => isBlockedIpv6 ip

/-! ## Name lookup -/

/-- What asking the resolver for a host comes to. -/
inductive Lookup
  | noResolver
  | failed
  | answer (ips : List IpAddr)
  deriving DecidableEq, Repr

/-- The DNS side of one call: the cache as it finds it, and the answer it would get. -/
structure DnsEnv where
  cache : Text → Option IpAddr
  lookup : Lookup

/-- The first IPv4 address of an answer, or else its first address. -/
def pickAddress (ips : List IpAddr) : Option IpAddr :=
  (ips.find? IpAddr.isIpv4).or ips.head?

/-- `dns::resolve`: a text for the host, and the cache afterwards.  Where there is no address the
text is the host itself. -/
def resolve (env : DnsEnv) (host : Text) : Text × (Text → Option IpAddr) :=
  if host.isEmpty then (host, env.cache)
  else if (IpAddr.parse host).isSome then (host, env.cache)
  else
    match env.cache host with
    | some ip => (ip.text, env.cache)
    | none =>
      match env.lookup with
      | .noResolver => (host, env.cache)
      | .failed => (host, env.cache)
      | .answer ips =>
        match pickAddress ips with
        | none => (host, env.cache)
        | some ip => (ip.text, Function.update env.cache host (some ip))

inductive DnsError
  | notResolvable (host : Text)
  | timeout
  | resolverInit (message : String)
  deriving DecidableEq, Repr

/-- What asking the resolver comes to, with the failures told apart. -/
inductive LookupResult
  | noResolver (message : String)
  | timedOut
  | failed
  | answer (ips : List IpAddr)
  deriving DecidableEq, Repr

/-- As `resolve` sees it. -/
def LookupResult.lookup : LookupResult → Lookup
  | .noResolver _ => .noResolver
  | .timedOut => .failed
  | .failed => .failed
  | .answer ips => .answer ips

/-- `dns::resolve_strict`: the address of the host, and the cache afterwards. -/
def resolveStrict (cache : Text → Option IpAddr) (result : LookupResult) (host : Text) :
    Except DnsError IpAddr × (Text → Option IpAddr) :=
  if host.isEmpty then (.error (.notResolvable host), cache)
  else
    match IpAddr.parse host with
    | some ip => (.ok ip, cache)
    | none =>
      match cache host with
      | some ip => (.ok ip, cache)
      | none =>
        match result with
        | .noResolver message => (.error (.resolverInit message), cache)
        | .timedOut => (.error .timeout, cache)
        | .failed => (.error (.notResolvable host), cache)
        | .answer ips =>
          match pickAddress ips with
          | none => (.error (.notResolvable host), cache)
          | some ip => (.ok ip, Function.update cache host (some ip))

/-! ## Validation -/

def parsePort (s : Text) : Option UInt16 := (parseUnsigned 65536 s).map UInt16.ofNat

def portText (p : UInt16) : Text := Nat.toDigits 10 p.toNat

/-- The port of an endpoint split into its parts.  None stands for `has_port` being false. -/
def endpointPort (parts : List Text) : Except ResolverError (Option UInt16) :=
  let portPart := parts.getD 1 []
  let hasPort := decide (parts.length = 2) && !portPart.isEmpty
  if hasPort then
    match parsePort portPart with
    | none => .error (.internal ("Invalid port number: " ++ String.ofList portPart))
    | some port =>
      if 1 ≤ port then .ok (some port)
      else .error (.internal ("Invalid port number: " ++ String.ofList (portText port)))
  else .ok none

/-- The address of a host, if it may be dialed. -/
def endpointAddress (env : DnsEnv) (host : Text) : Except ResolverError IpAddr :=
  match IpAddr.parse (resolve env host).1 with
  | none => .error (.internal ("Cannot resolve hostname: " ++ String.ofList host))
  | some ip =>
    if isBlockedIp ip then
      .error (.forbidden ("Access to private/reserved IP address is forbidden: "
        ++ String.ofList ip.text))
    else .ok ip

/-- An address, with a port after it if there is one. -/
def addressText (ip : IpAddr) (port : Option UInt16) : Text :=
  port.elim ip.text fun p => ip.text ++ ':' :: portText p

/-- `Adapter::validate`: the endpoint with its host replaced by the address it resolves to, if that
address may be dialed. -/
def validate (env : DnsEnv) (endpoint : Text) : Except ResolverError Text :=
  let parts := splitn ':' 3 endpoint
  if 2 < parts.length then
    .error (.internal ("Invalid endpoint format: " ++ String.ofList endpoint))
  else do
    let port ← endpointPort parts
    let ip ← endpointAddress env (parts.getD 0 [])
    return addressText ip port

/-- `Adapter::parse_endpoint`: the host and the port a server dials. -/
def parseEndpoint (endpoint : Text) (defaultPort : UInt16) : Text × UInt16 :=
  match splitOnce ':' endpoint with
  | some (host, portStr) =>
    if !portStr.isEmpty then (host, (parsePort portStr).getD defaultPort) else (host, defaultPort)
  | none => (endpoint, defaultPort)

/-! ## What the two lookups have to agree on -/

/-- The resolver is asked for the host. -/
def Asks (cache : Text → Option IpAddr) (host : Text) : Prop :=
  host ≠ [] ∧ IpAddr.parse host = none ∧ cache host = none

/-- The first IPv4 address of a list, or else its first address. -/
def Preferred (ips : List IpAddr) (ip : IpAddr) : Prop :=
  (∃ pre post, ips = pre ++ ip :: post ∧ ip.isIpv4 = true ∧ ∀ x ∈ pre, x.isIpv4 = false)
    ∨ (∀ x ∈ ips, x.isIpv4 = false) ∧ ips.head? = some ip

/-- One call of `resolve` and one of `resolve_strict`, with the same cache before and the same
answer of the resolver. -/
structure LookupsAgree (cache : Text → Option IpAddr) (result : LookupResult) (host : Text) :
    Prop where
  address : ∀ ip, IpAddr.parse (resolve ⟨cache, result.lookup⟩ host).1 = some ip
    ↔ (resolveStrict cache result host).1 = .ok ip
  otherwise : IpAddr.parse (resolve ⟨cache, result.lookup⟩ host).1 = none →
    (resolve ⟨cache, result.lookup⟩ host).1 = host
  sameCache : (resolve ⟨cache, result.lookup⟩ host).2 = (resolveStrict cache result host).2
  others : ∀ h, h ≠ host → (resolveStrict cache result host).2 h = cache h
  stored : ∀ ips, Asks cache host → result = .answer ips → ips ≠ [] →
    ∃ ip, Preferred ips ip ∧ (resolveStrict cache result host).2 host = some ip
  kept : (∀ ips, Asks cache host → result = .answer ips → ips = []) →
    (resolveStrict cache result host).2 host = cache host

/-! ## What the check and the dial have to agree on -/

/-- The part of an endpoint before its first colon. -/
def hostPart (endpoint : Text) : Text := (splitn ':' 3 endpoint).getD 0 []

/-- The address `validate` puts to the block list. -/
def checkedAddress (env : DnsEnv) (endpoint : Text) : Option IpAddr :=
  IpAddr.parse (resolve env (hostPart endpoint)).1

/-- The port number written in an endpoint. -/
def writtenPort (endpoint : Text) : Option UInt16 :=
  (splitOnce ':' endpoint).bind fun p => parsePort p.2

/-- Dialing `s` reaches the address that was checked for `endpoint`, at the port it names. -/
def DialsChecked (env : DnsEnv) (endpoint s : Text) (defaultPort : UInt16) : Prop :=
  ∃ ip, checkedAddress env endpoint = some ip ∧ isBlockedIp ip = false
    ∧ (parseEndpoint s defaultPort).1 = ip.text
    ∧ IpAddr.parse (parseEndpoint s defaultPort).1 = some ip
    ∧ (parseEndpoint s defaultPort).2 = (writtenPort endpoint).getD defaultPort

/-- Whether the host's address is an IPv4 one: as a literal, from the cache, or because the answer
has one. -/
def picksIpv4 (env : DnsEnv) (host : Text) : Bool :=
  match IpAddr.parse host with
  | some ip => ip.isIpv4
  | none =>
    match env.cache host with
    | some ip => ip.isIpv4
    | none =>
      match env.lookup with
      | .answer ips => ips.any IpAddr.isIpv4
      | _ => false

end ProtocolProxy
