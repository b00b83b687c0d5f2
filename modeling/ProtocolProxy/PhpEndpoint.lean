import ProtocolProxy.Dns
import ProtocolProxy.Networks
import ProtocolProxy.Numeric
import ProtocolProxy.PhpHttp

/-!
# Endpoint validation in PHP

`Adapter::validate` of `src/Adapter.php` with its block list, and one call of `Dns::resolve`
(`src/Dns.php`), which the Rust adapter mirrors.

An endpoint is a text, as it is there: of its bytes PHP looks only at ASCII characters.  The
validators `IP` and the function `ip2long` recognise the addresses that Rust's standard library
parses, and `Range(1, 65535)` the numbers from 1 to 65535.
-/

namespace ProtocolProxy

namespace PhpEndpoint

open Net Numeric
open PhpHttp (hostAndPort strtolower)

/-! ## Addresses -/

def isIp (s : Text) : Bool := (IpAddr.parse s).isSome

def isIpv4 (s : Text) : Bool := (Ipv4Addr.parse s).isSome

def isIpv6 (s : Text) : Bool := isIp s && !isIpv4 s

def ip2long (s : Text) : Option ℕ := (Ipv4Addr.parse s).map Ipv4Addr.toBits

def blockedRanges : List (Text × Text) :=
  [("10.0.0.0".toList, "10.255.255.255".toList),
   ("172.16.0.0".toList, "172.31.255.255".toList),
   ("192.168.0.0".toList, "192.168.255.255".toList),
   ("127.0.0.0".toList, "127.255.255.255".toList),
   ("169.254.0.0".toList, "169.254.255.255".toList),
   ("224.0.0.0".toList, "239.255.255.255".toList),
   ("240.0.0.0".toList, "255.255.255.255".toList),
   ("0.0.0.0".toList, "0.255.255.255".toList)]

/-- Both ends of every range are addresses. -/
def inRange (longIp : ℕ) (range : Text × Text) : Bool :=
  match ip2long range.1, ip2long range.2 with
  | some rangeStart, some rangeEnd => rangeStart ≤ longIp ∧ longIp ≤ rangeEnd
  | _, _ => false

def isForbiddenIpv6 (ip : Text) : Bool :=
  ip = "::1".toList || "fe80:".toList.isPrefixOf ip || "fc00:".toList.isPrefixOf ip
    || "fd00:".toList.isPrefixOf ip || "::ffff:".toList.isPrefixOf (strtolower ip)

/-! ## Name lookup -/

/-- What a lookup gives.  `System::gethostbyname` of Swoole, called in a coroutine, gives false when
it fails; `gethostbyname` gives the host then. -/
inductive Answer
  | coroutine (ip : Option Text)
  | blocking (ip : Text)
  deriving DecidableEq, Repr

/-- The DNS side of one call: the cache, the time, and the answer it would get. -/
structure DnsEnv where
  cache : Text → Option PhpDns.Entry
  now : ℤ
  ttl : ℤ
  answer : Answer

/-- The entry of a host, if it has not expired. -/
def DnsEnv.entry (env : DnsEnv) (host : Text) : Option PhpDns.Entry :=
  (env.cache host).filter fun e => env.now < e.expires

/-- The cache after a lookup has answered. -/
def DnsEnv.store (env : DnsEnv) (host ip : Text) : Text → Option PhpDns.Entry :=
  if ip ≠ host ∧ isIp ip then Function.update env.cache host (some ⟨ip, env.now + env.ttl⟩)
  else env.cache

/-- `Dns::resolve`: a text for the host, and the cache afterwards. -/
def resolve (env : DnsEnv) (host : Text) : Text × (Text → Option PhpDns.Entry) :=
  if host.isEmpty || isIp host then (host, env.cache)
  else
    match env.entry host with
    | some e => (e.ip, env.cache)
    | none =>
      match env.answer with
      | .coroutine none => (host, env.cache)
      | .coroutine (some ip) => (ip, env.store host ip)
      | .blocking ip => (ip, env.store host ip)

/-! ## Validation -/

/-- The port of an endpoint split into its parts.  None stands for `$hasPort` being false. -/
def endpointPort (parts : List Text) : Except ResolverError (Option ℤ) :=
  match parts[1]? with
  | none => .ok none
  | some part =>
    let port := intCast part
    if 1 ≤ port ∧ port ≤ 65535 then .ok (some port)
    else .error (.internal ("Invalid port number: " ++ toString port))

/-- The text of a host's address, if it may be dialed. -/
def endpointAddress (env : DnsEnv) (host : Text) : Except ResolverError Text :=
  let ip := (resolve env host).1
  if ip = host ∧ isIp ip = false then
    .error (.internal ("Cannot resolve hostname: " ++ String.ofList host))
  else if isIpv4 ip then
    match ip2long ip with
    | none => .error (.internal ("Invalid IP address: " ++ String.ofList ip))
    | some longIp =>
      if blockedRanges.any (inRange longIp) then
        .error (.internal ("Access to private/reserved IP address is forbidden: "
          ++ String.ofList ip))
      else .ok ip
  else if isIpv6 ip && isForbiddenIpv6 ip then
    .error (.internal ("Access to private/reserved IPv6 address is forbidden: "
      ++ String.ofList ip))
  else .ok ip

def addressText (ip : Text) (port : Option ℤ) : Text := port.elim ip (hostAndPort ip)

/-- `Adapter::validate`. -/
def validate (env : DnsEnv) (endpoint : Text) : Except ResolverError Text :=
  let parts := endpoint.splitOn ':'
  if 2 < parts.length then
    .error (.internal ("Invalid endpoint format: " ++ String.ofList endpoint))
  else do
    let port ← endpointPort parts
    let ip ← endpointAddress env (parts.getD 0 [])
    return addressText ip port

/-! ## What the two validations have to agree on -/

/-- DNS gives the host an IPv4 address, or fails, in the Rust adapter. -/
def rustYields (env : ProtocolProxy.DnsEnv) (host : Text) : Option Ipv4Addr → Prop
  | some a => env.cache host = some (.v4 a)
      ∨ env.cache host = none ∧ ∃ ips : List Ipv4Addr, env.lookup = .answer ((a :: ips).map .v4)
  | none => env.cache host = none
      ∧ (env.lookup = .noResolver ∨ env.lookup = .failed ∨ env.lookup = .answer [])

/-- DNS gives the host an IPv4 address, or fails, in the PHP adapter. -/
def phpYields (env : DnsEnv) (host : Text) : Option Ipv4Addr → Prop
  | some a => (∃ e, env.entry host = some e ∧ e.ip = a.text)
      ∨ env.entry host = none
        ∧ (env.answer = .coroutine (some a.text) ∨ env.answer = .blocking a.text)
  | none => env.entry host = none
      ∧ (env.answer = .coroutine none ∨ env.answer = .blocking host)

/-- The address of a host: the one it is written as, or else the one DNS gives. -/
def hostAddress (answer : Option Ipv4Addr) (host : Text) : Option Ipv4Addr :=
  if host.isEmpty then none else (Ipv4Addr.parse host).or answer

/-- The host's address is one that may be dialed. -/
def Dialable (answer : Option Ipv4Addr) (host : Text) (a : Ipv4Addr) : Prop :=
  hostAddress answer host = some a ∧ isBlockedIpv4 a = false

/-- Both validations of an endpoint return the same texts. -/
def Agree (rust : ProtocolProxy.DnsEnv) (php : DnsEnv) (e : Text) : Prop :=
  ∀ s, ProtocolProxy.validate rust e = .ok s ↔ validate php e = .ok s

/-- A text after the colon that only one of the adapters takes: nothing at all, or what is a number
from 1 to 65535 for PHP without being digits with at most a plus sign in front. -/
def isLoosePort (port : Text) : Bool :=
  port = [] ∨ Digits.isPlain port = false ∧ 1 ≤ intCast port ∧ intCast port ≤ 65535

/-- An endpoint with one colon and such a text after it. -/
def isLoose (endpoint : Text) : Bool :=
  match endpoint.splitOn ':' with
  | [_, port] => isLoosePort port
  | _ => false

end PhpEndpoint

end ProtocolProxy
