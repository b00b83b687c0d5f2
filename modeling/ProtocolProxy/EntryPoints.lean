import ProtocolProxy.Numeric
import ProtocolProxy.Tls
import ProtocolProxy.Trim

/-!
# The two entry points

`main` of `rust/bins/proxy/src/main.rs` and `bin/proxy`, up to the server they start.  Both are set
up by the same environment variables, so that one can be put in place of the other.

The environment's values are texts, and the command line has at most one argument.  Only Rust reads
`TCP_TIMEOUT` and `TCP_CONNECT_TIMEOUT`; PHP has the defaults of its settings.  What Rust ignores is
left out: `*_SERVER_IMPL`, `*_SERVER_MODE` and `*_REACTOR_NUM`.
-/

namespace ProtocolProxy

namespace Entry

inductive Kind
  | text
  | flag
  | port
  | number
  | seconds
  deriving DecidableEq, Repr

inductive Var
  | proxyProtocol | proxyResolver
  | proxyTlsEnabled | proxyTlsCert | proxyTlsKey | proxyTlsCa | proxyTlsRequireClientCert
  | tcpBackendEndpoint | tcpPostgresPort | tcpMysqlPort | tcpWorkers | tcpSkipValidation
  | tcpSockmapEnabled | tcpSockmapBpfObject | tcpTimeout | tcpConnectTimeout
  | httpBackendEndpoint | httpPort | httpWorkers | httpBackendPoolSize | httpKeepaliveTimeout
  | httpOpenHttp2 | httpSkipValidation | httpFastPath | httpRawBackend
  | smtpBackendEndpoint | smtpPort | smtpWorkers | smtpSkipValidation
  deriving DecidableEq, Repr

def Var.kind : Var → Kind
  | .proxyTlsEnabled | .proxyTlsRequireClientCert | .tcpSkipValidation | .tcpSockmapEnabled
  | .httpOpenHttp2 | .httpSkipValidation | .httpFastPath | .httpRawBackend
  | .smtpSkipValidation => .flag
  | .tcpPostgresPort | .tcpMysqlPort | .httpPort | .smtpPort => .port
  | .tcpWorkers | .httpWorkers | .httpBackendPoolSize | .httpKeepaliveTimeout
  | .smtpWorkers => .number
  | .tcpTimeout | .tcpConnectTimeout => .seconds
  | .proxyProtocol | .proxyResolver | .proxyTlsCert | .proxyTlsKey | .proxyTlsCa
  | .tcpBackendEndpoint | .tcpSockmapBpfObject | .httpBackendEndpoint
  | .smtpBackendEndpoint => .text

abbrev Env := Var → Option Text

inductive Protocol
  | tcp
  | http
  | smtp
  deriving DecidableEq, Repr

def Protocol.name : Protocol → Text
  | .tcp => "tcp".toList
  | .http => "http".toList
  | .smtp => "smtp".toList

/-- The protocol of a name in lower case. -/
def Protocol.ofName (name : Text) : Option Protocol :=
  if name = Protocol.tcp.name then some .tcp
  else if name = Protocol.http.name then some .http
  else if name = Protocol.smtp.name then some .smtp
  else none

def Protocol.endpointEnv : Protocol → Var
  | .tcp => .tcpBackendEndpoint
  | .http => .httpBackendEndpoint
  | .smtp => .smtpBackendEndpoint

def Protocol.endpointDefault : Protocol → Text
  | .tcp => "127.0.0.1:5432".toList
  | .http => "127.0.0.1:5678".toList
  | .smtp => "127.0.0.1:1025".toList

/-! ## What is started -/

/-- The resolver: one fixed endpoint, or what a PHP file returns. -/
inductive Resolver
  | fixed (endpoint : Text)
  | file (path : Text)

/-- `sockmap` is the BPF object that is loaded.  The timeouts are in nanoseconds. -/
structure TcpSettings where
  ports : List ℤ
  workers : ℤ
  skipValidation : Bool
  timeout : ℕ
  connectTimeout : ℕ
  sockmap : Option Text
  tls : Option Tls

structure HttpSettings where
  port : ℤ
  workers : ℤ
  poolSize : ℤ
  keepaliveTimeout : ℤ
  http2 : Bool
  skipValidation : Bool
  fastPath : Bool
  rawBackend : Bool

structure SmtpSettings where
  port : ℤ
  workers : ℤ
  skipValidation : Bool

inductive Server
  | tcp (resolver : Resolver) (settings : TcpSettings)
  | http (resolver : Resolver) (settings : HttpSettings)
  | smtp (resolver : Resolver) (settings : SmtpSettings)

/-- A program that ends before it starts a server, with what it prints. -/
inductive Exit
  /-- the command line is not one that clap takes -/
  | usage
  /-- a timeout is too long for a `Duration` -/
  | panicked
  | message (text : String)

/-! ## `main.rs` -/

def truthy : List Text := ["1".toList, "true".toList, "yes".toList, "on".toList]

def falsy : List Text := ["0".toList, "false".toList, "no".toList, "off".toList, []]

def envBool (env : Env) (key : Var) (default : Bool) : Bool :=
  match env key with
  | none => default
  | some value =>
    let word := (Trim.trim value).map Char.toLower
    if truthy.contains word then true
    else if falsy.contains word then false
    else default

/-- A number of an unsigned type with `bound` values. -/
def envUnsigned (bound : ℕ) (env : Env) (key : Var) (default : ℕ) : ℕ :=
  ((env key).bind fun value => Digits.parseUnsigned bound (Trim.trim value)).getD default

def envUsize : Env → Var → ℕ → ℕ := envUnsigned (2 ^ 64)

def envU16 : Env → Var → ℕ → ℕ := envUnsigned (2 ^ 16)

def envU64 : Env → Var → ℕ → ℕ := envUnsigned (2 ^ 64)

/-- A double: not a number, infinite, or a fraction. -/
inductive Double
  | nan
  | infinite (negative : Bool)
  | finite (negative : Bool) (num den : ℕ)
  deriving DecidableEq, Repr

/-- The exponent of a number.  It grows no more once it has reached 65536. -/
def readScientific : List Char → Option ℤ
  | [] => some 0
  | c :: s =>
    let sign := Numeric.readSign s
    if (c = 'e' ∨ c = 'E') ∧ sign.2 ≠ [] ∧ sign.2.all Numeric.isDigit then
      let e : ℕ := sign.2.foldl (fun e c => if e < 65536 then 10 * e + (c.toNat - 48) else e) 0
      some (if sign.1 then -(e : ℤ) else e)
    else none

/-- `str::parse::<f64>`.  A number that is too large for a double stays as it is. -/
def parseF64 (s : Text) : Option Double :=
  let sign := Numeric.readSign s
  let word := sign.2.map Char.toLower
  if word = "nan".toList then some .nan
  else if word = "inf".toList ∨ word = "infinity".toList then some (.infinite sign.1)
  else
    let ds := sign.2.takeWhile Numeric.isDigit
    let fraction := Numeric.readFraction (sign.2.dropWhile Numeric.isDigit)
    let fds := fraction.1.getD []
    if ds = [] ∧ fds = [] then none
    else
      (readScientific fraction.2).map fun e =>
        let scale : ℤ := e - fds.length
        let x := Numeric.nearestDouble
          (Digits.value 10 0 (ds ++ fds) * 10 ^ scale.toNat) (10 ^ (-scale).toNat)
        .finite sign.1 x.1 x.2

def envF64 (env : Env) (key : Var) (default : Double) : Double :=
  ((env key).bind fun value => parseF64 (Trim.trim value)).getD default

/-- `x.max(0.0)`, which is 0 if `x` is not a number. -/
def Double.maxZero : Double → Double
  | .nan | .infinite true | .finite true _ _ => .finite false 0 1
  | x => x

/-- `Duration::from_secs_f64`, in nanoseconds. -/
def fromSecsF64 : Double → Except Exit ℕ
  | .finite false num den =>
    if num < 2 ^ 64 * den then .ok (Numeric.roundEven (num * 10 ^ 9) den) else .error .panicked
  | _ => .error .panicked

def envString (env : Env) (key : Var) (default : Text) : Text :=
  match env key with
  | none => default
  | some value => if value.isEmpty then default else value

/-- `Cli::parse`: the names of the subcommands, as they are. -/
def parseCommand : Option Text → Except Exit (Option Protocol)
  | none => .ok none
  | some arg =>
    match Protocol.ofName arg with
    | some command => .ok (some command)
    | none => .error .usage

def parseName (name : Text) : Option Protocol := Protocol.ofName (name.map Char.toLower)

def resolveProtocol (env : Env) : Option Protocol → Except Exit Protocol
  | some protocol => .ok protocol
  | none =>
    match env .proxyProtocol with
    | none => .ok .tcp
    | some fromEnv =>
      if fromEnv.isEmpty then .ok .tcp
      else
        match parseName fromEnv with
        | some protocol => .ok protocol
        | none =>
          .error (.message ("Unknown protocol in PROXY_PROTOCOL: " ++ String.ofList fromEnv
            ++ " (expected tcp, http, or smtp)"))

def buildResolver (env : Env) (protocol : Protocol) : Resolver :=
  .fixed (envString env protocol.endpointEnv protocol.endpointDefault)

def tlsRequired : String :=
  "ERROR: PROXY_TLS_ENABLED=true but PROXY_TLS_CERT and PROXY_TLS_KEY are required"

def buildTls (env : Env) : Except Exit (Option Tls) :=
  if !envBool env .proxyTlsEnabled false then .ok none
  else
    let certificate := (env .proxyTlsCert).getD []
    let key := (env .proxyTlsKey).getD []
    if certificate.isEmpty || key.isEmpty then .error (.message tlsRequired)
    else
      .ok (some
        { certificate := String.ofList certificate
          key := String.ofList key
          ca := String.ofList ((env .proxyTlsCa).getD [])
          requireClientCert := envBool env .proxyTlsRequireClientCert false })

def runTcp (env : Env) (cpus : ℕ) : Except Exit TcpSettings := do
  let ports := [envU16 env .tcpPostgresPort 5432, envU16 env .tcpMysqlPort 3306].filter (0 < ·)
  let ports := if ports.isEmpty then [5432, 3306] else ports
  let sockmapPath := (env .tcpSockmapBpfObject).getD []
  let sockmapEnabled := envBool env .tcpSockmapEnabled false
  let timeout ← fromSecsF64 (envF64 env .tcpTimeout (.finite false 30 1)).maxZero
  let connectTimeout ← fromSecsF64 (envF64 env .tcpConnectTimeout (.finite false 5 1)).maxZero
  let tls ← buildTls env
  return {
    ports := ports.map (↑)
    workers := envUsize env .tcpWorkers cpus
    skipValidation := envBool env .tcpSkipValidation false
    timeout := timeout
    connectTimeout := connectTimeout
    sockmap := if sockmapEnabled && !sockmapPath.isEmpty then some sockmapPath else none
    tls := tls }

def runHttp (env : Env) (cpus : ℕ) : HttpSettings where
  port := envU16 env .httpPort 8080
  workers := envUsize env .httpWorkers (cpus * 2)
  poolSize := envUsize env .httpBackendPoolSize 2048
  keepaliveTimeout := envU64 env .httpKeepaliveTimeout 60
  http2 := envBool env .httpOpenHttp2 false
  skipValidation := envBool env .httpSkipValidation false
  fastPath := envBool env .httpFastPath true
  rawBackend := envBool env .httpRawBackend false

def runSmtp (env : Env) (cpus : ℕ) : SmtpSettings where
  port := envU16 env .smtpPort 25
  workers := envUsize env .smtpWorkers (cpus * 2)
  skipValidation := envBool env .smtpSkipValidation false

/-- `main`, once the protocol is known. -/
def start (env : Env) (cpus : ℕ) (protocol : Protocol) : Except Exit Server :=
  let resolver := buildResolver env protocol
  match protocol with
  | .tcp => (runTcp env cpus).map (Server.tcp resolver)
  | .http => .ok (.http resolver (runHttp env cpus))
  | .smtp => .ok (.smtp resolver (runSmtp env cpus))

def main (env : Env) (cpus : ℕ) (arg : Option Text) : Except Exit Server := do
  let command ← parseCommand arg
  let protocol ← resolveProtocol env command
  start env cpus protocol

end Entry

/-! ## `bin/proxy` -/

namespace PhpEntry

open Entry (Env Var Resolver TcpSettings HttpSettings SmtpSettings Server Exit)

/-- `$value ?: $default`, of what `getenv` gives.  The text `0` is false too. -/
def orElse (value : Option Text) (default : Text) : Text :=
  match value with
  | none => default
  | some value => if value.isEmpty || value = ['0'] then default else value

def envInt (env : Env) (key : Var) (default : ℤ) : ℤ :=
  match env key with
  | none => default
  | some value => Numeric.intCast value

/-- What `filter_var` takes away at both ends. -/
def isFilterBlank (c : Char) : Bool :=
  c = ' ' || c = '\t' || c = '\n' || c = '\r' || c.toNat = 11

/-- `filter_var($value, FILTER_VALIDATE_BOOLEAN)`. -/
def filterBoolean (value : Text) : Bool :=
  Entry.truthy.contains ((Trim.trimmed isFilterBlank value).map Char.toLower)

def envBool (env : Env) (key : Var) (default : Bool) : Bool :=
  match env key with
  | none => default
  | some value => filterBoolean value

/-- `$argv[1] ?? getenv('PROXY_PROTOCOL') ?: 'tcp'`, in lower case. -/
def protocolName (env : Env) (arg : Option Text) : Text :=
  (orElse (arg.or (env .proxyProtocol)) "tcp".toList).map Char.toLower

/-- What is outside of the environment: whether a file exists, and whether it returns a resolver. -/
structure Files where
  exists_ : Text → Bool
  isResolver : Text → Bool

def resolverPath (env : Env) : Text :=
  orElse (env .proxyResolver) "/etc/utopia-proxy/resolver.php".toList

def resolver (files : Files) (env : Env) (protocol : Entry.Protocol) : Except Exit Resolver :=
  let path := resolverPath env
  if files.exists_ path then
    if files.isResolver path then .ok (.file path)
    else
      .error (.message ("ERROR: " ++ String.ofList path ++ " must return a Resolver instance"))
  else .ok (.fixed (orElse (env protocol.endpointEnv) protocol.endpointDefault))

def tls (env : Env) : Except Exit (Option Tls) :=
  if envBool env .proxyTlsEnabled false then
    let certificate := orElse (env .proxyTlsCert) []
    let key := orElse (env .proxyTlsKey) []
    if certificate = [] || key = [] then .error (.message Entry.tlsRequired)
    else
      .ok (some
        { certificate := String.ofList certificate
          key := String.ofList key
          ca := String.ofList (orElse (env .proxyTlsCa) [])
          requireClientCert := envBool env .proxyTlsRequireClientCert false })
  else .ok none

/-- The object is loaded in `onWorkerStart`, if it is enabled and its path is not empty.  The
timeouts are those of `Config`. -/
def startTcp (env : Env) (cpus : ℕ) : Except Exit TcpSettings :=
  let ports := [envInt env .tcpPostgresPort 5432, envInt env .tcpMysqlPort 3306].filter (0 < ·)
  let ports := if ports.isEmpty then [5432, 3306] else ports
  let sockmapBpfObject := orElse (env .tcpSockmapBpfObject) []
  (tls env).map fun tls =>
    { ports := ports
      workers := envInt env .tcpWorkers cpus
      skipValidation := envBool env .tcpSkipValidation false
      timeout := 30 * 10 ^ 9
      connectTimeout := 5 * 10 ^ 9
      sockmap :=
        if envBool env .tcpSockmapEnabled false && !sockmapBpfObject.isEmpty
        then some sockmapBpfObject else none
      tls := tls }

def startHttp (env : Env) (cpus : ℕ) : HttpSettings where
  port := envInt env .httpPort 8080
  workers := envInt env .httpWorkers (cpus * 2)
  poolSize := envInt env .httpBackendPoolSize 2048
  keepaliveTimeout := envInt env .httpKeepaliveTimeout 60
  http2 := envBool env .httpOpenHttp2 false
  skipValidation := envBool env .httpSkipValidation false
  fastPath := envBool env .httpFastPath true
  rawBackend := envBool env .httpRawBackend false

def startSmtp (env : Env) (cpus : ℕ) : SmtpSettings where
  port := envInt env .smtpPort 25
  workers := envInt env .smtpWorkers (cpus * 2)
  skipValidation := envBool env .smtpSkipValidation false

/-- The script, once the protocol is known. -/
def start (files : Files) (env : Env) (cpus : ℕ) (protocol : Entry.Protocol) :
    Except Exit Server := do
  let resolver ← resolver files env protocol
  match protocol with
  | .tcp => (startTcp env cpus).map (Server.tcp resolver)
  | .http => .ok (.http resolver (startHttp env cpus))
  | .smtp => .ok (.smtp resolver (startSmtp env cpus))

def main (files : Files) (env : Env) (cpus : ℕ) (arg : Option Text) : Except Exit Server :=
  let name := protocolName env arg
  match Entry.Protocol.ofName name with
  | some protocol => start files env cpus protocol
  | none =>
    .error (.message ("Unknown protocol: " ++ String.ofList name
      ++ " (expected tcp, http, or smtp)"))

end PhpEntry

/-! ## Environments for both -/

namespace Entry

/-- There is no resolver file, no text is a mere `0`, no flag has blanks that only Rust takes away,
`HTTP_FAST_PATH` is a word both know, numbers are written in digits and fit their types, and the
timeouts, which only Rust reads, are not set. -/
structure Portable (files : PhpEntry.Files) (env : Env) : Prop where
  noFile : files.exists_ (PhpEntry.resolverPath env) = false
  text : ∀ key : Var, key.kind = .text → env key ≠ some ['0']
  flag : ∀ (key : Var) (value : Text), key.kind = .flag → env key = some value →
    ∀ c ∈ value, Trim.isWhitespace c = true → PhpEntry.isFilterBlank c = true
  fastPath : ∀ value, env .httpFastPath = some value →
    (truthy ++ falsy).contains ((Trim.trim value).map Char.toLower) = true
  port : ∀ (key : Var) (value : Text), key.kind = .port → env key = some value →
    Digits.isPlain value = true ∧ Digits.value 10 0 (Digits.stripPlus value) < 2 ^ 16
  number : ∀ (key : Var) (value : Text), key.kind = .number → env key = some value →
    Digits.isPlain value = true ∧ Digits.value 10 0 (Digits.stripPlus value) < 2 ^ 63
  seconds : ∀ key : Var, key.kind = .seconds → env key = none

end Entry

end ProtocolProxy
