import ProtocolProxy.Resolver

/-!
# TLS settings and what a TCP server makes of them

`Tls` (`rust/crates/utopia-proxy/src/tls/mod.rs`), the server configuration built from it
(`tls/context.rs`) and `TcpServer::start` up to the point where connections are accepted
(`server/tcp/server.rs`).  The files and what rustls thinks of them are given.

The cipher list and the minimal protocol version are left out: nothing reads them.
-/

namespace ProtocolProxy

structure Tls where
  certificate : String
  key : String
  ca : String
  requireClientCert : Bool

abbrev Cert := Bytes

abbrev PrivateKey := Bytes

/-- The files, and the answers of rustls. -/
structure Files where
  isFile : String → Bool
  read : String → Except String Bytes
  certs : Bytes → Except String (List Cert)
  privateKey : Bytes → Except String (Option PrivateKey)
  addRoot : Cert → Except String Unit
  buildVerifier : List Cert → Except String Unit
  singleCert : List Cert → PrivateKey → Except String Unit

def Tls.validate (files : Files) (tls : Tls) : Except String Unit :=
  if tls.certificate.isEmpty then .error "TLS certificate path is empty"
  else if !files.isFile tls.certificate then
    .error ("TLS certificate file not readable: " ++ tls.certificate)
  else if tls.key.isEmpty then .error "TLS key path is empty"
  else if !files.isFile tls.key then .error ("TLS private key file not readable: " ++ tls.key)
  else if tls.requireClientCert && tls.ca.isEmpty then
    .error "CA certificate path is required when client certificate verification is enabled"
  else if !tls.ca.isEmpty && !files.isFile tls.ca then
    .error ("TLS CA certificate file not readable: " ++ tls.ca)
  else .ok ()

/-- `PG_SSL_REQUEST`. -/
def pgSslRequest : Bytes := [0x00, 0x00, 0x00, 0x08, 0x04, 0xd2, 0x16, 0x2f]

def isPostgresqlSslRequest (data : Bytes) : Bool := data.length == 8 && data == pgSslRequest

/-! ## The server configuration -/

inductive ClientVerifier
  | webPki (roots : List Cert)
  | noClientAuth

structure ServerConfig where
  verifier : ClientVerifier
  certs : List Cert
  key : PrivateKey

def loadCerts (files : Files) (path : String) : Except String (List Cert) :=
  match files.read path with
  | .error e => .error ("open " ++ path ++ ": " ++ e)
  | .ok content => (files.certs content).mapError fun e => "parse certs from " ++ path ++ ": " ++ e

def loadPrivateKey (files : Files) (path : String) : Except String PrivateKey :=
  match files.read path with
  | .error e => .error ("open " ++ path ++ ": " ++ e)
  | .ok content =>
    match files.privateKey content with
    | .error e => .error ("parse key from " ++ path ++ ": " ++ e)
    | .ok none => .error ("no private key found in " ++ path)
    | .ok (some key) => .ok key

/-- The verifier that asks for a certificate of one of the authorities in the file. -/
def clientVerifier (files : Files) (ca : String) : Except String ClientVerifier := do
  let roots ← loadCerts files ca
  for cert in roots do
    (files.addRoot cert).mapError ("failed to add CA cert: " ++ ·)
  (files.buildVerifier roots).mapError ("failed to build client verifier: " ++ ·)
  return .webPki roots

def rustlsServerConfig (files : Files) (tls : Tls) : Except String ServerConfig := do
  let certs ← loadCerts files tls.certificate
  let key ← loadPrivateKey files tls.key
  let verifier ←
    if tls.requireClientCert && !tls.ca.isEmpty then clientVerifier files tls.ca
    else pure .noClientAuth
  (files.singleCert certs key).mapError ("failed to install server cert: " ++ ·)
  return ⟨verifier, certs, key⟩

/-! ## Starting the server -/

/-- The settings that are read here. -/
structure TcpConfig where
  ports : List UInt16
  receiveBufferSize : ℕ
  sockmapEnabled : Bool
  sockmapBpfObject : String
  tls : Option Tls

/-- What the connections share. -/
structure Shared where
  config : TcpConfig
  tlsAcceptor : Option ServerConfig
  sockmap : Bool

/-- `TcpServer::start`, before it listens.  `loaded` is whether the BPF object loads. -/
def TcpConfig.start (files : Files) (loaded : Bool) (config : TcpConfig) : Except String Shared :=
  if config.ports.isEmpty then .error "TcpConfig::ports must not be empty"
  else
    let sockmap := config.sockmapEnabled && !config.sockmapBpfObject.isEmpty && loaded
    match config.tls with
    | none => .ok ⟨config, none, sockmap⟩
    | some tls =>
      match tls.validate files with
      | .error e => .error ("TLS: " ++ e)
      | .ok () =>
        match rustlsServerConfig files tls with
        | .error e => .error ("TLS: " ++ e)
        | .ok acceptor => .ok ⟨config, some acceptor, sockmap⟩

end ProtocolProxy
