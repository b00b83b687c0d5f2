import Mathlib

/-!
# What a resolver answers and what a route returns

The data the adapters pass around: the resolver's result and its errors
(`rust/crates/utopia-proxy/src/resolver/mod.rs`), the protocols (`protocol.rs`), the routing result
(`connection_result.rs`) and the servers' errors (`error.rs`).

Texts that are split or parsed are lists of characters.  Messages are strings.
-/

namespace ProtocolProxy

abbrev Bytes := List UInt8

abbrev Text := List Char

/-- A `HashMap<String, String>`: a key is listed once. -/
abbrev Metadata := List (String × String)

def Metadata.insert (m : Metadata) (k v : String) : Metadata :=
  (k, v) :: m.filter fun p => p.1 ≠ k

/-- The variants of `ResolverError`, which differ only in their status code. -/
inductive ErrorKind
  | notFound
  | unavailable
  | timeout
  | forbidden
  | internal
  deriving DecidableEq, Repr

structure ResolverError where
  kind : ErrorKind
  message : String
  context : Metadata
  deriving DecidableEq, Repr

namespace ResolverError

def notFound (message : String) : ResolverError := ⟨.notFound, message, []⟩

def forbidden (message : String) : ResolverError := ⟨.forbidden, message, []⟩

def internal (message : String) : ResolverError := ⟨.internal, message, []⟩

/-- The error as it is displayed. -/
def text (e : ResolverError) : String :=
  match e.kind with
  | .notFound => "not found: " ++ e.message
  | .unavailable => "unavailable: " ++ e.message
  | .timeout => "timeout: " ++ e.message
  | .forbidden => "forbidden: " ++ e.message
  | .internal => "internal: " ++ e.message

/-- The HTTP status that stands for the error. -/
def code (e : ResolverError) : UInt16 :=
  match e.kind with
  | .notFound => 404
  | .unavailable => 503
  | .timeout => 504
  | .forbidden => 403
  | .internal => 500

end ResolverError

/-- A successful resolution.  The timeout field is left out: nothing here reads it. -/
structure ResolverResult where
  endpoint : Text
  metadata : Metadata
  deriving DecidableEq, Repr

inductive Protocol
  | http | smtp | tcp | postgreSQL | mySQL | mongoDB | redis | memcached | kafka | amqp
  | clickHouse | cassandra | nats | mssql | oracle | elasticsearch | mqtt | grpc | zooKeeper
  | etcd | neo4j | couchbase | cockroachDB | tiDB | pulsar | ftp | ldap | rethinkDB
  deriving DecidableEq, Repr

/-- Where a connection goes, and what is known about how it got there. -/
structure ConnectionResult where
  endpoint : Text
  protocol : Protocol
  metadata : Metadata
  deriving DecidableEq, Repr

abbrev RawFd := ℕ

/-- The variants of `ProxyError` that the servers return. -/
inductive ProxyError
  | resolver (e : ResolverError)
  | io (e : String)
  | tls (message : String)
  | backendConnect (message : String)
  | other (message : String)
  deriving DecidableEq, Repr

/-! ## `String::from_utf8_lossy` -/

def isContinuation (b : UInt8) : Bool := b &&& 192 = 128

/-- The bytes that may follow the first one of a three-byte character. -/
def isSecondOfThree (b c : UInt8) : Bool :=
  (b = 0xE0 ∧ 0xA0 ≤ c ∧ c ≤ 0xBF) ∨ (0xE1 ≤ b ∧ b ≤ 0xEC ∧ 0x80 ≤ c ∧ c ≤ 0xBF) ∨
    (b = 0xED ∧ 0x80 ≤ c ∧ c ≤ 0x9F) ∨ (0xEE ≤ b ∧ b ≤ 0xEF ∧ 0x80 ≤ c ∧ c ≤ 0xBF)

/-- The bytes that may follow the first one of a four-byte character. -/
def isSecondOfFour (b c : UInt8) : Bool :=
  (b = 0xF0 ∧ 0x90 ≤ c ∧ c ≤ 0xBF) ∨ (0xF1 ≤ b ∧ b ≤ 0xF3 ∧ 0x80 ≤ c ∧ c ≤ 0xBF) ∨
    (b = 0xF4 ∧ 0x80 ≤ c ∧ c ≤ 0x8F)

/-- The character the bytes start with, or none if they are malformed there, and how many of them
it takes.  A byte past the end counts as zero. -/
def decodeHead (b : UInt8) (rest : Bytes) : Option ℕ × ℕ :=
  let c₁ := rest.getD 0 0
  let c₂ := rest.getD 1 0
  let c₃ := rest.getD 2 0
  let low (c : UInt8) : ℕ := c.toNat % 64
  if b < 0x80 then (some b.toNat, 1)
  else if 0xC2 ≤ b ∧ b ≤ 0xDF then
    if isContinuation c₁ then (some (b.toNat % 32 * 64 + low c₁), 2) else (none, 1)
  else if 0xE0 ≤ b ∧ b ≤ 0xEF then
    if !isSecondOfThree b c₁ then (none, 1)
    else if !isContinuation c₂ then (none, 2)
    else (some ((b.toNat % 16 * 64 + low c₁) * 64 + low c₂), 3)
  else if 0xF0 ≤ b ∧ b ≤ 0xF4 then
    if !isSecondOfFour b c₁ then (none, 1)
    else if !isContinuation c₂ then (none, 2)
    else if !isContinuation c₃ then (none, 3)
    else (some (((b.toNat % 8 * 64 + low c₁) * 64 + low c₂) * 64 + low c₃), 4)
  else (none, 1)

def decodeLossy : ℕ → Bytes → Text
  | 0, _ => []
  | _, [] => []
  | fuel + 1, b :: rest =>
    let (c, len) := decodeHead b rest
    c.elim (Char.ofNat 0xFFFD) Char.ofNat :: decodeLossy fuel ((b :: rest).drop len)

/-- Every malformed piece is read as U+FFFD. -/
def fromUtf8Lossy (data : Bytes) : String := String.ofList (decodeLossy data.length data)

def decodeStrict : ℕ → Bytes → Option Text
  | 0, _ => some []
  | _, [] => some []
  | fuel + 1, b :: rest =>
    match decodeHead b rest with
    | (some c, len) => (decodeStrict fuel ((b :: rest).drop len)).map (Char.ofNat c :: ·)
    | (none, _) => none

/-- `str::from_utf8`. -/
def fromUtf8 (data : Bytes) : Option Text := decodeStrict data.length data

/-- `str::as_bytes`. -/
def asBytes (s : Text) : Bytes := s.flatMap String.utf8EncodeChar

/-! ## Chains of calls that may fail -/

theorem bind_eq_ok {ε β γ : Type} {x : Except ε β} {f : β → Except ε γ} {c : γ} :
    (x >>= f) = .ok c ↔ ∃ b, x = .ok b ∧ f b = .ok c := by
  cases x with
  | error e => simp [bind, Except.bind]
  | ok b => simp [bind, Except.bind]

end ProtocolProxy
