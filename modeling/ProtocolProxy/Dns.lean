import ProtocolProxy.Endpoint
import ProtocolProxy.Machine

/-!
# The DNS cache over a run

`set_ttl`, `clear` and `resolve` of `rust/crates/utopia-proxy/src/dns.rs` as a machine: any number
of calls of `resolve`, stopped while the resolver is asked, over the configured time to live, the
cache and a clock that never goes back.  The cache is made when it is first used, with the time to
live that is configured then, and keeps it.  It may lose an entry at any time.

`src/Dns.php`, which the module mirrors, keeps the time at which an entry expires in the entry.

Both record what they did in a log, for the statements about them; no step reads it.
-/

namespace ProtocolProxy

open Net

/-! ## What either cache is to keep -/

namespace Dns

/-- `β` is what a lookup answers and `α` the address that is stored. -/
inductive Event (α β : Type)
  | inserted (host : Text) (answer : β) (ip : α) (time : ℕ) (ttl : ℤ)
  | cleared
  | hit (host : Text) (ip : α) (time : ℕ)
  deriving DecidableEq, Repr

variable {α β : Type}

/-- The address was stored at `time`, from the answer to a lookup, with `ttl` configured, and the
cache has not been cleared since. -/
def Inserted (pick : β → Option α) (log : List (Event α β)) (host : Text) (ip : α) (time : ℕ)
    (ttl : ℤ) : Prop :=
  ∃ answer pre post, log = pre ++ .inserted host answer ip time ttl :: post
    ∧ pick answer = some ip ∧ .cleared ∉ post

/-- An answer from the cache was stored less than the time to live ago that was configured when it
was stored. -/
def Honours (pick : β → Option α) (log : List (Event α β)) : Prop :=
  Machine.Justified (fun pre e => ∀ host ip time, e = .hit host ip time →
    ∃ time' ttl, Inserted pick pre host ip time' ttl ∧ time' ≤ time ∧ (time : ℤ) - time' < ttl) log

/-! ## `dns.rs` -/

structure Entry where
  ip : IpAddr
  insertedAt : ℕ
  deriving DecidableEq, Repr

structure Cache where
  timeToLive : ℕ
  entries : Text → Option Entry

/-- The address of a host, unless it has expired. -/
def Cache.get (c : Cache) (now : ℕ) (host : Text) : Option IpAddr :=
  (c.entries host).bind fun e => if now - e.insertedAt < c.timeToLive then some e.ip else none

def Cache.insert (c : Cache) (now : ℕ) (host : Text) (ip : IpAddr) : Cache :=
  { c with entries := Function.update c.entries host (some ⟨ip, now⟩) }

def Cache.remove (c : Cache) (host : Text) : Cache :=
  { c with entries := Function.update c.entries host none }

inductive Pc
  /-- in `timeout(lookup_timeout, lookup).await` -/
  | lookup
  | returned (answer : Text)
  deriving DecidableEq, Repr

structure Call where
  host : Text
  pc : Pc
  deriving DecidableEq, Repr

/-- `cache` is none before its first use. -/
structure State where
  now : ℕ
  ttlSeconds : ℕ
  cache : Option Cache
  calls : List Call
  log : List (Event IpAddr (List IpAddr))

def new : State := ⟨0, 60, none, [], []⟩

/-- The configured time to live in nanoseconds, the unit of the clock. -/
def State.ttl (s : State) : ℕ := s.ttlSeconds * 1000000000

/-- The cache, made if this is its first use. -/
def State.built (s : State) : Cache := s.cache.getD ⟨s.ttl, fun _ => none⟩

def State.start (s : State) (host : Text) (pc : Pc) : State :=
  { s with calls := s.calls ++ [⟨host, pc⟩] }

/-- `resolve` up to the lookup. -/
def State.resolve (s : State) (host : Text) : State :=
  if host.isEmpty then s.start host (.returned host)
  else if (IpAddr.parse host).isSome then s.start host (.returned host)
  else
    match s.built.get s.now host with
    | some ip =>
      State.start { s with cache := some s.built, log := s.log ++ [.hit host ip s.now] } host
        (.returned ip.text)
    | none => State.start { s with cache := some s.built } host .lookup

/-- `resolve` of call `i` after the lookup.  Without a resolver there is no lookup to wait for. -/
def State.lookedUp (s : State) (i : ℕ) (host : Text) (outcome : Lookup) : State :=
  let returned (answer : Text) : List Call := s.calls.set i ⟨host, .returned answer⟩
  match outcome with
  | .noResolver => { s with calls := returned host }
  | .failed => { s with calls := returned host }
  | .answer ips =>
    match pickAddress ips with
    | none => { s with calls := returned host }
    | some ip =>
      { s with
        cache := some (s.built.insert s.now host ip)
        calls := returned ip.text
        log := s.log ++ [.inserted host ips ip s.now s.ttl] }

inductive Action
  | tick (ns : ℕ)
  | setTtl (seconds : ℕ)
  | clear
  | evict (host : Text)
  | resolve (host : Text)
  | lookedUp (i : ℕ) (outcome : Lookup)
  deriving DecidableEq, Repr

def step (s : State) : Action → Option State
  | .tick ns => some { s with now := s.now + ns }
  | .setTtl seconds => some { s with ttlSeconds := seconds }
  | .clear =>
    some { s with cache := some { s.built with entries := fun _ => none }
                  log := s.log ++ [.cleared] }
  | .evict host => some { s with cache := s.cache.map fun c => c.remove host }
  | .resolve host => some (s.resolve host)
  | .lookedUp i outcome => s.calls[i]?.bind fun c =>
      if c.pc = .lookup then some (s.lookedUp i c.host outcome) else none

/-- The address a lookup gives. -/
def address : Lookup → Option IpAddr
  | .answer ips => pickAddress ips
  | _ => none

/-- A lookup without an address leaves the cache as it is. -/
def FailuresKeep (s : State) : Prop :=
  ∀ i outcome s', step s (.lookedUp i outcome) = some s' → address outcome = none →
    s'.cache = s.cache

/-- When an address is stored, the time to live that is configured is no less than the one the cache
was made with. -/
def TtlCovers (s : State) : Action → Prop
  | .lookedUp _ outcome => (address outcome).isSome → s.built.timeToLive ≤ s.ttl
  | _ => True

end Dns

/-! ## `Dns.php` -/

namespace PhpDns

structure Entry where
  ip : Text
  expires : ℤ
  deriving DecidableEq, Repr

/-- A call of `resolve` whose lookup has not returned, with the time it has read. -/
structure Call where
  host : Text
  now : ℕ
  deriving DecidableEq, Repr

structure State where
  now : ℕ
  ttl : ℤ
  cache : Text → Option Entry
  calls : List (Option Call)
  log : List (Dns.Event Text Text)

def new : State := ⟨0, 60, fun _ => none, [], []⟩

variable (isIp : Text → Bool)

/-- `resolve` up to the lookup.  The calls that have returned are not kept. -/
def State.resolve (s : State) (host : Text) : State :=
  if host.isEmpty || isIp host then s
  else
    match s.cache host with
    | some e =>
      if (s.now : ℤ) < e.expires then { s with log := s.log ++ [.hit host e.ip s.now] }
      else { s with calls := s.calls ++ [some ⟨host, s.now⟩] }
    | none => { s with calls := s.calls ++ [some ⟨host, s.now⟩] }

/-- What of an answer is stored: an address, and not the host itself. -/
def stored (host answer : Text) : Option Text :=
  if answer ≠ host ∧ isIp answer then some answer else none

/-- `resolve` of call `i` after the lookup, which gives false or a text. -/
def State.lookedUp (s : State) (i : ℕ) (c : Call) (answer : Option Text) : State :=
  let s := { s with calls := s.calls.set i none }
  match answer.bind (stored isIp c.host) with
  | none => s
  | some ip =>
    { s with cache := Function.update s.cache c.host (some ⟨ip, c.now + s.ttl⟩)
             log := s.log ++ [.inserted c.host ip ip s.now s.ttl] }

inductive Action
  | tick (seconds : ℕ)
  | setTtl (seconds : ℤ)
  | clear
  | resolve (host : Text)
  | lookedUp (i : ℕ) (answer : Option Text)
  deriving DecidableEq, Repr

def step (s : State) : Action → Option State
  | .tick seconds => some { s with now := s.now + seconds }
  | .setTtl seconds => some { s with ttl := seconds }
  | .clear => some { s with cache := fun _ => none, log := s.log ++ [.cleared] }
  | .resolve host => some (s.resolve isIp host)
  | .lookedUp i answer => s.calls[i]?.join.map fun c => s.lookedUp isIp i c answer

end PhpDns

end ProtocolProxy
