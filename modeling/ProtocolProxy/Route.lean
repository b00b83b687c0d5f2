import ProtocolProxy.Endpoint
import ProtocolProxy.Machine

/-!
# Routing with a cache

`Adapter::route` and the setters it runs beside (`rust/crates/utopia-proxy/src/adapter/mod.rs`) as
a machine: any number of calls, each stopped at one of its awaits with the locals it holds there,
over the settings, the cache and a clock that never goes back.  What the callback, the resolver and
the DNS answer is part of the action, so they may be anything and change from one call to the next.

The cache may lose an entry at any time.  Reading a setting, reading the cache, looking at the
clock and writing the cache are separate steps, so that anything may happen between two of them.
The source holds the read lock of `on_resolve` over the resolver's await, which only makes
`set_on_resolve` wait; here it need not.

The log records what the calls did, for the statements about them; no step reads it.
-/

namespace ProtocolProxy

namespace Route

structure CacheEntry where
  endpoint : Text
  insertedAt : ℕ
  deriving DecidableEq, Repr

abbrev Answer := Except ResolverError ResolverResult

/-- Where a call stands.  Each but the last holds the time to live that was read at the start. -/
inductive Pc
  /-- at `self.cache_ttl.read().await` -/
  | readTtl
  /-- at `self.cache.get(data).await` -/
  | cacheGet (ttl : ℕ)
  /-- at `entry.inserted_at.elapsed()` -/
  | checkAge (ttl : ℕ) (entry : CacheEntry)
  /-- at `self.on_resolve.read().await` -/
  | readOnResolve (ttl : ℕ)
  /-- in `self.resolve_via_resolver(data).await` -/
  | resolveViaResolver (ttl : ℕ)
  /-- at `self.skip_validation.read().await` -/
  | readSkip (ttl : ℕ) (result : ResolverResult)
  /-- in `self.validate(&result.endpoint).await` -/
  | validating (ttl : ℕ) (result : ResolverResult)
  /-- at `Instant::now()`, with the endpoint to be stored -/
  | stamp (ttl : ℕ) (result : ResolverResult) (endpoint : Text)
  /-- in `self.cache.insert(..).await` -/
  | insert (ttl : ℕ) (result : ResolverResult) (endpoint : Text) (insertedAt : ℕ)
  | returned (r : Except ResolverError ConnectionResult)

def Pc.isReturned : Pc → Bool
  | .returned _ => true
  | _ => false

/-- One call of `route`.  `skipSeen` says that `skip_validation` was on at some time during it. -/
structure Call where
  data : Bytes
  pc : Pc
  skipSeen : Bool

inductive Event
  | readTtl (call : ℕ) (ttl : ℕ)
  | obtained (call : ℕ) (data : Bytes) (endpoint : Text)
  | readSkip (call : ℕ) (skip : Bool)
  | inserted (call : ℕ) (data : Bytes) (endpoint : Text) (insertedAt time : ℕ)
  | hit (call : ℕ) (data : Bytes) (endpoint : Text) (ttl time : ℕ)
  deriving DecidableEq

/-- The call an event is about. -/
def Event.call : Event → ℕ
  | readTtl i _ | obtained i _ _ | readSkip i _ | inserted i _ _ _ _ | hit i _ _ _ _ => i

/-- The fields of the adapter no call changes: its protocol, and whether it has a resolver. -/
structure Adapter where
  protocol : Protocol
  resolver : Bool

structure State where
  now : ℕ
  cacheTtl : ℕ
  skipValidation : Bool
  onResolve : Bool
  cache : Bytes → Option CacheEntry
  calls : List Call
  log : List Event

/-- `Adapter::new`. -/
def new : State := ⟨0, 0, false, false, fun _ => none, [], []⟩

/-- What a waiting call is resumed with. -/
inductive Input
  | go
  | callback (answer : Option Answer)
  | resolver (answer : Answer)
  | dns (env : DnsEnv)

/-- What a call's step does: where it stands then, what it writes to the cache under its own key,
and what it is recorded to have done. -/
structure Effect where
  pc : Pc
  write : Option CacheEntry := none
  events : List Event := []

variable (A : Adapter)

/-- The answer that is returned once the endpoint is known. -/
def fresh (result : ResolverResult) (endpoint : Text) : Except ResolverError ConnectionResult :=
  .ok ⟨endpoint, A.protocol, result.metadata.insert "cached" "false"⟩

/-- After the resolver or the callback answered. -/
def answered (i : ℕ) (data : Bytes) (ttl : ℕ) : Answer → Effect
  | .error e => { pc := .returned (.error e) }
  | .ok result =>
    { pc := if result.endpoint.isEmpty then
        .returned (.error (.notFound
          ("Resolver returned empty endpoint for: " ++ fromUtf8Lossy data)))
      else .readSkip ttl result
      events := [.obtained i data result.endpoint] }

/-- After the endpoint is known: it is stored if caching was on. -/
def resolved (ttl : ℕ) (result : ResolverResult) (endpoint : Text) : Pc :=
  if ttl = 0 then .returned (fresh A result endpoint) else .stamp ttl result endpoint

/-- The next step of call `i` on `data`, or none if it waits for something else. -/
def next (s : State) (i : ℕ) (data : Bytes) : Pc → Input → Option Effect
  | .readTtl, .go =>
    some { pc := if s.cacheTtl = 0 then .readOnResolve s.cacheTtl else .cacheGet s.cacheTtl
           events := [.readTtl i s.cacheTtl] }
  | .cacheGet ttl, .go =>
    some { pc := (s.cache data).elim (.readOnResolve ttl) (.checkAge ttl) }
  | .checkAge ttl entry, .go =>
    if s.now - entry.insertedAt < ttl then
      some { pc := .returned (.ok ⟨entry.endpoint, A.protocol, [("cached", "true")]⟩)
             events := [.hit i data entry.endpoint ttl s.now] }
    else some { pc := .readOnResolve ttl }
  | .readOnResolve ttl, .go => if s.onResolve then none else some { pc := .resolveViaResolver ttl }
  | .readOnResolve ttl, .callback answer =>
    if s.onResolve then
      some (answer.elim { pc := .resolveViaResolver ttl } (answered i data ttl))
    else none
  | .resolveViaResolver _, .go =>
    if A.resolver then none
    else some { pc := .returned (.error (.notFound "No resolver or resolve callback configured")) }
  | .resolveViaResolver ttl, .resolver answer =>
    if A.resolver then some (answered i data ttl answer) else none
  | .readSkip ttl result, .go =>
    some { pc := if s.skipValidation then resolved A ttl result result.endpoint
             else .validating ttl result
           events := [.readSkip i s.skipValidation] }
  | .validating ttl result, .dns env =>
    match validate env result.endpoint with
    | .error e => some { pc := .returned (.error e) }
    | .ok endpoint => some { pc := resolved A ttl result endpoint }
  | .stamp ttl result endpoint, .go => some { pc := .insert ttl result endpoint s.now }
  | .insert _ result endpoint insertedAt, .go =>
    some { pc := .returned (fresh A result endpoint)
           write := some ⟨endpoint, insertedAt⟩
           events := [.inserted i data endpoint insertedAt s.now] }
  | _, _ => none

inductive Action
  | tick (ns : ℕ)
  | setCacheTtl (seconds : ℕ)
  | setSkipValidation (skip : Bool)
  | setOnResolve
  | evict (data : Bytes)
  | route (data : Bytes)
  | resume (i : ℕ) (input : Input)

/-- A call that is still going on has seen `skip_validation` on. -/
def Call.seeSkip (c : Call) : Call := if c.pc.isReturned then c else { c with skipSeen := true }

def State.apply (s : State) (i : ℕ) (data : Bytes) (eff : Effect) : State :=
  { s with
    cache := eff.write.elim s.cache fun e => Function.update s.cache data (some e)
    calls := s.calls.modify i fun c => { c with pc := eff.pc }
    log := s.log ++ eff.events }

def step (s : State) : Action → Option State
  | .tick ns => some { s with now := s.now + ns }
  | .setCacheTtl seconds => some { s with cacheTtl := seconds * 1000000000 }
  | .setSkipValidation skip =>
    some { s with skipValidation := skip
                  calls := if skip then s.calls.map Call.seeSkip else s.calls }
  | .setOnResolve => some { s with onResolve := true }
  | .evict data => some { s with cache := Function.update s.cache data none }
  | .route data => some { s with calls := s.calls ++ [⟨data, .readTtl, s.skipValidation⟩] }
  | .resume i input =>
    s.calls[i]?.bind fun c => (next A s i c.data c.pc input).map (s.apply i c.data)

/-! ## Where the answers come from -/

/-- Call `i` on `data` got a non-empty endpoint from its resolver or callback, and `endpoint` is
that one if the call had read `skip_validation` as true, and what `validate` made of it if not. -/
def Sourced (log : List Event) (i : ℕ) (data : Bytes) (endpoint : Text) : Prop :=
  ∃ raw, .obtained i data raw ∈ log ∧ raw ≠ [] ∧
    ((.readSkip i true ∈ log ∧ endpoint = raw)
      ∨ (.readSkip i false ∈ log ∧ ∃ env, validate env raw = .ok endpoint))

/-- Where an entry of the cache comes from: call `i` stored it at `time`, and had a source for it.
-/
structure Provenance (log : List Event) (i : ℕ) (data : Bytes) (endpoint : Text)
    (insertedAt time : ℕ) : Prop where
  inserted : .inserted i data endpoint insertedAt time ∈ log
  sourced : Sourced log i data endpoint

/-- What an answer from the cache at `time` rests on: it was stored before, for the same data, and
both stamped and stored less than the time to live ago that the call had read at its start. -/
def FreshAnswer (log : List Event) (i : ℕ) (data : Bytes) (endpoint : Text) (ttl time : ℕ) : Prop :=
  .readTtl i ttl ∈ log
    ∧ ∃ j insertedAt t, Provenance log j data endpoint insertedAt t ∧ insertedAt ≤ t ∧ t ≤ time
      ∧ time - insertedAt < ttl

/-- Every answer from the cache is a fresh one. -/
def HitsFresh (log : List Event) : Prop :=
  Machine.Justified (fun pre e => ∀ i data endpoint ttl time, e = .hit i data endpoint ttl time →
    FreshAnswer pre i data endpoint ttl time) log

/-- Every call that has returned an answer marked as cached is logged to have answered from the
cache. -/
def HitsLogged (s : State) : Prop :=
  ∀ i c r, s.calls[i]? = some c → c.pc = .returned (.ok r) → ("cached", "true") ∈ r.metadata →
    ∃ ttl time, .hit i c.data r.endpoint ttl time ∈ s.log

/-- Call `i` has returned an error, or had read a time to live of zero. -/
def FailedOrUncached (s : State) (i : ℕ) : Prop :=
  (∃ c e, s.calls[i]? = some c ∧ c.pc = .returned (.error e)) ∨ .readTtl i 0 ∈ s.log

/-- An endpoint that `validate` returns: an address that is not blocked, with a port or without. -/
def IsValidated (endpoint : Text) : Prop :=
  (∃ env e, validate env e = .ok endpoint)
    ∧ ∃ ip port, endpoint = addressText ip port ∧ isBlockedIp ip = false ∧ ∀ p ∈ port, 1 ≤ p

/-- Every call that returned an endpoint, and during which `skip_validation` was off throughout,
returned a validated one. -/
def ReturnsValidated (s : State) : Prop :=
  ∀ c ∈ s.calls, ∀ r, c.pc = .returned (.ok r) → c.skipSeen = false → IsValidated r.endpoint

/-- The call that is resumed, if `skip_validation` has been off during it, is not about to answer
with a fresh entry that a call with `skip_validation` on has stored. -/
def NoSkippedHit (s : State) : Action → Prop
  | .resume i .go => ∀ c ttl entry, s.calls[i]? = some c → c.pc = .checkAge ttl entry →
      c.skipSeen = false → s.now - entry.insertedAt < ttl →
      ∀ j t, .inserted j c.data entry.endpoint entry.insertedAt t ∈ s.log →
        .readSkip j true ∉ s.log
  | _ => True

end Route

end ProtocolProxy
