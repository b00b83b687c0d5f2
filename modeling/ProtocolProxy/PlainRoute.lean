import ProtocolProxy.Route

/-!
# Routing without a cache

What `Adapter::route` answers if `cache_ttl` is zero and what it meets outside is the same at all
times: the resolver and the callback are functions of the data, and `validate` is one of the
endpoint.  Against this the routing machine of `Route` is compared, whose calls share a cache, run
beside each other and wait at any of their awaits while entries expire and are evicted.
-/

namespace ProtocolProxy

namespace Route

/-- What routing meets outside. -/
structure World where
  protocol : Protocol
  resolver : Option (Bytes → Answer)
  onResolve : Option (Bytes → Option Answer)
  skipValidation : Bool
  validate : Text → Except ResolverError Text

namespace World

variable (W : World)

def adapter : Adapter := ⟨W.protocol, W.resolver.isSome⟩

/-- An adapter after `set_skip_validation` and `set_on_resolve`. -/
def start : State :=
  { new with skipValidation := W.skipValidation, onResolve := W.onResolve.isSome }

/-- What the callback answers, if it does. -/
def called (data : Bytes) : Option Answer := W.onResolve.bind fun callback => callback data

def resolveViaResolver (data : Bytes) : Answer :=
  W.resolver.elim (.error (.notFound "No resolver or resolve callback configured"))
    fun resolve => resolve data

def answer (data : Bytes) : Answer := (W.called data).getD (W.resolveViaResolver data)

/-- The endpoint that is dialed for what a resolver or a callback gave. -/
def checked (endpoint : Text) : Except ResolverError Text :=
  if W.skipValidation then .ok endpoint else W.validate endpoint

/-- `route`, if nothing is cached. -/
def route (data : Bytes) : Except ResolverError ConnectionResult := do
  let result ← W.answer data
  if result.endpoint.isEmpty then
    .error (.notFound ("Resolver returned empty endpoint for: " ++ fromUtf8Lossy data))
  else
    let endpoint ← W.checked result.endpoint
    return ⟨endpoint, W.protocol, result.metadata.insert "cached" "false"⟩

/-- An action that leaves the settings as they are in `W` and answers as `W` does.  The time to live
may change, time may pass and entries may go. -/
def Answers (s : State) : Action → Prop
  | .setSkipValidation skip => skip = W.skipValidation
  | .setOnResolve => W.onResolve.isSome = true
  | .resume i (.callback answer) => ∀ c, s.calls[i]? = some c → answer = W.called c.data
  | .resume i (.resolver answer) =>
    ∀ c, s.calls[i]? = some c → answer = W.resolveViaResolver c.data
  | .resume i (.dns env) => ∀ c ttl result, s.calls[i]? = some c → c.pc = .validating ttl result →
      ProtocolProxy.validate env result.endpoint = W.validate result.endpoint
  | _ => True

end World

/-- An answer, and the one without a cache: they differ at most in the metadata, of which an answer
from the cache keeps nothing. -/
def SameRoute (r plain : Except ResolverError ConnectionResult) : Prop :=
  r = plain ∨ ∃ q, plain = .ok q ∧ r = .ok { q with metadata := [("cached", "true")] }

end Route

end ProtocolProxy
