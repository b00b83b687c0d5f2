import ProtocolProxy.Machine
import ProtocolProxy.Resolver

/-!
# The routing cache of the PHP adapter

`Adapter::route` of `src/Adapter.php`, whose cache is a `Swoole\Table`.  A table finds its rows by a
part of the key only and cuts long columns, both of which the methods here do.

A call may wait for its resolver, for its callback and for the DNS, and other calls are served
meanwhile, so a call that does not find its answer in the table is continued in a second step.  What
the outside does then is given with the step, what `validate` makes of an endpoint included.

PHP strings are strings of bytes: a character stands for one byte here.
-/

namespace ProtocolProxy

namespace Php

/-! ## The table -/

structure Row where
  endpoint : Text
  updated : ℤ
  deriving DecidableEq, Repr

/-- The rows, by what the table keeps of their keys. -/
abbrev Table := Text → Option Row

/-- How many bytes of a key the table looks at. -/
def keySize : ℕ := 63

/-- The declared size of the column `endpoint`. -/
def endpointSize : ℕ := 256

def Table.get (t : Table) (key : Text) : Option Row := t (key.take keySize)

def Table.set (t : Table) (key : Text) (row : Row) : Table :=
  Function.update t (key.take keySize)
    (some { row with endpoint := row.endpoint.take endpointSize })

/-! ## Routing -/

/-- What a resolve callback returns. -/
inductive Resolved
  | result (r : ResolverResult)
  | string (endpoint : Text)
  | other

/-- What a call meets outside: the callback, the resolver, `validate`, and whether the table has
room for a row. -/
structure World where
  callback : Except ResolverError Resolved
  resolver : Except ResolverError ResolverResult
  validate : Text → Except ResolverError Text
  room : Bool

structure Adapter where
  protocol : Protocol
  resolver : Bool

/-- A routing result.  The key `cached` of the metadata is kept apart. -/
structure RouteResult where
  endpoint : Text
  protocol : Protocol
  metadata : Metadata
  cached : Bool

inductive Event
  /-- a call of `route` began -/
  | asked (data : Text)
  /-- a call got an endpoint from its callback or resolver, past `validate` unless it is skipped -/
  | produced (data endpoint : Text)
  /-- a call was answered from the table -/
  | cached (data endpoint : Text)
  deriving DecidableEq

/-- A call of `route` that did not find its answer in the table, with the time it began. -/
structure Pending where
  data : Text
  now : ℤ

structure State where
  table : Table
  cacheTTL : ℤ
  skipValidation : Bool
  callback : Bool
  pending : List Pending
  results : List (Except ResolverError RouteResult)
  log : List Event

/-- A new adapter: `initRouter` makes an empty table. -/
def new : State := ⟨fun _ => none, 0, false, false, [], [], []⟩

variable (A : Adapter)

/-- The row a call finds, if it may still be used. -/
def lookup (s : State) (data : Text) (now : ℤ) : Option Row :=
  if 0 < s.cacheTTL then (s.table.get data).filter fun row => now - row.updated < s.cacheTTL
  else none

def resolve (s : State) (w : World) : Except ResolverError ResolverResult :=
  if s.callback then
    match w.callback with
    | .error e => .error e
    | .ok (.result r) => .ok r
    | .ok (.string endpoint) => .ok ⟨endpoint, []⟩
    | .ok .other => .error (.internal "Resolve callback must return Result or string")
  else if A.resolver then w.resolver
  else .error (.notFound "No resolver or resolve callback configured")

/-- What the callback or the resolver answered, and the endpoint made of it. -/
def produce (s : State) (w : World) (data : Text) : Except ResolverError (ResolverResult × Text) :=
  match resolve A s w with
  | .error e => .error e
  | .ok result =>
    if result.endpoint = [] then
      .error (.notFound ("Resolver returned empty endpoint for: " ++ String.ofList data))
    else if s.skipValidation then .ok (result, result.endpoint)
    else (w.validate result.endpoint).map fun endpoint => (result, endpoint)

inductive Action
  | setCacheTTL (seconds : ℤ)
  | setSkipValidation (skip : Bool)
  | onResolve
  /-- a call of `route` begins and looks into the table -/
  | route (data : Text) (now : ℤ)
  /-- the `i`-th waiting call goes on to its end -/
  | finish (i : ℕ) (w : World)

/-- The end of a call that was not answered from the table. -/
def State.finish (s : State) (w : World) (p : Pending) : State :=
  match produce A s w p.data with
  | .error e => { s with results := s.results ++ [.error e] }
  | .ok (result, endpoint) =>
    { s with
      table := if 0 < s.cacheTTL ∧ w.room then s.table.set p.data ⟨endpoint, p.now⟩ else s.table
      results := s.results ++
        [.ok ⟨endpoint, A.protocol, result.metadata.filter fun m => m.1 ≠ "cached", false⟩]
      log := s.log ++ [.produced p.data endpoint] }

def step (s : State) : Action → Option State
  | .setCacheTTL seconds => some { s with cacheTTL := seconds }
  | .setSkipValidation skip => some { s with skipValidation := skip }
  | .onResolve => some { s with callback := true }
  | .route data now =>
    match lookup s data now with
    | some row =>
      some { s with
        results := s.results ++ [.ok ⟨row.endpoint, A.protocol, [], true⟩]
        log := s.log ++ [.asked data] ++ [.cached data row.endpoint] }
    | none =>
      some { s with
        pending := s.pending ++ [⟨data, now⟩]
        log := s.log ++ [.asked data] }
  | .finish i w =>
    s.pending[i]?.map fun p => ({ s with pending := s.pending.eraseIdx i } : State).finish A w p

/-! ## Whose endpoints are answered with -/

/-- Every answer from the table is an endpoint that was produced for the same data. -/
def CachedOwn (log : List Event) : Prop :=
  Machine.Justified (fun pre e => ∀ data endpoint, e = .cached data endpoint →
    .produced data endpoint ∈ pre) log

/-- The endpoint was produced for the data, or answered from the table. -/
def Found (log : List Event) (data endpoint : Text) : Prop :=
  .produced data endpoint ∈ log ∨ .cached data endpoint ∈ log

/-- Every call was on data of `D`, and every endpoint that was produced is one of `E`. -/
def Within (D E : Set Text) (log : List Event) : Prop :=
  (∀ data, .asked data ∈ log → data ∈ D) ∧ ∀ data endpoint, .produced data endpoint ∈ log →
    endpoint ∈ E

end Php

end ProtocolProxy
