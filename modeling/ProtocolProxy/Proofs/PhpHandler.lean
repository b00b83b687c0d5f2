import ProtocolProxy.PhpHandler
import ProtocolProxy.Proofs.Handler
import ProtocolProxy.Proofs.Hostname
import ProtocolProxy.Proofs.PhpReplies
import ProtocolProxy.Proofs.PhpRouter
import ProtocolProxy.Refinement

/-!
# The two HTTP handlers

The Rust handler is a port of the PHP one.  A run of the PHP handler is a run of its adapter and of
its forwarders (`run_parts`).  Every request is where what it began with has led it (`Came`), with
an endpoint that was found for its own host and a call of the raw forwarder of its own (`Inv`).
The Rust handler begins with the same (`Alike.respond`, `Alike.route`, `Alike.forward`), so the two
respond with the same, but for a route or a forwarder that fails (`same_response_iff`).
-/

namespace ProtocolProxy

namespace PhpHandler

open Machine
open PhpHttp (Fields)
open PhpRaw (Response SameAs)

/-! ## Host names -/

theorem rtakeWhile_of_port (host : Text) {port : Text} (hdigits : ∀ c ∈ port, c.isDigit = true) :
    (host ++ ':' :: port).rtakeWhile Char.isDigit = port
      ∧ (host ++ ':' :: port).rdropWhile Char.isDigit = host ++ [':'] := by
  have hreverse : (host ++ ':' :: port).reverse = port.reverse ++ ':' :: host.reverse := by simp
  have hall : ∀ c ∈ port.reverse, c.isDigit = true := fun c hc => hdigits c (List.mem_reverse.1 hc)
  have hcolon : Char.isDigit ':' = false := rfl
  unfold List.rtakeWhile List.rdropWhile
  rw [hreverse, List.takeWhile_append_of_pos hall, List.dropWhile_append_of_pos hall]
  simp [hcolon]

/-- The pattern cuts off what the Rust handler cuts off. -/
theorem stripPort_eq (s : Text) : stripPort s = hostnamePart s := by
  unfold stripPort
  simp only
  split_ifs with hport
  · obtain ⟨hne, hcolon⟩ := hport
    have hdigits : ∀ c ∈ s.rtakeWhile Char.isDigit, c.isDigit = true :=
      fun c hc => List.mem_rtakeWhile_imp hc
    have hbefore : (s.rdropWhile Char.isDigit).dropLast ++ [':'] = s.rdropWhile Char.isDigit :=
      List.dropLast_append_getLast? _ hcolon
    have hsplit : s = (s.rdropWhile Char.isDigit).dropLast ++ ':' :: s.rtakeWhile Char.isDigit := by
      rw [← List.singleton_append, ← List.append_assoc, hbefore, List.rdropWhile_append_rtakeWhile]
    nth_rewrite 2 [hsplit]
    exact (hostnamePart_of_port hne hdigits).symm
  · rcases hostnamePart_cases s with heq | ⟨port, hne, hdigits, heq⟩
    · exact heq.symm
    · obtain ⟨htake, hdrop⟩ := rtakeWhile_of_port (hostnamePart s) hdigits
      rw [← heq] at htake hdrop
      rw [htake, hdrop] at hport
      exact absurd ⟨hne, List.getLast?_concat⟩ hport

/-! ## What a request begins with -/

/-- Neither a request handler nor a direct response is configured. -/
def Plain (config : Config) : Prop := config.requestHandler = none ∧ config.directResponse = none

/-- Why a request begins as it does. -/
inductive Begins (isValid : Text → Bool) (config : Config) (request : Request) : Next → Prop
  | handled {handler : Request → Outcome} {response : Response}
      (configured : config.requestHandler = some handler) (ok : handler request = .ok response) :
      Begins isValid config request (.respond response)
  | threw {handler : Request → Outcome} {headers : Fields}
      (configured : config.requestHandler = some handler)
      (error : handler request = .error headers) :
      Begins isValid config request
        (.respond ⟨500, headers, asBytes "Internal Server Error".toList⟩)
  | direct {body : Text} (unhandled : config.requestHandler = none)
      (configured : config.directResponse = some body) :
      Begins isValid config request (.respond ⟨config.directResponseStatus, [], asBytes body⟩)
  | fixed {endpoint : Text} (plain : Plain config)
      (configured : config.fixedBackend = some endpoint) :
      Begins isValid config request (.forward endpoint)
  | missing (plain : Plain config) (unfixed : config.fixedBackend = none)
      (host : hostOf request = none ∨ hostOf request = some [] ∨ hostOf request = some ['0']) :
      Begins isValid config request (.respond (textResponse 400 "Missing Host header"))
  | invalid {host : Text} (plain : Plain config) (unfixed : config.fixedBackend = none)
      (host_eq : hostOf request = some host) (host_ne : host ≠ [])
      (invalid : isValidHostname isValid host = false) :
      Begins isValid config request (.respond (textResponse 400 "Invalid Host header"))
  | route {host : Text} (plain : Plain config) (unfixed : config.fixedBackend = none)
      (host_eq : hostOf request = some host) (host_ne : host ≠ [])
      (valid : isValidHostname isValid host = true) :
      Begins isValid config request (.route host)

theorem begins (isValid : Text → Bool) (config : Config) (request : Request) :
    Begins isValid config request (begin isValid config request) := by
  unfold begin
  split
  · rename_i handler hhandler
    split
    · exact .handled hhandler ‹_›
    · exact .threw hhandler ‹_›
  · rename_i hhandler
    split
    · exact .direct hhandler ‹_›
    · rename_i hdirect
      split
      · exact .fixed ⟨hhandler, hdirect⟩ ‹_›
      · rename_i hfixed
        split
        · exact .missing ⟨hhandler, hdirect⟩ hfixed (.inl ‹_›)
        · rename_i host hhost
          split_ifs with hfalse hinvalid
          · refine .missing ⟨hhandler, hdirect⟩ hfixed (.inr ?_)
            rcases hfalse with rfl | rfl
            · exact .inl hhost
            · exact .inr hhost
          · exact .invalid ⟨hhandler, hdirect⟩ hfixed hhost (fun h => hfalse (.inl h))
              (by simpa using hinvalid)
          · exact .route ⟨hhandler, hdirect⟩ hfixed hhost (fun h => hfalse (.inl h))
              (by simpa using hinvalid)

theorem fixedBackend_of_forward {isValid : Text → Bool} {config : Config} {request : Request}
    {endpoint : Text} (began : begin isValid config request = .forward endpoint) :
    config.fixedBackend = some endpoint := by
  have hbegins := begins isValid config request
  rw [began] at hbegins
  cases hbegins with
  | fixed plain configured => exact configured

theorem host_of_route {isValid : Text → Bool} {config : Config} {request : Request} {host : Text}
    (began : begin isValid config request = .route host) :
    config.fixedBackend = none ∧ hostOf request = some host := by
  have hbegins := begins isValid config request
  rw [began] at hbegins
  cases hbegins with
  | route plain unfixed host_eq host_ne valid => exact ⟨unfixed, host_eq⟩

/-! ## The parts -/

section Parts

variable {A : Php.Adapter} {isValid : Text → Bool} {config : Config} {answer : ℕ → Bytes}
  {s s' : State} {a : Action} {request : Request} {endpoint : Text} {stage : Stage}

/-- What a step does to the adapter and the forwarders: each takes a step of its own or none. -/
structure Moves (A : Php.Adapter) (config : Config) (answer : ℕ → Bytes) (s s' : State) :
    Prop where
  router : s'.router = s.router ∨ ∃ a, Php.step A s.router a = some s'.router
  http : s'.http = s.http
    ∨ ∃ a, PhpHttp.step Numeric.intCast config.poolSize s.http a = some s'.http
  raw : s'.raw = s.raw ∨ ∃ a, PhpRaw.step config.toConfig answer s.raw a = some s'.raw

/-- Where a request can be that was forwarded. -/
inductive Forwarded (config : Config) (request : Request) : Stage → Prop
  | raw (k : ℕ) : Forwarded config request (.forwardingRaw k)
  | pooled (k : ℕ) (not_raw : config.rawBackend = false ∨ request.raw = none) :
      Forwarded config request (.forwarding k)
  | received (received : Received) (not_raw : config.rawBackend = false ∨ request.raw = none) :
      Forwarded config request (.answered (pooledResponse config received))

/-- A call of a forwarder is a step of that forwarder, and of nothing else.  A call of the raw
forwarder is a new one. -/
structure Forwards (A : Php.Adapter) (config : Config) (answer : ℕ → Bytes) (s s' : State)
    (request : Request) (endpoint : Text) (stage : Stage) : Prop where
  moves : Moves A config answer s s'
  router : s'.router = s.router
  calls : s'.calls = s.calls
  forwarded : Forwarded config request stage
  made : ∀ k, stage = .forwardingRaw k →
    k = s.raw.calls.length ∧ s'.MadeFor request endpoint k

theorem forward_eq (h : s.forward config answer request endpoint = some (stage, s')) :
    Forwards A config answer s s' request endpoint stage := by
  unfold State.forward at h
  split at h
  · rename_i raw hraw
    obtain ⟨raw', hstep, heq⟩ := Option.map_eq_some_iff.1 h
    cases heq
    refine ⟨⟨.inl rfl, .inl rfl, .inr ⟨_, hstep⟩⟩, rfl, rfl, .raw _, ?_⟩
    rintro _ ⟨⟩
    split_ifs at hraw
    cases hstep
    exact ⟨rfl, raw, _, hraw, List.getElem?_concat_length, rfl, rfl⟩
  · rename_i hpooled
    obtain ⟨http', hstep, heq⟩ := Option.map_eq_some_iff.1 h
    cases heq
    refine ⟨⟨.inl rfl, .inr ⟨_, hstep⟩, .inl rfl⟩, rfl, rfl, .pooled _ ?_, nofun⟩
    split_ifs at hpooled with hbackend
    · exact .inr hpooled
    · exact .inl (Bool.eq_false_of_not_eq_true hbackend)

theorem adapter_eq {b : Php.Action} {result : Option (Except ResolverError Php.RouteResult)}
    (h : s.adapter A b = some (result, s')) :
    ∃ router, Php.step A s.router b = some router ∧ s' = { s with router := router }
      ∧ router.results[s.router.results.length]? = result := by
  obtain ⟨router, hstep, heq⟩ := Option.map_eq_some_iff.1 h
  cases heq
  exact ⟨router, hstep, rfl, rfl⟩

theorem Moves.log_subset (h : Moves A config answer s s') : s.router.log ⊆ s'.router.log := by
  rcases h.router with heq | ⟨b, hstep⟩
  · rw [heq]
    exact List.Subset.refl _
  · exact Php.log_subset hstep

theorem State.MadeFor.move {k : ℕ} (h : s.MadeFor request endpoint k)
    (hmoves : Moves A config answer s s') : s'.MadeFor request endpoint k := by
  obtain ⟨raw, c, hraw, hk, hrequest, htarget⟩ := h
  rcases hmoves.raw with heq | ⟨b, hstep⟩
  · exact ⟨raw, c, hraw, heq ▸ hk, hrequest, htarget⟩
  · obtain ⟨c', hk', hrequest', hhost, hport⟩ := PhpRaw.step_calls hstep hk
    refine ⟨raw, c', hraw, hk', hrequest'.trans hrequest, ?_⟩
    rw [hhost, hport]
    exact htarget

theorem State.MadeFor.lt_length {k : ℕ} (h : s.MadeFor request endpoint k) :
    k < s.raw.calls.length := by
  obtain ⟨raw, c, -, hk, -⟩ := h
  exact (List.getElem?_eq_some_iff.1 hk).1

/-! ## How requests get where they are -/

/-- A request is where what it began with has led it, and its route has come to what was found. -/
inductive Came (isValid : Text → Bool) (config : Config) (log : List Php.Event) : Call → Prop
  | responded {request : Request} {response : Response}
      (began : begin isValid config request = .respond response) :
      Came isValid config log ⟨request, .answered response, none⟩
  | routing {request : Request} {host : Text} (began : begin isValid config request = .route host) :
      Came isValid config log ⟨request, .routing host, none⟩
  | unrouted {request : Request} {host : Text} {e : ResolverError}
      (began : begin isValid config request = .route host) :
      Came isValid config log ⟨request, .answered unavailable, some (.error e)⟩
  | fixed {request : Request} {endpoint : Text} {stage : Stage}
      (began : begin isValid config request = .forward endpoint)
      (forwarded : Forwarded config request stage) :
      Came isValid config log ⟨request, stage, none⟩
  | routed {request : Request} {host : Text} {result : Php.RouteResult} {stage : Stage}
      (began : begin isValid config request = .route host)
      (found : Php.Found log host result.endpoint)
      (forwarded : Forwarded config request stage) :
      Came isValid config log ⟨request, stage, some (.ok result)⟩

theorem Came.mono {log log' : List Php.Event} {call : Call} (h : Came isValid config log call)
    (hsub : log ⊆ log') : Came isValid config log' call := by
  cases h with
  | responded began => exact .responded began
  | routing began => exact .routing began
  | unrouted began => exact .unrouted began
  | fixed began forwarded => exact .fixed began forwarded
  | routed began found forwarded => exact .routed began (found.imp (@hsub _) (@hsub _)) forwarded

/-- A request comes to where it is with the step. -/
structure Enters (isValid : Text → Bool) (config : Config) (s s' : State) (call : Call) :
    Prop where
  came : Came isValid config s'.router.log call
  made : ∀ k, call.stage = .forwardingRaw k → k = s.raw.calls.length
    ∧ ∃ endpoint, call.endpoint config = some endpoint ∧ s'.MadeFor call.request endpoint k

theorem enters_fixed (began : begin isValid config request = .forward endpoint)
    (h : Forwards A config answer s s' request endpoint stage) :
    Enters isValid config s s' ⟨request, stage, none⟩ := by
  refine ⟨.fixed began h.forwarded, fun k hk => ?_⟩
  obtain ⟨hnew, hmade⟩ := h.made k hk
  refine ⟨hnew, endpoint, ?_, hmade⟩
  rw [Call.endpoint, fixedBackend_of_forward began]
  rfl

/-- A route that comes to something, and what follows it, are a step of the adapter and at most one
of a forwarder. -/
theorem routed_eq (isValid : Text → Bool) (host : Text) {b : Php.Action} {t : State}
    {result : Except ResolverError Php.RouteResult}
    (hadapter : s.adapter A b = some (some result, t))
    (hafter : t.afterRoute config answer request result = some (stage, s'))
    (hfound : ∀ r, result = .ok r → Php.Found t.router.log host r.endpoint) :
    Moves A config answer s s' ∧ s'.calls = s.calls
      ∧ (begin isValid config request = .route host →
        Enters isValid config s s' ⟨request, stage, some result⟩) := by
  obtain ⟨router, hstep, rfl, -⟩ := adapter_eq hadapter
  rcases result with e | result
  · cases hafter
    exact ⟨⟨.inr ⟨b, hstep⟩, .inl rfl, .inl rfl⟩, rfl, fun began => ⟨.unrouted began, nofun⟩⟩
  · have hforwards : Forwards A config answer _ s' request result.endpoint stage :=
      forward_eq hafter
    refine ⟨⟨.inr ⟨b, hforwards.router ▸ hstep⟩, hforwards.moves.http, hforwards.moves.raw⟩,
      hforwards.calls, fun began => ⟨?_, fun k hk => ?_⟩⟩
    · rw [hforwards.router]
      exact .routed began (hfound result rfl) hforwards.forwarded
    · obtain ⟨hnew, hmade⟩ := hforwards.made k hk
      refine ⟨hnew, result.endpoint, ?_, hmade⟩
      rw [Call.endpoint, (host_of_route began).1]
      rfl

/-- A request that waits for its route began with it. -/
theorem Came.began_of_routing {log : List Php.Event} {call : Call} {host : Text}
    (h : Came isValid config log call) (hstage : call.stage = .routing host) :
    begin isValid config call.request = .route host := by
  cases h with
  | routing began =>
    cases hstage
    exact began
  | responded | unrouted => cases hstage
  | fixed began forwarded | routed began found forwarded =>
    cases hstage
    cases forwarded

/-- The client of a request has received something. -/
theorem Came.received {log : List Php.Event} {call : Call} {k : ℕ}
    (h : Came isValid config log call) (hstage : call.stage = .forwarding k)
    (received : Received) :
    Came isValid config log { call with stage := .answered (pooledResponse config received) } := by
  cases h with
  | responded | routing | unrouted => cases hstage
  | fixed began forwarded =>
    cases hstage
    cases forwarded with
    | pooled k not_raw => exact .fixed began (.received received not_raw)
  | routed began found forwarded =>
    cases hstage
    cases forwarded with
    | pooled k not_raw => exact .routed began found (.received received not_raw)

/-- What a step does to the requests: it is a step of at most one of them. -/
inductive Changes (isValid : Text → Bool) (config : Config) (s s' : State) : Prop
  | same (calls : s'.calls = s.calls)
  | one {i : ℕ} {call : Call}
      (others : ∀ (j : ℕ) call', s'.calls[j]? = some call' →
        s.calls[j]? = some call' ∨ j = i ∧ call' = call)
      (enters : (∀ call ∈ s.calls, Came isValid config s.router.log call) →
        Enters isValid config s s' call)

theorem changes_accept {call : Call} (hcalls : s'.calls = s.calls ++ [call])
    (henters : Enters isValid config s s' call) : Changes isValid config s s' := by
  refine .one (i := s.calls.length) ?_ fun _ => henters
  rw [hcalls]
  exact Slots.forall_concat (.inr ⟨rfl, rfl⟩) fun _ _ hj => .inl hj

theorem changes_put {i : ℕ} {call call' : Call} (hi : s.calls[i]? = some call)
    (hcalls : s'.calls = s.calls.set i call')
    (henters : Came isValid config s.router.log call → Enters isValid config s s' call') :
    Changes isValid config s s' := by
  refine .one (i := i) ?_ fun hall => henters (hall call (List.mem_of_getElem? hi))
  rw [hcalls]
  exact Slots.forall_set (.inr ⟨rfl, rfl⟩) fun _ _ _ hj => .inl hj

theorem step_eq (h : step A isValid config answer s a = some s') :
    Moves A config answer s s' ∧ Changes isValid config s s' := by
  cases a with
  | request request now =>
    simp only [step] at h
    split at h
    · rename_i response began
      cases h
      exact ⟨⟨.inl rfl, .inl rfl, .inl rfl⟩, changes_accept rfl ⟨.responded began, nofun⟩⟩
    · rename_i endpoint began
      obtain ⟨⟨stage, t⟩, hforward, rfl⟩ := Option.map_eq_some_iff.1 h
      have hforwards : Forwards A config answer s t request endpoint stage := forward_eq hforward
      obtain ⟨hcame, hmade⟩ := enters_fixed began hforwards
      exact ⟨⟨hforwards.moves.router, hforwards.moves.http, hforwards.moves.raw⟩,
        changes_accept (congrArg (· ++ _) hforwards.calls) ⟨hcame, hmade⟩⟩
    · rename_i host began
      obtain ⟨⟨_ | result, t⟩, hadapter, h⟩ := Option.bind_eq_some_iff.1 h
      · obtain ⟨router, hstep, rfl, -⟩ := adapter_eq hadapter
        cases h
        exact ⟨⟨.inr ⟨_, hstep⟩, .inl rfl, .inl rfl⟩, changes_accept rfl ⟨.routing began, nofun⟩⟩
      · obtain ⟨⟨stage, u⟩, hafter, rfl⟩ := Option.map_eq_some_iff.1 h
        obtain ⟨router, hstep, hrouter, hresult⟩ := adapter_eq hadapter
        have hfound : ∀ r, result = .ok r → Php.Found t.router.log host r.endpoint := by
          rintro r rfl
          rw [hrouter]
          exact Php.found_of_route hstep hresult
        obtain ⟨hmoves, hcalls, henters⟩ := routed_eq isValid host hadapter hafter hfound
        obtain ⟨hcame, hmade⟩ := henters began
        exact ⟨⟨hmoves.router, hmoves.http, hmoves.raw⟩,
          changes_accept (congrArg (· ++ _) hcalls) ⟨hcame, hmade⟩⟩
  | routed i j w =>
    obtain ⟨call, hcall, h⟩ := Option.bind_eq_some_iff.1 h
    split at h
    · rename_i host p hstage hpending
      split_ifs at h with hdata
      obtain ⟨⟨_ | result, t⟩, hadapter, h⟩ := Option.bind_eq_some_iff.1 h
      · cases h
      · obtain ⟨⟨stage, u⟩, hafter, rfl⟩ := Option.map_eq_some_iff.1 h
        obtain ⟨router, hstep, hrouter, hresult⟩ := adapter_eq hadapter
        have hfound : ∀ r, result = .ok r → Php.Found t.router.log host r.endpoint := by
          rintro r rfl
          rw [hrouter, ← hdata]
          exact Php.found_of_finish hpending hstep hresult
        obtain ⟨hmoves, hcalls, henters⟩ := routed_eq isValid host hadapter hafter hfound
        refine ⟨⟨hmoves.router, hmoves.http, hmoves.raw⟩,
          changes_put hcall (congrArg (List.set · i _) hcalls) fun came => ?_⟩
        obtain ⟨hcame, hmade⟩ := henters (came.began_of_routing hstage)
        exact ⟨hcame, hmade⟩
    · cases h
  | received i received connected =>
    obtain ⟨call, hcall, h⟩ := Option.bind_eq_some_iff.1 h
    split at h
    · rename_i k hstage
      obtain ⟨http, hstep, rfl⟩ := Option.map_eq_some_iff.1 h
      exact ⟨⟨.inl rfl, .inr ⟨_, hstep⟩, .inl rfl⟩,
        changes_put hcall rfl fun came => ⟨came.received hstage received, nofun⟩⟩
    · cases h
  | arrive k n =>
    obtain ⟨raw, hstep, rfl⟩ := Option.map_eq_some_iff.1 h
    exact ⟨⟨.inl rfl, .inl rfl, .inr ⟨_, hstep⟩⟩, .same rfl⟩
  | resume k move =>
    obtain ⟨raw, hstep, rfl⟩ := Option.map_eq_some_iff.1 h
    exact ⟨⟨.inl rfl, .inl rfl, .inr ⟨_, hstep⟩⟩, .same rfl⟩

/-- Every request is where what it began with has led it, with what is its own. -/
structure Inv (isValid : Text → Bool) (config : Config) (s : State) : Prop where
  came : ∀ call ∈ s.calls, Came isValid config s.router.log call
  own : ∀ (i : ℕ) call, s.calls[i]? = some call → s.Own config i call

theorem inv_new (router : Php.State) : Inv isValid config (new router) where
  came _ hcall := by cases hcall
  own _ _ hi := by cases hi

/-- The endpoint of a request that was routed was found for its host. -/
theorem Came.found {log : List Php.Event} {call : Call} {result : Php.RouteResult}
    (h : Came isValid config log call) (hroute : call.route = some (.ok result)) :
    ∃ host, hostOf call.request = some host ∧ Php.Found log host result.endpoint := by
  cases h with
  | routed began found forwarded =>
    cases hroute
    exact ⟨_, (host_of_route began).2, found⟩
  | responded | routing | unrouted | fixed => cases hroute

theorem Changes.came (h : Changes isValid config s s') (hmoves : Moves A config answer s s')
    (hs : ∀ call ∈ s.calls, Came isValid config s.router.log call) :
    ∀ call ∈ s'.calls, Came isValid config s'.router.log call := by
  intro call hcall
  cases h with
  | same calls => exact (hs call (calls ▸ hcall)).mono hmoves.log_subset
  | one others enters =>
    obtain ⟨j, hj⟩ := List.getElem?_of_mem hcall
    rcases others j call hj with hold | ⟨-, rfl⟩
    · exact (hs call (List.mem_of_getElem? hold)).mono hmoves.log_subset
    · exact (enters hs).came

theorem Changes.forwarded (h : Changes isValid config s s') (hmoves : Moves A config answer s s')
    (hs : Inv isValid config s) {i k : ℕ} {call : Call} (hi : s'.calls[i]? = some call)
    (hstage : call.stage = .forwardingRaw k) :
    ∃ endpoint, call.endpoint config = some endpoint ∧ s'.MadeFor call.request endpoint k := by
  have hold (hi : s.calls[i]? = some call) : ∃ endpoint, call.endpoint config = some endpoint
      ∧ s'.MadeFor call.request endpoint k := by
    obtain ⟨endpoint, hendpoint, hmade⟩ := (hs.own i call hi).forwarded k hstage
    exact ⟨endpoint, hendpoint, hmade.move hmoves⟩
  cases h with
  | same calls => exact hold (calls ▸ hi)
  | one others enters =>
    rcases others i call hi with hi | ⟨-, rfl⟩
    · exact hold hi
    · exact ((enters hs.came).made k hstage).2

/-- The number of a new call of the raw forwarder is not one that is in use. -/
theorem Changes.only (h : Changes isValid config s s') (hs : Inv isValid config s) {i j k : ℕ}
    {call call' : Call} (hi : s'.calls[i]? = some call) (hstage : call.stage = .forwardingRaw k)
    (hj : s'.calls[j]? = some call') (hstage' : call'.stage = .forwardingRaw k) : j = i := by
  cases h with
  | same calls =>
    rw [calls] at hi hj
    exact (hs.own i call hi).only k j call' hstage hj hstage'
  | one others enters =>
    have hlt : ∀ (n : ℕ) old, s.calls[n]? = some old → old.stage = .forwardingRaw k →
        k < s.raw.calls.length := by
      intro n old hn hold
      obtain ⟨endpoint, -, hmade⟩ := (hs.own n old hn).forwarded k hold
      exact hmade.lt_length
    have hnew := fun hcall => ((enters hs.came).made k hcall).1
    rcases others i call hi with hi | ⟨rfl, rfl⟩ <;> rcases others j call' hj with hj | ⟨rfl, rfl⟩
    · exact (hs.own i call hi).only k j call' hstage hj hstage'
    · exact absurd (hnew hstage') (hlt i call hi hstage).ne
    · exact absurd (hnew hstage) (hlt j call' hj hstage').ne
    · rfl

theorem step_inv (hs : Inv isValid config s) (h : step A isValid config answer s a = some s') :
    Inv isValid config s' := by
  obtain ⟨hmoves, hchanges⟩ := step_eq h
  have hcame := hchanges.came hmoves hs.came
  exact ⟨hcame, fun i call hi =>
    ⟨fun result hroute => (hcame call (List.mem_of_getElem? hi)).found hroute,
      fun k hstage => hchanges.forwarded hmoves hs hi hstage,
      fun k j call' hstage hj hstage' => hchanges.only hs hi hstage hj hstage'⟩⟩

variable {router : Php.State} {as : List Action}

theorem run_inv_new (h : run (step A isValid config answer) (new router) as = some s) :
    Inv isValid config s :=
  run_inv (fun _ _ _ hs hstep => step_inv hs hstep) (inv_new router) h

/-- A run of the handler is a run of the adapter and of both forwarders, so what holds in all runs
of these holds of them here. -/
theorem run_parts (h : run (step A isValid config answer) (new router) as = some s) :
    (∃ bs, run (Php.step A) router bs = some s.router)
      ∧ (∃ bs, run (PhpHttp.step Numeric.intCast config.poolSize) PhpHttp.new bs = some s.http)
      ∧ ∃ bs, run (PhpRaw.step config.toConfig answer) PhpRaw.new bs = some s.raw :=
  ⟨run_part State.router (fun _ _ _ hstep => (step_eq hstep).1.router) h,
    run_part State.http (fun _ _ _ hstep => (step_eq hstep).1.http) h,
    run_part State.raw (fun _ _ _ hstep => (step_eq hstep).1.raw) h⟩

end Parts

/-! ## What the Rust handler begins with -/

section Alike

variable {isValid : Text → Bool} {config : Config} {request : Request} {lib : Http.Library}
  {rust : Http.Config} {env : Http.Env} {rustRequest : Http.Request}

theorem Alike.isValidHostname (h : Alike isValid config request rust rustRequest) {host : Text}
    (hhost : hostOf request = some host) :
    ProtocolProxy.isValidHostname host = PhpHandler.isValidHostname isValid host := by
  rw [PhpHandler.isValidHostname, stripPort_eq, Bool.eq_iff_iff, isValidHostname_iff]
  exact (h.valid host hhost).symm

theorem Alike.unhandled (h : Alike isValid config request rust rustRequest)
    (hnone : config.requestHandler = none) : rust.requestHandler = none := by
  have hhandlers := h.handler
  rw [hnone] at hhandlers
  rcases hrust : rust.requestHandler with _ | handler
  · rfl
  · rw [hrust] at hhandlers
    cases hhandlers

/-- The Rust handler has no request handler and no direct response either. -/
theorem Alike.plain (h : Alike isValid config request rust rustRequest) (hplain : Plain config) :
    rust.requestHandler = none ∧ rust.directResponse = none :=
  ⟨h.unhandled hplain.1, h.directResponse.symm.trans hplain.2⟩

theorem Alike.agree (h : Alike isValid config request rust rustRequest)
    {handler : Request → Outcome} (hphp : config.requestHandler = some handler) :
    ∃ rustHandler, rust.requestHandler = some rustHandler
      ∧ Agree (handler request) (rustHandler rustRequest) := by
  have hhandlers := h.handler
  rcases hrust : rust.requestHandler with _ | rustHandler <;> rw [hphp, hrust] at hhandlers
  · cases hhandlers
  · cases hhandlers with
    | some hagree => exact ⟨rustHandler, rfl, hagree⟩

/-- The host is refused with the same text. -/
theorem Alike.same_of_refused (h : Alike isValid config request rust rustRequest)
    (hplain : Plain config) (hfixed : config.fixedBackend = none) {text : String}
    (hextract : Http.extractHost rustRequest = .ok (.error ⟨400, [], asBytes text.toList⟩)) :
    SameResponse (textResponse 400 text) lib rust env rustRequest := by
  obtain ⟨hhandler, hdirect⟩ := h.plain hplain
  unfold SameResponse
  simp only [Http.handle, hhandler, hdirect, Http.chooseEndpoint, ← h.fixedBackend, hfixed,
    hextract]
  exact ⟨_, rfl, rfl, rfl, rfl⟩

/-- A request that PHP answers at once is answered with the same. -/
theorem Alike.respond (h : Alike isValid config request rust rustRequest) {response : Response}
    (began : begin isValid config request = .respond response) :
    SameResponse response lib rust env rustRequest := by
  have hbegins := begins isValid config request
  rw [began] at hbegins
  cases hbegins with
  | handled configured ok =>
    obtain ⟨rustHandler, hrust, hagree⟩ := h.agree configured
    rw [ok] at hagree
    unfold SameResponse
    simp only [Http.handle, hrust]
    rcases hresult : rustHandler rustRequest with e | rustResponse <;> rw [hresult] at hagree
    · cases hagree
    · obtain ⟨_, ⟨⟩, hsame⟩ := hagree
      exact ⟨rustResponse, rfl, hsame⟩
  | threw configured error =>
    obtain ⟨rustHandler, hrust, hagree⟩ := h.agree configured
    rw [error] at hagree
    unfold SameResponse
    simp only [Http.handle, hrust]
    rcases hresult : rustHandler rustRequest with e | rustResponse <;> rw [hresult] at hagree
    · cases hagree
      exact ⟨_, rfl, rfl, rfl, rfl⟩
    · obtain ⟨_, ⟨⟩, -⟩ := hagree
  | direct unhandled configured =>
    have hstatus : Http.statusCode rust.directResponseStatus.toNat
        = some rust.directResponseStatus.toNat := if_pos h.status
    unfold SameResponse
    simp only [Http.handle, h.unhandled unhandled, ← h.directResponse, configured, hstatus]
    exact ⟨_, rfl, h.directResponseStatus, rfl, rfl⟩
  | missing plain unfixed host =>
    refine h.same_of_refused plain unfixed ?_
    unfold Http.extractHost
    rw [← h.host]
    rcases host with host | host | host
    · rw [host]
      rfl
    · rw [host]
      rfl
    · exact absurd host h.not_zero
  | invalid plain unfixed host_eq host_ne invalid =>
    refine h.same_of_refused plain unfixed ?_
    simp only [Http.extractHost, ← h.host, host_eq, host_ne, h.isValidHostname host_eq, invalid]
    rfl

/-- A request that PHP routes is routed, with what the route comes to. -/
theorem Alike.route (h : Alike isValid config request rust rustRequest) (env : Http.Env)
    {host : Text}
    (began : begin isValid config request = .route host) :
    Plain config ∧ config.fixedBackend = none ∧ hostOf request = some host
      ∧ (∀ result, env.route (asBytes host) = .ok result →
        Http.chooseEndpoint rust env rustRequest = .ok (.ok result.endpoint))
      ∧ ∀ e, env.route (asBytes host) = .error e → Http.chooseEndpoint rust env rustRequest
        = .ok (.error ⟨(Http.statusCode e.code.toNat).getD 503, [], asBytes e.text.toList⟩) := by
  have hbegins := begins isValid config request
  rw [began] at hbegins
  cases hbegins with
  | route plain unfixed host_eq host_ne valid =>
    refine ⟨plain, unfixed, host_eq, ?_⟩
    have hextract : Http.extractHost rustRequest = .ok (.ok host) := by
      simp only [Http.extractHost, ← h.host, host_eq, host_ne, h.isValidHostname host_eq, valid]
      rfl
    simp only [Http.chooseEndpoint, ← h.fixedBackend, unfixed, hextract, bind, Except.bind]
    constructor
    · intro result hroute
      rw [hroute]
      rfl
    · intro e hroute
      rw [hroute]
      rfl

/-- A request that PHP forwards to the fixed backend is forwarded there. -/
theorem Alike.forward (h : Alike isValid config request rust rustRequest) (env : Http.Env)
    {endpoint : Text}
    (began : begin isValid config request = .forward endpoint) :
    Plain config ∧ config.fixedBackend = some endpoint
      ∧ Http.chooseEndpoint rust env rustRequest = .ok (.ok endpoint) := by
  have hbegins := begins isValid config request
  rw [began] at hbegins
  cases hbegins with
  | fixed plain configured =>
    exact ⟨plain, configured, by rw [Http.chooseEndpoint, ← h.fixedBackend, configured]⟩

/-- The Rust handler answers whatever the raw forwarder comes to. -/
theorem Alike.handle_of_forward (h : Alike isValid config request rust rustRequest)
    (hplain : Plain config) {endpoint : Text} {result : Except ProxyError Http.Response}
    (hchosen : Http.chooseEndpoint rust env rustRequest = .ok (.ok endpoint))
    (hforward : Http.forwardRawRequest lib rust env rustRequest endpoint = .ok result) :
    (∀ response, result = .ok response → Http.handle lib rust env rustRequest = .ok response)
      ∧ ∀ e, result = .error e →
        Http.handle lib rust env rustRequest = Http.serviceUnavailable lib := by
  obtain ⟨hhandler, hdirect⟩ := h.plain hplain
  unfold Http.handle
  simp only [hhandler, hdirect, hchosen, h.rawBackend.2, if_true, hforward, bind, Except.bind]
  exact ⟨by rintro _ rfl; rfl, by rintro _ rfl; rfl⟩

theorem Alike.raw_ne_none (h : Alike isValid config request rust rustRequest) :
    request.raw ≠ none := by
  unfold Request.raw
  rw [if_pos h.method.1]
  nofun

end Alike

/-! ## The response -/

section Response

variable {isValid : Text → Bool} {config : Config} {replies : ℕ → Http.FullReply} {s : State}
  {call : Call} {response : Response} {lib : Http.Library} {rust : Http.Config} {env : Http.Env}
  {rustRequest : Http.Request}

theorem not_forwardFailed {answer : ℕ → Bytes} (h : call.stage = .answered response) :
    ¬ s.ForwardFailed config answer call := by
  rintro ⟨k, -, hstage, -⟩
  rw [h] at hstage
  cases hstage

/-- The responses of a request that was forwarded. -/
theorem agrees_of_forwarded (hdistinct : ∀ k, ((replies k).headers.map fun p =>
      p.1.map Char.toLower).Nodup)
    (hraw : PhpRaw.Inv config.toConfig (fun k => (replies k).bytes) s.raw)
    (halike : Alike isValid config call.request rust rustRequest)
    (hmeets : Meets config (fun k => (replies k).bytes) s call lib rust env rustRequest)
    (hresponse : s.responseTo call = some response)
    (hforwarded : Forwarded config call.request call.stage) (hplain : Plain config)
    {endpoint : Text} (hendpoint : call.endpoint config = some endpoint)
    (hchosen : Http.chooseEndpoint rust env rustRequest = .ok (.ok endpoint))
    (hrouted : ¬ call.RouteFailed) :
    Agrees config (fun k => (replies k).bytes) s call response lib rust env rustRequest := by
  obtain ⟨k, hstage⟩ : ∃ k, call.stage = .forwardingRaw k := by
    generalize call.stage = stage at hforwarded
    cases hforwarded with
    | raw k => exact ⟨k, rfl⟩
    | pooled k not_raw | received received not_raw =>
      rcases not_raw with hoff | hnone
      · rw [halike.rawBackend.1] at hoff
        cases hoff
      · exact absurd hnone halike.raw_ne_none
  have hcall := hresponse
  unfold State.responseTo at hcall
  rw [hstage] at hcall
  obtain ⟨raw, hk, hrawResponse⟩ := Option.bind_eq_some_iff.1 hcall
  have hfails : s.ForwardFailed config (fun k => (replies k).bytes) call
      ↔ ¬ PhpRaw.Relays config.toConfig (replies k).bytes response := by
    refine ⟨?_, fun hnot => ⟨k, response, hstage, hresponse, hnot⟩⟩
    rintro ⟨k', response', hstage', hresponse', hnot⟩
    rw [hstage] at hstage'
    rw [hresponse] at hresponse'
    cases hstage'
    cases hresponse'
    exact hnot
  by_cases hrelays : PhpRaw.Relays config.toConfig (replies k).bytes response
  · have hnot := fun hfailed => hfails.1 hfailed hrelays
    obtain ⟨hwritten, hstream⟩ := hmeets.reply k endpoint hstage hendpoint hnot
    have hforward : Http.forwardRawRequest lib rust env rustRequest endpoint
        = .ok (.ok ((replies k).relayed rust)) :=
      (replies k).forwardRawRequest_eq_relayed halike.method.2 hwritten hstream
    have hhandle := (halike.handle_of_forward hplain hchosen hforward).1 _ rfl
    have hsame := PhpRaw.sameAs_relayed (replies k) halike.assumeOk (hdistinct k) hrelays
    exact ⟨iff_of_true ⟨_, hhandle, hsame⟩ ⟨hrouted, hnot⟩, fun h => absurd h hrouted,
      fun h => absurd h hnot⟩
  · have hfailed := hfails.2 hrelays
    obtain ⟨headers, hbad⟩ := (hraw.relays hk hrawResponse).resolve_left hrelays
    obtain ⟨e, he⟩ := hmeets.fails endpoint hendpoint hfailed
    have hhandle := (halike.handle_of_forward hplain hchosen he).2 e rfl
    refine ⟨iff_of_false ?_ fun h => h.2 hfailed, fun h => absurd h hrouted,
      fun _ => ⟨⟨headers, hbad⟩, hhandle⟩⟩
    rintro ⟨rustResponse, hr, hstatus, -⟩
    rw [hhandle, Http.serviceUnavailable_eq] at hr
    cases hr
    rw [hbad] at hstatus
    cases hstatus

/-- The responses of a request whose route has thrown. -/
theorem agrees_of_unrouted {answer : ℕ → Bytes} {request : Request} {e : ResolverError}
    {host : Text} (began : begin isValid config request = .route host)
    (halike : Alike isValid config request rust rustRequest)
    (hmeets : Meets config answer s ⟨request, .answered unavailable, some (.error e)⟩ lib rust env
      rustRequest) :
    Agrees config answer s ⟨request, .answered unavailable, some (.error e)⟩ unavailable lib rust
      env rustRequest := by
  obtain ⟨hplain, -, hhost, -, hchosen⟩ := halike.route env began
  obtain ⟨hhandler, hdirect⟩ := halike.plain hplain
  have hroute := hmeets.route host (.error e) hhost rfl
  rcases hrust : env.route (asBytes host) with e' | result <;> rw [hrust] at hroute
  · have hhandle : Http.handle lib rust env rustRequest = Http.resolverErrorResponse e' := by
      simp only [Http.handle, hhandler, hdirect, hchosen e' hrust]
      rfl
    refine ⟨iff_of_false ?_ fun h => h.1 ⟨e, rfl⟩, fun _ => ⟨rfl, e', hhandle⟩,
      fun h => absurd h (not_forwardFailed rfl)⟩
    -- PHP sets a content type, and the Rust handler sets no header
    rintro ⟨rustResponse, hr, -, hheaders, -⟩
    rw [hhandle] at hr
    cases hr
    cases hheaders
  · cases hroute

end Response

/-- In every run of the PHP handler with raw backends, whose replies are well formed and have a
length and headers with different names, and for every request in it that is answered: what it is
answered with is its own, and agrees with what the Rust handler responds, if it has the same
settings, gets the same `GET` and meets the same. -/
theorem same_response_iff (A : Php.Adapter) (isValid : Text → Bool) (config : Config)
    (replies : ℕ → Http.FullReply)
    (hdistinct : ∀ k, ((replies k).headers.map fun p => p.1.map Char.toLower).Nodup)
    (router : Php.State) {as : List Action} {s : State}
    (hrun : run (step A isValid config fun k => (replies k).bytes) (new router) as = some s)
    {i : ℕ} {call : Call} {response : Response} (hi : s.calls[i]? = some call)
    (hresponse : s.responseTo call = some response) (lib : Http.Library) (rust : Http.Config)
    (env : Http.Env) (rustRequest : Http.Request)
    (halike : Alike isValid config call.request rust rustRequest)
    (hmeets : Meets config (fun k => (replies k).bytes) s call lib rust env rustRequest) :
    s.Own config i call
      ∧ Agrees config (fun k => (replies k).bytes) s call response lib rust env rustRequest := by
  have hs := run_inv_new hrun
  refine ⟨hs.own i call hi, ?_⟩
  obtain ⟨-, -, bs, hbs⟩ := run_parts hrun
  have hraw : PhpRaw.Inv config.toConfig (fun k => (replies k).bytes) s.raw :=
    run_inv (fun _ _ _ hs hstep =>
      PhpRaw.step_inv (fun k => PhpRaw.sound_bytes (replies k)) hs hstep) PhpRaw.inv_new hbs
  cases hs.came call (List.mem_of_getElem? hi) with
  | responded began =>
    cases hresponse
    exact ⟨iff_of_true (halike.respond began) ⟨nofun, not_forwardFailed rfl⟩, nofun,
      fun h => absurd h (not_forwardFailed rfl)⟩
  | routing began => cases hresponse
  | unrouted began =>
    cases hresponse
    exact agrees_of_unrouted began halike hmeets
  | fixed began forwarded =>
    obtain ⟨hplain, hfixed, hchosen⟩ := halike.forward env began
    exact agrees_of_forwarded hdistinct hraw halike hmeets hresponse forwarded hplain
      (by rw [Call.endpoint, hfixed]; rfl) hchosen nofun
  | @routed request host result stage began found forwarded =>
    obtain ⟨hplain, hunfixed, hhost, hchosen, -⟩ := halike.route env began
    have hroute := hmeets.route host (.ok result) hhost rfl
    rcases hrust : env.route (asBytes host) with e | rustResult <;> rw [hrust] at hroute
    · cases hroute
    · have hendpoint : result.endpoint = rustResult.endpoint := Option.some.inj hroute
      exact agrees_of_forwarded hdistinct hraw halike hmeets hresponse forwarded hplain
        (by rw [Call.endpoint, hunfixed]; rfl) (hendpoint ▸ hchosen rustResult hrust) nofun

/-! ## Two hosts -/

/-- What is known of the hosts: one of them has a backend, and the other one is unknown. -/
def knows (endpoint : Text) : Php.World :=
  ⟨.error (.notFound ""), .ok ⟨endpoint, []⟩, fun endpoint => .ok endpoint, true⟩

def knowsNothing : Php.World :=
  ⟨.error (.notFound ""), .error (.notFound ""), fun endpoint => .ok endpoint, true⟩

def rawConfig : Config := ⟨⟨8, false⟩, none, none, 200, none, true, false⟩

def getFor (host : Char) : Request := ⟨⟨[("host".toList, [host])], []⟩, none, none, none⟩

/-- Two requests come together.  The first is routed to the backend `b`, which answers in two
pieces, and the route of the second throws. -/
def twoHosts : List Action :=
  [.request (getFor 'b') 0, .request (getFor 'a') 0, .routed 0 0 (knows ['b']),
    .routed 1 0 knowsNothing, .resume 0 .popTimeout, .resume 0 (.connect true),
    .resume 0 (.send true), .arrive 0 37, .resume 0 (.recv 37), .arrive 0 3, .resume 0 (.recv 3)]

def rustRawConfig : Http.Config := { Http.plainConfig with rawBackend := true }

def oneHostEnv : Http.Env :=
  { Http.hiEnv with
    route := fun data => if data = [98] then .ok ⟨['b'], .http, []⟩ else .error (.notFound "") }

def rustGetFor (host : Char) : Http.Request :=
  ⟨.get, some ['/'], [("host".toList, asBytes [host])], []⟩

theorem alike_getFor {host : Char} (hhost : host = 'a' ∨ host = 'b') :
    Alike (fun _ => true) rawConfig (getFor host) rustRawConfig (rustGetFor host) where
  handler := .none
  directResponse := rfl
  directResponseStatus := rfl
  status := by decide
  fixedBackend := rfl
  rawBackend := ⟨rfl, rfl⟩
  assumeOk := rfl
  method := ⟨rfl, rfl⟩
  host := by rcases hhost with rfl | rfl <;> rfl
  not_zero := by rcases hhost with rfl | rfl <;> decide
  valid := by
    rintro _ ⟨⟩
    refine iff_of_true rfl ?_
    rcases hhost with rfl | rfl <;> exact isValidHostname_iff.1 (by decide)

def routedCall : Call :=
  ⟨getFor 'b', .forwardingRaw 0, some (.ok ⟨['b'], .http, [], false⟩)⟩

def unroutedCall : Call := ⟨getFor 'a', .answered unavailable, some (.error (.notFound ""))⟩

/-- The raw forwarder has relayed the backend's reply. -/
theorem not_failed_routedCall {s : State}
    (hresponse : s.responseTo routedCall = some ⟨200, [], [104, 105]⟩) :
    ¬ s.ForwardFailed rawConfig (fun _ => Http.hiReply.bytes) routedCall := by
  rintro ⟨k, response, -, hsome, hnot⟩
  rw [hresponse] at hsome
  cases hsome
  refine hnot ⟨_, _, _, PhpRaw.splits_bytes Http.hiReply, ?_, List.prefix_rfl, fun _ => rfl⟩
  rw [Http.chars_asBytes Http.hiReply.text_ascii, PhpRaw.parseHead_text]
  rfl

theorem meets_routedCall {s : State}
    (hresponse : s.responseTo routedCall = some ⟨200, [], [104, 105]⟩) :
    Meets rawConfig (fun _ => Http.hiReply.bytes) s routedCall Http.plainLibrary rustRawConfig
      oneHostEnv (rustGetFor 'b') where
  route := by
    rintro _ _ ⟨⟩ ⟨⟩
    rfl
  reply := by
    rintro _ _ ⟨⟩ ⟨⟩ -
    exact ⟨⟨rfl, rfl, rfl⟩, Http.stream_hiEnv⟩
  fails _ _ hfailed := absurd hfailed (not_failed_routedCall hresponse)

theorem meets_unroutedCall (s : State) :
    Meets rawConfig (fun _ => Http.hiReply.bytes) s unroutedCall Http.plainLibrary rustRawConfig
      oneHostEnv (rustGetFor 'a') where
  route := by
    rintro _ _ ⟨⟩ ⟨⟩
    rfl
  reply := by
    rintro _ _ ⟨⟩
  fails _ _ hfailed := absurd hfailed (not_forwardFailed rfl)

theorem same_response_iff_twoHosts :
    ∃ s, run (step ⟨.http, true⟩ (fun _ => true) rawConfig fun _ => Http.hiReply.bytes)
        (new Php.new) twoHosts = some s
      ∧ s.calls = [routedCall, unroutedCall]
      ∧ s.responseTo routedCall = some ⟨200, [], [104, 105]⟩ ∧ s.Own rawConfig 0 routedCall
      ∧ SameResponse ⟨200, [], [104, 105]⟩ Http.plainLibrary rustRawConfig oneHostEnv
        (rustGetFor 'b')
      ∧ s.responseTo unroutedCall = some unavailable
      ∧ ¬ SameResponse unavailable Http.plainLibrary rustRawConfig oneHostEnv
        (rustGetFor 'a') := by
  have hrun : ∃ s, run (step ⟨.http, true⟩ (fun _ => true) rawConfig fun _ => Http.hiReply.bytes)
        (new Php.new) twoHosts = some s
      ∧ s.calls = [routedCall, unroutedCall]
      ∧ s.responseTo routedCall = some ⟨200, [], [104, 105]⟩ := ⟨_, rfl, rfl, rfl⟩
  obtain ⟨s, hs, hcalls, hresponse⟩ := hrun
  have hfirst : s.calls[0]? = some routedCall := by
    rw [hcalls]
    rfl
  have hsecond : s.calls[1]? = some unroutedCall := by
    rw [hcalls]
    rfl
  have hrouted := same_response_iff _ _ _ (fun _ => Http.hiReply) (fun _ => by decide) _ hs hfirst
    hresponse _ _ _ _ (alike_getFor (.inr rfl)) (meets_routedCall hresponse)
  have hunrouted := same_response_iff _ _ _ (fun _ => Http.hiReply) (fun _ => by decide) _ hs
    hsecond rfl _ _ _ _ (alike_getFor (.inl rfl)) (meets_unroutedCall s)
  refine ⟨s, hs, hcalls, hresponse, hrouted.1,
    hrouted.2.1.2 ⟨?_, not_failed_routedCall hresponse⟩, rfl,
    fun hsame => (hunrouted.2.1.1 hsame).1 ⟨_, rfl⟩⟩
  rintro ⟨e, he⟩
  cases he

end PhpHandler

end ProtocolProxy
