import ProtocolProxy.Proofs.Pools
import ProtocolProxy.Proofs.Server

/-!
# What a worker of the HTTP server connects to

A request is routed with its own host, and forwarded to the endpoint that the route returned: on a
connection of its own, or on one from the pool of the endpoint's authority.  A pooled connection may
have been dialed for another request, but its pool has the same authority (`Pools.Inv.dialed_at`),
so it goes where the request's own route said (`Inv.connectedTo`).
-/

namespace ProtocolProxy

open Machine

/-! ## The calls of the pools -/

namespace Pools

variable {s s' : State} {size i : ℕ}

def Call.endpoint : Call → Text
  | .looking endpoint | .inserting endpoint | .pooled endpoint _ _ => endpoint

/-- A call that goes on is still for its endpoint. -/
theorem call_of_set {calls : List Call} {j : ℕ} {c x y : Call} (hx : calls[j]? = some x)
    (hxy : y.endpoint = x.endpoint) (hc : calls[i]? = some c) :
    ∃ c', (calls.set j y)[i]? = some c' ∧ c'.endpoint = c.endpoint := by
  by_cases hij : j = i
  · subst hij
    rw [hx, Option.some.injEq] at hc
    exact ⟨y, List.getElem?_set_self (List.getElem?_eq_some_iff.1 hx).1, hc ▸ hxy⟩
  · exact ⟨c, by rw [List.getElem?_set_ne hij, hc], rfl⟩

theorem calls_of_enter {endpoint : Text} {p : ℕ} (h : s.enter i endpoint p = some s') :
    ∃ t, s'.calls = s.calls.set i (.pooled endpoint p t) := by
  obtain ⟨pool, -, h⟩ := Option.bind_eq_some_iff.1 h
  obtain ⟨pool', -, h⟩ := Option.bind_eq_some_iff.1 h
  cases h
  exact ⟨_, rfl⟩

theorem call_of_step {a : Action} {c : Call} (h : step size s a = some s')
    (hc : s.calls[i]? = some c) : ∃ c', s'.calls[i]? = some c' ∧ c'.endpoint = c.endpoint := by
  cases a with
  | forward endpoint =>
    cases h
    exact ⟨c, by rw [List.getElem?_append_left (List.getElem?_eq_some_iff.1 hc).1, hc], rfl⟩
  | get j =>
    simp only [step] at h
    split at h
    next endpoint hj =>
      split at h
      next p hp =>
        obtain ⟨t, ht⟩ := calls_of_enter h
        rw [ht]
        exact call_of_set hj rfl hc
      next =>
        cases h
        exact call_of_set hj rfl hc
    next => cases h
  | entry j =>
    simp only [step] at h
    split at h
    next endpoint hj =>
      split at h <;>
      · obtain ⟨t, ht⟩ := calls_of_enter h
        rw [ht]
        exact call_of_set hj rfl hc
    next => cases h
  | pool p task move =>
    obtain ⟨pool, -, h⟩ := Option.bind_eq_some_iff.1 h
    obtain ⟨pool', -, h⟩ := Option.bind_eq_some_iff.1 h
    cases h
    exact ⟨c, hc, rfl⟩
  | send j =>
    simp only [step] at h
    split at h
    next =>
      split at h
      next =>
        cases h
        exact ⟨c, hc, rfl⟩
      next => cases h
    next => cases h

end Pools

/-! ## The worker -/

namespace HttpWorker

variable {A : Route.Adapter} {config : Http.Config} {s s' : State} {i : ℕ}

/-- What a step of a worker without a fixed backend can be. -/
inductive Steps (A : Route.Adapter) (config : Http.Config) (s : State) : Action → State → Prop
  | adapter (a : Route.Action) (r : Route.State) (moved : Route.step A s.adapter a = some r) :
      Steps A config s (.adapter a) { s with adapter := r }
  | pools (a : Pools.Action) (p : Pools.State)
      (moved : Pools.step config.poolSize s.pools a = some p) :
      Steps A config s (.pools a) { s with pools := p }
  | refuse (request : Http.Request) :
      Steps A config s (.handle request) { s with requests := s.requests ++ [(request, .answered)] }
  | route (request : Http.Request) (host : Text) (r : Route.State)
      (hosted : Http.extractHost request = .ok (.ok host))
      (routed : Route.step A s.adapter (.route (asBytes host)) = some r) :
      Steps A config s (.handle request)
        { s with
          adapter := r
          requests := s.requests ++ [(request, .routing s.adapter.calls.length)] }
  | answer (i : ℕ) (request : Http.Request) :
      Steps A config s (.forward i) { s with requests := s.requests.set i (request, .answered) }
  | raw (i call : ℕ) (request : Http.Request) (c : Route.Call) (d : Dial) (endpoint : Text)
      (asked : s.requests[i]? = some (request, .routing call))
      (found : s.adapter.calls[call]? = some c) (dialed : Served.dialOf 80 c = some d)
      (parsed : parseEndpoint endpoint 80 = (d.host, d.port)) :
      Steps A config s (.forward i)
        { s with
          requests := s.requests.set i (request, .raw (Pools.authority endpoint))
          dials := s.dials ++ [d] }
  | pooled (i call : ℕ) (request : Http.Request) (c : Route.Call) (d : Dial) (endpoint : Text)
      (p : Pools.State) (asked : s.requests[i]? = some (request, .routing call))
      (found : s.adapter.calls[call]? = some c) (dialed : Served.dialOf 80 c = some d)
      (parsed : parseEndpoint endpoint 80 = (d.host, d.port))
      (moved : Pools.step config.poolSize s.pools (.forward endpoint) = some p) :
      Steps A config s (.forward i)
        { s with
          pools := p
          requests := s.requests.set i (request, .pooled s.pools.calls.length)
          dials := s.dials ++ [d] }

theorem steps_of_step {a : Action} (hfix : config.fixedBackend = none)
    (h : step A config s a = some s') : Steps A config s a s' := by
  cases a with
  | adapter a =>
    cases a with
    | route data => cases h
    | tick | setCacheTtl | setSkipValidation | setOnResolve | evict | resume =>
      simp only [step] at h
      obtain ⟨r, hr, rfl⟩ := Option.map_eq_some_iff.1 h
      exact .adapter _ r hr
  | pools a =>
    cases a with
    | forward endpoint => cases h
    | get | entry | pool | send =>
      simp only [step] at h
      obtain ⟨p, hp, rfl⟩ := Option.map_eq_some_iff.1 h
      exact .pools _ p hp
  | handle request =>
    simp only [step, State.handle, hfix] at h
    split at h
    next host hhost =>
      obtain ⟨r, hr, rfl⟩ := Option.map_eq_some_iff.1 h
      exact .route request host r hhost hr
    next =>
      cases h
      exact .refuse request
  | forward i =>
    simp only [step] at h
    split at h
    next request call hi =>
      obtain ⟨c, hc, h⟩ := Option.bind_eq_some_iff.1 h
      split at h
      next result hr =>
        obtain ⟨t, ht, rfl⟩ := Option.map_eq_some_iff.1 h
        have hd : Served.dialOf 80 c = some ⟨c.data, (parseEndpoint result.endpoint 80).1,
            (parseEndpoint result.endpoint 80).2⟩ := by
          simp only [Served.dialOf, hr]
        rw [hd, Option.toList_some]
        unfold State.forward at ht
        split_ifs at ht
        · cases ht
          exact .raw i call request c _ result.endpoint hi hc hd rfl
        · obtain ⟨p, hp, rfl⟩ := Option.map_eq_some_iff.1 ht
          exact .pooled i call request c _ result.endpoint p hi hc hd rfl hp
      next =>
        cases h
        exact .answer i request
      next => cases h
    next => cases h

def stands (s : State) : Served.State := ⟨s.adapter, s.dials⟩

/-- The actions that leave `skip_validation` off. -/
def Validates : Action → Prop
  | .adapter a => a ≠ .setSkipValidation true
  | _ => True

/-- A connection was made for a request's own host. -/
def DialedFor (s : State) (request : Http.Request) (d : Dial) : Prop :=
  d ∈ s.dials ∧ ∃ host, Http.extractHost request = .ok (.ok host) ∧ d.data = asBytes host

/-- A request's route is for its own host, and it is forwarded where that route said. -/
def Backed (s : State) (request : Http.Request) : Stage → Prop
  | .routing call => ∃ host c, Http.extractHost request = .ok (.ok host)
      ∧ s.adapter.calls[call]? = some c ∧ c.data = asBytes host
  | .raw authority => ∃ d, DialedFor s request d ∧ authority = d.host ++ ':' :: portText d.port
  | .pooled call => ∃ d c, DialedFor s request d ∧ s.pools.calls[call]? = some c
      ∧ Pools.authority c.endpoint = d.host ++ ':' :: portText d.port
  | .answered => True

structure Inv (s : State) : Prop where
  pools : Pools.Inv s.pools
  requests : ∀ x ∈ s.requests, Backed s x.1 x.2

theorem inv_new : Inv new where
  pools := Pools.inv_new
  requests := by simp [new]

theorem DialedFor.mono {request : Http.Request} {d : Dial} (h : DialedFor s request d)
    (hsub : s.dials ⊆ s'.dials) : DialedFor s' request d :=
  ⟨hsub h.1, h.2⟩

/-- A request stays backed while the calls keep what they are for and the connections are kept. -/
theorem Backed.mono {request : Http.Request} {stage : Stage} (h : Backed s request stage)
    (hcalls : ∀ (i : ℕ) (c : Route.Call), s.adapter.calls[i]? = some c →
      ∃ c', s'.adapter.calls[i]? = some c' ∧ c'.data = c.data)
    (hpools : ∀ (i : ℕ) (c : Pools.Call), s.pools.calls[i]? = some c →
      ∃ c', s'.pools.calls[i]? = some c' ∧ c'.endpoint = c.endpoint)
    (hdials : s.dials ⊆ s'.dials) : Backed s' request stage := by
  cases stage with
  | routing call =>
    obtain ⟨host, c, hhost, hc, hdata⟩ := h
    obtain ⟨c', hc', hdata'⟩ := hcalls call c hc
    exact ⟨host, c', hhost, hc', hdata'.trans hdata⟩
  | raw authority =>
    obtain ⟨d, hd, hauthority⟩ := h
    exact ⟨d, hd.mono hdials, hauthority⟩
  | pooled call =>
    obtain ⟨d, c, hd, hc, hauthority⟩ := h
    obtain ⟨c', hc', hendpoint⟩ := hpools call c hc
    exact ⟨d, c', hd.mono hdials, hc', hendpoint ▸ hauthority⟩
  | answered => trivial

theorem authority_of_parsed {endpoint : Text} {d : Dial}
    (h : parseEndpoint endpoint 80 = (d.host, d.port)) :
    Pools.authority endpoint = d.host ++ ':' :: portText d.port := by
  simp only [Pools.authority, h]

/-- What is dialed for a request that is routing is dialed for its host. -/
theorem Inv.dialedFor {request : Http.Request} {call : ℕ} {c : Route.Call} {d : Dial} (hs : Inv s)
    (asked : s.requests[i]? = some (request, .routing call))
    (found : s.adapter.calls[call]? = some c) (dialed : Served.dialOf 80 c = some d) :
    ∃ host, Http.extractHost request = .ok (.ok host) ∧ d.data = asBytes host := by
  obtain ⟨host, c', hhost, hc', hdata⟩ := hs.requests _ (List.mem_of_getElem? asked)
  rw [found, Option.some.injEq] at hc'
  subst hc'
  obtain ⟨-, -, hd, -⟩ := Served.dialOf_eq_some dialed
  exact ⟨host, hhost, hd.trans hdata⟩

theorem Steps.inv {a : Action} (hs : Inv s) (h : Steps A config s a s') : Inv s' := by
  cases h with
  | adapter a r moved =>
    refine ⟨hs.pools, fun x hx => (hs.requests x hx).mono (fun i c hc => ?_)
      (fun i c hc => ⟨c, hc, rfl⟩) (List.Subset.refl _)⟩
    obtain ⟨c', hc', hdata, -⟩ := Route.call_of_step moved hc
    exact ⟨c', hc', hdata⟩
  | pools a p moved =>
    exact ⟨Pools.step_inv a hs.pools moved, fun x hx => (hs.requests x hx).mono
      (fun i c hc => ⟨c, hc, rfl⟩) (fun i c hc => Pools.call_of_step moved hc)
      (List.Subset.refl _)⟩
  | refuse request =>
    refine ⟨hs.pools, fun x hx => ?_⟩
    rcases List.mem_append.1 hx with hx | hx
    · exact (hs.requests x hx).mono (fun i c hc => ⟨c, hc, rfl⟩) (fun i c hc => ⟨c, hc, rfl⟩)
        (List.Subset.refl _)
    · rw [List.mem_singleton.1 hx]
      trivial
  | route request host r hosted routed =>
    refine ⟨hs.pools, fun x hx => ?_⟩
    rcases List.mem_append.1 hx with hx | hx
    · refine (hs.requests x hx).mono (fun i c hc => ?_) (fun i c hc => ⟨c, hc, rfl⟩)
        (List.Subset.refl _)
      obtain ⟨c', hc', hdata, -⟩ := Route.call_of_step routed hc
      exact ⟨c', hc', hdata⟩
    · rw [List.mem_singleton.1 hx]
      exact ⟨host, _, hosted, Route.calls_of_route routed, rfl⟩
  | answer i request =>
    refine ⟨hs.pools, fun x hx => ?_⟩
    rcases List.mem_or_eq_of_mem_set hx with hx | rfl
    · exact (hs.requests x hx).mono (fun i c hc => ⟨c, hc, rfl⟩) (fun i c hc => ⟨c, hc, rfl⟩)
        (List.Subset.refl _)
    · trivial
  | raw i call request c d endpoint asked found dialed parsed =>
    have hfor := hs.dialedFor asked found dialed
    refine ⟨hs.pools, fun x hx => ?_⟩
    rcases List.mem_or_eq_of_mem_set hx with hx | rfl
    · exact (hs.requests x hx).mono (fun i c hc => ⟨c, hc, rfl⟩) (fun i c hc => ⟨c, hc, rfl⟩)
        (List.subset_append_left _ _)
    · exact ⟨d, ⟨List.mem_append_right _ (List.mem_singleton_self d), hfor⟩,
        authority_of_parsed parsed⟩
  | pooled i call request c d endpoint p asked found dialed parsed moved =>
    have hfor := hs.dialedFor asked found dialed
    refine ⟨Pools.step_inv _ hs.pools moved, fun x hx => ?_⟩
    rcases List.mem_or_eq_of_mem_set hx with hx | rfl
    · exact (hs.requests x hx).mono (fun i c hc => ⟨c, hc, rfl⟩)
        (fun i c hc => Pools.call_of_step moved hc) (List.subset_append_left _ _)
    · cases moved
      exact ⟨d, .looking endpoint, ⟨List.mem_append_right _ (List.mem_singleton_self d), hfor⟩,
        List.getElem?_concat_length, authority_of_parsed parsed⟩

theorem refines (hfix : config.fixedBackend = none) : Refines (step A config) (Served.step A 80)
    stands Inv Validates Served.Validates where
  keeps s a s' hs _ h := (steps_of_step hfix h).inv hs
  matched s a s' _ ha h := by
    cases steps_of_step hfix h with
    | adapter a r moved => exact Served.run_adapter moved ha
    | pools | refuse | answer => exact ⟨[], by simp, rfl⟩
    | route request host r hosted routed => exact Served.run_adapter routed (by simp)
    | raw i call request c d endpoint asked found dialed parsed
    | pooled i call request c d endpoint p asked found dialed parsed moved =>
      obtain ⟨bs, hbs, hrun⟩ : ∃ bs, _ ∧ run (Served.step A 80) (stands s) bs = _ :=
        Served.run_dials found
      rw [dialed] at hrun
      exact ⟨bs, hbs, hrun⟩

/-- A request's connection was dialed for its host. -/
theorem Inv.connectedTo {authority : Text} (hs : Inv s) (h : s.connectedTo i = some authority) :
    ∃ request stage d, s.requests[i]? = some (request, stage) ∧ DialedFor s request d
      ∧ authority = d.host ++ ':' :: portText d.port := by
  unfold State.connectedTo at h
  split at h
  next request authority' hi =>
    cases h
    obtain ⟨d, hd, hauthority⟩ := hs.requests _ (List.mem_of_getElem? hi)
    exact ⟨request, _, d, hi, hd, hauthority⟩
  next request call hi =>
    split at h
    next endpoint p task hcall =>
      split at h
      next permit client htask =>
        cases h
        obtain ⟨d, c, hd, hc, hauthority⟩ := hs.requests _ (List.mem_of_getElem? hi)
        rw [hcall, Option.some.injEq] at hc
        subst hc
        refine ⟨request, _, d, hi, hd, ?_⟩
        rw [hs.pools.dialed_at (List.mem_of_getElem? hcall) htask]
        exact hauthority
      next => cases h
    next => cases h
  next => cases h

/-- While validation is on and there is no fixed backend, the connection that a request is sent on,
raw or from a pool, is one for the text of an address that is not blocked and that `validate` gave
for the request's own host, and goes to that address if it is an IPv4 one. -/
theorem connectedTo_checked (A : Route.Adapter) {config : Http.Config}
    (hfix : config.fixedBackend = none) {as : List Action} {s : State}
    (hrun : run (step A config) new as = some s) (has : ∀ a ∈ as, Validates a) :
    ∀ i authority, s.connectedTo i = some authority →
      ∃ request stage host d, s.requests[i]? = some (request, stage)
        ∧ Http.extractHost request = .ok (.ok host) ∧ d.data = asBytes host
        ∧ authority = d.host ++ ':' :: portText d.port
        ∧ Served.Checked s.adapter.log 80 d := by
  intro i authority h
  have hinv : Inv s := ((refines hfix).run inv_new has hrun).1
  have hserved : Served.Inv 80 (stands s) :=
    (refines hfix).inv (fun _ _ _ hs hb h => Served.step_inv hs hb h) inv_new Served.inv_new has
      hrun
  obtain ⟨request, stage, d, hi, ⟨hmem, host, hhost, hdata⟩, hauthority⟩ := hinv.connectedTo h
  exact ⟨request, stage, host, d, hi, hhost, hdata, hauthority, hserved.checked d hmem⟩

/-- The request `i` for a host, routed to an endpoint. -/
def routedTo (i : ℕ) (host endpoint : Text) : List Action :=
  [.handle ⟨.other "POST".toList, none, [("host".toList, asBytes host)], []⟩,
    .adapter (.resume i .go), .adapter (.resume i .go),
    .adapter (.resume i (.resolver (.ok ⟨endpoint, []⟩))), .adapter (.resume i .go),
    .adapter (.resume i (.dns ⟨fun _ => none, .answer []⟩)), .forward i]

/-- Two hosts with one backend: the second request is sent on the connection of the first. -/
def twoHosts : List Action :=
  routedTo 0 ['a'] "8.8.8.8".toList
    ++ [.pools (.get 0), .pools (.entry 0), .pools (.pool 0 0 .permit),
      .pools (.pool 0 0 (.pop true)), .pools (.pool 0 0 .connected),
      .pools (.pool 0 0 (.drop true)), .pools (.pool 0 0 .returnPermit)]
    ++ routedTo 1 ['b'] "8.8.8.8:80".toList
    ++ [.pools (.get 1), .pools (.pool 0 1 .permit), .pools (.pool 0 1 (.pop true))]

theorem connectedTo_checked_twoHosts :
    ∃ s, run (step ⟨.http, true⟩ Http.plainConfig) new twoHosts = some s
      ∧ s.connectedTo 1 = some "8.8.8.8:80".toList
      ∧ ∃ request stage host d, s.requests[1]? = some (request, stage)
        ∧ Http.extractHost request = .ok (.ok host) ∧ d.data = asBytes host
        ∧ "8.8.8.8:80".toList = d.host ++ ':' :: portText d.port
        ∧ Served.Checked s.adapter.log 80 d := by
  have hrun : ∃ s, run (step ⟨.http, true⟩ Http.plainConfig) new twoHosts = some s
      ∧ s.connectedTo 1 = some "8.8.8.8:80".toList := ⟨_, rfl, rfl⟩
  obtain ⟨s, hs, hto⟩ := hrun
  exact ⟨s, hs, hto, connectedTo_checked ⟨.http, true⟩ rfl hs
    (by simp [twoHosts, routedTo, Validates]) 1 _ hto⟩

end HttpWorker

end ProtocolProxy
