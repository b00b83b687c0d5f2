import ProtocolProxy.Proofs.Connections
import ProtocolProxy.Proofs.Route
import ProtocolProxy.Refinement
import ProtocolProxy.Server

/-!
# What the servers connect to

A call of `route` that returned an endpoint has it from its own resolver, or from the cache, where
the call that stored it has left its tracks in the log (`Route.Inv`).  While `skip_validation` is
never switched on, either way `validate` has accepted it for the same data
(`Served.checked_of_returned`), and a log only grows.  So along every run of an adapter and what is
dialed from it, all connections are checked (`Served.step_inv`).

Each server refines that machine (`refines`, here for the TCP server): its steps are steps of the
adapter, connections for calls that have returned, and steps the adapter does not see.  What is left
to show for a server is that a connection is made for the client that asked.
-/

namespace ProtocolProxy

open Machine Net

/-! ## The calls of an adapter -/

namespace Route

variable {A : Adapter} {s s' : State} {a : Action} {i : ℕ} {c : Call}

/-- A call keeps its data, and its result once it has one. -/
theorem call_of_step (h : step A s a = some s') (hc : s.calls[i]? = some c) :
    ∃ c', s'.calls[i]? = some c' ∧ c'.data = c.data
      ∧ ∀ r, c.pc = .returned r → c'.pc = .returned r := by
  cases a with
  | tick | setCacheTtl | setOnResolve | evict =>
    cases h
    exact ⟨c, hc, rfl, fun _ hr => hr⟩
  | setSkipValidation skip =>
    cases h
    cases skip
    · exact ⟨c, hc, rfl, fun _ hr => hr⟩
    · refine ⟨c.seeSkip, ?_, seeSkip_data c, fun r hr => by rw [seeSkip_pc, hr]⟩
      simp [hc]
  | route data =>
    cases h
    refine ⟨c, ?_, rfl, fun _ hr => hr⟩
    rw [List.getElem?_append_left (List.getElem?_eq_some_iff.1 hc).1]
    exact hc
  | resume j input =>
    obtain ⟨c', eff, hc', heff, rfl⟩ := resume_eq h
    by_cases hij : j = i
    · subst hij
      rw [hc, Option.some.injEq] at hc'
      subst hc'
      refine ⟨{ c with pc := eff.pc }, ?_, rfl, fun r hr => ?_⟩
      · simp [State.apply, hc]
      · rw [hr, next_returned] at heff
        cases heff
    · refine ⟨c, ?_, rfl, fun _ hr => hr⟩
      simp [State.apply, hij, hc]

theorem log_subset_of_step (h : step A s a = some s') : s.log ⊆ s'.log := by
  cases a with
  | tick | setCacheTtl | setSkipValidation | setOnResolve | evict | route =>
    cases h
    exact List.Subset.refl _
  | resume i input =>
    obtain ⟨c, eff, -, -, rfl⟩ := resume_eq h
    exact List.subset_append_left _ _

theorem calls_of_route {data : Bytes} (h : step A s (.route data) = some s') :
    s'.calls[s.calls.length]? = some ⟨data, .readTtl, s.skipValidation⟩ := by
  cases h
  exact List.getElem?_concat_length

/-- An endpoint that a call returned was obtained for the call's data, by itself or by the call that
stored it. -/
theorem sourced_of_returned (hs : Inv s) (hc : s.calls[i]? = some c) {r : ConnectionResult}
    (hr : c.pc = .returned (.ok r)) : ∃ j, Sourced s.log j c.data r.endpoint := by
  have hpc := hs.calls i c hc
  rw [hr] at hpc
  rcases hpc with ⟨ttl, time, hhit⟩ | ⟨hsrc, -⟩
  · obtain ⟨pre, post, hlog⟩ := List.append_of_mem hhit
    obtain ⟨-, j, insertedAt, t, hprov, -⟩ :=
      hs.hits pre _ post hlog i c.data r.endpoint ttl time rfl
    refine ⟨j, hprov.sourced.mono ?_⟩
    rw [hlog]
    exact List.subset_append_left _ _
  · exact ⟨i, hsrc⟩

end Route

/-! ## Checked connections -/

namespace Served

variable {A : Route.Adapter} {port : UInt16} {s s' : State} {log log' : List Route.Event} {d : Dial}

theorem Checked.mono (hsub : log ⊆ log') (h : Checked log port d) : Checked log' port d := by
  obtain ⟨i, raw, env, ip, p, hob, hrest⟩ := h
  exact ⟨i, raw, env, ip, p, hsub hob, hrest⟩

theorem dialOf_eq_some {c : Route.Call} (h : dialOf port c = some d) :
    ∃ r, c.pc = .returned (.ok r) ∧ d.data = c.data
      ∧ parseEndpoint r.endpoint port = (d.host, d.port) := by
  unfold dialOf at h
  split at h
  next r hr =>
    cases h
    exact ⟨r, hr, rfl, rfl⟩
  next => cases h

/-- What is dialed for a call that returned is checked, if no call has read `skip_validation` as on.
-/
theorem checked_of_returned {r : Route.State} {i : ℕ} {c : Route.Call} (hs : Route.Inv r)
    (hskip : Route.NeverSkipped r) (hc : r.calls[i]? = some c) (hd : dialOf port c = some d) :
    Checked r.log port d := by
  obtain ⟨result, hr, hdata, hparse⟩ := dialOf_eq_some hd
  obtain ⟨j, raw, hob, -, ⟨hread, -⟩ | ⟨-, env, hv⟩⟩ := Route.sourced_of_returned hs hc hr
  · exact absurd hread (hskip.2 j)
  · obtain ⟨ip, p, -, hb, -, hendpoint⟩ := validate_ok hv
    rw [hendpoint] at hv hparse
    refine ⟨j, raw, env, ip, p, hdata ▸ hob, hv, hb, hparse, fun hv4 => ?_⟩
    cases ip with
    | v4 ip =>
      rw [parseEndpoint_v4] at hparse
      obtain ⟨hhost, hport⟩ := Prod.mk.inj hparse
      exact ⟨hhost.symm, hport.symm⟩
    | v6 ip => cases hv4

structure Inv (port : UInt16) (s : State) : Prop where
  route : Route.Inv s.adapter
  skip : Route.NeverSkipped s.adapter
  checked : ∀ d ∈ s.dials, Checked s.adapter.log port d

theorem inv_new : Inv port new where
  route := Route.inv_new
  skip := ⟨rfl, fun i => by simp [new, Route.new]⟩
  checked := by simp [new]

/-- The actions that leave `skip_validation` off. -/
def Validates : Action → Prop
  | .adapter a => a ≠ .setSkipValidation true
  | .dial _ => True

theorem step_inv {a : Action} (hs : Inv port s) (ha : Validates a)
    (h : step A port s a = some s') : Inv port s' := by
  cases a with
  | adapter a =>
    obtain ⟨r, hr, rfl⟩ := Option.map_eq_some_iff.1 h
    exact ⟨Route.step_inv hs.route hr, Route.step_neverSkipped hs.skip ha hr,
      fun d hd => (hs.checked d hd).mono (Route.log_subset_of_step hr)⟩
  | dial call =>
    obtain ⟨d, hd, rfl⟩ := Option.map_eq_some_iff.1 h
    obtain ⟨c, hc, hd⟩ := Option.bind_eq_some_iff.1 hd
    refine ⟨hs.route, hs.skip, fun d' hd' => ?_⟩
    rcases List.mem_append.1 hd' with hd' | hd'
    · exact hs.checked d' hd'
    · rw [List.mem_singleton.1 hd']
      exact checked_of_returned hs.route hs.skip hc hd

/-- A step of the adapter, as a run. -/
theorem run_adapter {a : Route.Action} {r : Route.State} (h : Route.step A s.adapter a = some r)
    (ha : a ≠ .setSkipValidation true) : ∃ bs, (∀ b ∈ bs, Validates b)
      ∧ run (step A port) s bs = some { s with adapter := r } := by
  refine ⟨[.adapter a], fun b hb => ?_, ?_⟩
  · rw [List.mem_singleton.1 hb]
    exact ha
  · rw [run_singleton, step, h, Option.map_some]

/-- What is dialed for a call, if anything is, as a run. -/
theorem run_dials {c : Route.Call} {call : ℕ} (hc : s.adapter.calls[call]? = some c) :
    ∃ bs, (∀ b ∈ bs, Validates b)
      ∧ run (step A port) s bs = some { s with dials := s.dials ++ (dialOf port c).toList } := by
  rcases hd : dialOf port c with _ | d
  · exact ⟨[], by simp, by simp⟩
  · refine ⟨[.dial call], by simp [Validates], ?_⟩
    rw [run_singleton, step, hc, Option.bind_some, hd, Option.map_some, Option.toList_some]

end Served

/-! ## The TCP server -/

namespace Connections

/-- A handler does not come back to where it was accepted. -/
theorem left_accepted {port : UInt16} {s s' : State} {a : Action} {i : ℕ} {h : Handler}
    (hstep : step port s a = some s') (hi : s.handlers[i]? = some h) (hst : h.stage ≠ .accepted) :
    ∃ h', s'.handlers[i]? = some h' ∧ h'.stage ≠ .accepted := by
  cases a with
  | accept fd =>
    simp only [step] at hstep
    split_ifs at hstep
    cases hstep
    refine ⟨h, ?_, hst⟩
    rw [List.getElem?_append_left (List.getElem?_eq_some_iff.1 hi).1]
    exact hi
  | resume j m =>
    obtain ⟨x, hj, hr⟩ := step_resume hstep
    -- every move puts a handler that has left in the place of the one that moves
    have hput : ∃ y, s'.handlers = s.handlers.set j y ∧ y.stage ≠ .accepted := by
      cases hr <;> exact ⟨_, rfl, by simp⟩
    obtain ⟨y, hhandlers, hy⟩ := hput
    rw [hhandlers]
    by_cases hij : j = i
    · subst hij
      exact ⟨y, List.getElem?_set_self (List.getElem?_eq_some_iff.1 hj).1, hy⟩
    · exact ⟨h, by rw [List.getElem?_set_ne hij, hi], hst⟩

end Connections

namespace TcpServer

variable {A : Route.Adapter} {port : UInt16} {s s' : State} {i : ℕ}

theorem move_eq_some {m : Connections.Move} (h : s.move port i m = some s') :
    ∃ c, Connections.step port s.connections (.resume i m) = some c
      ∧ s' = { s with connections := c } := by
  obtain ⟨c, hc, rfl⟩ := Option.map_eq_some_iff.1 h
  exact ⟨c, hc, rfl⟩

theorem route_eq_some {data : Bytes} (h : s.route A i data = some s') :
    ∃ r, Route.step A s.adapter (.route data) = some r
      ∧ s' = { s with
          adapter := r
          routing := Function.update s.routing i (some s.adapter.calls.length)
          packets := Function.update s.packets i (some data) } := by
  obtain ⟨r, hr, rfl⟩ := Option.map_eq_some_iff.1 h
  exact ⟨r, hr, rfl⟩

/-- What a step of the server can be. -/
inductive Steps (A : Route.Adapter) (port : UInt16) (s : State) : Action → State → Prop
  | adapter (a : Route.Action) (r : Route.State) (moved : Route.step A s.adapter a = some r) :
      Steps A port s (.adapter a) { s with adapter := r }
  | clients {a : Action} (b : Connections.Action) (c : Connections.State)
      (moved : Connections.step port s.connections b = some c) :
      Steps A port s a { s with connections := c }
  | route (i : ℕ) (data : Bytes) (c : Connections.State) (r : Route.State)
      (moved : Connections.step port s.connections (.resume i .lookup) = some c)
      (routed : Route.step A s.adapter (.route data) = some r) :
      Steps A port s (.getConnection i data)
        { s with
          adapter := r
          connections := c
          routing := Function.update s.routing i (some s.adapter.calls.length)
          packets := Function.update s.packets i (some data) }
  | connect (i : ℕ) (outcome : Connections.Connect) (call : ℕ) (x : Route.Call)
      (route : Except ResolverError ConnectionResult) (c : Connections.State)
      (waits : s.routing i = some call) (found : s.adapter.calls[call]? = some x)
      (moved : Connections.step port s.connections (.resume i (.connect route outcome)) = some c) :
      Steps A port s (.connect i outcome)
        { s with
          connections := c
          dials := s.dials ++ ((Served.dialOf port x).map (i, ·)).toList }

theorem steps_of_move {a : Action} {m : Connections.Move} (h : s.move port i m = some s') :
    Steps A port s a s' := by
  obtain ⟨c, hc, rfl⟩ := move_eq_some h
  exact .clients _ c hc

theorem steps_of_step {a : Action} (h : step A port s a = some s') : Steps A port s a s' := by
  cases a with
  | adapter a =>
    cases a with
    | route data => cases h
    | tick | setCacheTtl | setSkipValidation | setOnResolve | evict | resume =>
      simp only [step] at h
      obtain ⟨r, hr, rfl⟩ := Option.map_eq_some_iff.1 h
      exact .adapter _ r hr
  | accept fd =>
    obtain ⟨c, hc, rfl⟩ := Option.map_eq_some_iff.1 h
    exact .clients _ c hc
  | getConnection i data =>
    obtain ⟨t, ht, h⟩ := Option.bind_eq_some_iff.1 h
    obtain ⟨c, hc, rfl⟩ := move_eq_some ht
    split_ifs at h
    · obtain ⟨r, hr, rfl⟩ := route_eq_some h
      exact .route i data c r hc hr
    · cases h
      exact .clients _ c hc
  | connect i outcome =>
    obtain ⟨call, hcall, h⟩ := Option.bind_eq_some_iff.1 h
    obtain ⟨x, hx, h⟩ := Option.bind_eq_some_iff.1 h
    split at h
    next route hr =>
      obtain ⟨t, ht, rfl⟩ := Option.map_eq_some_iff.1 h
      obtain ⟨c, hc, rfl⟩ := move_eq_some ht
      exact .connect i outcome call x route c hcall hx hc
    next => cases h
  | insert i | close i | closeConnection i => exact steps_of_move h

/-- The adapter and what was dialed from it. -/
def stands (s : State) : Served.State := ⟨s.adapter, s.dials.map Prod.snd⟩

/-- The actions that leave `skip_validation` off. -/
def Validates : Action → Prop
  | .adapter a => a ≠ .setSkipValidation true
  | _ => True

/-- What is recorded of a handler belongs to its own call. -/
structure Inv (s : State) : Prop where
  routing : ∀ i call, s.routing i = some call →
    ∃ c, s.adapter.calls[call]? = some c ∧ s.packets i = some c.data
  dials : ∀ i d, (i, d) ∈ s.dials → s.packets i = some d.data
    ∧ ∃ h, s.connections.handlers[i]? = some h ∧ h.stage ≠ .accepted

theorem inv_new : Inv new where
  routing := by simp [new]
  dials := by simp [new]

theorem Steps.inv {a : Action} (hs : Inv s) (h : Steps A port s a s') : Inv s' := by
  cases h with
  | adapter a r moved =>
    refine ⟨fun i call hcall => ?_, hs.dials⟩
    obtain ⟨c, hc, hdata⟩ := hs.routing i call hcall
    obtain ⟨c', hc', hdata', -⟩ := Route.call_of_step moved hc
    exact ⟨c', hc', hdata'.symm ▸ hdata⟩
  | clients b c moved =>
    refine ⟨hs.routing, fun i d hd => ?_⟩
    obtain ⟨hdata, h, hi, hst⟩ := hs.dials i d hd
    exact ⟨hdata, Connections.left_accepted moved hi hst⟩
  | route i data c r moved routed =>
    -- the handler was accepted until now, so nothing was dialed for it
    obtain ⟨x, hx, hr⟩ := Connections.step_resume moved
    have hacc : x.stage = .accepted := by
      cases hr with
      | hit c at_ found => exact at_
      | miss at_ found => exact at_
    refine ⟨fun j call hcall => ?_, fun j d hd => ?_⟩
    · by_cases hij : j = i
      · subst hij
        simp only [Function.update_self, Option.some.injEq] at hcall ⊢
        subst hcall
        exact ⟨_, Route.calls_of_route routed, rfl⟩
      · simp only [Function.update_of_ne hij] at hcall ⊢
        obtain ⟨y, hy, hdata⟩ := hs.routing j call hcall
        obtain ⟨y', hy', hdata', -⟩ := Route.call_of_step routed hy
        exact ⟨y', hy', hdata'.symm ▸ hdata⟩
    · obtain ⟨hdata, h, hj, hst⟩ := hs.dials j d hd
      have hij : j ≠ i := by
        rintro rfl
        rw [hx, Option.some.injEq] at hj
        exact hst (hj ▸ hacc)
      simp only [Function.update_of_ne hij]
      exact ⟨hdata, Connections.left_accepted moved hj hst⟩
  | connect i outcome call x route c waits found moved =>
    refine ⟨hs.routing, fun j d hd => ?_⟩
    rcases List.mem_append.1 hd with hd | hd
    · obtain ⟨hdata, h, hj, hst⟩ := hs.dials j d hd
      exact ⟨hdata, Connections.left_accepted moved hj hst⟩
    · rw [Option.mem_toList, Option.map_eq_some_iff] at hd
      obtain ⟨d', hd', heq⟩ := hd
      cases heq
      obtain ⟨-, -, hdata, -⟩ := Served.dialOf_eq_some hd'
      obtain ⟨y, hy, hpacket⟩ := hs.routing i call waits
      rw [found, Option.some.injEq] at hy
      subst hy
      obtain ⟨h, hi, hr⟩ := Connections.step_resume moved
      have hst : h.stage ≠ .accepted := by
        cases hr with
        | refused e at_ => simp [at_]
        | connected fd at_ => simp [at_]
      exact ⟨hdata ▸ hpacket, Connections.left_accepted moved hi hst⟩

/-- A server is an adapter with connections made from it. -/
theorem refines : Refines (step A port) (Served.step A port) stands Inv Validates
    Served.Validates where
  keeps s a s' hs _ h := (steps_of_step h).inv hs
  matched s a s' _ ha h := by
    cases steps_of_step h with
    | adapter a r moved => exact Served.run_adapter moved ha
    | clients b c moved => exact ⟨[], by simp, rfl⟩
    | route i data c r moved routed => exact Served.run_adapter routed (by simp)
    | connect i outcome call x route c waits found moved =>
      obtain ⟨bs, hbs, hrun⟩ : ∃ bs, _ ∧ run (Served.step A port) (stands s) bs = _ :=
        Served.run_dials found
      refine ⟨bs, hbs, ?_⟩
      rw [hrun]
      simp only [stands, List.map_append]
      rcases Served.dialOf port x with _ | d <;> rfl

/-- While validation is on, whatever the clients, the cache and the DNS do, a client's backend is
dialed for the text of an address that is not blocked and that `validate` gave for the client's own
first packet.  An IPv4 address is dialed as it is; the text of another one is cut at its first
colon. -/
theorem dials_checked (A : Route.Adapter) (port : UInt16) {as : List Action} {s : State}
    (hrun : run (step A port) new as = some s) (has : ∀ a ∈ as, Validates a) :
    ∀ i d, (i, d) ∈ s.dials → s.packets i = some d.data
      ∧ Served.Checked s.adapter.log port d := by
  intro i d hd
  have hinv : Inv s := (refines.run inv_new has hrun).1
  have hserved : Served.Inv port (stands s) :=
    refines.inv (fun _ _ _ hs hb h => Served.step_inv hs hb h) inv_new Served.inv_new has hrun
  exact ⟨(hinv.dials i d hd).1, hserved.checked d (List.mem_map_of_mem hd)⟩

/-- Two clients at one time: the second one's backend is dialed first. -/
def twoClients : List Action :=
  [.accept 7, .accept 8, .getConnection 0 [1], .getConnection 1 [2], .adapter (.resume 1 .go),
    .adapter (.resume 1 .go),
    .adapter (.resume 1 (.resolver (.ok ⟨"8.8.8.8".toList, []⟩))), .adapter (.resume 1 .go),
    .adapter (.resume 1 (.dns ⟨fun _ => none, .answer []⟩)), .connect 1 (.connected 9),
    .adapter (.resume 0 .go), .insert 1]

theorem dials_checked_twoClients :
    ∃ s, run (step ⟨.tcp, true⟩ 5432) new twoClients = some s
      ∧ s.dials = [(1, ⟨[2], "8.8.8.8".toList, 5432⟩)] ∧ s.packets 1 = some [2]
      ∧ Served.Checked s.adapter.log 5432 ⟨[2], "8.8.8.8".toList, 5432⟩ := by
  have hrun : ∃ s, run (step ⟨.tcp, true⟩ 5432) new twoClients = some s
      ∧ s.dials = [(1, ⟨[2], "8.8.8.8".toList, 5432⟩)] := ⟨_, rfl, rfl⟩
  obtain ⟨s, hs, hdials⟩ := hrun
  have hchecked := dials_checked ⟨.tcp, true⟩ 5432 hs (by simp [twoClients, Validates]) 1
    ⟨[2], "8.8.8.8".toList, 5432⟩ (by simp [hdials])
  exact ⟨s, hs, hdials, hchecked⟩

end TcpServer

end ProtocolProxy
