import ProtocolProxy.Proofs.Server
import ProtocolProxy.Proofs.Smtp
import ProtocolProxy.Slots

/-!
# What the SMTP server connects to

A session asks for a route with the domain it has just read in a line, and connects with what the
route returned (`routing_of_step`, `connecting_of_step`).  So in the server each session that waits
for a route has its own call for it, and one that connects has a connection among the ones that were
made, for the domain of its line (`SmtpServer.Backed`).
-/

namespace ProtocolProxy

open Machine Slots

/-! ## Sessions that route and connect -/

namespace Smtp

variable {s s' : State} {a : Action} {line : Bytes} {domain host : Text} {port : UInt16}

/-- A session that routes a domain has just read it in a line, or routed it before. -/
theorem routing_of_step (h : step s a = some s') (hpc : s'.pc = .routing line domain) :
    s.pc = .routing line domain ∨ s.pc = .readLine ∧ parseHeloDomain line = some domain := by
  cases a with
  | arrive k data =>
    obtain ⟨b, -, rfl⟩ := Option.map_eq_some_iff.1 h
    exact .inl hpc
  | input i =>
    cases moves_of_next h with
    | serve line' at_ isLine =>
      refine .inr ⟨at_, ?_⟩
      have hserves := serves_serve s line'
      generalize s.serve line' = t at hserves hpc
      cases hserves with
      | routing short command helo domain' found =>
        cases hpc
        exact found
      | tooLong | noDomain | noBackend | forward | unknown => cases hpc
    | talk client pc talks told =>
      simp only at hpc
      subst hpc
      generalize s.pc = p at talks
      cases talks
    | welcome line' k n data t at_ read =>
      simp only [State.welcome] at hpc
      split_ifs at hpc
      cases hpc
    | replied state line' response at_ =>
      cases state <;> simp only [State.replied, State.goto] at hpc
      · split_ifs at hpc
      · cases hpc
    | routed | connected | unreachable | write | await | passed | fail | reply | finalReply
    | silent => cases hpc

/-- A session that connects has just had its route, or connected before. -/
theorem connecting_of_step (h : step s a = some s') (hpc : s'.pc = .connecting line host port) :
    s.pc = .connecting line host port ∨ ∃ domain result, s.pc = .routing line domain
      ∧ a = .input (.routed (.ok result))
      ∧ parseEndpoint result.endpoint defaultPort = (host, port) := by
  cases a with
  | arrive k data =>
    obtain ⟨b, -, rfl⟩ := Option.map_eq_some_iff.1 h
    exact .inl hpc
  | input i =>
    cases moves_of_next h with
    | routed line' domain' host' port' at_ =>
      refine .inr ?_
      cases hpc
      simp only [step, at_] at h
      cases i with
      | routed result =>
        rcases result with e | result
        · cases h
        · simp only [next, Option.some.injEq, State.goto, State.mk.injEq, Pc.connecting.injEq,
            true_and, and_true] at h
          exact ⟨domain', result, at_, rfl, Prod.ext h.1 h.2⟩
      | wrote | flushed | line | read | eof | connected | failed | timedOut => cases h
    | serve line' at_ isLine =>
      have hserves := serves_serve s line'
      generalize s.serve line' = t at hserves hpc
      cases hserves <;> cases hpc
    | talk client pc talks told =>
      simp only at hpc
      subst hpc
      generalize s.pc = p at talks
      cases talks
    | welcome line' k n data t at_ read =>
      simp only [State.welcome] at hpc
      split_ifs at hpc
      cases hpc
    | replied state line' response at_ =>
      cases state <;> simp only [State.replied, State.goto] at hpc
      · split_ifs at hpc
      · cases hpc
    | connected | unreachable | write | await | passed | fail | reply | finalReply | silent =>
      cases hpc

end Smtp

/-! ## The server -/

namespace SmtpServer

variable {A : Route.Adapter} {s s' : State} {i : ℕ}

theorem routed_eq_some {x : Smtp.State} {domain : Text} (h : routed x = some domain) :
    ∃ line, x.pc = .routing line domain := by
  unfold routed at h
  split at h
  next line domain' hpc =>
    cases h
    exact ⟨line, hpc⟩
  next => cases h

/-- What a step of the server can be. -/
inductive Steps (A : Route.Adapter) (s : State) : Action → State → Prop
  | adapter (a : Route.Action) (r : Route.State) (moved : Route.step A s.adapter a = some r) :
      Steps A s (.adapter a) { s with adapter := r }
  | accept : Steps A s .accept { s with sessions := s.sessions ++ [Smtp.new] }
  | session (i : ℕ) (a : Smtp.Action) (x x' : Smtp.State) (found : s.sessions[i]? = some x)
      (other : ∀ result, a ≠ .input (.routed result)) (moved : Smtp.step x a = some x')
      (waits : routed x' = none ∨ (routed x).isSome = true) :
      Steps A s (.session i a) { s with sessions := s.sessions.set i x' }
  | route (i : ℕ) (a : Smtp.Action) (x x' : Smtp.State) (domain : Text) (r : Route.State)
      (found : s.sessions[i]? = some x) (other : ∀ result, a ≠ .input (.routed result))
      (moved : Smtp.step x a = some x')
      (asks : routed x = none ∧ routed x' = some domain)
      (routed : Route.step A s.adapter (.route (asBytes domain)) = some r) :
      Steps A s (.session i a)
        { s with
          adapter := r
          sessions := s.sessions.set i x'
          routing := Function.update s.routing i (some s.adapter.calls.length) }
  | connect (i call : ℕ) (c : Route.Call) (x x' : Smtp.State)
      (route : Except ResolverError ConnectionResult) (waits : s.routing i = some call)
      (found : s.adapter.calls[call]? = some c) (session : s.sessions[i]? = some x)
      (returned : c.pc = .returned route) (moved : Smtp.step x (.input (.routed route)) = some x') :
      Steps A s (.connect i)
        { s with
          sessions := s.sessions.set i x'
          dials := s.dials ++ (Served.dialOf Smtp.defaultPort c).toList }

theorem steps_of_put {a : Smtp.Action} {x x' : Smtp.State} (hx : s.sessions[i]? = some x)
    (ha : ∀ result, a ≠ .input (.routed result)) (hstep : Smtp.step x a = some x')
    (h : s.put A i x x' = some s') : Steps A s (.session i a) s' := by
  unfold State.put at h
  split at h
  next domain hbefore hafter =>
    obtain ⟨r, hr, rfl⟩ := Option.map_eq_some_iff.1 h
    exact .route i a x x' domain r hx ha hstep ⟨hbefore, hafter⟩ hr
  next hneither =>
    cases h
    refine .session i a x x' hx ha hstep ?_
    rcases hbefore : routed x with _ | domain
    · rcases hafter : routed x' with _ | domain
      · exact .inl rfl
      · exact absurd hafter (hneither domain hbefore)
    · exact .inr rfl

theorem steps_of_step {a : Action} (h : step A s a = some s') : Steps A s a s' := by
  cases a with
  | adapter a =>
    cases a with
    | route data => cases h
    | tick | setCacheTtl | setSkipValidation | setOnResolve | evict | resume =>
      simp only [step] at h
      obtain ⟨r, hr, rfl⟩ := Option.map_eq_some_iff.1 h
      exact .adapter _ r hr
  | accept =>
    cases h
    exact .accept
  | session i a =>
    have hother : ∀ result, a ≠ .input (.routed result) := by
      rintro result rfl
      cases h
    rw [step] at h
    · obtain ⟨x, hx, h⟩ := Option.bind_eq_some_iff.1 h
      obtain ⟨x', hx', h⟩ := Option.bind_eq_some_iff.1 h
      exact steps_of_put hx hother hx' h
    · exact hother
  | connect i =>
    obtain ⟨call, hcall, h⟩ := Option.bind_eq_some_iff.1 h
    obtain ⟨c, hc, h⟩ := Option.bind_eq_some_iff.1 h
    obtain ⟨x, hx, h⟩ := Option.bind_eq_some_iff.1 h
    split at h
    next route hr =>
      obtain ⟨x', hx', rfl⟩ := Option.map_eq_some_iff.1 h
      exact .connect i call c x x' route hcall hc hx hr hx'
    next => cases h

def stands (s : State) : Served.State := ⟨s.adapter, s.dials⟩

/-- The actions that leave `skip_validation` off. -/
def Validates : Action → Prop
  | .adapter a => a ≠ .setSkipValidation true
  | _ => True

/-- Session `i` routes the domain of its own line, and connects with what that route returned. -/
structure Backed (s : State) (i : ℕ) (x : Smtp.State) : Prop where
  routing : ∀ line domain, x.pc = .routing line domain → Smtp.parseHeloDomain line = some domain
    ∧ ∃ call c, s.routing i = some call ∧ s.adapter.calls[call]? = some c
      ∧ c.data = asBytes domain
  connecting : ∀ line host port, x.pc = .connecting line host port →
    ∃ domain, Smtp.parseHeloDomain line = some domain ∧ ⟨asBytes domain, host, port⟩ ∈ s.dials

def Inv (s : State) : Prop :=
  ∀ i x, s.sessions[i]? = some x → Backed s i x

theorem inv_new : Inv new := by
  intro i x hx
  simp [new] at hx

theorem backed_new : Backed s i Smtp.new where
  routing _ _ h := by cases h
  connecting _ _ _ h := by cases h

/-- A step of the adapter does not matter to a session. -/
theorem Backed.adapter {x : Smtp.State} {a : Route.Action} {r : Route.State} (h : Backed s i x)
    (moved : Route.step A s.adapter a = some r) : Backed { s with adapter := r } i x where
  routing line domain hpc := by
    obtain ⟨hparse, call, c, hcall, hc, hdata⟩ := h.routing line domain hpc
    obtain ⟨c', hc', hdata', -⟩ := Route.call_of_step moved hc
    exact ⟨hparse, call, c', hcall, hc', hdata'.trans hdata⟩
  connecting := h.connecting

theorem Steps.inv {a : Action} (hs : Inv s) (h : Steps A s a s') : Inv s' := by
  cases h with
  | adapter a r moved => exact fun i x hx => (hs i x hx).adapter moved
  | accept =>
    exact forall_concat backed_new fun i x hx => ⟨(hs i x hx).routing, (hs i x hx).connecting⟩
  | session i a x x' found other moved waits =>
    refine forall_set ⟨fun line domain hpc => ?_, fun line host port hpc => ?_⟩
      fun j y _ hy => ⟨(hs j y hy).routing, (hs j y hy).connecting⟩
    · rcases Smtp.routing_of_step moved hpc with hold | ⟨hread, -⟩
      · exact (hs i x found).routing line domain hold
      · simp [routed, hpc, hread] at waits
    · rcases Smtp.connecting_of_step moved hpc with hold | ⟨-, result, -, ha, -⟩
      · exact (hs i x found).connecting line host port hold
      · exact absurd ha (other _)
  | route i a x x' domain r found other moved asks routed =>
    obtain ⟨line, hpc⟩ := routed_eq_some asks.2
    refine forall_set ⟨fun line' domain' hpc' => ?_, fun line' host port hpc' => ?_⟩
      fun j y hij hy => ?_
    · rw [hpc, Smtp.Pc.routing.injEq] at hpc'
      obtain ⟨rfl, rfl⟩ := hpc'
      rcases Smtp.routing_of_step moved hpc with hold | ⟨-, hparse⟩
      · simp [SmtpServer.routed, hold] at asks
      · exact ⟨hparse, _, _, Function.update_self _ _ _, Route.calls_of_route routed, rfl⟩
    · rw [hpc] at hpc'
      cases hpc'
    · have hy' := (hs j y hy).adapter routed
      refine ⟨fun line' domain' hpc' => ?_, hy'.connecting⟩
      obtain ⟨hparse, call, c, hcall, hc⟩ := hy'.routing line' domain' hpc'
      exact ⟨hparse, call, c, (Function.update_of_ne hij _ _).trans hcall, hc⟩
  | connect i call c x x' route waits found session returned moved =>
    have hold := hs i x session
    refine forall_set ⟨fun line domain hpc => ?_, fun line host port hpc => ?_⟩
      fun j y _ hy => ⟨(hs j y hy).routing, fun line host port hpc => ?_⟩
    · rcases Smtp.routing_of_step moved hpc with hpc | ⟨hread, -⟩
      · exact hold.routing line domain hpc
      · simp [Smtp.step, hread, Smtp.next] at moved
    · rcases Smtp.connecting_of_step moved hpc with hpc | ⟨domain, result, hpc, hroute, hparse⟩
      · obtain ⟨domain, hdomain, hmem⟩ := hold.connecting line host port hpc
        exact ⟨domain, hdomain, List.mem_append_left _ hmem⟩
      · obtain ⟨hdomain, call', c', hcall', hc', hdata⟩ := hold.routing line domain hpc
        rw [waits, Option.some.injEq] at hcall'
        subst hcall'
        rw [found, Option.some.injEq] at hc'
        subst hc'
        cases hroute
        refine ⟨domain, hdomain, List.mem_append_right _ ?_⟩
        simp [Served.dialOf, returned, hparse, hdata]
    · obtain ⟨domain, hdomain, hmem⟩ := (hs j y hy).connecting line host port hpc
      exact ⟨domain, hdomain, List.mem_append_left _ hmem⟩

theorem refines : Refines (step A) (Served.step A Smtp.defaultPort) stands Inv Validates
    Served.Validates where
  keeps s a s' hs _ h := (steps_of_step h).inv hs
  matched s a s' _ ha h := by
    cases steps_of_step h with
    | adapter a r moved => exact Served.run_adapter moved ha
    | accept | session => exact ⟨[], by simp, rfl⟩
    | route i a x x' domain r found other moved asks routed =>
      exact Served.run_adapter routed (by simp)
    | connect i call c x x' route waits found session returned moved =>
      exact Served.run_dials found

/-- While validation is on, a session that connects does so for the domain of the line it read, with
the text of an address that is not blocked and that `validate` gave for that domain, and at that
address if it is an IPv4 one. -/
theorem connecting_checked (A : Route.Adapter) {as : List Action} {s : State}
    (hrun : run (step A) new as = some s) (has : ∀ a ∈ as, Validates a) :
    ∀ x ∈ s.sessions, ∀ line host port, x.pc = .connecting line host port →
      ∃ domain, Smtp.parseHeloDomain line = some domain
        ∧ Served.Checked s.adapter.log Smtp.defaultPort ⟨asBytes domain, host, port⟩ := by
  intro x hx line host port hpc
  obtain ⟨i, hi⟩ := List.mem_iff_getElem?.1 hx
  have hinv : Inv s := (refines.run inv_new has hrun).1
  have hserved : Served.Inv Smtp.defaultPort (stands s) :=
    refines.inv (fun _ _ _ hs hb h => Served.step_inv hs hb h) inv_new Served.inv_new has hrun
  obtain ⟨domain, hdomain, hmem⟩ := (hinv i x hi).connecting line host port hpc
  exact ⟨domain, hdomain, hserved.checked _ hmem⟩

/-- A session that has read its domain and has its route. -/
def helo : List Action :=
  [.accept, .accept, .session 1 (.input (.wrote 31)), .session 1 (.input .flushed),
    .session 1 (.input (.line (Smtp.ascii "EHLO a\r\n"))), .adapter (.resume 0 .go),
    .adapter (.resume 0 .go),
    .adapter (.resume 0 (.resolver (.ok ⟨"8.8.8.8:2525".toList, []⟩))), .adapter (.resume 0 .go),
    .adapter (.resume 0 (.dns ⟨fun _ => none, .answer []⟩)), .connect 1]

theorem connecting_checked_helo :
    ∃ s x, run (step ⟨.smtp, true⟩) new helo = some s ∧ s.sessions[1]? = some x
      ∧ x.pc = .connecting (Smtp.ascii "EHLO a\r\n") "8.8.8.8".toList 2525
      ∧ ∃ domain, Smtp.parseHeloDomain (Smtp.ascii "EHLO a\r\n") = some domain
        ∧ Served.Checked s.adapter.log Smtp.defaultPort
          ⟨asBytes domain, "8.8.8.8".toList, 2525⟩ := by
  have hrun : ∃ s x, run (step ⟨.smtp, true⟩) new helo = some s ∧ s.sessions[1]? = some x
      ∧ x.pc = .connecting (Smtp.ascii "EHLO a\r\n") "8.8.8.8".toList 2525 := ⟨_, _, rfl, rfl, rfl⟩
  obtain ⟨s, x, hs, hx, hpc⟩ := hrun
  exact ⟨s, x, hs, hx, hpc, connecting_checked ⟨.smtp, true⟩ hs (by simp [helo, Validates]) x
    (List.mem_of_getElem? hx) _ _ _ hpc⟩

end SmtpServer

end ProtocolProxy
