import ProtocolProxy.PhpEndpoint

/-!
# How long an address is answered from the cache

Every entry of the cache was stored by a lookup since the cache was last cleared (`Backed`), so an
answer from it is as old as its entry.  It is answered as long as the cache was made to keep it,
which is too long if a shorter time was configured before it was stored.

`Dns.php` keeps what was configured with the entry, so it needs no condition.
-/

namespace ProtocolProxy

open Net Machine

namespace Dns

section Log

variable {α β : Type} {pick : β → Option α} {log : List (Event α β)} {host : Text} {ip : α}
  {time : ℕ} {ttl : ℤ} {e : Event α β}

theorem Inserted.append (h : Inserted pick log host ip time ttl) (he : e ≠ .cleared) :
    Inserted pick (log ++ [e]) host ip time ttl := by
  obtain ⟨answer, pre, post, rfl, hpick, hpost⟩ := h
  refine ⟨answer, pre, post ++ [e], by simp, hpick, ?_⟩
  simp only [List.mem_append, List.mem_singleton, not_or]
  exact ⟨hpost, he.symm⟩

theorem inserted_append {answer : β} (hpick : pick answer = some ip) :
    Inserted pick (log ++ [.inserted host answer ip time ttl]) host ip time ttl :=
  ⟨answer, log, [], rfl, hpick, List.not_mem_nil⟩

theorem honours_nil : Honours pick [] := justified_nil

theorem Honours.append (h : Honours pick log) (he : ∀ host ip time, e ≠ .hit host ip time) :
    Honours pick (log ++ [e]) :=
  Justified.append h fun host ip time hhit => absurd hhit (he host ip time)

theorem Honours.hit {time' : ℕ} (h : Honours pick log)
    (hinserted : Inserted pick log host ip time' ttl) (hle : time' ≤ time)
    (hage : (time : ℤ) - time' < ttl) : Honours pick (log ++ [.hit host ip time]) := by
  refine Justified.append h fun host' ip' time'' hhit => ?_
  cases hhit
  exact ⟨time', ttl, hinserted, hle, hage⟩

end Log

/-! ## `dns.rs` -/

variable {s s' : State} {c : Cache} {log : List (Event IpAddr (List IpAddr))} {now : ℕ}
  {host : Text} {e : Event IpAddr (List IpAddr)}

/-- Every entry was stored since the cache was last cleared, with a time to live configured that
covers the cache's own. -/
def Backed (log : List (Event IpAddr (List IpAddr))) (now : ℕ) (c : Cache) : Prop :=
  ∀ host entry, c.entries host = some entry → ∃ ttl,
    Inserted pickAddress log host entry.ip entry.insertedAt ttl
      ∧ (c.timeToLive : ℤ) ≤ ttl ∧ entry.insertedAt ≤ now

theorem backed_empty (ttl : ℕ) : Backed log now ⟨ttl, fun _ => none⟩ := by
  intro host entry h
  simp at h

theorem Backed.append (h : Backed log now c) (he : e ≠ .cleared) : Backed (log ++ [e]) now c := by
  intro host entry hentry
  obtain ⟨ttl, hinserted, hrest⟩ := h host entry hentry
  exact ⟨ttl, hinserted.append he, hrest⟩

theorem Backed.tick (h : Backed log now c) (ns : ℕ) : Backed log (now + ns) c := by
  intro host entry hentry
  obtain ⟨ttl, hinserted, httl, hle⟩ := h host entry hentry
  exact ⟨ttl, hinserted, httl, by omega⟩

theorem Backed.remove (h : Backed log now c) (host : Text) : Backed log now (c.remove host) := by
  intro host' entry hentry
  by_cases hhost : host' = host
  · subst hhost
    simp [Cache.remove] at hentry
  · simp only [Cache.remove, Function.update_of_ne hhost] at hentry
    exact h host' entry hentry

theorem Backed.insert {ips : List IpAddr} {ip : IpAddr} {ttl : ℕ} (h : Backed log now c)
    (hpick : pickAddress ips = some ip) (httl : c.timeToLive ≤ ttl) :
    Backed (log ++ [.inserted host ips ip now ttl]) now (c.insert now host ip) := by
  intro host' entry hentry
  by_cases hhost : host' = host
  · subst hhost
    simp only [Cache.insert, Function.update_self, Option.some.injEq] at hentry
    subst hentry
    exact ⟨ttl, inserted_append hpick, by exact_mod_cast httl, le_rfl⟩
  · simp only [Cache.insert, Function.update_of_ne hhost] at hentry
    exact h.append (by simp) host' entry hentry

/-- What the cache answers was stored less than its time to live ago. -/
theorem Backed.get {ip : IpAddr} (h : Backed log now c) (hget : c.get now host = some ip) :
    ∃ time ttl, Inserted pickAddress log host ip time ttl ∧ time ≤ now
      ∧ (now : ℤ) - time < ttl := by
  obtain ⟨entry, hentry, hip⟩ := Option.bind_eq_some_iff.1 hget
  split_ifs at hip with hage
  cases hip
  obtain ⟨ttl, hinserted, httl, hle⟩ := h host entry hentry
  exact ⟨entry.insertedAt, ttl, hinserted, hle, by omega⟩

structure Inv (s : State) : Prop where
  honours : Honours pickAddress s.log
  backed : Backed s.log s.now s.built

theorem inv_new : Inv new := ⟨honours_nil, backed_empty _⟩

theorem inv_setTtl (h : Inv s) (seconds : ℕ) : Inv { s with ttlSeconds := seconds } := by
  refine ⟨h.honours, ?_⟩
  rcases hc : s.cache with _ | c
  · simp only [State.built, Option.getD_none]
    exact backed_empty _
  · have hbacked := h.backed
    simp only [State.built, hc, Option.getD_some] at hbacked ⊢
    exact hbacked

theorem inv_clear (h : Inv s) :
    Inv { s with cache := some { s.built with entries := fun _ => none }
                 log := s.log ++ [.cleared] } :=
  ⟨h.honours.append (by simp), backed_empty _⟩

theorem inv_evict (h : Inv s) (host : Text) :
    Inv { s with cache := s.cache.map fun c => c.remove host } := by
  refine ⟨h.honours, ?_⟩
  have hbacked := h.backed
  rcases hc : s.cache with _ | c
  · simp only [State.built, Option.map_none, Option.getD_none]
    exact backed_empty _
  · simp only [State.built, hc, Option.map_some, Option.getD_some] at hbacked ⊢
    exact hbacked.remove host

theorem inv_resolve (h : Inv s) (host : Text) : Inv (s.resolve host) := by
  unfold State.resolve
  split_ifs
  · exact ⟨h.honours, h.backed⟩
  · exact ⟨h.honours, h.backed⟩
  · split
    · rename_i ip hget
      obtain ⟨time, ttl, hinserted, hle, hage⟩ := h.backed.get hget
      exact ⟨h.honours.hit hinserted hle hage, h.backed.append (by simp)⟩
    · exact ⟨h.honours, h.backed⟩

theorem lookedUp_of_none {outcome : Lookup} {i : ℕ} (h : address outcome = none) :
    s.lookedUp i host outcome = { s with calls := s.calls.set i ⟨host, .returned host⟩ } := by
  cases outcome with
  | noResolver => rfl
  | failed => rfl
  | answer ips =>
    have hpick : pickAddress ips = none := h
    simp only [State.lookedUp, hpick]

theorem lookedUp_of_some {outcome : Lookup} {i : ℕ} {ip : IpAddr} (h : address outcome = some ip) :
    ∃ ips, pickAddress ips = some ip ∧ s.lookedUp i host outcome = { s with
      cache := some (s.built.insert s.now host ip)
      calls := s.calls.set i ⟨host, .returned ip.text⟩
      log := s.log ++ [.inserted host ips ip s.now s.ttl] } := by
  cases outcome with
  | noResolver => cases h
  | failed => cases h
  | answer ips =>
    have hpick : pickAddress ips = some ip := h
    refine ⟨ips, hpick, ?_⟩
    simp only [State.lookedUp, hpick]

theorem inv_lookedUp {outcome : Lookup} {i : ℕ} (h : Inv s)
    (hcovers : TtlCovers s (.lookedUp i outcome)) : Inv (s.lookedUp i host outcome) := by
  rcases haddress : address outcome with _ | ip
  · rw [lookedUp_of_none haddress]
    exact ⟨h.honours, h.backed⟩
  · have httl : s.built.timeToLive ≤ s.ttl := hcovers (by simp [haddress])
    obtain ⟨ips, hpick, heq⟩ := lookedUp_of_some haddress
    rw [heq]
    exact ⟨h.honours.append (by simp), h.backed.insert hpick httl⟩

theorem step_inv (a : Action) (h : Inv s) (hcovers : TtlCovers s a) (hs' : step s a = some s') :
    Inv s' := by
  cases a with
  | tick ns =>
    cases hs'
    exact ⟨h.honours, h.backed.tick ns⟩
  | setTtl seconds =>
    cases hs'
    exact inv_setTtl h seconds
  | clear =>
    cases hs'
    exact inv_clear h
  | evict host =>
    cases hs'
    exact inv_evict h host
  | resolve host =>
    cases hs'
    exact inv_resolve h host
  | lookedUp i outcome =>
    obtain ⟨c, -, hc⟩ := Option.bind_eq_some_iff.1 hs'
    split_ifs at hc
    cases hc
    exact inv_lookedUp h hcovers

theorem failuresKeep (s : State) : FailuresKeep s := by
  intro i outcome s' hs' hnone
  obtain ⟨c, -, hc⟩ := Option.bind_eq_some_iff.1 hs'
  split_ifs at hc
  cases hc
  rw [lookedUp_of_none hnone]

/-- If an address is only ever stored with a time to live configured that covers the one the cache
was made with, every answer from the cache is younger than what was configured when it was stored.
Lookups that fail leave the cache alone. -/
theorem honours_of_ttlCovers {as : List Action} {s : State} (hrun : run step new as = some s)
    (hcovers : EachStep step TtlCovers new as) :
    Honours pickAddress s.log ∧ FailuresKeep s := by
  have hinv : Inv s :=
    run_inv_of_each (fun _ a _ h hc hs' => step_inv a h hc hs') inv_new hcovers hrun
  exact ⟨hinv.honours, failuresKeep s⟩

/-- A lookup that returns at once, and one answer from the cache within the minute. -/
theorem honours_of_ttlCovers_one_hit : ∃ s : State,
    run step new [.resolve ['a'], .lookedUp 0 (.answer [.v4 ⟨8, 8, 8, 8⟩]), .tick 1000000000,
        .setTtl 1, .resolve ['a']] = some s
      ∧ .hit ['a'] (.v4 ⟨8, 8, 8, 8⟩) 1000000000 ∈ s.log
      ∧ Honours pickAddress s.log ∧ FailuresKeep s := by
  have hrun : ∃ s : State,
      run step new [.resolve ['a'], .lookedUp 0 (.answer [.v4 ⟨8, 8, 8, 8⟩]), .tick 1000000000,
        .setTtl 1, .resolve ['a']] = some s
        ∧ .hit ['a'] (.v4 ⟨8, 8, 8, 8⟩) 1000000000 ∈ s.log :=
    ⟨_, rfl, .tail _ (.head _)⟩
  obtain ⟨s, hrun, hhit⟩ := hrun
  refine ⟨s, hrun, hhit, honours_of_ttlCovers hrun ?_⟩
  exact .cons trivial rfl <| .cons (fun _ => by decide) rfl <| .cons trivial rfl <|
    .cons trivial rfl <| .cons trivial rfl trivial

/-- The time to live is set to a second after the cache was made with a minute.  The address that is
stored then is still answered two seconds later. -/
theorem short_ttl_ignored : ∃ s : State,
    run step new [.resolve ['a'], .setTtl 1, .lookedUp 0 (.answer [.v4 ⟨8, 8, 8, 8⟩]),
        .tick 2000000000, .resolve ['a']] = some s
      ∧ ¬ Honours pickAddress s.log := by
  refine ⟨_, rfl, fun h => ?_⟩
  have hlog := h [.inserted ['a'] [.v4 ⟨8, 8, 8, 8⟩] (.v4 ⟨8, 8, 8, 8⟩) 0 1000000000]
    (.hit ['a'] (.v4 ⟨8, 8, 8, 8⟩) 2000000000) [] rfl
  obtain ⟨time, ttl, ⟨answer, pre, post, hsplit, -⟩, -, hage⟩ := hlog _ _ _ rfl
  rcases pre with _ | ⟨e, pre⟩
  · simp only [List.nil_append, List.cons.injEq, Event.inserted.injEq] at hsplit
    omega
  · simp at hsplit

/-! ### One call on its own -/

theorem get_insert {ip : IpAddr} (hpos : 0 < c.timeToLive) :
    (c.insert now host ip).get now = Function.update (c.get now) host (some ip) := by
  funext host'
  by_cases hhost : host' = host
  · subst hhost
    simp [Cache.get, Cache.insert, hpos]
  · simp only [Cache.get, Cache.insert, Function.update_of_ne hhost]
    rfl

theorem resolve_of_literal (outcome : Lookup)
    (h : host.isEmpty = true ∨ (IpAddr.parse host).isSome = true) :
    ProtocolProxy.resolve ⟨c.get now, outcome⟩ host = (host, c.get now) := by
  unfold ProtocolProxy.resolve
  split_ifs <;> simp_all

theorem resolve_of_hit {ip : IpAddr} (outcome : Lookup) (hempty : ¬ host.isEmpty = true)
    (hparse : ¬ (IpAddr.parse host).isSome = true) (hget : c.get now host = some ip) :
    ProtocolProxy.resolve ⟨c.get now, outcome⟩ host = (ip.text, c.get now) := by
  simp only [ProtocolProxy.resolve, hempty, hparse, hget]
  rfl

theorem resolve_of_miss (outcome : Lookup) (hempty : ¬ host.isEmpty = true)
    (hparse : ¬ (IpAddr.parse host).isSome = true) (hget : c.get now host = none) :
    ProtocolProxy.resolve ⟨c.get now, outcome⟩ host
      = (address outcome).elim (host, c.get now)
        fun ip => (ip.text, Function.update (c.get now) host (some ip)) := by
  simp only [ProtocolProxy.resolve, hempty, hparse, hget]
  cases outcome with
  | noResolver => rfl
  | failed => rfl
  | answer ips =>
    simp only [address]
    rcases pickAddress ips with _ | ip <;> rfl

/-- A call during which nothing else happens returns what `resolve` makes of what the cache shows,
and the cache shows afterwards what `resolve` leaves. -/
theorem run_resolve (s : State) (host : Text) (outcome : Lookup) : ∃ as s',
    (as = [.resolve host] ∨ as = [.resolve host, .lookedUp s.calls.length outcome])
      ∧ run step s as = some s'
      ∧ s'.calls = s.calls
        ++ [⟨host, .returned (ProtocolProxy.resolve ⟨s.built.get s.now, outcome⟩ host).1⟩]
      ∧ (0 < s.built.timeToLive → s'.built.get s'.now
        = (ProtocolProxy.resolve ⟨s.built.get s.now, outcome⟩ host).2) := by
  by_cases hliteral : host.isEmpty = true ∨ (IpAddr.parse host).isSome = true
  · refine ⟨[.resolve host], s.start host (.returned host), .inl rfl, ?_, ?_, ?_⟩
    · simp only [run, step, State.resolve, Option.bind_some, Option.some.injEq]
      split_ifs <;> simp_all
    · rw [resolve_of_literal outcome hliteral]
      rfl
    · rw [resolve_of_literal outcome hliteral]
      intro _
      rfl
  obtain ⟨hempty, hparse⟩ := not_or.1 hliteral
  rcases hget : s.built.get s.now host with _ | ip
  · -- the call waits for the lookup, and is the last one of the list
    have hresolve : s.resolve host = State.start { s with cache := some s.built } host .lookup := by
      simp only [State.resolve, hempty, hparse, hget]
      rfl
    rw [resolve_of_miss outcome hempty hparse hget]
    refine ⟨[.resolve host, .lookedUp s.calls.length outcome],
      (s.resolve host).lookedUp s.calls.length host outcome, .inr rfl, ?_, ?_⟩
    · have hcall : (s.resolve host).calls[s.calls.length]? = some ⟨host, .lookup⟩ := by
        rw [hresolve]
        exact List.getElem?_concat_length
      simp only [run, step, Option.bind_some, hcall]
      rfl
    · rw [hresolve]
      rcases haddress : address outcome with _ | ip
      · rw [lookedUp_of_none haddress]
        exact ⟨by simp [State.start], fun _ => rfl⟩
      · obtain ⟨ips, -, heq⟩ := lookedUp_of_some haddress
        rw [heq]
        exact ⟨by simp [State.start], fun hpos => get_insert hpos⟩
  · rw [resolve_of_hit outcome hempty hparse hget]
    have hresolve : s.resolve host = State.start
        { s with cache := some s.built, log := s.log ++ [.hit host ip s.now] } host
        (.returned ip.text) := by
      simp only [State.resolve, hempty, hparse, hget]
      rfl
    refine ⟨[.resolve host], _, .inl rfl, congrArg some hresolve, rfl, fun _ => rfl⟩

end Dns

/-! ## `Dns.php` -/

namespace PhpDns

open Dns

variable {isIp : Text → Bool} {s s' : State}

/-- Every entry was stored since the cache was last cleared, and expires no later than the time to
live configured then allows. -/
def Backed (s : State) : Prop :=
  ∀ host entry, s.cache host = some entry → ∃ time ttl,
    Inserted some s.log host entry.ip time ttl ∧ entry.expires ≤ time + ttl ∧ time ≤ s.now

structure Inv (s : State) : Prop where
  honours : Honours some s.log
  backed : Backed s
  /-- a call has read the clock before its lookup -/
  begun : ∀ c, some c ∈ s.calls → c.now ≤ s.now

theorem inv_new : Inv new := by
  refine ⟨honours_nil, fun host entry h => ?_, fun c h => ?_⟩
  · simp [new] at h
  · simp [new] at h

theorem Inv.wait (h : Inv s) (host : Text) :
    Inv { s with calls := s.calls ++ [some ⟨host, s.now⟩] } := by
  refine ⟨h.honours, h.backed, fun c hc => ?_⟩
  simp only [List.mem_append, List.mem_singleton, Option.some.injEq] at hc
  rcases hc with hc | rfl
  · exact h.begun c hc
  · exact le_rfl

theorem Inv.hit {host : Text} {entry : Entry} (h : Inv s) (hentry : s.cache host = some entry)
    (hfresh : (s.now : ℤ) < entry.expires) :
    Inv { s with log := s.log ++ [.hit host entry.ip s.now] } := by
  obtain ⟨time, ttl, hinserted, hexpires, hle⟩ := h.backed host entry hentry
  refine ⟨h.honours.hit hinserted hle (by omega), fun host' entry' hentry' => ?_, h.begun⟩
  obtain ⟨time', ttl', hinserted', hrest⟩ := h.backed host' entry' hentry'
  exact ⟨time', ttl', hinserted'.append (by simp), hrest⟩

theorem inv_resolve (h : Inv s) (host : Text) : Inv (s.resolve isIp host) := by
  unfold State.resolve
  split_ifs with hliteral
  · exact h
  · split
    · rename_i entry hentry
      split_ifs with hfresh
      · exact h.hit hentry hfresh
      · exact h.wait host
    · exact h.wait host

theorem Inv.done (h : Inv s) (i : ℕ) : Inv { s with calls := s.calls.set i none } := by
  refine ⟨h.honours, h.backed, fun c hc => ?_⟩
  rcases List.mem_or_eq_of_mem_set hc with hc | hc
  · exact h.begun c hc
  · cases hc

theorem Inv.insert {c : Call} (h : Inv s) (hbegun : c.now ≤ s.now) (ip : Text) :
    Inv { s with cache := Function.update s.cache c.host (some ⟨ip, c.now + s.ttl⟩)
                 log := s.log ++ [.inserted c.host ip ip s.now s.ttl] } := by
  refine ⟨h.honours.append (by simp), fun host entry hentry => ?_, h.begun⟩
  by_cases hhost : host = c.host
  · subst hhost
    simp only [Function.update_self, Option.some.injEq] at hentry
    subst hentry
    exact ⟨s.now, s.ttl, inserted_append rfl, by simp only []; omega, le_rfl⟩
  · simp only [Function.update_of_ne hhost] at hentry
    obtain ⟨time, ttl, hinserted, hrest⟩ := h.backed host entry hentry
    exact ⟨time, ttl, hinserted.append (by simp), hrest⟩

theorem inv_lookedUp {c : Call} {i : ℕ} (h : Inv s) (hc : some c ∈ s.calls)
    (answer : Option Text) : Inv (s.lookedUp isIp i c answer) := by
  have hbegun := h.begun c hc
  unfold State.lookedUp
  simp only []
  split
  · exact h.done i
  · rename_i ip _
    exact (h.done i).insert hbegun ip

theorem step_inv (a : Action) (h : Inv s) (hs' : step isIp s a = some s') : Inv s' := by
  cases a with
  | tick seconds =>
    cases hs'
    refine ⟨h.honours, fun host entry hentry => ?_, fun c hc => ?_⟩
    · obtain ⟨time, ttl, hinserted, hexpires, hle⟩ := h.backed host entry hentry
      exact ⟨time, ttl, hinserted, hexpires, by simp only []; omega⟩
    · exact (h.begun c hc).trans (Nat.le_add_right _ _)
  | setTtl seconds =>
    cases hs'
    exact ⟨h.honours, h.backed, h.begun⟩
  | clear =>
    cases hs'
    refine ⟨h.honours.append (by simp), fun host entry hentry => ?_, h.begun⟩
    simp at hentry
  | resolve host =>
    cases hs'
    exact inv_resolve h host
  | lookedUp i answer =>
    obtain ⟨c, hc, rfl⟩ := Option.map_eq_some_iff.1 hs'
    have hmem : some c ∈ s.calls := List.mem_of_getElem? (Option.join_eq_some_iff.1 hc)
    exact inv_lookedUp h hmem answer

/-- The PHP cache keeps to the time to live in every run. -/
theorem honours_of_run {as : List Action} {s : State} (hrun : run (step isIp) new as = some s) :
    Honours some s.log :=
  (run_inv (fun _ a _ h hs' => step_inv a h hs') inv_new hrun).honours

/-- The time to live is lowered after the lookup: the entry keeps the one it was stored with. -/
theorem honours_of_run_loweredTtl : ∃ s : State,
    run (step PhpEndpoint.isIp) new [.resolve ['a'], .lookedUp 0 (some "8.8.8.8".toList), .setTtl 1,
        .tick 30, .resolve ['a']] = some s
      ∧ .hit ['a'] "8.8.8.8".toList 30 ∈ s.log ∧ Honours some s.log := by
  have hrun : ∃ s : State,
      run (step PhpEndpoint.isIp) new [.resolve ['a'], .lookedUp 0 (some "8.8.8.8".toList),
        .setTtl 1, .tick 30, .resolve ['a']] = some s
        ∧ .hit ['a'] "8.8.8.8".toList 30 ∈ s.log :=
    ⟨_, rfl, .tail _ (.head _)⟩
  obtain ⟨s, hrun, hhit⟩ := hrun
  exact ⟨s, hrun, hhit, honours_of_run hrun⟩

end PhpDns

end ProtocolProxy
