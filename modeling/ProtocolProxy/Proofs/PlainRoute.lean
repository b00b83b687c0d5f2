import ProtocolProxy.PlainRoute
import ProtocolProxy.Proofs.Route

/-!
# The cache does not change where requests go

An entry of the cache has the endpoint that a call without a cache would get for its data
(`Holds`).  A call that stands somewhere in `route` has got as far as `World.route` has for the same
data (`Along`), whatever the other calls do meanwhile.
-/

namespace ProtocolProxy

namespace Route

open Machine

variable {W : World} {s s' : State} {i : ℕ} {data : Bytes}

/-- The entry has the endpoint that is routed to without a cache. -/
def Holds (W : World) (data : Bytes) (entry : CacheEntry) : Prop :=
  ∃ metadata, W.route data = .ok ⟨entry.endpoint, W.protocol, metadata⟩

/-- How far a call that stands at `pc` has come with `World.route`. -/
def Along (W : World) (data : Bytes) : Pc → Prop
  | .readTtl | .cacheGet _ | .readOnResolve _ => True
  | .checkAge _ entry => Holds W data entry
  | .resolveViaResolver _ => W.called data = none
  | .readSkip _ result => W.answer data = .ok result ∧ result.endpoint.isEmpty = false
  | .validating _ result =>
    W.answer data = .ok result ∧ result.endpoint.isEmpty = false ∧ W.skipValidation = false
  | .stamp _ result endpoint | .insert _ result endpoint _ =>
    fresh W.adapter result endpoint = W.route data
  | .returned r => SameRoute r (W.route data)

/-! ## The parts of `World.route` -/

theorem World.route_of_error {e : ResolverError} (h : W.answer data = .error e) :
    W.route data = .error e := by
  rw [World.route, h]
  rfl

theorem World.route_of_empty {result : ResolverResult} (h : W.answer data = .ok result)
    (hempty : result.endpoint.isEmpty = true) :
    W.route data
      = .error (.notFound ("Resolver returned empty endpoint for: " ++ fromUtf8Lossy data)) := by
  rw [World.route, h]
  exact if_pos hempty

/-- With an endpoint, the route is what the check makes of it. -/
theorem World.route_of_endpoint {result : ResolverResult} (h : W.answer data = .ok result)
    (hempty : result.endpoint.isEmpty = false) :
    W.route data = (W.checked result.endpoint).bind fun endpoint =>
      fresh W.adapter result endpoint := by
  rw [World.route, h]
  exact if_neg (by simp [hempty])

theorem World.answer_of_called {answer : Answer} (h : W.called data = some answer) :
    W.answer data = answer := by
  rw [World.answer, h, Option.getD_some]

theorem World.answer_of_not_called (h : W.called data = none) :
    W.answer data = W.resolveViaResolver data := by
  rw [World.answer, h, Option.getD_none]

/-! ## One step of a call -/

/-- What a step of a call on `data` leaves. -/
structure Follows (W : World) (data : Bytes) (eff : Effect) : Prop where
  along : Along W data eff.pc
  write : ∀ entry, eff.write = some entry → Holds W data entry

theorem follows_silent {pc : Pc} {events : List Event} (h : Along W data pc) :
    Follows W data { pc := pc, events := events } := ⟨h, nofun⟩

theorem follows_answered {answer : Answer} (ttl : ℕ) (h : W.answer data = answer) :
    Follows W data (answered i data ttl answer) := by
  rcases answer with e | result
  · exact follows_silent (.inl (World.route_of_error h).symm)
  · refine follows_silent ?_
    split_ifs with hempty
    · exact .inl (World.route_of_empty h hempty).symm
    · exact ⟨h, by simpa using hempty⟩

theorem along_resolved {result : ResolverResult} {endpoint : Text} (ttl : ℕ)
    (h : fresh W.adapter result endpoint = W.route data) :
    Along W data (resolved W.adapter ttl result endpoint) := by
  unfold resolved
  split_ifs
  · exact .inl h
  · exact h

/-- The settings are those of `W`, and the cache and the calls follow it. -/
structure InWorld (W : World) (s : State) : Prop where
  skip : s.skipValidation = W.skipValidation
  callback : s.onResolve = W.onResolve.isSome
  cache : ∀ data entry, s.cache data = some entry → Holds W data entry
  calls : ∀ c ∈ s.calls, Along W c.data c.pc

theorem inWorld_start (W : World) : InWorld W W.start where
  skip := rfl
  callback := rfl
  cache _ _ h := by cases h
  calls := by simp [World.start, new]

theorem InWorld.called_of_off (h : InWorld W s) (hoff : s.onResolve = false) :
    W.called data = none := by
  rw [h.callback] at hoff
  have hnone : W.onResolve = none := by simpa using hoff
  rw [World.called, hnone, Option.bind_none]

theorem next_follows {c : Call} {input : Input} {eff : Effect} (hs : InWorld W s)
    (hc : s.calls[i]? = some c) (ha : W.Answers s (.resume i input))
    (h : next W.adapter s i c.data c.pc input = some eff) : Follows W c.data eff := by
  have hpc := hs.calls c (List.mem_of_getElem? hc)
  rcases c with ⟨data, pc, seen⟩
  simp only at h hpc ⊢
  cases pc with
  | readTtl =>
    cases input <;> simp only [next, reduceCtorEq, Option.some.injEq] at h
    subst h
    refine follows_silent ?_
    split_ifs <;> trivial
  | cacheGet ttl =>
    cases input <;> simp only [next, reduceCtorEq, Option.some.injEq] at h
    subst h
    refine follows_silent ?_
    rcases hentry : s.cache data with _ | entry
    · trivial
    · exact hs.cache data entry hentry
  | checkAge ttl entry =>
    cases input <;> simp only [next, reduceCtorEq] at h
    split_ifs at h <;> cases h
    · obtain ⟨metadata, hroute⟩ := hpc
      exact follows_silent (.inr ⟨_, hroute, rfl⟩)
    · exact follows_silent trivial
  | readOnResolve ttl =>
    cases input <;> simp only [next, reduceCtorEq] at h
    · split_ifs at h with hoff
      cases h
      exact follows_silent (hs.called_of_off (by simpa using hoff))
    · next answer =>
      split_ifs at h
      cases h
      have hanswer : answer = W.called data := ha _ hc
      rcases answer with _ | answer
      · exact follows_silent hanswer.symm
      · exact follows_answered ttl (World.answer_of_called hanswer.symm)
  | resolveViaResolver ttl =>
    have hanswer := World.answer_of_not_called hpc
    cases input <;> simp only [next, reduceCtorEq] at h
    · split_ifs at h with hnone
      cases h
      refine follows_silent (.inl (World.route_of_error ?_).symm)
      have hresolver : W.resolver = none := by simpa [World.adapter] using hnone
      rw [hanswer, World.resolveViaResolver, hresolver, Option.elim_none]
    · next answer =>
      split_ifs at h
      cases h
      exact follows_answered ttl (hanswer.trans (ha _ hc).symm)
  | readSkip ttl result =>
    cases input <;> simp only [next, reduceCtorEq, Option.some.injEq] at h
    subst h
    refine follows_silent ?_
    split_ifs with hskip
    · apply along_resolved
      rw [World.route_of_endpoint hpc.1 hpc.2, World.checked, if_pos (hs.skip ▸ hskip)]
      rfl
    · exact ⟨hpc.1, hpc.2, hs.skip ▸ (by simpa using hskip)⟩
  | validating ttl result =>
    cases input <;> simp only [next, reduceCtorEq] at h
    next env =>
    obtain ⟨hanswer, hempty, hskip⟩ := hpc
    have hroute := World.route_of_endpoint hanswer hempty
    rw [World.checked, if_neg (by simp [hskip]), ← ha _ _ _ hc rfl] at hroute
    rcases hv : validate env result.endpoint with e | endpoint <;> rw [hv] at h hroute <;> cases h
    · exact follows_silent (.inl hroute.symm)
    · exact follows_silent (along_resolved ttl hroute.symm)
  | stamp ttl result endpoint =>
    cases input <;> simp only [next, reduceCtorEq, Option.some.injEq] at h
    subst h
    exact follows_silent hpc
  | insert ttl result endpoint insertedAt =>
    cases input <;> simp only [next, reduceCtorEq, Option.some.injEq] at h
    subst h
    refine ⟨.inl hpc, fun entry h => ?_⟩
    cases h
    exact ⟨_, hpc.symm⟩
  | returned r => cases input <;> simp [next] at h

/-! ## One step of the machine -/

theorem InWorld.apply {c : Call} {eff : Effect} (hs : InWorld W s) (hc : s.calls[i]? = some c)
    (h : Follows W c.data eff) : InWorld W (s.apply i c.data eff) where
  skip := hs.skip
  callback := hs.callback
  cache data entry hentry := by
    simp only [State.apply] at hentry
    rcases hwrite : eff.write with _ | e <;> rw [hwrite] at hentry
    · exact hs.cache data entry hentry
    · by_cases hdata : data = c.data
      · subst hdata
        rw [Option.elim_some, Function.update_self, Option.some.injEq] at hentry
        exact h.write entry (hwrite.trans (congrArg some hentry))
      · rw [Option.elim_some, Function.update_of_ne hdata] at hentry
        exact hs.cache data entry hentry
  calls c' hc' := by
    obtain ⟨j, hj⟩ := List.mem_iff_getElem?.1 hc'
    obtain ⟨c₀, h₀, hdata, -, hpc⟩ := getElem?_apply hj
    rw [hdata, hpc]
    split_ifs with hij
    · subst hij
      cases hc.symm.trans h₀
      exact h.along
    · exact hs.calls c₀ (List.mem_of_getElem? h₀)

theorem step_inWorld {a : Action} (hs : InWorld W s) (ha : W.Answers s a)
    (h : step W.adapter s a = some s') : InWorld W s' := by
  cases a with
  | tick ns | setCacheTtl seconds =>
    cases h
    exact ⟨hs.skip, hs.callback, hs.cache, hs.calls⟩
  | setSkipValidation skip =>
    cases h
    refine ⟨ha, hs.callback, hs.cache, fun c hc => ?_⟩
    cases skip with
    | false => exact hs.calls c hc
    | true =>
      obtain ⟨c₀, hc₀, rfl⟩ := List.mem_map.1 hc
      rw [seeSkip_data, seeSkip_pc]
      exact hs.calls c₀ hc₀
  | setOnResolve =>
    cases h
    exact ⟨hs.skip, ha.symm, hs.cache, hs.calls⟩
  | evict data =>
    cases h
    refine ⟨hs.skip, hs.callback, fun data' entry hentry => ?_, hs.calls⟩
    replace hentry : Function.update s.cache data none data' = some entry := hentry
    by_cases hdata : data' = data
    · subst hdata
      rw [Function.update_self] at hentry
      cases hentry
    · rw [Function.update_of_ne hdata] at hentry
      exact hs.cache data' entry hentry
  | route data =>
    cases h
    refine ⟨hs.skip, hs.callback, hs.cache, fun c hc => ?_⟩
    rcases List.mem_append.1 hc with hc | hc
    · exact hs.calls c hc
    · rw [List.mem_singleton.1 hc]
      trivial
  | resume i input =>
    obtain ⟨c, eff, hc, hnext, rfl⟩ := resume_eq h
    exact hs.apply hc (next_follows hs hc ha hnext)

/-- While the resolver, the callback and the DNS answer the same to the same question, a call gets
the answer it would get without the cache, wherever it waited, whatever was stored, expired and
evicted meanwhile and however the time to live was changed. -/
theorem cached_eq_plain (W : World) {as : List Action} {s : State}
    (hworld : EachStep (step W.adapter) W.Answers W.start as)
    (hrun : run (step W.adapter) W.start as = some s) :
    ∀ c ∈ s.calls, ∀ r, c.pc = .returned r → SameRoute r (W.route c.data) := by
  have hs : InWorld W s :=
    run_inv_of_each (fun _ _ _ hs ha h => step_inWorld hs ha h) (inWorld_start W) hworld hrun
  intro c hc r hr
  have halong := hs.calls c hc
  rwa [hr] at halong

/-- One database, whose name the DNS knows. -/
def oneDatabase : World where
  protocol := .tcp
  resolver := some fun _ => .ok ⟨"db.example:5432".toList, [("region", "eu")]⟩
  onResolve := none
  skipValidation := false
  validate := ProtocolProxy.validate ⟨fun _ => none, .answer [.v4 ⟨8, 8, 8, 8⟩]⟩

/-- A call, and another one that is answered from the cache. -/
def twoRoutes : List Action :=
  [.setCacheTtl 60, .route [1], .resume 0 .go, .resume 0 .go, .resume 0 .go,
    .resume 0 (.resolver (.ok ⟨"db.example:5432".toList, [("region", "eu")]⟩)), .resume 0 .go,
    .resume 0 (.dns ⟨fun _ => none, .answer [.v4 ⟨8, 8, 8, 8⟩]⟩), .resume 0 .go, .resume 0 .go,
    .tick 5, .route [1], .resume 1 .go, .resume 1 .go, .resume 1 .go]

theorem cached_eq_plain_twoRoutes :
    ∃ s r, run (step oneDatabase.adapter) oneDatabase.start twoRoutes = some s
      ∧ s.calls[1]?.map Call.pc = some (.returned (.ok r)) ∧ r.metadata = [("cached", "true")]
      ∧ SameRoute (.ok r) (oneDatabase.route [1]) := by
  have hworld : EachStep (step oneDatabase.adapter) oneDatabase.Answers oneDatabase.start
      twoRoutes := by
    refine eachStep_of_inv (J := fun _ => True) (D := (· ∈ twoRoutes)) (fun _ _ _ _ _ _ => trivial)
      (fun s a _ ha => ?_) trivial (fun _ ha => ha)
    simp only [twoRoutes, List.mem_cons, List.not_mem_nil, or_false] at ha
    rcases ha with rfl | rfl | rfl | rfl | rfl | rfl | rfl | rfl | rfl | rfl | rfl | rfl | rfl | rfl
      | rfl
    all_goals first | trivial | exact fun _ _ => rfl | exact fun _ _ _ _ _ => rfl
  have hrun : ∃ s c r, run (step oneDatabase.adapter) oneDatabase.start twoRoutes = some s
      ∧ s.calls[1]? = some c ∧ c.data = [1] ∧ c.pc = .returned (.ok r)
      ∧ r.metadata = [("cached", "true")] := ⟨_, _, _, rfl, rfl, rfl, rfl, rfl⟩
  obtain ⟨s, c, r, hs, hc, hdata, hr, hmetadata⟩ := hrun
  have hsame := cached_eq_plain oneDatabase hworld hs c (List.mem_of_getElem? hc) _ hr
  rw [hdata] at hsame
  exact ⟨s, r, hs, by rw [hc, Option.map_some, hr], hmetadata, hsame⟩

end Route

end ProtocolProxy
