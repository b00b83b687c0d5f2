import ProtocolProxy.Route
import ProtocolProxy.Proofs.Endpoint

/-!
# What the routing cache answers with

An entry of the cache has its origin in the log (`Stored`): the call that wrote it, what that call
had obtained, and whether it was validated.  Each call, wherever it stands, has in the log what its
locals say (`PcInv`).  Both survive whatever the other calls and the setters do, since these only
add to the log and let time pass.

The origin does not say that the entry was validated.  Only if no call that runs with validation on
meets an entry of one that ran with it off are all answers to the first validated
(`returnsValidated_of_noSkippedHit`).
-/

namespace ProtocolProxy

namespace Route

open Machine

variable {A : Adapter} {s s' : State} {log log' : List Event} {now now' i j ttl : ℕ} {data : Bytes}

/-! ## Origins in the log -/

theorem Sourced.mono {endpoint : Text} (hsub : log ⊆ log') (h : Sourced log i data endpoint) :
    Sourced log' i data endpoint := by
  obtain ⟨raw, hob, hne, hskip⟩ := h
  refine ⟨raw, hsub hob, hne, ?_⟩
  rcases hskip with ⟨h₁, h₂⟩ | ⟨h₁, h₂⟩
  · exact Or.inl ⟨hsub h₁, h₂⟩
  · exact Or.inr ⟨hsub h₁, h₂⟩

/-- The entry was written by some call, not after now, and stamped not after it was written. -/
def Stored (log : List Event) (now : ℕ) (data : Bytes) (entry : CacheEntry) : Prop :=
  ∃ i time, Provenance log i data entry.endpoint entry.insertedAt time ∧ time ≤ now
    ∧ entry.insertedAt ≤ time

theorem Stored.mono {entry : CacheEntry} (hsub : log ⊆ log') (hnow : now ≤ now')
    (h : Stored log now data entry) : Stored log' now' data entry := by
  obtain ⟨i, time, hp, h₁, h₂⟩ := h
  exact ⟨i, time, ⟨hsub hp.1, hp.2.mono hsub⟩, h₁.trans hnow, h₂⟩

/-- Call `i` has read `ttl`, and nothing else. -/
def OnlyTtl (log : List Event) (i ttl : ℕ) : Prop :=
  .readTtl i ttl ∈ log ∧ ∀ t, .readTtl i t ∈ log → t = ttl

/-- What the log holds about a call that stands at `pc`. -/
def PcInv (log : List Event) (now i : ℕ) (data : Bytes) : Pc → Prop
  | .readTtl => ∀ t, .readTtl i t ∉ log
  | .cacheGet ttl => OnlyTtl log i ttl
  | .checkAge ttl entry => OnlyTtl log i ttl ∧ Stored log now data entry
  | .readOnResolve ttl => OnlyTtl log i ttl
  | .resolveViaResolver ttl => OnlyTtl log i ttl
  | .readSkip ttl result =>
    OnlyTtl log i ttl ∧ .obtained i data result.endpoint ∈ log ∧ result.endpoint ≠ []
  | .validating ttl result =>
    OnlyTtl log i ttl ∧ .obtained i data result.endpoint ∈ log ∧ result.endpoint ≠ []
      ∧ .readSkip i false ∈ log
  | .stamp ttl _ endpoint => OnlyTtl log i ttl ∧ ttl ≠ 0 ∧ Sourced log i data endpoint
  | .insert ttl _ endpoint insertedAt =>
    OnlyTtl log i ttl ∧ ttl ≠ 0 ∧ Sourced log i data endpoint ∧ insertedAt ≤ now
  | .returned (.error _) => True
  | .returned (.ok r) =>
    (∃ ttl time, .hit i data r.endpoint ttl time ∈ log)
      ∨ Sourced log i data r.endpoint ∧ ("cached", "true") ∉ r.metadata

theorem OnlyTtl.append (h : OnlyTtl log i ttl) {evs : List Event}
    (hev : ∀ t, .readTtl i t ∉ evs) : OnlyTtl (log ++ evs) i ttl := by
  refine ⟨List.mem_append_left _ h.1, fun t ht => ?_⟩
  rcases List.mem_append.1 ht with ht | ht
  · exact h.2 t ht
  · exact absurd ht (hev t)

/-- What is known about a call survives events that are not its reading of the time to live, and
time passing. -/
theorem PcInv.append {pc : Pc} (h : PcInv log now i data pc) (hnow : now ≤ now')
    {evs : List Event} (hev : ∀ t, .readTtl i t ∉ evs) :
    PcInv (log ++ evs) now' i data pc := by
  have hsub : log ⊆ log ++ evs := List.subset_append_left _ _
  cases pc with
  | readTtl =>
    intro t ht
    rcases List.mem_append.1 ht with ht | ht
    · exact h t ht
    · exact hev t ht
  | cacheGet ttl => exact OnlyTtl.append h hev
  | checkAge ttl entry => exact ⟨h.1.append hev, h.2.mono hsub hnow⟩
  | readOnResolve ttl => exact OnlyTtl.append h hev
  | resolveViaResolver ttl => exact OnlyTtl.append h hev
  | readSkip ttl result => exact ⟨h.1.append hev, hsub h.2.1, h.2.2⟩
  | validating ttl result => exact ⟨h.1.append hev, hsub h.2.1, h.2.2.1, hsub h.2.2.2⟩
  | stamp ttl result endpoint => exact ⟨h.1.append hev, h.2.1, h.2.2.mono hsub⟩
  | insert ttl result endpoint insertedAt =>
    exact ⟨h.1.append hev, h.2.1, h.2.2.1.mono hsub, h.2.2.2.trans hnow⟩
  | returned r =>
    rcases r with e | r
    · trivial
    · rcases h with ⟨ttl, time, hhit⟩ | ⟨hsrc, hfresh⟩
      · exact Or.inl ⟨ttl, time, hsub hhit⟩
      · exact Or.inr ⟨hsrc.mono hsub, hfresh⟩

theorem PcInv.later {pc : Pc} (h : PcInv log now i data pc) (hnow : now ≤ now') :
    PcInv log now' i data pc := by
  have := h.append hnow (fun _ => List.not_mem_nil : ∀ t, .readTtl i t ∉ ([] : List Event))
  rwa [List.append_nil] at this

/-! ## The answers from the cache -/

theorem HitsFresh.append_other (h : HitsFresh log) {e : Event}
    (he : ∀ i data endpoint ttl time, e ≠ .hit i data endpoint ttl time) : HitsFresh (log ++ [e]) :=
  Justified.append h fun i data endpoint ttl time heq =>
    absurd heq (he i data endpoint ttl time)

structure Inv (s : State) : Prop where
  cache : ∀ data entry, s.cache data = some entry → Stored s.log s.now data entry
  calls : ∀ i c, s.calls[i]? = some c → PcInv s.log s.now i c.data c.pc
  known : ∀ e ∈ s.log, e.call < s.calls.length
  hits : HitsFresh s.log

theorem inv_new : Inv new where
  cache := fun data entry h => by simp [new] at h
  calls := fun i c h => by simp [new] at h
  known := fun e h => by simp [new] at h
  hits := justified_nil

/-! ## One step of a call -/

/-- What a step of call `i` leaves: a log that grew by the call's own events and holds what the
call's new place and the entry it wrote need. -/
structure StepOk (s : State) (i : ℕ) (data : Bytes) (eff : Effect) : Prop where
  own : ∀ e ∈ eff.events, e.call = i
  pc : PcInv (s.log ++ eff.events) s.now i data eff.pc
  write : ∀ entry, eff.write = some entry → Stored (s.log ++ eff.events) s.now data entry
    ∧ (∃ r, eff.pc = .returned (.ok r)) ∧ .readTtl i 0 ∉ s.log ++ eff.events
  hits : HitsFresh (s.log ++ eff.events)

theorem stepOk_silent {pc : Pc} (hs : Inv s) (h : PcInv s.log s.now i data pc) :
    StepOk s i data { pc := pc } where
  own := fun e he => by simp at he
  pc := by simpa using h
  write := fun entry h => by simp at h
  hits := by simpa using hs.hits

/-- A step that logs one event of its call, not an answer from the cache, and writes nothing. -/
theorem stepOk_event {pc : Pc} {e : Event} (hs : Inv s) (hown : e.call = i)
    (hhit : ∀ i data endpoint ttl time, e ≠ .hit i data endpoint ttl time)
    (h : PcInv (s.log ++ [e]) s.now i data pc) : StepOk s i data { pc := pc, events := [e] } where
  own := fun e' he => by
    rw [List.mem_singleton.1 he]
    exact hown
  pc := h
  write := fun entry h => by simp at h
  hits := hs.hits.append_other hhit

theorem stepOk_answered (hs : Inv s) (h : OnlyTtl s.log i ttl) (answer : Answer) :
    StepOk s i data (answered i data ttl answer) := by
  rcases answer with e | result
  · exact stepOk_silent hs trivial
  · refine stepOk_event hs rfl (by simp) ?_
    split_ifs with hempty
    · trivial
    · exact ⟨h.append (by simp), by simp, by simpa using hempty⟩

theorem not_cached_insert (m : Metadata) : ("cached", "true") ∉ m.insert "cached" "false" := by
  simp [Metadata.insert]

theorem pcInv_resolved {result : ResolverResult} {endpoint : Text} (h : OnlyTtl log i ttl)
    (hsrc : Sourced log i data endpoint) :
    PcInv log now i data (resolved A ttl result endpoint) := by
  unfold resolved
  split_ifs with h0
  · exact Or.inr ⟨hsrc, not_cached_insert _⟩
  · exact ⟨h, h0, hsrc⟩

theorem next_stepOk {pc : Pc} {input : Input} {eff : Effect} (hs : Inv s)
    (hpc : PcInv s.log s.now i data pc) (h : next A s i data pc input = some eff) :
    StepOk s i data eff := by
  cases pc with
  | readTtl =>
    cases input <;> simp only [next, reduceCtorEq, Option.some.injEq] at h
    subst h
    have hnew : OnlyTtl (s.log ++ [.readTtl i s.cacheTtl]) i s.cacheTtl := by
      refine ⟨by simp, fun t ht => ?_⟩
      rcases List.mem_append.1 ht with ht | ht
      · exact absurd ht (hpc t)
      · simpa using ht
    refine stepOk_event hs rfl (by simp) ?_
    split_ifs
    · exact hnew
    · exact hnew
  | cacheGet ttl =>
    cases input <;> simp only [next, reduceCtorEq, Option.some.injEq] at h
    subst h
    apply stepOk_silent hs
    rcases hc : s.cache data with _ | entry
    · exact hpc
    · exact ⟨hpc, hs.cache data entry hc⟩
  | checkAge ttl entry =>
    cases input <;> simp only [next, reduceCtorEq] at h
    split_ifs at h with hage <;> simp only [Option.some.injEq] at h <;> subst h
    · refine ⟨by simp [Event.call], Or.inl ⟨ttl, s.now, by simp⟩, fun entry h => by simp at h,
        Justified.append hs.hits ?_⟩
      intro i' data' endpoint' ttl' time' he
      cases he
      obtain ⟨j, t, hprov, hle, hstamp⟩ := hpc.2
      exact ⟨hpc.1.1, j, _, t, hprov, hstamp, hle, hage⟩
    · exact stepOk_silent hs hpc.1
  | readOnResolve ttl =>
    cases input <;> simp only [next, reduceCtorEq] at h
    · split_ifs at h
      cases h
      exact stepOk_silent hs hpc
    · rename_i answer
      split_ifs at h
      cases h
      rcases answer with _ | answer
      · exact stepOk_silent hs hpc
      · exact stepOk_answered hs hpc answer
  | resolveViaResolver ttl =>
    cases input <;> simp only [next, reduceCtorEq] at h
    · split_ifs at h
      cases h
      exact stepOk_silent hs trivial
    · split_ifs at h
      cases h
      exact stepOk_answered hs hpc _
  | readSkip ttl result =>
    cases input <;> simp only [next, reduceCtorEq, Option.some.injEq] at h
    subst h
    obtain ⟨httl, hob, hne⟩ := hpc
    have httl' : OnlyTtl (s.log ++ [.readSkip i s.skipValidation]) i ttl := httl.append (by simp)
    refine stepOk_event hs rfl (by simp) ?_
    split_ifs with hskip
    · refine pcInv_resolved httl' ⟨_, List.mem_append_left _ hob, hne, Or.inl ⟨?_, rfl⟩⟩
      simp [hskip]
    · refine ⟨httl', List.mem_append_left _ hob, hne, ?_⟩
      simp [hskip]
  | validating ttl result =>
    cases input <;> simp only [next, reduceCtorEq] at h
    rename_i env
    obtain ⟨httl, hob, hne, hskip⟩ := hpc
    rcases hv : validate env result.endpoint with e | endpoint <;> rw [hv] at h <;> cases h
    · exact stepOk_silent hs trivial
    · exact stepOk_silent hs
        (pcInv_resolved httl ⟨_, hob, hne, Or.inr ⟨hskip, env, hv⟩⟩)
  | stamp ttl result endpoint =>
    cases input <;> simp only [next, reduceCtorEq, Option.some.injEq] at h
    subst h
    exact stepOk_silent hs ⟨hpc.1, hpc.2.1, hpc.2.2, le_rfl⟩
  | insert ttl result endpoint insertedAt =>
    cases input <;> simp only [next, reduceCtorEq, Option.some.injEq] at h
    subst h
    obtain ⟨httl, h0, hsrc, hle⟩ := hpc
    have hsrc' : Sourced (s.log ++ [.inserted i data endpoint insertedAt s.now]) i data endpoint :=
      hsrc.mono (List.subset_append_left _ _)
    refine ⟨by simp [Event.call], Or.inr ⟨hsrc', not_cached_insert _⟩, fun entry h => ?_,
      hs.hits.append_other (by simp)⟩
    · cases h
      refine ⟨⟨i, s.now, ⟨by simp, hsrc'⟩, le_rfl, hle⟩, ⟨_, rfl⟩, fun hzero => h0 ?_⟩
      exact ((httl.append (by simp)).2 0 hzero).symm
  | returned r => cases input <;> simp [next] at h

/-! ## One step of the machine -/

theorem getElem?_apply {eff : Effect} {c : Call} (h : (s.apply i data eff).calls[j]? = some c) :
    ∃ c₀, s.calls[j]? = some c₀ ∧ c.data = c₀.data ∧ c.skipSeen = c₀.skipSeen
      ∧ c.pc = if i = j then eff.pc else c₀.pc := by
  simp only [State.apply, List.getElem?_modify] at h
  rcases hj : s.calls[j]? with _ | c₀ <;> rw [hj] at h
  · simp at h
  · refine ⟨c₀, rfl, ?_⟩
    split_ifs at h ⊢ <;> cases h <;> exact ⟨rfl, rfl, rfl⟩

theorem getElem?_seeSkip {c : Call} {calls : List Call}
    (h : (calls.map Call.seeSkip)[i]? = some c) :
    ∃ c₀, calls[i]? = some c₀ ∧ c = c₀.seeSkip := by
  rw [List.getElem?_map, Option.map_eq_some_iff] at h
  obtain ⟨c₀, h₀, h₁⟩ := h
  exact ⟨c₀, h₀, h₁.symm⟩

@[simp] theorem seeSkip_pc (c : Call) : c.seeSkip.pc = c.pc := by
  unfold Call.seeSkip
  split_ifs <;> rfl

@[simp] theorem seeSkip_data (c : Call) : c.seeSkip.data = c.data := by
  unfold Call.seeSkip
  split_ifs <;> rfl

theorem skipSeen_seeSkip {c : Call} (h : c.skipSeen = true) : c.seeSkip.skipSeen = true := by
  unfold Call.seeSkip
  split_ifs
  · exact h
  · rfl

theorem resume_eq {input : Input} (h : step A s (.resume i input) = some s') :
    ∃ c eff, s.calls[i]? = some c ∧ next A s i c.data c.pc input = some eff
      ∧ s' = s.apply i c.data eff := by
  simp only [step, Option.bind_eq_some_iff, Option.map_eq_some_iff] at h
  obtain ⟨c, hc, eff, heff, rfl⟩ := h
  exact ⟨c, eff, hc, heff, rfl⟩

theorem inv_apply {c : Call} {eff : Effect} (hs : Inv s) (hc : s.calls[i]? = some c)
    (h : StepOk s i c.data eff) : Inv (s.apply i c.data eff) where
  cache := by
    intro data entry hentry
    have hsub : s.log ⊆ s.log ++ eff.events := List.subset_append_left _ _
    simp only [State.apply] at hentry ⊢
    rcases hw : eff.write with _ | e <;> rw [hw] at hentry
    · exact (hs.cache data entry hentry).mono hsub le_rfl
    · by_cases hd : data = c.data
      · subst hd
        simp only [Option.elim_some, Function.update_self, Option.some.injEq] at hentry
        subst hentry
        exact (h.write e hw).1
      · simp only [Option.elim_some, Function.update_of_ne hd] at hentry
        exact (hs.cache data entry hentry).mono hsub le_rfl
  calls := by
    intro j c' hj
    obtain ⟨c₀, h₀, hdata, -, hpc⟩ := getElem?_apply hj
    rw [hdata, hpc]
    split_ifs with hij
    · subst hij
      rw [hc, Option.some.injEq] at h₀
      subst h₀
      exact h.pc
    · refine (hs.calls j c₀ h₀).append le_rfl fun t ht => hij ?_
      exact (h.own _ ht).symm
  known := by
    intro e he
    have hlen : (s.apply i c.data eff).calls.length = s.calls.length := by simp [State.apply]
    rw [hlen]
    rcases List.mem_append.1 he with he | he
    · exact hs.known e he
    · rw [h.own e he]
      exact (List.getElem?_eq_some_iff.1 hc).1
  hits := h.hits

theorem step_inv {a : Action} (hs : Inv s) (h : step A s a = some s') : Inv s' := by
  cases a with
  | tick ns =>
    cases h
    have hle : s.now ≤ s.now + ns := by omega
    exact ⟨fun d e he => (hs.cache d e he).mono (List.Subset.refl _) hle,
      fun i c hc => (hs.calls i c hc).later hle, hs.known, hs.hits⟩
  | setCacheTtl seconds =>
    cases h
    exact ⟨hs.cache, hs.calls, hs.known, hs.hits⟩
  | setSkipValidation skip =>
    cases h
    refine ⟨hs.cache, fun i c hc => ?_, fun e he => ?_, hs.hits⟩
    · cases skip
      · exact hs.calls i c hc
      · obtain ⟨c₀, h₀, rfl⟩ := getElem?_seeSkip hc
        rw [seeSkip_data, seeSkip_pc]
        exact hs.calls i c₀ h₀
    · cases skip
      · exact hs.known e he
      · simpa using hs.known e he
  | setOnResolve =>
    cases h
    exact ⟨hs.cache, hs.calls, hs.known, hs.hits⟩
  | evict data =>
    cases h
    refine ⟨fun d e he => ?_, hs.calls, hs.known, hs.hits⟩
    by_cases hd : d = data
    · subst hd
      simp at he
    · simp only [Function.update_of_ne hd] at he
      exact hs.cache d e he
  | route data =>
    cases h
    refine ⟨hs.cache, fun i c hc => ?_, fun e he => ?_, hs.hits⟩
    · rw [List.getElem?_append] at hc
      split_ifs at hc with hi
      · exact hs.calls i c hc
      · -- the new call has no number in the log yet
        rw [List.getElem?_singleton] at hc
        split_ifs at hc with h0
        cases hc
        intro t ht
        have := hs.known _ ht
        exact hi this
    · have := hs.known e he
      simp only [List.length_append, List.length_singleton]
      omega
  | resume i input =>
    obtain ⟨c, eff, hc, heff, rfl⟩ := resume_eq h
    exact inv_apply hs hc (next_stepOk hs (hs.calls i c hc) heff)

/-! ## Calls that leave the cache alone -/

/-- Call `i` has returned an endpoint and had not read a time to live of zero. -/
def StoredAndReturned (i : ℕ) (s : State) : Prop :=
  (∃ c r, s.calls[i]? = some c ∧ c.pc = .returned (.ok r)) ∧ .readTtl i 0 ∉ s.log

theorem next_returned {r : Except ResolverError ConnectionResult} {input : Input} :
    next A s i data (.returned r) input = none := by
  cases input <;> rfl

theorem step_storedAndReturned {a : Action} (hs : Inv s) (hi : StoredAndReturned i s)
    (h : step A s a = some s') : StoredAndReturned i s' := by
  obtain ⟨⟨c, r, hc, hpc⟩, hlog⟩ := hi
  cases a with
  | tick | setCacheTtl | setOnResolve | evict =>
    cases h
    exact ⟨⟨c, r, hc, hpc⟩, hlog⟩
  | setSkipValidation skip =>
    cases h
    refine ⟨?_, hlog⟩
    cases skip
    · exact ⟨c, r, hc, hpc⟩
    · refine ⟨c.seeSkip, r, ?_, by rw [seeSkip_pc, hpc]⟩
      simp [hc]
  | route data =>
    cases h
    refine ⟨⟨c, r, ?_, hpc⟩, hlog⟩
    rw [List.getElem?_append_left (List.getElem?_eq_some_iff.1 hc).1]
    exact hc
  | resume j input =>
    obtain ⟨c', eff, hc', heff, rfl⟩ := resume_eq h
    by_cases hij : j = i
    · subst hij
      rw [hc, Option.some.injEq] at hc'
      subst hc'
      rw [hpc, next_returned] at heff
      cases heff
    · have hown := (next_stepOk hs (hs.calls j c' hc') heff).own
      refine ⟨⟨c, r, ?_, hpc⟩, fun hmem => ?_⟩
      · simp [State.apply, hij, hc]
      · rcases List.mem_append.1 hmem with hmem | hmem
        · exact hlog hmem
        · exact hij (hown _ hmem).symm

theorem cache_apply {eff : Effect} (h : eff.write = none) :
    (s.apply i data eff).cache = s.cache := by
  simp [State.apply, h]

/-- A call that writes to the cache has returned an endpoint then, and had read a time to live. -/
theorem storedAndReturned_of_write {c : Call} {eff : Effect} {entry : CacheEntry}
    (hc : s.calls[i]? = some c) (h : StepOk s i c.data eff) (hw : eff.write = some entry) :
    StoredAndReturned i (s.apply i c.data eff) := by
  obtain ⟨-, ⟨r, hr⟩, h0⟩ := h.write entry hw
  refine ⟨⟨{ c with pc := eff.pc }, r, ?_, hr⟩, h0⟩
  simp [State.apply, hc]

theorem not_failedOrUncached (h : StoredAndReturned i s) : ¬ FailedOrUncached s i := by
  obtain ⟨⟨c, r, hc, hpc⟩, h0⟩ := h
  rintro (⟨c', e, hc', he⟩ | hzero)
  · rw [hc, Option.some.injEq] at hc'
    rw [← hc', hpc] at he
    cases he
  · exact h0 hzero

theorem run_inv_new {as : List Action} (h : run (step A) new as = some s) : Inv s :=
  run_inv (fun _ _ _ hs h => step_inv hs h) inv_new h

theorem Inv.hitsLogged (hs : Inv s) : HitsLogged s := by
  intro i c r hc hpc hcached
  have hcall := hs.calls i c hc
  rw [hpc] at hcall
  rcases hcall with hhit | ⟨-, hfresh⟩
  · exact hhit
  · exact absurd hcached hfresh

/-- Whenever a call answers from the cache, some call on the same data stored the endpoint less than
the time to live ago, having obtained it and validated it unless it was told not to, and an answer
marked as cached is such an answer; and no step of a call that fails, or that read a time to live of
zero, changes the cache. -/
theorem cache_provenance (A : Adapter) :
    (∀ as s, run (step A) new as = some s → HitsFresh s.log ∧ HitsLogged s)
      ∧ ∀ as s i input s' bs s'', run (step A) new as = some s →
        step A s (.resume i input) = some s' → run (step A) s' bs = some s'' →
        FailedOrUncached s'' i → s'.cache = s.cache := by
  refine ⟨fun as s h => ⟨(run_inv_new h).hits, (run_inv_new h).hitsLogged⟩,
    fun as s i input s' bs s'' h₁ h₂ h₃ hf => ?_⟩
  have hs : Inv s := run_inv_new h₁
  obtain ⟨c, eff, hc, heff, rfl⟩ := resume_eq h₂
  have hok := next_stepOk hs (hs.calls i c hc) heff
  rcases hw : eff.write with _ | entry
  · exact cache_apply hw
  · -- the call stored what it returned, and that is never undone
    have hend : Inv s'' ∧ StoredAndReturned i s'' := by
      refine run_inv (P := fun s => Inv s ∧ StoredAndReturned i s) ?_
        ⟨inv_apply hs hc hok, storedAndReturned_of_write hc hok hw⟩ h₃
      intro s a s' hs hstep
      exact ⟨step_inv hs.1 hstep, step_storedAndReturned hs.1 hs.2 hstep⟩
    exact absurd hf (not_failedOrUncached hend.2)

/-- Two calls on the same data, and one on other data that has asked its resolver. -/
def threeRoutes : List Action :=
  [.setCacheTtl 60, .route [1], .resume 0 .go, .resume 0 .go, .resume 0 .go,
    .resume 0 (.resolver (.ok ⟨"db.example:5432".toList, []⟩)), .resume 0 .go,
    .resume 0 (.dns ⟨fun _ => none, .answer [.v4 ⟨8, 8, 8, 8⟩]⟩), .resume 0 .go, .resume 0 .go,
    .tick 5, .route [1], .resume 1 .go, .resume 1 .go, .resume 1 .go,
    .route [2], .resume 2 .go, .resume 2 .go, .resume 2 .go]

/-- The second call is answered from the cache.  The third fails and leaves the cache as it was. -/
theorem cache_provenance_hit :
    ∃ s s', run (step ⟨.tcp, true⟩) new threeRoutes = some s
      ∧ .hit 1 [1] "8.8.8.8:5432".toList 60000000000 5 ∈ s.log ∧ HitsFresh s.log ∧ HitsLogged s
      ∧ step ⟨.tcp, true⟩ s (.resume 2 (.resolver (.error (.notFound "unknown")))) = some s'
      ∧ FailedOrUncached s' 2 ∧ s'.cache = s.cache := by
  have hfail : ∃ s s', run (step ⟨.tcp, true⟩) new threeRoutes = some s
      ∧ .hit 1 [1] "8.8.8.8:5432".toList 60000000000 5 ∈ s.log
      ∧ step ⟨.tcp, true⟩ s (.resume 2 (.resolver (.error (.notFound "unknown")))) = some s'
      ∧ FailedOrUncached s' 2 :=
    ⟨_, _, rfl, by decide, rfl, Or.inl ⟨_, _, rfl, rfl⟩⟩
  obtain ⟨s, s', hrun, hhit, hstep, hf⟩ := hfail
  obtain ⟨hfresh, hcache⟩ := cache_provenance ⟨.tcp, true⟩
  exact ⟨s, s', hrun, hhit, (hfresh _ s hrun).1, (hfresh _ s hrun).2, hstep, hf,
    hcache _ s 2 _ s' [] s' hrun hstep run_nil hf⟩

/-! ## Calls with validation on -/

theorem isValidated_of_validate {env : DnsEnv} {e endpoint : Text}
    (h : validate env e = .ok endpoint) : IsValidated endpoint := by
  obtain ⟨ip, port, -, hb, hw, rfl⟩ := validate_ok h
  refine ⟨⟨env, e, h⟩, ip, port, rfl, hb, fun p hp => ?_⟩
  cases hw with
  | port _ _ pos =>
    cases hp
    exact pos
  | noPort _ => cases hp

theorem Sourced.isValidated {endpoint : Text} (h : Sourced log i data endpoint)
    (hskip : .readSkip i true ∉ log) : IsValidated endpoint := by
  obtain ⟨raw, -, -, ⟨hread, -⟩ | ⟨-, env, hv⟩⟩ := h
  · exact absurd hread hskip
  · exact isValidated_of_validate hv

/-- While `skip_validation` is on, every call that is going on has seen it; so has every call that
read it as on; and what the others were answered from the cache is validated. -/
structure SkipInv (s : State) : Prop where
  on : s.skipValidation = true → ∀ c ∈ s.calls, c.pc.isReturned = false → c.skipSeen = true
  read : ∀ i c, .readSkip i true ∈ s.log → s.calls[i]? = some c → c.skipSeen = true
  hits : ∀ i c data endpoint ttl time, .hit i data endpoint ttl time ∈ s.log →
    s.calls[i]? = some c → c.skipSeen = false → IsValidated endpoint

theorem skipInv_new : SkipInv new where
  on := fun h => by simp [new] at h
  read := fun i c h => by simp [new] at h
  hits := fun i c data endpoint ttl time h => by simp [new] at h

theorem returnsValidated (hs : Inv s) (hskip : SkipInv s) : ReturnsValidated s := by
  intro c hc r hr hoff
  obtain ⟨i, hi⟩ := List.getElem?_of_mem hc
  have hpc := hs.calls i c hi
  rw [hr] at hpc
  rcases hpc with ⟨ttl, time, hhit⟩ | ⟨hsrc, -⟩
  · exact hskip.hits i c c.data r.endpoint ttl time hhit hi hoff
  · refine hsrc.isValidated fun hread => ?_
    rw [hskip.read i c hread hi] at hoff
    cases hoff

theorem mem_answered {answer : Answer} {e : Event} (h : e ∈ (answered i data ttl answer).events) :
    ∃ endpoint, e = .obtained i data endpoint := by
  rcases answer with err | result
  · simp [answered] at h
  · exact ⟨result.endpoint, by simpa [answered] using h⟩

/-- What a step of a call can record: besides a reading of the settings only what its place says. -/
inductive Recorded (s : State) (i : ℕ) (data : Bytes) : Pc → Input → Event → Prop
  | readTtl : Recorded s i data .readTtl .go (.readTtl i s.cacheTtl)
  | obtained {pc : Pc} {input : Input} (endpoint : Text) :
      Recorded s i data pc input (.obtained i data endpoint)
  | readSkip (ttl : ℕ) (result : ResolverResult) :
      Recorded s i data (.readSkip ttl result) .go (.readSkip i s.skipValidation)
  | inserted {pc : Pc} (endpoint : Text) (insertedAt : ℕ) :
      Recorded s i data pc .go (.inserted i data endpoint insertedAt s.now)
  | hit (ttl : ℕ) (entry : CacheEntry) (fresh : s.now - entry.insertedAt < ttl) :
      Recorded s i data (.checkAge ttl entry) .go (.hit i data entry.endpoint ttl s.now)

theorem next_recorded {pc : Pc} {input : Input} {eff : Effect} {e : Event}
    (h : next A s i data pc input = some eff) (he : e ∈ eff.events) :
    Recorded s i data pc input e := by
  unfold next at h
  split at h
  · cases h
    simp only [List.mem_singleton] at he
    subst he
    exact .readTtl
  · cases h
    simp at he
  · split_ifs at h with hage <;> cases h <;> simp at he
    subst he
    exact .hit _ _ hage
  · split_ifs at h
    cases h
    simp at he
  · rename_i answer
    split_ifs at h
    cases h
    rcases answer with _ | answer
    · simp at he
    · obtain ⟨endpoint, rfl⟩ := mem_answered he
      exact .obtained endpoint
  · split_ifs at h
    cases h
    simp at he
  · split_ifs at h
    cases h
    obtain ⟨endpoint, rfl⟩ := mem_answered he
    exact .obtained endpoint
  · cases h
    simp only [List.mem_singleton] at he
    subst he
    exact .readSkip _ _
  · split at h <;> cases h <;> simp at he
  · cases h
    simp at he
  · cases h
    simp only [List.mem_singleton] at he
    subst he
    exact .inserted _ _
  · cases h

theorem Recorded.readSkip_inv {pc : Pc} {input : Input} {b : Bool}
    (h : Recorded s i data pc input (.readSkip j b)) :
    i = j ∧ s.skipValidation = b ∧ pc.isReturned = false := by
  generalize he : Event.readSkip j b = e at h
  cases h <;> cases he
  exact ⟨rfl, rfl, rfl⟩

theorem Recorded.hit_inv {pc : Pc} {input : Input} {data' : Bytes} {endpoint : Text} {time : ℕ}
    (h : Recorded s i data pc input (.hit j data' endpoint ttl time)) :
    i = j ∧ input = .go ∧ ∃ entry, pc = .checkAge ttl entry ∧ endpoint = entry.endpoint
      ∧ s.now - entry.insertedAt < ttl := by
  generalize he : Event.hit j data' endpoint ttl time = e at h
  cases h <;> cases he
  exact ⟨rfl, rfl, _, rfl, rfl, ‹_›⟩

theorem skipInv_apply {c : Call} {eff : Effect} {input : Input} (hs : Inv s) (hskip : SkipInv s)
    (hc : s.calls[i]? = some c) (h : next A s i c.data c.pc input = some eff)
    (hno : NoSkippedHit s (.resume i input)) : SkipInv (s.apply i c.data eff) where
  on := by
    intro hon c' hc' hpc'
    obtain ⟨j, hj⟩ := List.getElem?_of_mem hc'
    obtain ⟨c₀, h₀, -, hseen, hpc⟩ := getElem?_apply hj
    rw [hseen]
    refine hskip.on hon c₀ (List.mem_of_getElem? h₀) ?_
    by_cases hij : i = j
    · -- a call that makes a step had not returned
      subst hij
      rw [hc, Option.some.injEq] at h₀
      subst h₀
      rcases hp : c.pc with _ | _ | _ | _ | _ | _ | _ | _ | _ | r <;> try rfl
      rw [hp, next_returned] at h
      cases h
    · rw [if_neg hij] at hpc
      rw [← hpc, hpc']
  read := by
    intro j c' hmem hj
    obtain ⟨c₀, h₀, -, hseen, -⟩ := getElem?_apply hj
    rw [hseen]
    rcases List.mem_append.1 hmem with hmem | hmem
    · exact hskip.read j c₀ hmem h₀
    · obtain ⟨rfl, hon, hpc⟩ := (next_recorded h hmem).readSkip_inv
      rw [hc, Option.some.injEq] at h₀
      subst h₀
      exact hskip.on hon c (List.mem_of_getElem? hc) hpc
  hits := by
    intro j c' data endpoint ttl time hmem hj hoff
    obtain ⟨c₀, h₀, -, hseen, -⟩ := getElem?_apply hj
    rw [hseen] at hoff
    rcases List.mem_append.1 hmem with hmem | hmem
    · exact hskip.hits j c₀ data endpoint ttl time hmem h₀ hoff
    · obtain ⟨rfl, rfl, entry, hpc, rfl, hfresh⟩ := (next_recorded h hmem).hit_inv
      rw [hc, Option.some.injEq] at h₀
      subst h₀
      have hpcInv := hs.calls i c hc
      rw [hpc] at hpcInv
      obtain ⟨k, t, hprov, -, -⟩ := hpcInv.2
      exact hprov.sourced.isValidated
        (hno c ttl entry hc hpc hoff hfresh k t hprov.inserted)

theorem step_skipInv {a : Action} (hs : Inv s) (hskip : SkipInv s) (hno : NoSkippedHit s a)
    (h : step A s a = some s') : SkipInv s' := by
  cases a with
  | tick | setCacheTtl | setOnResolve | evict =>
    cases h
    exact ⟨hskip.on, hskip.read, hskip.hits⟩
  | setSkipValidation skip =>
    cases h
    cases skip with
    | false => exact ⟨fun h => (Bool.false_ne_true h).elim, hskip.read, hskip.hits⟩
    | true =>
      refine ⟨fun _ c hc hpc => ?_, fun i c hmem hc => ?_, fun i c d x t w hmem hc hoff => ?_⟩
      · obtain ⟨c₀, -, rfl⟩ := List.mem_map.1 hc
        rw [seeSkip_pc] at hpc
        simp [Call.seeSkip, hpc]
      · obtain ⟨c₀, h₀, rfl⟩ := getElem?_seeSkip hc
        exact skipSeen_seeSkip (hskip.read i c₀ hmem h₀)
      · obtain ⟨c₀, h₀, rfl⟩ := getElem?_seeSkip hc
        refine hskip.hits i c₀ d x t w hmem h₀ ?_
        by_contra hne
        rw [skipSeen_seeSkip (by simpa using hne)] at hoff
        cases hoff
  | route data =>
    cases h
    have hold : ∀ e ∈ s.log, ∀ c,
        (s.calls ++ [⟨data, .readTtl, s.skipValidation⟩])[e.call]? = some c →
          s.calls[e.call]? = some c := by
      intro e he c hc
      rwa [List.getElem?_append_left (hs.known e he)] at hc
    refine ⟨fun hon c hc hpc => ?_, fun i c hmem hc => ?_, fun i c d x t w hmem hc hoff => ?_⟩
    · rcases List.mem_append.1 hc with hc | hc
      · exact hskip.on hon c hc hpc
      · rw [List.mem_singleton.1 hc]
        exact hon
    · exact hskip.read i c hmem (hold _ hmem c hc)
    · exact hskip.hits i c d x t w hmem (hold _ hmem c hc) hoff
  | resume i input =>
    obtain ⟨c, eff, hc, heff, rfl⟩ := resume_eq h
    exact skipInv_apply hs hskip hc heff hno

/-- No call has read `skip_validation` as on, and it is off. -/
def NeverSkipped (s : State) : Prop :=
  s.skipValidation = false ∧ ∀ i, .readSkip i true ∉ s.log

theorem step_neverSkipped {a : Action} (hs : NeverSkipped s) (ha : a ≠ .setSkipValidation true)
    (h : step A s a = some s') : NeverSkipped s' := by
  cases a with
  | tick | setCacheTtl | setOnResolve | evict | route =>
    cases h
    exact hs
  | setSkipValidation skip =>
    cases h
    cases skip
    · exact ⟨rfl, hs.2⟩
    · exact absurd rfl ha
  | resume i input =>
    obtain ⟨c, eff, hc, heff, rfl⟩ := resume_eq h
    refine ⟨hs.1, fun j hmem => ?_⟩
    rcases List.mem_append.1 hmem with hmem | hmem
    · exact hs.2 j hmem
    · obtain ⟨-, hon, -⟩ := (next_recorded heff hmem).readSkip_inv
      rw [hs.1] at hon
      cases hon

theorem NeverSkipped.noSkippedHit (hs : NeverSkipped s) (a : Action) : NoSkippedHit s a := by
  unfold NoSkippedHit
  split
  · intro _ _ _ _ _ _ _ j _ _
    exact hs.2 j
  · trivial

/-- The condition is met where `skip_validation` is never switched on. -/
theorem eachStep_noSkippedHit {as : List Action} (has : ∀ a ∈ as, a ≠ .setSkipValidation true) :
    EachStep (step A) NoSkippedHit new as :=
  eachStep_of_inv (fun _ _ _ hs ha h => step_neverSkipped hs ha h)
    (fun _ a hs _ => hs.noSkippedHit a) ⟨rfl, fun i => by simp [new]⟩ has

/-- In a run in which no call with validation on meets a fresh entry that a call with validation off
has stored, every answer to a call with validation on throughout is validated. -/
theorem returnsValidated_of_noSkippedHit (A : Adapter) {as : List Action} {s : State}
    (hrun : run (step A) new as = some s) (hno : EachStep (step A) NoSkippedHit new as) :
    ReturnsValidated s := by
  have h : Inv s ∧ SkipInv s := by
    refine run_inv_of_each (P := fun s => Inv s ∧ SkipInv s) ?_ ⟨inv_new, skipInv_new⟩ hno hrun
    intro s a s' hs hno hstep
    exact ⟨step_inv hs.1 hstep, step_skipInv hs.1 hs.2 hno hstep⟩
  exact returnsValidated h.1 h.2

theorem returnsValidated_of_noSkippedHit_threeRoutes :
    ∃ s c r, run (step ⟨.tcp, true⟩) new threeRoutes = some s ∧ s.calls[1]? = some c
      ∧ c.pc = .returned (.ok r) ∧ c.skipSeen = false ∧ r.metadata = [("cached", "true")]
      ∧ EachStep (step ⟨.tcp, true⟩) NoSkippedHit new threeRoutes ∧ IsValidated r.endpoint := by
  have hrun : ∃ s c r, run (step ⟨.tcp, true⟩) new threeRoutes = some s ∧ s.calls[1]? = some c
      ∧ c.pc = .returned (.ok r) ∧ c.skipSeen = false ∧ r.metadata = [("cached", "true")] :=
    ⟨_, _, _, rfl, rfl, rfl, rfl, rfl⟩
  obtain ⟨s, c, r, hs, hc, hpc, hoff, hm⟩ := hrun
  have hno : EachStep (step ⟨.tcp, true⟩) NoSkippedHit new threeRoutes :=
    eachStep_noSkippedHit (by simp [threeRoutes])
  exact ⟨s, c, r, hs, hc, hpc, hoff, hm, hno,
    returnsValidated_of_noSkippedHit ⟨.tcp, true⟩ hs hno c (List.mem_of_getElem? hc) r hpc hoff⟩

theorem not_isValidated_private : ¬ IsValidated "10.0.0.1".toList := by
  rintro ⟨-, ip, port, htext, hb, -⟩
  have hport : port = none := by
    rcases port with _ | p
    · rfl
    · have hmem : ':' ∈ addressText ip (some p) := by simp [addressText]
      rw [← htext] at hmem
      exact absurd hmem (by decide)
  subst hport
  have hparse := Net.IpAddr.parse_text ip
  rw [show ip.text = "10.0.0.1".toList from htext.symm] at hparse
  cases hparse
  exact absurd hb (by decide)

/-- A call stores `10.0.0.1` while `skip_validation` is on.  It is switched off, and the next call
on the same data is answered with that address. -/
theorem skipped_entry_answers :
    ¬ ∀ (A : Adapter) (as : List Action) (s : State), run (step A) new as = some s →
      ReturnsValidated s := by
  intro h
  have hrun : ∃ s c r, run (step ⟨.tcp, true⟩) new
      [.setCacheTtl 60, .setSkipValidation true, .route [1], .resume 0 .go, .resume 0 .go,
        .resume 0 .go, .resume 0 (.resolver (.ok ⟨"10.0.0.1".toList, []⟩)), .resume 0 .go,
        .resume 0 .go, .resume 0 .go, .setSkipValidation false, .route [1], .resume 1 .go,
        .resume 1 .go, .resume 1 .go] = some s
      ∧ s.calls[1]? = some c ∧ c.pc = .returned (.ok r) ∧ c.skipSeen = false
      ∧ r.endpoint = "10.0.0.1".toList :=
    ⟨_, _, _, rfl, rfl, rfl, rfl, rfl⟩
  obtain ⟨s, c, r, hs, hc, hpc, hoff, he⟩ := hrun
  have hval := h _ _ s hs c (List.mem_of_getElem? hc) r hpc hoff
  rw [he] at hval
  exact not_isValidated_private hval

end Route

end ProtocolProxy
