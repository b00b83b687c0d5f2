import ProtocolProxy.PhpRouter

/-!
# Which data share a row of the PHP routing cache

A row holds the first 256 bytes of an endpoint that was produced for some data with the same first
63 bytes (`Inv`), and so does every answer from it (`cachedCut`).  The data it was produced for
may be other data, and the endpoint longer.

So the answers are never another's exactly where the data in use differ within their first 63 bytes
and no endpoint is longer than 256 (`cachedOwn_iff`).
-/

namespace ProtocolProxy

namespace Php

open Machine

variable {A : Adapter} {s s' : State} {log log' : List Event} {data endpoint : Text}

/-! ## Where rows come from -/

/-- The endpoint is what the table keeps of one that was produced for data with the same key. -/
def Cut (log : List Event) (data endpoint : Text) : Prop :=
  ∃ data' endpoint', .produced data' endpoint' ∈ log ∧ .asked data' ∈ log
    ∧ data'.take keySize = data.take keySize ∧ endpoint = endpoint'.take endpointSize

theorem Cut.mono (hsub : log ⊆ log') (h : Cut log data endpoint) : Cut log' data endpoint := by
  obtain ⟨d, x, hp, ha, hd, hx⟩ := h
  exact ⟨d, x, hsub hp, hsub ha, hd, hx⟩

/-- Every answer from the table is the cut of an endpoint that was produced before. -/
def CachedCut (log : List Event) : Prop :=
  Justified (fun pre e => ∀ data endpoint, e = .cached data endpoint →
    .asked data ∈ pre ∧ Cut pre data endpoint) log

theorem CachedCut.append_other (h : CachedCut log) {e : Event}
    (he : ∀ data endpoint, e ≠ .cached data endpoint) : CachedCut (log ++ [e]) :=
  Justified.append h fun data endpoint heq => absurd heq (he data endpoint)

structure Inv (s : State) : Prop where
  table : ∀ data row, s.table.get data = some row → Cut s.log data row.endpoint
  pending : ∀ p ∈ s.pending, .asked p.data ∈ s.log
  cached : CachedCut s.log

theorem inv_new : Inv new where
  table := fun data row h => by simp [new, Table.get] at h
  pending := fun p h => by simp [new] at h
  cached := justified_nil

theorem Inv.grow (hs : Inv s) {e : Event} (he : CachedCut (s.log ++ [e])) :
    Inv { s with log := s.log ++ [e] } where
  table := fun data row h => (hs.table data row h).mono (List.subset_append_left _ _)
  pending := fun p hp => List.mem_append_left _ (hs.pending p hp)
  cached := he

theorem get_set (t : Table) (key data : Text) (row : Row) :
    (t.set key row).get data = if data.take keySize = key.take keySize
      then some { row with endpoint := row.endpoint.take endpointSize } else t.get data := by
  simp only [Table.get, Table.set, Function.update_apply]

theorem lookup_eq_some {row : Row} {now : ℤ} (h : lookup s data now = some row) :
    s.table.get data = some row := by
  unfold lookup at h
  split_ifs at h
  exact (Option.filter_eq_some_iff.1 h).1

/-! ## One step -/

theorem inv_finish {w : World} {p : Pending} (hs : Inv s) (hp : .asked p.data ∈ s.log) :
    Inv (s.finish A w p) := by
  unfold State.finish
  rcases produce A s w p.data with e | ⟨result, endpoint⟩
  · exact ⟨hs.table, hs.pending, hs.cached⟩
  · have hgrow : Inv { s with log := s.log ++ [.produced p.data endpoint] } :=
      hs.grow (hs.cached.append_other (by simp))
    refine ⟨fun data row hrow => ?_, hgrow.pending, hgrow.cached⟩
    simp only at hrow
    split_ifs at hrow
    · rw [get_set] at hrow
      split_ifs at hrow with hkey
      · cases hrow
        exact ⟨p.data, endpoint, by simp, List.mem_append_left _ hp, hkey.symm, rfl⟩
      · exact hgrow.table data row hrow
    · exact hgrow.table data row hrow

theorem step_inv {a : Action} (hs : Inv s) (h : step A s a = some s') : Inv s' := by
  cases a with
  | setCacheTTL | setSkipValidation | onResolve =>
    cases h
    exact ⟨hs.table, hs.pending, hs.cached⟩
  | route data now =>
    have hask : Inv { s with log := s.log ++ [.asked data] } :=
      hs.grow (hs.cached.append_other (by simp))
    simp only [step] at h
    split at h
    next row hrow =>
      cases h
      have hcut := hask.table data row (lookup_eq_some hrow)
      have hcached : CachedCut (s.log ++ [.asked data] ++ [.cached data row.endpoint]) := by
        refine Justified.append hask.cached ?_
        intro d x heq
        cases heq
        exact ⟨by simp, hcut⟩
      have hboth := hask.grow hcached
      exact ⟨hboth.table, hboth.pending, hboth.cached⟩
    next =>
      cases h
      refine ⟨hask.table, fun p hp => ?_, hask.cached⟩
      rcases List.mem_append.1 hp with hp | hp
      · exact hask.pending p hp
      · rw [List.mem_singleton.1 hp]
        simp
  | finish i w =>
    simp only [step, Option.map_eq_some_iff] at h
    obtain ⟨p, hp, rfl⟩ := h
    have hrest : Inv { s with pending := s.pending.eraseIdx i } :=
      ⟨hs.table, fun q hq => hs.pending q (List.mem_of_mem_eraseIdx hq), hs.cached⟩
    exact inv_finish hrest (hs.pending p (List.mem_of_getElem? hp))

theorem log_subset {a : Action} (h : step A s a = some s') : s.log ⊆ s'.log := by
  cases a with
  | setCacheTTL | setSkipValidation | onResolve =>
    cases h
    exact List.Subset.refl _
  | route data now =>
    simp only [step] at h
    split at h <;> cases h
    · exact fun e he => List.mem_append_left _ (List.mem_append_left _ he)
    · exact List.subset_append_left _ _
  | finish i w =>
    obtain ⟨p, hp, rfl⟩ := Option.map_eq_some_iff.1 h
    unfold State.finish
    split
    · exact List.Subset.refl _
    · exact List.subset_append_left _ _

theorem found_of_route {now : ℤ} {r : RouteResult} (h : step A s (.route data now) = some s')
    (hr : s'.results[s.results.length]? = some (.ok r)) : Found s'.log data r.endpoint := by
  simp only [step] at h
  split at h <;> cases h
  · rw [List.getElem?_concat_length, Option.some.injEq, Except.ok.injEq] at hr
    subst hr
    exact .inr (List.mem_append_right _ (List.mem_singleton.2 rfl))
  · simp at hr

theorem found_finish {w : World} {p : Pending} {r : RouteResult}
    (hr : (s.finish A w p).results[s.results.length]? = some (.ok r)) :
    Found (s.finish A w p).log p.data r.endpoint := by
  revert hr
  unfold State.finish
  rcases produce A s w p.data with e | ⟨result, endpoint⟩ <;> intro hr
  · simp at hr
  · rw [List.getElem?_concat_length, Option.some.injEq, Except.ok.injEq] at hr
    subst hr
    exact .inl (List.mem_append_right _ (List.mem_singleton.2 rfl))

theorem found_of_finish {i : ℕ} {w : World} {p : Pending} {r : RouteResult}
    (hp : s.pending[i]? = some p) (h : step A s (.finish i w) = some s')
    (hr : s'.results[s.results.length]? = some (.ok r)) : Found s'.log p.data r.endpoint := by
  simp only [step, hp, Option.map_some, Option.some.injEq] at h
  subst h
  exact found_finish hr

theorem cachedCut {as : List Action} (h : run (step A) new as = some s) : CachedCut s.log :=
  (run_inv (fun _ _ _ hs h => step_inv hs h) inv_new h).cached

/-! ## Runs that cross -/

/-- The world in which a callback answers with `endpoint`. -/
def answering (endpoint : Text) : World :=
  ⟨.ok (.string endpoint), .error (.notFound ""), fun _ => .error (.internal ""), true⟩

/-- A call on `d₁` that the callback answers, and then a call on `d₂`. -/
def twoCalls (d₁ d₂ x : Text) : List Action :=
  [.onResolve, .setSkipValidation true, .setCacheTTL 60, .route d₁ 0, .finish 0 (answering x),
    .route d₂ 0]

theorem run_twoCalls (A : Adapter) (d₁ d₂ : Text) {x : Text} (hx : x ≠ [])
    (hd : d₂.take keySize = d₁.take keySize) :
    ∃ s, run (step A) new (twoCalls d₁ d₂ x) = some s
      ∧ s.log = [.asked d₁, .produced d₁ x, .asked d₂, .cached d₂ (x.take endpointSize)] := by
  have hget : (Table.set (fun _ => none) d₁ ⟨x, 0⟩).get d₂ = some ⟨x.take endpointSize, 0⟩ := by
    rw [get_set, if_pos hd]
  have hnone : Table.get (fun _ => none) d₁ = none := rfl
  simp [twoCalls, run, step, new, lookup, hnone, State.finish, produce, resolve, answering, hx,
    hget, Option.filter]

/-- What a run with `twoCalls` answers from the table is the second call's own only if the data are
the same and the endpoint fits. -/
theorem eq_of_cachedOwn_twoCalls {d₁ d₂ x : Text}
    (h : CachedOwn [.asked d₁, .produced d₁ x, .asked d₂, .cached d₂ (x.take endpointSize)]) :
    d₁ = d₂ ∧ x.length ≤ endpointSize := by
  have hmem := h [.asked d₁, .produced d₁ x, .asked d₂] _ [] rfl d₂ _ rfl
  simp only [List.mem_cons, reduceCtorEq, Event.produced.injEq, false_or, List.not_mem_nil,
    or_false] at hmem
  obtain ⟨rfl, hx⟩ := hmem
  exact ⟨rfl, (List.take_eq_self_iff x).1 hx⟩

theorem within_twoCalls {D E : Set Text} {d₁ d₂ x c : Text} (h₁ : d₁ ∈ D) (h₂ : d₂ ∈ D)
    (hx : x ∈ E) : Within D E [.asked d₁, .produced d₁ x, .asked d₂, .cached d₂ c] := by
  refine ⟨fun data hmem => ?_, fun data endpoint hmem => ?_⟩
  · simp only [List.mem_cons, reduceCtorEq, Event.asked.injEq, List.not_mem_nil, or_false,
      false_or] at hmem
    rcases hmem with rfl | rfl
    · exact h₁
    · exact h₂
  · simp only [List.mem_cons, reduceCtorEq, Event.produced.injEq, List.not_mem_nil, or_false,
      false_or] at hmem
    rw [hmem.2]
    exact hx

/-- Where the data in use have different keys and the endpoints fit into their column, a cut is the
endpoint itself and was produced for the same data. -/
theorem cachedOwn_of_cachedCut {D E : Set Text} (hD : Set.InjOn (List.take keySize) D)
    (hE : ∀ x ∈ E, x.length ≤ endpointSize) (hw : Within D E log) (h : CachedCut log) :
    CachedOwn log := by
  intro pre e post hlog data endpoint he
  obtain ⟨hask, data', endpoint', hp, hask', hkey, rfl⟩ := h pre e post hlog data endpoint he
  have hsub : pre ⊆ log := by
    rw [hlog]
    exact List.subset_append_left _ _
  have hdata : data' = data := hD (hw.1 _ (hsub hask')) (hw.1 _ (hsub hask)) hkey
  have hfit : endpoint'.take endpointSize = endpoint' :=
    List.take_of_length_le (hE _ (hw.2 _ _ (hsub hp)))
  rw [hfit, ← hdata]
  exact hp

/-- On data from `D` and with endpoints from `E`, answers from the table are the data's own in every
run exactly if no two members of `D` agree in their first 63 bytes and no member of `E` is longer
than 256. -/
theorem cachedOwn_iff (A : Adapter) {D E : Set Text} (hD : D.Nonempty) (hE : ∃ x ∈ E, x ≠ []) :
    (∀ as s, run (step A) new as = some s → Within D E s.log → CachedOwn s.log)
      ↔ Set.InjOn (List.take keySize) D ∧ ∀ x ∈ E, x.length ≤ endpointSize := by
  constructor
  · intro h
    have hcall : ∀ d₁ ∈ D, ∀ d₂ ∈ D, ∀ x ∈ E, x ≠ [] → d₂.take keySize = d₁.take keySize →
        d₁ = d₂ ∧ x.length ≤ endpointSize := by
      intro d₁ h₁ d₂ h₂ x hx hne hkey
      obtain ⟨s, hrun, hlog⟩ := run_twoCalls A d₁ d₂ hne hkey
      have hown := h _ s hrun (hlog ▸ within_twoCalls h₁ h₂ hx)
      rw [hlog] at hown
      exact eq_of_cachedOwn_twoCalls hown
    refine ⟨fun d₁ h₁ d₂ h₂ hkey => ?_, fun x hx => ?_⟩
    · obtain ⟨x, hx, hne⟩ := hE
      exact (hcall d₁ h₁ d₂ h₂ x hx hne hkey.symm).1
    · obtain ⟨d, hd⟩ := hD
      rcases eq_or_ne x [] with rfl | hne
      · simp
      · exact (hcall d hd d hd x hx hne rfl).2
  · intro h as s hrun hw
    exact cachedOwn_of_cachedCut h.1 h.2 hw (cachedCut hrun)

/-- Two short names and one short endpoint. -/
theorem cachedOwn_iff_short_names :
    ({"resource-1".toList, "resource-2".toList} : Set Text).Nonempty
      ∧ ∀ as s, run (step ⟨.http, true⟩) new as = some s →
        Within {"resource-1".toList, "resource-2".toList} {"8.8.8.8:80".toList} s.log →
        CachedOwn s.log := by
  refine ⟨Set.insert_nonempty _ _, (cachedOwn_iff ⟨.http, true⟩ (Set.insert_nonempty _ _)
    ⟨"8.8.8.8:80".toList, Set.mem_singleton _, by decide⟩).2 ⟨?_, ?_⟩⟩
  · intro d₁ h₁ d₂ h₂ hkey
    rcases h₁ with rfl | rfl <;> rcases h₂ with rfl | rfl
    · rfl
    · exact absurd hkey (by decide)
    · exact absurd hkey (by decide)
    · rfl
  · intro x hx
    rw [Set.mem_singleton_iff.1 hx]
    decide

/-- Two packets of 64 bytes that differ in the last one share a row: the second is answered with
the endpoint of the first. -/
theorem long_packets_cross :
    ¬ ∀ (A : Adapter) (as : List Action) (s : State), run (step A) new as = some s →
      CachedOwn s.log := by
  intro h
  have hne : "203.0.113.1:5432".toList ≠ [] := by decide
  obtain ⟨s, hrun, hlog⟩ := run_twoCalls ⟨.tcp, true⟩ (List.replicate 63 'x' ++ ['1'])
    (List.replicate 63 'x' ++ ['2']) hne (by decide)
  have hown := h _ _ s hrun
  rw [hlog] at hown
  exact absurd (eq_of_cachedOwn_twoCalls hown).1 (by decide)

end Php

end ProtocolProxy
