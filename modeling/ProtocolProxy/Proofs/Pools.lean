import ProtocolProxy.Pools
import ProtocolProxy.Proofs.Endpoint
import ProtocolProxy.Proofs.Pool

/-!
# One pool for an authority

The map has the number of a pool for exactly the authority that the pool was created with, so an
authority has one pool (`Inv.map_iff`).  A pool's clients were dialed at its authority
(`Pool.DialedHere`), and a call is a task of the pool of its endpoint's authority.

The text of an authority determines the host and the port, because the host has no colon
(`authority_inj`).
-/

namespace ProtocolProxy

namespace Pools

open Machine Digits

variable {s s' : State} {size i p task : ℕ} {endpoint : Text} {pool pool' : Pool.State}

/-! ## Authorities -/

theorem colon_notMem_host (endpoint : Text) (port : UInt16) :
    ':' ∉ (parseEndpoint endpoint port).1 := by
  by_cases h : ':' ∈ endpoint
  · exact colon_notMem_parseEndpoint h port
  · simp only [parseEndpoint, splitOnce_eq_none.2 h]
    exact h

theorem portText_inj {port port' : UInt16} (h : portText port = portText port') : port = port' := by
  have hparse := congrArg parsePort h
  rw [parsePort_portText, parsePort_portText] at hparse
  exact Option.some.inj hparse

theorem authority_inj {e e' : Text} :
    authority e = authority e' ↔ parseEndpoint e 80 = parseEndpoint e' 80 := by
  refine ⟨fun h => ?_, fun h => by simp only [authority, h]⟩
  have hsplit : ∀ e, splitOnce ':' (authority e)
      = some ((parseEndpoint e 80).1, portText (parseEndpoint e 80).2) :=
    fun e => splitOnce_eq_some.2 ⟨rfl, colon_notMem_host e 80⟩
  have heq := hsplit e
  rw [h, hsplit e'] at heq
  obtain ⟨hhost, hport⟩ := Prod.mk.inj (Option.some.inj heq)
  exact Prod.ext hhost.symm (portText_inj hport.symm)

/-! ## The map and the pools -/

structure Inv (s : State) : Prop where
  map_iff : ∀ a p, s.map a = some p ↔ s.pools[p]?.map Pool.State.endpoint = some a
  here : ∀ pool ∈ s.pools, Pool.DialedHere pool
  calls : ∀ e p t, .pooled e p t ∈ s.calls → s.map (authority e) = some p
  sent : ∀ e c, (e, c) ∈ s.sent → c.endpoint = authority e

theorem inv_new : Inv new where
  map_iff a p := by simp [new]
  here := by simp [new]
  calls := by simp [new]
  sent := by simp [new]

theorem Inv.setPool (h : Inv s) (hp : s.pools[p]? = some pool) {a : Pool.Action}
    (ha : Pool.step pool a = some pool') : Inv { s with pools := s.pools.set p pool' } where
  map_iff b q := by
    rw [h.map_iff]
    by_cases hq : p = q
    · subst hq
      obtain ⟨hlt, -⟩ := List.getElem?_eq_some_iff.1 hp
      rw [List.getElem?_set_self hlt, hp, Option.map_some, Option.map_some,
        (Pool.moves_of_step ha).endpoint_eq]
    · rw [List.getElem?_set_ne hq]
  here q hq := by
    rcases List.mem_or_eq_of_mem_set hq with hq | rfl
    · exact h.here q hq
    · exact (Pool.moves_of_step ha).dialedHere (h.here pool (List.mem_of_getElem? hp))
  calls := h.calls
  sent := h.sent

/-- A call goes on, perhaps as a task of its authority's pool. -/
theorem Inv.setCall (h : Inv s) {call : Call}
    (hcall : ∀ e p t, call = .pooled e p t → s.map (authority e) = some p) :
    Inv { s with calls := s.calls.set i call } where
  map_iff := h.map_iff
  here := h.here
  calls e p t hmem := by
    rcases List.mem_or_eq_of_mem_set hmem with hmem | heq
    · exact h.calls e p t hmem
    · exact hcall e p t heq.symm
  sent := h.sent

theorem Inv.enter (h : Inv s) (hmap : s.map (authority endpoint) = some p)
    (hs' : s.enter i endpoint p = some s') : Inv s' := by
  unfold State.enter at hs'
  obtain ⟨pool, hp, hs'⟩ := Option.bind_eq_some_iff.1 hs'
  obtain ⟨pool', ha, hs'⟩ := Option.bind_eq_some_iff.1 hs'
  obtain rfl := Option.some.inj hs'
  refine (h.setPool hp ha).setCall fun e q t heq => ?_
  cases heq
  exact hmap

theorem Inv.create (h : Inv s) {a : Text} (hnone : s.map a = none) : Inv (s.create size a) where
  map_iff b q := by
    -- no pool there was has the new authority
    have hold : ∀ q : ℕ, s.pools[q]?.map Pool.State.endpoint ≠ some a := by
      intro q hq
      rw [(h.map_iff a q).2 hq] at hnone
      cases hnone
    show Function.update s.map a (some s.pools.length) b = some q
      ↔ (s.pools ++ [Pool.new a size])[q]?.map Pool.State.endpoint = some b
    rcases lt_trichotomy q s.pools.length with hq | rfl | hq
    · rw [List.getElem?_append_left hq]
      by_cases hb : b = a
      · subst hb
        rw [Function.update_self]
        refine ⟨fun heq => ?_, fun heq => absurd heq (hold q)⟩
        have hlen := Option.some.inj heq
        omega
      · rw [Function.update_of_ne hb]
        exact h.map_iff b q
    · rw [List.getElem?_concat_length]
      by_cases hb : b = a
      · subst hb
        simp [Pool.new]
      · rw [Function.update_of_ne hb, h.map_iff]
        simp [Pool.new, Ne.symm hb]
    · rw [List.getElem?_eq_none (by simp; omega)]
      by_cases hb : b = a
      · subst hb
        rw [Function.update_self]
        simp
        omega
      · rw [Function.update_of_ne hb, h.map_iff, List.getElem?_eq_none (by omega)]
  here pool hpool := by
    rcases List.mem_append.1 hpool with hpool | hpool
    · exact h.here pool hpool
    · rw [List.mem_singleton.1 hpool]
      exact Pool.dialedHere_new a size
  calls e p t hmem := by
    have hmap := h.calls e p t hmem
    have hne : authority e ≠ a := by
      intro heq
      rw [heq, hnone] at hmap
      cases hmap
    show Function.update s.map a (some s.pools.length) (authority e) = some p
    rw [Function.update_of_ne hne]
    exact hmap
  sent := h.sent

/-- The client that a call holds was dialed at the call's authority. -/
theorem Inv.dialed_at (h : Inv s) (hcall : .pooled endpoint p task ∈ s.calls) {permit : Bool}
    {client : Pool.Client}
    (htask : (s.pools[p]?.bind fun pool => pool.tasks[task]?) = some (.holding permit client)) :
    client.endpoint = authority endpoint := by
  obtain ⟨pool, hp, ht⟩ := Option.bind_eq_some_iff.1 htask
  have hendpoint := (h.map_iff _ _).1 (h.calls _ _ _ hcall)
  rw [hp, Option.map_some] at hendpoint
  have hhere := h.here pool (List.mem_of_getElem? hp)
  rw [hhere.held permit client (List.mem_of_getElem? ht)]
  exact Option.some.inj hendpoint

theorem step_inv (a : Action) (h : Inv s) (hs' : step size s a = some s') : Inv s' := by
  cases a with
  | forward endpoint =>
    obtain rfl := Option.some.inj hs'
    exact ⟨h.map_iff, h.here, fun e p t hmem => h.calls e p t (by simpa using hmem), h.sent⟩
  | get i =>
    simp only [step] at hs'
    split at hs'
    · next endpoint _ =>
      split at hs'
      · next p hmap => exact h.enter hmap hs'
      · obtain rfl := Option.some.inj hs'
        exact h.setCall nofun
    · cases hs'
  | entry i =>
    simp only [step] at hs'
    split at hs'
    · next endpoint _ =>
      split at hs'
      · next p hmap => exact h.enter hmap hs'
      · next hnone => exact (h.create hnone).enter (Function.update_self _ _ _) hs'
    · cases hs'
  | pool p task move =>
    simp only [step] at hs'
    obtain ⟨pool, hp, hs'⟩ := Option.bind_eq_some_iff.1 hs'
    obtain ⟨pool', ha, hs'⟩ := Option.bind_eq_some_iff.1 hs'
    obtain rfl := Option.some.inj hs'
    exact h.setPool hp ha
  | send i =>
    simp only [step] at hs'
    split at hs'
    · next endpoint p task hcall =>
      split at hs'
      · next permit client htask =>
        obtain rfl := Option.some.inj hs'
        refine ⟨h.map_iff, h.here, h.calls, fun e c hmem => ?_⟩
        rcases List.mem_append.1 hmem with hmem | hmem
        · exact h.sent e c hmem
        · cases List.mem_singleton.1 hmem
          exact h.dialed_at (List.mem_of_getElem? hcall) htask
      · cases hs'
    · cases hs'

theorem Inv.separate (h : Inv s) : Separate s where
  sent := h.sent
  one := by
    rw [List.nodup_iff_injective_get]
    intro i j hij
    have hat : ∀ k : Fin (s.pools.map Pool.State.endpoint).length,
        s.map ((s.pools.map Pool.State.endpoint).get k) = some k.val := by
      intro k
      rw [h.map_iff, ← List.getElem?_map]
      exact List.getElem?_eq_getElem k.isLt
    have hsome := hat i
    rw [hij, hat j] at hsome
    exact Fin.ext (Option.some.inj hsome).symm
  shared e e' p p' t t' hcall hcall' := by
    have hp := h.calls e p t hcall
    have hp' := h.calls e' p' t' hcall'
    rw [← authority_inj]
    constructor
    · rintro rfl
      have heq := (h.map_iff _ _).1 hp
      rw [(h.map_iff _ _).1 hp'] at heq
      exact (Option.some.inj heq).symm
    · intro heq
      rw [heq, hp'] at hp
      exact (Option.some.inj hp).symm

/-- Along every run of concurrent calls, requests stay with their own backends. -/
theorem separate_of_run (size : ℕ) {as : List Action} {s : State}
    (h : run (step size) new as = some s) : Separate s :=
  (run_inv (fun _ a _ hs hstep => step_inv a hs hstep) inv_new h).separate

/-- Two calls for one backend, written in two ways, that both find no pool at first. -/
theorem separate_of_run_two_calls : ∃ s,
    run (step 4) new [.forward "b".toList, .forward "b:80".toList, .get 0, .get 1, .entry 0,
      .entry 1, .pool 0 0 .permit, .pool 0 0 (.pop true), .pool 0 0 .connected, .send 0] = some s
    ∧ s.calls = [.pooled "b".toList 0 0, .pooled "b:80".toList 0 1]
    ∧ s.sent = [("b".toList, ⟨0, "b:80".toList, true⟩)] ∧ Separate s := by
  have hrun : ∃ s, run (step 4) new [.forward "b".toList, .forward "b:80".toList, .get 0, .get 1,
      .entry 0, .entry 1, .pool 0 0 .permit, .pool 0 0 (.pop true), .pool 0 0 .connected, .send 0]
        = some s
    ∧ s.calls = [.pooled "b".toList 0 0, .pooled "b:80".toList 0 1]
    ∧ s.sent = [("b".toList, ⟨0, "b:80".toList, true⟩)] := ⟨_, rfl, rfl, rfl⟩
  obtain ⟨s, hs, hcalls, hsent⟩ := hrun
  exact ⟨s, hs, hcalls, hsent, separate_of_run 4 hs⟩

end Pools

end ProtocolProxy
