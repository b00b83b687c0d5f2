import ProtocolProxy.PhpSessions
import ProtocolProxy.Proofs.PhpDuplex
import ProtocolProxy.Slots

/-!
# Every client of the PHP coroutine server has a backend of its own

An entry of the adapter's table is there from a client's dial to its `closeConnection`, which comes
before its coroutine returns and its id can be given away.  So while a client is in `getConnection`
there is no entry under its id, because an entry belongs to a client that is still there and no two
of these have the same id (`Inv.adapter_eq_none`).
-/

namespace ProtocolProxy

namespace PhpSessions

open Machine Slots

variable {bufferSize : ℕ} {s s' : State} {i j : ℕ} {x x' y : Session}

theorem isLive_of_entry (hphase : x.duplex.InPhase) (hentry : x.duplex.entry = true) :
    x.isLive = true := by
  unfold PhpDuplex.State.InPhase at hphase
  simp only [Session.isLive, decide_eq_true_eq]
  intro hmain
  rw [hmain, hentry] at hphase
  cases hphase.cleared.2.1

structure Inv (s : State) : Prop where
  inPhase : ∀ x ∈ s.sessions, x.duplex.InPhase
  distinct : ∀ (i : ℕ) x, s.sessions[i]? = some x → ∀ (j : ℕ) y, s.sessions[j]? = some y →
    x.isLive = true → y.isLive = true → x.id = y.id → i = j
  adapter : ∀ (id i : ℕ), s.adapter id = some i ↔
    ∃ x, s.sessions[i]? = some x ∧ x.id = id ∧ x.duplex.entry = true
  got : ∀ (i : ℕ) x, s.sessions[i]? = some x → ∀ j, x.got = some j → j = i
  count : s.connections = s.sessions.countP Session.isLive

theorem inv_new : Inv new where
  inPhase := by simp [new]
  distinct := by simp [new]
  adapter := by simp [new]
  got := by simp [new]
  count := rfl

/-- No other client that is still there has this client's id. -/
theorem Inv.eq_of_entry (hs : Inv s) (hi : s.sessions[i]? = some x) (hj : s.sessions[j]? = some y)
    (hlive : x.isLive = true) (hentry : y.duplex.entry = true) (hid : y.id = x.id) : j = i :=
  hs.distinct j y hj i x hi (isLive_of_entry (hs.inPhase y (List.mem_of_getElem? hj)) hentry) hlive
    hid

/-- A client that is in `getConnection` finds nothing in the table. -/
theorem Inv.adapter_eq_none (hs : Inv s) (hi : s.sessions[i]? = some x)
    (hconn : x.isConnecting = true) : s.adapter x.id = none := by
  have hphase := hs.inPhase x (List.mem_of_getElem? hi)
  unfold Session.isConnecting at hconn
  split at hconn
  next data hmain =>
    rw [PhpDuplex.State.InPhase, hmain] at hphase
    have hentry := (hphase.early_of hphase.isEarly_connecting).2.2.2.2
    rcases hadapter : s.adapter x.id with _ | j
    · rfl
    · obtain ⟨y, hj, hid, hyentry⟩ := (hs.adapter x.id j).1 hadapter
      obtain rfl := hs.eq_of_entry hi hj (by simp [Session.isLive, hmain]) hyentry hid
      rw [hi, Option.some.injEq] at hj
      subst hj
      rw [hentry] at hyentry
      cases hyentry
  next => cases hconn

theorem Inv.put_adapter (hs : Inv s) (hi : s.sessions[i]? = some x) (hid : x'.id = x.id)
    (hphase : x'.duplex.InPhase) (hlive : x'.isLive = true → x.isLive = true) (id j : ℕ) :
    (s.put i x x').adapter id = some j ↔
      ∃ y, (s.sessions.set i x')[j]? = some y ∧ y.id = id ∧ y.duplex.entry = true := by
  by_cases hij : i = j
  · subst hij
    have hset : (s.sessions.set i x')[i]? = some x' :=
      List.getElem?_set_self (List.getElem?_eq_some_iff.1 hi).1
    have hold : s.adapter id = some i ↔ x.id = id ∧ x.duplex.entry = true := by
      rw [hs.adapter]
      simp [hi]
    simp only [State.put, hset, Option.some.injEq, exists_eq_left', hid]
    by_cases hxid : id = x.id
    · subst hxid
      split_ifs with heq hentry <;> simp_all
    · split_ifs <;> simp [Function.update_of_ne hxid, hold, Ne.symm hxid]
  · rw [List.getElem?_set_ne hij, ← hs.adapter]
    simp only [State.put]
    split_ifs with heq hentry
    · rfl
    all_goals
      by_cases hxid : id = x.id
      · -- no other client has an entry under this id
        subst hxid
        have hxlive : x.isLive = true := by
          by_cases hentry' : x'.duplex.entry = true
          · exact hlive (isLive_of_entry hphase hentry')
          · refine isLive_of_entry (hs.inPhase x (List.mem_of_getElem? hi)) ?_
            simp_all
        have hnone : s.adapter x.id ≠ some j := by
          intro hadapter
          obtain ⟨y, hj, hyid, hyentry⟩ := (hs.adapter x.id j).1 hadapter
          exact hij (hs.eq_of_entry hi hj hxlive hyentry hyid).symm
        simp [hij, hnone]
      · rw [Function.update_of_ne hxid]

theorem Inv.put (hs : Inv s) (hi : s.sessions[i]? = some x) (hid : x'.id = x.id)
    (hphase : x'.duplex.InPhase) (hlive : x'.isLive = true → x.isLive = true)
    (hgot : ∀ j, x'.got = some j → j = i) : Inv (s.put i x x') where
  inPhase y hy := by
    rcases List.mem_or_eq_of_mem_set hy with hy | rfl
    · exact hs.inPhase y hy
    · exact hphase
  distinct := by
    have hone : ∀ (j : ℕ) y, j ≠ i → s.sessions[j]? = some y → x'.isLive = true →
        y.isLive = true → x'.id = y.id → i = j := fun j y _ hj hx' hy heq =>
      hs.distinct i x hi j y hj (hlive hx') hy (hid ▸ heq)
    refine forall_set (forall_set (fun _ _ _ => rfl) hone) fun j y hij hj => ?_
    refine forall_set (fun hy hx' heq => ?_) fun k z _ hk => hs.distinct j y hj k z hk
    exact (hone j y hij hj hx' hy heq.symm).symm
  adapter := hs.put_adapter hi hid hphase hlive
  got := forall_set hgot fun j y _ hj => hs.got j y hj
  count := by
    have hcount := (replaces_set hi x').countP Session.isLive
    simp only [State.put, hs.count]
    split_ifs with hlost
    · simp only [Bool.and_eq_true, Bool.not_eq_true'] at hlost
      rw [hlost.1, hlost.2, Bool.toNat_true, Bool.toNat_false] at hcount
      omega
    · have hsame : x'.isLive = x.isLive := by
        cases hx' : x'.isLive
        · simpa [hx'] using hlost
        · exact (hlive hx').symm
      rw [hsame] at hcount
      omega

/-- A client goes on with a step of its session. -/
theorem Inv.session (hs : Inv s) (hi : s.sessions[i]? = some x) {a : PhpDuplex.Action}
    {duplex : PhpDuplex.State} (h : PhpDuplex.step bufferSize x.duplex a = some duplex)
    {got : Option ℕ} (hgot : ∀ j, got = some j → j = i) :
    Inv (s.put i x { x with duplex := duplex, got := got }) := by
  have hsteps := PhpDuplex.steps_of_step h
  refine hs.put hi rfl (hsteps.inPhase (hs.inPhase x (List.mem_of_getElem? hi))) (fun hlive => ?_)
    hgot
  simp only [Session.isLive, decide_eq_true_eq] at hlive ⊢
  exact fun hmain => hlive (hsteps.returned hmain)

theorem Inv.lookup (hs : Inv s) (hi : s.sessions[i]? = some x) (hconn : x.isConnecting = true)
    {next : Get} (h : s.lookup bufferSize i x next = some s') : Inv s' := by
  rw [State.lookup, hs.adapter_eq_none hi hconn] at h
  cases h
  have hput : { s with sessions := s.sessions.set i { x with get := next } }
      = s.put i x { x with get := next } := by
    simp [State.put, Session.isLive]
  rw [hput]
  exact hs.put hi rfl (hs.inPhase x (List.mem_of_getElem? hi)) id (hs.got i x hi)

theorem Inv.connected (hs : Inv s) (hi : s.sessions[i]? = some x) {ok : Bool}
    (h : s.connected bufferSize i x ok = some s') : Inv s' := by
  obtain ⟨duplex, hd, rfl⟩ := Option.map_eq_some_iff.1 h
  refine hs.session hi hd fun j hj => ?_
  split_ifs at hj
  exact (Option.some.inj hj).symm

theorem Inv.accept (hs : Inv s) {id : ℕ} (hfree : ∀ x ∈ s.sessions, x.isLive = true → x.id ≠ id)
    (fromClient fromBackend : Bytes) :
    Inv { s with
      sessions := s.sessions ++ [⟨id, PhpDuplex.new fromClient fromBackend, .looking, none⟩]
      connections := s.connections + 1 } where
  inPhase x hx := by
    rcases List.mem_append.1 hx with hx | hx
    · exact hs.inPhase x hx
    · rw [List.mem_singleton.1 hx]
      exact PhpDuplex.inPhase_new fromClient fromBackend
  distinct := by
    refine forall_concat (forall_concat (fun _ _ _ => rfl) fun k z hk _ hz heq => ?_)
      fun j y hj => forall_concat (fun hy _ heq => ?_) fun k z hk => hs.distinct j y hj k z hk
    · exact absurd heq.symm (hfree z (List.mem_of_getElem? hk) hz)
    · exact absurd heq (hfree y (List.mem_of_getElem? hj) hy)
  adapter id' i := by
    rw [hs.adapter]
    constructor
    · rintro ⟨x, hi, hrest⟩
      exact ⟨x, (List.getElem?_append_left (List.getElem?_eq_some_iff.1 hi).1).trans hi, hrest⟩
    · rintro ⟨x, hi, hid, hentry⟩
      refine forall_concat (P := fun i x => x.duplex.entry = true → x.id = id' →
        ∃ x, s.sessions[i]? = some x ∧ x.id = id' ∧ x.duplex.entry = true) (fun h => ?_)
        (fun i x hi hentry hid => ⟨x, hi, hid, hentry⟩) i x hi hentry hid
      cases h
  got := forall_concat (fun _ h => by cases h) hs.got
  count := by
    rw [hs.count, List.countP_append]
    rfl

theorem step_inv (hs : Inv s) {a : Action} (h : step bufferSize s a = some s') : Inv s' := by
  cases a with
  | accept id fromClient fromBackend =>
    simp only [step] at h
    split_ifs at h with hused
    cases h
    exact hs.accept (by simpa using hused) fromClient fromBackend
  | get i =>
    obtain ⟨x, hi, h⟩ := Option.bind_eq_some_iff.1 h
    split_ifs at h with hx
    rw [Bool.and_eq_true] at hx
    exact hs.lookup hi hx.1 h
  | routed i ok =>
    obtain ⟨x, hi, h⟩ := Option.bind_eq_some_iff.1 h
    split_ifs at h with hx hok
    · rw [Bool.and_eq_true] at hx
      exact hs.lookup hi hx.1 h
    · exact hs.connected hi h
  | dialed i ok =>
    obtain ⟨x, hi, h⟩ := Option.bind_eq_some_iff.1 h
    split_ifs at h with hx
    exact hs.connected hi h
  | session i a =>
    obtain ⟨x, hi, h⟩ := Option.bind_eq_some_iff.1 h
    split_ifs at h with hx
    obtain ⟨duplex, hd, rfl⟩ := Option.map_eq_some_iff.1 h
    exact hs.session hi hd (hs.got i x hi)

/-- However the clients come and go and whichever ids they are given, the connection that a client
gets was dialed for itself.  The adapter keeps no connection of a client whose coroutine has
returned, and the server counts the clients whose coroutines have not. -/
theorem own_backend (bufferSize : ℕ) {as : List Action} {s : State}
    (h : run (step bufferSize) new as = some s) :
    (∀ (i : ℕ) x, s.sessions[i]? = some x → ∀ j, x.got = some j → j = i)
      ∧ (∀ id i, s.adapter id = some i →
        ∃ x, s.sessions[i]? = some x ∧ x.id = id ∧ x.isLive = true)
      ∧ s.connections = s.sessions.countP Session.isLive := by
  have hs : Inv s := run_inv (fun _ _ _ hs hstep => step_inv hs hstep) inv_new h
  refine ⟨hs.got, fun id i hadapter => ?_, hs.count⟩
  obtain ⟨x, hi, hid, hentry⟩ := (hs.adapter id i).1 hadapter
  exact ⟨x, hi, hid, isLive_of_entry (hs.inPhase x (List.mem_of_getElem? hi)) hentry⟩

/-- Two clients one after the other under the same id. -/
def sameId : List Action :=
  [.accept 7 [1] [], .session 0 (.arrive .client 1), .session 0 (.main (.read (.data 1))), .get 0,
    .routed 0 true, .dialed 0 true, .session 0 (.main (.write .failed)),
    .session 0 (.main .timedOut), .accept 7 [2] [], .session 1 (.arrive .client 1),
    .session 1 (.main (.read (.data 1))), .get 1, .routed 1 true, .dialed 1 true]

theorem own_backend_sameId :
    ∃ s, run (step 8) new sameId = some s ∧ s.adapter 7 = some 1
      ∧ s.connections = s.sessions.countP Session.isLive
      ∧ ∃ x, s.sessions[1]? = some x ∧ x.id = 7 ∧ x.isLive = true := by
  have hrun : ∃ s, run (step 8) new sameId = some s ∧ s.adapter 7 = some 1 := ⟨_, rfl, rfl⟩
  obtain ⟨s, hs, hadapter⟩ := hrun
  have hown := own_backend 8 hs
  exact ⟨s, hs, hadapter, hown.2.2, hown.2.1 7 1 hadapter⟩

end PhpSessions

end ProtocolProxy
