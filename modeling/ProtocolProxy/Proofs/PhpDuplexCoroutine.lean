import ProtocolProxy.Proofs.PhpCoroutine
import ProtocolProxy.Proofs.PhpDuplex
import ProtocolProxy.Refinement

/-!
# The two models of the coroutine server's sessions

`PhpCoroutine` has the way to the backend alone, packet by packet, with the route and the
transformer; `PhpDuplex` has both ways, byte by byte.  Every run of the second stands for a run of
the first (`run_coroutine`): a packet is sent there when its last byte is written here, or when the
rest of it is dropped.
-/

namespace ProtocolProxy

namespace PhpDuplex

open Machine

variable {ρ : Type} {bufferSize : ℕ} {s s' : State} {fromClient fromBackend : Bytes}

/-- Where the one coroutine is when the other one is here, with so much of the packet written.  It
has closed the connection when the other one begins to wait for the way back. -/
inductive Matching : Main → PhpTcp.Coroutine.Pc → (written : Bytes) → Prop
  | recvFirst : Matching .recvFirst .receiving []
  | connecting (data : Bytes) : Matching (.connecting data) (.routing data) []
  | sendFirst (written rest : Bytes) (begun : Bool) (fresh : begun = false → written = []) :
      Matching (.send true rest begun) (.sendingFirst (written ++ rest)) written
  | send (written rest : Bytes) (begun : Bool) (fresh : begun = false → written = []) :
      Matching (.send false rest begun) (.sending (written ++ rest)) written
  | recv : Matching .recv .reading []
  | pop (limited : Bool) : Matching (.pop limited) .done []
  | returned : Matching .returned .done []

/-- What a session stands for: the same has been read, and the same has been sent as long as nothing
was left out. -/
structure Matches (fromClient : Bytes) (s : State) (t : PhpTcp.Coroutine.State ρ) : Prop where
  client : t.client = s.main.isLoop
  arrived : t.arrived.flatten ++ s.client.inbox ++ s.client.pending = fromClient
  sent : ∃ written, Matching s.main t.pc written
    ∧ (s.backend.cut = false → s.backend.delivered = t.sent.flatten ++ written)

theorem matches_new (fromClient fromBackend : Bytes) :
    Matches fromClient (new fromClient fromBackend)
      (PhpTcp.Coroutine.new : PhpTcp.Coroutine.State ρ) where
  client := rfl
  arrived := rfl
  sent := ⟨[], .recvFirst, fun _ => rfl⟩

section Steps

variable {u : PhpTcp.Setup ρ} {t : PhpTcp.Coroutine.State ρ}

theorem closeConnection_client (t : PhpTcp.Coroutine.State ρ) :
    t.closeConnection.client = false := by
  unfold PhpTcp.Coroutine.State.closeConnection
  split_ifs with h
  · rfl
  · exact Bool.eq_false_of_not_eq_true h

/-- The connection is closed with the loop, and nothing more is read or sent. -/
theorem Matches.close (hsent : s.backend.cut = false → s.backend.delivered = t.sent.flatten ++ [])
    (harrived : t.arrived.flatten ++ s.client.inbox ++ s.client.pending = fromClient)
    (limited failed : Bool) :
    Matches fromClient { s with
        backend := s.backend.close, main := .pop limited, failed := s.failed || failed }
      { t.closeConnection with pc := .done } := by
  obtain ⟨harrived', hsent'⟩ := PhpTcp.Coroutine.closeConnection_frame t
  refine ⟨closeConnection_client t, ?_, [], .pop limited, ?_⟩
  · simp only [harrived']
    exact harrived
  · simp only [hsent']
    exact hsent

/-- A packet's last byte is written, or the rest of it is dropped. -/
theorem Matching.put {first begun : Bool} {rest written : Bytes}
    (h : Matching (.send first rest begun) t.pc written) :
    PhpTcp.Coroutine.step u t (.wrote true) = some (t.put (written ++ rest)) := by
  generalize hpc : t.pc = pc at h
  cases h <;> simp [PhpTcp.Coroutine.step, hpc]

theorem Matching.fail {first begun : Bool} {rest written : Bytes}
    (h : Matching (.send first rest begun) t.pc written) :
    PhpTcp.Coroutine.step u t (.wrote false) = some { t.closeConnection with pc := .done } := by
  generalize hpc : t.pc = pc at h
  cases h <;> simp [PhpTcp.Coroutine.step, hpc]

theorem Matching.fresh {first : Bool} {rest written : Bytes} {pc : PhpTcp.Coroutine.Pc}
    (h : Matching (.send first rest false) pc written) : written = [] := by
  cases h with
  | sendFirst written rest begun fresh => exact fresh rfl
  | send written rest begun fresh => exact fresh rfl

/-- Some more of the packet is written. -/
theorem Matching.write {first begun : Bool} {rest written : Bytes} {pc : PhpTcp.Coroutine.Pc}
    (h : Matching (.send first rest begun) pc written) (n : ℕ) :
    Matching (.send first (rest.drop n) true) pc (written ++ rest.take n) := by
  cases h with
  | sendFirst written rest begun fresh =>
    have hnext := Matching.sendFirst (written ++ rest.take n) (rest.drop n) true nofun
    rwa [List.append_assoc, List.take_append_drop] at hnext
  | send written rest begun fresh =>
    have hnext := Matching.send (written ++ rest.take n) (rest.drop n) true nofun
    rwa [List.append_assoc, List.take_append_drop] at hnext

/-- Every step of a session is matched by the one coroutine, which takes none while bytes move or
the way back goes on. -/
theorem Steps.matched {result : ρ}
    (hsetup : ∀ data, ∃ initialData, u.transformInitialData data result = some initialData)
    (hphase : s.InPhase) (h : Steps s s') (hm : Matches fromClient s t) :
    ∃ inputs t', run (PhpTcp.Coroutine.step u) t inputs = some t' ∧ Matches fromClient s' t' := by
  obtain ⟨hclient, harrived, written, hat, hsent⟩ := hm
  cases h with
  | arriveClient n pos le =>
    refine ⟨[], t, rfl, hclient, ?_, written, hat, hsent⟩
    rw [← harrived]
    simp only [List.append_assoc, List.take_append_drop]
  | arriveBackend | finClient | finBackend | relayReceived | relayEnded | relaySent | relayUnsent
  | relayCut | relayDropped | pushed =>
    exact ⟨[], t, rfl, hclient, harrived, written, hat, hsent⟩
  | first n at_ pos le =>
    rw [at_] at hclient hat
    generalize hpc : t.pc = pc at hat
    cases hat
    have hdata := take_ne_nil pos le
    refine ⟨[.received (some (s.client.inbox.take n))], t.got (s.client.inbox.take n) (.routing _),
      run_singleton.2 ?_, hclient, ?_, [], .connecting _, hsent⟩
    · simp only [PhpTcp.Coroutine.step, hpc]
      rw [if_neg (by simpa using hdata), hclient]
      rfl
    · rw [← harrived]
      simp [PhpTcp.Coroutine.State.got]
  | noFirst failed at_ ends =>
    rw [at_] at hclient hat
    generalize hpc : t.pc = pc at hat
    cases hat
    refine ⟨[.received none], { t with pc := .done }, run_singleton.2 ?_, ?_⟩
    · simp only [PhpTcp.Coroutine.step, hpc]
    · exact ⟨hclient, harrived, [], .returned, hsent⟩
  | connected data at_ =>
    rw [State.InPhase, at_] at hphase
    rw [at_] at hclient hat
    generalize hpc : t.pc = pc at hat
    cases hat
    obtain ⟨initialData, htransform⟩ := hsetup data
    refine ⟨[.routed (some result), .connected true],
      { t with
        result := some result, client := true, initialData := some initialData,
        pc := .sendingFirst data }, ?_, ?_⟩
    · simp [run, PhpTcp.Coroutine.step, hpc, htransform]
    · exact ⟨hphase.isEarly_connecting.symm, harrived, [], .sendFirst [] data false fun _ => rfl,
        hsent⟩
  | refused data at_ =>
    rw [at_] at hclient hat
    generalize hpc : t.pc = pc at hat
    cases hat
    refine ⟨[.routed none], { t with pc := .done }, run_singleton.2 ?_, ?_⟩
    · simp only [PhpTcp.Coroutine.step, hpc]
    · exact ⟨hclient, harrived, [], .returned, hsent⟩
  | sent first begun rest n at_ pos le =>
    rw [State.InPhase, at_] at hphase
    rw [at_, hphase.isLoop_send] at hclient
    rw [at_] at hat
    by_cases hrest : rest.drop n = []
    · have htake : rest.take n = rest := List.take_of_length_le (List.drop_eq_nil_iff.1 hrest)
      refine ⟨[.wrote true], _, run_singleton.2 hat.put, ?_, harrived, [], ?_, fun hcut => ?_⟩
      · exact hclient.trans (Main.isLoop_sent first _).symm
      · simp only [hrest, if_true]
        exact .recv
      · simp [hsent hcut, htake, PhpTcp.Coroutine.State.put]
    · refine ⟨[], t, rfl, ?_, harrived, written ++ rest.take n, ?_, fun hcut => ?_⟩
      · exact hclient.trans (Main.isLoop_sent first _).symm
      · simp only [hrest, if_false]
        exact hat.write n
      · simp [hsent hcut]
  | unsent first failed rest at_ ends =>
    rw [at_] at hat
    obtain rfl := hat.fresh
    exact ⟨[.wrote false], _, run_singleton.2 hat.fail, .close hsent harrived first failed⟩
  | cut first rest at_ =>
    rw [State.InPhase, at_] at hphase
    rw [at_, hphase.isLoop_send] at hclient
    rw [at_] at hat
    refine ⟨[.wrote true], _, run_singleton.2 hat.put, hclient, harrived, [], .recv, fun hcut => ?_⟩
    cases hcut
  | dropped first rest at_ closed => exact absurd closed (hphase.backend_open at_)
  | received n at_ pos le =>
    rw [at_] at hclient hat
    generalize hpc : t.pc = pc at hat
    cases hat
    have hdata := take_ne_nil pos le
    refine ⟨[.received (some (s.client.inbox.take n))], t.got (s.client.inbox.take n) (.sending _),
      run_singleton.2 ?_, ?_, ?_, [], .send [] _ false fun _ => rfl, hsent⟩
    · simp only [PhpTcp.Coroutine.step, hpc]
      rw [if_neg (by simpa using hdata), List.nil_append]
    · simpa [Main.isLoop, PhpTcp.Coroutine.State.got, hdata] using hclient
    · rw [← harrived]
      simp [PhpTcp.Coroutine.State.got]
  | ended failed at_ ends =>
    rw [at_] at hclient hat
    generalize hpc : t.pc = pc at hat
    cases hat
    refine ⟨[.received none], _, run_singleton.2 ?_, .close hsent harrived false failed⟩
    simp only [PhpTcp.Coroutine.step, hpc]
  | popped limited done at_ full =>
    rw [at_] at hclient hat
    generalize hpc : t.pc = pc at hat
    cases hat
    refine ⟨[], t, rfl, hclient, ?_, [], ?_, hsent⟩
    · cases limited <;> exact harrived
    · rw [hpc]
      exact .returned

end Steps

/-- Every run of a session stands for a run of the one coroutine in which the same bytes are read
from the client, and the same are sent to the backend if nothing was left out. -/
theorem run_coroutine (u : PhpTcp.Setup ρ) {result : ρ}
    (hsetup : ∀ data, ∃ initialData, u.transformInitialData data result = some initialData)
    {as : List Action} (h : run (step bufferSize) (new fromClient fromBackend) as = some s) :
    ∃ inputs t, run (PhpTcp.Coroutine.step u) PhpTcp.Coroutine.new inputs = some t
      ∧ Matches fromClient s t := by
  have hnew : ∃ inputs t, run (PhpTcp.Coroutine.step u) PhpTcp.Coroutine.new inputs = some t
      ∧ Matches fromClient (new fromClient fromBackend) t :=
    ⟨[], _, rfl, matches_new fromClient fromBackend⟩
  refine run_inv_with (J := State.InPhase)
    (P := fun s => ∃ inputs t, run (PhpTcp.Coroutine.step u) PhpTcp.Coroutine.new inputs = some t
      ∧ Matches fromClient s t)
    (fun s a s' hs hstep => (steps_of_step hstep).inPhase hs)
    (fun s a s' hphase hs hstep => ?_) (inPhase_new fromClient fromBackend) hnew h
  obtain ⟨inputs, t, hrun, hm⟩ := hs
  obtain ⟨more, t', hmore, hm'⟩ := (steps_of_step hstep).matched hsetup hphase hm
  exact ⟨inputs ++ more, t', run_append.2 ⟨t, hrun, hmore⟩, hm'⟩

end PhpDuplex

end ProtocolProxy
