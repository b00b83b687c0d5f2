import ProtocolProxy.Proofs.PhpDuplex
import ProtocolProxy.Termination

/-!
# A session of the PHP coroutine server ends

Every step takes something off a session (`measure`).  Where no call fails, the two coroutines wait
only for bytes or an end that have not come (`stuck_iff`), so once one of the peers has ended there
is a step to take until both have returned.
-/

namespace ProtocolProxy

namespace PhpDuplex

open Machine

variable {bufferSize : ℕ} {s s' : State} {x : Socket} {rest : Bytes}

/-! ## How much is left -/

def Main.rank : Main → ℕ
  | .recvFirst => 5
  | .connecting _ => 4
  | .send _ _ _ | .recv => 3
  | .pop _ => 1
  | .returned => 0

def Relay.rank : Relay → ℕ
  | .unborn => 3
  | .recv | .send _ _ => 2
  | .push => 1
  | .returned => 0

/-- What is left of a stream: a byte has to come, to be read and to be written, and the end has to
come. -/
def Socket.left (x : Socket) : ℕ :=
  3 * x.pending.length + 2 * x.inbox.length + (!x.eof).toNat

/-- How many steps a session can still take at most. -/
def measure (s : State) : ℕ :=
  s.client.left + s.main.held.length + s.main.rank
    + (s.backend.left + s.relay.held.length + s.relay.rank)

theorem Main.rank_sent (first : Bool) (rest : Bytes) :
    (if rest = [] then Main.recv else Main.send first rest true).rank = 3 := by
  split_ifs <;> rfl

theorem Relay.rank_sent (rest : Bytes) :
    (if rest = [] then Relay.recv else Relay.send rest true).rank = 2 := by
  split_ifs <;> rfl

theorem Steps.measure_lt (hphase : s.InPhase) (h : Steps s s') : measure s' < measure s := by
  unfold measure Socket.left
  cases h with
  | arriveClient n pos le | arriveBackend n pos le born =>
    simp only [List.length_append, List.length_take, List.length_drop]
    omega
  | finClient empty open_ | finBackend empty open_ born =>
    simp only [open_, Bool.not_true, Bool.not_false, Bool.toNat_true, Bool.toNat_false]
    omega
  | first n at_ pos le | received n at_ pos le =>
    simp only [at_, Main.held, Main.rank, List.length_take, List.length_drop, List.length_nil]
    omega
  | relayReceived n at_ pos le =>
    simp only [at_, Relay.held, Relay.rank, List.length_take, List.length_drop, List.length_nil]
    omega
  | connected data at_ =>
    rw [State.InPhase, at_] at hphase
    have hrelay := (hphase.early_of hphase.isEarly_connecting).1
    simp only [at_, hrelay, Main.held, Main.rank, Relay.held, Relay.rank]
    omega
  | sent first begun rest n at_ pos le =>
    simp only [at_, Main.held_sent, Main.rank_sent, List.length_drop]
    simp only [Main.held, Main.rank]
    omega
  | relaySent begun rest n at_ open_ pos le =>
    simp only [at_, Relay.held_sent, Relay.rank_sent, List.length_drop]
    simp only [Relay.held, Relay.rank]
    omega
  | cut first rest at_ | dropped first rest at_ closed =>
    rw [State.InPhase, at_] at hphase
    have hpos := List.length_pos_iff.2 (by simpa [Main.isLoop] using hphase.isLoop_send)
    simp only [at_, Main.held, Main.rank, List.length_nil]
    omega
  | relayCut rest at_ | relayDropped rest at_ closed =>
    rw [State.InPhase, at_] at hphase
    have hpos := List.length_pos_iff.2 (by simpa [Relay.isLoop] using hphase.isLoop_relaySend)
    simp only [at_, Relay.held, Relay.rank, List.length_nil]
    omega
  | noFirst failed at_ ends | refused data at_ | unsent first failed rest at_ ends
  | ended failed at_ ends =>
    simp only [at_, Main.held, Main.rank, Socket.close, List.length_nil]
    omega
  | popped limited done at_ full =>
    cases limited <;>
    · simp only [at_, Main.held, Main.rank, Socket.close, List.length_nil, if_true, if_false,
        Bool.false_eq_true]
      omega
  | relayEnded failed at_ ends | relayUnsent failed rest at_ ends | pushed at_ =>
    simp only [at_, Relay.held, Relay.rank, Socket.close, List.length_nil]
    omega

/-! ## What the coroutines wait for -/

/-- A `recv` that does not fail waits for bytes or for the peer's end. -/
theorem recv_waits_iff (hbuffer : 0 < bufferSize) :
    (∀ r, r ≠ .failed → x.recv bufferSize r = none)
      ↔ x.closed = false ∧ x.inbox = [] ∧ x.eof = false := by
  constructor
  · intro h
    have hopen : x.closed = false := by simpa [Socket.recv] using h .closed (by simp)
    have hinbox : x.inbox = [] := by
      simpa [Socket.recv, hopen, Nat.succ_le_of_lt hbuffer] using h (.data 1) (by simp)
    exact ⟨hopen, hinbox, by simpa [Socket.recv, hopen, hinbox] using h .eof (by simp)⟩
  · rintro ⟨hopen, hinbox, heof⟩ r hr
    cases r with
    | data n =>
      simp only [Socket.recv, hinbox, List.length_nil]
      exact if_neg fun h => by omega
    | eof => simp [Socket.recv, heof]
    | closed => simp [Socket.recv, hopen]
    | failed => exact absurd rfl hr

/-- A `sendAll` ends on a closed socket, and otherwise gets rid of something. -/
theorem exists_send (x : Socket) (begun : Bool) (hrest : rest ≠ []) :
    ∃ w y, w ≠ .failed ∧ x.send begun rest w = some y := by
  by_cases hclosed : x.closed = true
  · exact ⟨.closed, _, nofun, if_pos hclosed⟩
  · rw [Bool.not_eq_true] at hclosed
    exact ⟨.wrote 1, _, nofun, if_pos ⟨hclosed, Nat.one_pos, List.length_pos_iff.2 hrest⟩⟩

theorem isFailure_read {r : Read} (h : r ≠ .failed) : (Input.read r).isFailure = false := by
  cases r with
  | failed => exact absurd rfl h
  | data | eof | closed => rfl

theorem isFailure_write {w : Write} (h : w ≠ .failed) : (Input.write w).isFailure = false := by
  cases w with
  | failed => exact absurd rfl h
  | wrote | closed => rfl

section Stuck

variable (hstuck : Stuck (step bufferSize) IsOwn s)
include hstuck

theorem main_reading (hbuffer : 0 < bufferSize) (hmain : s.main = .recvFirst ∨ s.main = .recv) :
    s.client.closed = false ∧ s.client.inbox = [] ∧ s.client.eof = false := by
  refine (recv_waits_iff hbuffer).1 fun r hr => ?_
  have hread := hstuck (.main (.read r)) (isFailure_read hr)
  rcases hmain with hmain | hmain <;> simpa [step, hmain, State.stepMain] using hread

theorem relay_reading (hbuffer : 0 < bufferSize) (hrelay : s.relay = .recv) :
    s.backend.closed = false ∧ s.backend.inbox = [] ∧ s.backend.eof = false := by
  refine (recv_waits_iff hbuffer).1 fun r hr => ?_
  have hread := hstuck (.relay (.read r)) (isFailure_read hr)
  simpa [step, hrelay, State.stepRelay] using hread

theorem main_not_sending (first begun : Bool) (hrest : rest ≠ []) :
    s.main ≠ .send first rest begun := by
  obtain ⟨w, y, hw, hsend⟩ := exists_send s.backend begun hrest
  have hnone := hstuck (.main (.write w)) (isFailure_write hw)
  intro hmain
  simp [step, hmain, State.stepMain, hsend] at hnone

theorem relay_not_sending (begun : Bool) (hrest : rest ≠ []) : s.relay ≠ .send rest begun := by
  obtain ⟨w, y, hw, hsend⟩ := exists_send s.client begun hrest
  have hnone := hstuck (.relay (.write w)) (isFailure_write hw)
  intro hrelay
  simp [step, hrelay, State.stepRelay, hsend] at hnone

theorem relay_not_pushing : s.relay ≠ .push := by
  have hpush := hstuck (.relay .pushed) rfl
  intro hrelay
  simp [step, hrelay, State.stepRelay] at hpush

theorem main_not_connecting (data : Bytes) : s.main ≠ .connecting data := by
  have hconnect := hstuck (.main (.connected true)) rfl
  intro hmain
  simp [step, hmain, State.stepMain] at hconnect

theorem main_not_popping (hdone : s.done = true) (limited : Bool) : s.main ≠ .pop limited := by
  have hpop := hstuck (.main .popped) rfl
  intro hmain
  simp [step, hmain, State.stepMain, hdone] at hpop

/-- In its loop the client's coroutine waits for the client. -/
theorem main_recv_of_isLoop (hmain : s.main.isLoop = true) : s.main = .recv := by
  cases h : s.main with
  | recv => rfl
  | send first rest begun =>
    rw [h] at hmain
    exact absurd h (main_not_sending hstuck first begun (by simpa [Main.isLoop] using hmain))
  | recvFirst | connecting | pop | returned =>
    rw [h] at hmain
    cases hmain

theorem relay_recv_of_isLoop (hrelay : s.relay.isLoop = true) : s.relay = .recv := by
  cases h : s.relay with
  | recv => rfl
  | send rest begun =>
    rw [h] at hrelay
    exact absurd h (relay_not_sending hstuck begun (by simpa [Relay.isLoop] using hrelay))
  | unborn | push | returned =>
    rw [h] at hrelay
    cases hrelay

/-- Once the backend's socket is closed the way back comes to its end. -/
theorem relay_not_isLoop (hbuffer : 0 < bufferSize) (hclosed : s.backend.closed = true) :
    s.relay.isLoop = false := by
  by_contra hloop
  rw [Bool.not_eq_false] at hloop
  have hwaits := relay_reading hstuck hbuffer (relay_recv_of_isLoop hstuck hloop)
  rw [hclosed] at hwaits
  cases hwaits.1

/-- Where no step is left but for calls that fail, both coroutines have returned or wait. -/
theorem returned_or_waits_of_stuck (hbuffer : 0 < bufferSize) (hphase : s.InPhase)
    (hflow : Flow s) : s.Returned ∨ s.Waits := by
  unfold State.InPhase at hphase
  generalize hmain : s.main = main at hphase
  generalize hrelay : s.relay = relay at hphase
  generalize hclient : s.client.closed = client at hphase
  generalize hbackend : s.backend.closed = backend at hphase
  generalize hdone : s.done = done at hphase
  generalize s.entry = entry at hphase
  cases hphase with
  | early early =>
    cases main with
    | recvFirst =>
      obtain ⟨-, hinbox, heof⟩ := main_reading hstuck hbuffer (.inl hmain)
      exact .inr ⟨heof, hflow.unbornEof hrelay, hinbox, .inl hmain⟩
    | connecting data => exact absurd hmain (main_not_connecting hstuck data)
    | send | recv | pop | returned => cases early
  | refused => exact .inl ⟨hmain, .inl hrelay⟩
  | running loop back =>
    have hrecv := main_recv_of_isLoop hstuck (hmain ▸ loop)
    have hback := relay_recv_of_isLoop hstuck (hrelay ▸ back)
    obtain ⟨-, hinbox, heof⟩ := main_reading hstuck hbuffer (.inr hrecv)
    obtain ⟨-, hinbox', heof'⟩ := relay_reading hstuck hbuffer hback
    exact .inr ⟨heof, heof', hinbox, .inr ⟨hrecv, hback, hinbox'⟩⟩
  | pushing | bothPushing => exact absurd hrelay (relay_not_pushing hstuck)
  | pushed loop =>
    have hwaits := main_reading hstuck hbuffer (.inr (main_recv_of_isLoop hstuck (hmain ▸ loop)))
    rw [hclient] at hwaits
    cases hwaits.1
  | popping limited back =>
    have hloop := relay_not_isLoop hstuck hbuffer hbackend
    rw [hrelay, back] at hloop
    cases hloop
  | bothPushed limited => exact absurd hmain (main_not_popping hstuck hdone limited)
  | returned born =>
    have hloop := relay_not_isLoop hstuck hbuffer hbackend
    rw [hrelay] at hloop
    refine .inl ⟨hmain, .inr ?_⟩
    cases relay with
    | unborn => cases born
    | recv => cases hloop
    | send rest begun =>
      rw [Relay.isBorn] at born
      rw [Relay.isLoop, born] at hloop
      cases hloop
    | push => exact absurd hrelay (relay_not_pushing hstuck)
    | returned => exact hrelay

end Stuck

theorem stuck_of_returned (h : s.Returned) : Stuck (step bufferSize) IsOwn s := by
  obtain ⟨hmain, hrelay⟩ := h
  rintro (_ | _ | input | input) hown
  · cases hown
  · cases hown
  · simp only [step, hmain, State.stepMain]
  · rcases hrelay with hrelay | hrelay <;> simp only [step, hrelay, State.stepRelay]

/-- A `recv` has only its own outcomes. -/
theorem stepMain_eq_none (hmain : s.main = .recvFirst ∨ s.main = .recv)
    (hrecv : ∀ r, r ≠ .failed → s.client.recv bufferSize r = none) {input : Input}
    (hown : input.isFailure = false) : s.stepMain bufferSize s.main input = none := by
  cases input with
  | read r =>
    have hr := hrecv r (by rintro rfl; cases hown)
    rcases hmain with hmain | hmain <;> simp only [hmain, State.stepMain, hr, Option.map_none]
  | connected | write | popped | timedOut | pushed =>
    rcases hmain with hmain | hmain <;> simp only [hmain, State.stepMain]

theorem stepRelay_eq_none (hrelay : s.relay = .recv)
    (hrecv : ∀ r, r ≠ .failed → s.backend.recv bufferSize r = none) {input : Input}
    (hown : input.isFailure = false) : s.stepRelay bufferSize s.relay input = none := by
  cases input with
  | read r =>
    have hr := hrecv r (by rintro rfl; cases hown)
    simp only [hrelay, State.stepRelay, hr, Option.map_none]
  | connected | write | popped | timedOut | pushed => simp only [hrelay, State.stepRelay]

theorem Phase.open_of_recv {client backend done entry : Bool}
    (h : Phase .recv .recv client backend done entry) : client = false ∧ backend = false := by
  cases h with
  | running => exact ⟨rfl, rfl⟩

theorem stuck_of_waits (hbuffer : 0 < bufferSize) (hphase : s.InPhase) (h : s.Waits) :
    Stuck (step bufferSize) IsOwn s := by
  unfold State.InPhase at hphase
  obtain ⟨heof, heof', hinbox, hfirst | ⟨hmain, hrelay, hinbox'⟩⟩ := h
  · obtain ⟨hunborn, hopen, -⟩ := hphase.early_of (by rw [hfirst]; rfl)
    have hrecv := (recv_waits_iff hbuffer).2 ⟨hopen, hinbox, heof⟩
    rintro (_ | _ | input | input) hown
    · cases hown
    · cases hown
    · exact stepMain_eq_none (.inl hfirst) hrecv hown
    · simp only [step, hunborn, State.stepRelay]
  · rw [hmain, hrelay] at hphase
    obtain ⟨hopen, hopen'⟩ := hphase.open_of_recv
    have hrecv := (recv_waits_iff hbuffer).2 ⟨hopen, hinbox, heof⟩
    have hrecv' := (recv_waits_iff hbuffer).2 ⟨hopen', hinbox', heof'⟩
    rintro (_ | _ | input | input) hown
    · cases hown
    · cases hown
    · exact stepMain_eq_none (.inr hmain) hrecv hown
    · exact stepRelay_eq_none hrelay hrecv' hown

theorem stuck_iff (hbuffer : 0 < bufferSize) (hphase : s.InPhase) (hflow : Flow s) :
    Stuck (step bufferSize) IsOwn s ↔ s.Returned ∨ s.Waits :=
  ⟨fun hstuck => returned_or_waits_of_stuck hstuck hbuffer hphase hflow,
    fun h => h.elim stuck_of_returned (stuck_of_waits hbuffer hphase)⟩

/-- A session takes a bounded number of steps.  Where no call fails, it comes to a halt exactly if
both coroutines have returned or nothing is there to be read and neither peer has ended.  When the
client's coroutine has returned, the sockets are closed and the adapter has no connection for the
client. -/
theorem session_ends (bufferSize : ℕ) (hbuffer : 0 < bufferSize) (fromClient fromBackend : Bytes)
    {as : List Action} {s : State}
    (h : run (step bufferSize) (new fromClient fromBackend) as = some s) :
    as.length ≤ 3 * (fromClient.length + fromBackend.length) + 10
      ∧ (Stuck (step bufferSize) IsOwn s ↔ s.Returned ∨ s.Waits)
      ∧ (s.main = .returned → s.client.closed = true ∧ s.entry = false
        ∧ (s.relay ≠ .unborn → s.backend.closed = true)) := by
  have hstep : ∀ (s : State) a s', Inv fromClient fromBackend s → step bufferSize s a = some s' →
      Inv fromClient fromBackend s' := fun _ _ _ hs hstep => step_inv hs hstep
  have hnew := inv_new fromClient fromBackend
  have hs := run_inv hstep hnew h
  refine ⟨?_, stuck_iff hbuffer hs.inPhase hs.flow, fun hmain => ?_⟩
  · have hlen := length_le_of_decreases hstep
      (fun _ _ _ hs hstep => (steps_of_step hstep).measure_lt hs.inPhase) hnew h
    have hmeasure : measure (new fromClient fromBackend)
        = 3 * (fromClient.length + fromBackend.length) + 10 := by
      simp [measure, new, Socket.new, Socket.left, Main.held, Main.rank, Relay.held, Relay.rank]
      omega
    omega
  · have hphase := hs.inPhase
    rw [State.InPhase, hmain] at hphase
    exact hphase.cleared

/-- The client's first bytes are sent to the backend. -/
def firstSent : List Action :=
  [.arrive .client 2, .main (.read (.data 2)), .main (.connected true), .main (.write (.wrote 2))]

theorem session_ends_backendEnds :
    (∃ s, run (step 8) (new [1, 2, 3] [4]) firstSent = some s ∧ s.Waits
      ∧ Stuck (step 8) IsOwn s)
    ∧ ∃ s, run (step 8) (new [1, 2, 3] [4]) backendEnds = some s ∧ s.main = .returned
      ∧ s.client.eof = false ∧ Stuck (step 8) IsOwn s ∧ s.client.closed = true ∧ s.entry = false
      ∧ (s.relay ≠ .unborn → s.backend.closed = true) := by
  constructor
  · have hrun : ∃ s, run (step 8) (new [1, 2, 3] [4]) firstSent = some s ∧ s.Waits :=
      ⟨_, rfl, rfl, rfl, rfl, .inr ⟨rfl, rfl, rfl⟩⟩
    obtain ⟨s, hs, hwaits⟩ := hrun
    exact ⟨s, hs, hwaits, (session_ends 8 (by decide) [1, 2, 3] [4] hs).2.1.2 (.inr hwaits)⟩
  · have hrun : ∃ s, run (step 8) (new [1, 2, 3] [4]) backendEnds = some s ∧ s.main = .returned
        ∧ s.relay = .returned ∧ s.client.eof = false := ⟨_, rfl, rfl, rfl, rfl⟩
    obtain ⟨s, hs, hmain, hrelay, hopen⟩ := hrun
    obtain ⟨-, hstuck, hcleared⟩ := session_ends 8 (by decide) [1, 2, 3] [4] hs
    exact ⟨s, hs, hmain, hopen, hstuck.2 (.inl ⟨hmain, .inr hrelay⟩), hcleared hmain⟩

end PhpDuplex

end ProtocolProxy
