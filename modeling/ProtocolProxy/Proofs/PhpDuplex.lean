import ProtocolProxy.Machine
import ProtocolProxy.PhpDuplex

/-!
# What a session of the PHP coroutine server delivers

The sockets and the channel say where the coroutines are: the way back closes the client's socket
when its loop ends, and the client's coroutine closes the backend's socket when its own does
(`Phase`).  Both directions conserve what they carry while their loops run and no `sendAll` stops in
the middle of its data (`Flow`).  So a loop that is broken off by a closed socket was broken off by
the end of the other one, and where no call has failed the first of the two to end had come to the
end of its stream (`Ended`).
-/

namespace ProtocolProxy

namespace PhpDuplex

open Machine Stream

variable {bufferSize : ℕ} {s s' : State} {a : Action} {x x' : Socket} {data rest : Bytes}

/-! ## Steps -/

theorem recv_eq_data {r : Read} (h : x.recv bufferSize r = some (some (data, x'))) :
    ∃ n, 0 < n ∧ n ≤ x.inbox.length ∧ data = x.inbox.take n
      ∧ x' = { x with inbox := x.inbox.drop n } := by
  cases r with
  | data n =>
    simp only [Socket.recv] at h
    split_ifs at h with hn
    cases h
    exact ⟨n, hn.2.1, hn.2.2.2, rfl, rfl⟩
  | eof | closed | failed =>
    simp only [Socket.recv] at h
    split_ifs at h
    cases h

/-- Why a loop ends at `recv`. -/
inductive Ends (x : Socket) : Bool → Prop
  | eof (open_ : x.closed = false) (empty : x.inbox = []) (ended : x.eof = true) : Ends x false
  | closed (closed : x.closed = true) : Ends x false
  | failed : Ends x true

theorem recv_eq_none {r : Read} (h : x.recv bufferSize r = some none) :
    Ends x (decide (r = .failed)) := by
  cases r with
  | data n =>
    simp only [Socket.recv] at h
    split_ifs at h
    cases h
  | eof =>
    simp only [Socket.recv] at h
    split_ifs at h with hx
    exact .eof hx.1 hx.2.1 hx.2.2
  | closed =>
    simp only [Socket.recv] at h
    split_ifs at h with hx
    exact .closed hx
  | failed => exact .failed

/-- What a step of `sendAll` can be. -/
inductive Sends (x : Socket) : (begun : Bool) → Bytes → Write → Option (Bytes × Socket) → Prop
  | wrote (begun : Bool) (rest : Bytes) (n : ℕ) (open_ : x.closed = false) (pos : 0 < n)
      (le : n ≤ rest.length) :
      Sends x begun rest (.wrote n)
        (some (rest.drop n, { x with delivered := x.delivered ++ rest.take n }))
  | unsent (rest : Bytes) (w : Write) (ends : x.closed = true ∨ w = .failed) :
      Sends x false rest w none
  | closed (rest : Bytes) (closed : x.closed = true) : Sends x true rest .closed (some ([], x))
  | cut (rest : Bytes) : Sends x true rest .failed (some ([], { x with cut := true }))

theorem sends_of_send {begun : Bool} {w : Write} {y : Option (Bytes × Socket)}
    (h : x.send begun rest w = some y) : Sends x begun rest w y := by
  cases w with
  | wrote n =>
    simp only [Socket.send] at h
    split_ifs at h with hn
    cases h
    exact .wrote begun rest n hn.1 hn.2.1 hn.2.2
  | closed =>
    simp only [Socket.send] at h
    split_ifs at h with hclosed hbegun
    · cases h
      subst hbegun
      exact .closed rest hclosed
    · cases h
      rw [Bool.not_eq_true] at hbegun
      subst hbegun
      exact .unsent rest _ (.inl hclosed)
  | failed =>
    simp only [Socket.send] at h
    split_ifs at h with hopen hbegun
    · cases h
      subst hbegun
      exact .cut rest
    · cases h
      rw [Bool.not_eq_true] at hbegun
      subst hbegun
      exact .unsent rest _ (.inr rfl)

/-- What a step can be. -/
inductive Steps (s : State) : State → Prop
  | arriveClient (n : ℕ) (pos : 0 < n) (le : n ≤ s.client.pending.length) :
      Steps s { s with client := { s.client with
        inbox := s.client.inbox ++ s.client.pending.take n
        pending := s.client.pending.drop n } }
  | arriveBackend (n : ℕ) (pos : 0 < n) (le : n ≤ s.backend.pending.length)
      (born : s.relay ≠ .unborn) :
      Steps s { s with backend := { s.backend with
        inbox := s.backend.inbox ++ s.backend.pending.take n
        pending := s.backend.pending.drop n } }
  | finClient (empty : s.client.pending = []) (open_ : s.client.eof = false) :
      Steps s { s with client := { s.client with eof := true } }
  | finBackend (empty : s.backend.pending = []) (open_ : s.backend.eof = false)
      (born : s.relay ≠ .unborn) : Steps s { s with backend := { s.backend with eof := true } }
  | first (n : ℕ) (at_ : s.main = .recvFirst) (pos : 0 < n) (le : n ≤ s.client.inbox.length) :
      Steps s { s with
        client := { s.client with inbox := s.client.inbox.drop n }
        main := .connecting (s.client.inbox.take n) }
  | noFirst (failed : Bool) (at_ : s.main = .recvFirst) (ends : Ends s.client failed) :
      Steps s { s with
        client := s.client.close, main := .returned, failed := s.failed || failed }
  | connected (data : Bytes) (at_ : s.main = .connecting data) :
      Steps s { s with entry := true, relay := .recv, main := .send true data false }
  | refused (data : Bytes) (at_ : s.main = .connecting data) :
      Steps s { s with client := s.client.close, main := .returned, failed := true }
  | sent (first begun : Bool) (rest : Bytes) (n : ℕ) (at_ : s.main = .send first rest begun)
      (pos : 0 < n) (le : n ≤ rest.length) :
      Steps s { s with
        backend := { s.backend with delivered := s.backend.delivered ++ rest.take n }
        main := if rest.drop n = [] then .recv else .send first (rest.drop n) true }
  | unsent (first failed : Bool) (rest : Bytes) (at_ : s.main = .send first rest false)
      (ends : s.backend.closed = true ∨ failed = true) :
      Steps s { s with
        backend := s.backend.close, main := .pop first, failed := s.failed || failed }
  | cut (first : Bool) (rest : Bytes) (at_ : s.main = .send first rest true) :
      Steps s { s with
        backend := { s.backend with cut := true }, main := .recv, failed := true }
  | dropped (first : Bool) (rest : Bytes) (at_ : s.main = .send first rest true)
      (closed : s.backend.closed = true) : Steps s { s with main := .recv }
  | received (n : ℕ) (at_ : s.main = .recv) (pos : 0 < n) (le : n ≤ s.client.inbox.length) :
      Steps s { s with
        client := { s.client with inbox := s.client.inbox.drop n }
        main := .send false (s.client.inbox.take n) false }
  | ended (failed : Bool) (at_ : s.main = .recv) (ends : Ends s.client failed) :
      Steps s { s with
        backend := s.backend.close, main := .pop false, failed := s.failed || failed }
  | popped (limited done : Bool) (at_ : s.main = .pop limited)
      (full : s.done = true ∨ limited = true) :
      Steps s { s with
        client := if limited then s.client.close else s.client
        done := done, entry := false, main := .returned }
  | relayReceived (n : ℕ) (at_ : s.relay = .recv) (pos : 0 < n) (le : n ≤ s.backend.inbox.length) :
      Steps s { s with
        backend := { s.backend with inbox := s.backend.inbox.drop n }
        relay := .send (s.backend.inbox.take n) false }
  | relayEnded (failed : Bool) (at_ : s.relay = .recv) (ends : Ends s.backend failed) :
      Steps s { s with client := s.client.close, relay := .push, failed := s.failed || failed }
  | relaySent (begun : Bool) (rest : Bytes) (n : ℕ) (at_ : s.relay = .send rest begun)
      (open_ : s.client.closed = false) (pos : 0 < n) (le : n ≤ rest.length) :
      Steps s { s with
        client := { s.client with delivered := s.client.delivered ++ rest.take n }
        relay := if rest.drop n = [] then .recv else .send (rest.drop n) true }
  | relayUnsent (failed : Bool) (rest : Bytes) (at_ : s.relay = .send rest false)
      (ends : s.client.closed = true ∨ failed = true) :
      Steps s { s with client := s.client.close, relay := .push, failed := s.failed || failed }
  | relayCut (rest : Bytes) (at_ : s.relay = .send rest true) :
      Steps s { s with client := { s.client with cut := true }, relay := .recv, failed := true }
  | relayDropped (rest : Bytes) (at_ : s.relay = .send rest true)
      (closed : s.client.closed = true) : Steps s { s with relay := .recv }
  | pushed (at_ : s.relay = .push) : Steps s { s with done := true, relay := .returned }

theorem steps_of_stepMain {main : Main} {input : Input} (hmain : s.main = main)
    (h : s.stepMain bufferSize main input = some s') : Steps s s' := by
  cases main with
  | recvFirst =>
    cases input with
    | read r =>
      obtain ⟨_ | ⟨data, x'⟩, hr, rfl⟩ := Option.map_eq_some_iff.1 h
      · exact .noFirst _ hmain (recv_eq_none hr)
      · obtain ⟨n, hpos, hle, rfl, rfl⟩ := recv_eq_data hr
        exact .first n hmain hpos hle
    | connected | write | popped | timedOut | pushed => cases h
  | connecting data =>
    cases input with
    | connected ok =>
      simp only [State.stepMain] at h
      split_ifs at h <;> cases h
      · exact .connected data hmain
      · exact .refused data hmain
    | read | write | popped | timedOut | pushed => cases h
  | send first rest begun =>
    cases input with
    | write w =>
      obtain ⟨y, hw, rfl⟩ := Option.map_eq_some_iff.1 h
      cases sends_of_send hw with
      | wrote begun rest n open_ pos le =>
        simp only [reduceCtorEq, decide_false, Bool.or_false]
        exact .sent first begun rest n hmain pos le
      | unsent rest w ends => exact .unsent first _ rest hmain (by simpa using ends)
      | closed rest closed =>
        simp only [reduceCtorEq, decide_false, Bool.or_false]
        exact .dropped first rest hmain closed
      | cut rest =>
        simp only [decide_true, Bool.or_true]
        exact .cut first rest hmain
    | read | connected | popped | timedOut | pushed => cases h
  | recv =>
    cases input with
    | read r =>
      obtain ⟨_ | ⟨data, x'⟩, hr, rfl⟩ := Option.map_eq_some_iff.1 h
      · exact .ended _ hmain (recv_eq_none hr)
      · obtain ⟨n, hpos, hle, rfl, rfl⟩ := recv_eq_data hr
        exact .received n hmain hpos hle
    | connected | write | popped | timedOut | pushed => cases h
  | pop limited =>
    cases input with
    | popped =>
      simp only [State.stepMain] at h
      split_ifs at h with hdone
      cases h
      exact .popped limited false hmain (.inl hdone)
    | timedOut =>
      simp only [State.stepMain] at h
      split_ifs at h with hlimited
      cases h
      exact .popped limited s.done hmain (.inr hlimited)
    | read | connected | write | pushed => cases h
  | returned => cases input <;> cases h

theorem steps_of_stepRelay {relay : Relay} {input : Input} (hrelay : s.relay = relay)
    (h : s.stepRelay bufferSize relay input = some s') : Steps s s' := by
  cases relay with
  | recv =>
    cases input with
    | read r =>
      obtain ⟨_ | ⟨data, x'⟩, hr, rfl⟩ := Option.map_eq_some_iff.1 h
      · exact .relayEnded _ hrelay (recv_eq_none hr)
      · obtain ⟨n, hpos, hle, rfl, rfl⟩ := recv_eq_data hr
        exact .relayReceived n hrelay hpos hle
    | connected | write | popped | timedOut | pushed => cases h
  | send rest begun =>
    cases input with
    | write w =>
      obtain ⟨y, hw, rfl⟩ := Option.map_eq_some_iff.1 h
      cases sends_of_send hw with
      | wrote begun rest n open_ pos le =>
        simp only [reduceCtorEq, decide_false, Bool.or_false]
        exact .relaySent begun rest n hrelay open_ pos le
      | unsent rest w ends => exact .relayUnsent _ rest hrelay (by simpa using ends)
      | closed rest closed =>
        simp only [reduceCtorEq, decide_false, Bool.or_false]
        exact .relayDropped rest hrelay closed
      | cut rest =>
        simp only [decide_true, Bool.or_true]
        exact .relayCut rest hrelay
    | read | connected | popped | timedOut | pushed => cases h
  | push =>
    cases input with
    | pushed =>
      cases h
      exact .pushed hrelay
    | read | connected | write | popped | timedOut => cases h
  | unborn | returned => cases input <;> cases h

theorem steps_of_step (h : step bufferSize s a = some s') : Steps s s' := by
  cases a with
  | arrive side n =>
    cases side with
    | client =>
      obtain ⟨x', hx', rfl⟩ := Option.map_eq_some_iff.1 h
      unfold Socket.arrive at hx'
      split_ifs at hx' with hn
      cases hx'
      exact .arriveClient n hn.1 hn.2
    | backend =>
      simp only [step] at h
      split_ifs at h with hborn
      obtain ⟨x', hx', rfl⟩ := Option.map_eq_some_iff.1 h
      unfold Socket.arrive at hx'
      split_ifs at hx' with hn
      cases hx'
      exact .arriveBackend n hn.1 hn.2 hborn
  | fin side =>
    cases side with
    | client =>
      obtain ⟨x', hx', rfl⟩ := Option.map_eq_some_iff.1 h
      unfold Socket.fin at hx'
      split_ifs at hx' with hx
      cases hx'
      exact .finClient hx.1 hx.2
    | backend =>
      simp only [step] at h
      split_ifs at h with hborn
      obtain ⟨x', hx', rfl⟩ := Option.map_eq_some_iff.1 h
      unfold Socket.fin at hx'
      split_ifs at hx' with hx
      cases hx'
      exact .finBackend hx.1 hx.2 hborn
  | main input => exact steps_of_stepMain rfl h
  | relay input => exact steps_of_stepRelay rfl h

/-- A coroutine that has returned stays so. -/
theorem Steps.returned (h : Steps s s') (hmain : s.main = .returned) : s'.main = .returned := by
  cases h with
  | arriveClient | arriveBackend | finClient | finBackend | relayReceived | relayEnded | relaySent
  | relayUnsent | relayCut | relayDropped | pushed => exact hmain
  | noFirst | refused | popped => rfl
  | first n at_ pos le | connected data at_ | sent first begun rest n at_ pos le
  | unsent first failed rest at_ ends | cut first rest at_ | dropped first rest at_ closed
  | received n at_ pos le | ended failed at_ ends =>
    rw [hmain] at at_
    cases at_

/-! ## Where the coroutines are -/

/-- The bytes that have been read from the client and are not written yet. -/
def Main.held : Main → Bytes
  | .connecting data | .send _ data _ => data
  | _ => []

def Relay.held : Relay → Bytes
  | .send data _ => data
  | _ => []

/-- Before the backend is dialed. -/
def Main.isEarly : Main → Bool
  | .recvFirst => true
  | .connecting data => data ≠ []
  | _ => false

/-- In the loop, or in the `sendAll` before it. -/
def Main.isLoop : Main → Bool
  | .recv => true
  | .send _ rest _ => rest ≠ []
  | _ => false

def Relay.isLoop : Relay → Bool
  | .recv => true
  | .send rest _ => rest ≠ []
  | _ => false

/-- Past the loop. -/
def Main.isOver : Main → Bool
  | .pop _ | .returned => true
  | _ => false

def Relay.isOver : Relay → Bool
  | .push | .returned => true
  | _ => false

def Relay.isBorn : Relay → Bool
  | .unborn => false
  | .send rest _ => rest ≠ []
  | _ => true

theorem Relay.isBorn_of_isLoop {relay : Relay} (h : relay.isLoop = true) : relay.isBorn = true := by
  cases relay with
  | recv | send => exact h
  | unborn | push | returned => cases h

theorem Main.held_sent (first : Bool) (rest : Bytes) :
    (if rest = [] then Main.recv else Main.send first rest true).held = rest := by
  split_ifs with h
  · exact h.symm
  · rfl

theorem Main.isLoop_sent (first : Bool) (rest : Bytes) :
    (if rest = [] then Main.recv else Main.send first rest true).isLoop = true := by
  split_ifs with h
  · rfl
  · simpa [isLoop] using h

theorem Relay.held_sent (rest : Bytes) :
    (if rest = [] then Relay.recv else Relay.send rest true).held = rest := by
  split_ifs with h
  · exact h.symm
  · rfl

theorem Relay.isLoop_sent (rest : Bytes) :
    (if rest = [] then Relay.recv else Relay.send rest true).isLoop = true := by
  split_ifs with h
  · rfl
  · simpa [isLoop] using h

theorem take_ne_nil {l : Bytes} {n : ℕ} (pos : 0 < n) (le : n ≤ l.length) : l.take n ≠ [] := by
  intro h
  have hlen := congrArg List.length h
  rw [List.length_take, List.length_nil] at hlen
  omega

/-- The phases of a session: where the two coroutines are, whether the sockets of the client and of
the backend are closed, whether there is something in the channel, and whether the adapter has the
connection. -/
inductive Phase : Main → Relay → (client backend done entry : Bool) → Prop
  | early {main : Main} (early : main.isEarly = true) : Phase main .unborn false false false false
  /-- there was no first packet or no connection -/
  | refused : Phase .returned .unborn true false false false
  | running {main : Main} {relay : Relay} (loop : main.isLoop = true) (back : relay.isLoop = true) :
      Phase main relay false false false true
  /-- the way back has ended -/
  | pushing {main : Main} (loop : main.isLoop = true) : Phase main .push true false false true
  | pushed {main : Main} (loop : main.isLoop = true) : Phase main .returned true false true true
  /-- the way there has ended -/
  | popping (limited : Bool) {relay : Relay} (back : relay.isLoop = true) :
      Phase (.pop limited) relay false true false true
  | bothPushing (limited : Bool) : Phase (.pop limited) .push true true false true
  | bothPushed (limited : Bool) : Phase (.pop limited) .returned true true true true
  | returned {relay : Relay} {done : Bool} (born : relay.isBorn = true) :
      Phase .returned relay true true done false

/-- The session is in one of the phases. -/
def State.InPhase (s : State) : Prop :=
  Phase s.main s.relay s.client.closed s.backend.closed s.done s.entry

theorem inPhase_new (fromClient fromBackend : Bytes) : (new fromClient fromBackend).InPhase :=
  .early rfl

section Phase

variable {main main' : Main} {relay relay' : Relay} {client backend done entry : Bool}

theorem Phase.early_of (h : Phase main relay client backend done entry)
    (hmain : main.isEarly = true) :
    relay = .unborn ∧ client = false ∧ backend = false ∧ done = false ∧ entry = false := by
  cases h with
  | early => exact ⟨rfl, rfl, rfl, rfl, rfl⟩
  | running loop | pushing loop | pushed loop =>
    cases main <;> simp [Main.isEarly, Main.isLoop] at hmain loop
  | refused | popping | bothPushing | bothPushed | returned => cases hmain

theorem Phase.isEarly_connecting {data : Bytes}
    (h : Phase (.connecting data) relay client backend done entry) :
    (Main.connecting data).isEarly = true := by
  cases h with
  | early early => exact early
  | running loop | pushing loop | pushed loop => cases loop

theorem Phase.isLoop_send {first begun : Bool} {rest : Bytes}
    (h : Phase (.send first rest begun) relay client backend done entry) :
    (Main.send first rest begun).isLoop = true := by
  cases h with
  | early early => cases early
  | running loop | pushing loop | pushed loop => exact loop

theorem Phase.isLoop_relaySend {rest : Bytes} {begun : Bool}
    (h : Phase main (.send rest begun) client backend done entry) :
    (Relay.send rest begun).isLoop = true := by
  cases h with
  | running loop back => exact back
  | popping limited back => exact back
  | returned born => exact born

/-- The client's coroutine stays in its loop. -/
theorem Phase.loop (h : Phase main relay client backend done entry) (hmain : main.isLoop = true)
    (hmain' : main'.isLoop = true) : Phase main' relay client backend done entry := by
  cases h with
  | early early => cases main <;> simp [Main.isEarly, Main.isLoop] at hmain early
  | running loop back => exact .running hmain' back
  | pushing loop => exact .pushing hmain'
  | pushed loop => exact .pushed hmain'
  | refused | popping | bothPushing | bothPushed | returned => cases hmain

/-- The client's coroutine ends its loop and closes the backend. -/
theorem Phase.endLoop (h : Phase main relay client backend done entry) (hmain : main.isLoop = true)
    (limited : Bool) : Phase (.pop limited) relay client true done entry := by
  cases h with
  | early early => cases main <;> simp [Main.isEarly, Main.isLoop] at hmain early
  | running loop back => exact .popping limited back
  | pushing loop => exact .bothPushing limited
  | pushed loop => exact .bothPushed limited
  | refused | popping | bothPushing | bothPushed | returned => cases hmain

/-- The client's coroutine returns. -/
theorem Phase.return {limited : Bool} (h : Phase (.pop limited) relay client backend done entry)
    (done' : Bool) (hdone : done = true ∨ limited = true) :
    Phase .returned relay (limited || client) backend done' false := by
  cases h with
  | popping limited back =>
    rcases hdone with hdone | rfl
    · cases hdone
    · exact .returned (Relay.isBorn_of_isLoop back)
  | bothPushing limited =>
    rw [Bool.or_true]
    exact .returned rfl
  | bothPushed limited =>
    rw [Bool.or_true]
    exact .returned rfl
  | early early => cases early
  | running loop | pushing loop | pushed loop => cases loop

/-- The way back stays in its loop. -/
theorem Phase.back (h : Phase main relay client backend done entry) (hrelay : relay.isLoop = true)
    (hrelay' : relay'.isLoop = true) : Phase main relay' client backend done entry := by
  cases h with
  | running loop back => exact .running loop hrelay'
  | popping limited back => exact .popping limited hrelay'
  | returned born => exact .returned (Relay.isBorn_of_isLoop hrelay')
  | early | refused | pushing | pushed | bothPushing | bothPushed => cases hrelay

/-- The way back ends its loop and closes the client. -/
theorem Phase.endBack (h : Phase main relay client backend done entry)
    (hrelay : relay.isLoop = true) : Phase main .push true backend done entry := by
  cases h with
  | running loop back => exact .pushing loop
  | popping limited back => exact .bothPushing limited
  | returned born => exact .returned rfl
  | early | refused | pushing | pushed | bothPushing | bothPushed => cases hrelay

theorem Phase.push (h : Phase main .push client backend done entry) :
    Phase main .returned client backend true entry := by
  cases h with
  | pushing loop => exact .pushed loop
  | bothPushing limited => exact .bothPushed limited
  | returned born => exact .returned rfl
  | running loop back => cases back
  | popping limited back => cases back

/-- Who has closed the client's socket. -/
theorem Phase.over_of_client (h : Phase main relay true backend done entry) :
    relay.isOver = true ∨ main = .returned := by
  cases h with
  | pushing | pushed | bothPushing | bothPushed => exact .inl rfl
  | refused | returned => exact .inr rfl

/-- Who has closed the backend's socket. -/
theorem Phase.over_of_backend (h : Phase main relay client true done entry) :
    main.isOver = true := by
  cases h with
  | popping | bothPushing | bothPushed | returned => rfl

/-- The client's socket is open while the way back is in its loop and the backend's is open. -/
theorem Phase.client_open (h : Phase main relay client false done entry)
    (hrelay : relay.isLoop = true) : client = false := by
  cases h with
  | running => rfl
  | early | refused | pushing | pushed => cases hrelay

theorem Phase.cleared (h : Phase .returned relay client backend done entry) :
    client = true ∧ entry = false ∧ (relay ≠ .unborn → backend = true) := by
  cases h with
  | early early => cases early
  | refused => exact ⟨rfl, rfl, fun h => absurd rfl h⟩
  | running loop | pushing loop | pushed loop => cases loop
  | returned born => exact ⟨rfl, rfl, fun _ => rfl⟩

end Phase

theorem Steps.inPhase (hs : s.InPhase) (h : Steps s s') : s'.InPhase := by
  unfold State.InPhase at hs ⊢
  cases h with
  | arriveClient | arriveBackend | finClient | finBackend => exact hs
  | first n at_ pos le =>
    obtain ⟨hrelay, hclient, hbackend, hdone, hentry⟩ := hs.early_of (by rw [at_]; rfl)
    simp only [hrelay, hclient, hbackend, hdone, hentry]
    exact .early (by simpa [Main.isEarly] using take_ne_nil pos le)
  | noFirst failed at_ ends =>
    obtain ⟨hrelay, -, hbackend, hdone, hentry⟩ := hs.early_of (by rw [at_]; rfl)
    simp only [hrelay, hbackend, hdone, hentry, Socket.close]
    exact .refused
  | refused data at_ =>
    rw [at_] at hs
    obtain ⟨hrelay, -, hbackend, hdone, hentry⟩ := hs.early_of hs.isEarly_connecting
    simp only [hrelay, hbackend, hdone, hentry, Socket.close]
    exact .refused
  | connected data at_ =>
    rw [at_] at hs
    obtain ⟨-, hclient, hbackend, hdone, -⟩ := hs.early_of hs.isEarly_connecting
    simp only [hclient, hbackend, hdone]
    exact .running hs.isEarly_connecting rfl
  | sent first begun rest n at_ pos le =>
    rw [at_] at hs
    exact hs.loop hs.isLoop_send (Main.isLoop_sent first _)
  | cut first rest at_ | dropped first rest at_ closed =>
    rw [at_] at hs
    exact hs.loop hs.isLoop_send rfl
  | unsent first failed rest at_ ends =>
    rw [at_] at hs
    exact hs.endLoop hs.isLoop_send first
  | received n at_ pos le =>
    exact hs.loop (by rw [at_]; rfl) (by simpa [Main.isLoop] using take_ne_nil pos le)
  | ended failed at_ ends => exact hs.endLoop (by rw [at_]; rfl) false
  | popped limited done at_ full =>
    rw [at_] at hs
    have hreturn := hs.return done full
    cases limited <;> exact hreturn
  | relayReceived n at_ pos le =>
    exact hs.back (by rw [at_]; rfl) (by simpa [Relay.isLoop] using take_ne_nil pos le)
  | relayEnded failed at_ ends => exact hs.endBack (by rw [at_]; rfl)
  | relaySent begun rest n at_ open_ pos le =>
    rw [at_] at hs
    exact hs.back hs.isLoop_relaySend (Relay.isLoop_sent _)
  | relayCut rest at_ | relayDropped rest at_ closed =>
    rw [at_] at hs
    exact hs.back hs.isLoop_relaySend rfl
  | relayUnsent failed rest at_ ends =>
    rw [at_] at hs
    exact hs.endBack hs.isLoop_relaySend
  | pushed at_ =>
    rw [at_] at hs
    exact hs.push

/-! ## What is on its way -/

/-- What is written to the client is all that was read from the backend only as long as the client's
socket is open: the way back may still have something in hand when it is closed. -/
structure Flow (s : State) : Prop where
  clientEof : s.client.eof = true → s.client.pending = []
  backendEof : s.backend.eof = true → s.backend.pending = []
  unbornEof : s.relay = .unborn → s.backend.eof = false
  whole : s.failed = false → s.client.cut = false ∧ s.backend.cut = false
  toBackend : s.main.isOver = false → s.backend.cut = false →
    Conserved s.client.sent s.backend.delivered s.main.held s.client.inbox s.client.pending
  toClient : s.relay.isOver = false → s.client.closed = false → s.client.cut = false →
    Conserved s.backend.sent s.client.delivered s.relay.held s.backend.inbox s.backend.pending
  backendPrefix : s.backend.cut = false → s.backend.delivered <+: s.client.sent
  clientPrefix : s.client.cut = false → s.client.delivered <+: s.backend.sent

theorem flow_new (fromClient fromBackend : Bytes) : Flow (new fromClient fromBackend) where
  clientEof h := by cases h
  backendEof h := by cases h
  unbornEof _ := rfl
  whole _ := ⟨rfl, rfl⟩
  toBackend _ _ := .start fromClient
  toClient _ _ _ := .start fromBackend
  backendPrefix _ := List.nil_prefix
  clientPrefix _ := List.nil_prefix

/-- The backend's socket is open while something is sent to it. -/
theorem State.InPhase.backend_open {first begun : Bool} (h : s.InPhase)
    (at_ : s.main = .send first rest begun) : ¬ s.backend.closed = true := by
  intro hclosed
  rw [State.InPhase, at_, hclosed] at h
  cases h.over_of_backend

theorem Steps.flow (hphase : s.InPhase) (hs : Flow s) (h : Steps s s') : Flow s' := by
  cases h with
  | arriveClient n pos le =>
    refine { hs with
      clientEof := fun h => ?_
      toBackend := fun h hcut => (hs.toBackend h hcut).arrive n }
    rw [hs.clientEof h, List.length_nil] at le
    omega
  | arriveBackend n pos le born =>
    refine { hs with
      backendEof := fun h => ?_
      toClient := fun h hopen hcut => (hs.toClient h hopen hcut).arrive n }
    rw [hs.backendEof h, List.length_nil] at le
    omega
  | finClient empty open_ => exact { hs with clientEof := fun _ => empty }
  | finBackend empty open_ born =>
    exact { hs with backendEof := fun _ => empty, unbornEof := fun h => absurd h born }
  | first n at_ pos le | received n at_ pos le =>
    have hconserved := hs.toBackend (by rw [at_]; rfl)
    rw [at_] at hconserved
    exact { hs with toBackend := fun _ hcut => (hconserved hcut).read n }
  | connected data at_ =>
    have hconserved := hs.toBackend (by rw [at_]; rfl)
    rw [State.InPhase, at_] at hphase
    have hrelay := (hphase.early_of hphase.isEarly_connecting).1
    have hback := hs.toClient (by rw [hrelay]; rfl)
    rw [hrelay] at hback
    rw [at_] at hconserved
    exact { hs with
      unbornEof := nofun
      toBackend := fun _ => hconserved
      toClient := fun _ => hback }
  | sent first begun rest n at_ pos le =>
    have hconserved := hs.toBackend (by rw [at_]; rfl)
    rw [at_] at hconserved
    refine { hs with
      toBackend := fun _ hcut => ?_
      backendPrefix := fun hcut => ((hconserved hcut).pass n).isPrefix }
    show Conserved _ _ (Main.held (if rest.drop n = [] then _ else _)) _ _
    rw [Main.held_sent]
    exact (hconserved hcut).pass n
  | cut first rest at_ =>
    exact { hs with whole := nofun, toBackend := nofun, backendPrefix := nofun }
  | dropped first rest at_ closed => exact absurd closed (hphase.backend_open at_)
  | unsent first failed rest at_ ends | ended failed at_ ends =>
    exact { hs with
      whole := fun h => hs.whole (Bool.or_eq_false_iff.1 h).1
      toBackend := nofun }
  | noFirst failed at_ ends =>
    exact { hs with
      whole := fun h => hs.whole (Bool.or_eq_false_iff.1 h).1
      toBackend := nofun
      toClient := nofun }
  | refused =>
    exact { hs with whole := nofun, toBackend := nofun, toClient := nofun }
  | popped limited done at_ full =>
    cases limited with
    | false => exact { hs with toBackend := nofun }
    | true => exact { hs with toBackend := nofun, toClient := nofun }
  | relayReceived n at_ pos le =>
    have hconserved := hs.toClient (by rw [at_]; rfl)
    rw [at_] at hconserved
    exact { hs with
      unbornEof := nofun
      toClient := fun _ hopen hcut => (hconserved hopen hcut).read n }
  | relaySent begun rest n at_ open_ pos le =>
    have hconserved := hs.toClient (by rw [at_]; rfl) open_
    rw [at_] at hconserved
    refine { hs with
      unbornEof := fun h => ?_
      toClient := fun _ _ hcut => ?_
      clientPrefix := fun hcut => ((hconserved hcut).pass n).isPrefix }
    · exact absurd h (by split_ifs <;> simp)
    · show Conserved _ _ (Relay.held (if rest.drop n = [] then _ else _)) _ _
      rw [Relay.held_sent]
      exact (hconserved hcut).pass n
  | relayCut rest at_ =>
    exact { hs with unbornEof := nofun, whole := nofun, toClient := nofun, clientPrefix := nofun }
  | relayDropped rest at_ closed =>
    refine { hs with unbornEof := nofun, toClient := fun _ hopen => ?_ }
    rw [closed] at hopen
    cases hopen
  | relayEnded failed at_ ends | relayUnsent failed rest at_ ends =>
    exact { hs with
      unbornEof := nofun
      whole := fun h => hs.whole (Bool.or_eq_false_iff.1 h).1
      toClient := nofun }
  | pushed => exact { hs with unbornEof := nofun, toClient := nofun }

/-! ## What has been delivered at the end -/

/-- Where nothing has failed and a loop has ended, one of the streams was delivered to its end. -/
def Ended (s : State) : Prop :=
  s.failed = false → s.main.isOver = true ∨ s.relay.isOver = true → s.ToBackend ∨ s.ToClient

/-- What was delivered to its end stays so. -/
theorem delivered_eq {delivered delivered' sent : Bytes} (h : delivered = sent)
    (hle : delivered <+: delivered') (hbegins : delivered' <+: sent) : delivered' = sent :=
  hbegins.eq_of_length (le_antisymm hbegins.length_le (h ▸ hle.length_le))

/-- The client's stream is delivered when its end is read. -/
theorem Flow.toBackend_of_eof (hs : Flow s) (hfailed : s.failed = false)
    (hmain : s.main.isOver = false) (hheld : s.main.held = []) (hempty : s.client.inbox = [])
    (heof : s.client.eof = true) : s.ToBackend :=
  (hs.toBackend hmain (hs.whole hfailed).2).complete_iff.2 ⟨hheld, hempty, hs.clientEof heof⟩

theorem Flow.toClient_of_eof (hs : Flow s) (hfailed : s.failed = false)
    (hrelay : s.relay.isOver = false) (hopen : s.client.closed = false) (hheld : s.relay.held = [])
    (hempty : s.backend.inbox = []) (heof : s.backend.eof = true) : s.ToClient :=
  (hs.toClient hrelay hopen (hs.whole hfailed).1).complete_iff.2 ⟨hheld, hempty, hs.backendEof heof⟩

theorem Steps.ended_of (hphase : s.InPhase) (hflow : Flow s) (hflow' : Flow s') (hs : Ended s)
    (h : Steps s s') : Ended s' := by
  intro hfailed hover
  cases h with
  | arriveClient | arriveBackend | finClient | finBackend => exact hs hfailed hover
  | first n at_ pos le | received n at_ pos le =>
    exact hs hfailed (hover.imp_left nofun)
  | connected data at_ => exact hover.elim nofun nofun
  | refused data at_ => cases hfailed
  | noFirst failed at_ ends =>
    cases ends with
    | eof open_ empty ended =>
      exact .inl (hflow.toBackend_of_eof (Bool.or_eq_false_iff.1 hfailed).1 (by rw [at_]; rfl)
        (by rw [at_]; rfl) empty ended)
    | closed closed =>
      have hopen := (hphase.early_of (by rw [at_]; rfl)).2.1
      rw [closed] at hopen
      cases hopen
    | failed => simp at hfailed
  | sent first begun rest n at_ pos le =>
    have hover' : s.relay.isOver = true := hover.resolve_left (by split_ifs <;> simp [Main.isOver])
    refine (hs hfailed (.inr hover')).imp_left fun hto => ?_
    exact delivered_eq hto (List.prefix_append _ _) (hflow'.backendPrefix (hflow'.whole hfailed).2)
  | cut | relayCut => cases hfailed
  | dropped first rest at_ closed => exact absurd closed (hphase.backend_open at_)
  | unsent first failed rest at_ ends =>
    rcases ends with hclosed | rfl
    · exact absurd hclosed (hphase.backend_open at_)
    · simp at hfailed
  | ended failed at_ ends =>
    cases ends with
    | eof open_ empty ended =>
      exact .inl (hflow.toBackend_of_eof (Bool.or_eq_false_iff.1 hfailed).1 (by rw [at_]; rfl)
        (by rw [at_]; rfl) empty ended)
    | closed closed =>
      rw [State.InPhase, closed] at hphase
      refine hs (Bool.or_eq_false_iff.1 hfailed).1 (.inr (hphase.over_of_client.resolve_right ?_))
      rw [at_]
      nofun
    | failed => simp at hfailed
  | popped limited done at_ full =>
    have hends := hs hfailed (.inl (by rw [at_]; rfl))
    cases limited <;> exact hends
  | relayReceived n at_ pos le =>
    exact hs hfailed (.inl (hover.resolve_right nofun))
  | relayEnded failed at_ ends =>
    cases ends with
    | eof open_ empty ended =>
      rw [State.InPhase, open_] at hphase
      exact .inr (hflow.toClient_of_eof (Bool.or_eq_false_iff.1 hfailed).1 (by rw [at_]; rfl)
        (hphase.client_open (by rw [at_]; rfl)) (by rw [at_]; rfl) empty ended)
    | closed closed =>
      rw [State.InPhase, closed] at hphase
      exact hs (Bool.or_eq_false_iff.1 hfailed).1 (.inl hphase.over_of_backend)
    | failed => simp at hfailed
  | relayDropped rest at_ closed => exact hs hfailed (.inl (hover.resolve_right nofun))
  | relaySent begun rest n at_ open_ pos le =>
    have hover' : s.main.isOver = true := hover.resolve_right (by split_ifs <;> simp [Relay.isOver])
    refine (hs hfailed (.inl hover')).imp_right fun hto => ?_
    exact delivered_eq hto (List.prefix_append _ _) (hflow'.clientPrefix (hflow'.whole hfailed).1)
  | relayUnsent failed rest at_ ends =>
    rcases ends with hclosed | rfl
    · rw [State.InPhase, hclosed] at hphase
      refine hs (Bool.or_eq_false_iff.1 hfailed).1 (.inl ?_)
      rcases hphase.over_of_client with hrelay | hmain
      · rw [at_] at hrelay
        cases hrelay
      · rw [hmain]
        rfl
    · simp at hfailed
  | pushed at_ => exact hs hfailed (.inr (by rw [at_]; rfl))

structure Inv (fromClient fromBackend : Bytes) (s : State) : Prop where
  inPhase : s.InPhase
  flow : Flow s
  ended : Ended s
  fromClient : s.client.sent = fromClient
  fromBackend : s.backend.sent = fromBackend

theorem inv_new (fromClient fromBackend : Bytes) :
    Inv fromClient fromBackend (new fromClient fromBackend) where
  inPhase := inPhase_new fromClient fromBackend
  flow := flow_new fromClient fromBackend
  ended := fun _ h => h.elim nofun nofun
  fromClient := rfl
  fromBackend := rfl

theorem Steps.sent_eq (h : Steps s s') :
    s'.client.sent = s.client.sent ∧ s'.backend.sent = s.backend.sent := by
  cases h with
  | popped limited done at_ full => cases limited <;> exact ⟨rfl, rfl⟩
  | _ => exact ⟨rfl, rfl⟩

theorem step_inv {fromClient fromBackend : Bytes} (hs : Inv fromClient fromBackend s)
    (h : step bufferSize s a = some s') : Inv fromClient fromBackend s' := by
  have hsteps := steps_of_step h
  have hflow := hsteps.flow hs.inPhase hs.flow
  obtain ⟨hclient, hbackend⟩ := hsteps.sent_eq
  exact ⟨hsteps.inPhase hs.inPhase, hflow, hsteps.ended_of hs.inPhase hs.flow hflow hs.ended,
    hclient.trans hs.fromClient, hbackend.trans hs.fromBackend⟩

/-- Whatever arrives when and however the two coroutines take turns, both peers get a beginning of
what the other one sent, unless a `sendAll` to them has stopped in the middle of its data.  When the
session is over and no call has failed, one of the two streams was delivered to its end. -/
theorem one_stream_complete (bufferSize : ℕ) (fromClient fromBackend : Bytes) {as : List Action}
    {s : State} (h : run (step bufferSize) (new fromClient fromBackend) as = some s) :
    (s.backend.cut = false → s.backend.delivered <+: fromClient)
      ∧ (s.client.cut = false → s.client.delivered <+: fromBackend)
      ∧ (s.main = .returned → s.failed = false →
        s.backend.delivered = fromClient ∨ s.client.delivered = fromBackend) := by
  have hs : Inv fromClient fromBackend s :=
    run_inv (fun _ _ _ hs hstep => step_inv hs hstep) (inv_new fromClient fromBackend) h
  refine ⟨fun hcut => hs.fromClient ▸ hs.flow.backendPrefix hcut,
    fun hcut => hs.fromBackend ▸ hs.flow.clientPrefix hcut, fun hmain hfailed => ?_⟩
  have hends := hs.ended hfailed (.inl (by rw [hmain]; rfl))
  rwa [State.ToBackend, State.ToClient, hs.fromClient, hs.fromBackend] at hends

/-- The backend ends while the client is silent: the client has sent two bytes and not all of the
rest has come. -/
def backendEnds : List Action :=
  [.arrive .client 2, .main (.read (.data 2)), .main (.connected true), .main (.write (.wrote 1)),
    .arrive .backend 1, .fin .backend, .relay (.read (.data 1)), .main (.write (.wrote 1)),
    .relay (.write (.wrote 1)), .relay (.read .eof), .relay .pushed, .main (.read .closed),
    .main .popped]

theorem one_stream_complete_backendEnds :
    ∃ s, run (step 8) (new [1, 2, 3] [4]) backendEnds = some s ∧ s.main = .returned
      ∧ s.failed = false ∧ s.backend.delivered = [1, 2]
      ∧ (s.backend.delivered = [1, 2, 3] ∨ s.client.delivered = [4]) := by
  have hrun : ∃ s, run (step 8) (new [1, 2, 3] [4]) backendEnds = some s ∧ s.main = .returned
      ∧ s.failed = false ∧ s.backend.delivered = [1, 2] := ⟨_, rfl, rfl, rfl, rfl⟩
  obtain ⟨s, hs, hmain, hfailed, hdelivered⟩ := hrun
  exact ⟨s, hs, hmain, hfailed, hdelivered,
    (one_stream_complete 8 [1, 2, 3] [4] hs).2.2 hmain hfailed⟩

/-- A write to the backend times out after one of two bytes, and the next packet is sent behind the
gap. -/
example : (run (step 2) (new [1, 2, 3] []) [.arrive .client 3, .main (.read (.data 2)),
      .main (.connected true), .main (.write (.wrote 1)), .main (.write .failed),
      .main (.read (.data 1)), .main (.write (.wrote 1))]).map
    (fun s => (s.backend.cut, s.backend.delivered)) = some (true, [1, 3]) := by
  decide

end PhpDuplex

end ProtocolProxy
