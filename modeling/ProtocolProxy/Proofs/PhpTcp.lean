import ProtocolProxy.PhpTcp

/-!
# One stream per client

As long as packets come and coroutines go on in turn, a client's state is one of a few: nothing has
arrived, the first packet is routed or dialed for, the packets are sent one after the other
(`InOrder`), or the client is closed.

Out of turn, a second packet that arrives during the dial dials again, and one that arrives while
the sockmap is active is dropped.
-/

namespace ProtocolProxy

namespace PhpTcp

open Machine

variable {ρ : Type} {u : Setup ρ} {s s' : State ρ} {i k n : ℕ} {data : Bytes} {pc : Pc}

/-! ## Packets that are sent in order -/

/-- Where the coroutine of packet `i` waits to send. -/
def sendingAt (i : ℕ) (data : Bytes) : Pc := if i = 0 then .sendingFirst 0 data else .sending 0 data

theorem sendingAt_ne_done (i : ℕ) (data : Bytes) : sendingAt i data ≠ .done := by
  unfold sendingAt
  split_ifs <;> simp

/-- The first `n` packets have been sent to the first backend, and the others wait to be. -/
structure InOrder (out : List Bytes) (tasks : List Pc) (sent : List (ℕ × Bytes)) (n : ℕ) :
    Prop where
  length_eq : tasks.length = out.length
  le_length : n ≤ out.length
  done : ∀ i < n, tasks[i]? = some .done
  pending : ∀ i pc, n ≤ i → tasks[i]? = some pc →
    ∃ data, out[i]? = some data ∧ pc = sendingAt i data
  sent_eq : sent = (out.take n).map (Prod.mk 0)

variable {out : List Bytes} {tasks : List Pc} {sent : List (ℕ × Bytes)}

theorem InOrder.lt_of_done (h : InOrder out tasks sent n) (hi : tasks[i]? = some .done) :
    i < n := by
  by_contra hle
  obtain ⟨data, -, heq⟩ := h.pending i .done (by omega) hi
  exact sendingAt_ne_done i data heq.symm

theorem InOrder.start (h : InOrder out tasks sent n) (hne : out ≠ []) (data : Bytes) :
    InOrder (out ++ [data]) (tasks ++ [.sending 0 data]) sent n where
  length_eq := by simp [h.length_eq]
  le_length := by
    have hle := h.le_length
    simp only [List.length_append]
    omega
  done i hi := by
    have hle := h.le_length
    have hlen := h.length_eq
    rw [List.getElem?_append_left (by omega)]
    exact h.done i hi
  pending i pc hn hi := by
    have hlen := h.length_eq
    have hpos : 0 < out.length := List.length_pos_iff.2 hne
    by_cases hlt : i < tasks.length
    · rw [List.getElem?_append_left hlt] at hi
      obtain ⟨d, hd, rfl⟩ := h.pending i pc hn hi
      exact ⟨d, by rw [List.getElem?_append_left (by omega), hd], rfl⟩
    · -- the new packet, which is not the first
      rw [List.getElem?_append_right (by omega), List.getElem?_singleton] at hi
      split_ifs at hi with hzero
      have hi' : i = out.length := by omega
      refine ⟨data, by simp [hi'], ?_⟩
      rw [← Option.some.inj hi]
      unfold sendingAt
      rw [if_neg (by omega)]
  sent_eq := by
    rw [List.take_append_of_le_length h.le_length]
    exact h.sent_eq

/-- The coroutine whose turn it is. -/
theorem InOrder.turn (h : InOrder out tasks sent n) (hi : tasks[i]? = some pc) (hpc : pc ≠ .done)
    (hturn : ∀ j < i, tasks[j]? = some .done) : i = n ∧ ∃ data, out[n]? = some data
      ∧ pc = sendingAt n data := by
  have hle : n ≤ i := by
    by_contra hlt
    rw [h.done i (by omega)] at hi
    exact hpc (Option.some.inj hi).symm
  have heq : i = n := by
    by_contra hne
    exact absurd (h.lt_of_done (hturn n (by omega))) (lt_irrefl n)
  subst heq
  exact ⟨rfl, h.pending i pc le_rfl hi⟩

theorem InOrder.advance (h : InOrder out tasks sent n) (hn : out[n]? = some data) :
    InOrder out (tasks.set n .done) (sent ++ [(0, data)]) (n + 1) where
  length_eq := by rw [List.length_set, h.length_eq]
  le_length := by
    obtain ⟨hlt, -⟩ := List.getElem?_eq_some_iff.1 hn
    omega
  done i hi := by
    obtain ⟨hlt, -⟩ := List.getElem?_eq_some_iff.1 hn
    have hlen := h.length_eq
    by_cases heq : n = i
    · subst heq
      rw [List.getElem?_set_self (by omega)]
    · rw [List.getElem?_set_ne heq]
      exact h.done i (by omega)
  pending i pc hle hi := by
    rw [List.getElem?_set_ne (by omega)] at hi
    exact h.pending i pc (by omega) hi
  sent_eq := by
    rw [h.sent_eq, List.take_add_one, hn]
    simp

theorem InOrder.sent_zero (h : InOrder out tasks sent n) : ∀ x ∈ sent, x.1 = 0 := by
  intro x hx
  rw [h.sent_eq] at hx
  obtain ⟨data, -, rfl⟩ := List.mem_map.1 hx
  rfl

/-- A coroutine that has nothing left to do but to send to the first backend. -/
def Sends (pc : Pc) : Prop := pc = .done ∨ ∃ data, pc = .sendingFirst 0 data ∨ pc = .sending 0 data

theorem sends_sendingAt (i : ℕ) (data : Bytes) : Sends (sendingAt i data) := by
  unfold sendingAt
  split_ifs
  · exact .inr ⟨data, .inl rfl⟩
  · exact .inr ⟨data, .inr rfl⟩

theorem InOrder.sends (h : InOrder out tasks sent n) : ∀ pc ∈ tasks, Sends pc := by
  intro pc hpc
  obtain ⟨i, hi⟩ := List.mem_iff_getElem?.1 hpc
  by_cases hlt : i < n
  · rw [h.done i hlt] at hi
    exact .inl (Option.some.inj hi).symm
  · obtain ⟨data, -, rfl⟩ := h.pending i pc (by omega) hi
    exact sends_sendingAt i data

theorem sends_set {l : List Pc} (h : ∀ pc ∈ l, Sends pc) (i : ℕ) :
    ∀ pc ∈ l.set i .done, Sends pc := by
  intro pc hpc
  rcases List.mem_or_eq_of_mem_set hpc with hpc | rfl
  · exact h pc hpc
  · exact .inl rfl

theorem expected_append (u : Setup ρ) (result : Option ρ) {arrived : List Bytes}
    (hne : arrived ≠ []) (data : Bytes) :
    expected u result (arrived ++ [data]) = expected u result arrived ++ [data] := by
  cases arrived with
  | nil => exact absurd rfl hne
  | cons first rest => rfl

theorem expected_ne_nil (u : Setup ρ) (result : Option ρ) {arrived : List Bytes}
    (hne : arrived ≠ []) : expected u result arrived ≠ [] := by
  cases arrived with
  | nil => exact absurd rfl hne
  | cons first rest => simp [expected]

/-! ## The states of a client -/

inductive Inv (u : Setup ρ) (s : State ρ) : Prop
  | idle : s = new → Inv u s
  | routing (data : Bytes) : s.connection = some ⟨none⟩ → s.client = none →
      s.tasks = [.routing data] → s.dialed = 0 → s.sent = [] → s.arrived = [data] → Inv u s
  | dialing (data initialData : Bytes) (result : ρ) : s.connection = some ⟨none⟩ →
      s.tasks = [.dialing 0 data initialData] → s.dialed = 1 → s.sent = [] → s.arrived = [data] →
      s.result = some result → u.transformInitialData data result = some initialData → Inv u s
  | serving (n : ℕ) : s.connection = some ⟨some 0⟩ → s.dialed = 1 → s.arrived ≠ [] →
      InOrder (expected u s.result s.arrived) s.tasks s.sent n → Inv u s
  | closed : s.closing = true → s.dialed ≤ 1 → (∀ x ∈ s.sent, x.1 = 0) →
      (s.gone = true ∨ ∀ pc ∈ s.tasks, Sends pc) → Inv u s

theorem Inv.oneStream (h : Inv u s) : OneStream u s := by
  cases h with
  | idle hs =>
    subst hs
    exact ⟨Nat.zero_le _, by simp [new], .inr ⟨0, rfl, by simp [new]⟩⟩
  | routing data _ _ htasks hdialed hsent =>
    refine ⟨by omega, by simp [hsent], .inr ⟨0, by simp [hsent], fun i hi => ?_⟩⟩
    rw [htasks, List.getElem?_singleton] at hi
    split_ifs at hi
    simp at hi
  | dialing data initialData result _ htasks hdialed hsent =>
    refine ⟨by omega, by simp [hsent], .inr ⟨0, by simp [hsent], fun i hi => ?_⟩⟩
    rw [htasks, List.getElem?_singleton] at hi
    split_ifs at hi
    simp at hi
  | serving n _ hdialed _ horder =>
    refine ⟨by omega, horder.sent_zero, .inr ⟨n, ?_, fun i hi => horder.lt_of_done hi⟩⟩
    rw [horder.sent_eq, List.map_map]
    exact List.map_id _
  | closed hclosing hdialed hsent => exact ⟨hdialed, hsent, .inl hclosing⟩

theorem Inv.dialed_le (h : Inv u s) : s.dialed ≤ 1 := h.oneStream.1

theorem Inv.sent_zero (h : Inv u s) : ∀ x ∈ s.sent, x.1 = 0 := h.oneStream.2.1

/-! ## What a step does -/

/-- The send of `data` to backend `k` has ended. -/
structure Wrote (s s' : State ρ) (i k : ℕ) (data : Bytes) (ok : Bool) : Prop where
  connection : s'.connection = s.connection
  dialed : s'.dialed = s.dialed
  arrived : s'.arrived = s.arrived
  result : s'.result = s.result
  gone : s'.gone = s.gone
  tasks : s'.tasks = s.tasks.set i .done
  sent : s'.sent = if ok then s.sent ++ [(k, data)] else s.sent
  closing : s.closing = true → s'.closing = true

theorem wrote_first {input : Input ρ} (h : s.resume u i (.sendingFirst k data) input = some s') :
    ∃ ok activated exported, input = .wrote ok activated exported ∧ Wrote s s' i k data ok := by
  rcases input with result | ok | ⟨ok, activated, exported⟩
  · simp [State.resume] at h
  · simp [State.resume] at h
  · refine ⟨ok, activated, exported, rfl, ?_⟩
    simp only [State.resume] at h
    split_ifs at h <;> obtain rfl := Option.some.inj h
    all_goals
      exact ⟨rfl, rfl, rfl, rfl, rfl, rfl, by simp_all [State.put, State.close],
        by simp_all [State.put, State.close]⟩

theorem wrote_sending {input : Input ρ} (h : s.resume u i (.sending k data) input = some s') :
    ∃ ok activated exported, input = .wrote ok activated exported ∧ Wrote s s' i k data ok
      ∧ (ok = false → s'.closing = true) := by
  rcases input with result | ok | ⟨ok, activated, exported⟩
  · simp [State.resume] at h
  · simp [State.resume] at h
  · refine ⟨ok, activated, exported, rfl, ?_⟩
    simp only [State.resume] at h
    cases ok
    · obtain rfl := Option.some.inj h
      exact ⟨⟨rfl, rfl, rfl, rfl, rfl, rfl, rfl, fun _ => rfl⟩, fun _ => rfl⟩
    · obtain rfl := Option.some.inj h
      exact ⟨⟨rfl, rfl, rfl, rfl, rfl, rfl, rfl, id⟩, by simp⟩

theorem resume_done {input : Input ρ} : s.resume u i .done input = none := by
  cases input <;> rfl

theorem Wrote.sent_zero {ok : Bool} (h : Wrote s s' i 0 data ok) (hs : ∀ x ∈ s.sent, x.1 = 0) :
    ∀ x ∈ s'.sent, x.1 = 0 := by
  rw [h.sent]
  split_ifs
  · intro x hx
    rcases List.mem_append.1 hx with hx | hx
    · exact hs x hx
    · rw [List.mem_singleton.1 hx]
  · exact hs

/-- A send that ends on a closed client, or closes it. -/
theorem Wrote.over {ok : Bool} (h : Wrote s s' i 0 data ok) (hclosing : s'.closing = true)
    (hdialed : s.dialed ≤ 1) (hsent : ∀ x ∈ s.sent, x.1 = 0) (htasks : ∀ pc ∈ s.tasks, Sends pc) :
    Inv u s' := by
  refine .closed hclosing (by rw [h.dialed]; exact hdialed) (h.sent_zero hsent) (.inr ?_)
  rw [h.tasks]
  exact sends_set htasks i

theorem Wrote.serving (h : Wrote s s' n 0 data true) (hconnection : s.connection = some ⟨some 0⟩)
    (hdialed : s.dialed = 1) (harrived : s.arrived ≠ [])
    (horder : InOrder (expected u s.result s.arrived) s.tasks s.sent n)
    (hn : (expected u s.result s.arrived)[n]? = some data) : Inv u s' := by
  refine .serving (n + 1) (h.connection.trans hconnection) (h.dialed.trans hdialed)
    (by rw [h.arrived]; exact harrived) ?_
  rw [h.arrived, h.result, h.tasks, h.sent, if_pos rfl]
  exact horder.advance hn

/-- A packet that arrives for a client with a backend is sent to it. -/
theorem receive_backed (hconnection : s.connection = some ⟨some k⟩)
    (hsockmap : s.sockmapActive = false) : s.receive u data
      = { s with arrived := s.arrived ++ [data] }.start (.sending k data) := by
  unfold State.receive
  simp only [hconnection, hsockmap, Bool.and_false, Bool.false_eq_true, if_false]

theorem InOrder.sockmap_inactive (hturn : InTurn s (.receive data)) (harrived : s.arrived ≠ [])
    (horder : InOrder (expected u s.result s.arrived) s.tasks s.sent n) :
    s.sockmapActive = false := by
  rcases hturn with hnil | ⟨-, hsockmap⟩
  · have hlen := horder.length_eq
    rw [hnil] at hlen
    exact absurd (List.length_eq_zero_iff.1 hlen.symm) (expected_ne_nil u s.result harrived)
  · exact hsockmap

theorem Inv.receive (h : Inv u s) (hturn : InTurn s (.receive data))
    (hclosing : s.closing = false) : Inv u (s.receive u data) := by
  cases h with
  | idle hs =>
    subst hs
    rcases hregistered : u.registered with _ | _
    · simp only [State.receive, new, hregistered]
      exact .closed rfl (Nat.zero_le _) (by simp [State.close, State.start])
        (.inr (by simp [State.close, State.start, Sends]))
    · simp only [State.receive, new, hregistered]
      exact .routing data rfl rfl rfl rfl rfl rfl
  | routing first hconnection _ htasks =>
    rcases hturn with hnil | ⟨⟨k, hk⟩, -⟩
    · simp [htasks] at hnil
    · simp [hconnection] at hk
  | dialing first initialData result hconnection htasks =>
    rcases hturn with hnil | ⟨⟨k, hk⟩, -⟩
    · simp [htasks] at hnil
    · simp [hconnection] at hk
  | serving n hconnection hdialed harrived horder =>
    rw [receive_backed hconnection (horder.sockmap_inactive hturn harrived)]
    refine .serving n hconnection hdialed (by simp [State.start]) ?_
    show InOrder (expected u s.result (s.arrived ++ [data])) (s.tasks ++ [.sending 0 data]) s.sent n
    rw [expected_append u s.result harrived]
    exact horder.start (expected_ne_nil u s.result harrived) data
  | closed hclosed =>
    rw [hclosing] at hclosed
    cases hclosed

/-- The first packet's coroutine ends without a backend, and the client is closed. -/
theorem inv_failed (pc : Pc) (htasks : s.tasks = [pc]) (hdialed : s.dialed ≤ 1)
    (hsent : s.sent = []) : Inv u (s.put 0 .done).close := by
  refine .closed rfl hdialed (by simp [State.put, State.close, hsent]) (.inr ?_)
  simp [State.put, State.close, htasks, Sends]

theorem eq_of_getElem?_singleton {pc' : Pc} (h : [pc][i]? = some pc') : i = 0 ∧ pc = pc' := by
  rw [List.getElem?_singleton] at h
  split_ifs at h with hi
  exact ⟨hi, Option.some.inj h⟩

theorem inv_routed {input : Input ρ} (hconnection : s.connection = some ⟨none⟩)
    (hclient : s.client = none) (htasks : s.tasks = [.routing data]) (hdialed : s.dialed = 0)
    (hsent : s.sent = []) (harrived : s.arrived = [data])
    (hs' : s.resume u 0 (.routing data) input = some s') : Inv u s' := by
  rcases input with ⟨_ | result⟩ | ok | ⟨ok, activated, exported⟩
  · obtain rfl := Option.some.inj hs'
    exact inv_failed _ htasks (by omega) hsent
  · simp only [State.resume, if_pos, hclient] at hs'
    rcases htransform : u.transformInitialData data result with _ | initialData
    · rw [htransform] at hs'
      obtain rfl := Option.some.inj hs'
      exact inv_failed _ htasks (le_of_eq_of_le hdialed zero_le_one) hsent
    · rw [htransform] at hs'
      obtain rfl := Option.some.inj hs'
      refine .dialing data initialData result hconnection ?_ ?_ hsent harrived rfl htransform
      · simp [State.put, htasks, hdialed]
      · simp [hdialed]
  · simp [State.resume] at hs'
  · simp [State.resume] at hs'

theorem inv_connected {input : Input ρ} {initialData : Bytes} {result : ρ}
    (htasks : s.tasks = [.dialing 0 data initialData]) (hdialed : s.dialed = 1)
    (hsent : s.sent = []) (harrived : s.arrived = [data]) (hresult : s.result = some result)
    (htransform : u.transformInitialData data result = some initialData)
    (hs' : s.resume u 0 (.dialing 0 data initialData) input = some s') : Inv u s' := by
  rcases input with result' | ok | ⟨ok, activated, exported⟩
  · simp [State.resume] at hs'
  · simp only [State.resume] at hs'
    cases ok
    · obtain rfl := Option.some.inj hs'
      exact inv_failed _ htasks (le_of_eq hdialed) hsent
    · obtain rfl := Option.some.inj hs'
      have hout : expected u s.result s.arrived = [initialData] := by
        simp [expected, hresult, harrived, htransform]
      refine .serving 0 rfl hdialed (by simp [State.backed, State.put, harrived]) ?_
      show InOrder (expected u s.result s.arrived)
        (s.tasks.set 0 (.sendingFirst 0 initialData)) s.sent 0
      rw [hout, htasks, hsent]
      refine ⟨rfl, Nat.zero_le _, by simp, fun i pc _ hi => ?_, rfl⟩
      obtain ⟨rfl, rfl⟩ := eq_of_getElem?_singleton hi
      exact ⟨initialData, rfl, rfl⟩
  · simp [State.resume] at hs'

theorem InOrder.resume {input : Input ρ} (hturn : InTurn s (.resume i input))
    (hconnection : s.connection = some ⟨some 0⟩) (hdialed : s.dialed = 1)
    (harrived : s.arrived ≠ [])
    (horder : InOrder (expected u s.result s.arrived) s.tasks s.sent n)
    (hpc : s.tasks[i]? = some pc) (hs' : s.resume u i pc input = some s') : Inv u s' := by
  have hne : pc ≠ .done := by
    rintro rfl
    simp [resume_done] at hs'
  obtain ⟨rfl, data, hn, rfl⟩ := horder.turn hpc hne hturn.1
  by_cases hi : i = 0
  · have hat : sendingAt i data = .sendingFirst 0 data := if_pos hi
    rw [hat] at hs' hpc
    obtain ⟨ok, activated, exported, rfl, hwrote⟩ := wrote_first hs'
    obtain rfl : ok = true := hturn.2 0 data ok activated exported hpc rfl
    exact hwrote.serving hconnection hdialed harrived horder hn
  · have hat : sendingAt i data = .sending 0 data := if_neg hi
    rw [hat] at hs'
    obtain ⟨ok, activated, exported, -, hwrote, hfailed⟩ := wrote_sending hs'
    cases ok
    · exact hwrote.over (hfailed rfl) (le_of_eq hdialed) horder.sent_zero horder.sends
    · exact hwrote.serving hconnection hdialed harrived horder hn

theorem Inv.resume {input : Input ρ} (h : Inv u s) (hturn : InTurn s (.resume i input))
    (hgone : s.gone = false) (hpc : s.tasks[i]? = some pc) (hs' : s.resume u i pc input = some s') :
    Inv u s' := by
  cases h with
  | idle hs =>
    subst hs
    simp [new] at hpc
  | routing data hconnection hclient htasks hdialed hsent harrived =>
    rw [htasks] at hpc
    obtain ⟨rfl, rfl⟩ := eq_of_getElem?_singleton hpc
    exact inv_routed hconnection hclient htasks hdialed hsent harrived hs'
  | dialing data initialData result hconnection htasks hdialed hsent harrived hresult htransform =>
    rw [htasks] at hpc
    obtain ⟨rfl, rfl⟩ := eq_of_getElem?_singleton hpc
    exact inv_connected htasks hdialed hsent harrived hresult htransform hs'
  | serving n hconnection hdialed harrived horder =>
    exact horder.resume hturn hconnection hdialed harrived hpc hs'
  | closed hclosing hdialed hsent htasks =>
    rcases htasks with hgone' | htasks
    · rw [hgone] at hgone'
      cases hgone'
    · rcases htasks pc (List.mem_of_getElem? hpc) with rfl | ⟨data, rfl | rfl⟩
      · simp [resume_done] at hs'
      · obtain ⟨ok, activated, exported, -, hwrote⟩ := wrote_first hs'
        exact hwrote.over (hwrote.closing hclosing) hdialed hsent htasks
      · obtain ⟨ok, activated, exported, -, hwrote, -⟩ := wrote_sending hs'
        exact hwrote.over (hwrote.closing hclosing) hdialed hsent htasks

theorem Inv.onClose (h : Inv u s) : Inv u (s.onClose u) := by
  have hdialed := h.dialed_le
  have hsent := h.sent_zero
  unfold State.onClose
  simp only
  rcases s.connection with _ | connection
  · exact .closed rfl hdialed hsent (.inl rfl)
  · simp only
    split_ifs
    · exact .closed rfl hdialed hsent (.inl rfl)
    · exact .closed rfl hdialed hsent (.inl rfl)

theorem step_inv (a : Action ρ) (h : Inv u s) (hturn : InTurn s a) (hs' : step u s a = some s') :
    Inv u s' := by
  have hgone : s.gone = false := by
    by_contra hgone
    simp [step, hgone] at hs'
  simp only [step, hgone, Bool.false_eq_true, if_false] at hs'
  cases a with
  | receive data =>
    simp only at hs'
    split_ifs at hs' with hclosing
    obtain rfl := Option.some.inj hs'
    exact h.receive hturn (by simpa using hclosing)
  | resume i input =>
    obtain ⟨pc, hpc, hresume⟩ := Option.bind_eq_some_iff.1 hs'
    exact h.resume hturn hgone hpc hresume
  | onClose =>
    obtain rfl := Option.some.inj hs'
    exact h.onClose

/-- In a run whose packets come and whose coroutines go on in turn, a client has one stream. -/
theorem oneStream_of_inTurn (u : Setup ρ) {as : List (Action ρ)} {s : State ρ}
    (hturn : EachStep (step u) InTurn new as) (h : run (step u) new as = some s) :
    OneStream u s := by
  have hinv : Inv u s :=
    run_inv_of_each (fun _ a _ hs hC hstep => step_inv a hs hC hstep) (.idle rfl) hturn h
  exact hinv.oneStream

/-- A server with an adapter for the port that leaves the initial data as it is. -/
def plain : Setup Unit := ⟨true, none⟩

/-- Two packets, the second one during the first one's send. -/
theorem oneStream_of_inTurn_two_packets : ∃ s : State Unit,
    run (step plain) new [.receive [1], .resume 0 (.routed (some ())), .resume 0 (.connected true),
      .receive [2], .resume 0 (.wrote true false true), .resume 1 (.wrote true false true)] = some s
    ∧ s.sent = [(0, [1]), (0, [2])] ∧ OneStream plain s := by
  have hrun : ∃ s : State Unit,
      run (step plain) new [.receive [1], .resume 0 (.routed (some ())),
        .resume 0 (.connected true), .receive [2], .resume 0 (.wrote true false true),
        .resume 1 (.wrote true false true)] = some s
      ∧ s.sent = [(0, [1]), (0, [2])] := ⟨_, rfl, rfl⟩
  obtain ⟨s, hs, hsent⟩ := hrun
  refine ⟨s, hs, hsent, oneStream_of_inTurn plain ?_ hs⟩
  refine .cons (.inl rfl) rfl <| .cons ⟨by simp, nofun⟩ rfl <| .cons ⟨by simp, nofun⟩ rfl <|
    .cons (.inr ⟨⟨0, rfl⟩, rfl⟩) rfl <| .cons ⟨by simp, ?_⟩ rfl <| .cons ⟨?_, ?_⟩ rfl trivial
  · rintro k data ok activated exported - h
    cases h
    rfl
  · intro j hj
    obtain rfl : j = 0 := by omega
    rfl
  · rintro k data ok activated exported - h
    cases h
    rfl

/-- A packet that arrives during the dial dials again and goes to another backend, and one that
arrives while the sockmap is active is dropped. -/
theorem second_packet_dials_again :
    (∃ s : State Unit, run (step plain) new [.receive [1], .receive [2],
        .resume 0 (.routed (some ())), .resume 1 (.routed (some ())), .resume 0 (.connected true),
        .resume 1 (.connected true), .resume 0 (.wrote true false true),
        .resume 1 (.wrote true false true)] = some s
      ∧ s.dialed = 2 ∧ s.sent = [(0, [1]), (1, [2])] ∧ s.closing = false ∧ ¬ OneStream plain s)
    ∧ ∃ s : State Unit, run (step plain) new [.receive [1], .resume 0 (.routed (some ())),
        .resume 0 (.connected true), .resume 0 (.wrote true true true), .receive [2]] = some s
      ∧ s.dialed = 1 ∧ s.sent = [(0, [1])] ∧ s.tasks = [.done, .done] ∧ s.closing = false
      ∧ ¬ OneStream plain s := by
  refine ⟨⟨_, rfl, rfl, rfl, rfl, ?_⟩, ⟨_, rfl, rfl, rfl, rfl, rfl, ?_⟩⟩
  · rintro ⟨hdialed, -⟩
    exact absurd hdialed (by decide)
  · rintro ⟨-, -, hclosing | ⟨n, hsent, hdone⟩⟩
    · cases hclosing
    · have hn : 1 < n := hdone 1 rfl
      obtain ⟨m, rfl⟩ : ∃ m, n = m + 2 := ⟨n - 2, by omega⟩
      have htake : ([[1]] : List Bytes) = ([[1], [2]] : List Bytes).take (m + 2) := hsent
      simp at htake

end PhpTcp

end ProtocolProxy
