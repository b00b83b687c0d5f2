import ProtocolProxy.Proofs.Smtp

/-!
# Every exchange is answered, but one

From the line to its answer a session is in one of the phases of `Phase`: it looks for a backend,
sends the line, waits, passes the reply on, or says that there will be none.  Each await that fails
leads to the 421 line, except for one: when the backend closes the connection instead of answering
the end of a message, `forward_data` returns as if it had answered (`step_unanswered`), and the
client waits for what never comes (`settled_iff_answersMessage`).
-/

namespace ProtocolProxy

namespace Smtp

open Machine

variable {s₀ s s' t : State} {line rest : Bytes} {k n : ℕ} {i : Input} {a : Action}

/-- The latest line and what was read after it. -/
def LatestIs (s : State) (line : Bytes) (reply : Option Bytes → Prop) : Prop :=
  ∃ e log, s.log = e :: log ∧ e.line = line ∧ reply e.reply

/-- How far the exchange that began in `s₀` with `line` has come. -/
inductive Phase (s₀ : State) (line : Bytes) (s : State) : Prop
  | seeking (pc : Seeks s.pc line) (command : s₀.state = .command) (client : s.client = s₀.client)
  | sending {k : ℕ} {rest : Bytes} (pc : s.pc = .sending s₀.state line k rest)
      (latest : LatestIs s line fun _ => True) (client : s.client = s₀.client)
  | awaiting {k : ℕ} (pc : s.pc = .awaiting s₀.state line k)
      (latest : LatestIs s line fun _ => True) (client : s.client = s₀.client)
  | relaying {response rest : Bytes} (pc : s.pc = .relaying s₀.state line response rest)
      (latest : LatestIs s line (· = some response)) (ne : response ≠ [])
      (client : s.client ++ rest = s₀.client ++ response)
  | refusing {rest : Bytes} (pc : s.pc = .unavailable rest) (ne : rest ≠ [])
      (client : s.client ++ rest = s₀.client ++ errorUnavailable)
  | settled (settled : Settled s₀ line s)

theorem Settled.not_busy (h : Settled s₀ line t) : t.pc.busy = false := by
  rcases h with ⟨-, -, -, -, -, -, -, -, hpc⟩ | ⟨-, hpc⟩
  · rw [hpc]
    split_ifs <;> rfl
  · rw [hpc]
    rfl

theorem Seeks.busy {pc : Pc} (h : Seeks pc line) : pc.busy = true := by
  cases h <;> rfl

theorem Phase.fail (hclient : s.client = s₀.client) (e : String) : Phase s₀ line (s.fail e) := by
  refine .refusing rfl (by decide) ?_
  show s.client ++ errorUnavailable = _
  rw [hclient]

/-! ## The beginning -/

theorem Phase.serve (hex : s.Exchanges line) : Phase s line (s.serve line) := by
  unfold State.Exchanges at hex
  have hserves := serves_serve s line
  generalize s.serve line = t at hserves ⊢
  cases hserves with
  | tooLong => exact .refusing rfl (by decide) rfl
  | noDomain _ hstate hhelo hdomain =>
    simp [hstate, hdomain, isForwarded_of_isHelo hhelo] at hex
  | routing _ hstate => exact .seeking (.routing _ _) hstate rfl
  | noBackend =>
    refine Phase.fail ?_ _
    rfl
  | forward => exact .sending rfl ⟨_, _, rfl, rfl, trivial⟩ rfl
  | unknown _ hstate hhelo hforward => simp [hstate, hhelo, hforward] at hex

/-! ## One step -/

theorem Phase.unreachable (hclient : s.client = s₀.client) (e : String) :
    Phase s₀ line ((s.record line .unreachable).fail e) := by
  refine Phase.fail ?_ e
  exact hclient

theorem Phase.welcome (hstate : s₀.state = .command) (hclient : s.client = s₀.client)
    (data : Bytes) : Phase s₀ line (s.welcome line k data) := by
  unfold State.welcome
  simp only
  split_ifs
  · exact .unreachable hclient _
  · exact .sending (by rw [hstate]) ⟨_, _, rfl, rfl, trivial⟩ hclient

theorem Phase.reply {data : Bytes} (hlatest : LatestIs s line fun _ => True)
    (hclient : s.client = s₀.client) (hread : s.read k n = some (data, t)) (state : SmtpState) :
    Phase s₀ line
      { (t.setReply data).goto (.relaying s₀.state line data data) with state := state } := by
  obtain ⟨b, -, hpos, -, hle, rfl, rfl⟩ := read_eq_some hread
  obtain ⟨e, log, hlog, hline, -⟩ := hlatest
  have hreply (b' : Backend) : (s.setBackend k b').setReply (b.inbox.take n)
      = { s.setBackend k b' with log := { e with reply := some (b.inbox.take n) } :: log } :=
    setReply_eq hlog
  rw [hreply]
  refine .relaying rfl ⟨_, _, rfl, hline, rfl⟩ (fun h => ?_) ?_
  · have := congrArg List.length h
    simp only [List.length_take, List.length_nil] at this
    omega
  · show s.client ++ _ = _
    rw [hclient]

theorem replied_frame (s : State) (state : SmtpState) (line response : Bytes) :
    (s.replied state line response).log = s.log
      ∧ (s.replied state line response).client = s.client
      ∧ (s.replied state line response).pc
        = if state = .command ∧ commandToken line = "QUIT".toList then .returned none
          else .readLine := by
  unfold State.replied
  cases state with
  | data => exact ⟨rfl, rfl, rfl⟩
  | command =>
    simp only [true_and]
    refine ⟨?_, ?_, rfl⟩ <;> simp only [State.goto] <;> split_ifs <;> rfl

theorem Phase.replied {response : Bytes} (hlatest : LatestIs s line (· = some response))
    (hne : response ≠ []) (hclient : s.client = s₀.client ++ response) :
    Phase s₀ line (s.replied s₀.state line response) := by
  obtain ⟨e, log, hlog, hline, hreply⟩ := hlatest
  obtain ⟨hlog', hclient', hpc'⟩ := replied_frame s s₀.state line response
  exact .settled (Or.inl ⟨e, log, response, hlog'.trans hlog, hline, hreply, hne,
    hclient'.trans hclient, hpc'⟩)

/-- Some bytes of what is left are written to the client. -/
theorem writeClient_told {more : Bytes → Pc} {all : Bytes} (h : s.writeClient rest n more = some s')
    (hclient : s.client ++ rest = all) :
    s'.log = s.log ∧ s'.pc = more (rest.drop n) ∧ s'.client ++ rest.drop n = all
      ∧ (rest.drop n).length < rest.length := by
  unfold State.writeClient at h
  split_ifs at h with hn
  obtain rfl := Option.some.inj h
  refine ⟨rfl, rfl, ?_, ?_⟩
  · show s.client ++ rest.take n ++ rest.drop n = all
    rw [List.append_assoc, List.take_append_drop, hclient]
  · rw [List.length_drop]
    omega

theorem Phase.refuse {rest' : Bytes} (hpc : s.pc = if rest' = [] then .returned none
      else .unavailable rest')
    (hclient : s.client ++ rest' = s₀.client ++ errorUnavailable) : Phase s₀ line s := by
  split_ifs at hpc with hnil
  · subst hnil
    rw [List.append_nil] at hclient
    exact .settled (Or.inr ⟨hclient, hpc⟩)
  · exact .refusing hpc hnil hclient

/-- The line has been sent. -/
theorem Phase.flushed (hex : s₀.Exchanges line) (hlatest : LatestIs s line fun _ => True)
    (hclient : s.client = s₀.client)
    (h : Smtp.next s (.sending s₀.state line k rest) .flushed = some s') : Phase s₀ line s' := by
  unfold State.Exchanges at hex
  cases rest with
  | cons b rest => rcases hstate : s₀.state <;> rw [hstate] at h <;> cases h
  | nil =>
    rcases hstate : s₀.state with _ | _ <;> rw [hstate] at h hex <;>
      obtain rfl := Option.some.inj h
    · exact .awaiting (by rw [hstate]; rfl) hlatest hclient
    · simp only at hex
      rw [if_pos hex]
      exact .awaiting (by rw [hstate]; rfl) hlatest hclient

/-- The search for a backend goes on, or the line is sent, or the client is told that there is
none. -/
theorem Phase.next_seeking (hpc : Seeks s.pc line) (hstate : s₀.state = .command)
    (hclient : s.client = s₀.client) (h : next s s.pc i = some s') : Phase s₀ line s' := by
  generalize hp : s.pc = pc at h hpc
  cases hpc with
  | routing =>
    cases i with
    | routed result =>
      cases result with
      | ok result =>
        obtain rfl := Option.some.inj h
        exact .seeking (.connecting _ _ _) hstate hclient
      | error e =>
        obtain rfl := Option.some.inj h
        exact .unreachable hclient _
    | _ => cases h
  | connecting =>
    cases i with
    | connected =>
      obtain rfl := Option.some.inj h
      exact .seeking (.greeted _ _) hstate hclient
    | failed | timedOut =>
      obtain rfl := Option.some.inj h
      exact .unreachable hclient _
    | _ => cases h
  | greeted =>
    cases i with
    | read n =>
      obtain ⟨⟨data, t⟩, hread, rfl⟩ := Option.map_eq_some_iff.1 h
      obtain ⟨b, -, -, -, -, -, rfl⟩ := read_eq_some hread
      refine Phase.welcome hstate ?_ data
      exact hclient
    | eof | failed | timedOut =>
      obtain rfl := Option.some.inj h
      exact .unreachable hclient _
    | _ => cases h

theorem Phase.next_sending (hex : s₀.Exchanges line) (hlatest : LatestIs s line fun _ => True)
    (hclient : s.client = s₀.client)
    (h : Smtp.next s (.sending s₀.state line k rest) i = some s') : Phase s₀ line s' := by
  cases i with
  | wrote n =>
    obtain ⟨b, -, rfl⟩ := writeBackend_eq_some h
    exact .sending rfl hlatest hclient
  | flushed => exact .flushed hex hlatest hclient h
  | failed | timedOut =>
    rcases hstate : s₀.state <;> rw [hstate] at h <;> obtain rfl := Option.some.inj h <;>
      exact .fail hclient _
  | _ => rcases hstate : s₀.state <;> rw [hstate] at h <;> cases h

/-- The reply is relayed, or the client is told that there is none, unless the end of a message is
what was not answered. -/
theorem Phase.next_awaiting (hlatest : LatestIs s line fun _ => True)
    (hclient : s.client = s₀.client) (hanswers : s₀.state = .data → i ≠ .eof)
    (h : Smtp.next s (.awaiting s₀.state line k) i = some s') : Phase s₀ line s' := by
  rcases hstate : s₀.state with _ | _ <;> rw [hstate] at h
  · cases i with
    | read n =>
      obtain ⟨⟨data, t⟩, hread, rfl⟩ := Option.map_eq_some_iff.1 h
      have hreply := Phase.reply hlatest hclient hread (t.setReply data).state
      rw [hstate] at hreply
      exact hreply
    | eof | failed | timedOut =>
      obtain rfl := Option.some.inj h
      exact .fail hclient _
    | _ => cases h
  · cases i with
    | read n =>
      obtain ⟨⟨data, t⟩, hread, rfl⟩ := Option.map_eq_some_iff.1 h
      have hreply := Phase.reply hlatest hclient hread .command
      rw [hstate] at hreply
      exact hreply
    | eof => exact absurd rfl (hanswers hstate)
    | failed | timedOut =>
      obtain rfl := Option.some.inj h
      exact .fail hclient _
    | _ => cases h

theorem Phase.next_relaying {response : Bytes} (hlatest : LatestIs s line (· = some response))
    (hne : response ≠ []) (hclient : s.client ++ rest = s₀.client ++ response)
    (htaken : ∀ e, i ≠ .failed e)
    (h : Smtp.next s (.relaying s₀.state line response rest) i = some s') : Phase s₀ line s' := by
  cases i with
  | wrote n =>
    obtain ⟨hlog, hpc', hclient', -⟩ := writeClient_told h hclient
    refine .relaying hpc' ?_ hne hclient'
    unfold LatestIs
    rw [hlog]
    exact hlatest
  | flushed =>
    cases rest with
    | nil =>
      obtain rfl := Option.some.inj h
      exact .replied hlatest hne (by rw [← hclient, List.append_nil])
    | cons b rest => cases h
  | failed e => exact absurd rfl (htaken e)
  | _ => cases h

theorem Phase.next_refusing (hclient : s.client ++ rest = s₀.client ++ errorUnavailable)
    (htaken : ∀ e, i ≠ .failed e) (h : Smtp.next s (.unavailable rest) i = some s') :
    Phase s₀ line s' := by
  cases i with
  | wrote n =>
    have h : s.writeClient rest n (fun rest => if rest = [] then .returned none
        else .unavailable rest) = some s' := h
    obtain ⟨-, hpc', hclient', -⟩ := writeClient_told h hclient
    exact .refuse hpc' hclient'
  | failed e => exact absurd rfl (htaken e)
  | _ => cases h

theorem Handling.busy (h : Handling s a) : s.pc.busy = true := by
  unfold Handling at h
  split at h
  · exact h.1
  · exact h

/-- What is written to the client is taken. -/
theorem Handling.ne_failed (h : Handling s (.input i)) (htells : s.pc.tells = true) (e : String) :
    i ≠ .failed e := by
  rintro rfl
  cases h.2.symm.trans htells

/-- Every await but the one leads to the next phase. -/
theorem Phase.next (hex : s₀.Exchanges line) (hs : Phase s₀ line s)
    (h : next s s.pc i = some s') (hhandling : Handling s (.input i))
    (hanswers : AnswersMessage s (.input i)) : Phase s₀ line s' := by
  cases hs with
  | seeking hpc hstate hclient => exact .next_seeking hpc hstate hclient h
  | sending hpc hlatest hclient =>
    rw [hpc] at h
    exact .next_sending hex hlatest hclient h
  | @awaiting k hpc hlatest hclient =>
    rw [hpc] at h
    refine .next_awaiting hlatest hclient ?_ h
    rintro hstate rfl
    exact hanswers line k (by rw [hpc, hstate])
  | relaying hpc hlatest hne hclient =>
    have htaken := hhandling.ne_failed (by rw [hpc]; rfl)
    rw [hpc] at h
    exact .next_relaying hlatest hne hclient htaken h
  | refusing hpc hne hclient =>
    have htaken := hhandling.ne_failed (by rw [hpc]; rfl)
    rw [hpc] at h
    exact .next_refusing hclient htaken h
  | settled hsettled => cases hsettled.not_busy.symm.trans hhandling.busy

theorem Phase.setBackend (hs : Phase s₀ line s) (k : ℕ) (b : Backend) :
    Phase s₀ line (s.setBackend k b) := by
  cases hs with
  | seeking hpc hstate hclient => exact .seeking hpc hstate hclient
  | sending hpc hlatest hclient => exact .sending hpc hlatest hclient
  | awaiting hpc hlatest hclient => exact .awaiting hpc hlatest hclient
  | relaying hpc hlatest hne hclient => exact .relaying hpc hlatest hne hclient
  | refusing hpc hne hclient => exact .refusing hpc hne hclient
  | settled hsettled => exact .settled hsettled

theorem step_phase (hex : s₀.Exchanges line) (hs : Phase s₀ line s) (hhandling : Handling s a)
    (hanswers : AnswersMessage s a) (h : step s a = some s') : Phase s₀ line s' := by
  cases a with
  | input i => exact hs.next hex h hhandling hanswers
  | arrive k data =>
    obtain ⟨b, -, rfl⟩ := Option.map_eq_some_iff.1 h
    exact hs.setBackend k _

/-- The backend has closed instead of answering the end of a message: the session goes on, and the
client has been told nothing. -/
theorem step_unanswered (hs : Phase s₀ line s) (hanswers : ¬ AnswersMessage s a)
    (h : step s a = some s') : s'.pc = .readLine ∧ s'.client = s₀.client := by
  obtain ⟨rfl, line', k, hpc⟩ : a = .input .eof ∧ ∃ line k, s.pc = .awaiting .data line k := by
    unfold AnswersMessage at hanswers
    split at hanswers
    · exact ⟨rfl, by simpa using hanswers⟩
    · exact absurd trivial hanswers
  have hclient : s.client = s₀.client := by
    cases hs with
    | awaiting _ _ hclient | sending _ _ hclient | seeking _ _ hclient => exact hclient
    | relaying hat | refusing hat => cases hpc.symm.trans hat
    | settled hsettled =>
      have := hsettled.not_busy
      rw [hpc] at this
      cases this
  simp only [step, hpc, Smtp.next, Option.some.injEq] at h
  subst h
  exact ⟨rfl, hclient⟩

theorem not_settled_of_silent (hpc : t.pc = .readLine) (hclient : t.client = s₀.client) :
    ¬ Settled s₀ line t := by
  rintro (⟨e, log, reply, -, -, -, hne, htold, -⟩ | ⟨htold, hover⟩)
  · rw [hclient] at htold
    exact hne (List.self_eq_append_right.1 htold)
  · cases hpc.symm.trans hover

/-! ## The whole exchange -/

/-- An exchange that is over was settled exactly if no backend closed instead of answering the end
of a message. -/
theorem Phase.settled_iff (hex : s₀.Exchanges line) :
    ∀ {as : List Action} {s : State}, Phase s₀ line s → EachStep step Handling s as →
      run step s as = some t → t.pc.busy = false →
      (Settled s₀ line t ↔ EachStep step AnswersMessage s as)
  | [], s, hs, _, hrun, hover => by
    cases hrun
    refine ⟨fun _ => trivial, fun _ => ?_⟩
    cases hs with
    | settled hsettled => exact hsettled
    | seeking hpc => cases hover.symm.trans hpc.busy
    | sending hpc | awaiting hpc | relaying hpc | refusing hpc =>
      rw [hpc] at hover
      cases hover
  | a :: as, s, hs, hhandling, hrun, hover => by
    obtain ⟨s', h₁, h₂⟩ := run_cons.1 hrun
    have hrest : EachStep step Handling s' as := hhandling.2 s' h₁
    by_cases hanswers : AnswersMessage s a
    · have hs' : Phase s₀ line s' := step_phase hex hs hhandling.1 hanswers h₁
      rw [hs'.settled_iff hex hrest h₂ hover]
      exact ⟨fun h => .cons hanswers h₁ h, fun h => h.2 s' h₁⟩
    · obtain ⟨hpc, hclient⟩ := step_unanswered hs hanswers h₁
      -- the session waits for the next line, so this was the last step
      cases as with
      | nil =>
        cases h₂
        exact ⟨fun h => absurd h (not_settled_of_silent hpc hclient), fun h => absurd h.1 hanswers⟩
      | cons a' as =>
        have := hrest.1.busy
        rw [hpc] at this
        cases this

/-! ## It ends -/

theorem errorUnavailable_length : errorUnavailable.length = 27 := rfl

theorem fail_awaits (s : State) (e : String) : (s.fail e).pc.awaits = 28 := rfl

theorem writeClient_awaits {more : Bytes → Pc} {m : ℕ} (h : s.writeClient rest n more = some s')
    (hmore : ∀ r, (more r).awaits ≤ r.length + m) : s'.pc.awaits < rest.length + m := by
  obtain ⟨-, hpc, -, hlt⟩ := writeClient_told h rfl
  rw [hpc]
  have := hmore (rest.drop n)
  omega

theorem writeBackend_awaits {more : Bytes → Pc} (h : s.writeBackend k rest n more = some s')
    (hmore : ∀ r, (more r).awaits = r.length + recvBuffer + 31) :
    s'.pc.awaits < rest.length + recvBuffer + 31 := by
  unfold State.writeBackend at h
  split at h
  · split_ifs at h with hn
    obtain rfl := Option.some.inj h
    show (more (rest.drop n)).awaits < _
    rw [hmore, List.length_drop]
    omega
  · cases h

theorem welcome_awaits (s : State) (line : Bytes) (k : ℕ) (data : Bytes) :
    (s.welcome line k data).pc.awaits ≤ line.length + recvBuffer + 31 := by
  unfold State.welcome
  simp only
  split_ifs
  · rw [fail_awaits]
    omega
  · exact le_rfl

theorem read_length {data : Bytes} (h : s.read k n = some (data, t)) :
    data.length ≤ recvBuffer := by
  obtain ⟨b, -, -, hle, -, rfl, -⟩ := read_eq_some h
  rw [List.length_take]
  omega

theorem Seeks.next_awaits (hpc : Seeks s.pc line) (h : next s s.pc i = some s') :
    s'.pc.awaits < s.pc.awaits := by
  generalize s.pc = pc at h hpc
  cases hpc with
  | routing =>
    cases i with
    | routed result =>
      cases result with
      | ok result =>
        obtain rfl := Option.some.inj h
        exact Nat.lt_succ_self _
      | error e =>
        obtain rfl := Option.some.inj h
        rw [fail_awaits, Pc.awaits]
        omega
    | _ => cases h
  | connecting =>
    cases i with
    | connected =>
      obtain rfl := Option.some.inj h
      exact Nat.lt_succ_self _
    | failed | timedOut =>
      obtain rfl := Option.some.inj h
      rw [fail_awaits, Pc.awaits]
      omega
    | _ => cases h
  | greeted =>
    cases i with
    | read n =>
      obtain ⟨⟨data, t⟩, -, rfl⟩ := Option.map_eq_some_iff.1 h
      exact Nat.lt_succ_of_le (welcome_awaits t line _ data)
    | eof | failed | timedOut =>
      obtain rfl := Option.some.inj h
      rw [fail_awaits, Pc.awaits]
      omega
    | _ => cases h

theorem next_sending_awaits {state : SmtpState}
    (h : next s (.sending state line k rest) i = some s') :
    s'.pc.awaits < (Pc.sending state line k rest).awaits := by
  cases i with
  | wrote n => exact writeBackend_awaits h fun _ => rfl
  | flushed =>
    cases state <;> cases rest <;> cases h
    · exact Nat.lt_succ_self _
    · simp only [State.goto]
      split_ifs <;> simp only [Pc.awaits] <;> omega
  | failed | timedOut =>
    obtain ⟨e, rfl⟩ : ∃ e, s.fail e = s' := by
      cases state <;> exact ⟨_, Option.some.inj h⟩
    rw [fail_awaits, Pc.awaits]
    omega
  | _ => cases state <;> cases h

theorem next_awaiting_awaits {state : SmtpState} (h : next s (.awaiting state line k) i = some s') :
    s'.pc.awaits < (Pc.awaiting state line k).awaits := by
  have hfail : 28 < (Pc.awaiting state line k).awaits := by
    rw [Pc.awaits, recvBuffer]
    omega
  cases i with
  | read n =>
    have h : ∃ data t st, s.read k n = some (data, t)
        ∧ s' = { (t.setReply data).goto (.relaying state line data data) with state := st } := by
      cases state <;> obtain ⟨⟨data, t⟩, hread, rfl⟩ := Option.map_eq_some_iff.1 h
      · exact ⟨data, t, (t.setReply data).state, hread, rfl⟩
      · exact ⟨data, t, _, hread, rfl⟩
    obtain ⟨data, t, st, hread, rfl⟩ := h
    have hlen := read_length hread
    show data.length + 29 < recvBuffer + 30
    omega
  | eof =>
    cases state <;> obtain rfl := Option.some.inj h
    · exact hfail
    · exact Nat.zero_lt_succ _
  | failed | timedOut =>
    obtain ⟨e, rfl⟩ : ∃ e, s.fail e = s' := by
      cases state <;> exact ⟨_, Option.some.inj h⟩
    exact hfail
  | _ => cases state <;> cases h

theorem next_relaying_awaits {state : SmtpState} {response : Bytes}
    (h : next s (.relaying state line response rest) i = some s') :
    s'.pc.awaits < (Pc.relaying state line response rest).awaits := by
  cases i with
  | wrote n => exact writeClient_awaits h fun _ => le_rfl
  | flushed =>
    cases rest with
    | nil =>
      obtain rfl := Option.some.inj h
      obtain ⟨-, -, hpc⟩ := replied_frame s state line response
      rw [hpc]
      split_ifs <;> exact Nat.zero_lt_succ _
    | cons b rest => cases h
  | failed e =>
    obtain rfl := Option.some.inj h
    rw [fail_awaits, Pc.awaits]
    omega
  | _ => cases h

/-- Each await that returns leaves fewer of them. -/
theorem next_awaits (h : next s s.pc i = some s') (hbusy : s.pc.busy = true) :
    s'.pc.awaits < s.pc.awaits := by
  rcases hpc : s.pc <;> rw [hpc] at h hbusy
  case greeting | readLine | returned => cases hbusy
  case routing | connecting | greeted =>
    rw [← hpc] at h ⊢
    exact Seeks.next_awaits (by rw [hpc]; constructor) h
  case sending => exact next_sending_awaits h
  case awaiting => exact next_awaiting_awaits h
  case relaying => exact next_relaying_awaits h
  case syntaxError rest =>
    cases i with
    | wrote n => exact writeClient_awaits h fun _ => le_rfl
    | flushed =>
      cases rest <;> cases h
      exact Nat.zero_lt_succ _
    | failed e =>
      obtain rfl := Option.some.inj h
      rw [fail_awaits, Pc.awaits]
      omega
    | _ => cases h
  case unknownCommand rest =>
    cases i with
    | wrote n => exact writeClient_awaits h fun _ => le_rfl
    | flushed =>
      cases rest <;> cases h
      exact Nat.zero_lt_succ _
    | failed e =>
      cases h
      exact Nat.zero_lt_succ _
    | _ => cases h
  case unavailable rest =>
    cases i with
    | wrote n =>
      have h : s.writeClient rest n (fun rest => if rest = [] then .returned none
          else .unavailable rest) = some s' := h
      refine writeClient_awaits h fun r => ?_
      split_ifs
      · exact Nat.zero_le _
      · exact le_rfl
    | failed e =>
      cases h
      exact Nat.zero_lt_succ _
    | _ => cases h

/-- The awaits of a run and those that are left are no more than there were to be. -/
theorem run_awaits : ∀ {as : List Action} {s : State}, EachStep step Handling s as →
    run step s as = some t → as.countP Action.isInput + t.pc.awaits ≤ s.pc.awaits
  | [], s, _, hrun => by
    cases hrun
    simp
  | a :: as, s, hhandling, hrun => by
    obtain ⟨s', h₁, h₂⟩ := run_cons.1 hrun
    have hrest := run_awaits (hhandling.2 s' h₁) h₂
    cases a with
    | input i =>
      have hlt := next_awaits h₁ hhandling.1.busy
      rw [List.countP_cons_of_pos rfl]
      omega
    | arrive k data =>
      obtain ⟨b, -, rfl⟩ := Option.map_eq_some_iff.1 h₁
      rw [List.countP_cons_of_neg (by simp [Action.isInput])]
      exact hrest

theorem serve_awaits (s : State) (line : Bytes) :
    (s.serve line).pc.awaits ≤ line.length + recvBuffer + 34 := by
  have hserves := serves_serve s line
  generalize s.serve line = t at hserves ⊢
  cases hserves with
  | tooLong =>
    rw [State.goto, Pc.awaits, errorUnavailable_length]
    omega
  | noDomain =>
    show 47 ≤ line.length + 8192 + 34
    omega
  | routing => exact le_rfl
  | noBackend =>
    rw [fail_awaits]
    omega
  | forward =>
    simp only [Pc.awaits]
    omega
  | unknown =>
    show 22 ≤ line.length + recvBuffer + 34
    omega

/-- A line that is still being handled has an await that can return. -/
theorem Phase.exists_input (hs : Phase s₀ line s) (hbusy : s.pc.busy = true) :
    ∃ i, Handling s (.input i) ∧ AnswersMessage s (.input i)
      ∧ (step s (.input i)).isSome = true := by
  cases hs with
  | seeking hpc =>
    generalize hp : s.pc = pc at hpc
    cases hpc with
    | routing domain =>
      exact ⟨.routed (.ok ⟨[], .smtp, []⟩), hbusy, trivial, by rw [step, hp]; rfl⟩
    | connecting | greeted => exact ⟨.timedOut, hbusy, trivial, by rw [step, hp]; rfl⟩
  | sending hpc | awaiting hpc =>
    refine ⟨.timedOut, hbusy, trivial, ?_⟩
    rw [step, hpc]
    rcases s₀.state <;> rfl
  | @relaying response rest hpc =>
    cases rest with
    | nil => exact ⟨.flushed, hbusy, trivial, by rw [step, hpc]; rfl⟩
    | cons b rest =>
      refine ⟨.wrote 1, hbusy, trivial, ?_⟩
      simp [step, hpc, Smtp.next, State.writeClient]
  | @refusing rest hpc hne =>
    refine ⟨.wrote 1, hbusy, trivial, ?_⟩
    have hlen : 1 ≤ rest.length := List.length_pos_iff.2 hne
    simp [step, hpc, Smtp.next, State.writeClient, hlen]
  | settled hsettled => cases hsettled.not_busy.symm.trans hbusy

/-- Any session state in which a line is read that a backend is to answer, and any behaviour of the
resolver and the backends while it is handled, the client taking what is written to it.  When the
exchange is over, it has been settled exactly if no backend closed instead of answering the end of a
message.  The handling of the line has a bounded number of awaits, and until it is over one of them
can return. -/
theorem settled_iff_answersMessage (s : State) (line : Bytes) (as : List Action) (t : State)
    (hpc : s.pc = .readLine) (hline : IsLine line) (hex : s.Exchanges line)
    (hhandling : EachStep step Handling (s.serve line) as)
    (hrun : run step s (.input (.line line) :: as) = some t) :
    (t.pc.busy = false → (Settled s line t ↔ EachStep step AnswersMessage (s.serve line) as))
      ∧ as.countP Action.isInput ≤ line.length + recvBuffer + 34
      ∧ (EachStep step AnswersMessage (s.serve line) as → t.pc.busy = true →
        ∃ i, Handling t (.input i) ∧ AnswersMessage t (.input i)
          ∧ (step t (.input i)).isSome = true) := by
  have hrun : run step (s.serve line) as = some t := by
    obtain ⟨s', h₁, h₂⟩ := run_cons.1 hrun
    simp only [step, hpc, next, if_pos hline, Option.some.injEq] at h₁
    rwa [h₁]
  have hbegin : Phase s line (s.serve line) := .serve hex
  refine ⟨fun hover => hbegin.settled_iff hex hhandling hrun hover, ?_, fun hanswers hbusy => ?_⟩
  · have hawaits := run_awaits hhandling hrun
    have hserve := serve_awaits s line
    omega
  · have hphase : Phase s line t :=
      run_inv_of_each (fun _ _ _ hs hC h => step_phase hex hs hC.1 hC.2 h) hbegin
        (hhandling.and hanswers) hrun
    exact hphase.exists_input hbusy

/-- A session that waits for a line, with one backend. -/
def waiting (state : SmtpState) : State :=
  ⟨.readLine, state, some 0, [⟨[], [], []⟩], [], none, [], []⟩

/-- The end of a message is answered with the backend's reply. -/
theorem settled_iff_answersMessage_accepted :
    ∃ t, run step (waiting .data) [.input (.line (ascii ".\r\n")), .input (.wrote 3),
        .input .flushed, .arrive 0 (ascii "250 ok\r\n"), .input (.read 8), .input (.wrote 8),
        .input .flushed] = some t
      ∧ t.client = ascii "250 ok\r\n" ∧ Settled (waiting .data) (ascii ".\r\n") t := by
  have hrun : ∃ t, run step (waiting .data) [.input (.line (ascii ".\r\n")), .input (.wrote 3),
        .input .flushed, .arrive 0 (ascii "250 ok\r\n"), .input (.read 8), .input (.wrote 8),
        .input .flushed] = some t ∧ t.client = ascii "250 ok\r\n" ∧ t.pc.busy = false :=
    ⟨_, rfl, rfl, rfl⟩
  obtain ⟨t, hrun, hclient, hover⟩ := hrun
  have hex : (waiting .data).Exchanges (ascii ".\r\n") := by
    show trimAscii (ascii ".\r\n") = dataTerminator
    rfl
  refine ⟨t, hrun, hclient, ?_⟩
  refine ((settled_iff_answersMessage _ _ _ t rfl (by decide) hex ?_ hrun).1 hover).2 ?_
  · exact .cons rfl rfl <| .cons rfl rfl <| .cons rfl rfl <| .cons rfl rfl <| .cons rfl rfl <|
      .cons rfl rfl trivial
  · exact .cons trivial rfl <| .cons trivial rfl <| .cons trivial rfl <| .cons trivial rfl <|
      .cons trivial rfl <| .cons trivial rfl trivial

/-- The backend closes after the end of a message: the session waits for the next line, and nothing
has been written to the client. -/
theorem closed_message_unanswered :
    ∃ t, run step (waiting .data) [.input (.line (ascii ".\r\n")), .input (.wrote 3),
        .input .flushed, .input .eof] = some t
      ∧ t.pc = .readLine ∧ t.client = [] ∧ ¬ Settled (waiting .data) (ascii ".\r\n") t :=
  ⟨_, rfl, rfl, rfl, not_settled_of_silent rfl rfl⟩

end Smtp

end ProtocolProxy
