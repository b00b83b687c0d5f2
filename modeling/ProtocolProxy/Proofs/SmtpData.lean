import ProtocolProxy.Proofs.Smtp

/-!
# Where a message ends

The session ends a message at the first line that is a dot once blanks are trimmed, the backend at
the first line that is nothing but a dot.  They agree as long as no written line is one and not the
other (`agreed_iff_dotExact`).
-/

namespace ProtocolProxy

namespace Smtp

open Machine

variable {s s' : State} {line rest : Bytes} {k n : ℕ} {e : Entry} {ends : LineEnd}
  {log : List Entry}

/-! ## The backend's view -/

theorem backendData_withheld (h : e.withheld = true) :
    backendData ends (e :: log) = backendData ends log := by
  rcases e with ⟨line, state, backend, fate, reply⟩
  rcases fate <;> first | rfl | cases h

theorem backendData_opened (h : e.fate = .opened k) : backendData ends (e :: log) = false := by
  unfold backendData
  rw [h]

theorem backendData_body (h : e.fate = .forwarded k) (hlog : backendData ends log = true) :
    backendData ends (e :: log) = !(e.line = dotLine && startsLine ends log) := by
  rw [backendData, h]
  simp only [hlog, if_true]

theorem backendData_command (h : e.fate = .forwarded k) (hlog : backendData ends log = false) :
    backendData ends (e :: log)
      = (isDataOnlyLine e.line && e.reply.any fun r => dataReadyCode.isPrefixOf r) := by
  rw [backendData, h]
  simp only [hlog, Bool.false_eq_true, if_false]

/-- A command is sent when the backend is in no message. -/
def Outside (ends : LineEnd) (log : List Entry) : Prop :=
  ∃ e old, log = e :: old ∧ ((∃ k, e.fate = .opened k) ∨ backendData ends old = false)

/-- What the two sides think at each point. -/
def Synced (ends : LineEnd) (s : State) : Prop :=
  match s.pc with
  | .readLine => s.state = .data ↔ backendData ends s.log = true
  | .sending .data _ _ _ => backendData ends s.log.tail = true
  | .sending .command _ _ _ | .awaiting .command _ _ => Outside ends s.log
  | .awaiting .data _ _ => backendData ends s.log = false ∧ backendData ends s.log.tail = true
  | .relaying .data _ _ _ => backendData ends s.log = false
  | .relaying .command line response _ => backendData ends s.log
      = (isDataOnlyLine line && dataReadyCode.isPrefixOf response)
  | .unavailable _ | .returned _ => True
  | _ => backendData ends s.log = false

theorem Synced.agreed (h : Synced ends s) : Agreed ends s := by
  unfold Synced at h
  refine ⟨fun hpc => ?_, fun line k hpc => ?_⟩
  · rw [hpc] at h
    exact h
  · rw [hpc] at h
    exact h.1

/-! ## What a step does to the two views -/

theorem Synced.talk (h : Synced ends s) (hst : Stage s) {client : Bytes} {pc : Pc}
    (htalks : Talks s.pc pc) : Synced ends { s with client := client, pc := pc } := by
  unfold Synced at h ⊢
  unfold Stage at hst
  generalize hpc : s.pc = p at h hst htalks
  -- back to reading lines the session comes in `Command` mode
  have hread : s.state = .command → backendData ends s.log = false →
      (s.state = .data ↔ backendData ends s.log = true) := by
    intro hstate hback
    simp [hstate, hback]
  rcases htalks with _ | _ | _ | _ | ⟨state, _, _, _, _⟩ | _ | _ | _ | _ | _ | _ | _ <;>
    first
    | exact trivial
    | exact h
    | exact hread hst.2 h
    | skip
  rcases state with _ | _ <;> exact h

theorem Synced.serve (h : Synced ends s) (hpc : s.pc = .readLine) : Synced ends (s.serve line) := by
  unfold Synced at h
  rw [hpc] at h
  have hcommand : s.state = .command → backendData ends s.log = false := by
    intro hstate
    simpa [hstate] using h
  have hserves := serves_serve s line
  generalize s.serve line = t at hserves ⊢
  cases hserves with
  | tooLong | noBackend => exact trivial
  | noDomain _ hstate => exact (backendData_withheld rfl).trans (hcommand hstate)
  | routing _ hstate => exact hcommand hstate
  | forward _ _ k hback =>
    unfold Synced
    rcases hstate : s.state with _ | _
    · exact ⟨_, s.log, rfl, .inr (hcommand hstate)⟩
    · exact h.1 hstate
  | unknown _ hstate => exact (backendData_withheld rfl).trans (hcommand hstate)

/-- The line of a message that is being written, or whose answer is awaited. -/
theorem Inv.body_line (hs : Inv s)
    (hpc : (∃ rest, s.pc = .sending .data line k rest) ∨ s.pc = .awaiting .data line k) :
    ∃ e old, s.log = e :: old ∧ e.line = line ∧ e.fate = .forwarded k := by
  have hst := hs.stage
  unfold Stage at hst
  have hlatest : Latest s.backend s.log line k .data none := by
    rcases hpc with ⟨rest, hpc⟩ | hpc <;> rw [hpc] at hst
    · exact hst.2.2
    · exact hst.2.2.2
  obtain ⟨-, e, old, hlog, hline, hstate, -, hfate⟩ := hlatest
  refine ⟨e, old, hlog, hline, hfate.resolve_right fun hopened => ?_⟩
  have hj := hs.justified e (hlog ▸ List.mem_cons_self)
  unfold Entry.Justified at hj
  rw [hopened] at hj
  cases hstate.symm.trans hj.2.1

/-- The last line of a message has been written. -/
theorem Synced.await (h : Synced ends s) (hs : Inv s) (hpc : s.pc = .sending .data line k [])
    (hexact : line = dotLine) (hstarts : startsLine ends s.log.tail = true) :
    Synced ends (s.goto (.awaiting .data line k)) := by
  obtain ⟨e, old, hlog, hline, hfate⟩ := hs.body_line (.inl ⟨[], hpc⟩)
  unfold Synced at h
  rw [hpc] at h
  have hold : backendData ends old = true := by
    have htail : s.log.tail = old := by rw [hlog, List.tail_cons]
    rw [← htail]
    exact h
  rw [hlog, List.tail_cons] at hstarts
  refine ⟨?_, h⟩
  show backendData ends s.log = false
  rw [hlog, backendData_body hfate hold, hline, hexact, hstarts]
  rfl

/-- Another line of a message has been written. -/
theorem Synced.passed (h : Synced ends s) (hs : Inv s) (hpc : s.pc = .sending .data line k [])
    (hne : trimAscii line ≠ dataTerminator) : Synced ends (s.goto .readLine) := by
  obtain ⟨e, old, hlog, hline, hfate⟩ := hs.body_line (.inl ⟨[], hpc⟩)
  have hst := hs.stage
  unfold Stage at hst
  rw [hpc] at hst
  unfold Synced at h
  rw [hpc] at h
  have hold : backendData ends old = true := by
    have htail : s.log.tail = old := by rw [hlog, List.tail_cons]
    rw [← htail]
    exact h
  have hline' : e.line ≠ dotLine := by
    intro hdotLine
    rw [← hline, hdotLine] at hne
    exact hne rfl
  show s.state = .data ↔ backendData ends s.log = true
  rw [hlog, backendData_body hfate hold]
  simp [hst.2.1, hline']

theorem Synced.reply (h : Synced ends s) (hs : Inv s) (hpc : s.pc = .awaiting .command line k)
    (data : Bytes) : Synced ends ((s.setReply data).goto (.relaying .command line data data)) := by
  have hst := hs.stage
  unfold Stage at hst
  unfold Synced at h
  rw [hpc] at h hst
  obtain ⟨-, -, -, -, e, old, hlog, hline, -, -, hfate⟩ := hst
  obtain ⟨e', old', hlog', hcase⟩ := h
  obtain ⟨rfl, rfl⟩ := List.cons.inj (hlog.symm.trans hlog')
  rw [setReply_eq hlog]
  show backendData ends (⟨e.line, e.state, e.backend, e.fate, some data⟩ :: old) = _
  rcases hfate with hforwarded | hopened
  · have hold : backendData ends old = false := by
      rcases hcase with ⟨j, hj⟩ | hold
      · cases hforwarded.symm.trans hj
      · exact hold
    rw [hforwarded, backendData_command rfl hold, hline]
    rfl
  · -- an `EHLO` is not a `DATA` line
    have hnot : isDataOnlyLine line = false := by
      by_contra hdata
      rw [Bool.not_eq_false] at hdata
      have hj := hs.justified e (hlog ▸ List.mem_cons_self)
      unfold Entry.Justified at hj
      rw [hopened, hline, commandToken_of_isDataOnlyLine hdata] at hj
      cases hj.2.2.1
    rw [hopened, backendData_opened rfl, hnot]
    rfl

theorem Synced.finalReply (h : Synced ends s) (hs : Inv s) (hpc : s.pc = .awaiting .data line k)
    (data : Bytes) :
    Synced ends
      { (s.setReply data).goto (.relaying .data line data data) with state := .command } := by
  obtain ⟨e, old, hlog, hline, hfate⟩ := hs.body_line (.inr hpc)
  unfold Synced at h
  rw [hpc] at h
  obtain ⟨hend, htail⟩ := h
  rw [hlog, List.tail_cons] at htail
  rw [hlog, backendData_body hfate htail] at hend
  rw [setReply_eq hlog]
  show backendData ends (⟨e.line, e.state, e.backend, e.fate, some data⟩ :: old) = false
  rw [hfate, backendData_body rfl htail]
  exact hend

theorem Synced.replied (h : Synced ends s) (hs : Inv s) {state : SmtpState} {response : Bytes}
    (hpc : s.pc = .relaying state line response []) :
    Synced ends (s.replied state line response) := by
  have hst := hs.stage
  unfold Stage at hst
  unfold Synced at h
  rw [hpc] at h hst
  obtain ⟨-, hstate, -⟩ := hst
  unfold State.replied
  rcases state with _ | _ <;> dsimp only at h ⊢
  · have hback : backendData ends s.log
        = (isDataOnlyLine line && dataReadyCode.isPrefixOf response) := h
    by_cases hquit : commandToken line = "QUIT".toList
    · rw [if_pos hquit]
      exact trivial
    · rw [if_neg hquit]
      by_cases hready : (isDataOnlyLine line && dataReadyCode.isPrefixOf response) = true
      · rw [if_pos hready]
        show SmtpState.data = .data ↔ backendData ends s.log = true
        simp [hback, hready]
      · rw [if_neg hready]
        show s.state = .data ↔ backendData ends s.log = true
        rw [hback, hstate]
        simp [hready]
  · show s.state = .data ↔ backendData ends s.log = true
    simp [hstate, h]

theorem Synced.read (h : Synced ends s) {data : Bytes} (hread : s.read k n = some (data, s')) :
    Synced ends s' := by
  obtain ⟨b, -, -, -, -, -, rfl⟩ := read_eq_some hread
  exact h

theorem Moves.synced {i : Input} (hm : Moves s i s') (hs : Inv s) (h : Synced ends s)
    (hdot : DotExact ends s (.input i)) : Synced ends s' := by
  rcases hm with ⟨client, pc, htalks, -⟩ | ⟨line, hpc, -⟩ | ⟨line, domain, host, port, hpc⟩ |
    ⟨line, host, port, hpc⟩ | ⟨line, e, hseeks⟩ | ⟨line, k, n, data, t, hpc, hread⟩ |
    ⟨state, line, k, rest, n, b, hpc, hb⟩ | ⟨state, line, k, hpc, hawaits⟩ | ⟨line, k, hpc, hne⟩ |
    ⟨e, hpc⟩ | ⟨line, k, n, data, t, hpc, hread⟩ | ⟨line, k, n, data, t, hpc, hread⟩ |
    ⟨line, k, hpc⟩ | ⟨state, line, response, hpc⟩
  · exact h.talk hs.stage htalks
  · exact h.serve hpc
  · unfold Synced at h
    rw [hpc] at h
    exact h
  · unfold Synced at h
    rw [hpc] at h
    exact h
  · exact trivial
  · unfold State.welcome
    dsimp only
    split_ifs
    · exact trivial
    · exact ⟨_, t.log, rfl, .inl ⟨k, rfl⟩⟩
  · unfold Synced at h
    rw [hpc] at h
    rcases state with _ | _ <;> exact h
  · rcases state with _ | _
    · unfold Synced at h
      rw [hpc] at h
      exact h
    · obtain ⟨hexact, hstarts⟩ := hdot line k hpc (hawaits rfl)
      exact h.await hs hpc hexact hstarts
  · exact h.passed hs hpc hne
  · exact trivial
  · exact (h.read hread).reply (hs.read hread) ((read_frame hread).1.trans hpc) data
  · exact (h.read hread).finalReply (hs.read hread) ((read_frame hread).1.trans hpc) data
  · unfold Synced at h
    rw [hpc] at h
    show SmtpState.command = .data ↔ backendData ends s.log = true
    simp [h.1]
  · exact h.replied hs hpc

theorem step_synced {a : Action} (hs : Inv s) (h : Synced ends s) (hdot : DotExact ends s a)
    (hstep : step s a = some s') : Synced ends s' := by
  rcases a with i | ⟨k, data⟩
  · exact (moves_of_next hstep).synced hs h hdot
  · obtain ⟨b, hb, rfl⟩ := Option.map_eq_some_iff.1 hstep
    exact h

/-- A dot with blanks around it makes the session wait for an answer within the message. -/
theorem step_not_agreed {a : Action} (hs : Inv s) (h : Synced ends s) (hdot : ¬ DotExact ends s a)
    (hstep : step s a = some s') : ¬ Agreed ends s' := by
  rcases a with i | ⟨k, data⟩
  · rcases i with _ | _ | _ | _ | _ | _ | _ | _ | _ <;> try exact absurd trivial hdot
    unfold DotExact at hdot
    push Not at hdot
    obtain ⟨line, k, hpc, htrim, hne⟩ := hdot
    intro hagreed
    obtain ⟨e, old, hlog, hline, hfate⟩ := hs.body_line (.inl ⟨[], hpc⟩)
    change next s s.pc .flushed = some s' at hstep
    rw [hpc] at hstep
    obtain rfl := Option.some.inj hstep
    have hend : backendData ends s.log = false := by
      refine hagreed.2 line k ?_
      show (if trimAscii line = dataTerminator then _ else _) = _
      rw [if_pos htrim]
    unfold Synced at h
    rw [hpc] at h
    have hold : backendData ends old = true := by
      have htail : s.log.tail = old := by rw [hlog, List.tail_cons]
      rw [← htail]
      exact h
    rw [hlog, List.tail_cons] at hne
    rw [hlog, backendData_body hfate hold, hline] at hend
    simp only [Bool.not_eq_false', Bool.and_eq_true, decide_eq_true_eq] at hend
    exact hne hend.1 hend.2
  · exact absurd trivial hdot

/-- The session and the backend agree in all states of a run exactly if every written line of a
message that is a dot with blanks around it is the dot line itself, and, for a backend that ends
lines only at a carriage return with a line feed, follows such an end. -/
theorem agreed_iff_dotExact (ends : LineEnd) {as : List Action} (h : run step new as = some s) :
    Always step (Agreed ends) new as ↔ EachStep step (DotExact ends) new as :=
  always_iff_eachStep_within (D := fun _ _ => True) (fun _ _ _ hs _ h => step_inv hs h)
    (fun _ _ h => Synced.agreed h) (fun _ _ _ hs _ h hC hstep => step_synced hs h hC hstep)
    (fun _ _ _ hs _ h hC hstep => step_not_agreed hs h hC hstep) inv_new (by rfl)
    (eachStep_true as new) h

/-- A session with an empty message. -/
theorem agreed_iff_dotExact_empty_message :
    Always step (Agreed .crlf) new [.input (.wrote 31), .input .flushed,
        .input (.line (ascii "EHLO a\r\n")), .input (.routed (.ok ⟨['b'], .smtp, []⟩)),
        .input .connected, .arrive 0 (ascii "220 b\r\n"), .input (.read 7), .input (.wrote 8),
        .input .flushed, .arrive 0 (ascii "250 b\r\n"), .input (.read 7), .input (.wrote 7),
        .input .flushed, .input (.line (ascii "DATA\r\n")), .input (.wrote 6), .input .flushed,
        .arrive 0 (ascii "354 b\r\n"), .input (.read 7), .input (.wrote 7), .input .flushed,
        .input (.line dotLine), .input (.wrote 3), .input .flushed] := by
  refine (agreed_iff_dotExact .crlf (s := _) rfl).2 ?_
  refine .cons trivial rfl <| .cons ?_ rfl <| .cons trivial rfl <| .cons trivial rfl <|
    .cons trivial rfl <| .cons trivial rfl <| .cons trivial rfl <| .cons trivial rfl <|
    .cons ?_ rfl <| .cons trivial rfl <| .cons trivial rfl <| .cons trivial rfl <|
    .cons ?_ rfl <| .cons trivial rfl <| .cons trivial rfl <| .cons ?_ rfl <|
    .cons trivial rfl <| .cons trivial rfl <| .cons trivial rfl <| .cons ?_ rfl <|
    .cons trivial rfl <| .cons trivial rfl <| .cons ?_ rfl trivial
  all_goals intro line k hpc htrim; cases hpc
  exact ⟨rfl, rfl⟩

/-- A body line of a blank and a dot ends the message for the session, whatever the backend. -/
theorem blank_dot_ends_message :
    ¬ ∃ ends : LineEnd, ∀ (as : List Action) (s : State), run step new as = some s →
      Always step (Agreed ends) new as := by
  rintro ⟨ends, h⟩
  have hlast := (h [.input (.wrote 31), .input .flushed,
      .input (.line (ascii "EHLO a\r\n")), .input (.routed (.ok ⟨['b'], .smtp, []⟩)),
      .input .connected, .arrive 0 (ascii "220 b\r\n"), .input (.read 7), .input (.wrote 8),
      .input .flushed, .arrive 0 (ascii "250 b\r\n"), .input (.read 7), .input (.wrote 7),
      .input .flushed, .input (.line (ascii "DATA\r\n")), .input (.wrote 6), .input .flushed,
      .arrive 0 (ascii "354 b\r\n"), .input (.read 7), .input (.wrote 7), .input .flushed,
      .input (.line (ascii " .\r\n")), .input (.wrote 4), .input .flushed] _ rfl).last rfl
  have hend := hlast.2 _ _ rfl
  rcases ends with _ | _ <;> cases hend

end Smtp

end ProtocolProxy
