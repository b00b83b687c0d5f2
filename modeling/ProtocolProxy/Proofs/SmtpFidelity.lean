import ProtocolProxy.Proofs.Smtp

/-!
# The log, and the session's fidelity

The log of a session has the lines that were read, in the order in which they were read
(`log_lines`).  So what is said of the lines in the log is said of all lines
(`session_fidelity`).
-/

namespace ProtocolProxy

namespace Smtp

open Machine

variable {s s' : State} {line rest : Bytes} {k n : ℕ} {as : List Action}

/-! ## The lines that were read -/

/-- The lines that the session has taken, the latest last. -/
def State.lines (s : State) : List Bytes := (s.log.map Entry.line).reverse ++ s.pc.sought

theorem lines_serve (hpc : s.pc = .readLine) : (s.serve line).lines = s.lines ++ [line] := by
  have hsought : s.lines = (s.log.map Entry.line).reverse := by
    simp [State.lines, hpc, Pc.sought]
  have hserves := serves_serve s line
  rw [hsought]
  generalize s.serve line = t at hserves ⊢
  cases hserves with
  | routing => rfl
  | tooLong | noDomain | noBackend | forward | unknown =>
    simp [State.lines, State.record, State.goto, State.fail, Pc.sought]

theorem Talks.sought {p p' : Pc} (h : Talks p p') : p.sought = [] ∧ p'.sought = [] := by
  rcases h <;> exact ⟨rfl, rfl⟩

theorem Seeks.sought {p : Pc} (h : Seeks p line) : p.sought = [line] := by
  rcases h <;> rfl

theorem unanswered_setReply (s : State) (data : Bytes) :
    (s.setReply data).log.map Entry.unanswered = s.log.map Entry.unanswered := by
  unfold State.setReply
  split
  next e log hlog =>
    rw [hlog]
    rfl
  next => rfl

/-- The lines do not change with the replies. -/
theorem lines_of_unanswered (hlog : s'.log.map Entry.unanswered = s.log.map Entry.unanswered)
    (hsought : s'.pc.sought = s.pc.sought) : s'.lines = s.lines := by
  have hlines : ∀ log : List Entry, (log.map Entry.unanswered).map Entry.line
      = log.map Entry.line := by
    intro log
    rw [List.map_map]
    rfl
  unfold State.lines
  rw [hsought, ← hlines s'.log, hlog, hlines]

/-- A line whose backend was looked for is logged. -/
theorem lines_of_logged {e : Entry} (hlog : s'.log = e :: s.log) (hsought : s.pc.sought = [e.line])
    (hsought' : s'.pc.sought = []) : s'.lines = s.lines := by
  unfold State.lines
  rw [hlog, hsought, hsought', List.map_cons, List.reverse_cons, List.append_nil]

theorem log_read {data : Bytes} (h : s.read k n = some (data, s')) :
    s'.log = s.log ∧ s'.state = s.state ∧ s'.backend = s.backend ∧ s'.pc = s.pc := by
  obtain ⟨b, -, -, -, -, -, rfl⟩ := read_eq_some h
  exact ⟨rfl, rfl, rfl, rfl⟩

/-- The end of the search for a backend: the line is logged. -/
theorem log_welcome (s : State) (line : Bytes) (k : ℕ) (data : Bytes) :
    (∃ fate, (s.welcome line k data).log = ⟨line, s.state, s.backend, fate, none⟩ :: s.log)
      ∧ (s.welcome line k data).pc.sought = [] := by
  unfold State.welcome
  dsimp only
  split_ifs
  · exact ⟨⟨_, rfl⟩, rfl⟩
  · exact ⟨⟨_, rfl⟩, rfl⟩

theorem log_replied (s : State) (state : SmtpState) (line response : Bytes) :
    (s.replied state line response).log = s.log
      ∧ (s.replied state line response).pc.sought = [] := by
  unfold State.replied
  rcases state <;> dsimp only
  · split_ifs <;> exact ⟨rfl, rfl⟩
  · exact ⟨rfl, rfl⟩

/-- The latest line is logged, or is still in the program counter. -/
theorem Moves.lines {i : Input} (h : Moves s i s') (hi : ∀ line, i ≠ .line line) :
    s'.lines = s.lines := by
  cases h with
  | talk client pc htalks =>
    refine lines_of_unanswered rfl ?_
    rw [htalks.sought.1]
    exact htalks.sought.2
  | serve line => exact absurd rfl (hi line)
  | unreachable line e hseeks => exact lines_of_logged rfl hseeks.sought rfl
  | welcome line k n data t hpc hread =>
    obtain ⟨⟨fate, hlogged⟩, hsought⟩ := log_welcome t line k data
    rw [(log_read hread).1] at hlogged
    refine lines_of_logged hlogged ?_ hsought
    rw [hpc]
    rfl
  | reply line k n data t hpc hread | finalReply line k n data t hpc hread =>
    refine lines_of_unanswered ((unanswered_setReply t data).trans ?_) ?_
    · rw [(log_read hread).1]
    · rw [hpc]
      rfl
  | replied state line response hpc =>
    obtain ⟨hlog, hsought⟩ := log_replied s state line response
    refine lines_of_unanswered (by rw [hlog]) ?_
    rw [hsought, hpc]
    rfl
  | routed line domain host port hpc | connected line host port hpc
  | write state line k rest n b hpc | await state line k hpc | passed line k hpc
  | silent line k hpc =>
    refine lines_of_unanswered rfl ?_
    rw [hpc]
    rfl
  | fail e hpc =>
    refine lines_of_unanswered rfl ?_
    rcases hfails : s.pc <;> rw [hfails] at hpc <;> first | rfl | cases hpc

theorem next_line (h : next s s.pc (.line line) = some s') :
    s.pc = .readLine ∧ s' = s.serve line := by
  rcases hpc : s.pc
  case readLine =>
    simp only [hpc, next] at h
    split_ifs at h
    exact ⟨rfl, (Option.some.inj h).symm⟩
  all_goals simp [hpc, next] at h

theorem step_lines {a : Action} (h : step s a = some s') :
    s'.lines = s.lines ++ a.line?.toList := by
  rcases a with i | ⟨k, data⟩
  · by_cases hi : ∃ line, i = .line line
    · obtain ⟨line, rfl⟩ := hi
      obtain ⟨hpc, rfl⟩ := next_line h
      exact lines_serve hpc
    · have hnone : (Action.input i).line? = none := by
        rcases i with _ | _ | line | _ | _ | _ | _ | _ | _ <;>
          first | rfl | exact absurd ⟨line, rfl⟩ hi
      rw [hnone, Option.toList_none, List.append_nil]
      exact (moves_of_next h).lines fun line heq => hi ⟨line, heq⟩
  · obtain ⟨b, -, rfl⟩ := Option.map_eq_some_iff.1 h
    exact (List.append_nil _).symm

/-- The lines in the log, with the one whose backend is being looked for, are those that were
read. -/
theorem log_lines (h : run step new as = some s) : s.lines = linesRead as := by
  refine run_history (H := fun as s => s.lines = linesRead as) (fun as s a s' hs h => ?_) rfl h
  rw [step_lines h, hs, linesRead, linesRead, List.filterMap_append]
  rcases hline : a.line? with _ | line <;> simp [hline]

/-! ## The 421 line -/

/-- A session that comes to its end has the 421 line to write, or has logged nothing. -/
theorem Moves.ends {i : Input} (h : Moves s i s') (hnot : s.pc.over = false)
    (hover : s'.pc.over = true) :
    s'.pc = .unavailable errorUnavailable ∨ s'.log = s.log ∧ ∃ r, s'.pc = .returned r := by
  cases h with
  | talk client pc htalks =>
    refine .inr ⟨rfl, ?_⟩
    show ∃ r, pc = .returned r
    generalize s.pc = p at htalks hnot
    cases htalks with
    | greetingFailed _ r | ended r | unknownCommandFailed _ r => exact ⟨r, rfl⟩
    | unavailable | unavailableSent => cases hnot
    | greeting | greeted | relaying | syntaxError | syntaxErrorSent | unknownCommand
    | unknownCommandSent => cases hover
  | serve line =>
    have hserves := serves_serve s line
    generalize s.serve line = t at hserves hover ⊢
    cases hserves with
    | tooLong | noBackend => exact .inl rfl
    | noDomain | routing | forward | unknown => cases hover
  | unreachable | fail => exact .inl rfl
  | welcome line k n data t hpc hread =>
    revert hover
    unfold State.welcome
    dsimp only
    split_ifs
    · exact fun _ => .inl rfl
    · exact fun hover => nomatch hover
  | replied state line response =>
    revert hover
    unfold State.replied
    rcases state <;> dsimp only
    · split_ifs
      · exact fun _ => .inr ⟨rfl, none, rfl⟩
      · exact fun hover => nomatch hover
      · exact fun _ => .inr ⟨rfl, none, rfl⟩
      · exact fun hover => nomatch hover
    · exact fun hover => nomatch hover
  | routed | connected | write | await | passed | reply | finalReply | silent => cases hover

end Smtp

end ProtocolProxy
