import ProtocolProxy.SmtpPort
import ProtocolProxy.Proofs.Helo
import ProtocolProxy.Proofs.SmtpFidelity
import ProtocolProxy.Proofs.SmtpReplies

/-!
# The SMTP server does what its original does

Where a line has none of the bytes that the servers trim differently, both read it alike
(`trim_eq`, `command_eq`).  So what the Rust session withholds or passes on, the PHP session does
too (`Same.passed` and its neighbours), and the two stay together from line to line
(`follows_of_meets`).

The PHP session handles a line at once and the Rust session in many steps.  Until the reply is read
the Rust session is compared with the PHP session before the line, and then with the one after it.
-/

namespace ProtocolProxy

namespace SmtpPort

open Machine
open Smtp (State Backend Entry SmtpState Pc Action Input trimAscii isDataOnlyLine isHelo isForwarded
  parseHeloDomain dataReadyCode dataTerminator errorUnavailable)
open PhpSmtp (Session Connection heloDomain)

variable {D : Dials} {s s' : State} {e : Entry} {php : Session × Bytes} {state : SmtpState}
  {line w text client rest : Bytes} {before after ws : List Bytes} {k n : ℕ}

/-! ## Reading a line -/

theorem isTrimmed_eq (b : UInt8) :
    b ≠ 0 ∧ b ≠ 11 ∧ b ≠ 12 → PhpSmtp.isTrimmed b = Smtp.isAsciiWhitespace b := by
  revert b
  decide +kernel

theorem trim_eq (h : Plain line) : PhpSmtp.trim line = trimAscii line :=
  Trim.trimmed_congr fun b hb => isTrimmed_eq b (h b hb)

theorem isDataCommand_eq (h : Plain line) : PhpSmtp.isDataCommand line = isDataOnlyLine line := by
  unfold PhpSmtp.isDataCommand isDataOnlyLine PhpSmtp.commandToken PhpSmtp.strtoupper
  rw [trim_eq h]
  generalize trimAscii line = t
  have hlength : t.map Smtp.toAsciiUppercase = Smtp.ascii "DATA" → t.length = 4 := by
    intro ht
    rw [← List.length_map Smtp.toAsciiUppercase, ht]
    rfl
  refine decide_eq_decide.2 ⟨fun ht => ⟨hlength ht.2, ht.2⟩, fun ht => ⟨?_, ht.2⟩⟩
  rw [List.take_of_length_le ht.1.le, ht.2]

theorem isForwarded_commandToken (hline : ∀ b ∈ line, b < 128) :
    isForwarded (Smtp.commandToken line) = true
      ↔ PhpSmtp.strtoupper ((trimAscii line).take 4) ∈ PhpSmtp.forwardedTokens := by
  have hascii : ∀ w ∈ PhpSmtp.forwardedTokens, ∀ b ∈ w, b < 128 := by
    simp [PhpSmtp.forwardedTokens, Smtp.ascii]
  have hwords : isForwarded (Smtp.commandToken line)
      = (PhpSmtp.forwardedTokens.map (List.map Helo.toChar)).contains (Smtp.commandToken line) :=
    rfl
  rw [hwords, List.contains_iff_mem, List.mem_map]
  constructor
  · rintro ⟨w, hw, h⟩
    rw [(Helo.commandToken_eq_iff hline (hascii w hw)).1 h.symm]
    exact hw
  · intro h
    exact ⟨_, h, ((Helo.commandToken_eq_iff hline (hascii _ h)).2 rfl).symm⟩

/-- Both take the line for the same command. -/
theorem command_eq (h : Plain line) (hline : ∀ b ∈ line, b < 128) :
    PhpSmtp.command line = if isHelo (Smtp.commandToken line) then .helo
      else if isForwarded (Smtp.commandToken line) then .forwarded else .unknown := by
  unfold PhpSmtp.command PhpSmtp.commandToken
  rw [trim_eq h]
  simp only [Helo.isHelo_commandToken hline, isForwarded_commandToken hline]

/-- Both route on the line's domain. -/
theorem heloDomain_eq (h : Helo.Agree line) (hhelo : isHelo (Smtp.commandToken line) = true) :
    heloDomain line = (parseHeloDomain line).map asBytes := by
  unfold Helo.Agree Smtp.heloRoute at h
  rwa [if_pos hhelo, Helo.heloRoute_eq_heloDomain, eq_comm] at h

/-! ## One line in PHP -/

theorem Same.dialed (h : Same php state before client) :
    php.1.connection.dialed = before.length := by
  unfold Connection.dialed
  rw [h.backend, h.left]
  cases before <;> rfl

/-- The server answers the line by itself. -/
theorem Same.answered (h : Same php state before client)
    (hhandle : PhpSmtp.handle (answersOf D e) e.line php.1.connection
      = (php.1.connection, .ok text)) :
    Same (advance D e php) state before (client ++ text) := by
  unfold advance PhpSmtp.onReceive
  rw [hhandle]
  exact ⟨h.closed, h.state, h.backend, h.left, congrArg (· ++ text) h.client⟩

/-- The client has been sent the 421 line and closed. -/
def Refused (php : Session × Bytes) (client : Bytes) : Prop :=
  php.1.closed = true ∧ php.2 = client

theorem Same.refused (h : Same php state before client) {c : Connection} {f : PhpSmtp.Failure}
    (hhandle : PhpSmtp.handle (answersOf D e) e.line php.1.connection = (c, .error f)) :
    Refused (advance D e php) (client ++ errorUnavailable) := by
  unfold advance PhpSmtp.onReceive
  rw [hhandle]
  exact ⟨rfl, congrArg (· ++ errorUnavailable) h.client⟩

theorem Same.unknown (h : Same php .command before client)
    (hcommand : PhpSmtp.command e.line = .unknown) :
    Same (advance D e php) .command before (client ++ Smtp.errorUnknownCommand) := by
  refine h.answered ?_
  simp only [PhpSmtp.handle, h.state, hcommand]

theorem Same.noDomain (h : Same php .command before client)
    (hcommand : PhpSmtp.command e.line = .helo) (hdomain : heloDomain e.line = none) :
    Same (advance D e php) .command before (client ++ Smtp.errorSyntax) := by
  refine h.answered ?_
  simp only [PhpSmtp.handle, h.state, hcommand, PhpSmtp.handleHelo, hdomain]

theorem Same.noBackend (h : Same php .command [] client)
    (hcommand : PhpSmtp.command e.line = .forwarded) :
    Refused (advance D e php) (client ++ errorUnavailable) := by
  refine h.refused (c := php.1.connection) (f := .noBackend) ?_
  simp only [PhpSmtp.handle, h.state, hcommand, PhpSmtp.forwardCommand, h.backend, List.head?_nil]

theorem Same.unreachable (h : Same php .command before client) {domain : Bytes}
    {f : PhpSmtp.Failure} (hdomain : heloDomain e.line = some domain)
    (hdial : (D before.length domain).result = .error f) :
    Refused (advance D e php) (client ++ errorUnavailable) := by
  refine h.refused (c := php.1.connection) (f := f) ?_
  simp only [PhpSmtp.handle, h.state, Helo.command_of_heloDomain hdomain, PhpSmtp.handleHelo,
    hdomain, h.dialed, answersOf, hdial]

/-- The mode after a line that a backend had, and what the client is told of the reply. -/
def modeAfter : SmtpState → Bytes → Option Bytes → SmtpState
  | .command, line, reply =>
    if isDataOnlyLine line && dataReadyCode.isPrefixOf (reply.getD []) then .data else .command
  | .data, line, _ => if trimAscii line = dataTerminator then .command else .data

def toldAfter : SmtpState → Bytes → Option Bytes → Bytes
  | .command, _, reply => reply.getD []
  | .data, line, reply => if trimAscii line = dataTerminator then reply.getD [] else []

/-- The line goes to a backend: what has been sent to the backends before and after it. -/
inductive Passes (D : Dials) : SmtpState → Bytes → List Bytes → List Bytes → Prop
  | forwarded {line : Bytes} (w : Bytes) (ws : List Bytes)
      (command : PhpSmtp.command line = .forwarded) :
      Passes D .command line (w :: ws) ((w ++ line) :: ws)
  | opened {line : Bytes} (domain : Bytes) (ws : List Bytes) (found : heloDomain line = some domain)
      (reached : (D ws.length domain).result = .ok ()) : Passes D .command line ws (line :: ws)
  | body {line : Bytes} (w : Bytes) (ws : List Bytes) :
      Passes D .data line (w :: ws) ((w ++ line) :: ws)

theorem forwardCommand_eq {c : Connection} (hstate : c.state = .command)
    (hbackend : c.backend = some w) (hplain : Plain line) :
    ∃ changes, PhpSmtp.forwardCommand (answersOf D e) line c
      = (⟨modeAfter .command line e.reply, some (w ++ line), c.left, changes⟩,
        .ok (e.reply.getD [])) := by
  unfold PhpSmtp.forwardCommand modeAfter
  rw [hbackend]
  simp only [answersOf, Bool.not_true, Bool.false_eq_true, if_false, isDataCommand_eq hplain]
  rcases e.reply with _ | response
  · have hready : dataReadyCode.isPrefixOf [] = false := rfl
    exact ⟨c.changes, by simp [hready, hstate]⟩
  · by_cases hready : isDataOnlyLine line = true ∧ dataReadyCode <+: response
    · have hne : response ≠ [] := by
        rintro rfl
        exact absurd hready.2 (by decide)
      exact ⟨.data :: c.changes, by simp [hready, hne, Connection.setState]⟩
    · exact ⟨c.changes, by simp [hready, hstate]⟩

theorem forwardData_eq {c : Connection} (hstate : c.state = .data) (hbackend : c.backend = some w)
    (hplain : Plain line) :
    ∃ changes, PhpSmtp.forwardData (answersOf D e) line c
      = (⟨modeAfter .data line e.reply, some (w ++ line), c.left, changes⟩,
        .ok (toldAfter .data line e.reply)) := by
  unfold PhpSmtp.forwardData modeAfter toldAfter
  rw [hbackend, trim_eq hplain]
  simp only [answersOf, Bool.not_true, Bool.false_eq_true, if_false]
  split_ifs
  · exact ⟨.command :: c.changes, rfl⟩
  · exact ⟨c.changes, by rw [hstate]⟩

/-- The line is handled, and goes to a backend. -/
theorem Same.handle_passes (h : Same php state before client)
    (hpasses : Passes D state e.line before after) (hplain : Plain e.line) :
    ∃ changes, PhpSmtp.handle (answersOf D e) e.line php.1.connection
      = (⟨modeAfter state e.line e.reply, after.head?, after.tail, changes⟩,
        .ok (toldAfter state e.line e.reply)) := by
  rcases hpasses with ⟨w, ws, hcommand⟩ | ⟨domain, _, hdomain, hdial⟩ | ⟨w, ws⟩
  · simp only [PhpSmtp.handle, h.state, hcommand]
    obtain ⟨changes, heq⟩ :=
      forwardCommand_eq (D := D) (e := e) h.state (h.backend.trans List.head?_cons) hplain
    exact ⟨changes, heq.trans (by rw [h.left]; rfl)⟩
  · obtain ⟨changes, heq⟩ := forwardCommand_eq (D := D) (e := e) (c := php.1.connection.open)
      (w := []) h.state rfl hplain
    refine ⟨changes, ?_⟩
    simp only [PhpSmtp.handle, h.state, Helo.command_of_heloDomain hdomain, PhpSmtp.handleHelo,
      hdomain, h.dialed, answersOf, hdial]
    refine heq.trans ?_
    have hleft : php.1.connection.open.left = before := by
      unfold Connection.open
      rw [h.backend, h.left]
      cases before <;> rfl
    rw [hleft]
    rfl
  · simp only [PhpSmtp.handle, h.state]
    obtain ⟨changes, heq⟩ :=
      forwardData_eq (D := D) (e := e) h.state (h.backend.trans List.head?_cons) hplain
    exact ⟨changes, heq.trans (by rw [h.left]; rfl)⟩

theorem Same.passed (h : Same php state before client)
    (hpasses : Passes D state e.line before after) (hplain : Plain e.line) :
    Same (advance D e php) (modeAfter state e.line e.reply) after
      (client ++ toldAfter state e.line e.reply) := by
  obtain ⟨changes, hhandle⟩ := h.handle_passes hpasses hplain
  unfold advance PhpSmtp.onReceive
  rw [hhandle]
  exact ⟨h.closed, rfl, rfl, rfl, congrArg (· ++ _) h.client⟩

/-! ## A dial -/

theorem result_of_greeting {d : PhpSmtp.Dial} {greeting : Bytes} (hroute : d.route = true)
    (hconnect : d.connect = true) (hgreeting : d.greeting = some greeting) (hplain : Plain greeting)
    (hne : greeting ≠ []) : d.result
      = if Smtp.greetingCode.isPrefixOf (trimAscii greeting) then .ok () else .error .greeting := by
  unfold PhpSmtp.Dial.result PhpSmtp.connectToBackend
  simp only [hroute, hconnect, hgreeting, hne, trim_eq hplain, ← List.isPrefixOf_iff_prefix]
  split_ifs <;> simp_all

/-! ## What was written to the backends -/

theorem sent_concat (init : List Backend) (b : Backend) :
    sent (init ++ [b]) = b.written :: sent init := by
  simp [sent]

theorem length_sent (backends : List Backend) : (sent backends).length = backends.length := by
  simp [sent]

theorem sent_setBackend {b b' : Backend} (hb : s.backends[k]? = some b)
    (hwritten : b'.written = b.written) : sent (s.setBackend k b').backends = sent s.backends := by
  unfold sent State.setBackend
  rw [List.map_set, hwritten]
  obtain ⟨hlt, rfl⟩ := List.getElem?_eq_some_iff.1 hb
  congr 1
  refine List.ext_getElem (by simp) fun j hj hj' => ?_
  rw [List.getElem_set]
  split_ifs with h
  · subst h
    simp
  · rfl

/-- The latest backend is written to. -/
theorem sent_write {b : Backend} (hsent : sent s.backends = w :: ws)
    (hb : s.backends[ws.length]? = some b) (b' : Backend) :
    b.written = w ∧ sent (s.setBackend ws.length b').backends = b'.written :: ws := by
  rcases List.eq_nil_or_concat s.backends with hnil | ⟨init, c, hconcat⟩
  · rw [hnil] at hsent
    cases hsent
  rw [List.concat_eq_append] at hconcat
  rw [hconcat, sent_concat] at hsent
  obtain ⟨rfl, rfl⟩ := List.cons.inj hsent
  rw [hconcat, length_sent, List.getElem?_concat_length] at hb
  obtain rfl := Option.some.inj hb
  refine ⟨rfl, ?_⟩
  unfold State.setBackend
  rw [hconcat, length_sent, List.set_append_right _ _ le_rfl, Nat.sub_self, List.set_cons_zero,
    sent_concat]

/-- The number of the latest backend. -/
def latest : List Bytes → Option ℕ
  | [] => none
  | _ :: ws => some ws.length

theorem latest_eq_none (h : latest ws = none) : ws = [] := by
  cases ws
  · rfl
  · cases h

theorem latest_eq_some (h : latest ws = some k) : ∃ w ws', ws = w :: ws' ∧ k = ws'.length := by
  rcases ws with _ | ⟨w, ws⟩
  · cases h
  · exact ⟨w, ws, rfl, (Option.some.inj h).symm⟩

theorem told_drop (client rest : Bytes) (n : ℕ) :
    client ++ rest.take n ++ rest.drop n = client ++ rest := by
  rw [List.append_assoc, List.take_append_drop]

theorem Same.tell (h : Same php state before (client ++ rest)) (n : ℕ) :
    Same php state before (client ++ rest.take n ++ rest.drop n) := by
  rwa [told_drop]

/-! ## From line to line -/

/-- The line is one that both open a backend for. -/
def Asks (line : Bytes) : Prop :=
  Plain line ∧ heloDomain line = some (asBytes ((parseHeloDomain line).getD []))

/-- The line is on its way to the latest backend, and `rest` of it is not written yet. -/
def Passing (D : Dials) (s : State) (written : List Bytes) (state : SmtpState) (line : Bytes)
    (k : ℕ) (rest : Bytes) : Prop :=
  ∃ w ws before, written = w :: ws ∧ k = ws.length ∧ Plain line
    ∧ Same (replay D s.log.tail) state before s.client
    ∧ Passes D state line before ((w ++ rest) :: ws)

/-- What the PHP session has to do with the Rust session at each point. -/
def MirrorsAt (D : Dials) (s : State) (written : List Bytes) : Pc → Prop
  | .greeting rest => s.log = [] ∧ s.backend = none ∧ written = []
      ∧ s.client ++ rest = Smtp.greeting
  | .readLine => s.backend = latest written ∧ Same (replay D s.log) s.state written s.client
  | .routing line _ => Asks line ∧ Same (replay D s.log) .command written s.client
  | .connecting line _ _ => Asks line ∧ Same (replay D s.log) .command written s.client
      ∧ (dialFor D written.length line).route = true
  | .greeted line k => Asks line ∧ (dialFor D k line).route = true
      ∧ (dialFor D k line).connect = true
      ∧ ∃ ws, written = [] :: ws ∧ k = ws.length ∧ Same (replay D s.log) .command ws s.client
  | .sending state line k rest => Passing D s written state line k rest
  | .awaiting state line k => Passing D s written state line k []
  | .relaying state line response rest => s.backend = latest written
      ∧ (state = .data → trimAscii line = dataTerminator)
      ∧ Same (replay D s.log) (modeAfter state line (some response)) written (s.client ++ rest)
  | .syntaxError rest | .unknownCommand rest => s.backend = latest written
      ∧ Same (replay D s.log) .command written (s.client ++ rest)
  | .unavailable rest => Refused (replay D s.log) (s.client ++ rest)
  | .returned _ => (replay D s.log).2 = s.client

def Mirrors (D : Dials) (s : State) : Prop := MirrorsAt D s (sent s.backends) s.pc

theorem Mirrors.at {pc : Pc} (h : Mirrors D s) (hpc : s.pc = pc) :
    MirrorsAt D s (sent s.backends) pc := hpc ▸ h

theorem Mirrors.follows (h : Mirrors D s) : Follows D s :=
  ⟨fun hpc => (h.at hpc).2, fun _ hpc => h.at hpc, fun _ hpc => h.at hpc⟩

/-- What a backend has sent does not matter. -/
theorem Mirrors.setBackend (h : Mirrors D s) {b b' : Backend} (hb : s.backends[k]? = some b)
    (hwritten : b'.written = b.written) : Mirrors D (s.setBackend k b') := by
  unfold Mirrors at h ⊢
  rw [sent_setBackend hb hwritten]
  have hpc : (s.setBackend k b').pc = s.pc := rfl
  rw [hpc]
  generalize s.pc = pc at h ⊢
  cases pc <;> exact h

theorem Mirrors.serve (h : Mirrors D s) (hs : Smtp.Inv s) (hpc : s.pc = .readLine)
    (hline : PlainLine s.state line) : Mirrors D (s.serve line) := by
  obtain ⟨hback, hsame⟩ := h.at hpc
  obtain ⟨hlen, -, hplain, hcommand⟩ := hline
  have hforwarded (hforwards : Smtp.Forwards s line) (hstate : s.state = .command) :
      PhpSmtp.command line = .forwarded := by
    obtain ⟨hhelo, hforwarded⟩ := hforwards.resolve_left (by rw [hstate]; nofun)
    rw [command_eq hplain (hcommand hstate).1.ascii, hhelo, hforwarded]
    rfl
  have hserves := Smtp.serves_serve s line
  generalize s.serve line = t at hserves ⊢
  cases hserves with
  | tooLong hlong => exact absurd hlong hlen.not_gt
  | noDomain _ hstate hhelo hdomain =>
    rw [hstate] at hsame
    obtain ⟨hascii, hagree⟩ := hcommand hstate
    refine ⟨hback, hsame.noDomain ?_ ?_⟩
    · exact (command_eq hplain hascii.ascii).trans (if_pos hhelo)
    · exact (heloDomain_eq hagree hhelo).trans (by rw [hdomain]; rfl)
  | routing _ hstate hhelo domain hdomain =>
    rw [hstate] at hsame
    refine ⟨⟨hplain, ?_⟩, hsame⟩
    rw [heloDomain_eq (hcommand hstate).2 hhelo, hdomain]
    rfl
  | noBackend _ hforwards hnone =>
    rcases hstate : s.state with _ | _
    · rw [hstate] at hsame
      rw [latest_eq_none (hback.symm.trans hnone)] at hsame
      exact hsame.noBackend (hforwarded hforwards hstate)
    · -- in `Data` mode there is a backend
      obtain ⟨k, _, _, _, hm⟩ := hs.message hstate
      cases hnone.symm.trans hm.backend
  | forward _ hforwards k hk =>
    obtain ⟨w, ws, hwritten, rfl⟩ := latest_eq_some (hback.symm.trans hk)
    refine ⟨w, ws, w :: ws, hwritten, rfl, hplain, hwritten ▸ hsame, ?_⟩
    rcases hstate : s.state with _ | _
    · exact .forwarded w ws (hforwarded hforwards hstate)
    · exact .body w ws
  | unknown _ hstate hhelo hnot =>
    rw [hstate] at hsame
    refine ⟨hback, hsame.unknown ?_⟩
    rw [command_eq hplain (hcommand hstate).1.ascii, hhelo, hnot]
    rfl

/-- No backend is reached, and the session ends. -/
theorem Mirrors.unreachable (hasks : Asks line) {backends : List Bytes}
    (hsame : Same (replay D s.log) .command backends s.client) {f : PhpSmtp.Failure}
    (hdial : (dialFor D backends.length line).result = .error f) (error : String) :
    Mirrors D ((s.record line .unreachable).fail error) :=
  hsame.unreachable (e := ⟨line, s.state, s.backend, .unreachable, none⟩) hasks.2 hdial

/-- A dial that ends before a greeting is read. -/
theorem result_eq_error {d : PhpSmtp.Dial}
    (h : d.route = false ∨ d.connect = false ∨ d.greeting = none) : ∃ f, d.result = .error f := by
  rcases d with ⟨_ | _, _ | _, greeting⟩
  · exact ⟨.route, rfl⟩
  · exact ⟨.route, rfl⟩
  · exact ⟨.connect, rfl⟩
  · obtain rfl : greeting = none := by simpa using h
    exact ⟨.greeting, rfl⟩

theorem Mirrors.connecting_failed (h : Mirrors D s) {host : Text} {port : UInt16}
    (hpc : s.pc = .connecting line host port)
    (hdial : (dialFor D s.backends.length line).connect = false) (error : String) :
    Mirrors D ((s.record line .unreachable).fail error) := by
  obtain ⟨hasks, hsame, -⟩ := h.at hpc
  rw [← length_sent] at hdial
  obtain ⟨f, hf⟩ := result_eq_error (.inr (.inl hdial))
  exact .unreachable hasks hsame hf error

theorem Mirrors.greeted_failed (h : Mirrors D s) (hpc : s.pc = .greeted line k)
    (hdial : (dialFor D k line).greeting = none) (error : String) :
    Mirrors D ((s.record line .unreachable).fail error) := by
  obtain ⟨hasks, -, -, ws, -, rfl, hsame⟩ := h.at hpc
  obtain ⟨f, hf⟩ := result_eq_error (.inr (.inr hdial))
  exact .unreachable hasks hsame hf error

theorem Mirrors.connected (h : Mirrors D s) {host : Text} {port : UInt16}
    (hpc : s.pc = .connecting line host port)
    (hdial : (dialFor D s.backends.length line).connect = true) :
    Mirrors D { s with
      pc := .greeted line s.backends.length, backends := s.backends ++ [⟨[], [], []⟩] } := by
  obtain ⟨hasks, hsame, hroute⟩ := h.at hpc
  rw [length_sent] at hroute
  exact ⟨hasks, hroute, hdial, sent s.backends, sent_concat _ _, (length_sent _).symm, hsame⟩

/-- The greeting of the new backend is read. -/
theorem Mirrors.welcome (h : Mirrors D s) (hpc : s.pc = .greeted line k) {data : Bytes}
    (hne : data ≠ []) (hplain : Plain data)
    (hdial : (dialFor D k line).greeting = some data) : Mirrors D (s.welcome line k data) := by
  obtain ⟨hasks, hroute, hconnect, ws, hwritten, rfl, hsame⟩ := h.at hpc
  have hresult := result_of_greeting hroute hconnect hdial hplain hne
  unfold State.welcome
  dsimp only
  rcases hcode : Smtp.greetingCode.isPrefixOf (trimAscii data) with _ | _ <;> rw [hcode] at hresult
  · exact .unreachable hasks hsame hresult _
  · exact ⟨[], ws, ws, hwritten, rfl, hasks.1, hsame, .opened _ ws hasks.2 hresult⟩

theorem Mirrors.write (h : Mirrors D s) (hpc : s.pc = .sending state line k rest) {b : Backend}
    (hb : s.backends[k]? = some b) :
    Mirrors D { s.setBackend k { b with written := b.written ++ rest.take n } with
      pc := .sending state line k (rest.drop n), unwritten := rest.drop n } := by
  obtain ⟨w, ws, before, hwritten, rfl, hplain, hsame, hpasses⟩ := h.at hpc
  obtain ⟨rfl, hsent⟩ := sent_write hwritten hb { b with written := b.written ++ rest.take n }
  refine ⟨_, ws, before, hsent, rfl, hplain, hsame, ?_⟩
  rw [List.append_assoc, List.take_append_drop]
  exact hpasses

/-- The line has been written, and `s.log` has it with its reply. -/
theorem Passing.done (h : Passing D s (sent s.backends) state line k [])
    (hback : s.backend = some k) {old : List Entry} (hlog : s.log.tail = old)
    (hline : e.line = line) :
    s.backend = latest (sent s.backends)
      ∧ Same (replay D (e :: old)) (modeAfter state line e.reply) (sent s.backends)
        (s.client ++ toldAfter state line e.reply) := by
  obtain ⟨w, ws, before, hwritten, rfl, hplain, hsame, hpasses⟩ := h
  subst hlog hline
  rw [List.append_nil] at hpasses
  rw [hwritten]
  exact ⟨hback, hsame.passed hpasses hplain⟩

theorem Mirrors.read (h : Mirrors D s) {data : Bytes} (hread : s.read k n = some (data, s')) :
    Mirrors D s' := by
  obtain ⟨b, hb, -, -, -, -, rfl⟩ := Smtp.read_eq_some hread
  exact h.setBackend hb rfl

/-- The reply to the line has been read. -/
theorem Mirrors.setReply (h : Mirrors D s) (hs : Smtp.Inv s) (hpc : s.pc = .awaiting state line k)
    (data : Bytes) {state' : SmtpState} :
    Mirrors D { (s.setReply data).goto (.relaying state line data data) with
      state := state' } := by
  have hst := hs.stage
  unfold Smtp.Stage at hst
  rw [hpc] at hst
  obtain ⟨-, -, hdot, hback, e, old, hlog, hline, -⟩ := hst
  rw [Smtp.setReply_eq hlog]
  obtain ⟨hlatest, hsame⟩ := Passing.done (e := ⟨e.line, e.state, e.backend, e.fate, some data⟩)
    (h.at hpc) hback (congrArg List.tail hlog) hline
  refine ⟨hlatest, hdot, ?_⟩
  have htold : toldAfter state line (some data) = data := by
    rcases state with _ | _
    · rfl
    · exact if_pos (hdot rfl)
  rw [htold] at hsame
  exact hsame

/-- A line of a message has been written, and nothing is read after it. -/
theorem Mirrors.unanswered (hpassing : Passing D s (sent s.backends) .data line k [])
    (hlatest : Smtp.Latest s.backend s.log line k .data none) {state' : SmtpState}
    (hstate : state' = modeAfter .data line none) :
    Mirrors D { s with pc := .readLine, state := state' } := by
  obtain ⟨hback, e, old, hlog, hline, -, hreply, -⟩ := hlatest
  obtain ⟨hback', hsame⟩ := hpassing.done hback (congrArg List.tail hlog) hline
  refine ⟨hback', ?_⟩
  have htold : toldAfter .data line none = [] := by
    rw [toldAfter]
    split_ifs <;> rfl
  rw [hreply, htold, List.append_nil, ← hstate] at hsame
  show Same (replay D s.log) state' _ _
  rw [hlog]
  exact hsame

theorem Mirrors.replied (h : Mirrors D s) (hs : Smtp.Inv s) {response : Bytes}
    (hpc : s.pc = .relaying state line response []) :
    Mirrors D (s.replied state line response) := by
  have hst := hs.stage
  unfold Smtp.Stage at hst
  rw [hpc] at hst
  obtain ⟨hlatest, hdot, hsame⟩ := h.at hpc
  rw [List.append_nil] at hsame
  unfold State.replied
  rcases state with _ | _
  · dsimp only
    rw [modeAfter, Option.getD_some] at hsame
    by_cases hquit : Smtp.commandToken line = "QUIT".toList
    · rw [if_pos hquit]
      split_ifs <;> exact hsame.client
    · rw [if_neg hquit]
      split_ifs at hsame ⊢
      · exact ⟨hlatest, hsame⟩
      · exact ⟨hlatest, hst.2.1 ▸ hsame⟩
  · rw [modeAfter, if_pos (hdot rfl), ← hst.2.1] at hsame
    exact ⟨hlatest, hsame⟩

theorem not_fallible {pc : Pc} (h : fallible s.pc = true) (hpc : s.pc = pc) :
    fallible pc ≠ false := by
  rw [← hpc, h]
  nofun

theorem mirrors_of_next (hD : ∀ n d g, (D n d).greeting = some g → Plain g) (hs : Smtp.Inv s)
    (hm : Mirrors D s) {i : Input} (hmeets : Meets D s (.input i))
    (h : Smtp.next s s.pc i = some s') : Mirrors D s' := by
  obtain ⟨hdials, hplain, hgoes⟩ := hmeets
  have hst := hs.stage
  unfold Smtp.Stage at hst
  generalize hpc : s.pc = pc at h hst
  unfold Smtp.next at h
  split at h
  all_goals first
    | obtain rfl := Smtp.writeClient_eq_some h
    | obtain rfl := Option.some.inj h
    | skip
  · obtain ⟨hlog, hback, hwritten, htold⟩ := hm.at hpc
    exact ⟨hlog, hback, hwritten, (told_drop _ _ _).trans htold⟩
  · obtain ⟨hlog, hback, hwritten, htold⟩ := hm.at hpc
    rw [List.append_nil] at htold
    refine ⟨hback.trans (congrArg latest hwritten).symm, ?_⟩
    show Same (replay D s.log) s.state (sent s.backends) s.client
    rw [hlog, hst.2, hwritten, htold]
    exact ⟨rfl, rfl, rfl, rfl, rfl⟩
  · exact absurd rfl (not_fallible hgoes hpc)
  · split_ifs at h
    obtain rfl := Option.some.inj h
    exact hm.serve hs hpc hplain
  · exact (hm.at hpc).2.client
  · exact (hm.at hpc).2.client
  · obtain ⟨hasks, hsame⟩ := hm.at hpc
    refine ⟨hasks, hsame, ?_⟩
    rw [length_sent]
    exact hdials _ _ hpc
  · obtain ⟨hasks, hsame⟩ := hm.at hpc
    have hroute := hdials _ _ hpc
    rw [← length_sent] at hroute
    obtain ⟨f, hf⟩ := result_eq_error (.inl hroute)
    exact .unreachable hasks hsame hf _
  · exact hm.connected hpc (hdials _ _ _ hpc)
  · exact hm.connecting_failed hpc (hdials.1 _ _ _ hpc) _
  · exact hm.connecting_failed hpc (hdials.1 _ _ _ hpc) _
  · obtain ⟨⟨data, t⟩, hread, rfl⟩ := Option.map_eq_some_iff.1 h
    obtain ⟨b, hb, hpos, -, hle, rfl, -⟩ := Smtp.read_eq_some hread
    have hgreeting := hdials _ _ _ hpc hb
    refine (hm.read hread).welcome ((Smtp.read_frame hread).1.trans hpc) ?_ (hD _ _ _ hgreeting)
      hgreeting
    rw [← List.length_pos_iff, List.length_take]
    omega
  · exact hm.greeted_failed hpc (hdials.2 _ _ hpc) _
  · exact hm.greeted_failed hpc (hdials.2 _ _ hpc) _
  · exact hm.greeted_failed hpc (hdials.2 _ _ hpc) _
  · obtain ⟨b, hb, rfl⟩ := Smtp.writeBackend_eq_some h
    exact hm.write hpc hb
  · exact hm.at hpc
  · split_ifs with hdot
    · exact hm.at hpc
    · refine .unanswered (hm.at hpc) hst.2.2 (hst.2.1.trans ?_)
      exact (if_neg hdot).symm
  · exact absurd rfl (not_fallible hgoes hpc)
  · exact absurd rfl (not_fallible hgoes hpc)
  · obtain ⟨⟨data, t⟩, hread, rfl⟩ := Option.map_eq_some_iff.1 h
    exact (hm.read hread).setReply (hs.read hread) ((Smtp.read_frame hread).1.trans hpc) data
  · obtain ⟨⟨data, t⟩, hread, rfl⟩ := Option.map_eq_some_iff.1 h
    exact (hm.read hread).setReply (hs.read hread) ((Smtp.read_frame hread).1.trans hpc) data
  · exact absurd hpc (hgoes _ _)
  · refine .unanswered (hm.at hpc) hst.2.2.2 ?_
    exact (if_pos (hst.2.2.1 rfl)).symm
  · exact absurd rfl (not_fallible hgoes hpc)
  · exact absurd rfl (not_fallible hgoes hpc)
  · obtain ⟨hlatest, hdot, hsame⟩ := hm.at hpc
    exact ⟨hlatest, hdot, hsame.tell _⟩
  · exact hm.replied hs hpc
  · exact absurd rfl (not_fallible hgoes hpc)
  · obtain ⟨hlatest, hsame⟩ := hm.at hpc
    exact ⟨hlatest, hsame.tell _⟩
  · obtain ⟨hlatest, hsame⟩ := hm.at hpc
    rw [List.append_nil, ← hst.2] at hsame
    exact ⟨hlatest, hsame⟩
  · exact absurd rfl (not_fallible hgoes hpc)
  · obtain ⟨hlatest, hsame⟩ := hm.at hpc
    exact ⟨hlatest, hsame.tell _⟩
  · obtain ⟨hlatest, hsame⟩ := hm.at hpc
    rw [List.append_nil, ← hst.2] at hsame
    exact ⟨hlatest, hsame⟩
  · exact absurd rfl (not_fallible hgoes hpc)
  · obtain ⟨hclosed, htold⟩ := hm.at hpc
    rw [← told_drop _ _ _] at htold
    unfold Mirrors
    dsimp only
    split_ifs with hnil
    · rw [hnil, List.append_nil] at htold
      exact htold
    · exact ⟨hclosed, htold⟩
  · exact absurd rfl (not_fallible hgoes hpc)
  · cases h

theorem step_mirrors (hD : ∀ n d g, (D n d).greeting = some g → Plain g) {a : Action}
    (hs : Smtp.Inv s ∧ Mirrors D s) (hmeets : Meets D s a) (h : Smtp.step s a = some s') :
    Smtp.Inv s' ∧ Mirrors D s' := by
  refine ⟨Smtp.step_inv hs.1 h, ?_⟩
  rcases a with i | ⟨k, data⟩
  · exact mirrors_of_next hD hs.1 hs.2 hmeets h
  · obtain ⟨b, hb, rfl⟩ := Option.map_eq_some_iff.1 h
    exact hs.2.setBackend hb rfl

/-- In every run in which both servers meet the same, the PHP server keeps up with the Rust server:
it is in the same mode for the next line, it has sent the same to the same backends and told the
client the same, and it gives the client up where the Rust server does.  The lines that it is run on
are those that the Rust server has read. -/
theorem follows_of_meets (D : Dials) (hD : ∀ n d g, (D n d).greeting = some g → Plain g)
    {as : List Action} (hmeets : EachStep Smtp.step (Meets D) Smtp.new as)
    (h : run Smtp.step Smtp.new as = some s) :
    Follows D s ∧ (s.log.map Entry.line).reverse ++ s.pc.sought = Smtp.linesRead as := by
  have hs : Smtp.Inv s ∧ Mirrors D s :=
    run_inv_of_each (fun _ _ _ hs hC h => step_mirrors hD hs hC h)
      ⟨Smtp.inv_new, rfl, rfl, rfl, rfl⟩ hmeets h
  exact ⟨hs.2.follows, Smtp.log_lines h⟩

/-- Every dial reaches a backend that greets. -/
def greeting : Dials := fun _ _ => ⟨true, true, some (Smtp.ascii "220 b\r\n")⟩

theorem follows_of_meets_ehlo :
    ∃ s, run Smtp.step Smtp.new (Smtp.ehlo (Smtp.ascii "250 b\r\n")) = some s ∧ s.pc = .readLine
      ∧ sent s.backends = [Smtp.ascii "EHLO a\r\n"] ∧ Follows greeting s
      ∧ (s.log.map Entry.line).reverse ++ s.pc.sought = [Smtp.ascii "EHLO a\r\n"] := by
  have hrun : ∃ s, run Smtp.step Smtp.new (Smtp.ehlo (Smtp.ascii "250 b\r\n")) = some s
      ∧ s.pc = .readLine ∧ sent s.backends = [Smtp.ascii "EHLO a\r\n"] := ⟨_, rfl, rfl, rfl⟩
  obtain ⟨s, hs, hpc, hsent⟩ := hrun
  refine ⟨s, hs, hpc, hsent, follows_of_meets greeting ?_ ?_ hs⟩
  · intro _ _ g hg
    obtain rfl := Option.some.inj hg
    simp [Plain, Smtp.ascii]
  · have hline : PlainLine .command (Smtp.ascii "EHLO a\r\n") := by
      refine ⟨by decide, by decide, by simp [Plain, Smtp.ascii], fun _ => ⟨⟨?_, ?_⟩, rfl⟩⟩
      · exact ⟨Smtp.ascii "EHLO a", rfl, by simp [Smtp.ascii]⟩
      · simp [Smtp.ascii]
    refine .cons ⟨trivial, trivial, trivial⟩ rfl <| .cons ⟨trivial, trivial, trivial⟩ rfl <|
      .cons ⟨trivial, hline, trivial⟩ rfl <| .cons ⟨?_, trivial, trivial⟩ rfl <|
      .cons ⟨?_, trivial, trivial⟩ rfl <| .cons ⟨trivial, trivial, trivial⟩ rfl <|
      .cons ⟨?_, trivial, trivial⟩ rfl <| .cons ⟨trivial, trivial, trivial⟩ rfl <|
      .cons ⟨trivial, trivial, trivial⟩ rfl <| .cons ⟨trivial, trivial, trivial⟩ rfl <|
      .cons ⟨?_, trivial, trivial⟩ rfl <| .cons ⟨trivial, trivial, trivial⟩ rfl <|
      .cons ⟨trivial, trivial, trivial⟩ rfl trivial
    · intro line domain hpc
      cases hpc
      rfl
    · intro line host port hpc
      cases hpc
      rfl
    · intro line k b hpc hb
      cases hpc
      cases hb
      rfl
    · intro line k b hpc
      cases hpc

end SmtpPort

end ProtocolProxy
