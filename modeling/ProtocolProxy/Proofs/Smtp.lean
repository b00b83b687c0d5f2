import ProtocolProxy.Smtp

/-!
# What an SMTP session passes on

A line is either withheld, and then the session answers it itself or ends, or it is written to the
backend that the latest successful `EHLO` or `HELO` opened.  The session is in `Data` mode only
inside a message of that backend.

Each line's handling is followed from the program counter (`Stage`); the log is only added to when a
line's fate is decided.
-/

namespace ProtocolProxy

namespace Smtp

open Machine

variable {s s' : State} {line rest : Bytes} {k n : ℕ} {e : Entry}

/-! ## What a step can be -/

/-- The program counter moves on while nothing but the client's output changes. -/
inductive Talks : Pc → Pc → Prop
  | greeting (rest rest' : Bytes) : Talks (.greeting rest) (.greeting rest')
  | greeted : Talks (.greeting []) .readLine
  | greetingFailed (rest : Bytes) (r : Option String) : Talks (.greeting rest) (.returned r)
  | ended (r : Option String) : Talks .readLine (.returned r)
  | relaying (state : SmtpState) (line response rest rest' : Bytes) :
      Talks (.relaying state line response rest) (.relaying state line response rest')
  | syntaxError (rest rest' : Bytes) : Talks (.syntaxError rest) (.syntaxError rest')
  | syntaxErrorSent : Talks (.syntaxError []) .readLine
  | unknownCommand (rest rest' : Bytes) : Talks (.unknownCommand rest) (.unknownCommand rest')
  | unknownCommandSent : Talks (.unknownCommand []) .readLine
  | unknownCommandFailed (rest : Bytes) (r : Option String) :
      Talks (.unknownCommand rest) (.returned r)
  | unavailable (rest rest' : Bytes) : Talks (.unavailable rest) (.unavailable rest')
  | unavailableSent (rest : Bytes) : Talks (.unavailable rest) (.returned none)

/-- The line is an `EHLO` or `HELO` whose backend is being looked for. -/
inductive Seeks : Pc → Bytes → Prop
  | routing (line : Bytes) (domain : Text) : Seeks (.routing line domain) line
  | connecting (line : Bytes) (host : Text) (port : UInt16) :
      Seeks (.connecting line host port) line
  | greeted (line : Bytes) (k : ℕ) : Seeks (.greeted line k) line

/-- A handler can fail here after its line was recorded. -/
def Pc.fails : Pc → Bool
  | .sending .. | .awaiting .. | .relaying .. | .syntaxError _ => true
  | _ => false

/-- What is left to be written to the client. -/
def Pc.unsent : Pc → Bytes
  | .greeting rest | .relaying _ _ _ rest | .syntaxError rest | .unknownCommand rest => rest
  | _ => []

inductive Moves (s : State) : Input → State → Prop
  | talk {i : Input} (client : Bytes) (pc : Pc) (talks : Talks s.pc pc)
      (told : pc.over = true ∨ client ++ pc.unsent = s.client ++ s.pc.unsent) :
      Moves s i { s with client := client, pc := pc }
  | serve (line : Bytes) (at_ : s.pc = .readLine) (isLine : IsLine line) :
      Moves s (.line line) (s.serve line)
  | routed {i : Input} (line : Bytes) (domain : Text) (host : Text) (port : UInt16)
      (at_ : s.pc = .routing line domain) : Moves s i (s.goto (.connecting line host port))
  | connected (line : Bytes) (host : Text) (port : UInt16)
      (at_ : s.pc = .connecting line host port) :
      Moves s .connected
        { s with pc := .greeted line s.backends.length, backends := s.backends ++ [⟨[], [], []⟩] }
  | unreachable {i : Input} (line : Bytes) (e : String) (seeks : Seeks s.pc line) :
      Moves s i ((s.record line .unreachable).fail e)
  | welcome (line : Bytes) (k n : ℕ) (data : Bytes) (t : State) (at_ : s.pc = .greeted line k)
      (read : s.read k n = some (data, t)) : Moves s (.read n) (t.welcome line k data)
  | write (state : SmtpState) (line : Bytes) (k : ℕ) (rest : Bytes) (n : ℕ) (b : Backend)
      (at_ : s.pc = .sending state line k rest) (found : s.backends[k]? = some b) :
      Moves s (.wrote n) { s.setBackend k { b with written := b.written ++ rest.take n } with
        pc := .sending state line k (rest.drop n), unwritten := rest.drop n }
  | await (state : SmtpState) (line : Bytes) (k : ℕ) (at_ : s.pc = .sending state line k [])
      (awaits : state = .data → trimAscii line = dataTerminator) :
      Moves s .flushed (s.goto (.awaiting state line k))
  | passed (line : Bytes) (k : ℕ) (at_ : s.pc = .sending .data line k [])
      (awaits : trimAscii line ≠ dataTerminator) : Moves s .flushed (s.goto .readLine)
  | fail {i : Input} (e : String) (at_ : s.pc.fails = true) : Moves s i (s.fail e)
  | reply (line : Bytes) (k n : ℕ) (data : Bytes) (t : State)
      (at_ : s.pc = .awaiting .command line k) (read : s.read k n = some (data, t)) :
      Moves s (.read n) ((t.setReply data).goto (.relaying .command line data data))
  | finalReply (line : Bytes) (k n : ℕ) (data : Bytes) (t : State)
      (at_ : s.pc = .awaiting .data line k) (read : s.read k n = some (data, t)) :
      Moves s (.read n)
        { (t.setReply data).goto (.relaying .data line data data) with state := .command }
  | silent (line : Bytes) (k : ℕ) (at_ : s.pc = .awaiting .data line k) :
      Moves s .eof { s with pc := .readLine, state := .command }
  | replied (state : SmtpState) (line response : Bytes)
      (at_ : s.pc = .relaying state line response []) :
      Moves s .flushed (s.replied state line response)

theorem writeClient_eq_some {more : Bytes → Pc} (h : s.writeClient rest n more = some s') :
    s' = { s with client := s.client ++ rest.take n, pc := more (rest.drop n) } := by
  unfold State.writeClient at h
  split_ifs at h
  exact (Option.some.inj h).symm

theorem writeBackend_eq_some {more : Bytes → Pc} (h : s.writeBackend k rest n more = some s') :
    ∃ b, s.backends[k]? = some b ∧
      s' = { s.setBackend k { b with written := b.written ++ rest.take n } with
        pc := more (rest.drop n), unwritten := rest.drop n } := by
  unfold State.writeBackend at h
  split at h
  next b hb =>
    split_ifs at h
    exact ⟨b, hb, (Option.some.inj h).symm⟩
  next => cases h

theorem told_write {pc pc' : Pc} (hpc : s.pc = pc) (h : pc'.unsent = pc.unsent.drop n) :
    s.client ++ pc.unsent.take n ++ pc'.unsent = s.client ++ s.pc.unsent := by
  rw [h, hpc, List.append_assoc, List.take_append_drop]

theorem moves_of_next {i : Input} (h : next s s.pc i = some s') : Moves s i s' := by
  generalize hpc : s.pc = pc at h
  unfold next at h
  split at h
  all_goals first
    | obtain rfl := writeClient_eq_some h
    | obtain rfl := Option.some.inj h
    | skip
  · exact .talk _ _ (hpc ▸ .greeting _ _) (.inr (told_write hpc rfl))
  · exact .talk _ _ (hpc ▸ .greeted) (.inr (by rw [hpc]; rfl))
  · exact .talk _ _ (hpc ▸ .greetingFailed _ _) (.inl rfl)
  · split_ifs at h with hline
    obtain rfl := Option.some.inj h
    exact .serve _ hpc hline
  · exact .talk _ _ (hpc ▸ .ended _) (.inl rfl)
  · exact .talk _ _ (hpc ▸ .ended _) (.inl rfl)
  · exact .routed _ _ _ _ hpc
  · exact .unreachable _ _ (hpc ▸ .routing _ _)
  · exact .connected _ _ _ hpc
  · exact .unreachable _ _ (hpc ▸ .connecting _ _ _)
  · exact .unreachable _ _ (hpc ▸ .connecting _ _ _)
  · obtain ⟨⟨data, t⟩, hread, rfl⟩ := Option.map_eq_some_iff.1 h
    exact .welcome _ _ _ data t hpc hread
  · exact .unreachable _ _ (hpc ▸ .greeted _ _)
  · exact .unreachable _ _ (hpc ▸ .greeted _ _)
  · exact .unreachable _ _ (hpc ▸ .greeted _ _)
  · obtain ⟨b, hb, rfl⟩ := writeBackend_eq_some h
    exact .write _ _ _ _ _ b hpc hb
  · exact .await _ _ _ hpc nofun
  · split_ifs with hdot
    · exact .await _ _ _ hpc fun _ => hdot
    · exact .passed _ _ hpc hdot
  · exact .fail _ (by rw [hpc]; rfl)
  · exact .fail _ (by rw [hpc]; rfl)
  · obtain ⟨⟨data, t⟩, hread, rfl⟩ := Option.map_eq_some_iff.1 h
    exact .reply _ _ _ data t hpc hread
  · obtain ⟨⟨data, t⟩, hread, rfl⟩ := Option.map_eq_some_iff.1 h
    exact .finalReply _ _ _ data t hpc hread
  · exact .fail _ (by rw [hpc]; rfl)
  · exact .silent _ _ hpc
  · exact .fail _ (by rw [hpc]; rfl)
  · exact .fail _ (by rw [hpc]; rfl)
  · exact .talk _ _ (hpc ▸ .relaying _ _ _ _ _) (.inr (told_write hpc rfl))
  · exact .replied _ _ _ hpc
  · exact .fail _ (by rw [hpc]; rfl)
  · exact .talk _ _ (hpc ▸ .syntaxError _ _) (.inr (told_write hpc rfl))
  · exact .talk _ _ (hpc ▸ .syntaxErrorSent) (.inr (by rw [hpc]; rfl))
  · exact .fail _ (by rw [hpc]; rfl)
  · exact .talk _ _ (hpc ▸ .unknownCommand _ _) (.inr (told_write hpc rfl))
  · exact .talk _ _ (hpc ▸ .unknownCommandSent) (.inr (by rw [hpc]; rfl))
  · exact .talk _ _ (hpc ▸ .unknownCommandFailed _ _) (.inl rfl)
  · refine .talk _ _ ?_ ?_
    · rw [hpc]
      split_ifs
      · exact .unavailableSent _
      · exact .unavailable _ _
    · split_ifs <;> exact .inl rfl
  · exact .talk _ _ (hpc ▸ .unavailableSent _) (.inl rfl)
  · cases h

/-! ## What every run keeps -/

/-- The latest line was forwarded to backend `k`, the current one. -/
def Latest (backend : Option ℕ) (log : List Entry) (line : Bytes) (k : ℕ) (state : SmtpState)
    (reply : Option Bytes) : Prop :=
  backend = some k ∧ ∃ e old, log = e :: old ∧ e.line = line ∧ e.state = state ∧ e.reply = reply
    ∧ (e.fate = .forwarded k ∨ e.fate = .opened k)

def Sought (state : SmtpState) (line : Bytes) : Prop :=
  state = .command ∧ line.length ≤ packageMaxLength ∧ isHelo (commandToken line) = true
    ∧ parseHeloDomain line ≠ none

/-- What holds where the session is. -/
def Stage (s : State) : Prop :=
  match s.pc with
  | .greeting _ | .syntaxError _ | .unknownCommand _ => s.unwritten = [] ∧ s.state = .command
  | .readLine => s.unwritten = []
  | .routing line _ | .connecting line _ _ => s.unwritten = [] ∧ Sought s.state line
  | .greeted line k => s.unwritten = [] ∧ Sought s.state line
      ∧ ∃ b, s.backends[k]? = some b ∧ b.written = []
  | .sending state line k rest => s.unwritten = rest ∧ s.state = state
      ∧ Latest s.backend s.log line k state none
  | .awaiting state line k => s.unwritten = [] ∧ s.state = state
      ∧ (state = .data → trimAscii line = dataTerminator) ∧ Latest s.backend s.log line k state none
  | .relaying state line response _ => s.unwritten = [] ∧ s.state = .command
      ∧ ∃ k, Latest s.backend s.log line k state (some response)
  | .unavailable _ | .returned _ => True

/-- Why a line met its fate. -/
def Entry.Justified (e : Entry) : Prop :=
  match e.fate with
  | .opened _ | .unreachable => e.line.length ≤ packageMaxLength ∧ e.state = .command
      ∧ isHelo (commandToken e.line) = true ∧ parseHeloDomain e.line ≠ none
  | .forwarded k => e.line.length ≤ packageMaxLength ∧ e.backend = some k
      ∧ (e.state = .data ∨ isHelo (commandToken e.line) = false
        ∧ isForwarded (commandToken e.line) = true)
  | .unknown => e.line.length ≤ packageMaxLength ∧ e.state = .command
      ∧ isHelo (commandToken e.line) = false ∧ isForwarded (commandToken e.line) = false
  | .noDomain => e.line.length ≤ packageMaxLength ∧ e.state = .command
      ∧ isHelo (commandToken e.line) = true ∧ parseHeloDomain e.line = none
  | .tooLong => packageMaxLength < e.line.length
  | .noBackend => e.line.length ≤ packageMaxLength ∧ e.state = .command ∧ e.backend = none
      ∧ isForwarded (commandToken e.line) = true

/-- The session ends on lines with these fates. -/
def Fate.ends : Fate → Bool
  | .tooLong | .noBackend | .unreachable => true
  | _ => false

structure Inv (s : State) : Prop where
  stage : Stage s
  written : ∀ k, s.backend = some k → latestOpened s.log = some k
    ∧ ∃ b, s.backends[k]? = some b ∧ b.written ++ s.unwritten = (sinceOpened s.log).flatten
  justified : ∀ e ∈ s.log, e.Justified
  ending : ∀ e ∈ s.log, e.fate.ends = true → s.pc.over = true
  message : s.state = .data → ∃ k body e old, InMessage s k body e old

theorem inv_new : Inv new where
  stage := ⟨rfl, rfl⟩
  written := nofun
  justified := nofun
  ending := nofun
  message := nofun

/-- A step after which only the program counter, the client's output and the error differ. -/
theorem Inv.moveOn (hs : Inv s) {client : Bytes} {error : Option String} {pc : Pc}
    (hstage : Stage { s with client := client, error := error, pc := pc })
    (hover : s.pc.over = true → pc.over = true)
    (hread : pc = .readLine → s.state = .command ∨ ∀ e log, s.log = e :: log →
      trimAscii e.line ≠ dataTerminator) :
    Inv { s with client := client, error := error, pc := pc } := by
  refine ⟨hstage, hs.written, hs.justified, fun e he h => hover (hs.ending e he h), fun hdata => ?_⟩
  obtain ⟨k, body, e, old, hm⟩ := hs.message hdata
  refine ⟨k, body, e, old, { hm with body_handled := fun hpc => ?_ }⟩
  rcases hread hpc with hcommand | hhead
  · cases hcommand.symm.trans hdata
  · -- the latest line is the only one that could be the last of the message
    rcases body with _ | ⟨e₀, body⟩
    · exact nofun
    · intro e' he'
      rcases List.mem_cons.1 he' with rfl | he'
      · exact hhead e' (body ++ e :: old) hm.log
      · exact hm.body_tail e' he'

theorem Inv.fail (hs : Inv s) (e : String) : Inv (s.fail e) :=
  hs.moveOn trivial (fun _ => rfl) nofun

theorem Talks.over {p p' : Pc} (h : Talks p p') (hp : p.over = true) : p'.over = true := by
  rcases h <;> first | rfl | cases hp

theorem Inv.talk (hs : Inv s) {client : Bytes} {pc : Pc} (h : Talks s.pc pc) :
    Inv { s with client := client, pc := pc } := by
  have hst := hs.stage
  refine hs.moveOn ?_ h.over fun hread => ?_
  · unfold Stage at hst ⊢
    generalize hpc : s.pc = p at h hst
    rcases h <;> first | exact trivial | exact hst | exact hst.1
  · unfold Stage at hst
    generalize hpc : s.pc = p at h hst
    rcases h <;> first | exact .inl hst.2 | cases hread

/-! ## Backends -/

theorem getElem?_setBackend {b b' : Backend} {j : ℕ} (hb : s.backends[k]? = some b) :
    (s.setBackend k b').backends[j]? = if j = k then some b' else s.backends[j]? := by
  have hlt := (List.getElem?_eq_some_iff.1 hb).1
  unfold State.setBackend
  rw [List.getElem?_set]
  split_ifs with h h' h' <;> first | rfl | exact absurd h.symm h' | exact absurd h'.symm h

theorem read_eq_some {data : Bytes} (h : s.read k n = some (data, s')) :
    ∃ b, s.backends[k]? = some b ∧ 1 ≤ n ∧ n ≤ recvBuffer ∧ n ≤ b.inbox.length
      ∧ data = b.inbox.take n
      ∧ s' = s.setBackend k ⟨b.written, b.inbox.drop n, b.consumed ++ b.inbox.take n⟩ := by
  unfold State.read at h
  split at h
  next b hb =>
    split_ifs at h with hn
    obtain ⟨rfl, rfl⟩ := Prod.mk.inj (Option.some.inj h)
    exact ⟨b, hb, hn.1, hn.2.1, hn.2.2, rfl, rfl⟩
  next => cases h

theorem read_frame {data : Bytes} (h : s.read k n = some (data, s')) :
    s'.pc = s.pc ∧ s'.state = s.state := by
  obtain ⟨b, -, -, -, -, -, rfl⟩ := read_eq_some h
  exact ⟨rfl, rfl⟩

/-- What a backend has sent does not matter. -/
theorem Inv.setBackend (hs : Inv s) {b b' : Backend} (hb : s.backends[k]? = some b)
    (hwritten : b'.written = b.written) : Inv (s.setBackend k b') := by
  have hfound : ∀ (j : ℕ) (c : Backend), s.backends[j]? = some c →
      ∃ c' : Backend, (s.setBackend k b').backends[j]? = some c' ∧ c'.written = c.written := by
    intro j c hc
    rw [getElem?_setBackend hb]
    split_ifs with hj
    · subst hj
      obtain rfl := Option.some.inj (hb.symm.trans hc)
      exact ⟨b', rfl, hwritten⟩
    · exact ⟨c, hc, rfl⟩
  refine ⟨?_, fun j hj => ?_, hs.justified, hs.ending, fun hdata => ?_⟩
  · have hst := hs.stage
    have hpc' : (s.setBackend k b').pc = s.pc := rfl
    unfold Stage at hst ⊢
    rw [hpc']
    rcases hpc : s.pc with rest | _ | ⟨line, domain⟩ | ⟨line, host, port⟩ | ⟨line, j⟩ |
      ⟨state, line, j, rest⟩ | ⟨state, line, j⟩ | ⟨state, line, response, rest⟩ | rest | rest |
      rest | r
    all_goals rw [hpc] at hst
    all_goals try exact hst
    obtain ⟨hun, hsought, c, hc, hw⟩ := hst
    obtain ⟨c', hc', hw'⟩ := hfound j c hc
    exact ⟨hun, hsought, c', hc', hw'.trans hw⟩
  · obtain ⟨hopened, c, hc, hw⟩ := hs.written j hj
    obtain ⟨c', hc', hw'⟩ := hfound j c hc
    exact ⟨hopened, c', hc', by rw [hw']; exact hw⟩
  · obtain ⟨j, body, e, old, hm⟩ := hs.message hdata
    exact ⟨j, body, e, old, { hm with }⟩

theorem Inv.read (hs : Inv s) {data : Bytes} (h : s.read k n = some (data, s')) : Inv s' := by
  obtain ⟨b, hb, -, -, -, -, rfl⟩ := read_eq_some h
  exact hs.setBackend hb rfl

theorem Inv.connected (hs : Inv s) {host : Text} {port : UInt16}
    (hpc : s.pc = .connecting line host port) :
    Inv { s with
      pc := .greeted line s.backends.length, backends := s.backends ++ [⟨[], [], []⟩] } := by
  have hst := hs.stage
  unfold Stage at hst
  rw [hpc] at hst
  have hnot : s.pc.over = false := by rw [hpc]; rfl
  refine ⟨⟨hst.1, hst.2, ⟨[], [], []⟩, ?_, rfl⟩, fun k hk => ?_, hs.justified, ?_, ?_⟩
  · exact List.getElem?_concat_length
  · obtain ⟨hopened, b, hb, hw⟩ := hs.written k hk
    refine ⟨hopened, b, ?_, hw⟩
    show (s.backends ++ _)[k]? = some b
    rw [List.getElem?_append_left (List.getElem?_eq_some_iff.1 hb).1, hb]
  · intro e he h
    rw [hs.ending e he h] at hnot
    cases hnot
  · intro hdata
    cases hst.2.1.symm.trans hdata

/-! ## Lines -/

theorem opened_of_withheld (log : List Entry) (h : e.withheld = true) :
    latestOpened (e :: log) = latestOpened log ∧ sinceOpened (e :: log) = sinceOpened log := by
  rcases e with ⟨line, state, backend, fate, reply⟩
  rcases fate <;> first | exact ⟨rfl, rfl⟩ | cases h

/-- A line is withheld. -/
theorem Inv.withhold (hs : Inv s) {fate : Fate} {pc : Pc} {error : Option String}
    (hfate : (⟨line, s.state, s.backend, fate, none⟩ : Entry).withheld = true)
    (hj : (⟨line, s.state, s.backend, fate, none⟩ : Entry).Justified)
    (hstage : Stage { s.record line fate with pc := pc, error := error })
    (hnot : s.pc.over = false) (hends : fate.ends = true → pc.over = true)
    (hread : s.state = .data → s.pc = .readLine ∧ pc ≠ .readLine) :
    Inv { s.record line fate with pc := pc, error := error } := by
  have hsame := opened_of_withheld s.log hfate
  refine ⟨hstage, fun k hk => ?_, ?_, ?_, fun hdata => ?_⟩
  · obtain ⟨hopened, b, hb, hw⟩ := hs.written k hk
    exact ⟨hsame.1.trans hopened, b, hb, hw.trans (congrArg List.flatten hsame.2.symm)⟩
  · exact List.forall_mem_cons.2 ⟨hj, hs.justified⟩
  · refine List.forall_mem_cons.2 ⟨hends, fun e he h => ?_⟩
    rw [hs.ending e he h] at hnot
    cases hnot
  · obtain ⟨k, body, e, old, hm⟩ := hs.message hdata
    obtain ⟨hpc, hpc'⟩ := hread hdata
    refine ⟨k, _ :: body, e, old, ⟨hm.backend, congrArg _ hm.log, hm.state, hm.fate, hm.line,
      hm.reply, List.forall_mem_cons.2 ⟨hdata, hm.body_state⟩, hm.body_handled hpc,
      fun h => absurd h hpc'⟩⟩

/-- The line is one that a backend is to have. -/
def Forwards (s : State) (line : Bytes) : Prop :=
  s.state = .data ∨ isHelo (commandToken line) = false ∧ isForwarded (commandToken line) = true

/-- What becomes of a line that is read. -/
inductive Serves (s : State) (line : Bytes) : State → Prop
  | tooLong (long : packageMaxLength < line.length) :
      Serves s line ((s.record line .tooLong).goto (.unavailable errorUnavailable))
  | noDomain (short : line.length ≤ packageMaxLength) (command : s.state = .command)
      (helo : isHelo (commandToken line) = true) (missing : parseHeloDomain line = none) :
      Serves s line ((s.record line .noDomain).goto (.syntaxError errorSyntax))
  | routing (short : line.length ≤ packageMaxLength) (command : s.state = .command)
      (helo : isHelo (commandToken line) = true) (domain : Text)
      (found : parseHeloDomain line = some domain) : Serves s line (s.goto (.routing line domain))
  | noBackend (short : line.length ≤ packageMaxLength) (forwards : Forwards s line)
      (missing : s.backend = none) :
      Serves s line ((s.record line .noBackend).fail "no backend connection")
  | forward (short : line.length ≤ packageMaxLength) (forwards : Forwards s line) (k : ℕ)
      (found : s.backend = some k) :
      Serves s line { s.record line (.forwarded k) with
        pc := .sending s.state line k line, unwritten := line }
  | unknown (short : line.length ≤ packageMaxLength) (command : s.state = .command)
      (helo : isHelo (commandToken line) = false)
      (forwarded : isForwarded (commandToken line) = false) :
      Serves s line ((s.record line .unknown).goto (.unknownCommand errorUnknownCommand))

theorem serves_forward (hlen : line.length ≤ packageMaxLength) (hforwards : Forwards s line) :
    Serves s line (s.forward line) := by
  unfold State.forward
  rcases hback : s.backend with _ | k
  · exact .noBackend hlen hforwards hback
  · exact .forward hlen hforwards k hback

theorem serves_serve (s : State) (line : Bytes) : Serves s line (s.serve line) := by
  unfold State.serve
  split_ifs with hlen
  · exact .tooLong hlen
  rw [not_lt] at hlen
  rcases hstate : s.state with _ | _
  · show Serves s line (if _ then _ else _)
    split_ifs with hhelo hforward
    · unfold State.handleHelo
      rcases hdomain : parseHeloDomain line with _ | domain
      · exact .noDomain hlen hstate hhelo hdomain
      · exact .routing hlen hstate hhelo domain hdomain
    · exact serves_forward hlen (.inr ⟨by simpa using hhelo, hforward⟩)
    · exact .unknown hlen hstate (by simpa using hhelo) (by simpa using hforward)
  · exact serves_forward hlen (.inl hstate)

/-- A line is forwarded to the current backend. -/
theorem Inv.forward (hs : Inv s) (hpc : s.pc = .readLine) (hlen : line.length ≤ packageMaxLength)
    (hforwards : Forwards s line) (hback : s.backend = some k) :
    Inv { s.record line (.forwarded k) with
      pc := .sending s.state line k line, unwritten := line } := by
  have hnot : s.pc.over = false := by rw [hpc]; rfl
  have hun : s.unwritten = [] := by
    have hst := hs.stage
    unfold Stage at hst
    rw [hpc] at hst
    exact hst
  obtain ⟨hopened, b, hb, hw⟩ := hs.written k hback
  rw [hun, List.append_nil] at hw
  refine ⟨⟨rfl, rfl, hback, _, s.log, rfl, rfl, rfl, rfl, .inl rfl⟩, fun j hj => ?_, ?_, ?_,
    fun hdata => ?_⟩
  · obtain rfl : k = j := Option.some.inj (hback.symm.trans hj)
    refine ⟨hopened, b, hb, ?_⟩
    show b.written ++ line = (sinceOpened s.log ++ [line]).flatten
    rw [List.flatten_append, hw]
    simp
  · exact List.forall_mem_cons.2 ⟨⟨hlen, hback, hforwards⟩, hs.justified⟩
  · refine List.forall_mem_cons.2 ⟨nofun, fun e he h => ?_⟩
    rw [hs.ending e he h] at hnot
    cases hnot
  · obtain ⟨j, body, e, old, hm⟩ := hs.message hdata
    exact ⟨j, _ :: body, e, old, ⟨hm.backend, congrArg _ hm.log, hm.state, hm.fate, hm.line,
      hm.reply, List.forall_mem_cons.2 ⟨hdata, hm.body_state⟩, hm.body_handled hpc, nofun⟩⟩

theorem Inv.serve (hs : Inv s) (hpc : s.pc = .readLine) : Inv (s.serve line) := by
  have hnot : s.pc.over = false := by rw [hpc]; rfl
  have hun : s.unwritten = [] := by
    have hst := hs.stage
    unfold Stage at hst
    rw [hpc] at hst
    exact hst
  have hserves := serves_serve s line
  generalize s.serve line = t at hserves ⊢
  cases hserves with
  | tooLong hlen => exact hs.withhold rfl hlen trivial hnot (fun _ => rfl) fun _ => ⟨hpc, nofun⟩
  | noDomain hlen hstate hhelo hdomain =>
    refine hs.withhold rfl ⟨hlen, hstate, hhelo, hdomain⟩ ⟨hun, hstate⟩ hnot nofun fun h => ?_
    cases hstate.symm.trans h
  | routing hlen hstate hhelo domain hdomain =>
    refine hs.moveOn ⟨hun, hstate, hlen, hhelo, ?_⟩ (fun h => ?_) nofun
    · rw [hdomain]
      exact Option.some_ne_none domain
    · rw [hnot] at h
      cases h
  | noBackend hlen hforwards hback =>
    -- in `Data` mode there is a backend
    have hcommand : s.state = .command := by
      rcases hstate : s.state with _ | _
      · rfl
      · obtain ⟨k, _, _, _, hm⟩ := hs.message hstate
        cases hback.symm.trans hm.backend
    refine hs.withhold rfl ?_ trivial hnot (fun _ => rfl) fun h => ?_
    · refine ⟨hlen, hcommand, hback, ?_⟩
      rcases hforwards with h | h
      · cases hcommand.symm.trans h
      · exact h.2
    · cases hcommand.symm.trans h
  | forward hlen hforwards k hback => exact hs.forward hpc hlen hforwards hback
  | unknown hlen hstate hhelo hforward =>
    refine hs.withhold rfl ⟨hlen, hstate, hhelo, hforward⟩ ⟨hun, hstate⟩ hnot nofun fun h => ?_
    cases hstate.symm.trans h

theorem Seeks.not_over {p : Pc} (h : Seeks p line) : p.over = false := by
  rcases h <;> rfl

theorem Inv.sought (hs : Inv s) (h : Seeks s.pc line) : Sought s.state line := by
  have hst := hs.stage
  unfold Stage at hst
  generalize hpc : s.pc = p at h hst
  rcases h with _ | _ | _
  · exact hst.2
  · exact hst.2
  · exact hst.2.1

theorem Inv.unreachable (hs : Inv s) (h : Seeks s.pc line) (e : String) :
    Inv ((s.record line .unreachable).fail e) := by
  obtain ⟨hstate, hlen, hhelo, hdomain⟩ := hs.sought h
  refine hs.withhold rfl ⟨hlen, hstate, hhelo, hdomain⟩ trivial h.not_over (fun _ => rfl)
    fun hd => ?_
  cases hstate.symm.trans hd

theorem Inv.welcome (hs : Inv s) (hpc : s.pc = .greeted line k) (data : Bytes) :
    Inv (s.welcome line k data) := by
  have hseeks : Seeks s.pc line := hpc ▸ .greeted line k
  obtain ⟨hstate, hlen, hhelo, hdomain⟩ := hs.sought hseeks
  have hst := hs.stage
  unfold Stage at hst
  rw [hpc] at hst
  obtain ⟨hun, -, b, hb, hw⟩ := hst
  unfold State.welcome
  dsimp only
  split_ifs
  · exact hs.unreachable hseeks _
  · refine ⟨⟨rfl, hstate, rfl, _, s.log, rfl, rfl, hstate, rfl, .inr rfl⟩, fun j hj => ?_, ?_, ?_,
      fun hdata => ?_⟩
    · obtain rfl : k = j := Option.some.inj hj
      refine ⟨rfl, b, hb, ?_⟩
      show b.written ++ line = [line].flatten
      rw [hw]
      simp
    · exact List.forall_mem_cons.2 ⟨⟨hlen, hstate, hhelo, hdomain⟩, hs.justified⟩
    · refine List.forall_mem_cons.2 ⟨nofun, fun e he h => ?_⟩
      have hover := hs.ending e he h
      rw [hseeks.not_over] at hover
      cases hover
    · cases hstate.symm.trans hdata

theorem Inv.write (hs : Inv s) {state : SmtpState} (hpc : s.pc = .sending state line k rest)
    {b : Backend} (hb : s.backends[k]? = some b) :
    Inv { s.setBackend k { b with written := b.written ++ rest.take n } with
      pc := .sending state line k (rest.drop n), unwritten := rest.drop n } := by
  have hst := hs.stage
  unfold Stage at hst
  rw [hpc] at hst
  obtain ⟨hun, hstate, hlatest⟩ := hst
  refine ⟨⟨rfl, hstate, hlatest⟩, fun j hj => ?_, hs.justified, fun e he h => ?_, fun hdata => ?_⟩
  · obtain rfl : k = j := Option.some.inj (hlatest.1.symm.trans hj)
    obtain ⟨hopened, c, hc, hw⟩ := hs.written k hlatest.1
    obtain rfl := Option.some.inj (hb.symm.trans hc)
    refine ⟨hopened, { b with written := b.written ++ rest.take n }, ?_, ?_⟩
    · exact (getElem?_setBackend hb).trans (if_pos rfl)
    · show b.written ++ rest.take n ++ rest.drop n = (sinceOpened s.log).flatten
      rw [List.append_assoc, List.take_append_drop, ← hun, hw]
  · have hover := hs.ending e he h
    rw [hpc] at hover
    cases hover
  · obtain ⟨j, body, e, old, hm⟩ := hs.message hdata
    exact ⟨j, body, e, old, { hm with body_handled := nofun }⟩

theorem setReply_eq {log : List Entry} {data : Bytes} (h : s.log = e :: log) :
    s.setReply data = { s with log := { e with reply := some data } :: log } := by
  unfold State.setReply
  rw [h]

theorem setReply_command {pc : Pc} {data : Bytes} (h : s.state = .command) :
    (s.setReply data).goto pc = { (s.setReply data).goto pc with state := .command } := by
  have hstate : (s.setReply data).state = .command := by
    unfold State.setReply
    split <;> exact h
  unfold State.goto
  rw [hstate]

/-- What the backend answered is noted with the latest line, and the answer is passed on. -/
theorem Inv.reply (hs : Inv s) {state : SmtpState} (hpc : s.pc = .awaiting state line k)
    (data : Bytes) :
    Inv { (s.setReply data).goto (.relaying state line data data) with state := .command } := by
  have hst := hs.stage
  unfold Stage at hst
  rw [hpc] at hst
  obtain ⟨hun, hstate, -, hback, e, log, hlog, hline, he, -, hfate⟩ := hst
  rw [setReply_eq hlog]
  refine ⟨⟨hun, rfl, k, hback, _, log, rfl, hline, he, rfl, hfate⟩, fun j hj => ?_, ?_, ?_, nofun⟩
  · have := hs.written j hj
    rw [hlog] at this
    exact this
  · have := hs.justified
    rw [hlog, List.forall_mem_cons] at this
    exact List.forall_mem_cons.2 this
  · intro e' he' h
    have hover : s.pc.over = true := by
      have := hs.ending
      rw [hlog] at this
      rcases List.mem_cons.1 he' with rfl | he'
      · exact this e List.mem_cons_self h
      · exact this e' (List.mem_cons_of_mem _ he') h
    rw [hpc] at hover
    cases hover

theorem eq_of_toAsciiUppercase {b c : UInt8} (h : toAsciiUppercase b = c) :
    b = c ∨ b = c + 32 := by
  unfold toAsciiUppercase at h
  split_ifs at h
  · right
    rw [← h, UInt8.sub_add_cancel]
  · exact .inl h

/-- A line that is the word alone has it as its token. -/
theorem commandToken_of_isDataOnlyLine (h : isDataOnlyLine line = true) :
    commandToken line = "DATA".toList := by
  unfold isDataOnlyLine at h
  rw [decide_eq_true_eq] at h
  obtain ⟨hlen, hupper⟩ := h
  unfold commandToken
  generalize trimAscii line = t at hlen hupper
  obtain ⟨d, a, t, a', rfl⟩ := List.length_eq_four.1 hlen
  simp only [List.map_cons, List.map_nil] at hupper
  obtain ⟨hd, ha, ht, ha', -⟩ : toAsciiUppercase d = 68 ∧ toAsciiUppercase a = 65
      ∧ toAsciiUppercase t = 84 ∧ toAsciiUppercase a' = 65 ∧ True := by
    simpa [ascii] using hupper
  rcases eq_of_toAsciiUppercase hd with rfl | rfl <;>
    rcases eq_of_toAsciiUppercase ha with rfl | rfl <;>
    rcases eq_of_toAsciiUppercase ht with rfl | rfl <;>
    rcases eq_of_toAsciiUppercase ha' with rfl | rfl <;> rfl

/-- After the answer to a `DATA` line a message may begin. -/
theorem Inv.replied (hs : Inv s) {state : SmtpState} {response : Bytes}
    (hpc : s.pc = .relaying state line response []) : Inv (s.replied state line response) := by
  have hnot : s.pc.over = false := by rw [hpc]; rfl
  have hover : ∀ {p : Prop}, s.pc.over = true → p := by
    intro p h
    rw [hnot] at h
    cases h
  have hst := hs.stage
  unfold Stage at hst
  rw [hpc] at hst
  obtain ⟨hun, hstate, k, hback, e, log, hlog, hline, he, hreply, hfate⟩ := hst
  rcases state with _ | _
  · unfold State.replied
    dsimp only
    have hstage : ∀ t : State, t.unwritten = [] →
        Stage (t.goto (if commandToken line = "QUIT".toList then .returned none
          else .readLine)) := by
      intro t ht
      split_ifs
      · exact trivial
      · exact ht
    by_cases hready : (isDataOnlyLine line && dataReadyCode.isPrefixOf response) = true
    · rw [if_pos hready]
      rw [Bool.and_eq_true] at hready
      have htoken := commandToken_of_isDataOnlyLine hready.1
      have hfate' : e.fate = .forwarded k := by
        rcases hfate with h | h
        · exact h
        · have hj := hs.justified e (hlog ▸ List.mem_cons_self)
          unfold Entry.Justified at hj
          rw [h] at hj
          have := hj.2.2.1
          rw [hline, htoken] at this
          cases this
      refine ⟨hstage { s with state := .data } hun, hs.written, hs.justified,
        fun e' he' h => hover (hs.ending e' he' h), fun _ => ?_⟩
      refine ⟨k, [], e, log, ⟨hback, hlog, he, hfate', by rw [hline]; exact hready.1, ?_, nofun,
        nofun, nofun⟩⟩
      exact ⟨response, hreply, List.isPrefixOf_iff_prefix.1 hready.2⟩
    · rw [if_neg hready]
      exact hs.moveOn (hstage s hun) hover fun _ => .inl hstate
  · exact hs.moveOn hun hover fun _ => .inl hstate

theorem Moves.inv {i : Input} (h : Moves s i s') (hs : Inv s) : Inv s' := by
  have hst := hs.stage
  unfold Stage at hst
  rcases h with ⟨client, pc, htalks, -⟩ | ⟨line, hpc, -⟩ | ⟨line, domain, host, port, hpc⟩ |
    ⟨line, host, port, hpc⟩ | ⟨line, e, hseeks⟩ | ⟨line, k, n, data, t, hpc, hread⟩ |
    ⟨state, line, k, rest, n, b, hpc, hb⟩ | ⟨state, line, k, hpc, hawaits⟩ | ⟨line, k, hpc, hdot⟩ |
    ⟨e, hpc⟩ | ⟨line, k, n, data, t, hpc, hread⟩ | ⟨line, k, n, data, t, hpc, hread⟩ |
    ⟨line, k, hpc⟩ | ⟨state, line, response, hpc⟩
  · exact hs.talk htalks
  · exact hs.serve hpc
  · rw [hpc] at hst
    exact hs.moveOn hst (by rw [hpc]; exact nofun) nofun
  · exact hs.connected hpc
  · exact hs.unreachable hseeks e
  · exact (hs.read hread).welcome ((read_frame hread).1.trans hpc) data
  · exact hs.write hpc hb
  · rw [hpc] at hst
    exact hs.moveOn ⟨hst.1, hst.2.1, hawaits, hst.2.2⟩ (by rw [hpc]; exact nofun) nofun
  · rw [hpc] at hst
    obtain ⟨hun, -, -, e, log, hlog, hline, -⟩ := hst
    refine hs.moveOn hun (by rw [hpc]; exact nofun) fun _ => .inr fun e' log' hlog' => ?_
    obtain ⟨rfl, -⟩ := List.cons.inj (hlog.symm.trans hlog')
    rwa [hline]
  · exact hs.fail e
  · rw [hpc] at hst
    rw [setReply_command ((read_frame hread).2.trans hst.2.1)]
    exact (hs.read hread).reply ((read_frame hread).1.trans hpc) data
  · exact (hs.read hread).reply ((read_frame hread).1.trans hpc) data
  · rw [hpc] at hst
    refine ⟨hst.1, hs.written, hs.justified, fun e he h => ?_, nofun⟩
    have hover := hs.ending e he h
    rw [hpc] at hover
    cases hover
  · exact hs.replied hpc

theorem step_inv {a : Action} (hs : Inv s) (h : step s a = some s') : Inv s' := by
  rcases a with i | ⟨k, data⟩
  · exact (moves_of_next h).inv hs
  · obtain ⟨b, hb, rfl⟩ := Option.map_eq_some_iff.1 h
    exact hs.setBackend hb rfl

theorem run_inv_new {as : List Action} (h : run step new as = some s) : Inv s :=
  run_inv (fun _ _ _ hs h => step_inv hs h) inv_new h

/-! ## Withheld lines, and what is written -/

theorem isForwarded_of_isHelo {command : Text} (h : isHelo command = true) :
    isForwarded command = false := by
  unfold isHelo at h
  rw [decide_eq_true_eq] at h
  rcases h with rfl | rfl <;> rfl

theorem Inv.unwritten (hs : Inv s) :
    s.unwritten = [] ∨ s.pc.over = true
      ∨ ∃ state line k, s.pc = .sending state line k s.unwritten := by
  have hst := hs.stage
  unfold Stage at hst
  rcases hpc : s.pc with rest | _ | ⟨line, domain⟩ | ⟨line, host, port⟩ | ⟨line, k⟩ |
    ⟨state, line, k, rest⟩ | ⟨state, line, k⟩ | ⟨state, line, response, rest⟩ | rest | rest |
    rest | r <;> rw [hpc] at hst
  · exact .inl hst.1
  · exact .inl hst
  · exact .inl hst.1
  · exact .inl hst.1
  · exact .inl hst.1
  · exact .inr (.inr ⟨state, line, k, by rw [hst.1]⟩)
  · exact .inl hst.1
  · exact .inl hst.1
  · exact .inl hst.1
  · exact .inl hst.1
  · exact .inr (.inl rfl)
  · exact .inr (.inl rfl)

end Smtp

end ProtocolProxy
