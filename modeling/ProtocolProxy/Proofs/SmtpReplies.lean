import ProtocolProxy.Proofs.Smtp

/-!
# Replies and commands

A reply is read with one read.  As long as every such read takes the whole reply, what was read from
a backend is always a number of whole replies, and the client is told each of them after the line it
belongs to (`repliesPaired_of_whole`).
-/

namespace ProtocolProxy

namespace Smtp

open Machine

variable {s s' : State} {line rest : Bytes} {k n m : ℕ} {e : Entry} {log : List Entry}
  {R : ℕ → ℕ → Bytes}

/-! ## Counting replies -/

theorem said_succ : said R k (m + 1) = said R k m ++ R k m := by
  unfold said
  rw [List.range_succ, List.map_append, List.flatten_append]
  simp

theorem answers_cons_of_sentTo (h : e.sentTo k = true) (ha : e.awaits = true) :
    answers k (e :: log) = answers k log + 1 := by
  unfold answers
  rw [List.countP_cons_of_pos (by rw [h, ha]; rfl)]

theorem answers_cons_of_not (h : e.sentTo k = false ∨ e.awaits = false) :
    answers k (e :: log) = answers k log := by
  unfold answers
  rw [List.countP_cons_of_neg]
  rcases h with h | h <;> simp [h]

theorem transcript_sentTo (h : e.sentTo k = true) : transcript R (e :: log)
    = transcript R log ++ if e.awaits then R k (answers k (e :: log)) else [] := by
  unfold Entry.sentTo at h
  rw [decide_eq_true_eq] at h
  rw [transcript]
  rcases h with h | h <;> rw [h]

/-- What was read from the current backend are its replies up to now. -/
def Current (R : ℕ → ℕ → Bytes) (backend : Option ℕ) (backends : List Backend)
    (log : List Entry) : Prop :=
  ∀ k, backend = some k → ∃ b, backends[k]? = some b ∧ b.consumed = said R k (answers k log + 1)

/-- The lines the client has been told about are those of `log`. -/
def Told (R : ℕ → ℕ → Bytes) (client : Bytes) (log : List Entry) : Prop :=
  client = greeting ++ transcript R log

/-- After a `DATA` line the mode is as the reply says. -/
def ModeFits (R : ℕ → ℕ → Bytes) (state : SmtpState) (log : List Entry) : Prop :=
  ∀ e old k, log = e :: old → e.state = .command → e.fate = .forwarded k →
    isDataOnlyLine e.line = true → (state = .data ↔ dataReadyCode <+: R k (answers k log))

/-- What has been read and told at each point. -/
def Heard (R : ℕ → ℕ → Bytes) (s : State) : Prop :=
  match s.pc with
  | .greeting rest => s.client ++ rest = greeting ∧ s.log = [] ∧ s.backend = none
  | .readLine => Current R s.backend s.backends s.log ∧ Told R s.client s.log
      ∧ ModeFits R s.state s.log
  | .routing _ _ | .connecting _ _ _ => Told R s.client s.log
  | .greeted _ k => Told R s.client s.log ∧ answers k s.log = 0
      ∧ ∃ b, s.backends[k]? = some b ∧ b.consumed = []
  | .sending _ _ _ _ | .awaiting _ _ _ => Current R s.backend s.backends s.log.tail
      ∧ Told R s.client s.log.tail
  | .relaying state _ response rest => Current R s.backend s.backends s.log
      ∧ Told R (s.client ++ rest) s.log
      ∧ (state = .command → ∀ k, s.backend = some k → response = R k (answers k s.log))
  | .syntaxError rest | .unknownCommand rest => Current R s.backend s.backends s.log
      ∧ Told R (s.client ++ rest) s.log ∧ ∀ e old, s.log = e :: old → e.withheld = true
  | .unavailable _ | .returned _ => True

theorem Heard.repliesPaired (h : Heard R s) : RepliesPaired R s := by
  intro hpc
  unfold Heard at h
  rw [hpc] at h
  exact h.2

/-- Lines are sent to backends that exist. -/
def Known (s : State) : Prop := ∀ e ∈ s.log, ∀ k, e.sentTo k = true → k < s.backends.length

theorem Known.answers_eq_zero (h : Known s) (hk : s.backends.length ≤ k) :
    answers k s.log = 0 := by
  unfold answers
  rw [List.countP_eq_zero]
  intro e he hsent
  rw [Bool.and_eq_true] at hsent
  have := h e he k hsent.1
  omega

theorem ModeFits.of_withheld {state : SmtpState}
    (h : ∀ e old, log = e :: old → e.withheld = true) : ModeFits R state log := by
  intro e old k hlog _ hfate
  have := h e old hlog
  unfold Entry.withheld at this
  rw [hfate] at this
  cases this

/-! ## What a step does -/

theorem Heard.talk (h : Heard R s) {client : Bytes} {pc : Pc} (htalks : Talks s.pc pc)
    (htold : pc.over = true ∨ client ++ pc.unsent = s.client ++ s.pc.unsent) :
    Heard R { s with client := client, pc := pc } := by
  unfold Heard at h ⊢
  generalize s.pc = p at h htalks htold
  rcases htalks with ⟨rest, rest'⟩ | _ | _ | _ | ⟨state, line, response, rest, rest'⟩ |
    ⟨rest, rest'⟩ | _ | ⟨rest, rest'⟩ | _ | _ | _ | _ <;>
    first
    | exact trivial
    | replace htold := htold.resolve_left nofun
  · exact ⟨htold.trans h.1, h.2⟩
  · obtain ⟨hclient, hlog, hback⟩ := h
    refine ⟨fun k hk => ?_, ?_, ?_⟩
    · cases hback.symm.trans hk
    · show client = greeting ++ transcript R s.log
      rw [hlog]
      have : client ++ [] = s.client ++ [] := htold
      simpa [hclient, transcript] using this
    · intro e old k hold
      cases hlog.symm.trans hold
  · refine ⟨h.1, ?_, h.2.2⟩
    show client ++ rest' = _
    exact htold.trans h.2.1
  · refine ⟨h.1, ?_, h.2.2⟩
    show client ++ rest' = _
    exact htold.trans h.2.1
  · refine ⟨h.1, ?_, .of_withheld h.2.2⟩
    have : client ++ [] = s.client ++ [] := htold
    rw [List.append_nil] at this
    rw [this]
    exact h.2.1
  · refine ⟨h.1, ?_, h.2.2⟩
    show client ++ rest' = _
    exact htold.trans h.2.1
  · refine ⟨h.1, ?_, .of_withheld h.2.2⟩
    have : client ++ [] = s.client ++ [] := htold
    rw [List.append_nil] at this
    rw [this]
    exact h.2.1

theorem not_sentTo_of_withheld (h : e.withheld = true) (k : ℕ) : e.sentTo k = false := by
  rcases e with ⟨line, state, backend, fate, reply⟩
  rcases fate <;> first | rfl | cases h

theorem Current.cons {backend : Option ℕ} {backends : List Backend}
    (h : Current R backend backends log) (hnot : ∀ k, e.sentTo k = false ∨ e.awaits = false) :
    Current R backend backends (e :: log) := by
  intro k hk
  rw [answers_cons_of_not (hnot k)]
  exact h k hk

theorem Current.setBackend (h : Current R s.backend s.backends log) {b b' : Backend}
    (hb : s.backends[k]? = some b) (hc : b'.consumed = b.consumed) :
    Current R s.backend (s.setBackend k b').backends log := by
  intro j hj
  obtain ⟨c, hc', hsaid⟩ := h j hj
  rw [getElem?_setBackend hb]
  split_ifs with hjk
  · subst hjk
    obtain rfl := Option.some.inj (hb.symm.trans hc')
    exact ⟨b', rfl, hc.trans hsaid⟩
  · exact ⟨c, hc', hsaid⟩

theorem Heard.serve (h : Heard R s) (hpc : s.pc = .readLine) : Heard R (s.serve line) := by
  unfold Heard at h
  rw [hpc] at h
  obtain ⟨hcurrent, htold, -⟩ := h
  -- a line that the session answers itself
  have hown : ∀ (e : Entry) (text : Bytes), e.withheld = true →
      transcript R (e :: s.log) = transcript R s.log ++ text →
      Current R s.backend s.backends (e :: s.log) ∧ Told R (s.client ++ text) (e :: s.log)
        ∧ ∀ e' old, e :: s.log = e' :: old → e'.withheld = true := by
    intro e text he htext
    refine ⟨hcurrent.cons fun k => .inl (not_sentTo_of_withheld he k), ?_, ?_⟩
    · unfold Told at htold ⊢
      rw [htold, htext, List.append_assoc]
    · intro e' old heq
      obtain ⟨rfl, -⟩ := List.cons.inj heq
      exact he
  have hserves := serves_serve s line
  generalize s.serve line = t at hserves ⊢
  cases hserves with
  | tooLong | noBackend => exact trivial
  | noDomain => exact hown _ errorSyntax rfl rfl
  | routing => exact htold
  | forward _ _ k hback => exact ⟨hcurrent, htold⟩
  | unknown => exact hown _ errorUnknownCommand rfl rfl

theorem Heard.connected (h : Heard R s) (hknown : Known s) {host : Text} {port : UInt16}
    (hpc : s.pc = .connecting line host port) :
    Heard R { s with
      pc := .greeted line s.backends.length, backends := s.backends ++ [⟨[], [], []⟩] } := by
  unfold Heard at h
  rw [hpc] at h
  exact ⟨h, hknown.answers_eq_zero le_rfl, ⟨[], [], []⟩, List.getElem?_concat_length, rfl⟩

/-- A read that takes all there is. -/
theorem read_whole {data : Bytes} (hread : s.read k n = some (data, s')) {b : Backend}
    (hb : s.backends[k]? = some b) (hn : n = b.inbox.length) :
    data = b.inbox ∧ s' = s.setBackend k ⟨b.written, [], b.consumed ++ b.inbox⟩ := by
  obtain ⟨c, hc, -, -, -, hdata, hs'⟩ := read_eq_some hread
  obtain rfl := Option.some.inj (hb.symm.trans hc)
  rw [hn, List.take_length] at hdata hs'
  rw [List.drop_length] at hs'
  exact ⟨hdata, hs'⟩

theorem Heard.welcome (h : Heard R s) (hpc : s.pc = .greeted line k) {data : Bytes}
    (hread : s.read k n = some (data, s')) (hwhole : Whole R s (.input (.read n))) :
    Heard R (s'.welcome line k data) := by
  unfold Heard at h
  rw [hpc] at h
  obtain ⟨htold, hzero, b, hb, hconsumed⟩ := h
  obtain ⟨hsaid, hn⟩ := hwhole k b (.inl ⟨line, hpc⟩) hb
  obtain ⟨-, rfl⟩ := read_whole hread hb hn
  unfold State.welcome
  dsimp only
  split_ifs
  · exact trivial
  · refine ⟨fun j hj => ?_, htold⟩
    obtain rfl : k = j := Option.some.inj hj
    exact ⟨_, (getElem?_setBackend hb).trans (if_pos rfl), hsaid⟩

theorem awaits_of_command (h : e.state = .command) : e.awaits = true := by
  unfold Entry.awaits
  simp [h]

theorem sentTo_of_fate (h : e.fate = .forwarded k ∨ e.fate = .opened k) : e.sentTo k = true := by
  unfold Entry.sentTo
  rw [decide_eq_true_eq]
  exact h.symm

/-- The reply to the latest line is read, whole. -/
theorem Heard.read (h : Heard R s) (hs : Inv s) {state : SmtpState}
    (hpc : s.pc = .awaiting state line k) {data : Bytes} (hread : s.read k n = some (data, s'))
    (hwhole : Whole R s (.input (.read n))) :
    Heard R { (s'.setReply data).goto (.relaying state line data data) with
      state := .command } := by
  have hst := hs.stage
  unfold Stage at hst
  unfold Heard at h
  rw [hpc] at h hst
  obtain ⟨hcurrent, htold⟩ := h
  obtain ⟨-, -, hdot, hback, e, old, hlog, hline, hstate, -, hfate⟩ := hst
  have hsent := sentTo_of_fate hfate
  have hawaits : e.awaits = true := by
    rcases state with _ | _
    · exact awaits_of_command hstate
    · unfold Entry.awaits
      rw [hline]
      simp [hdot rfl]
  rw [hlog, List.tail_cons] at hcurrent htold
  have hcount : answers k s.log = answers k old + 1 := by
    rw [hlog, answers_cons_of_sentTo hsent hawaits]
  obtain ⟨b, hb, hconsumed⟩ := hcurrent k hback
  obtain ⟨hsaid, hn⟩ := hwhole k b (.inr ⟨state, line, hpc⟩) hb
  obtain ⟨rfl, rfl⟩ := read_whole hread hb hn
  -- what was in the queue is the reply to this line
  have hinbox : b.inbox = R k (answers k s.log) := by
    rw [said_succ, hcount, ← hconsumed] at hsaid
    rw [hcount]
    exact List.append_cancel_left hsaid
  have hlog' : (s.setBackend k ⟨b.written, [], b.consumed ++ b.inbox⟩).log = e :: old := hlog
  rw [setReply_eq hlog']
  obtain ⟨e', he'⟩ : ∃ e' : Entry, e' = ⟨e.line, e.state, e.backend, e.fate, some b.inbox⟩ :=
    ⟨_, rfl⟩
  have hsent' : e'.sentTo k = true := by rw [he']; exact hsent
  have hawaits' : e'.awaits = true := by rw [he']; exact hawaits
  have hanswers : answers k (e' :: old) = answers k s.log := by
    rw [hcount, answers_cons_of_sentTo hsent' hawaits']
  rw [← he']
  refine ⟨fun j hj => ?_, ?_, fun _ j hj => ?_⟩
  · obtain rfl : k = j := Option.some.inj (hback.symm.trans hj)
    refine ⟨_, (getElem?_setBackend hb).trans (if_pos rfl), ?_⟩
    show b.consumed ++ b.inbox = said R k (answers k (e' :: old) + 1)
    rw [hanswers, hsaid]
  · show s.client ++ b.inbox = greeting ++ transcript R (e' :: old)
    unfold Told at htold
    rw [transcript_sentTo hsent', hawaits', hanswers, ← hinbox, htold, List.append_assoc]
    rfl
  · obtain rfl : k = j := Option.some.inj (hback.symm.trans hj)
    show b.inbox = R k (answers k (e' :: old))
    rw [hanswers, hinbox]

theorem Heard.passed (h : Heard R s) (hs : Inv s) (hpc : s.pc = .sending .data line k [])
    (hne : trimAscii line ≠ dataTerminator) : Heard R (s.goto .readLine) := by
  have hst := hs.stage
  unfold Stage at hst
  unfold Heard at h
  rw [hpc] at h hst
  obtain ⟨hcurrent, htold⟩ := h
  obtain ⟨-, -, hback, e, old, hlog, hline, hstate, -, hfate⟩ := hst
  have hawaits : e.awaits = false := by
    unfold Entry.awaits
    rw [hline]
    simp [hstate, hne]
  rw [hlog, List.tail_cons] at hcurrent htold
  refine ⟨?_, ?_, ?_⟩
  · show Current R s.backend s.backends s.log
    rw [hlog]
    exact hcurrent.cons fun _ => .inr hawaits
  · show Told R s.client s.log
    unfold Told at htold ⊢
    rw [hlog, transcript_sentTo (sentTo_of_fate hfate), hawaits, htold]
    simp
  · intro e' old' j hlog' hstate'
    obtain ⟨rfl, -⟩ := List.cons.inj (hlog.symm.trans hlog')
    cases hstate.symm.trans hstate'

theorem Heard.replied (h : Heard R s) (hs : Inv s) {state : SmtpState} {response : Bytes}
    (hpc : s.pc = .relaying state line response []) : Heard R (s.replied state line response) := by
  have hst := hs.stage
  unfold Stage at hst
  unfold Heard at h
  rw [hpc] at h hst
  obtain ⟨hcurrent, htold, hresponse⟩ := h
  rw [List.append_nil] at htold
  obtain ⟨-, hcommand, k, hback, e, old, hlog, hline, hstate, -, hfate⟩ := hst
  unfold State.replied
  rcases state with _ | _
  · dsimp only
    have hR : response = R k (answers k s.log) := hresponse rfl k hback
    by_cases hquit : commandToken line = "QUIT".toList
    · rw [if_pos hquit]
      exact trivial
    · rw [if_neg hquit]
      have hfits : ∀ state, (isDataOnlyLine line = true →
          (state = .data ↔ dataReadyCode <+: response)) → ModeFits R state s.log := by
        intro state hiff e' old' j hlog' _ hfate' hdata
        obtain ⟨rfl, -⟩ := List.cons.inj (hlog.symm.trans hlog')
        have hjk : j = k := by
          rcases hfate with hf | hf
          · exact Fate.forwarded.inj (hfate'.symm.trans hf)
          · cases hfate'.symm.trans hf
        rw [hjk, ← hR]
        exact hiff (hline ▸ hdata)
      by_cases hready : (isDataOnlyLine line && dataReadyCode.isPrefixOf response) = true
      · rw [if_pos hready]
        rw [Bool.and_eq_true, List.isPrefixOf_iff_prefix] at hready
        exact ⟨hcurrent, htold, hfits .data fun _ => by simp [hready.2]⟩
      · rw [if_neg hready]
        rw [Bool.and_eq_true, List.isPrefixOf_iff_prefix, not_and] at hready
        refine ⟨hcurrent, htold, hfits s.state fun hdata => ?_⟩
        simp [hcommand, hready hdata]
  · refine ⟨hcurrent, htold, ?_⟩
    intro e' old' j hlog' hstate'
    obtain ⟨rfl, -⟩ := List.cons.inj (hlog.symm.trans hlog')
    cases hstate.symm.trans hstate'

theorem Moves.heard {i : Input} (hm : Moves s i s') (hs : Inv s) (hknown : Known s)
    (h : Heard R s) (hreplies : Replies R s (.input i)) (hwhole : Whole R s (.input i)) :
    Heard R s' := by
  rcases hm with ⟨client, pc, htalks, htold⟩ | ⟨line, hpc, -⟩ | ⟨line, domain, host, port, hpc⟩ |
    ⟨line, host, port, hpc⟩ | ⟨line, e, hseeks⟩ | ⟨line, k, n, data, t, hpc, hread⟩ |
    ⟨state, line, k, rest, n, b, hpc, hb⟩ | ⟨state, line, k, hpc, hawaits⟩ | ⟨line, k, hpc, hne⟩ |
    ⟨e, hpc⟩ | ⟨line, k, n, data, t, hpc, hread⟩ | ⟨line, k, n, data, t, hpc, hread⟩ |
    ⟨line, k, hpc⟩ | ⟨state, line, response, hpc⟩
  · exact h.talk htalks htold
  · exact h.serve hpc
  · unfold Heard at h
    rw [hpc] at h
    exact h
  · exact h.connected hknown hpc
  · exact trivial
  · exact h.welcome hpc hread hwhole
  · unfold Heard at h
    rw [hpc] at h
    refine ⟨h.1.setBackend hb ?_, h.2⟩
    rfl
  · unfold Heard at h
    rw [hpc] at h
    exact h
  · exact h.passed hs hpc hne
  · exact trivial
  · have hst := hs.stage
    unfold Stage at hst
    rw [hpc] at hst
    rw [setReply_command ((read_frame hread).2.trans hst.2.1)]
    exact h.read hs hpc hread hwhole
  · exact h.read hs hpc hread hwhole
  · -- the backend does not close while it owes a reply
    cases hpc.symm.trans hreplies
  · exact h.replied hs hpc

theorem Heard.arrive (h : Heard R s) {b : Backend} {data : Bytes} (hb : s.backends[k]? = some b) :
    Heard R (s.setBackend k { b with inbox := b.inbox ++ data }) := by
  have hset : ∀ log, Current R s.backend s.backends log →
      Current R s.backend (s.setBackend k { b with inbox := b.inbox ++ data }).backends log := by
    intro log hlog
    refine hlog.setBackend hb ?_
    rfl
  have hpc' : (s.setBackend k { b with inbox := b.inbox ++ data }).pc = s.pc := rfl
  unfold Heard at h ⊢
  rw [hpc']
  rcases hpc : s.pc with rest | _ | ⟨line, domain⟩ | ⟨line, host, port⟩ | ⟨line, j⟩ |
    ⟨state, line, j, rest⟩ | ⟨state, line, j⟩ | ⟨state, line, response, rest⟩ | rest | rest |
    rest | r
  all_goals rw [hpc] at h
  all_goals first | exact h | exact ⟨hset _ h.1, h.2⟩ | skip
  obtain ⟨htold, hzero, c, hc, hconsumed⟩ := h
  refine ⟨htold, hzero, ?_⟩
  rw [getElem?_setBackend hb]
  split_ifs with hjk
  · subst hjk
    obtain rfl := Option.some.inj (hb.symm.trans hc)
    exact ⟨_, rfl, hconsumed⟩
  · exact ⟨c, hc, hconsumed⟩

theorem Known.cons (h : Known s) {backends : List Backend}
    (hle : s.backends.length ≤ backends.length)
    (he : ∀ k, e.sentTo k = true → k < backends.length) :
    ∀ e' ∈ e :: s.log, ∀ k, e'.sentTo k = true → k < backends.length := by
  refine List.forall_mem_cons.2 ⟨he, fun e' he' k hk => ?_⟩
  exact (h e' he' k hk).trans_le hle

theorem Known.setReply (h : Known s) (data : Bytes) : Known (s.setReply data) := by
  rcases hlog : s.log with _ | ⟨e, old⟩
  · unfold State.setReply
    rw [hlog]
    exact h
  · rw [setReply_eq hlog]
    unfold Known at h
    rw [hlog, List.forall_mem_cons] at h
    exact List.forall_mem_cons.2 h

theorem Known.setBackend (h : Known s) {b : Backend} : Known (s.setBackend k b) := by
  intro e he j hj
  have := h e he j hj
  unfold State.setBackend
  rwa [List.length_set]

theorem Moves.known {i : Input} (hm : Moves s i s') (hs : Inv s) (h : Known s) : Known s' := by
  have hlen : ∀ {k : ℕ} {b : Backend}, s.backends[k]? = some b → k < s.backends.length :=
    fun hb => (List.getElem?_eq_some_iff.1 hb).1
  have hwithheld : ∀ (e : Entry), e.withheld = true →
      ∀ e' ∈ e :: s.log, ∀ k, e'.sentTo k = true → k < s.backends.length := by
    intro e he
    refine h.cons le_rfl fun k hk => ?_
    rw [not_sentTo_of_withheld he k] at hk
    cases hk
  have hst := hs.stage
  unfold Stage at hst
  rcases hm with ⟨client, pc, htalks, htold⟩ | ⟨line, hpc, -⟩ | ⟨line, domain, host, port, hpc⟩ |
    ⟨line, host, port, hpc⟩ | ⟨line, e, hseeks⟩ | ⟨line, k, n, data, t, hpc, hread⟩ |
    ⟨state, line, k, rest, n, b, hpc, hb⟩ | ⟨state, line, k, hpc, hawaits⟩ | ⟨line, k, hpc, hne⟩ |
    ⟨e, hpc⟩ | ⟨line, k, n, data, t, hpc, hread⟩ | ⟨line, k, n, data, t, hpc, hread⟩ |
    ⟨line, k, hpc⟩ | ⟨state, line, response, hpc⟩
  · exact h
  · have hserves := serves_serve s line
    generalize s.serve line = t at hserves ⊢
    cases hserves with
    | tooLong | noDomain | noBackend | unknown => exact hwithheld _ rfl
    | routing => exact h
    | forward _ _ k hback =>
      obtain ⟨-, b, hb, -⟩ := hs.written k hback
      refine h.cons le_rfl fun j hj => ?_
      obtain rfl : k = j := by
        unfold Entry.sentTo at hj
        simpa using hj
      exact hlen hb
  · exact h
  · intro e he j hj
    show j < (s.backends ++ _).length
    rw [List.length_append]
    exact Nat.lt_add_right _ (h e he j hj)
  · exact hwithheld _ rfl
  · rw [hpc] at hst
    obtain ⟨-, -, b, hb, -⟩ := hst
    obtain ⟨c, hc, -, -, -, -, rfl⟩ := read_eq_some hread
    have hknown : Known (s.setBackend k
        ⟨c.written, c.inbox.drop n, c.consumed ++ c.inbox.take n⟩) := h.setBackend
    unfold State.welcome
    dsimp only
    split_ifs
    · refine hknown.cons le_rfl fun j hj => ?_
      cases hj
    · refine hknown.cons le_rfl fun j hj => ?_
      obtain rfl : k = j := by
        unfold Entry.sentTo at hj
        simpa using hj
      show k < (s.backends.set k _).length
      rw [List.length_set]
      exact hlen hb
  · exact h.setBackend
  · exact h
  · exact h
  · exact h
  · obtain ⟨c, hc, -, -, -, -, rfl⟩ := read_eq_some hread
    exact h.setBackend.setReply data
  · obtain ⟨c, hc, -, -, -, -, rfl⟩ := read_eq_some hread
    exact h.setBackend.setReply data
  · exact h
  · unfold State.replied
    rcases state with _ | _ <;> dsimp only
    · split_ifs <;> exact h
    · exact h

theorem step_heard {a : Action} (hs : Inv s ∧ Known s ∧ Heard R s) (hreplies : Replies R s a)
    (hwhole : Whole R s a) (h : step s a = some s') : Inv s' ∧ Known s' ∧ Heard R s' := by
  refine ⟨step_inv hs.1 h, ?_⟩
  rcases a with i | ⟨k, data⟩
  · have hm := moves_of_next h
    exact ⟨hm.known hs.1 hs.2.1, hm.heard hs.1 hs.2.1 hs.2.2 hreplies hwhole⟩
  · obtain ⟨b, hb, rfl⟩ := Option.map_eq_some_iff.1 h
    exact ⟨hs.2.1.setBackend, hs.2.2.arrive hb⟩

theorem heard_new : Inv new ∧ Known new ∧ Heard R new :=
  ⟨inv_new, nofun, rfl, rfl, rfl⟩

/-- The replies stay with the lines they answer in every run in which each read from a backend takes
the whole reply. -/
theorem repliesPaired_of_whole (R : ℕ → ℕ → Bytes) {as : List Action}
    (hreplies : EachStep step (Replies R) new as) (hwhole : EachStep step (Whole R) new as)
    (h : run step new as = some s) : RepliesPaired R s := by
  have hs : Inv s ∧ Known s ∧ Heard R s :=
    run_inv_of_each (fun _ _ _ hs hC h => step_heard hs hC.1 hC.2 h) heard_new
      (hreplies.and hwhole) h
  exact hs.2.2.repliesPaired

/-- A session up to the reply to its `EHLO`, as much of it as comes at once. -/
def ehlo (reply : Bytes) : List Action :=
  [.input (.wrote 31), .input .flushed, .input (.line (ascii "EHLO a\r\n")),
    .input (.routed (.ok ⟨['b'], .smtp, []⟩)), .input .connected, .arrive 0 (ascii "220 b\r\n"),
    .input (.read 7), .input (.wrote 8), .input .flushed, .arrive 0 reply,
    .input (.read reply.length), .input (.wrote reply.length), .input .flushed]

/-- The first two replies of every backend. -/
def greets (reply : Bytes) : ℕ → ℕ → Bytes := fun _ j => if j = 0 then ascii "220 b\r\n" else reply

theorem repliesPaired_of_whole_ehlo :
    ∃ s, run step new (ehlo (ascii "250 b\r\n")) = some s ∧ s.pc = .readLine
      ∧ RepliesPaired (greets (ascii "250 b\r\n")) s := by
  have hrun : ∃ s, run step new (ehlo (ascii "250 b\r\n")) = some s ∧ s.pc = .readLine :=
    ⟨_, rfl, rfl⟩
  obtain ⟨s, hs, hpc⟩ := hrun
  refine ⟨s, hs, hpc, repliesPaired_of_whole _ ?_ ?_ hs⟩
  · refine .cons trivial rfl <| .cons trivial rfl <| .cons trivial rfl <| .cons trivial rfl <|
      .cons trivial rfl <| .cons ?_ rfl <| .cons trivial rfl <| .cons trivial rfl <|
      .cons trivial rfl <| .cons ?_ rfl <| .cons trivial rfl <| .cons trivial rfl <|
      .cons trivial rfl trivial
    all_goals
      intro b hb
      cases hb
      decide
  · refine .cons trivial rfl <| .cons trivial rfl <| .cons trivial rfl <| .cons trivial rfl <|
      .cons trivial rfl <| .cons trivial rfl <| .cons ?_ rfl <| .cons trivial rfl <|
      .cons trivial rfl <| .cons trivial rfl <| .cons ?_ rfl <| .cons trivial rfl <|
      .cons trivial rfl trivial
    all_goals
      intro k b hpc hb
      rcases hpc with ⟨line, hpc⟩ | ⟨state, line, hpc⟩ <;> cases hpc
      cases hb
      exact ⟨rfl, rfl⟩

/-- The first line of a two-line reply comes alone, and the client is told no more than that. -/
theorem split_reply_cut :
    ¬ ∀ (R : ℕ → ℕ → Bytes) (as : List Action) (s : State), EachStep step (Replies R) new as →
      run step new as = some s → RepliesPaired R s := by
  intro h
  have hrun : ∃ s, run step new (ehlo (ascii "250-b\r\n")) = some s ∧ s.pc = .readLine
      ∧ s.client ≠ greeting ++ transcript (greets (ascii "250-b\r\n250 c\r\n")) s.log :=
    ⟨_, rfl, rfl, by decide⟩
  obtain ⟨s, hs, hpc, hclient⟩ := hrun
  refine hclient (h _ _ s ?_ hs hpc).1
  refine .cons trivial rfl <| .cons trivial rfl <| .cons trivial rfl <| .cons trivial rfl <|
    .cons trivial rfl <| .cons ?_ rfl <| .cons trivial rfl <| .cons trivial rfl <|
    .cons trivial rfl <| .cons ?_ rfl <| .cons trivial rfl <| .cons trivial rfl <|
    .cons trivial rfl trivial
  all_goals
    intro b hb
    cases hb
    decide

end Smtp

end ProtocolProxy
