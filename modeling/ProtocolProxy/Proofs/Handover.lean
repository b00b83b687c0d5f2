import ProtocolProxy.Proofs.Session

/-!
# Handing a session over to the kernel

What stands in a socket's receive queue when its sockmap entry is made stays there: nothing reads it
any more, but for one byte of the client's that ends the session.  Everything that arrives later is
written to the other socket in order (`Entered`).  So the hand-over loses nothing, and the session
waits for the client to close, exactly if both queues were empty when the entries were made and both
streams have arrived when the session ends (`lossless_iff_closesLast`).
-/

namespace ProtocolProxy

namespace Session

open Machine Stream

variable {c : Shared} {port : UInt16} {s s' s₁ : State} {x y : Side} {n cap : ℕ} {data : Bytes}

/-- The socket has an entry, and only what was in its queue then has not been passed on. -/
def Entered (s : State) (x : Side) : Prop :=
  ∃ left, (s.socks x).atEntry = some left ∧ (s.socks x).redirect = true
    ∧ (s.socks x.other).written.length + left.length + (s.socks x).pending.length
      = (s.socks x).sent.length
    ∧ (left = [] → (s.socks x).queue = []
      ∧ Conserved (s.socks x).sent (s.socks x.other).written [] [] (s.socks x).pending)

theorem Entered.delivered_iff (h : Entered s x) :
    (s.socks x.other).written ++ (s.socks x).pending = (s.socks x).sent
      ↔ (s.socks x).atEntry = some [] := by
  obtain ⟨left, hleft, -, hlen, hnil⟩ := h
  rw [hleft, Option.some.injEq]
  refine ⟨fun heq => ?_, fun heq => ?_⟩
  · rw [← heq, List.length_append] at hlen
    exact List.length_eq_zero_iff.1 (by omega)
  · simpa [Conserved] using (hnil heq).2

/-- An entry is made for a socket nothing of whose stream is held. -/
theorem entered_redirect (h : Conserved (s.socks x).sent (s.socks x.other).written []
    (s.socks x).queue (s.socks x).pending) : Entered (s.redirect x) x := by
  have hlen := h.length
  refine ⟨(s.socks x).queue, ?_, ?_, ?_, fun hnil => ?_⟩
  · simp [State.redirect]
  · simp [State.redirect]
  · simp only [State.redirect, State.setSock_self, State.setSock_of_ne s _ x.other_ne]
    simpa using hlen
  · rw [hnil] at h
    simp only [State.redirect, State.setSock_self, State.setSock_of_ne s _ x.other_ne]
    exact ⟨hnil, h⟩

/-- What `Entered` looks at. -/
theorem Entered.congr (h : Entered s x) (hatEntry : (s'.socks x).atEntry = (s.socks x).atEntry)
    (hredirect : (s'.socks x).redirect = (s.socks x).redirect)
    (hsent : (s'.socks x).sent = (s.socks x).sent)
    (hpending : (s'.socks x).pending = (s.socks x).pending)
    (hqueue : (s.socks x).queue = [] → (s'.socks x).queue = [])
    (hwritten : (s'.socks x.other).written = (s.socks x.other).written) : Entered s' x := by
  obtain ⟨left, hleft, hred, hlen, hnil⟩ := h
  refine ⟨left, by rw [hatEntry, hleft], by rw [hredirect, hred], ?_, fun heq => ?_⟩
  · rw [hsent, hpending, hwritten]
    exact hlen
  · rw [hsent, hpending, hwritten]
    exact ⟨hqueue (hnil heq).1, (hnil heq).2⟩

theorem Entered.arrive (h : Entered s x) (y : Side) (n : ℕ) : Entered (s.arrive y n) x := by
  rcases x.eq_or_eq_other y with rfl | rfl
  · obtain ⟨left, hleft, hred, hlen, hnil⟩ := h
    rw [arrive_of_redirect hred]
    have hself : ((s.setSock y { s.socks y with pending := (s.socks y).pending.drop n }).write
        y.other ((s.socks y).pending.take n)).socks y
          = { s.socks y with pending := (s.socks y).pending.drop n } := by
      simp [State.write]
    have hother : (((s.setSock y { s.socks y with pending := (s.socks y).pending.drop n }).write
        y.other ((s.socks y).pending.take n)).socks y.other).written
          = (s.socks y.other).written ++ (s.socks y).pending.take n := by
      simp [State.write]
    refine ⟨left, by rw [hself, hleft], by rw [hself, hred], ?_, fun heq => ?_⟩
    · rw [hself, hother, List.length_append, ← hlen]
      have := congrArg List.length (List.take_append_drop n (s.socks y).pending)
      rw [List.length_append] at this
      simp only
      omega
    · rw [hself, hother]
      exact ⟨(hnil heq).1, (hnil heq).2.redirect n⟩
  · by_cases hred : (s.socks x.other).redirect = true
    · rw [arrive_of_redirect hred]
      refine h.congr ?_ ?_ ?_ ?_ (fun hq => ?_) ?_ <;> simp_all [State.write]
    · rw [arrive_of_not_redirect hred]
      refine h.congr ?_ ?_ ?_ ?_ (fun hq => ?_) ?_ <;> simp_all

/-! ## Before, between and after the two entries -/

/-- The backend's socket has no entry, and nothing of its stream is held. -/
def Waiting (s : State) : Prop :=
  (s.socks .backend).redirect = false
    ∧ Conserved (s.socks .backend).sent (s.socks .client).written []
      (s.socks .backend).queue (s.socks .backend).pending

theorem Waiting.arrive (h : Waiting s) (x : Side) (n : ℕ) : Waiting (s.arrive x n) := by
  obtain ⟨hback, hflow⟩ := h
  cases x with
  | client =>
    by_cases hred : (s.socks .client).redirect = true
    · rw [arrive_of_redirect hred]
      exact ⟨hback, hflow⟩
    · rw [arrive_of_not_redirect hred]
      exact ⟨hback, hflow⟩
  | backend =>
    rw [arrive_of_not_redirect (by simp [hback])]
    exact ⟨hback, hflow.arrive n⟩

/-- What is known of the two entries wherever a session stands. -/
structure Handover (s : State) : Prop where
  waits : s.pc = .waitForClose → s.active = true
  before : (s.pc = .activateSockmap ∨ ∃ rest tls, s.pc = .sendToBackend rest tls) →
    s.touched = false
  between : s.pc = .insertPeer → Entered s .client ∧ Waiting s
  after : s.active = true → (s.pc = .waitForClose ∨ s.pc.isDone = true)
    ∧ Entered s .client ∧ Entered s .backend
  ended : s.active = true → s.pc.isDone = true → (s.socks .client).atEntry = some [] →
    (s.socks .client).eof = true ∨ (s.socks .client).errored = true

theorem handover_start (client backend : Bytes) : Handover (start client backend) := by
  refine ⟨fun h => ?_, fun _ => rfl, fun h => ?_, fun h => ?_, fun h => ?_⟩ <;> cases h

/-- A step that is not one of the hand-over's own. -/
theorem Handover.elsewhere (hs : Handover s) (hactive : s'.active = s.active)
    (hwait : s.pc ≠ .waitForClose) (hdone : s.pc.isDone = false)
    (hpc : s'.pc ≠ .insertPeer ∧ s'.pc ≠ .waitForClose)
    (hbefore : (s'.pc = .activateSockmap ∨ ∃ rest tls, s'.pc = .sendToBackend rest tls) →
      s'.touched = false) : Handover s' := by
  have hoff : ¬ s'.active = true := by
    intro h
    rcases (hs.after (hactive ▸ h)).1 with h | h
    · exact hwait h
    · rw [hdone] at h
      cases h
  exact ⟨fun h => absurd h hpc.2, hbefore, fun h => absurd h hpc.1, fun h => absurd h hoff,
    fun h => absurd h hoff⟩

/-- The end of a session that waits for its client to close. -/
theorem Handover.ending (hs : Handover s) (hactive : s'.active = s.active)
    (hdone : s'.pc.isDone = true) (hclient : Entered s .client → Entered s' .client)
    (hbackend : Entered s .backend → Entered s' .backend)
    (hend : Entered s .client → (s'.socks .client).atEntry = some [] →
      (s'.socks .client).eof = true ∨ (s'.socks .client).errored = true) : Handover s' := by
  refine ⟨fun h => ?_, fun h => ?_, fun h => ?_, fun h => ?_, fun h _ hnil => ?_⟩
  · rw [h] at hdone
    cases hdone
  · rcases h with h | ⟨_, _, h⟩ <;> rw [h] at hdone <;> cases hdone
  · rw [h] at hdone
    cases hdone
  · obtain ⟨-, hc, hb⟩ := hs.after (hactive ▸ h)
    exact ⟨Or.inr hdone, hclient hc, hbackend hb⟩
  · exact hend (hs.after (hactive ▸ h)).2.1 hnil

theorem Handover.entry (hs : Handover s) (hinv : Inv s) (hpc : s.pc = .activateSockmap) :
    Handover ((s.redirect .client).goto .insertPeer) := by
  have htouched : s.touched = false := hs.before (Or.inl hpc)
  have hflow : FlowAt s.socks s.pc.held := hinv.flow htouched
  rw [hpc] at hflow
  have hback : (s.socks .backend).redirect = false := by
    by_contra h
    have := hinv.redirect .backend (by simpa using h)
    rw [htouched] at this
    cases this
  have hoff : ¬ s.active = true := by
    intro h
    have := (hs.after h).1
    simp [hpc, Pc.isDone] at this
  refine ⟨(fun h => nomatch h), fun h => ?_,
    fun _ => ⟨entered_redirect (hflow .client), hback, hflow .backend⟩,
    fun h => absurd h hoff, fun h => absurd h hoff⟩
  rcases h with h | ⟨_, _, h⟩ <;> cases h

theorem Handover.peer (hs : Handover s) (hpc : s.pc = .insertPeer) :
    Handover { s.redirect .backend with active := true, pc := .waitForClose } := by
  obtain ⟨hclient, -, hflow⟩ := hs.between hpc
  refine ⟨fun _ => rfl, fun h => ?_, fun h => ?_, fun _ => ⟨Or.inl rfl, ?_, ?_⟩, fun _ h => ?_⟩
  · rcases h with h | ⟨_, _, h⟩ <;> cases h
  · cases h
  · exact hclient.congr rfl rfl rfl rfl id rfl
  · exact entered_redirect hflow
  · cases h

/-- A byte that `wait_for_close` reads was in the queue when the client's entry was made. -/
theorem Handover.stray (hs : Handover s) {pc : Pc} (hread : s.read .client cap n = some (data, s₁))
    (hdone : pc.isDone = true) : Handover (s₁.goto pc) := by
  obtain ⟨-, rfl, hpos, -, hle⟩ := State.read_eq hread
  refine hs.ending rfl hdone (fun h => ?_) (fun h => ?_) fun h hnil => ?_
  · refine h.congr rfl rfl rfl rfl (fun hq => ?_) rfl
    show (s.socks .client).queue.drop n = []
    rw [hq, List.drop_nil]
  · exact h.congr rfl rfl rfl rfl id rfl
  · obtain ⟨left, hleft, -, -, hq⟩ := h
    have hsome : some left = some [] := hleft.symm.trans hnil
    rw [(hq (Option.some.inj hsome)).1, List.length_nil] at hle
    omega

theorem Moves.handover {input : Input} (hs : Handover s) (hinv : Inv s)
    (hm : Moves c port s input s') : Handover s' := by
  cases hm with
  | first hpc hread =>
    obtain ⟨-, rfl, -⟩ := State.read_eq hread
    unfold State.firstRead
    refine hs.elsewhere rfl ?_ ?_ ?_ ?_
    · simp [hpc]
    · rw [hpc]
      rfl
    · simp only
      split_ifs <;> simp
    · simp only
      split_ifs <;> simp
  | post hpc hread | select hpc hread | copyRead hpc hopen hread =>
    obtain ⟨-, rfl, -⟩ := State.read_eq hread
    exact hs.elsewhere rfl (by simp [hpc]) (by rw [hpc]; rfl) (by simp [State.goto])
      (by simp [State.goto])
  | connect hpc =>
    refine hs.elsewhere rfl (by simp [hpc]) (by rw [hpc]; rfl) (by simp) fun _ => ?_
    exact (hinv.early (by rw [hpc]; rfl)).1
  | send hpc hwrote =>
    rw [State.wrote_eq hwrote]
    refine hs.elsewhere rfl (by simp [hpc]) (by rw [hpc]; rfl) ?_ fun _ => ?_
    · simp only [State.goto]
      split_ifs <;> simp
    · exact hs.before (Or.inr ⟨_, _, hpc⟩)
  | forward hpc hwrote =>
    rw [State.wrote_eq hwrote]
    refine hs.elsewhere rfl (by simp [hpc]) (by rw [hpc]; rfl) ?_ ?_ <;> simp only [State.goto] <;>
      split_ifs <;> simp
  | unwrap hpc =>
    refine hs.elsewhere rfl (by simp [hpc]) (by rw [hpc]; rfl) ?_ ?_ <;> simp only <;>
      split_ifs <;> simp
  | respond hpc | handshake hpc | refuse e hpc | skip hpc | undo hpc | delete deleted hpc
  | copyEnd hpc | copyWrite hpc | copyShut hpc | copyDone hpc | selectEnd hpc =>
    exact hs.elsewhere rfl (by simp [hpc]) (by rw [hpc]; rfl)
      (by simp [State.goto, State.finish]) (by simp [State.goto, State.finish])
  | early hpc =>
    refine hs.elsewhere rfl ?_ ?_ (by simp [State.goto, State.finish])
      (by simp [State.goto, State.finish]) <;> rcases hpc with h | h <;> simp [h, Pc.isDone]
  | entry hpc => exact hs.entry hinv hpc
  | peer hpc => exact hs.peer hpc
  | stray hpc hread => exact hs.stray hread rfl
  | close hpc hend =>
    refine hs.ending rfl rfl id id fun _ _ => Or.inl ?_
    simp only [State.readsEnd, Bool.or_eq_true, Bool.and_eq_true] at hend
    rcases hend with h | ⟨-, h⟩
    · cases h
    · exact h
  | fail result herror hlive herrored =>
    by_cases hpc : s.pc = .waitForClose
    · exact hs.ending rfl rfl id id fun _ _ => Or.inr (herrored hpc)
    · exact hs.elsewhere rfl hpc hlive (by simp [State.goto, State.finish])
        (by simp [State.goto, State.finish])

/-- A step of the world outside. -/
theorem Handover.outside (hs : Handover s) (hpc : s'.pc = s.pc) (htouched : s'.touched = s.touched)
    (hactive : s'.active = s.active) (hlive : s.pc.isDone = false)
    (hentered : ∀ x, Entered s x → Entered s' x) (hwaiting : Waiting s → Waiting s') :
    Handover s' := by
  refine ⟨fun h => ?_, fun h => ?_, fun h => ?_, fun h => ?_, fun _ h => ?_⟩
  · rw [hactive]
    exact hs.waits (hpc ▸ h)
  · rw [htouched]
    exact hs.before (hpc ▸ h)
  · obtain ⟨hclient, hback⟩ := hs.between (hpc ▸ h)
    exact ⟨hentered _ hclient, hwaiting hback⟩
  · obtain ⟨hat, hclient, hback⟩ := hs.after (hactive ▸ h)
    exact ⟨hpc ▸ hat, hentered _ hclient, hentered _ hback⟩
  · rw [hpc, hlive] at h
    cases h

/-- The two flags of a socket are not looked at. -/
theorem Handover.flags (hs : Handover s) (hlive : s.pc.isDone = false) (x : Side)
    (eof errored : Bool) :
    Handover (s.setSock x { s.socks x with eof := eof, errored := errored }) := by
  refine hs.outside rfl rfl rfl hlive (fun y h => ?_) fun h => ?_
  · cases x <;> cases y <;> exact h.congr rfl rfl rfl rfl id rfl
  · cases x <;> exact h

theorem step_handover {a : Action} (hs : Handover s) (hinv : Inv s)
    (h : step c port s a = some s') : Handover s' := by
  rcases steps_of_step h with @⟨x, n, hlive, -, -⟩ | @⟨x, hlive, -⟩ | @⟨x, hlive⟩ | _ | hm
  · obtain ⟨hpc, htouched, hactive, -⟩ := arrive_frame s x n
    exact hs.outside hpc htouched hactive hlive (fun _ h => h.arrive x n) fun h => h.arrive x n
  · exact hs.flags hlive x true (s.socks x).errored
  · exact hs.flags hlive x (s.socks x).eof true
  · exact ⟨hs.waits, hs.before, hs.between, hs.after, hs.ended⟩
  · exact hm.handover hs hinv

theorem run_handover {client backend : Bytes} {as : List Action}
    (h : run (step c port) (start client backend) as = some s) : Handover s :=
  run_inv_with (fun _ _ _ hinv h => step_inv hinv h)
    (fun _ _ _ hinv hs h => step_handover hs hinv h) (inv_start client backend)
    (handover_start client backend) h

/-! ## The end of the session -/

/-- The session ends when the read of `wait_for_close` returns. -/
theorem next_waitForClose {input : Input} (h : next c port s .waitForClose input = some s') :
    s'.pc.isDone = true ∧ s'.active = s.active
      ∧ ∀ x, (s'.socks x).pending = (s.socks x).pending := by
  rcases input with ⟨_ | _, n⟩ | ⟨_ | _⟩ | ⟨_ | _, e⟩ | _ | _ | _ | _ | _ | _ | _
  case read.client =>
    obtain ⟨⟨data, s₁⟩, hread, rfl⟩ := Option.map_eq_some_iff.1 h
    obtain ⟨-, rfl, -⟩ := State.read_eq hread
    refine ⟨rfl, rfl, fun x => ?_⟩
    cases x <;> rfl
  case readEnd.client | readError.client =>
    simp only [next] at h
    split_ifs at h
    cases h
    exact ⟨rfl, rfl, fun _ => rfl⟩
  all_goals cases h

/-- If the session has handed over to the kernel and is over, both streams have wholly arrived. -/
def Arrived (s : State) : Prop :=
  s.active = true → s.pc.isDone = true → ∀ x, (s.socks x).pending = []

/-- Nothing happens to a session that is over. -/
theorem step_of_done {a : Action} (hdone : s.pc.isDone = true) (h : step c port s a = some s') :
    s'.socks = s.socks ∧ s'.pc = s.pc ∧ s'.active = s.active := by
  rcases a with _ | _ | _ | _ | input
  case arrive | eof | error => simp [step, State.hears, hdone] at h
  case adapterDrops =>
    cases h
    exact ⟨rfl, rfl, rfl⟩
  case go =>
    cases hpc : s.pc
    case done => simp [step, next, hpc] at h
    all_goals rw [hpc] at hdone; cases hdone

theorem step_arrived {a : Action} (hs : Handover s) (hp : Arrived s) (hlast : ClosesLast s a)
    (h : step c port s a = some s') : Arrived s' := by
  intro hactive hdone
  by_cases hbefore : s.pc.isDone = true
  · obtain ⟨hsocks, -, hsame⟩ := step_of_done hbefore h
    rw [hsocks]
    exact hp (hsame ▸ hactive) hbefore
  rcases steps_of_step h with @⟨x, n, -, -, -⟩ | _ | _ | _ | hm
  · rw [(arrive_frame s x n).1] at hdone
    exact absurd hdone hbefore
  · exact absurd hdone hbefore
  · exact absurd hdone hbefore
  · exact absurd hdone hbefore
  · -- the session ends in a read of `wait_for_close`
    have hpc : s.pc = .waitForClose := by
      rcases hm.active with hsame | ⟨-, hpc⟩
      · exact (hs.after (hsame ▸ hactive)).1.resolve_right hbefore
      · rw [hpc] at hdone
        cases hdone
    rw [step, hpc] at h
    intro x
    rw [(next_waitForClose h).2.2 x]
    exact hlast hpc x

theorem step_not_arrived {a : Action} (hs : Handover s) (hlast : ¬ ClosesLast s a)
    (h : step c port s a = some s') : ¬ Arrived s' := by
  rcases a with _ | _ | _ | _ | input
  case go =>
    simp only [ClosesLast, Classical.not_imp] at hlast
    obtain ⟨hpc, hleft⟩ := hlast
    rw [step, hpc] at h
    obtain ⟨hdone, hactive, hpending⟩ := next_waitForClose h
    intro hp
    refine hleft fun x => ?_
    rw [← hpending]
    exact hp (hactive.trans (hs.waits hpc)) hdone x
  all_goals exact absurd trivial hlast

theorem step_of_not_arrived {a : Action} (hp : ¬ Arrived s) (h : step c port s a = some s') :
    ¬ Arrived s' := by
  simp only [Arrived, Classical.not_imp] at hp
  obtain ⟨hactive, hdone, hleft⟩ := hp
  obtain ⟨hsocks, hpc, hsame⟩ := step_of_done hdone h
  intro hp
  refine hleft ?_
  rw [← hsocks]
  exact hp (hsame.trans hactive) (hpc ▸ hdone)

/-- Both streams have arrived at the end of a session exactly if they had when the read of
`wait_for_close` returned. -/
theorem arrived_iff_closesLast {client backend : Bytes} {as : List Action}
    (hrun : run (step c port) (start client backend) as = some s) :
    Arrived s ↔ EachStep (step c port) ClosesLast (start client backend) as := by
  have hJ : ∀ s a s', Inv s ∧ Handover s → step c port s a = some s' → Inv s' ∧ Handover s' :=
    fun _ _ _ hs h => ⟨step_inv hs.1 h, step_handover hs.2 hs.1 h⟩
  have hinit : Inv (start client backend) ∧ Handover (start client backend) :=
    ⟨inv_start client backend, handover_start client backend⟩
  have hiff : Always (step c port) Arrived (start client backend) as
      ↔ EachStep (step c port) ClosesLast (start client backend) as :=
    always_iff_eachStep hJ (fun _ _ _ hs hp hlast h => step_arrived hs.2 hp hlast h)
      (fun _ _ _ hs _ hlast h => step_not_arrived hs.2 hlast h) hinit (fun h => nomatch h) hrun
  refine ⟨fun h => hiff.1 ?_, fun h => (hiff.2 h).last hrun⟩
  exact always_of_last hJ (fun _ _ _ _ hp h => step_of_not_arrived hp h) hinit hrun h

/-- In every state of every session in which the sockmap has become active, everything that has
arrived has been passed on, and the session has not ended before its client nor before both streams
are through, if and only if both receive queues were empty when the sockets' entries were made and
the read of `wait_for_close` has not returned before both streams had arrived. -/
theorem lossless_iff_closesLast (c : Shared) (port : UInt16) {client backend : Bytes}
    {as : List Action} {s : State} (hrun : run (step c port) (start client backend) as = some s)
    (hactive : s.active = true) :
    Lossless s ↔ (∀ x, (s.socks x).atEntry = some [])
      ∧ EachStep (step c port) ClosesLast (start client backend) as := by
  have hs := run_handover hrun
  obtain ⟨-, hclient, hback⟩ := hs.after hactive
  have hentered : ∀ x, Entered s x := fun x => by
    cases x
    · exact hclient
    · exact hback
  rw [← arrived_iff_closesLast hrun]
  constructor
  · rintro ⟨hpassed, hend⟩
    refine ⟨fun x => (hentered x).delivered_iff.1 (hpassed x), fun _ hdone x => ?_⟩
    have hall := hpassed x
    rw [(hend hdone).2 x] at hall
    exact List.append_right_eq_self.1 hall
  · rintro ⟨hempty, harrived⟩
    have hpassed := fun x => (hentered x).delivered_iff.2 (hempty x)
    refine ⟨hpassed, fun hdone => ⟨hs.ended hactive hdone (hempty .client), fun x => ?_⟩⟩
    rw [← hpassed x, harrived hactive hdone x, List.append_nil]

/-- Both peers send after the entries were made, and the client closes. -/
theorem lossless_iff_closesLast_session :
    ∃ s, run (step (sockmapShared 3306) 3306) (start [1, 2] [3])
        [.arrive .client 1, .go (.read .client 1), .go (.connection (.ok ())),
          .go (.wrote .backend 1), .go (.sockmap true), .go (.sockmap true), .arrive .backend 1,
          .arrive .client 1, .eof .client, .go (.readEnd .client)] = some s
      ∧ s.active = true ∧ s.pc.isDone = true ∧ (s.socks .client).written = [3] ∧ Lossless s := by
  have hrun : ∃ s, run (step (sockmapShared 3306) 3306) (start [1, 2] [3])
        [.arrive .client 1, .go (.read .client 1), .go (.connection (.ok ())),
          .go (.wrote .backend 1), .go (.sockmap true), .go (.sockmap true), .arrive .backend 1,
          .arrive .client 1, .eof .client, .go (.readEnd .client)] = some s
      ∧ s.active = true ∧ s.pc.isDone = true ∧ (s.socks .client).written = [3]
      ∧ (s.socks .client).atEntry = some [] ∧ (s.socks .backend).atEntry = some [] :=
    ⟨_, rfl, rfl, rfl, rfl, rfl, rfl⟩
  obtain ⟨s, hrun, hactive, hdone, hwritten, hclient, hback⟩ := hrun
  refine ⟨s, hrun, hactive, hdone, hwritten,
    (lossless_iff_closesLast (sockmapShared 3306) 3306 hrun hactive).2 ⟨fun x => ?_, ?_⟩⟩
  · cases x
    · exact hclient
    · exact hback
  · refine .cons trivial rfl (.cons (fun h => nomatch h) rfl (.cons (fun h => nomatch h) rfl ?_))
    refine .cons (fun h => nomatch h) rfl (.cons (fun h => nomatch h) rfl ?_)
    refine .cons (fun h => nomatch h) rfl (.cons trivial rfl (.cons trivial rfl ?_))
    refine .cons trivial rfl (.cons (fun _ x => ?_) rfl trivial)
    cases x <;> rfl

/-- The client's second byte arrives before its entry is made.  `wait_for_close` reads it, drops it
and ends the session, although the client has not closed. -/
theorem early_segment_lost :
    ∃ s, run (step (sockmapShared 3306) 3306) (start [1, 2] [])
        [.arrive .client 1, .go (.read .client 1), .arrive .client 1, .go (.connection (.ok ())),
          .go (.wrote .backend 1), .go (.sockmap true), .go (.sockmap true),
          .go (.read .client 1)] = some s
      ∧ s.active = true ∧ s.pc.isDone = true ∧ (s.socks .client).pending = []
      ∧ (s.socks .backend).written = [1] ∧ (s.socks .client).eof = false
      ∧ (s.socks .client).errored = false ∧ ¬ Lossless s := by
  refine ⟨_, rfl, rfl, rfl, rfl, rfl, rfl, rfl, fun h => ?_⟩
  have hup : ([1] ++ [] : Bytes) = [1, 2] := h.1 .client
  cases hup

/-- Both queues are empty when the entries are made.  The client closes its side and then the
backend answers, but `wait_for_close` has returned. -/
example :
    ∃ s, run (step (sockmapShared 3306) 3306) (start [1] [3])
        [.arrive .client 1, .go (.read .client 1), .go (.connection (.ok ())),
          .go (.wrote .backend 1), .go (.sockmap true), .go (.sockmap true), .eof .client,
          .go (.readEnd .client)] = some s
      ∧ s.active = true ∧ (s.socks .client).atEntry = some []
      ∧ (s.socks .backend).atEntry = some [] ∧ s.pc.isDone = true
      ∧ (s.socks .client).written = [] ∧ (s.socks .backend).sent = [3] :=
  ⟨_, rfl, rfl, rfl, rfl, rfl, rfl, rfl⟩

end Session

end ProtocolProxy
