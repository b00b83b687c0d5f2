import ProtocolProxy.Session
import ProtocolProxy.Stream

/-!
# The bytes of a session

`Moves` says what each step of a session can do.  As long as no sockmap entry was made, every step
moves bytes from the front of one place to the end of the next: from the receive queue to what the
session holds, and from there to the other socket (`Flow`).  So what has been written to one peer is
a prefix of what the other has sent, wherever the session stands or stops (`relay_isPrefix`).
-/

namespace ProtocolProxy

namespace Session

open Machine Stream

variable {c : Shared} {port : UInt16} {s s' s₁ : State} {x y : Side} {n cap : ℕ} {data : Bytes}

/-! ## What a step can do -/

/-- The steps of a session. -/
inductive Moves (c : Shared) (port : UInt16) (s : State) : Input → State → Prop
  | first {n : ℕ} {data : Bytes} {s₁ : State} (pc : s.pc = .readFirst)
      (read : s.read .client c.config.receiveBufferSize n = some (data, s₁)) :
      Moves c port s (.read .client n) (s₁.firstRead c port data)
  | respond {data : Bytes} (pc : s.pc = .respond data) :
      Moves c port s (.wrote .client 1) { s with responded := true, pc := .tlsAccept data }
  | handshake {data plain : Bytes} {acceptor : ServerConfig} (pc : s.pc = .tlsAccept data)
      (tls : c.tlsAcceptor = some acceptor) :
      Moves c port s (.tls (.ok plain))
        { s.setSock .client { Sock.new plain with written := (s.socks .client).written } with
          handshake := some acceptor.verifier
          pc := .readPost }
  | post {n : ℕ} {data : Bytes} {s₁ : State} (pc : s.pc = .readPost)
      (read : s.read .client c.config.receiveBufferSize n = some (data, s₁)) :
      Moves c port s (.read .client n) (s₁.goto (.getConnection data true))
  | connect {data : Bytes} {tls : Bool} (pc : s.pc = .getConnection data tls) :
      Moves c port s (.connection (.ok ())) { s with
        routed := some data, connected := true, adapterHolds := true
        pc := .sendToBackend data tls }
  | refuse {data : Bytes} {tls : Bool} (e : ProxyError) (pc : s.pc = .getConnection data tls) :
      Moves c port s (.connection (.error e)) { s.finish (.error e) with routed := some data }
  | send {rest : Bytes} {tls : Bool} {n : ℕ} {s₁ : State} (pc : s.pc = .sendToBackend rest tls)
      (wrote : s.wrote .backend rest n (.sendToBackend · tls)
        (if tls then .tryUnwrap else .activateSockmap) = some s₁) :
      Moves c port s (.wrote .backend n) s₁
  | skip (pc : s.pc = .activateSockmap) : Moves c port s (.sockmap false) (s.goto .tryUnwrap)
  | entry (pc : s.pc = .activateSockmap) (sockmap : c.sockmap = true) :
      Moves c port s (.sockmap true) ((s.redirect .client).goto .insertPeer)
  | peer (pc : s.pc = .insertPeer) :
      Moves c port s (.sockmap true)
        { s.redirect .backend with active := true, pc := .waitForClose }
  | undo (pc : s.pc = .insertPeer) : Moves c port s (.sockmap false) (s.goto .deleteEntry)
  | delete (deleted : Bool) (pc : s.pc = .deleteEntry) :
      Moves c port s (.sockmap deleted)
        ((s.setSock .client { s.socks .client with
          redirect := (s.socks .client).redirect && !deleted }).goto .tryUnwrap)
  | stray {n : ℕ} {data : Bytes} {s₁ : State} (pc : s.pc = .waitForClose)
      (read : s.read .client 1 n = some (data, s₁)) :
      Moves c port s (.read .client n)
        (s₁.goto (.done (.ok ()) (holding .client data)))
  | unwrap (pc : s.pc = .tryUnwrap) :
      Moves c port s .unwrap { s with
        relayed := true
        pc := if s.adapterHolds then .select else .copy fun _ => ⟨[], false, false⟩ }
  | select {x : Side} {n : ℕ} {data : Bytes} {s₁ : State} (pc : s.pc = .select)
      (read : s.read x c.config.receiveBufferSize n = some (data, s₁)) :
      Moves c port s (.read x n) (s₁.goto (.writeAll x.other data))
  | forward {dest : Side} {rest : Bytes} {n : ℕ} {s₁ : State} (pc : s.pc = .writeAll dest rest)
      (wrote : s.wrote dest rest n (.writeAll dest) .select = some s₁) :
      Moves c port s (.wrote dest n) s₁
  | copyRead {half : Side → Half} {x : Side} {n : ℕ} {data : Bytes} {s₁ : State}
      (pc : s.pc = .copy half) (open_ : (half x).readDone = false)
      (read : s.read x n n = some (data, s₁)) :
      Moves c port s (.read x n)
        (s₁.goto (.copy (Function.update half x { half x with buf := (half x).buf ++ data })))
  | copyEnd {half : Side → Half} {x : Side} (pc : s.pc = .copy half)
      (end_ : s.readsEnd x 1 = true) :
      Moves c port s (.readEnd x)
        (s.goto (.copy (Function.update half x { half x with readDone := true })))
  | copyWrite {half : Side → Half} {x : Side} {n : ℕ} (pc : s.pc = .copy half) :
      Moves c port s (.wrote x n) ((s.write x ((half x.other).buf.take n)).goto
        (.copy (Function.update half x.other
          { half x.other with buf := (half x.other).buf.drop n })))
  | copyShut {half : Side → Half} {x : Side} (pc : s.pc = .copy half)
      (end_ : (half x.other).readDone = true ∧ (half x.other).buf = []) :
      Moves c port s (.shutdown x)
        (s.goto (.copy (Function.update half x.other { half x.other with shut := true })))
  | copyDone {half : Side → Half} {x : Side} (pc : s.pc = .copy half)
      (end_ : (half x.other).readDone = true ∧ (half x.other).buf = [])
      (other : (half x).shut = true) : Moves c port s (.shutdown x) (s.finish (.ok ()))
  | early (pc : s.pc = .readFirst ∨ s.pc = .readPost) :
      Moves c port s (.readEnd .client) (s.finish (.ok ()))
  | close (pc : s.pc = .waitForClose) (end_ : s.readsEnd .client 1 = true) :
      Moves c port s (.readEnd .client) (s.finish (.ok ()))
  | selectEnd {x : Side} (pc : s.pc = .select)
      (end_ : s.readsEnd x c.config.receiveBufferSize = true) :
      Moves c port s (.readEnd x) (s.finish (.ok ()))
  | fail {input : Input} (result : Except ProxyError Unit) (error : input.isError = true)
      (live : s.pc.isDone = false) (pc : s.pc = .waitForClose → (s.socks .client).errored = true) :
      Moves c port s input (s.finish result)

theorem moves_of_copyStep {half : Side → Half} {input : Input} (hpc : s.pc = .copy half)
    (h : s.copyStep half input = some s') : Moves c port s input s' := by
  have hwait : s.pc ≠ .waitForClose := by simp [hpc]
  cases input with
  | read x n =>
    simp only [State.copyStep] at h
    split_ifs at h with hdone
    obtain ⟨⟨data, s₁⟩, hread, rfl⟩ := Option.map_eq_some_iff.1 h
    exact .copyRead hpc (by simpa using hdone) hread
  | readEnd x =>
    simp only [State.copyStep] at h
    split_ifs at h with hend
    cases h
    exact .copyEnd hpc hend
  | wrote x n =>
    simp only [State.copyStep] at h
    split_ifs at h
    cases h
    exact .copyWrite hpc
  | shutdown x =>
    simp only [State.copyStep] at h
    split_ifs at h with hend hother <;> cases h
    · exact .copyDone hpc ⟨hend.1, hend.2.1⟩ hother
    · exact .copyShut hpc ⟨hend.1, hend.2.1⟩
  | readError x e =>
    simp only [State.copyStep] at h
    split_ifs at h
    cases h
    exact .fail _ rfl (by rw [hpc]; rfl) (absurd · hwait)
  | writeError x e =>
    cases h
    exact .fail _ rfl (by rw [hpc]; rfl) (absurd · hwait)
  | tls | connection | sockmap | unwrap => cases h

theorem moves_of_next {pc : Pc} {input : Input} (hpc : s.pc = pc)
    (h : next c port s pc input = some s') : Moves c port s input s' := by
  have hwait : pc ≠ .waitForClose → s.pc ≠ .waitForClose := fun hne => hpc ▸ hne
  unfold next at h
  split at h
  · obtain ⟨⟨data, s₁⟩, hread, rfl⟩ := Option.map_eq_some_iff.1 h
    exact .first hpc hread
  · split_ifs at h
    cases h
    exact .early (Or.inl hpc)
  · split_ifs at h
    cases h
    exact .early (Or.inr hpc)
  · split_ifs at h
    cases h
    exact .fail _ rfl (by rw [hpc]; rfl) (absurd · (hwait (by simp)))
  · split_ifs at h
    cases h
    exact .fail _ rfl (by rw [hpc]; rfl) (absurd · (hwait (by simp)))
  · cases h
    exact .respond hpc
  · cases h
    exact .fail _ rfl (by rw [hpc]; rfl) (absurd · (hwait (by simp)))
  · obtain ⟨acceptor, hacc, rfl⟩ := Option.map_eq_some_iff.1 h
    exact .handshake hpc hacc
  · cases h
    exact .fail _ rfl (by rw [hpc]; rfl) (absurd · (hwait (by simp)))
  · obtain ⟨⟨data, s₁⟩, hread, rfl⟩ := Option.map_eq_some_iff.1 h
    exact .post hpc hread
  · cases h
    exact .connect hpc
  · cases h
    exact .refuse _ hpc
  · exact .send hpc h
  · cases h
    exact .fail _ rfl (by rw [hpc]; rfl) (absurd · (hwait (by simp)))
  · cases h
    exact .skip hpc
  · split_ifs at h with hmap
    cases h
    exact .entry hpc hmap.1
  · cases h
    exact .peer hpc
  · cases h
    exact .undo hpc
  · cases h
    exact .delete _ hpc
  · obtain ⟨⟨data, s₁⟩, hread, rfl⟩ := Option.map_eq_some_iff.1 h
    exact .stray hpc hread
  · split_ifs at h with hend
    cases h
    exact .close hpc hend
  · split_ifs at h with herr
    cases h
    exact .fail _ rfl (by rw [hpc]; rfl) fun _ => herr
  · cases h
    exact .unwrap hpc
  · obtain ⟨⟨data, s₁⟩, hread, rfl⟩ := Option.map_eq_some_iff.1 h
    exact .select hpc hread
  · split_ifs at h with hend
    cases h
    exact .selectEnd hpc hend
  · split_ifs at h
    cases h
    exact .fail _ rfl (by rw [hpc]; rfl) (absurd · (hwait (by simp)))
  · split_ifs at h with hx
    subst hx
    exact .forward hpc h
  · split_ifs at h
    cases h
    exact .fail _ rfl (by rw [hpc]; rfl) (absurd · (hwait (by simp)))
  · exact moves_of_copyStep hpc h
  · cases h

/-- The steps of a session and of the world around it. -/
inductive Steps (c : Shared) (port : UInt16) (s : State) : Action → State → Prop
  | arrive {x : Side} {n : ℕ} (live : s.pc.isDone = false) (pos : 0 < n)
      (le : n ≤ (s.socks x).pending.length) : Steps c port s (.arrive x n) (s.arrive x n)
  | eof {x : Side} (live : s.pc.isDone = false) (pending : (s.socks x).pending = []) :
      Steps c port s (.eof x) (s.setSock x { s.socks x with eof := true })
  | error {x : Side} (live : s.pc.isDone = false) :
      Steps c port s (.error x) (s.setSock x { s.socks x with errored := true })
  | drops : Steps c port s .adapterDrops { s with adapterHolds := false }
  | go {input : Input} {s' : State} (moves : Moves c port s input s') :
      Steps c port s (.go input) s'

theorem State.hears_live (h : s.hears x = true) : s.pc.isDone = false := by
  simp only [State.hears, Bool.and_eq_true, Bool.not_eq_true'] at h
  exact h.1.1

theorem steps_of_step {a : Action} (h : step c port s a = some s') : Steps c port s a s' := by
  unfold step at h
  split at h
  · split_ifs at h with harr
    obtain rfl := Option.some.inj h
    exact .arrive (State.hears_live harr.1) harr.2.1 harr.2.2
  · split_ifs at h with heof
    obtain rfl := Option.some.inj h
    exact .eof (State.hears_live heof.1) heof.2
  · split_ifs at h with herr
    obtain rfl := Option.some.inj h
    exact .error (State.hears_live herr)
  · obtain rfl := Option.some.inj h
    exact .drops
  · exact .go (moves_of_next rfl h)

/-! ## Where the bytes are -/

@[simp] theorem Side.other_other (x : Side) : x.other.other = x := by cases x <;> rfl

@[simp] theorem Side.other_ne (x : Side) : x.other ≠ x := by cases x <;> decide

@[simp] theorem Side.ne_other (x : Side) : x ≠ x.other := x.other_ne.symm

theorem Side.eq_or_eq_other (x y : Side) : y = x ∨ y = x.other := by cases x <;> cases y <;> decide

@[simp] theorem State.setSock_self (s : State) (x : Side) (k : Sock) :
    (s.setSock x k).socks x = k := Function.update_self ..

@[simp] theorem State.setSock_of_ne (s : State) (k : Sock) (h : y ≠ x) :
    (s.setSock x k).socks y = s.socks y := Function.update_of_ne h ..

/-- What holds of every socket still does if it holds of the new one. -/
theorem setSock_forall {Q : Side → Sock → Prop} {k : Sock} (h : ∀ y, Q y (s.socks y)) (hk : Q x k) :
    ∀ y, Q y ((s.setSock x k).socks y) := by
  intro y
  by_cases hy : y = x
  · subst hy
    rw [State.setSock_self]
    exact hk
  · rw [State.setSock_of_ne s k hy]
    exact h y

theorem State.read_eq (h : s.read x cap n = some (data, s₁)) :
    data = (s.socks x).queue.take n
      ∧ s₁ = s.setSock x { s.socks x with queue := (s.socks x).queue.drop n }
      ∧ 0 < n ∧ n ≤ cap ∧ n ≤ (s.socks x).queue.length := by
  simp only [State.read] at h
  split_ifs at h with hn
  cases h
  exact ⟨rfl, rfl, hn⟩

theorem State.wrote_eq {rest : Bytes} {more : Bytes → Pc} {last : Pc}
    (h : s.wrote x rest n more last = some s') :
    s' = (s.write x (rest.take n)).goto
      (if rest.drop n = [] then last else more (rest.drop n)) := by
  unfold State.wrote at h
  by_cases hn : 0 < n ∧ n ≤ rest.length
  · rw [if_pos hn] at h
    exact (Option.some.inj h).symm
  · rw [if_neg hn] at h
    cases h

/-- Each peer's stream is what was written to the other, what is held, what waits and what is to
come. -/
def FlowAt (socks : Side → Sock) (held : Side → Bytes) : Prop :=
  ∀ x, Conserved (socks x).sent (socks x.other).written (held x) (socks x).queue (socks x).pending

variable {socks : Side → Sock} {held held' : Side → Bytes}

theorem FlowAt.read (h : FlowAt socks held) (x : Side) (n : ℕ) :
    FlowAt (Function.update socks x { socks x with queue := (socks x).queue.drop n })
      (Function.update held x (held x ++ (socks x).queue.take n)) := by
  intro y
  rcases x.eq_or_eq_other y with rfl | rfl
  · simpa using (h y).read n
  · simpa using h x.other

theorem FlowAt.write (h : FlowAt socks held) (x : Side) (n : ℕ) :
    FlowAt (Function.update socks x
        { socks x with written := (socks x).written ++ (held x.other).take n })
      (Function.update held x.other ((held x.other).drop n)) := by
  intro y
  rcases x.eq_or_eq_other y with rfl | rfl
  · simpa using h y
  · simpa using (h x.other).pass n

theorem FlowAt.arrive (h : FlowAt socks held) (x : Side) (n : ℕ) :
    FlowAt (Function.update socks x { socks x with
      pending := (socks x).pending.drop n, queue := (socks x).queue ++ (socks x).pending.take n })
      held := by
  intro y
  rcases x.eq_or_eq_other y with rfl | rfl
  · simpa using (h y).arrive n
  · simpa using h x.other

/-- A segment that is redirected when nothing of its stream waits or is held. -/
theorem FlowAt.redirect (h : FlowAt socks held) (x : Side) (n : ℕ) (hqueue : (socks x).queue = [])
    (hheld : held x = []) :
    FlowAt (Function.update (Function.update socks x
        { socks x with pending := (socks x).pending.drop n }) x.other
        { socks x.other with written := (socks x.other).written ++ (socks x).pending.take n })
      held := by
  intro y
  rcases x.eq_or_eq_other y with rfl | rfl
  · have hflow := h y
    rw [hqueue, hheld] at hflow
    simpa [hqueue, hheld] using hflow.redirect n
  · simpa using h x.other

/-! ## What every step keeps -/

/-- Nothing can have been written to the backend yet. -/
def Pc.beforeSend : Pc → Bool
  | .readFirst | .respond _ | .tlsAccept _ | .readPost | .getConnection _ _ => true
  | _ => false

/-- Where the bytes of a session are. -/
def Flow (s : State) : Prop := FlowAt s.socks s.pc.held

/-- A read moves bytes from the queue to what is held. -/
theorem Flow.read (hs : Flow s) (hread : s.read x cap n = some (data, s₁)) {pc : Pc}
    (hheld : pc.held = Function.update s.pc.held x (s.pc.held x ++ data)) : Flow (s₁.goto pc) := by
  obtain ⟨rfl, rfl, -⟩ := State.read_eq hread
  have hflow := FlowAt.read hs x n
  rwa [← hheld] at hflow

/-- A write moves bytes from what is held to the other socket. -/
theorem Flow.write (hs : Flow s) {pc : Pc} (hx : (s.pc.held x.other).take n = data)
    (hheld : pc.held = Function.update s.pc.held x.other ((s.pc.held x.other).drop n)) :
    Flow ((s.write x data).goto pc) := by
  subst hx
  have hflow := FlowAt.write hs x n
  rwa [← hheld] at hflow

/-- A step that leaves the sockets alone and holds on to what it held. -/
theorem Flow.still (hs : Flow s) (hsocks : s'.socks = s.socks) (hheld : s'.pc.held = s.pc.held) :
    Flow s' := by
  unfold Flow
  rw [hsocks, hheld]
  exact hs

/-- A step that changes flags of a socket only, and holds on to what it held. -/
theorem Flow.flags (hs : Flow s) {k : Sock} {pc : Pc} (hsent : k.sent = (s.socks x).sent)
    (hpending : k.pending = (s.socks x).pending) (hqueue : k.queue = (s.socks x).queue)
    (hwritten : k.written = (s.socks x).written) (hheld : pc.held = s.pc.held) :
    Flow ((s.setSock x k).goto pc) := by
  intro y
  have hflow := hs y
  show Conserved ((s.setSock x k).socks y).sent ((s.setSock x k).socks y.other).written (pc.held y)
    ((s.setSock x k).socks y).queue ((s.setSock x k).socks y).pending
  rw [hheld]
  rcases x.eq_or_eq_other y with rfl | rfl
  · rw [State.setSock_self, State.setSock_of_ne s k y.other_ne, hsent, hpending, hqueue]
    exact hflow
  · rw [State.setSock_of_ne s k x.other_ne, Side.other_other, State.setSock_self, hwritten]
    rwa [Side.other_other] at hflow

theorem Flow.setFlags (hs : Flow s) {k : Sock} (hsent : k.sent = (s.socks x).sent)
    (hpending : k.pending = (s.socks x).pending) (hqueue : k.queue = (s.socks x).queue)
    (hwritten : k.written = (s.socks x).written) : Flow (s.setSock x k) :=
  hs.flags hsent hpending hqueue hwritten rfl

theorem Flow.redirect (hs : Flow s) {pc : Pc} (hheld : pc.held = s.pc.held) (x : Side)
    (active : Bool) : Flow { s.redirect x with active := active, pc := pc } := by
  have hflags : Flow ((s.setSock x { s.socks x with
      redirect := true, atEntry := some (s.socks x).queue }).goto pc) :=
    hs.flags rfl rfl rfl rfl hheld
  exact hflags.still rfl rfl

theorem Flow.wrote (hs : Flow s) {rest : Bytes} {more : Bytes → Pc} {last : Pc}
    (h : s.wrote x rest n more last = some s') (hheld : s.pc.held = holding x.other rest)
    (hmore : ∀ r, (more r).held = holding x.other r) (hlast : last.held = fun _ => []) :
    Flow s' := by
  have hrest : s.pc.held x.other = rest := by
    rw [hheld]
    exact Function.update_self ..
  have hdrop : Function.update s.pc.held x.other ((s.pc.held x.other).drop n)
      = holding x.other (rest.drop n) := by
    rw [hrest, hheld]
    exact Function.update_idem ..
  rw [State.wrote_eq h]
  split_ifs with hnil
  · refine hs.write (by rw [hrest]) ?_
    rw [hdrop, hnil, hlast]
    exact (Function.update_eq_self x.other _).symm
  · refine hs.write (by rw [hrest]) ?_
    rw [hdrop, hmore]

/-- The handshake puts the decrypted stream in the place of the client's. -/
theorem Flow.handshake (hs : Flow s) {initial plain : Bytes} {verifier : ClientVerifier}
    (hpc : s.pc = .tlsAccept initial) (hwritten : (s.socks .backend).written = []) :
    Flow { s.setSock .client { Sock.new plain with written := (s.socks .client).written } with
      handshake := some verifier
      pc := .readPost } := by
  intro x
  cases x with
  | client =>
    show Conserved plain (s.socks .backend).written [] [] plain
    rw [hwritten]
    exact Conserved.start plain
  | backend =>
    have hback := hs .backend
    rw [hpc] at hback
    exact hback

theorem held_copy_update (half : Side → Half) (x : Side) (h : Half) :
    (Pc.copy (Function.update half x h)).held
      = Function.update (Pc.copy half).held x h.buf := by
  funext y
  by_cases hy : y = x
  · subst hy
    simp [Pc.held]
  · simp [Pc.held, hy]

/-- Every step of the session itself moves bytes only from one place to the next. -/
theorem Moves.flow {input : Input} (hs : Flow s)
    (hearly : s.pc.beforeSend = true → (s.socks .backend).written = [])
    (hm : Moves c port s input s') : Flow s' := by
  cases hm with
  | @first n data s₁ hpc hread =>
    have hgo : Flow (s₁.goto (s₁.firstRead c port data).pc) := by
      refine hs.read hread ?_
      rw [hpc]
      unfold State.firstRead
      split_ifs <;> rfl
    exact hgo.still rfl rfl
  | respond hpc | connect hpc | skip hpc | undo hpc =>
    refine hs.still rfl ?_
    rw [hpc]
    rfl
  | handshake hpc htls => exact hs.handshake hpc (hearly (by rw [hpc]; rfl))
  | post hpc hread | stray hpc hread | select hpc hread =>
    refine hs.read hread ?_
    rw [hpc]
    simp [Pc.held, holding]
  | send hpc hwrote =>
    refine hs.wrote hwrote (by rw [hpc]; rfl) (fun _ => rfl) ?_
    split_ifs <;> rfl
  | entry hpc hmap => exact hs.redirect (by rw [hpc]; rfl) .client s.active
  | peer hpc => exact hs.redirect (by rw [hpc]; rfl) .backend true
  | delete deleted hpc => exact hs.flags rfl rfl rfl rfl (by rw [hpc]; rfl)
  | unwrap hpc =>
    refine hs.still rfl ?_
    rw [hpc]
    split_ifs <;> rfl
  | forward hpc hwrote => exact hs.wrote hwrote (by rw [hpc]; rfl) (fun _ => rfl) rfl
  | copyRead hpc hopen hread =>
    refine hs.read hread ?_
    rw [hpc, held_copy_update]
    rfl
  | @copyEnd half x hpc hend =>
    refine hs.still rfl ?_
    rw [hpc]
    exact (held_copy_update half x _).trans (Function.update_eq_self x _)
  | @copyWrite half x n hpc =>
    refine hs.write (by rw [hpc]; rfl) ?_
    rw [hpc, held_copy_update]
    rfl
  | @copyShut half x hpc hend =>
    refine hs.still rfl ?_
    rw [hpc]
    exact (held_copy_update half x.other _).trans (Function.update_eq_self x.other _)
  | refuse | copyDone | early | close | selectEnd | fail => exact hs.still rfl rfl

/-! ## What every run keeps -/

structure Inv (s : State) : Prop where
  redirect : ∀ x, (s.socks x).redirect = true → s.touched = true
  early : s.pc.beforeSend = true → s.touched = false ∧ (s.socks .backend).written = []
  flow : s.touched = false → Flow s

theorem flow_start (client backend : Bytes) : Flow (start client backend) := by
  intro x
  cases x <;> exact Conserved.start _

theorem inv_start (client backend : Bytes) : Inv (start client backend) where
  redirect := by
    intro x h
    cases x <;> cases h
  early := fun _ => ⟨rfl, rfl⟩
  flow := fun _ => flow_start client backend

theorem setSock_redirect {k : Sock} (hk : k.redirect = true → (s.socks x).redirect = true) :
    ∀ y, ((s.setSock x k).socks y).redirect = true → (s.socks y).redirect = true :=
  setSock_forall (Q := fun y k => k.redirect = true → (s.socks y).redirect = true) (fun _ => id) hk

/-- A step makes a sockmap entry, or none is there that was not there before. -/
theorem Moves.touched {input : Input} (hm : Moves c port s input s') :
    s'.touched = true ∨ s'.touched = s.touched
      ∧ ∀ x, (s'.socks x).redirect = true → (s.socks x).redirect = true := by
  cases hm with
  | entry | peer => exact .inl rfl
  | first hpc hread | post hpc hread | stray hpc hread | select hpc hread
  | copyRead hpc hopen hread =>
    obtain ⟨-, rfl, -⟩ := State.read_eq hread
    exact .inr ⟨rfl, setSock_redirect id⟩
  | send hpc hwrote | forward hpc hwrote =>
    rw [State.wrote_eq hwrote]
    exact .inr ⟨rfl, setSock_redirect id⟩
  | copyWrite => exact .inr ⟨rfl, setSock_redirect id⟩
  | handshake => exact .inr ⟨rfl, setSock_redirect fun h => nomatch h⟩
  | delete => exact .inr ⟨rfl, setSock_redirect fun h => (Bool.and_eq_true_iff.1 h).1⟩
  | respond | connect | refuse | skip | undo | unwrap | copyEnd | copyShut | copyDone | early
  | close | selectEnd | fail => exact .inr ⟨rfl, fun _ => id⟩

/-- Before the dial nothing is written to the backend. -/
theorem Moves.beforeSend {input : Input} (hm : Moves c port s input s')
    (h : s'.pc.beforeSend = true) : s.pc.beforeSend = true ∧ s'.touched = s.touched
      ∧ (s'.socks .backend).written = (s.socks .backend).written := by
  cases hm with
  | first hpc hread | post hpc hread =>
    obtain ⟨-, rfl, -⟩ := State.read_eq hread
    rw [hpc]
    exact ⟨rfl, rfl, rfl⟩
  | respond hpc | handshake hpc =>
    rw [hpc]
    exact ⟨rfl, rfl, rfl⟩
  | send hpc hwrote | forward hpc hwrote =>
    rw [State.wrote_eq hwrote] at h
    simp only [State.goto] at h
    split_ifs at h <;> cases h
  | unwrap hpc =>
    simp only at h
    split_ifs at h <;> cases h
  | connect | refuse | skip | entry | peer | undo | delete | stray | select | copyRead | copyEnd
  | copyWrite | copyShut | copyDone | early | close | selectEnd | fail => cases h

theorem Moves.inv {input : Input} (hs : Inv s) (hm : Moves c port s input s') : Inv s' := by
  have hwritten : s.pc.beforeSend = true → (s.socks .backend).written = [] := fun h =>
    (hs.early h).2
  refine ⟨fun x hx => ?_, fun h => ?_, fun h => ?_⟩
  · rcases hm.touched with htouched | ⟨htouched, hredirect⟩
    · exact htouched
    · rw [htouched]
      exact hs.redirect x (hredirect x hx)
  · obtain ⟨hpc, htouched, hsame⟩ := hm.beforeSend h
    rw [htouched, hsame]
    exact hs.early hpc
  · rcases hm.touched with htouched | ⟨htouched, -⟩
    · cases htouched.symm.trans h
    · exact hm.flow (hs.flow (htouched ▸ h)) hwritten

theorem arrive_of_redirect (h : (s.socks x).redirect = true) :
    s.arrive x n = (s.setSock x { s.socks x with pending := (s.socks x).pending.drop n }).write
      x.other ((s.socks x).pending.take n) := if_pos h

theorem arrive_of_not_redirect (h : ¬ (s.socks x).redirect = true) :
    s.arrive x n = s.setSock x { s.socks x with
      pending := (s.socks x).pending.drop n
      queue := (s.socks x).queue ++ (s.socks x).pending.take n } := if_neg h

theorem arrive_frame (s : State) (x : Side) (n : ℕ) :
    (s.arrive x n).pc = s.pc ∧ (s.arrive x n).touched = s.touched
      ∧ (s.arrive x n).active = s.active ∧ (s.arrive x n).relayed = s.relayed := by
  unfold State.arrive
  by_cases hred : (s.socks x).redirect = true
  · simp only [if_pos hred]
    exact ⟨rfl, rfl, rfl, rfl⟩
  · simp only [if_neg hred]
    exact ⟨rfl, rfl, rfl, rfl⟩

theorem Flow.arrive (hs : Flow s) (x : Side) (n : ℕ)
    (hturn : (s.socks x).redirect = true → (s.socks x).queue = [] ∧ s.pc.held x = []) :
    Flow (s.arrive x n) := by
  by_cases hred : (s.socks x).redirect = true
  · obtain ⟨hqueue, hheld⟩ := hturn hred
    have hother : ((s.setSock x { s.socks x with
        pending := (s.socks x).pending.drop n }).socks x.other) = s.socks x.other :=
      State.setSock_of_ne s _ x.other_ne
    rw [arrive_of_redirect hred]
    unfold Flow State.write
    rw [hother]
    exact FlowAt.redirect hs x n hqueue hheld
  · rw [arrive_of_not_redirect hred]
    exact FlowAt.arrive hs x n

theorem Inv.arrive (hs : Inv s) (x : Side) (n : ℕ) : Inv (s.arrive x n) := by
  have hflow : s.touched = false → Flow (s.arrive x n) := fun h =>
    (hs.flow h).arrive x n fun hred => by cases h.symm.trans (hs.redirect x hred)
  by_cases hred : (s.socks x).redirect = true
  · -- the segment goes straight to the other socket, so an entry was made
    have htouched : s.touched = true := hs.redirect x hred
    rw [arrive_of_redirect hred] at hflow ⊢
    refine ⟨fun _ _ => htouched, fun h => ?_, hflow⟩
    cases htouched.symm.trans (hs.early h).1
  · rw [arrive_of_not_redirect hred] at hflow ⊢
    have hsame := setSock_redirect (x := x) (s := s) (k := { s.socks x with
      pending := (s.socks x).pending.drop n
      queue := (s.socks x).queue ++ (s.socks x).pending.take n }) id
    refine ⟨fun y h => hs.redirect y (hsame y h), fun h => ?_, hflow⟩
    have hearly := hs.early h
    cases x <;> exact hearly

theorem Inv.flags (hs : Inv s) {k : Sock} (hsent : k.sent = (s.socks x).sent)
    (hpending : k.pending = (s.socks x).pending) (hqueue : k.queue = (s.socks x).queue)
    (hwritten : k.written = (s.socks x).written)
    (hredirect : k.redirect = true → (s.socks x).redirect = true) : Inv (s.setSock x k) := by
  refine ⟨fun y h => hs.redirect y (setSock_redirect hredirect y h), fun h => ?_, fun h => ?_⟩
  · obtain ⟨htouched, hnone⟩ := hs.early h
    refine ⟨htouched, ?_⟩
    cases x
    · exact hnone
    · exact hwritten.trans hnone
  · exact (hs.flow h).setFlags hsent hpending hqueue hwritten

theorem step_inv {a : Action} (hs : Inv s) (h : step c port s a = some s') : Inv s' := by
  rcases steps_of_step h with _ | _ | _ | _ | hm
  · exact hs.arrive _ _
  · exact hs.flags rfl rfl rfl rfl id
  · exact hs.flags rfl rfl rfl rfl id
  · exact ⟨hs.redirect, hs.early, hs.flow⟩
  · exact hm.inv hs

/-! ## Whose streams these are -/

theorem setSock_sent {k : Sock} (hk : k.sent = (s.socks x).sent) :
    ∀ y, ((s.setSock x k).socks y).sent = (s.socks y).sent :=
  setSock_forall (Q := fun y k => k.sent = (s.socks y).sent) (fun _ => rfl) hk

theorem write_sent (s : State) (x y : Side) (data : Bytes) :
    ((s.write x data).socks y).sent = (s.socks y).sent := by
  refine setSock_sent ?_ y
  rfl

/-- A stream is replaced in the TLS handshake only. -/
theorem Moves.streams {input : Input} (hm : Moves c port s input s') :
    (s'.handshake = s.handshake ∧ ∀ y, (s'.socks y).sent = (s.socks y).sent)
      ∨ ∃ data acceptor, s.pc = .tlsAccept data ∧ c.tlsAcceptor = some acceptor
        ∧ s'.handshake = some acceptor.verifier ∧ (s'.socks .backend) = s.socks .backend := by
  cases hm with
  | handshake hpc htls => exact Or.inr ⟨_, _, hpc, htls, rfl, rfl⟩
  | first hpc hread | post hpc hread | stray hpc hread | select hpc hread
  | copyRead hpc hopen hread =>
    obtain ⟨-, rfl, -⟩ := State.read_eq hread
    exact Or.inl ⟨rfl, setSock_sent rfl⟩
  | send hpc hwrote | forward hpc hwrote =>
    rw [State.wrote_eq hwrote]
    exact Or.inl ⟨rfl, setSock_sent rfl⟩
  | entry | peer | delete | copyWrite => exact Or.inl ⟨rfl, setSock_sent rfl⟩
  | respond | connect | refuse | skip | undo | unwrap | copyEnd | copyShut | copyDone | early
  | close | selectEnd | fail => exact Or.inl ⟨rfl, fun _ => rfl⟩

/-- The backend's stream is the one the session began with, and so is the client's unless there was
a TLS handshake. -/
def Streams (client backend : Bytes) (s : State) : Prop :=
  (s.socks .backend).sent = backend ∧ (s.handshake = none → (s.socks .client).sent = client)

theorem Streams.same {client backend : Bytes} (hs : Streams client backend s)
    (hhand : s'.handshake = s.handshake) (hsent : ∀ y, (s'.socks y).sent = (s.socks y).sent) :
    Streams client backend s' := by
  unfold Streams
  rw [hhand, hsent, hsent]
  exact hs

theorem arrive_streams (s : State) (x : Side) (n : ℕ) :
    (s.arrive x n).handshake = s.handshake
      ∧ ∀ y, ((s.arrive x n).socks y).sent = (s.socks y).sent := by
  by_cases hred : (s.socks x).redirect = true
  · rw [arrive_of_redirect hred]
    refine ⟨rfl, fun y => ?_⟩
    rw [write_sent]
    refine setSock_sent ?_ y
    rfl
  · rw [arrive_of_not_redirect hred]
    exact ⟨rfl, setSock_sent rfl⟩

theorem step_streams {client backend : Bytes} {a : Action} (hs : Streams client backend s)
    (h : step c port s a = some s') : Streams client backend s' := by
  rcases steps_of_step h with _ | _ | _ | _ | hm
  · exact hs.same (arrive_streams s _ _).1 (arrive_streams s _ _).2
  · exact hs.same rfl (setSock_sent rfl)
  · exact hs.same rfl (setSock_sent rfl)
  · exact hs
  · rcases hm.streams with ⟨hhand, hsent⟩ | ⟨_, _, -, -, hhand, hsock⟩
    · exact hs.same hhand hsent
    · refine ⟨by rw [hsock]; exact hs.1, fun hnone => ?_⟩
      rw [hhand] at hnone
      cases hnone

/-! ## Sessions that relay themselves -/

/-- The sockmap becomes active with the second entry. -/
theorem Moves.active {input : Input} (hm : Moves c port s input s') :
    s'.active = s.active ∨ s'.active = true ∧ s'.pc = .waitForClose := by
  cases hm with
  | peer => exact .inr ⟨rfl, rfl⟩
  | first hpc hread | post hpc hread | stray hpc hread | select hpc hread
  | copyRead hpc hopen hread =>
    obtain ⟨-, rfl, -⟩ := State.read_eq hread
    exact .inl rfl
  | send hpc hwrote | forward hpc hwrote =>
    rw [State.wrote_eq hwrote]
    exact .inl rfl
  | entry | copyWrite | handshake | delete | respond | connect | refuse | skip | undo | unwrap
  | copyEnd | copyShut | copyDone | early | close | selectEnd | fail => exact .inl rfl

/-- If `insert_pair` fails at its second entry, the first one was there for a while, and is still
there if it could not be deleted.  What is redirected in that time keeps its place in the stream if
nothing of it waits. -/
theorem step_flow {a : Action} (hs : Inv s ∧ (s.active = false → Flow s)) (hturn : InOrder s a)
    (h : step c port s a = some s') : Inv s' ∧ (s'.active = false → Flow s') := by
  obtain ⟨hinv, hflow⟩ := hs
  refine ⟨step_inv hinv h, fun hactive => ?_⟩
  rcases steps_of_step h with ⟨x, n⟩ | _ | _ | _ | hm
  · rw [(arrive_frame s _ _).2.2.1] at hactive
    exact (hflow hactive).arrive _ _ (hturn hactive)
  · exact (hflow hactive).setFlags rfl rfl rfl rfl
  · exact (hflow hactive).setFlags rfl rfl rfl rfl
  · exact (hflow hactive).still rfl rfl
  · have hbefore : s.active = false := by
      rcases hm.active with h | ⟨h, -⟩
      · exact h ▸ hactive
      · cases h.symm.trans hactive
    exact hm.flow (hflow hbefore) fun hpc => (hinv.early hpc).2

/-- In every state of every session whose sockmap is not active, if no segment was redirected past
earlier bytes of its stream, what was written to the backend is a prefix of what the client sent,
and what was written to the client after the `S` is a prefix of what the backend sent. -/
theorem relay_isPrefix (c : Shared) (port : UInt16) {client backend : Bytes} {as : List Action}
    {s : State} (hrun : run (step c port) (start client backend) as = some s)
    (hturn : EachStep (step c port) InOrder (start client backend) as)
    (hsockmap : s.active = false) :
    (s.socks .backend).written <+: (s.socks .client).sent
      ∧ (s.socks .client).written <+: backend
      ∧ (s.handshake = none → (s.socks .client).sent = client) := by
  have hinit : Inv (start client backend)
      ∧ ((start client backend).active = false → Flow (start client backend)) :=
    ⟨inv_start client backend, fun _ => flow_start client backend⟩
  have hflow : Flow s :=
    (run_inv_of_each (fun _ _ _ hs hturn h => step_flow hs hturn h) hinit hturn hrun).2 hsockmap
  have hstreams : Streams client backend s :=
    run_inv (fun _ _ _ hs h => step_streams hs h) ⟨rfl, fun _ => rfl⟩ hrun
  refine ⟨(hflow .client).isPrefix, ?_, hstreams.2⟩
  rw [← hstreams.1]
  exact (hflow .backend).isPrefix

/-- The settings of a server on one port, with a sockmap and without TLS. -/
def sockmapShared (port : UInt16) : Shared :=
  ⟨⟨[port], 8192, true, "relay.bpf.o", none⟩, none, true⟩

/-- The backend's entry is refused while the client's is there; the client's second byte is
redirected in that time, and the backend's byte is relayed by the session. -/
theorem relay_isPrefix_session :
    ∃ s, run (step (sockmapShared 3306) 3306) (start [1, 2] [3])
        [.arrive .client 1, .go (.read .client 1), .go (.connection (.ok ())),
          .go (.wrote .backend 1), .go (.sockmap true), .go (.sockmap false), .arrive .client 1,
          .go (.sockmap true), .go .unwrap, .arrive .backend 1, .go (.read .backend 1),
          .go (.wrote .client 1)] = some s
      ∧ s.active = false
      ∧ (s.socks .backend).written = [1, 2] ∧ (s.socks .client).written = [3]
      ∧ (s.socks .backend).written <+: [1, 2] ∧ (s.socks .client).written <+: [3] := by
  have hrun : ∃ s, run (step (sockmapShared 3306) 3306) (start [1, 2] [3])
        [.arrive .client 1, .go (.read .client 1), .go (.connection (.ok ())),
          .go (.wrote .backend 1), .go (.sockmap true), .go (.sockmap false), .arrive .client 1,
          .go (.sockmap true), .go .unwrap, .arrive .backend 1, .go (.read .backend 1),
          .go (.wrote .client 1)] = some s
      ∧ (s.socks .backend).written = [1, 2] ∧ (s.socks .client).written = [3]
      ∧ s.active = false ∧ s.handshake = none := ⟨_, rfl, rfl, rfl, rfl, rfl⟩
  have hturn : EachStep (step (sockmapShared 3306) 3306) InOrder (start [1, 2] [3])
        [.arrive .client 1, .go (.read .client 1), .go (.connection (.ok ())),
          .go (.wrote .backend 1), .go (.sockmap true), .go (.sockmap false), .arrive .client 1,
          .go (.sockmap true), .go .unwrap, .arrive .backend 1, .go (.read .backend 1),
          .go (.wrote .client 1)] := by
    refine .cons (fun _ _ => ⟨rfl, rfl⟩) rfl ?_
    refine .cons trivial rfl (.cons trivial rfl (.cons trivial rfl (.cons trivial rfl ?_)))
    refine .cons trivial rfl (.cons (fun _ _ => ⟨rfl, rfl⟩) rfl (.cons trivial rfl ?_))
    refine .cons trivial rfl (.cons (fun _ _ => ⟨rfl, rfl⟩) rfl (.cons trivial rfl ?_))
    exact .cons trivial rfl trivial
  obtain ⟨s, hrun, hb, hc, hactive, hplain⟩ := hrun
  obtain ⟨hup, hdown, hsent⟩ := relay_isPrefix (sockmapShared 3306) 3306 hrun hturn hactive
  rw [hsent hplain] at hup
  exact ⟨s, hrun, hactive, hb, hc, hup, hdown⟩

/-- The client's second byte is in its receive queue when its entry is made, the third one arrives
before the backend's entry is refused: the backend is written the third byte before the second. -/
theorem refused_entry_reorders :
    ∃ s, run (step (sockmapShared 3306) 3306) (start [1, 2, 3] [])
        [.arrive .client 1, .go (.read .client 1), .go (.connection (.ok ())),
          .go (.wrote .backend 1), .arrive .client 1, .go (.sockmap true), .arrive .client 1,
          .go (.sockmap false), .go (.sockmap true), .go .unwrap, .go (.read .client 1),
          .go (.wrote .backend 1)] = some s
      ∧ s.active = false ∧ s.relayed = true ∧ s.handshake = none
      ∧ (s.socks .client).sent = [1, 2, 3] ∧ (s.socks .backend).written = [1, 3, 2]
      ∧ ¬ (s.socks .backend).written <+: (s.socks .client).sent :=
  ⟨_, rfl, rfl, rfl, rfl, rfl, rfl, by decide⟩

end Session

end ProtocolProxy
