import ProtocolProxy.Proofs.Session

/-!
# What the relay has delivered when it returns

`copy_bidirectional` returns when both streams have ended and everything read from them has been
written.  The loop of `forward_serialised` returns at the first end of a stream it reads, so it has
delivered both streams exactly if the other one was through by then (`delivered_iff_endsLast`).
-/

namespace ProtocolProxy

namespace Session

open Machine Stream

variable {c : Shared} {port : UInt16} {s s' s₁ : State} {x y : Side} {n cap : ℕ} {data : Bytes}

/-! ## The stages of a session -/

inductive Stage
  | dial
  | kernel
  | relay
  | over
  deriving DecidableEq

def Pc.stage : Pc → Stage
  | .insertPeer | .waitForClose => .kernel
  | .select | .writeAll _ _ | .copy _ => .relay
  | .done _ _ => .over
  | _ => .dial

/-- What the two flags are in each stage. -/
def Staged (s : State) : Prop :=
  match s.pc.stage with
  | .dial => s.touched = false ∧ s.relayed = false
  | .kernel => s.relayed = false
  | .relay => s.touched = false ∧ s.relayed = true
  | .over => s.relayed = true → s.touched = false

theorem Staged.same (hs : Staged s) (hstage : s'.pc.stage = s.pc.stage)
    (htouched : s'.touched = s.touched) (hrelayed : s'.relayed = s.relayed) : Staged s' := by
  unfold Staged
  rw [hstage, htouched, hrelayed]
  exact hs

theorem Staged.over (hs : Staged s) (hstage : s'.pc.stage = .over)
    (htouched : s'.touched = s.touched) (hrelayed : s'.relayed = s.relayed) : Staged s' := by
  unfold Staged at hs ⊢
  rw [hstage, htouched, hrelayed]
  intro h
  split at hs
  · exact hs.1
  · rw [hs] at h
    cases h
  · exact hs.1
  · exact hs h

theorem Staged.dial (hs : Staged s) (hstage : s.pc.stage = .dial) :
    s.touched = false ∧ s.relayed = false := by
  unfold Staged at hs
  rwa [hstage] at hs

theorem Staged.kernel (hs : Staged s) (hstage : s.pc.stage = .kernel) : s.relayed = false := by
  unfold Staged at hs
  rwa [hstage] at hs

theorem Staged.relay (hs : Staged s) (hstage : s.pc.stage = .relay) :
    s.touched = false ∧ s.relayed = true := by
  unfold Staged at hs
  rwa [hstage] at hs

theorem Moves.staged {input : Input} (hs : Staged s) (hm : Moves c port s input s')
    (hok : Faultless s (.go input)) : Staged s' := by
  cases hm with
  | first hpc hread =>
    obtain ⟨-, rfl, -⟩ := State.read_eq hread
    refine hs.same ?_ rfl rfl
    rw [hpc]
    unfold State.firstRead
    split_ifs <;> rfl
  | post hpc hread | select hpc hread | copyRead hpc hopen hread =>
    obtain ⟨-, rfl, -⟩ := State.read_eq hread
    exact hs.same (by rw [hpc]; rfl) rfl rfl
  | stray hpc hread =>
    obtain ⟨-, rfl, -⟩ := State.read_eq hread
    exact hs.over rfl rfl rfl
  | send hpc hwrote | forward hpc hwrote =>
    rw [State.wrote_eq hwrote]
    refine hs.same ?_ rfl rfl
    rw [hpc]
    simp only [State.goto]
    split_ifs <;> rfl
  | entry hpc =>
    have := (hs.dial (by rw [hpc]; rfl)).2
    exact this
  | peer hpc =>
    have := hs.kernel (by rw [hpc]; rfl)
    exact this
  | undo hpc => exact absurd hpc hok
  | unwrap hpc =>
    have htouched := (hs.dial (by rw [hpc]; rfl)).1
    unfold Staged
    simp only
    split_ifs <;> exact ⟨htouched, trivial⟩
  | respond hpc | handshake hpc | connect hpc | skip hpc | delete deleted hpc | copyEnd hpc
  | copyWrite hpc | copyShut hpc => exact hs.same (by rw [hpc]; rfl) rfl rfl
  | refuse | copyDone | early | close | selectEnd | fail => exact hs.over rfl rfl rfl

/-! ## The ends of the two streams -/

/-- A stream that has ended has wholly arrived. -/
def Ended (s : State) : Prop := ∀ x, (s.socks x).eof = true → (s.socks x).pending = []

/-- What `copy_bidirectional` knows of a direction it has read to the end, or shut down. -/
def HalfOk (k : Sock) (h : Half) : Prop :=
  (h.readDone = true → k.queue = [] ∧ k.pending = [])
    ∧ (h.shut = true → h.readDone = true ∧ h.buf = [])

def Halves (s : State) : Prop := ∀ half, s.pc = .copy half → ∀ x, HalfOk (s.socks x) (half x)

theorem readsEnd_ended (hs : Ended s) (h : s.readsEnd x cap = true) (hcap : 0 < cap) :
    (s.socks x).queue = [] ∧ (s.socks x).pending = [] := by
  unfold State.readsEnd at h
  simp only [Bool.or_eq_true, beq_iff_eq, Bool.and_eq_true, List.isEmpty_iff] at h
  rcases h with h | ⟨hqueue, heof⟩
  · omega
  · exact ⟨hqueue, hs x heof⟩

theorem Ended.setSock {k : Sock} (hs : Ended s) (hk : k.eof = true → k.pending = []) :
    Ended (s.setSock x k) :=
  setSock_forall (Q := fun _ k => k.eof = true → k.pending = []) hs hk

theorem Ended.write (hs : Ended s) (x : Side) (data : Bytes) : Ended (s.write x data) :=
  hs.setSock (hs x)

theorem Moves.ended {input : Input} (hs : Ended s) (hm : Moves c port s input s') : Ended s' := by
  cases hm with
  | first hpc hread | post hpc hread | stray hpc hread | select hpc hread
  | copyRead hpc hopen hread =>
    obtain ⟨-, rfl, -⟩ := State.read_eq hread
    exact hs.setSock (hs _)
  | send hpc hwrote | forward hpc hwrote =>
    rw [State.wrote_eq hwrote]
    exact hs.write _ _
  | handshake =>
    refine hs.setSock fun h => ?_
    cases h
  | entry | peer | delete | copyWrite => exact hs.setSock (hs _)
  | respond | connect | refuse | skip | undo | unwrap | copyEnd | copyShut | copyDone | early
  | close | selectEnd | fail => exact hs

theorem halves_of_ne (h : ∀ half, s.pc ≠ .copy half) : Halves s :=
  fun half hpc => absurd hpc (h half)

/-- One direction changes. -/
theorem halves_update {half : Side → Half} {h : Half}
    (hpc : s.pc = .copy (Function.update half x h)) (hx : HalfOk (s.socks x) h)
    (hother : HalfOk (s.socks x.other) (half x.other)) : Halves s := by
  intro half' hpc' y
  rw [hpc] at hpc'
  cases hpc'
  rcases x.eq_or_eq_other y with rfl | rfl
  · rw [Function.update_self]
    exact hx
  · rw [Function.update_of_ne x.other_ne]
    exact hother

theorem Moves.halves {input : Input} (hs : Halves s) (hended : Ended s)
    (hm : Moves c port s input s') : Halves s' := by
  cases hm with
  | unwrap hpc =>
    intro half hcopy x
    simp only at hcopy
    split_ifs at hcopy
    cases hcopy
    refine ⟨fun h => ?_, fun h => ?_⟩ <;> cases h
  | @copyRead half x n data s₁ hpc hopen hread =>
    obtain ⟨-, rfl, -⟩ := State.read_eq hread
    refine halves_update rfl ⟨fun h => ?_, fun h => ?_⟩ ?_
    · rw [hopen] at h
      cases h
    · have := (hs half hpc x).2 h
      rw [hopen] at this
      cases this.1
    · simpa [State.goto] using hs half hpc x.other
  | @copyEnd half x hpc hend =>
    refine halves_update rfl ⟨fun _ => ?_, fun h => ⟨rfl, ?_⟩⟩ (hs half hpc x.other)
    · exact readsEnd_ended hended hend Nat.one_pos
    · exact ((hs half hpc x).2 h).2
  | @copyWrite half x n hpc =>
    refine halves_update rfl ⟨fun h => ?_, fun h => ?_⟩ ?_
    · simpa [State.goto, State.write] using (hs half hpc x.other).1 h
    · obtain ⟨hdone, hbuf⟩ := (hs half hpc x.other).2 h
      refine ⟨hdone, ?_⟩
      simp [hbuf]
    · have := hs half hpc x
      simpa [State.goto, State.write, HalfOk] using this
  | @copyShut half x hpc hend =>
    refine halves_update rfl ⟨(hs half hpc x.other).1, fun _ => hend⟩ ?_
    rw [Side.other_other]
    exact hs half hpc x
  | first hpc hread | select hpc hread | post hpc hread | stray hpc hread =>
    refine halves_of_ne fun half => ?_
    simp only [State.firstRead, State.goto]
    try split_ifs
    all_goals simp
  | send hpc hwrote | forward hpc hwrote =>
    rw [State.wrote_eq hwrote]
    refine halves_of_ne fun half => ?_
    simp only [State.goto]
    split_ifs <;> simp
  | respond | handshake | connect | refuse | skip | entry | peer | undo | delete | copyDone | early
  | close | selectEnd | fail => exact halves_of_ne fun half => by simp [State.goto, State.finish]

/-! ## What every run without errors keeps -/

structure RelayInv (c : Shared) (s : State) : Prop where
  inv : Inv s
  staged : Staged s
  buffer : s.pc ≠ .readFirst → s.pc.isDone = false → 0 < c.config.receiveBufferSize
  ended : Ended s
  halves : Halves s

theorem relayInv_start (c : Shared) (client backend : Bytes) :
    RelayInv c (start client backend) where
  inv := inv_start client backend
  staged := ⟨rfl, rfl⟩
  buffer := fun h => absurd rfl h
  ended := by
    intro x h
    cases x <;> cases h
  halves := halves_of_ne fun half => by simp [start]

/-- A session that has read something has a buffer to read into. -/
theorem Moves.buffer {input : Input}
    (hs : s.pc ≠ .readFirst → s.pc.isDone = false → 0 < c.config.receiveBufferSize)
    (hm : Moves c port s input s') (hlive : s'.pc.isDone = false) :
    0 < c.config.receiveBufferSize := by
  cases hm with
  | first hpc hread =>
    obtain ⟨-, -, hpos, hle, -⟩ := State.read_eq hread
    omega
  | refuse | stray | copyDone | early | close | selectEnd | fail => cases hlive
  | respond hpc | handshake hpc | post hpc | connect hpc | send hpc | skip hpc | entry hpc
  | peer hpc | undo hpc | delete deleted hpc | unwrap hpc | select hpc | forward hpc | copyRead hpc
  | copyEnd hpc | copyWrite hpc | copyShut hpc => exact hs (by simp [hpc]) (by rw [hpc]; rfl)

theorem Moves.relayInv {input : Input} (hs : RelayInv c s) (hm : Moves c port s input s')
    (hok : Faultless s (.go input)) : RelayInv c s' where
  inv := hm.inv hs.inv
  staged := hm.staged hs.staged hok
  buffer := fun _ hlive => hm.buffer hs.buffer hlive
  ended := hm.ended hs.ended
  halves := hm.halves hs.halves hs.ended

theorem Ended.arrive (hs : Ended s) (x : Side) (n : ℕ) : Ended (s.arrive x n) := by
  have hdrop : (s.socks x).eof = true → (s.socks x).pending.drop n = [] := by
    intro h
    rw [hs x h, List.drop_nil]
  by_cases hred : (s.socks x).redirect = true
  · rw [arrive_of_redirect hred]
    exact (hs.setSock hdrop).write _ _
  · rw [arrive_of_not_redirect hred]
    exact hs.setSock hdrop

theorem arrive_other (s : State) (x : Side) (n : ℕ) :
    ((s.arrive x n).socks x.other).queue = (s.socks x.other).queue
      ∧ ((s.arrive x n).socks x.other).pending = (s.socks x.other).pending := by
  by_cases hred : (s.socks x).redirect = true
  · rw [arrive_of_redirect hred]
    simp [State.write]
  · rw [arrive_of_not_redirect hred]
    simp

/-- Nothing arrives on a stream that has been read to its end. -/
theorem Halves.arrive (hs : Halves s) (hpos : 0 < n) (hn : n ≤ (s.socks x).pending.length) :
    Halves (s.arrive x n) := by
  intro half hpc y
  rw [(arrive_frame s x n).1] at hpc
  obtain ⟨hdone, hshut⟩ := hs half hpc y
  refine ⟨fun h => ?_, hshut⟩
  rcases x.eq_or_eq_other y with rfl | rfl
  · rw [(hdone h).2, List.length_nil] at hn
    omega
  · rw [(arrive_other s x n).1, (arrive_other s x n).2]
    exact hdone h

/-- Steps of the outside leave the session where it is. -/
theorem RelayInv.outside (hs : RelayInv c s) (hinv : Inv s') (hpc : s'.pc = s.pc)
    (htouched : s'.touched = s.touched) (hrelayed : s'.relayed = s.relayed) (hended : Ended s')
    (hhalves : Halves s') : RelayInv c s' where
  inv := hinv
  staged := hs.staged.same (by rw [hpc]) htouched hrelayed
  buffer := by
    rw [hpc]
    exact hs.buffer
  ended := hended
  halves := hhalves

theorem step_relayInv {a : Action} (hs : RelayInv c s) (hok : Faultless s a)
    (h : step c port s a = some s') : RelayInv c s' := by
  have hinv : Inv s' := step_inv hs.inv h
  rcases steps_of_step h with @⟨x, n, -, hpos, hle⟩ | @⟨x, -, hpending⟩ | _ | _ | hm
  · obtain ⟨hpc, htouched, -, hrelayed⟩ := arrive_frame s x n
    exact hs.outside hinv hpc htouched hrelayed (hs.ended.arrive x n) (hs.halves.arrive hpos hle)
  · refine hs.outside hinv rfl rfl rfl (hs.ended.setSock fun _ => hpending) fun half hpc => ?_
    exact setSock_forall (Q := fun y k => HalfOk k (half y)) (hs.halves half hpc)
      (hs.halves half hpc x)
  · exact absurd hok id
  · exact hs.outside hinv rfl rfl rfl hs.ended hs.halves
  · exact hm.relayInv hs hok

/-! ## The two ways to return -/

/-- A session that is over has delivered both streams if it holds nothing, and nothing waits or is
still to come. -/
theorem complete_iff (hs : Inv s) (htouched : s.touched = false) :
    Complete s ↔ ∀ x, s.pc.held x = [] ∧ (s.socks x).queue = [] ∧ (s.socks x).pending = [] :=
  forall_congr' fun x => (hs.flow htouched x).complete_iff

theorem Faultless.isError {input : Input} (h : Faultless s (.go input)) :
    input.isError = false := by
  unfold Faultless at h
  split at h <;> simp_all [Input.isError]

theorem delivered_of_live (h : s.pc.isDone = false) : Delivered s := by
  intro hdone
  rw [h] at hdone
  cases hdone

theorem delivered_of_not_relayed (h : s.relayed = false) : Delivered s := by
  intro _ hrelayed
  rw [h] at hrelayed
  cases hrelayed

theorem Moves.delivered {input : Input} (hs : RelayInv c s) (hm : Moves c port s input s')
    (hok : Faultless s (.go input)) (hlast : EndsLast s (.go input)) : Delivered s' := by
  have hs' : RelayInv c s' := hm.relayInv hs hok
  cases hm with
  | @selectEnd x hpc hend =>
    obtain ⟨htouched, -⟩ := hs.staged.relay (by rw [hpc]; rfl)
    have hbuffer := hs.buffer (by simp [hpc]) (by rw [hpc]; rfl)
    intro _ _
    refine (complete_iff hs'.inv htouched).2 fun y => ⟨?_, ?_⟩
    · show s.pc.held y = []
      rw [hpc]
      rfl
    · rcases x.eq_or_eq_other y with rfl | rfl
      · exact readsEnd_ended hs.ended hend hbuffer
      · exact hlast hpc
  | @copyDone half x hpc hend hshut =>
    obtain ⟨htouched, -⟩ := hs.staged.relay (by rw [hpc]; rfl)
    intro _ _
    refine (complete_iff hs'.inv htouched).2 fun y => ?_
    have hy : (half y).readDone = true ∧ (half y).buf = [] := by
      rcases x.eq_or_eq_other y with rfl | rfl
      · exact (hs.halves half hpc y).2 hshut
      · exact hend
    refine ⟨?_, (hs.halves half hpc y).1 hy.1⟩
    show s.pc.held y = []
    rw [hpc]
    exact hy.2
  | stray hpc hread =>
    obtain ⟨-, rfl, -⟩ := State.read_eq hread
    exact delivered_of_not_relayed (hs.staged.kernel (by rw [hpc]; rfl))
  | close hpc => exact delivered_of_not_relayed (hs.staged.kernel (by rw [hpc]; rfl))
  | refuse e hpc => exact delivered_of_not_relayed (hs.staged.dial (by rw [hpc]; rfl)).2
  | early hpc =>
    refine delivered_of_not_relayed (hs.staged.dial ?_).2
    rcases hpc with hpc | hpc <;> rw [hpc] <;> rfl
  | fail result herror =>
    -- an error is not among the steps looked at
    rw [hok.isError] at herror
    cases herror
  | first hpc hread =>
    refine delivered_of_live ?_
    unfold State.firstRead
    split_ifs <;> rfl
  | send hpc hwrote | forward hpc hwrote =>
    rw [State.wrote_eq hwrote]
    refine delivered_of_live ?_
    simp only [State.goto]
    split_ifs <;> rfl
  | unwrap hpc =>
    refine delivered_of_live ?_
    simp only
    split_ifs <;> rfl
  | respond | handshake | post | connect | skip | entry | peer | undo | delete | select | copyRead
  | copyEnd | copyWrite | copyShut => exact delivered_of_live rfl

theorem step_delivered {a : Action} (hs : RelayInv c s) (hok : Faultless s a) (hp : Delivered s)
    (hlast : EndsLast s a) (h : step c port s a = some s') : Delivered s' := by
  rcases steps_of_step h with @⟨x, n, hlive, -, -⟩ | ⟨hlive, -⟩ | _ | _ | hm
  · refine delivered_of_live ?_
    rw [(arrive_frame s x n).1]
    exact hlive
  · exact delivered_of_live (by exact hlive)
  · exact absurd hok id
  · exact hp
  · exact hm.delivered hs hok hlast

/-- The loop that stops at the end of one stream leaves behind what was to come on the other. -/
theorem step_not_delivered {a : Action} (hs : RelayInv c s) (hok : Faultless s a)
    (hlast : ¬ EndsLast s a) (h : step c port s a = some s') : ¬ Delivered s' := by
  rcases a with _ | _ | _ | _ | input
  case go =>
    rcases input with _ | x | _ | _ | _ | _ | _ | _ | _ | _
    case readEnd =>
      simp only [EndsLast] at hlast
      push Not at hlast
      obtain ⟨hpc, hleft⟩ := hlast
      obtain ⟨htouched, hrelayed⟩ := hs.staged.relay (by rw [hpc]; rfl)
      have hinv : Inv s' := step_inv hs.inv h
      simp only [step, hpc, next] at h
      split_ifs at h
      cases h
      intro hp
      have hall := (complete_iff hinv htouched).1 (hp rfl hrelayed) x.other
      exact hleft hall.2.1 hall.2.2
    all_goals exact absurd trivial hlast
  all_goals exact absurd trivial hlast

/-- Along every run without I/O errors, the relay has delivered both streams when it returns, if and
only if the loop of `forward_serialised` never reads the end of one stream before the other is
through. -/
theorem delivered_iff_endsLast (c : Shared) (port : UInt16) {client backend : Bytes}
    {as : List Action} {s : State} (hrun : run (step c port) (start client backend) as = some s)
    (hok : EachStep (step c port) Faultless (start client backend) as) :
    Always (step c port) Delivered (start client backend) as
      ↔ EachStep (step c port) EndsLast (start client backend) as :=
  always_iff_eachStep_of (fun _ _ _ hs hok h => step_relayInv hs hok h)
    (fun _ _ _ hs hok hp hlast h => step_delivered hs hok hp hlast h)
    (fun _ _ _ hs hok _ hlast h => step_not_delivered hs hok hlast h)
    (relayInv_start c client backend) (delivered_of_live rfl) hok hrun

/-- The settings of a server on one port, without TLS and without a sockmap. -/
def plainShared (port : UInt16) : Shared := ⟨⟨[port], 8192, false, "", none⟩, none, false⟩

/-- The client's first byte reaches the backend, and the fallback loop is entered. -/
def serialised : List Action :=
  [.arrive .client 1, .go (.read .client 1), .go (.connection (.ok ())), .go (.wrote .backend 1),
    .go (.sockmap false), .go .unwrap]

/-- The backend answers, and only then the client closes. -/
theorem delivered_iff_endsLast_answer_first :
    ∃ s, run (step (plainShared 3306) 3306) (start [1] [3]) (serialised ++
        [.arrive .backend 1, .go (.read .backend 1), .go (.wrote .client 1), .eof .client,
          .go (.readEnd .client)]) = some s
      ∧ s.pc.isDone = true ∧ s.relayed = true ∧ Complete s := by
  have hrun : ∃ s, run (step (plainShared 3306) 3306) (start [1] [3]) (serialised ++
        [.arrive .backend 1, .go (.read .backend 1), .go (.wrote .client 1), .eof .client,
          .go (.readEnd .client)]) = some s
      ∧ s.pc.isDone = true ∧ s.relayed = true := ⟨_, rfl, rfl, rfl⟩
  obtain ⟨s, hrun, hdone, hrelayed⟩ := hrun
  have halways := (delivered_iff_endsLast (plainShared 3306) 3306 hrun
    (.cons trivial rfl <| .cons rfl rfl <| .cons rfl rfl <| .cons rfl rfl <|
      .cons (fun h => nomatch h) rfl <| .cons rfl rfl <| .cons trivial rfl <| .cons rfl rfl <|
      .cons rfl rfl <| .cons trivial rfl <| .cons rfl rfl trivial)).2
    (.cons trivial rfl <| .cons trivial rfl <| .cons trivial rfl <| .cons trivial rfl <|
      .cons trivial rfl <| .cons trivial rfl <| .cons trivial rfl <| .cons trivial rfl <|
      .cons trivial rfl <| .cons trivial rfl <| .cons (fun _ => ⟨rfl, rfl⟩) rfl trivial)
  exact ⟨s, hrun, hdone, hrelayed, halways.last hrun hdone hrelayed⟩

/-- The client closes its side and then the backend answers and closes.  The loop reads the client's
end first and returns; the answer is never written. -/
theorem answer_after_close_lost :
    ∃ s, run (step (plainShared 3306) 3306) (start [1] [3]) (serialised ++
        [.eof .client, .arrive .backend 1, .eof .backend, .go (.readEnd .client)]) = some s
      ∧ EachStep (step (plainShared 3306) 3306) Faultless (start [1] [3]) (serialised ++
        [.eof .client, .arrive .backend 1, .eof .backend, .go (.readEnd .client)])
      ∧ s.pc.isDone = true ∧ s.relayed = true ∧ (s.socks .client).written = []
      ∧ (s.socks .backend).sent = [3] ∧ ¬ Delivered s := by
  refine ⟨_, rfl, ?_, rfl, rfl, rfl, rfl, fun h => ?_⟩
  · exact .cons trivial rfl <| .cons rfl rfl <| .cons rfl rfl <| .cons rfl rfl <|
      .cons (fun h => nomatch h) rfl <| .cons rfl rfl <| .cons trivial rfl <| .cons trivial rfl <|
      .cons trivial rfl <| .cons rfl rfl trivial
  · have hback : ([] : Bytes) = [3] := h rfl rfl .backend
    cases hback

end Session

end ProtocolProxy
