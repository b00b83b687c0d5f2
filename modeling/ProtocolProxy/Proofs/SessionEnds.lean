import ProtocolProxy.Proofs.Handover
import ProtocolProxy.Proofs.Relay
import ProtocolProxy.Termination

/-!
# A TCP session comes to its end

Every step that changes something takes from what is left of a session (`left`), but for the TLS
handshake, which brings a new stream.  A session that rests waits for one of its peers, and for
which of them is said by where it stands: the loop of `forward_serialised` goes on when either peer
ends, `copy_bidirectional` when both do, and with an active sockmap only the client counts.
-/

namespace ProtocolProxy

namespace Session

open Machine

variable {c : Shared} {port : UInt16} {s s' s₁ : State} {x y : Side} {n cap : ℕ} {data : Bytes}

/-! ## What a live session knows -/

/-- What is about to be sent is not empty. -/
def Pc.Sending : Pc → Prop
  | .getConnection data _ | .sendToBackend data _ | .writeAll _ data => data ≠ []
  | _ => True

/-- `copy_bidirectional` has read to the end of the streams that have ended, and is over when both
directions are shut down. -/
structure CopyOk (socks : Side → Sock) (half : Side → Half) : Prop where
  eof : ∀ x, (half x).readDone = true → (socks x).eof = true
  open_ : ∃ x, (half x).shut = false

/-- The session has not come to its TLS handshake. -/
def Pc.beforeTls : Pc → Bool
  | .readFirst | .respond _ | .tlsAccept _ => true
  | _ => false

structure Awake (s : State) : Prop where
  ended : Ended s
  halves : Halves s
  plain : s.pc.beforeTls = true → s.handshake = none
  sending : s.pc.Sending
  copy : ∀ half, s.pc = .copy half → CopyOk s.socks half

theorem awake_start (client backend : Bytes) : Awake (start client backend) where
  ended x h := by cases x <;> cases h
  halves := halves_of_ne fun half => by simp [start]
  plain _ := rfl
  sending := trivial
  copy half h := by cases h

theorem State.read_ne_nil (h : s.read x cap n = some (data, s₁)) : data ≠ [] := by
  obtain ⟨rfl, -, hpos, -, hle⟩ := State.read_eq h
  intro hnil
  have hlen := congrArg List.length hnil
  rw [List.length_take, List.length_nil] at hlen
  omega

theorem Moves.sending {input : Input} (hs : s.pc.Sending) (hm : Moves c port s input s') :
    s'.pc.Sending := by
  cases hm with
  | first hpc hread =>
    simp only [State.firstRead]
    split_ifs
    · trivial
    · exact State.read_ne_nil hread
  | post hpc hread | select hpc hread => exact State.read_ne_nil hread
  | connect hpc =>
    rw [hpc] at hs
    exact hs
  | @send rest tls n s₁ hpc hwrote =>
    rw [State.wrote_eq hwrote]
    simp only [State.goto]
    split_ifs with hrest
    · trivial
    · trivial
    · exact hrest
  | @forward dest rest n s₁ hpc hwrote =>
    rw [State.wrote_eq hwrote]
    simp only [State.goto]
    split_ifs with hrest
    · trivial
    · exact hrest
  | unwrap =>
    simp only
    split_ifs <;> trivial
  | respond | handshake | refuse | skip | entry | peer | undo | delete | stray | copyRead | copyEnd
  | copyWrite | copyShut | copyDone | early | close | selectEnd | fail => trivial

theorem Moves.plain {input : Input} (hs : s.pc.beforeTls = true → s.handshake = none)
    (hm : Moves c port s input s') : s'.pc.beforeTls = true → s'.handshake = none := by
  intro htls
  cases hm with
  | first hpc hread =>
    obtain ⟨-, rfl, -⟩ := State.read_eq hread
    exact hs (by rw [hpc]; rfl)
  | respond hpc => exact hs (by rw [hpc]; rfl)
  | send hpc hwrote | forward hpc hwrote =>
    rw [State.wrote_eq hwrote] at htls
    simp only [State.goto] at htls
    split_ifs at htls <;> cases htls
  | unwrap =>
    simp only at htls
    split_ifs at htls <;> cases htls
  | handshake | post | connect | refuse | skip | entry | peer | undo | delete | stray | select
  | copyRead | copyEnd | copyWrite | copyShut | copyDone | early | close | selectEnd | fail =>
    cases htls

/-- One direction changes, and is not shut down in that. -/
theorem CopyOk.update {socks socks' : Side → Sock} {half : Side → Half} {h : Half}
    (hs : CopyOk socks half) (hsocks : ∀ y, (socks y).eof = true → (socks' y).eof = true)
    (hdone : h.readDone = true → (socks' x).eof = true) (hshut : h.shut = (half x).shut) :
    CopyOk socks' (Function.update half x h) where
  eof y hy := by
    by_cases hyx : y = x
    · subst hyx
      rw [Function.update_self] at hy
      exact hdone hy
    · rw [Function.update_of_ne hyx] at hy
      exact hsocks y (hs.eof y hy)
  open_ := by
    obtain ⟨y, hy⟩ := hs.open_
    refine ⟨y, ?_⟩
    by_cases hyx : y = x
    · subst hyx
      rw [Function.update_self, hshut]
      exact hy
    · rw [Function.update_of_ne hyx]
      exact hy

theorem setSock_eof {k : Sock} (hk : (s.socks x).eof = true → k.eof = true) :
    ∀ y, (s.socks y).eof = true → ((s.setSock x k).socks y).eof = true :=
  setSock_forall (Q := fun y k => (s.socks y).eof = true → k.eof = true) (fun _ => id) hk

theorem write_eof (s : State) (x y : Side) (data : Bytes) (hy : (s.socks y).eof = true) :
    ((s.write x data).socks y).eof = true := by
  refine setSock_eof ?_ y hy
  exact id

theorem arrive_eof (s : State) (x : Side) (n : ℕ) :
    ∀ y, (s.socks y).eof = true → ((s.arrive x n).socks y).eof = true := by
  intro y hy
  by_cases hred : (s.socks x).redirect = true
  · rw [arrive_of_redirect hred]
    refine write_eof _ _ y _ (setSock_eof ?_ y hy)
    exact id
  · rw [arrive_of_not_redirect hred]
    refine setSock_eof ?_ y hy
    exact id

/-- The direction that is shut down is the first one. -/
theorem copyStep_shutdown {half half' : Side → Half} (h : s.copyStep half (.shutdown x) = some s')
    (hpc : s'.pc = .copy half') :
    s'.socks = s.socks ∧ (half x).shut = false
      ∧ half' = Function.update half x.other { half x.other with shut := true } := by
  simp only [State.copyStep] at h
  split_ifs at h with hend hshut <;> cases h
  · cases hpc
  · cases hpc
    exact ⟨rfl, by simpa using hshut, rfl⟩

theorem Awake.copy_of_next {input : Input} (hs : Awake s)
    (h : next c port s s.pc input = some s') :
    ∀ half, s'.pc = .copy half → CopyOk s'.socks half := by
  intro half' hpc'
  have hm : Moves c port s input s' := moves_of_next rfl h
  cases hm with
  | unwrap hpc =>
    simp only at hpc'
    split_ifs at hpc'
    cases hpc'
    exact ⟨nofun, ⟨.client, rfl⟩⟩
  | @copyRead half x n data s₁ hpc hopen hread =>
    obtain ⟨-, rfl, -⟩ := State.read_eq hread
    cases hpc'
    refine (hs.copy half hpc).update (setSock_eof id) (fun hdone => ?_) rfl
    exact absurd hdone (by simp [hopen])
  | @copyEnd half x hpc hend =>
    cases hpc'
    refine (hs.copy half hpc).update (fun _ => id) (fun _ => ?_) rfl
    simp only [State.readsEnd, Bool.or_eq_true, Bool.and_eq_true] at hend
    exact (hend.resolve_left (by decide)).2
  | @copyWrite half x n hpc =>
    cases hpc'
    refine (hs.copy half hpc).update (fun y => write_eof s x y _) (fun hdone => ?_) rfl
    exact write_eof s x _ _ ((hs.copy half hpc).eof _ hdone)
  | @copyShut half x hpc hend =>
    rw [hpc] at h
    obtain ⟨-, hopen, rfl⟩ := copyStep_shutdown h hpc'
    refine ⟨fun y hy => (hs.copy half hpc).eof y ?_, ⟨x, ?_⟩⟩
    · by_cases hyx : y = x.other
      · subst hyx
        rw [Function.update_self] at hy
        exact hy
      · rwa [Function.update_of_ne hyx] at hy
    · rw [Function.update_of_ne (by simp)]
      exact hopen
  | first hpc hread | select hpc hread | post hpc hread | stray hpc hread =>
    simp only [State.firstRead, State.goto] at hpc'
    try split_ifs at hpc'
    all_goals cases hpc'
  | send hpc hwrote | forward hpc hwrote =>
    rw [State.wrote_eq hwrote] at hpc'
    simp only [State.goto] at hpc'
    split_ifs at hpc'
  | respond | handshake | connect | refuse | skip | entry | peer | undo | delete | copyDone | early
  | close | selectEnd | fail => cases hpc'

/-- What happens outside leaves the session where it is. -/
theorem Awake.outside (hs : Awake s) (hended : Ended s') (hhalves : Halves s')
    (hpc : s'.pc = s.pc) (hhand : s'.handshake = s.handshake)
    (heof : ∀ y, (s.socks y).eof = true → (s'.socks y).eof = true) : Awake s' where
  ended := hended
  halves := hhalves
  plain h := hhand.trans (hs.plain (hpc ▸ h))
  sending := by
    rw [hpc]
    exact hs.sending
  copy half h := by
    have hcopy := hs.copy half (hpc ▸ h)
    exact ⟨fun x hx => heof x (hcopy.eof x hx), hcopy.open_⟩

theorem Halves.setSock {k : Sock} (hs : Halves s)
    (hk : k.queue = (s.socks x).queue ∧ k.pending = (s.socks x).pending) :
    Halves (s.setSock x k) := by
  intro half hpc
  refine setSock_forall (Q := fun y k => HalfOk k (half y)) (hs half hpc) ?_
  unfold HalfOk
  rw [hk.1, hk.2]
  exact hs half hpc x

theorem step_awake {a : Action} (hs : Awake s) (h : step c port s a = some s') : Awake s' := by
  have hsteps := steps_of_step h
  cases hsteps with
  | arrive live pos le =>
    exact hs.outside (hs.ended.arrive _ _) (hs.halves.arrive pos le) (arrive_frame s _ _).1
      (arrive_streams s _ _).1 (arrive_eof s _ _)
  | eof live pending =>
    exact hs.outside (hs.ended.setSock fun _ => pending) (hs.halves.setSock ⟨rfl, rfl⟩) rfl rfl
      (setSock_eof fun _ => rfl)
  | error live =>
    exact hs.outside (hs.ended.setSock (hs.ended _)) (hs.halves.setSock ⟨rfl, rfl⟩) rfl rfl
      (setSock_eof id)
  | drops => exact hs.outside hs.ended hs.halves rfl rfl fun _ => id
  | go hm =>
    exact ⟨hm.ended hs.ended, hm.halves hs.halves hs.ended, hm.plain hs.plain,
      hm.sending hs.sending, hs.copy_of_next h⟩

/-! ## A session that waits -/

theorem Quiet.read (h : Quiet (s.socks x)) (cap n : ℕ) : s.read x cap n = none := by
  simp only [State.read, h.queue, List.length_nil]
  exact if_neg (by omega)

theorem Quiet.readsEnd (h : Quiet (s.socks x)) (hcap : 0 < cap) : s.readsEnd x cap = false := by
  have hne : cap ≠ 0 := by omega
  simp [State.readsEnd, h.eof, hne]

/-- A direction of `copy_bidirectional` that has nothing to do. -/
structure HalfRests (k : Sock) (h : Half) : Prop where
  passed : h.buf = []
  errored : k.errored = false
  waits : Quiet k ∧ h.readDone = false ∨ h.readDone = true ∧ h.shut = true

theorem copyStep_rests {half : Side → Half} {input : Input} (hpc : s.pc = .copy half)
    (hrest : ∀ y, HalfRests (s.socks y) (half y)) (hwrite : input.isWriteError = false)
    (h : s.copyStep half input = some s') : s' = s := by
  cases input with
  | read y n =>
    rcases (hrest y).waits with ⟨hquiet, hopen⟩ | ⟨hdone, -⟩
    · simp [State.copyStep, hopen, hquiet.read] at h
    · simp [State.copyStep, hdone] at h
  | readEnd y =>
    rcases (hrest y).waits with ⟨hquiet, -⟩ | ⟨hdone, -⟩
    · simp [State.copyStep, hquiet.readsEnd Nat.one_pos] at h
    · -- the end of this stream has been read before
      simp only [State.copyStep] at h
      split_ifs at h
      cases h
      have hsame : Function.update half y { half y with readDone := true } = half := by
        rw [← hdone]
        exact Function.update_eq_self y half
      rw [hsame, State.goto, ← hpc]
  | wrote y n =>
    simp only [State.copyStep, (hrest y.other).passed, List.length_nil] at h
    rw [if_neg (by omega)] at h
    cases h
  | shutdown y =>
    rcases (hrest y.other).waits with ⟨-, hopen⟩ | ⟨-, hshut⟩
    · simp [State.copyStep, hopen] at h
    · simp [State.copyStep, hshut] at h
  | readError y e => simp [State.copyStep, (hrest y).errored] at h
  | writeError y e => cases hwrite
  | tls | connection | sockmap | unwrap => cases h

theorem Waits.rests (hw : Waits s) (hs : Awake s) (hbuf : 0 < c.config.receiveBufferSize) :
    Rests c port s := by
  intro input s' hwrite h
  cases hw with
  | client at_ quiet =>
    rcases at_ with hpc | hpc | hpc <;> rw [hpc] at h <;> cases input with
    | read x n => cases x <;> simp [next, quiet.read] at h
    | readEnd x => cases x <;> simp [next, quiet.readsEnd hbuf, quiet.readsEnd Nat.one_pos] at h
    | readError x e => cases x <;> simp [next, quiet.errored] at h
    | writeError x e => cases hwrite
    | wrote | tls | connection | sockmap | unwrap | shutdown => simp [next] at h
  | select hpc quiet =>
    rw [hpc] at h
    cases input with
    | read x n => simp [next, (quiet x).read] at h
    | readEnd x => simp [next, (quiet x).readsEnd hbuf] at h
    | readError x e => simp [next, (quiet x).errored] at h
    | writeError x e => cases hwrite
    | wrote | tls | connection | sockmap | unwrap | shutdown => simp [next] at h
  | copy half hpc x quiet passed other =>
    rw [hpc] at h
    have hcopy := hs.copy half hpc
    have hquiet : ∀ y, Quiet (s.socks y) → (half y).buf = [] → HalfRests (s.socks y) (half y) := by
      refine fun y hy hbuf => ⟨hbuf, hy.errored, .inl ⟨hy, ?_⟩⟩
      by_contra hdone
      rw [Bool.not_eq_false] at hdone
      exact absurd (hcopy.eof y hdone) (by simp [hy.eof])
    refine copyStep_rests hpc (fun y => ?_) hwrite h
    rcases x.eq_or_eq_other y with rfl | rfl
    · exact hquiet _ quiet passed
    · rcases other with ⟨hy, hbuf⟩ | ⟨hshut, herr⟩
      · exact hquiet _ hy hbuf
      · obtain ⟨hdone, hbuf⟩ := (hs.halves half hpc _).2 hshut
        exact ⟨hbuf, herr, .inr ⟨hdone, hshut⟩⟩

/-! ## What keeps a session from resting -/

/-- Something can be read from a socket that is not quiet. -/
theorem exists_read (hcap : 0 < cap) (h : ¬ Quiet (s.socks x)) :
    (∃ data s₁, s.read x cap 1 = some (data, s₁)) ∨ s.readsEnd x cap = true
      ∨ (s.socks x).errored = true := by
  rcases herr : (s.socks x).errored with _ | _
  · rcases hqueue : (s.socks x).queue with _ | ⟨b, queue⟩
    · refine .inr (.inl ?_)
      rcases heof : (s.socks x).eof with _ | _
      · exact absurd ⟨hqueue, heof, herr⟩ h
      · simp [State.readsEnd, hqueue, heof]
    · exact .inl ⟨_, _, if_pos ⟨Nat.one_pos, hcap, by simp [hqueue]⟩⟩
  · exact .inr (.inr rfl)

section Rests

variable (hr : Rests c port s)
include hr

theorem Rests.elim (input : Input) {pc : Pc} (hpc : s.pc = pc) (hwrite : input.isWriteError = false)
    (h : ∃ s', next c port s pc input = some s' ∧ s'.pc ≠ pc) : False := by
  subst hpc
  obtain ⟨s', hnext, hne⟩ := h
  exact hne (congrArg State.pc (hr input s' hwrite hnext))

/-- There is nothing to be read where the session reads. -/
theorem Rests.quiet {pc : Pc} (hpc : s.pc = pc) (hlive : pc.isDone = false) (hcap : 0 < cap)
    (hread : ∀ data s₁, s.read x cap 1 = some (data, s₁) →
      ∃ s', next c port s pc (.read x 1) = some s' ∧ s'.pc ≠ pc)
    (hend : s.readsEnd x cap = true →
      next c port s pc (.readEnd x) = some (s.finish (.ok ())))
    (herr : (s.socks x).errored = true →
      ∃ result, next c port s pc (.readError x "") = some (s.finish result)) :
    Quiet (s.socks x) := by
  have hdone : ∀ result, (s.finish result).pc ≠ pc := by
    rintro result rfl
    cases hlive
  by_contra hquiet
  rcases exists_read hcap hquiet with ⟨data, s₁, h⟩ | h | h
  · exact hr.elim _ hpc rfl (hread data s₁ h)
  · exact hr.elim _ hpc rfl ⟨_, hend h, hdone _⟩
  · obtain ⟨result, h⟩ := herr h
    exact hr.elim _ hpc rfl ⟨_, h, hdone _⟩

/-- A session that reads from the client alone. -/
theorem Rests.client (hbuf : 0 < c.config.receiveBufferSize)
    (hpc : s.pc = .readFirst ∨ s.pc = .readPost ∨ s.pc = .waitForClose) :
    Quiet (s.socks .client) := by
  rcases hpc with hpc | hpc | hpc
  · refine hr.quiet hpc rfl hbuf (fun data s₁ h => ⟨s₁.firstRead c port data, ?_, ?_⟩)
      (fun h => if_pos h) (fun h => ⟨_, if_pos h⟩)
    · simp [next, h]
    · simp only [State.firstRead]
      split_ifs <;> simp
  · exact hr.quiet hpc rfl hbuf
      (fun data s₁ h => ⟨_, congrArg (Option.map _) h, by simp [State.goto]⟩)
      (fun h => if_pos h) (fun h => ⟨_, if_pos h⟩)
  · exact hr.quiet hpc rfl Nat.one_pos
      (fun data s₁ h => ⟨_, congrArg (Option.map _) h, by simp [State.goto]⟩)
      (fun h => if_pos h) (fun h => ⟨_, if_pos h⟩)

theorem Rests.select (hbuf : 0 < c.config.receiveBufferSize) (hpc : s.pc = .select) (x : Side) :
    Quiet (s.socks x) :=
  hr.quiet hpc rfl hbuf (fun _ _ h => ⟨_, congrArg (Option.map _) h, by simp [State.goto]⟩)
    (fun h => if_pos h) (fun h => ⟨_, if_pos h⟩)

/-- A write goes on until everything is written. -/
theorem Rests.not_writing {rest : Bytes} (x : Side) (more : Bytes → Pc) (last : Pc)
    (hpc : s.pc = more rest) (hmore : more.Injective) (hlast : last ≠ more rest) (hrest : rest ≠ [])
    (hnext : next c port s (more rest) (.wrote x 1) = s.wrote x rest 1 more last) : False := by
  have hlen : 0 < rest.length := List.length_pos_iff.2 hrest
  refine hr.elim (.wrote x 1) hpc rfl ⟨_, hnext.trans (if_pos ⟨Nat.one_pos, hlen⟩), ?_⟩
  simp only [State.goto]
  split_ifs with hdrop
  · exact hlast
  · intro heq
    have hlen' := congrArg List.length (hmore heq)
    rw [List.length_drop] at hlen'
    omega

theorem Rests.copy {half : Side → Half} (hpc : s.pc = .copy half) (x : Side) :
    HalfRests (s.socks x) (half x) := by
  -- a step that changes a direction changes where the session stands
  have hstays : ∀ input s' h, input.isWriteError = false → s.copyStep half input = some s' →
      s'.pc = .copy (Function.update half x h) → h = half x := by
    intro input s' h hwrite hstep hpc'
    by_contra hne
    refine hr.elim input hpc hwrite ⟨s', hstep, fun heq => hne ?_⟩
    have hhalf := congrFun (Pc.copy.inj (hpc'.symm.trans heq)) x
    rwa [Function.update_self] at hhalf
  have hpassed : (half x).buf = [] := by
    rcases hbuf : (half x).buf with _ | ⟨b, buf⟩
    · rfl
    · have hsame := hstays (.wrote x.other 1) _ _ rfl (if_pos ⟨Nat.one_pos, by simp [hbuf]⟩)
        (by rw [Side.other_other]; rfl)
      have hdrop := congrArg Half.buf hsame
      simp [hbuf] at hdrop
  have herr : (s.socks x).errored = false := by
    rw [← Bool.not_eq_true]
    intro herr
    exact hr.elim (.readError x "") hpc rfl ⟨_, if_pos herr, by simp [State.finish, State.goto]⟩
  refine ⟨hpassed, herr, ?_⟩
  rcases hdone : (half x).readDone with _ | _
  · have hqueue : (s.socks x).queue = [] := by
      rcases hqueue : (s.socks x).queue with _ | ⟨b, queue⟩
      · rfl
      · have hread : s.read x 1 1 = some ([b], _) :=
          (if_pos ⟨Nat.one_pos, le_rfl, by simp [hqueue]⟩).trans (by rw [hqueue]; rfl)
        have hsame := hstays (.read x 1) _ _ rfl
          (by simp only [State.copyStep, hdone, hread]; rfl) rfl
        have hbuf := congrArg Half.buf hsame
        simp at hbuf
    refine .inl ⟨⟨hqueue, ?_, herr⟩, rfl⟩
    rw [← Bool.not_eq_true]
    intro heof
    have hsame := hstays (.readEnd x) _ _ rfl (if_pos (by simp [State.readsEnd, hqueue, heof])) rfl
    rw [← hsame] at hdone
    cases hdone
  · refine .inr ⟨rfl, ?_⟩
    by_contra hshut
    have hend : (half x.other.other).readDone = true ∧ (half x.other.other).buf = []
        ∧ (!(half x.other.other).shut) = true := by simpa [hdone, hpassed] using hshut
    rcases hother : (half x.other).shut with _ | _
    · have hsame := hstays (.shutdown x.other) _ _ rfl
        ((if_pos hend).trans (if_neg (by simp [hother]))) (by rw [Side.other_other]; rfl)
      rw [← hsame] at hshut
      exact hshut rfl
    · exact hr.elim (.shutdown x.other) hpc rfl
        ⟨_, (if_pos hend).trans (if_pos hother), by simp [State.finish, State.goto]⟩

theorem Rests.waits (hbuf : 0 < c.config.receiveBufferSize) (hs : Awake s) :
    s.pc.isDone = true ∨ Waits s := by
  cases hpc : s.pc with
  | readFirst =>
    exact .inr (.client (.inl hpc) (hr.client hbuf (.inl hpc)))
  | readPost => exact .inr (.client (.inr (.inl hpc)) (hr.client hbuf (.inr (.inl hpc))))
  | waitForClose => exact .inr (.client (.inr (.inr hpc)) (hr.client hbuf (.inr (.inr hpc))))
  | select => exact .inr (.select hpc (hr.select hbuf hpc))
  | copy half =>
    have hrest := hr.copy hpc
    obtain ⟨x, hopen⟩ := (hs.copy half hpc).open_
    have hquiet : ∀ y, (half y).shut = false → Quiet (s.socks y) := by
      intro y hy
      rcases (hrest y).waits with h | h
      · exact h.1
      · rw [hy] at h
        cases h.2
    refine .inr (.copy half hpc x (hquiet x hopen) (hrest x).passed ?_)
    rcases hshut : (half x.other).shut with _ | _
    · exact .inl ⟨hquiet _ hshut, (hrest _).passed⟩
    · exact .inr ⟨rfl, (hrest _).errored⟩
  | respond initial =>
    exact (hr.elim (.wrote .client 1) hpc rfl ⟨_, rfl, by simp⟩).elim
  | tlsAccept initial =>
    exact (hr.elim (.tls (.error "")) hpc rfl ⟨_, rfl, by simp [State.finish, State.goto]⟩).elim
  | getConnection data tls =>
    exact (hr.elim (.connection (.ok ())) hpc rfl ⟨_, rfl, by simp⟩).elim
  | sendToBackend rest tls =>
    have hrest := hs.sending
    rw [hpc] at hrest
    refine (hr.not_writing .backend (.sendToBackend · tls)
      (if tls then .tryUnwrap else .activateSockmap) hpc (fun _ _ h => by simpa using h) ?_ hrest
      rfl).elim
    split_ifs <;> simp
  | activateSockmap => exact (hr.elim (.sockmap false) hpc rfl ⟨_, rfl, by simp [State.goto]⟩).elim
  | insertPeer => exact (hr.elim (.sockmap false) hpc rfl ⟨_, rfl, by simp [State.goto]⟩).elim
  | deleteEntry => exact (hr.elim (.sockmap false) hpc rfl ⟨_, rfl, by simp [State.goto]⟩).elim
  | tryUnwrap =>
    refine (hr.elim .unwrap hpc rfl ⟨_, rfl, ?_⟩).elim
    simp only
    split_ifs <;> simp
  | writeAll dest rest =>
    have hrest := hs.sending
    rw [hpc] at hrest
    exact (hr.not_writing dest (.writeAll dest) .select hpc (fun _ _ h => by simpa using h)
      (by simp) hrest (if_pos rfl)).elim
  | done => exact .inl rfl

end Rests

/-! ## How much is left of a session -/

/-- A byte has to arrive, to be read and to be written, and the stream may end and may fail. -/
def Sock.left (k : Sock) : ℕ :=
  3 * k.pending.length + 2 * k.queue.length + (!k.eof).toNat + (!k.errored).toNat

def Half.left (h : Half) : ℕ := (!h.readDone).toNat + (!h.shut).toNat

def Pc.rank : Pc → ℕ
  | .readFirst => 16
  | .respond _ => 15
  | .tlsAccept _ => 14
  | .readPost => 13
  | .getConnection _ _ => 12
  | .sendToBackend _ _ => 10
  | .activateSockmap => 9
  | .insertPeer => 8
  | .deleteEntry => 7
  | .tryUnwrap => 6
  | .waitForClose | .select | .writeAll _ _ => 1
  | .copy half => 1 + ((half .client).left + (half .backend).left)
  | .done _ _ => 0

def State.leftAt (s : State) (x : Side) : ℕ := (s.socks x).left + (s.pc.held x).length

/-- How many steps can still change something, if there is no TLS handshake to come. -/
def State.left (s : State) : ℕ :=
  s.leftAt .client + s.leftAt .backend + s.pc.rank + s.adapterHolds.toNat

/-- What the TLS handshake has brought. -/
def State.brought (s : State) : ℕ :=
  if s.handshake.isSome then 3 * (s.socks .client).sent.length + 2 else 0

theorem State.leftAt_add (s : State) (x : Side) :
    s.leftAt .client + s.leftAt .backend = s.leftAt x + s.leftAt x.other := by
  cases x
  · rfl
  · exact add_comm _ _

theorem left_finish (result : Except ProxyError Unit) (hlive : s.pc.isDone = false) :
    (s.finish result).left < s.left := by
  have hrank : 0 < s.pc.rank := by
    cases hpc : s.pc <;> simp [hpc, Pc.rank, Pc.isDone] at hlive ⊢
  show s.leftAt .client + s.leftAt .backend + 0 + s.adapterHolds.toNat < s.left
  unfold State.left
  omega

/-- What is read is held afterwards. -/
theorem left_read {pc : Pc} (hread : s.read x cap n = some (data, s₁)) (hrank : pc.rank ≤ s.pc.rank)
    (hx : (pc.held x).length = (s.pc.held x).length + data.length)
    (hother : pc.held x.other = s.pc.held x.other) : (s₁.goto pc).left < s.left := by
  obtain ⟨rfl, rfl, hpos, -, hle⟩ := State.read_eq hread
  rw [List.length_take] at hx
  unfold State.left
  rw [s.leftAt_add x, State.leftAt_add _ x]
  simp only [State.leftAt, State.goto, State.setSock_self, hx, hother, Sock.left, List.length_drop,
    State.setSock_of_ne _ _ x.other_ne]
  show _ + s.adapterHolds.toNat < _
  omega

theorem left_write {pc : Pc} (hrank : pc.rank ≤ s.pc.rank)
    (hx : (pc.held x.other).length + 1 ≤ (s.pc.held x.other).length)
    (hother : pc.held x = s.pc.held x) : ((s.write x data).goto pc).left < s.left := by
  unfold State.left
  rw [s.leftAt_add x, State.leftAt_add _ x]
  simp only [State.leftAt, State.goto, State.write, State.setSock_self, hother, Sock.left,
    State.setSock_of_ne _ _ x.other_ne]
  show _ + s.adapterHolds.toNat < _
  omega

/-- Only where the session stands gets better. -/
theorem left_goto (hsocks : ∀ x, (s'.socks x).left ≤ (s.socks x).left)
    (hheld : ∀ x, (s'.pc.held x).length ≤ (s.pc.held x).length)
    (hrank : s'.pc.rank + s'.adapterHolds.toNat < s.pc.rank + s.adapterHolds.toNat) :
    s'.left < s.left := by
  have hclient := add_le_add (hsocks .client) (hheld .client)
  have hbackend := add_le_add (hsocks .backend) (hheld .backend)
  unfold State.left State.leftAt
  omega

theorem rank_copy_update (half : Side → Half) (x : Side) (h : Half) :
    (Pc.copy (Function.update half x h)).rank + (half x).left
      = (Pc.copy half).rank + h.left := by
  cases x
  · have hother : Function.update half .client h .backend = half .backend := rfl
    simp only [Pc.rank, Function.update_self, hother]
    omega
  · have hother : Function.update half .backend h .client = half .client := rfl
    simp only [Pc.rank, Function.update_self, hother]
    omega

theorem rank_copy_le {half : Side → Half} {h : Half} (hx : h.left ≤ (half x).left) :
    (Pc.copy (Function.update half x h)).rank ≤ (Pc.copy half).rank := by
  have hrank := rank_copy_update half x h
  omega

theorem rank_copy_lt {half : Side → Half} {h : Half} (hx : h.left < (half x).left) :
    (Pc.copy (Function.update half x h)).rank < (Pc.copy half).rank := by
  have hrank := rank_copy_update half x h
  omega

/-- A direction that stays as it is. -/
theorem goto_copy_self {half : Side → Half} {h : Half} (hpc : s.pc = .copy half) (hx : h = half x) :
    s.goto (.copy (Function.update half x h)) = s := by
  rw [hx, Function.update_eq_self, State.goto, ← hpc]

theorem held_copy_le {half : Side → Half} {h : Half} (hx : h.buf = (half x).buf) (y : Side) :
    ((Pc.copy (Function.update half x h)).held y).length ≤ ((Pc.copy half).held y).length := by
  have hself : Function.update (Pc.copy half).held x (half x).buf = (Pc.copy half).held :=
    Function.update_eq_self x _
  rw [held_copy_update, hx, hself]

theorem write_nil (s : State) (x : Side) : s.write x [] = s := by
  simp [State.write, State.setSock]

theorem redirect_left (s : State) (x y : Side) :
    ((s.redirect x).socks y).left = (s.socks y).left := by
  refine setSock_forall (Q := fun y k => k.left = (s.socks y).left) (fun _ => rfl) ?_ y
  rfl

theorem State.wrote_le {rest : Bytes} {more : Bytes → Pc} {last : Pc}
    (h : s.wrote x rest n more last = some s') : 0 < n ∧ n ≤ rest.length := by
  unfold State.wrote at h
  by_contra hn
  rw [if_neg hn] at h
  cases h

theorem Moves.left_lt {input : Input} (hm : Moves c port s input s') (hne : s' ≠ s) :
    s'.left < s.left ∨ ∃ data plain verifier, s.pc = .tlsAccept data
      ∧ s' = { s.setSock .client { Sock.new plain with written := (s.socks .client).written } with
        handshake := some verifier, pc := .readPost } := by
  cases hm with
  | handshake hpc => exact .inr ⟨_, _, _, hpc, rfl⟩
  | @first n data s₁ hpc hread =>
    have hlt : (s₁.goto (s₁.firstRead c port data).pc).left < s.left := by
      refine left_read hread ?_ ?_ ?_ <;>
      · rw [hpc]
        simp only [State.firstRead]
        split_ifs <;> simp [Pc.rank, Pc.held, holding, Side.other]
    exact .inl hlt
  | post hpc hread =>
    refine .inl (left_read hread ?_ ?_ ?_) <;> rw [hpc] <;>
      simp [Pc.rank, Pc.held, holding, Side.other]
  | stray hpc hread =>
    refine .inl (left_read hread ?_ ?_ ?_) <;> rw [hpc] <;>
      simp [Pc.rank, Pc.held, holding, Side.other]
  | @select x n data s₁ hpc hread =>
    refine .inl (left_read hread ?_ ?_ ?_) <;> rw [hpc] <;> simp [Pc.rank, Pc.held, holding]
  | @copyRead half x n data s₁ hpc hopen hread =>
    refine .inl (left_read hread ?_ ?_ ?_) <;> rw [hpc]
    · exact rank_copy_le le_rfl
    · simp [Pc.held]
    · simp [Pc.held]
  | @send rest tls n s₁ hpc hwrote =>
    obtain ⟨hpos, hle⟩ := State.wrote_le hwrote
    rw [State.wrote_eq hwrote]
    refine .inl (left_write ?_ ?_ ?_) <;> rw [hpc]
    · split_ifs <;> simp [Pc.rank]
    · split_ifs <;> simp [Pc.held, holding, Side.other] <;> omega
    · split_ifs <;> simp [Pc.held, holding]
  | @forward dest rest n s₁ hpc hwrote =>
    obtain ⟨hpos, hle⟩ := State.wrote_le hwrote
    rw [State.wrote_eq hwrote]
    refine .inl (left_write ?_ ?_ ?_) <;> rw [hpc]
    · split_ifs <;> simp [Pc.rank]
    · split_ifs <;> simp [Pc.held, holding] <;> omega
    · split_ifs <;> simp [Pc.held, holding]
  | @copyWrite half x n hpc =>
    refine .inl (left_write ?_ ?_ ?_)
    · rw [hpc]
      exact rank_copy_le le_rfl
    · rw [hpc]
      simp only [Pc.held, Function.update_self, List.length_drop]
      by_contra hlen
      have htake : (half x.other).buf.take n = [] := by
        rw [List.take_eq_nil_iff, ← List.length_eq_zero_iff]
        omega
      have hdrop : (half x.other).buf.drop n = (half x.other).buf := by
        have happ := List.take_append_drop n (half x.other).buf
        rwa [htake, List.nil_append] at happ
      refine hne ?_
      rw [htake, write_nil]
      exact goto_copy_self hpc (by rw [hdrop])
    · simp [hpc, Pc.held]
  | @copyEnd half x hpc hend =>
    have hopen : (half x).readDone = false := by
      rw [← Bool.not_eq_true]
      exact fun hdone => hne (goto_copy_self hpc (by rw [← hdone]))
    refine .inl (left_goto (fun _ => le_rfl) ?_ (Nat.add_lt_add_right ?_ _))
    · rw [hpc]
      refine fun y => held_copy_le ?_ y
      rfl
    · rw [hpc]
      exact rank_copy_lt (by simp [Half.left, hopen])
  | @copyShut half x hpc hend =>
    have hopen : (half x.other).shut = false := by
      rw [← Bool.not_eq_true]
      exact fun hshut => hne (goto_copy_self hpc (by rw [← hshut]))
    refine .inl (left_goto (fun _ => le_rfl) ?_ (Nat.add_lt_add_right ?_ _))
    · rw [hpc]
      refine fun y => held_copy_le ?_ y
      rfl
    · rw [hpc]
      exact rank_copy_lt (by simp [Half.left, hopen])
  | respond hpc =>
    exact .inl (left_goto (fun _ => le_rfl) (by simp [hpc, Pc.held]) (by simp [hpc, Pc.rank]))
  | connect hpc =>
    refine .inl (left_goto (fun _ => le_rfl) (by simp [hpc, Pc.held]) ?_)
    rw [hpc]
    simp only [Pc.rank, Bool.toNat_true]
    omega
  | refuse e hpc => exact .inl (left_finish (.error e) (by rw [hpc]; rfl))
  | skip hpc | undo hpc =>
    exact .inl (left_goto (fun _ => le_rfl) (by simp [hpc, Pc.held, State.goto])
      (by simp [hpc, Pc.rank, State.goto]))
  | entry hpc hmap | peer hpc =>
    exact .inl (left_goto (fun x => (redirect_left s _ x).le) (by simp [hpc, Pc.held, State.goto])
      (by simp [hpc, Pc.rank, State.goto, State.redirect, State.setSock]))
  | delete deleted hpc =>
    refine .inl (left_goto ?_ (by simp [hpc, Pc.held, State.goto])
      (by simp [hpc, Pc.rank, State.goto, State.setSock]))
    exact setSock_forall (Q := fun y k => k.left ≤ (s.socks y).left) (fun _ => le_rfl) le_rfl
  | unwrap hpc =>
    refine .inl (left_goto (fun _ => le_rfl) ?_ ?_)
    · intro x
      simp only
      split_ifs <;> simp [hpc, Pc.held]
    · simp only
      split_ifs <;> simp [hpc, Pc.rank, Half.left]
  | copyDone hpc | close hpc | selectEnd hpc => exact .inl (left_finish _ (by rw [hpc]; rfl))
  | early hpc =>
    refine .inl (left_finish _ ?_)
    rcases hpc with hpc | hpc <;> rw [hpc] <;> rfl
  | fail result herr hlive hpc => exact .inl (left_finish _ hlive)

theorem brought_eq (hhand : s'.handshake = s.handshake)
    (hsent : ∀ y, (s'.socks y).sent = (s.socks y).sent) : s'.brought = s.brought := by
  unfold State.brought
  rw [hhand, hsent]

/-- A peer's socket changes while the session waits. -/
theorem left_setSock {k : Sock} (hk : k.left < (s.socks x).left) :
    (s.setSock x k).left < s.left := by
  unfold State.left
  rw [s.leftAt_add x, State.leftAt_add _ x]
  simp only [State.leftAt, State.setSock_self, State.setSock_of_ne _ _ x.other_ne]
  show k.left + (s.pc.held x).length + (_ + (s.pc.held x.other).length) + s.pc.rank
    + s.adapterHolds.toNat < _
  omega

theorem left_write_nothing (s : State) (x : Side) (data : Bytes) :
    (s.write x data).left = s.left := by
  have hsocks : ∀ y, ((s.write x data).socks y).left = (s.socks y).left := by
    refine setSock_forall (Q := fun y k => k.left = (s.socks y).left) (fun _ => rfl) ?_
    rfl
  unfold State.left State.leftAt
  rw [hsocks, hsocks]
  rfl

theorem left_arrive (hpos : 0 < n) (hle : n ≤ (s.socks x).pending.length) :
    (s.arrive x n).left < s.left := by
  by_cases hred : (s.socks x).redirect = true
  · rw [arrive_of_redirect hred, left_write_nothing]
    refine left_setSock ?_
    simp only [Sock.left, List.length_drop]
    omega
  · rw [arrive_of_not_redirect hred]
    refine left_setSock ?_
    simp only [Sock.left, List.length_drop, List.length_append, List.length_take]
    omega

theorem setSock_same {k : Sock} (hk : k = s.socks x) : s.setSock x k = s := by
  rw [hk, State.setSock, Function.update_eq_self]

theorem step_spends {a : Action} (hs : Awake s) (hchanges : Changes c port s a)
    (h : step c port s a = some s') : 1 + s'.left + s.brought ≤ s.left + s'.brought := by
  have hne : s' ≠ s := fun heq => hchanges (heq ▸ h)
  -- without a handshake nothing is brought
  have hspent : s'.left < s.left → s'.handshake = s.handshake →
      (∀ y, (s'.socks y).sent = (s.socks y).sent) →
      1 + s'.left + s.brought ≤ s.left + s'.brought := by
    intro hlt hhand hsent
    rw [brought_eq hhand hsent]
    omega
  have hsteps := steps_of_step h
  cases hsteps with
  | arrive live pos le =>
    exact hspent (left_arrive pos le) (arrive_streams s _ _).1 (arrive_streams s _ _).2
  | @eof x live pending =>
    refine hspent (left_setSock ?_) rfl (setSock_sent rfl)
    have heof : (s.socks x).eof = false := by
      rw [← Bool.not_eq_true]
      exact fun heof => hne (setSock_same (by rw [← heof]))
    simp [Sock.left, heof]
  | @error x live =>
    refine hspent (left_setSock ?_) rfl (setSock_sent rfl)
    have herr : (s.socks x).errored = false := by
      rw [← Bool.not_eq_true]
      exact fun herr => hne (setSock_same (by rw [← herr]))
    simp [Sock.left, herr]
  | drops =>
    refine hspent (left_goto (fun _ => le_rfl) (fun _ => le_rfl) ?_) rfl fun _ => rfl
    have hholds : s.adapterHolds = true := by
      rw [← Bool.not_eq_false]
      exact fun hholds => hne (by rw [← hholds])
    simp [hholds]
  | go hm =>
    rcases hm.left_lt hne with hlt | ⟨data, plain, verifier, hpc, rfl⟩
    · rcases hm.streams with ⟨hhand, hsent⟩ | ⟨_, _, hpc, -, -, -⟩
      · exact hspent hlt hhand hsent
      · have hplain : s.brought = 0 := by rw [State.brought, hs.plain (by rw [hpc]; rfl)]; rfl
        omega
    · have hplain : s.brought = 0 := by rw [State.brought, hs.plain (by rw [hpc]; rfl)]; rfl
      rw [hplain]
      show 1 + ((3 * plain.length + 2 * 0 + 1 + 1 + 0) + ((s.socks .backend).left + 0) + 13
        + s.adapterHolds.toNat) + 0 ≤ s.left + (3 * plain.length + 2)
      unfold State.left State.leftAt
      rw [hpc]
      simp only [Pc.rank]
      omega

/-! ## Whole sessions -/

/-- A session takes a bounded number of steps that change something: three for a byte, with what the
TLS handshake brings, and a few more.  It can take such a step by itself exactly if it is not over
and does not wait for its peers. -/
theorem waits_iff_rests (c : Shared) (port : UInt16) (hbuf : 0 < c.config.receiveBufferSize)
    {client backend : Bytes} {as : List Action} {s : State}
    (hrun : run (step c port) (start client backend) as = some s) :
    (Rests c port s ↔ s.pc.isDone = true ∨ Waits s)
      ∧ (EachStep (step c port) (Changes c port) (start client backend) as → as.length
        ≤ 3 * (client.length + backend.length + (s.socks .client).sent.length) + 22) := by
  have hs : Awake s :=
    run_inv (fun _ _ _ hs h => step_awake hs h) (awake_start client backend) hrun
  refine ⟨⟨fun hr => hr.waits hbuf hs, fun h => ?_⟩, fun hchanges => ?_⟩
  · rcases h with hdone | hw
    · intro input s' _ h
      obtain ⟨result, dropped, hpc⟩ : ∃ result dropped, s.pc = .done result dropped := by
        cases hpc : s.pc <;> simp [hpc, Pc.isDone] at hdone ⊢
      rw [hpc] at h
      cases h
    · exact hw.rests hs hbuf
  · have hlen := length_le_of_spends (fun _ _ _ hs h => step_awake hs h)
      (fun _ _ _ hs ha h => step_spends hs ha h) (awake_start client backend) hchanges hrun
    have hstart : (start client backend).left = 3 * client.length + 3 * backend.length + 20 := by
      simp [State.left, State.leftAt, start, Sock.new, Sock.left, Pc.held, Pc.rank]
      omega
    have hbrought : s.brought ≤ 3 * (s.socks .client).sent.length + 2 := by
      unfold State.brought
      split_ifs <;> omega
    omega

/-- The backend ends after the sockets were handed to the kernel: the session goes on waiting for
the client. -/
def backendGone : List Action :=
  [.arrive .client 1, .go (.read .client 1), .go (.connection (.ok ())), .go (.wrote .backend 1),
    .go (.sockmap true), .go (.sockmap true), .arrive .backend 1, .eof .backend]

theorem waits_iff_rests_backendGone :
    ∃ s, run (step (sockmapShared 3306) 3306) (start [1] [3]) backendGone = some s
      ∧ (s.socks .backend).eof = true ∧ Waits s ∧ Rests (sockmapShared 3306) 3306 s := by
  have hrun : ∃ s, run (step (sockmapShared 3306) 3306) (start [1] [3]) backendGone = some s
      ∧ (s.socks .backend).eof = true ∧ Waits s :=
    ⟨_, rfl, rfl, .client (.inr (.inr rfl)) ⟨rfl, rfl, rfl⟩⟩
  obtain ⟨s, hs, heof, hw⟩ := hrun
  exact ⟨s, hs, heof, hw,
    (waits_iff_rests (sockmapShared 3306) 3306 (by decide) hs).1.2 (.inr hw)⟩

end Session

end ProtocolProxy
