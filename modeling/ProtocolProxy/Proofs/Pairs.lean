import ProtocolProxy.Proofs.PairInvariant

/-!
# The four maps stay in step

The steps of the calls, one by one, and what holds in every state of every run.
-/

namespace ProtocolProxy

namespace Pairs

open Machine Sockmap

variable {ι : Type*} {s s' : State ι} {c c' b : RawFd} {x x' : Client ι} {i j : ι}

/-! ## Reading the maps back -/

@[simp] theorem conn_put : (s.put c x).conn = s.conn := rfl

@[simp] theorem pair_put : (s.put c x).pair = s.pair := rfl

variable [DecidableEq ι]

@[simp] theorem pair_setConn {v : Option RawFd} : (s.setConn i c v).pair = s.pair := by
  funext j c'
  unfold State.pair State.setConn
  by_cases h : j = i
  · subst h
    simp
  · simp [h]

@[simp] theorem conn_setPair {v : Option RawFd} : (s.setPair i c v).conn = s.conn := by
  funext j c'
  unfold State.conn State.setPair
  by_cases h : j = i
  · subst h
    simp
  · simp [h]

theorem conn_setConn {v : Option RawFd} :
    (s.setConn i c v).conn j c' = if j = i ∧ c' = c then v else s.conn j c' := by
  unfold State.conn State.setConn
  by_cases hj : j = i
  · subst hj
    by_cases hc : c' = c
    · simp [hc]
    · simp [hc]
  · simp [hj]

theorem pair_setPair {v : Option RawFd} :
    (s.setPair i c v).pair j c' = if j = i ∧ c' = c then v else s.pair j c' := by
  unfold State.pair State.setPair
  by_cases hj : j = i
  · subst hj
    by_cases hc : c' = c
    · simp [hc]
    · simp [hc]
  · simp [hj]

/-! ## What a step can be -/

/-- What a move of client `c`, which is `x`, can be. -/
inductive Resumes (s : State ι) (c : RawFd) (x : Client ι) : Move → State ι → Prop
  | cached (b : RawFd) (at_ : x.call = .idle) (open_ : x.closed = false)
      (found : s.conn x.adapter c = some b) : Resumes s c x .getConnection s
  | miss (at_ : x.call = .idle) (open_ : x.closed = false) (found : s.conn x.adapter c = none) :
      Resumes s c x .getConnection (s.put c { x with call := .dialing })
  | dialFails (at_ : x.call = .dialing) :
      Resumes s c x .dialFails (s.put c { x with call := .idle })
  | dial (b : RawFd) (sock : Socket) (at_ : x.call = .dialing) (unused : s.fds b = none) :
      Resumes s c x (.dial b sock) { s.put c { x with call := .dialed b } with
        fds := Function.update s.fds b (some sock) }
  | nodelayFails (b : RawFd) (at_ : x.call = .dialed b) :
      Resumes s c x .nodelayFails { s.put c { x with call := .idle } with
        fds := Function.update s.fds b none }
  | connect (b : RawFd) (at_ : x.call = .dialed b) :
      Resumes s c x .connect ((s.setConn x.adapter c (some b)).put c { x with call := .idle })
  | notActivated : Resumes s c x .activateSockmap s
  | activate (b : RawFd) (at_ : x.call = .idle) (open_ : x.closed = false)
      (inactive : x.activated = false) (found : s.conn x.adapter c = some b) :
      Resumes s c x .activateSockmap (s.put c { x with call := .inserting b })
  | unavailable (b : RawFd) (k : MapAnswers) (at_ : x.call = .inserting b)
      (unavailable : s.available = false) :
      Resumes s c x (.insertPair k) (s.put c { x with call := .idle })
  | notInserted (b : RawFd) (k : MapAnswers) (at_ : x.call = .inserting b)
      (failed : (insertPair s.fds s.inner k c b).2 = false) :
      Resumes s c x (.insertPair k) { s.put c { x with call := .idle } with
        inner := (insertPair s.fds s.inner k c b).1 }
  | inserted (b : RawFd) (k : MapAnswers) (at_ : x.call = .inserting b)
      (available : s.available = true) (done : (insertPair s.fds s.inner k c b).2 = true) :
      Resumes s c x (.insertPair k) { s.put c { x with call := .inserted b } with
        inner := (insertPair s.fds s.inner k c b).1 }
  | register (b : RawFd) (at_ : x.call = .inserted b) :
      Resumes s c x .registerPair
        ((s.setPair x.adapter c (some b)).put c { x with call := .idle, activated := true })
  | unpair (b : RawFd) (at_ : x.call = .idle) (closed : x.closed = true)
      (found : s.pair x.adapter c = some b) :
      Resumes s c x .closeConnection
        ((s.setPair x.adapter c none).put c { x with call := .unpairing b, activated := false })
  | notPaired (at_ : x.call = .idle) (closed : x.closed = true)
      (found : s.pair x.adapter c = none) :
      Resumes s c x .closeConnection (s.put c { x with call := .disconnecting, activated := false })
  | remove (b : RawFd) (at_ : x.call = .unpairing b) :
      Resumes s c x .removePair { s.put c { x with call := .disconnecting } with
        inner := removePair s.inner true c }
  | disconnect (b : RawFd) (at_ : x.call = .disconnecting) (found : s.conn x.adapter c = some b) :
      Resumes s c x .disconnect { (s.setConn x.adapter c none).forget c with
        released := Function.update s.released b true }
  | notConnected (at_ : x.call = .disconnecting) (found : s.conn x.adapter c = none) :
      Resumes s c x .disconnect (s.forget c)

theorem resumes_of_resume {m : Move} (h : s.resume c x m = some s') : Resumes s c x m s' := by
  rcases m with _ | _ | ⟨b, sock⟩ | _ | _ | _ | k | _ | _ | _ | _ <;>
    simp only [State.resume] at h
  · split_ifs at h with hcall
    rcases hfound : s.conn x.adapter c with _ | b <;> rw [hfound] at h <;>
      obtain rfl := Option.some.inj h
    · exact .miss hcall.1 hcall.2 hfound
    · exact .cached b hcall.1 hcall.2 hfound
  · split_ifs at h with hcall
    obtain rfl := Option.some.inj h
    exact .dialFails hcall
  · split_ifs at h with hcall
    obtain rfl := Option.some.inj h
    exact .dial b sock hcall.1 hcall.2
  · split at h
    next b hcall =>
      obtain rfl := Option.some.inj h
      exact .nodelayFails b hcall
    next => cases h
  · split at h
    next b hcall =>
      obtain rfl := Option.some.inj h
      exact .connect b hcall
    next => cases h
  · split_ifs at h with hcall havail
    · obtain rfl := Option.some.inj h
      exact .notActivated
    · rcases hfound : s.conn x.adapter c with _ | b <;> rw [hfound] at h <;> simp only at h
      · obtain rfl := Option.some.inj h
        exact .notActivated
      · split_ifs at h with hb
        · obtain rfl := Option.some.inj h
          exact .notActivated
        · obtain rfl := Option.some.inj h
          exact .activate b hcall.1 hcall.2.1 hcall.2.2 hfound
  · split at h
    next b hcall =>
      split_ifs at h with havail hok
      · obtain rfl := Option.some.inj h
        exact .unavailable b k hcall (by simpa using havail)
      · obtain rfl := Option.some.inj h
        exact .inserted b k hcall (by simpa using havail) hok
      · obtain rfl := Option.some.inj h
        exact .notInserted b k hcall (by simpa using hok)
    next => cases h
  · split at h
    next b hcall =>
      obtain rfl := Option.some.inj h
      exact .register b hcall
    next => cases h
  · split_ifs at h with hcall
    rcases hfound : s.pair x.adapter c with _ | b <;> rw [hfound] at h <;>
      obtain rfl := Option.some.inj h
    · exact .notPaired hcall.1 hcall.2 hfound
    · exact .unpair b hcall.1 hcall.2 hfound
  · split at h
    next b hcall =>
      obtain rfl := Option.some.inj h
      exact .remove b hcall
    next => cases h
  · split_ifs at h with hcall
    rcases hfound : s.conn x.adapter c with _ | b <;> rw [hfound] at h <;>
      obtain rfl := Option.some.inj h
    · exact .notConnected hcall hfound
    · exact .disconnect b hcall hfound

inductive Steps (s : State ι) : Action ι → State ι → Prop
  | accept (i : ι) (c : RawFd) (sock : Socket) (unused : s.fds c = none)
      (gone : s.clients c = none) :
      Steps s (.accept i c sock) { s.put c ⟨i, sock, false, .idle, false⟩ with
        fds := Function.update s.fds c (some sock) }
  | hangup (c : RawFd) (x : Client ι) (client : s.clients c = some x) (at_ : x.call = .idle)
      (open_ : x.closed = false) :
      Steps s (.hangup c) { s.put c { x with closed := true } with
        fds := Function.update s.fds c none }
  | resume (c : RawFd) (x : Client ι) (m : Move) (s' : State ι) (client : s.clients c = some x)
      (resumes : Resumes s c x m s') : Steps s (.resume c m) s'
  | drop (b : RawFd) (released : s.released b = true) :
      Steps s (.drop b) { s with
        fds := Function.update s.fds b none, released := Function.update s.released b false }

theorem steps_of_step {a : Action ι} (h : step s a = some s') : Steps s a s' := by
  rcases a with ⟨i, c, sock⟩ | c | ⟨c, m⟩ | b <;> simp only [step] at h
  · split_ifs at h with hunused
    obtain rfl := Option.some.inj h
    exact .accept i c sock hunused.1 hunused.2
  · split at h
    next x hx =>
      split_ifs at h with hcall
      obtain rfl := Option.some.inj h
      exact .hangup c x hx hcall.1 hcall.2
    next => cases h
  · obtain ⟨x, hx, hr⟩ := Option.bind_eq_some_iff.1 h
    exact .resume c x m s' hx (resumes_of_resume hr)
  · split_ifs at h with hreleased
    obtain rfl := Option.some.inj h
    exact .drop b hreleased

/-! ## Steps that change the maps -/

theorem Kept.connect (hs : Kept s) (hx : s.clients c = some x) (hcall : x.call = .dialed b) :
    Kept ((s.setConn x.adapter c (some b)).put c { x with call := .idle }) := by
  obtain ⟨hconn, hact, hpair, halloc⟩ := hs.1.absent hx (.inr ⟨b, hcall⟩)
  have hown : s.Owns c b := ⟨x, hx, .inr hcall⟩
  set s' := (s.setConn x.adapter c (some b)).put c { x with call := .idle } with hs'
  have hconn' : s'.conn x.adapter c = some b := by
    rw [hs', conn_put, conn_setConn, if_pos ⟨rfl, rfl⟩]
  have hm : Moved s s' c x { x with call := .idle } := by
    refine ⟨rfl, rfl, id, rfl, fun j d hjd => ?_, fun j d _ => ?_, fun _ _ => rfl,
      fun _ _ _ _ => rfl⟩
    · rw [hs', conn_put, conn_setConn, if_neg hjd]
    · rw [hs', pair_put, pair_setConn]
  have hinv : Inv s' := by
    refine hs.1.move hx hm ?_ (fun b' hb' => ?_) (fun b' hb' => .inl hb') hs.1.keys hs.1.pairs
    · unfold State.fits
      rw [show s'.inner.allocatedPairs c = none from halloc]
      refine fits_absent hact ?_ (.inl rfl)
      rw [hs', pair_put, pair_setConn, hpair]
    · obtain rfl : b = b' := by simpa [hconn'] using hb'
      exact ⟨(hs.1.backend c b hown).1, (hs.1.backend c b hown).2.2, .inl hown⟩
  refine ⟨hinv, hs.2.of_inner hinv rfl fun d keys _ _ _ h => h.move hs.1 hx hm rfl ?_⟩
  rintro rfl
  rw [h.allocated] at halloc
  cases halloc

theorem Kept.disconnect (hs : Kept s) (hx : s.clients c = some x)
    (hcall : x.call = .disconnecting) (hfound : s.conn x.adapter c = some b) :
    Kept { (s.setConn x.adapter c none).forget c with
      released := Function.update s.released b true } := by
  have hf := hs.1.fits c x hx
  have hact := hf.disconnecting hcall
  have hown : s.Owns c b := ⟨x, hx, .inl hfound⟩
  have halloc : s.inner.allocatedPairs c = none := by
    have := hf.allocated
    simpa [hact, hcall] using this
  -- the connection is removed first, and then the client
  set s' : State ι := { (s.setConn x.adapter c none).put c { x with call := .idle } with
    released := Function.update s.released b true } with hs'
  have hconn' : s'.conn = (s.setConn x.adapter c none).conn := rfl
  have hpair' : s'.pair = (s.setConn x.adapter c none).pair := rfl
  have hnone : s'.conn x.adapter c = none := by
    rw [hconn', conn_setConn, if_pos ⟨rfl, rfl⟩]
  have hm : Moved s s' c x { x with call := .idle } := by
    refine ⟨rfl, rfl, id, rfl, fun j d hjd => ?_, fun j d _ => ?_, fun _ _ => rfl,
      fun _ _ _ _ => rfl⟩
    · rw [hconn', conn_setConn, if_neg hjd]
    · rw [hpair', pair_setConn]
  have hinv : Inv s' := by
    refine hs.1.move hx hm ?_ (fun b' hb' => ?_) (fun b' hb' => ?_) hs.1.keys hs.1.pairs
    · unfold State.fits
      rw [show s'.inner.allocatedPairs c = none from halloc]
      refine fits_absent hact ?_ (.inl rfl)
      have hpair := hf.pair_eq
      rw [hact] at hpair
      rw [hpair', pair_setConn]
      exact hpair
    · rw [hnone] at hb'
      simp at hb'
    · simp only [hs', Function.update_apply] at hb'
      split_ifs at hb' with h
      · exact .inr ⟨h ▸ hown, h ▸ (hs.1.backend c b hown).1⟩
      · exact .inl hb'
  have hkept : Kept s' := by
    refine ⟨hinv, hs.2.of_inner hinv rfl fun d keys _ _ _ h => h.move hs.1 hx hm rfl ?_⟩
    rintro rfl
    rw [h.allocated] at halloc
    cases halloc
  have hforget := hkept.forget_idle (Function.update_self _ _ _) hact hnone
  have heq : s'.forget c = { (s.setConn x.adapter c none).forget c with
      released := Function.update s.released b true } := by
    simp only [hs', State.forget, State.put, Function.update_idem]
  exact heq ▸ hforget

/-- A step that changes the client's entry in `sockmap_pairs`. -/
theorem Kept.setPair (hs : Kept s) (hx : s.clients c = some x) (hadapter : x'.adapter = x.adapter)
    (hsock : x'.sock = x.sock) (hclosed : x'.closed = x.closed) {v : Option RawFd}
    (hdialed : ∀ b, x'.call ≠ .dialed b)
    (hfits : Fits x' (s.conn x.adapter c) v (s.inner.allocatedPairs c).isSome) :
    Kept ((s.setPair x.adapter c v).put c x') := by
  set s' := (s.setPair x.adapter c v).put c x' with hs'
  have hconn' : s'.conn = s.conn := by rw [hs', conn_put, conn_setPair]
  have hm : Moved s s' c x x' := by
    refine ⟨hadapter, hsock, hclosed.trans, rfl, fun j d _ => by rw [hconn'], fun j d hjd => ?_,
      fun _ _ => rfl, fun _ _ _ _ => rfl⟩
    rw [hs', pair_put, pair_setPair, if_neg hjd]
  have hinv : Inv s' := by
    refine hs.1.move hx hm ?_ (fun b hb => ?_) (fun b hb => .inl hb) hs.1.keys hs.1.pairs
    · unfold State.fits
      rw [hconn', hadapter, hs', pair_put, pair_setPair, if_pos ⟨rfl, rfl⟩]
      exact hfits
    · rw [hconn'] at hb
      have hown : s.Owns c b := ⟨x, hx, .inl (hb.resolve_right (hdialed b))⟩
      exact ⟨(hs.1.backend c b hown).1, (hs.1.backend c b hown).2.2, .inl hown⟩
  exact ⟨hinv, hs.2.of_inner hinv rfl fun d _ _ _ _ h =>
    h.move hs.1 hx hm rfl fun _ => ⟨hconn', rfl⟩⟩

/-! ## What every run keeps -/

theorem Resumes.kept {m : Move} (h : Resumes s c x m s') (hs : Kept s) (hx : s.clients c = some x)
    (hassumed : Assumed s (.resume c m)) (hvacant : Vacant s (.resume c m)) : Kept s' := by
  have hf := hs.1.fits c x hx
  rcases h with ⟨b, hcall, hopen, hfound⟩ | ⟨hcall, hopen, hfound⟩ | hcall |
    ⟨b, sock, hcall, hunused⟩ | ⟨b, hcall⟩ | ⟨b, hcall⟩ | _ | ⟨b, hcall, hopen, hact, hfound⟩ |
    ⟨b, k, hcall, -⟩ | ⟨b, k, hcall, hok⟩ | ⟨b, k, hcall, -, hok⟩ | ⟨b, hcall⟩ |
    ⟨b, hcall, hclosed, hfound⟩ | ⟨hcall, hclosed, hfound⟩ | ⟨b, hcall⟩ | ⟨b, hcall, hfound⟩ |
    ⟨hcall, hfound⟩
  · exact hs
  · refine hs.put hx rfl rfl rfl ?_ (by simp)
    obtain ⟨h₁, h₂, h₃, h₄, h₅, h₆, h₇⟩ := hf
    constructor <;> simp_all
  · refine hs.put hx rfl rfl rfl ?_ (by simp)
    obtain ⟨h₁, h₂, h₃, h₄, h₅, h₆, h₇⟩ := hf
    constructor <;> simp_all
  · exact hs.dial hx hcall hunused hassumed
  · exact hs.nodelayFails hx hcall
  · exact hs.connect hx hcall
  · exact hs
  · refine hs.put hx rfl rfl rfl ?_ (by simp)
    obtain ⟨h₁, h₂, h₃, h₄, h₅, h₆, h₇⟩ := hf
    constructor <;> simp_all
  · refine hs.put hx rfl rfl rfl ?_ (by simp)
    obtain ⟨h₁, h₂, h₃, h₄, h₅, h₆, h₇⟩ := hf
    constructor <;> simp_all
  · rw [hs.notInserted hx hcall hassumed hvacant hok]
    refine hs.put hx rfl rfl rfl ?_ (by simp)
    obtain ⟨h₁, h₂, h₃, h₄, h₅, h₆, h₇⟩ := hf
    constructor <;> simp_all
  · exact hs.insertPair hx hcall hvacant hok
  · refine hs.setPair hx (by rfl) (by rfl) (by rfl) (by simp) ?_
    obtain ⟨h₁, h₂, h₃, h₄, h₅, h₆, h₇⟩ := hf
    constructor <;> simp_all
  · refine hs.setPair hx (by rfl) (by rfl) (by rfl) (by simp) ?_
    obtain ⟨h₁, h₂, h₃, h₄, h₅, h₆, h₇⟩ := hf
    constructor <;> simp_all
  · refine hs.put hx rfl rfl rfl ?_ (by simp)
    obtain ⟨h₁, h₂, h₃, h₄, h₅, h₆, h₇⟩ := hf
    constructor <;> simp_all
  · exact hs.removePair hx hcall
  · exact hs.disconnect hx hcall hfound
  · exact hs.forget_idle hx (hf.disconnecting hcall) hfound

theorem step_kept {a : Action ι} (hs : Kept s) (hassumed : Assumed s a) (hvacant : Vacant s a)
    (h : step s a = some s') : Kept s' := by
  rcases steps_of_step h with ⟨i, c, sock, hunused, hgone⟩ | ⟨c, x, hx, hcall, hopen⟩ |
    ⟨c, x, m, s', hx, hr⟩ | ⟨b, hreleased⟩
  · exact hs.accept hunused hgone hassumed
  · exact hs.hangup hx hcall hopen
  · exact hr.kept hs hx hassumed hvacant
  · exact hs.drop hreleased

/-- A call that fails touches no map, except for what it undoes itself. -/
theorem Kept.maps_of_failing (hs : Kept s) {a : Action ι} (hassumed : Assumed s a)
    (hvacant : Vacant s a) (h : step s a = some s') (hfail : Failing s a) : s'.maps = s.maps := by
  rcases steps_of_step h with _ | _ | ⟨c, x, m, s', hx, hr⟩ | _
  · exact hfail.elim
  · exact hfail.elim
  · rcases hr with _ | _ | _ | _ | _ | _ | _ | _ | _ | ⟨b, k, hcall, hok⟩ |
      ⟨b, k, hcall, havail, hok⟩ | _ | _ | _ | _ | _ | _ <;> try rfl
    · exact hfail.elim
    · rw [hs.notInserted hx hcall hassumed hvacant hok]
      rfl
    · rcases hfail x b hx hcall with hno | hno
      · cases havail.symm.trans hno
      · cases hok.symm.trans hno
    all_goals exact hfail.elim
  · exact hfail.elim

theorem clients_of_disconnect (h : step s (.resume c .disconnect) = some s') :
    s'.clients c = none := by
  obtain ⟨x, -, hr⟩ := Option.bind_eq_some_iff.1 h
  cases resumes_of_resume hr with
  | disconnect | notConnected => exact Function.update_self _ _ _

/-- In every state of every run in which no pair is inserted over the key of a closed client's:
`peers` has exactly the entries of the allocated pairs; the clients in some adapter's
`sockmap_pairs` are those with an allocated pair, a client apart whose call has just done one of the
two and is about to do the other; the backend noted there is the client's connection; a call that
fails leaves the four maps as they are; a client is in no map once `close_connection` has returned;
and dropping the loader empties `peers`. -/
theorem maps_in_step {available : Bool} {as : List (Action ι)}
    (hassumed : EachStep step Assumed (new available) as)
    (hvacant : EachStep step Vacant (new available) as)
    (hrun : run step (new available) as = some s) :
    PeersExact s
      ∧ (∀ c, Settled s c →
          ((∃ i b, s.pair i c = some b) ↔ ∃ keys, s.inner.allocatedPairs c = some keys))
      ∧ (∀ i c b, s.pair i c = some b → s.conn i c = some b)
      ∧ (∀ a s', Assumed s a → Vacant s a → step s a = some s' → Failing s a → s'.maps = s.maps)
      ∧ (∀ c s', step s (.resume c .disconnect) = some s' → Gone s' c)
      ∧ ∀ accepts, (∀ c, s.inner.allocatedPairs c ≠ none → c ∈ accepts) →
          ∀ key, (s.inner.drop true accepts).peers key = none := by
  have hs : Kept s :=
    run_inv_of_each (fun _ _ _ hs hC h => step_kept hs hC.1 hC.2 h) kept_new
      (hassumed.and hvacant) hrun
  refine ⟨hs.2, fun c hsettled => ⟨?_, ?_⟩, fun i c b h => ?_, ?_, ?_, ?_⟩
  · rintro ⟨i, b, h⟩
    obtain ⟨x, hx, rfl⟩ := hs.1.pair_client i c b h
    have hf := hs.1.fits c x hx
    refine Option.isSome_iff_exists.1 (hf.allocated.2 (.inl ?_))
    by_contra hne
    have hpair := hf.pair_eq
    simp [h, hne] at hpair
  · rintro ⟨keys, hkeys⟩
    obtain ⟨b, sock, backendSock, h⟩ := hs.2.1 c keys hkeys
    obtain ⟨i, hi⟩ := h.connected
    obtain ⟨x, hx, rfl⟩ := hs.1.conn_client i c b hi
    have hf := hs.1.fits c x hx
    rcases hf.allocated.1 (by rw [hkeys]; rfl) with hact | ⟨b', hb'⟩
    · refine ⟨x.adapter, b, ?_⟩
      rw [hf.pair_eq, hact]
      exact hi
    · obtain ⟨h₁, h₂⟩ := hsettled x hx b'
      exact (hb'.elim h₁ h₂).elim
  · obtain ⟨x, hx, rfl⟩ := hs.1.pair_client i c b h
    have hf := hs.1.fits c x hx
    rw [hf.pair_eq] at h
    split_ifs at h
    exact h
  · intro a s' hassumed hvacant h hfail
    exact hs.maps_of_failing hassumed hvacant h hfail
  · intro c s' h
    have hs' : Kept s' := step_kept hs (by exact trivial) (by exact trivial) h
    exact hs'.gone (clients_of_disconnect h)
  · intro accepts hall
    exact hs.tracked.peers_drop hall

section Runs

variable {fds : Fds} {sock t : Socket} {fd : RawFd}

theorem keyUnused_none : KeyUnused (fun _ => none) sock := by
  intro fd t h
  cases h

theorem KeyUnused.update (h : KeyUnused fds sock)
    (hne : buildTupleKey t ≠ buildTupleKey sock) :
    KeyUnused (Function.update fds fd (some t)) sock := by
  intro fd' t' ht' key hkey hsock
  rw [Function.update_apply] at ht'
  split_ifs at ht'
  · obtain rfl := Option.some.inj ht'
    exact hne (hkey.trans hsock.symm)
  · exact h fd' t' ht' key hkey hsock

/-- One socket was opened, then another, and the first was closed again. -/
theorem KeyUnused.closed {u : Socket} {fd' : RawFd} (h : KeyUnused fds sock)
    (hne : buildTupleKey u ≠ buildTupleKey sock) :
    KeyUnused (Function.update (Function.update (Function.update fds fd (some t)) fd' (some u)) fd
      none) sock := by
  intro g v hv key hkey hsock
  simp only [Function.update_apply] at hv
  split_ifs at hv
  · obtain rfl := Option.some.inj hv
    exact hne (hkey.trans hsock.symm)
  · exact h g v hv key hkey hsock

end Runs

/-- A client from port 40000. -/
def clientSock : Socket := .inet ⟨192, 0, 2, 1⟩ 5432 ⟨198, 51, 100, 7⟩ 40000

/-- A connection to the backend, from the given port. -/
def backendSock (port : UInt16) : Socket := .inet ⟨192, 0, 2, 1⟩ port ⟨203, 0, 113, 1⟩ 5432

/-- The calls that `run_client` makes for a client from port 40000 that is activated. -/
def session (c backend : RawFd) (port : UInt16) : List (Action Unit) :=
  [.accept () c clientSock, .resume c .getConnection,
    .resume c (.dial backend (backendSock port)), .resume c .connect, .resume c .activateSockmap,
    .resume c (.insertPair ⟨true, true, true, true⟩), .resume c .registerPair]

/-- One client of one adapter, whose socket is closed and whose pair is still there. -/
theorem maps_in_step_one_client :
    ∃ s, run step (new true) (session 7 8 40001 ++ [.hangup 7]) = some s ∧ s.fds 7 = none
      ∧ s.inner.allocatedPairs 7 ≠ none ∧ PeersExact s := by
  have hrun : ∃ s, run step (new true) (session 7 8 40001 ++ [.hangup 7]) = some s
      ∧ s.fds 7 = none ∧ s.inner.allocatedPairs 7 ≠ none := ⟨_, rfl, rfl, Option.some_ne_none _⟩
  obtain ⟨s, hs, hclosed, hpair⟩ := hrun
  refine ⟨s, hs, hclosed, hpair, (maps_in_step ?_ ?_ hs).1⟩
  · refine .cons keyUnused_none rfl <| .cons trivial rfl <| .cons ?_ rfl <| .cons trivial rfl <|
      .cons trivial rfl <| .cons rfl rfl <| .cons trivial rfl <| .cons trivial rfl trivial
    exact keyUnused_none.update (by decide)
  · refine .cons trivial rfl <| .cons trivial rfl <| .cons trivial rfl <| .cons trivial rfl <|
      .cons trivial rfl <| .cons ?_ rfl <| .cons trivial rfl <| .cons trivial rfl trivial
    intro x b _ _ d y keys _ _ hkeys
    cases hkeys

/-- The client hangs up and its peer connects again from the same port, under another number, before
`close_connection` is called for the first socket.  The second pair takes over the entry of the
first, and `close_connection` then deletes it. -/
theorem reconnected_entry_deleted :
    ∃ s, run step (new true) (session 7 8 40001 ++ .hangup 7 :: session 9 10 40002 ++
        [.resume 7 .closeConnection, .resume 7 .removePair]) = some s
      ∧ EachStep step Assumed (new true) (session 7 8 40001 ++ .hangup 7 :: session 9 10 40002 ++
        [.resume 7 .closeConnection, .resume 7 .removePair])
      ∧ s.fds 9 = some clientSock ∧ s.pair () 9 = some 10
      ∧ (∃ keys, s.inner.allocatedPairs 9 = some keys ∧ buildTupleKey clientSock = some keys.1
        ∧ s.inner.peers keys.1 = none)
      ∧ ¬ PeersExact s := by
  refine ⟨_, rfl, ?_, rfl, rfl, ⟨_, rfl, rfl, rfl⟩, fun h => h.peers_ne_none (c := 9) rfl rfl⟩
  · refine .cons keyUnused_none rfl <| .cons trivial rfl <| .cons ?_ rfl <| .cons trivial rfl <|
      .cons trivial rfl <| .cons rfl rfl <| .cons trivial rfl <| .cons trivial rfl <|
      .cons ?_ rfl <| .cons trivial rfl <| .cons ?_ rfl <| .cons trivial rfl <|
      .cons trivial rfl <| .cons rfl rfl <| .cons trivial rfl <| .cons trivial rfl <|
      .cons trivial rfl trivial
    · exact keyUnused_none.update (by decide)
    · exact keyUnused_none.closed (by decide)
    · exact (keyUnused_none.closed (by decide)).update (by decide)

end Pairs

end ProtocolProxy
