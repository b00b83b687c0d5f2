import ProtocolProxy.Proofs.MutualTls

/-!
# How an SSLRequest is recognised

`run_client` looks at the first read, whatever it returns.  A client that sends an SSLRequest and
waits is answered and upgraded if that read returns all eight bytes (`Upgrade`); if it returns
fewer, they are routed and sent to a backend as the start of a plain session
(`upgrading_iff_wholeRequest`).  A client that sends anything else is never answered (`Silent`).
-/

namespace ProtocolProxy

namespace Session

open Machine

variable {c : Shared} {port : UInt16} {s s' : State} {client backend : Bytes} {input : Input}

/-- Where a session stands after its handshake. -/
def Pc.secured : Pc → Bool
  | .readPost | .tryUnwrap | .select | .writeAll _ _ | .copy _ | .done _ _ => true
  | .getConnection _ tls | .sendToBackend _ tls => tls
  | _ => false

/-- How far the upgrade of a session has come. -/
inductive Upgrade (s : State) : Prop
  | reading (pc : s.pc = .readFirst) (silent : s.responded = false) (plain : s.handshake = none)
      (unrouted : s.routed = none)
  | answering {data : Bytes} (pc : s.pc = .respond data) (plain : s.handshake = none)
      (unrouted : s.routed = none)
  | accepting {data : Bytes} (pc : s.pc = .tlsAccept data) (answered : s.responded = true)
      (plain : s.handshake = none) (unrouted : s.routed = none)
  | secured (pc : s.pc.secured = true) (answered : s.responded = true)
      (upgraded : s.handshake.isSome = true) (untouched : s.touched = false)
      (routed : ∀ data ∈ s.routed, data <+: (s.socks .client).sent)

theorem Upgrade.untouched (hs : Upgrade s) (hinv : Inv s) : s.touched = false := by
  cases hs with
  | reading hpc | answering hpc | accepting hpc => exact (hinv.early (by rw [hpc]; rfl)).1
  | secured _ _ _ htouched => exact htouched

theorem Upgrade.upgrading (hs : Upgrade s) (hinv : Inv s) : Upgrading s := by
  have hwritten := ((hinv.flow (hs.untouched hinv)) .client).isPrefix
  cases hs with
  | reading hpc _ hplain hrouted =>
    exact ⟨Or.inl hpc, fun _ => ⟨hrouted, (hinv.early (by rw [hpc]; rfl)).2⟩, by simp [hplain]⟩
  | answering hpc hplain hrouted =>
    refine ⟨Or.inr (Or.inl ⟨_, hpc⟩), fun _ => ⟨hrouted, ?_⟩, by simp [hplain]⟩
    exact (hinv.early (by rw [hpc]; rfl)).2
  | accepting hpc hanswered hplain hrouted =>
    refine ⟨Or.inr (Or.inr ⟨hanswered, Or.inl ⟨_, hpc⟩⟩), fun _ => ⟨hrouted, ?_⟩, by simp [hplain]⟩
    exact (hinv.early (by rw [hpc]; rfl)).2
  | secured _ hanswered hupgraded _ hrouted =>
    refine ⟨Or.inr (Or.inr ⟨hanswered, Or.inr hupgraded⟩), fun hplain => ?_,
      fun _ => ⟨hrouted, hwritten⟩⟩
    rw [hplain] at hupgraded
    cases hupgraded

/-- A step that leaves the place, the streams and what the session has done so far. -/
theorem Upgrade.still (hs : Upgrade s) (hpc : s'.pc = s.pc) (hresp : s'.responded = s.responded)
    (hhand : s'.handshake = s.handshake) (hrouted : s'.routed = s.routed)
    (htouched : s'.touched = s.touched)
    (hsent : ∀ y, (s'.socks y).sent = (s.socks y).sent) : Upgrade s' := by
  cases hs with
  | reading h₁ h₂ h₃ h₄ =>
    exact .reading (hpc.trans h₁) (hresp.trans h₂) (hhand.trans h₃) (hrouted.trans h₄)
  | answering h₁ h₂ h₃ => exact .answering (hpc.trans h₁) (hhand.trans h₂) (hrouted.trans h₃)
  | accepting h₁ h₂ h₃ h₄ =>
    exact .accepting (hpc.trans h₁) (hresp.trans h₂) (hhand.trans h₃) (hrouted.trans h₄)
  | secured h₁ h₂ h₃ h₄ h₅ =>
    refine .secured (by rw [hpc, h₁]) (hresp.trans h₂) (by rw [hhand, h₃]) (htouched.trans h₄) ?_
    rw [hrouted, hsent]
    exact h₅

/-- What the session holds for the backend before it has written anything comes first in the
client's stream. -/
theorem Inv.held_isPrefix (hinv : Inv s) (hpc : s.pc.beforeSend = true) :
    s.pc.held .client <+: (s.socks .client).sent := by
  obtain ⟨htouched, hwritten⟩ := hinv.early hpc
  have hflow := hinv.flow htouched .client
  rw [Side.other, hwritten] at hflow
  simpa using (hflow.pass (s.pc.held .client).length).isPrefix

/-- After the handshake the session stays inside TLS. -/
theorem Moves.secured (hm : Moves c port s input s') (hinv : Inv s) (hpc : s.pc.secured = true)
    (hanswered : s.responded = true)
    (hrouted : ∀ data ∈ s.routed, data <+: (s.socks .client).sent) :
    s'.pc.secured = true ∧ s'.responded = true ∧ s'.touched = s.touched
      ∧ ∀ data ∈ s'.routed, data <+: (s.socks .client).sent := by
  cases hm with
  | first h | respond h | handshake h | skip h | entry h | peer h | undo h | delete _ h | stray h
  | close h =>
    rw [h] at hpc
    cases hpc
  | post h hread | select h hread | copyRead h hopen hread =>
    obtain ⟨-, rfl, -⟩ := State.read_eq hread
    exact ⟨rfl, hanswered, rfl, hrouted⟩
  | @connect data tls h =>
    have hheld := hinv.held_isPrefix (by rw [h]; rfl)
    rw [h] at hpc hheld
    refine ⟨hpc, hanswered, rfl, fun _ hdata => ?_⟩
    cases hdata
    exact hheld
  | @refuse data tls e h =>
    have hheld := hinv.held_isPrefix (by rw [h]; rfl)
    rw [h] at hheld
    refine ⟨rfl, hanswered, rfl, fun _ hdata => ?_⟩
    cases hdata
    exact hheld
  | send h hwrote =>
    rw [h] at hpc
    cases hpc
    rw [State.wrote_eq hwrote]
    refine ⟨?_, hanswered, rfl, hrouted⟩
    simp only [State.goto]
    split_ifs <;> rfl
  | forward h hwrote =>
    rw [State.wrote_eq hwrote]
    refine ⟨?_, hanswered, rfl, hrouted⟩
    simp only [State.goto]
    split_ifs <;> rfl
  | unwrap h =>
    refine ⟨?_, hanswered, rfl, hrouted⟩
    simp only
    split_ifs <;> rfl
  | copyEnd | copyWrite | copyShut | copyDone | early | selectEnd | fail =>
    exact ⟨rfl, hanswered, rfl, hrouted⟩

/-- The first packet is what comes first in the client's stream. -/
theorem firstRead_isPrefix {s₁ : State} {data : Bytes} {cap n : ℕ} (hinv : Inv s)
    (hstreams : Streams client backend s) (hpc : s.pc = .readFirst) (hplain : s.handshake = none)
    (hread : s.read .client cap n = some (data, s₁)) :
    data <+: client ∧ data.length = n := by
  obtain ⟨rfl, -, -, -, hle⟩ := State.read_eq hread
  obtain ⟨htouched, hwritten⟩ := hinv.early (by rw [hpc]; rfl)
  have hflow := hinv.flow htouched .client
  rw [hpc, Side.other, hwritten, hstreams.2 hplain] at hflow
  refine ⟨?_, List.length_take_of_le hle⟩
  simpa [Pc.held, List.take_take] using ((hflow.read n).pass n).isPrefix

/-- The steps before the handshake is done, if nothing fails. -/
theorem Moves.opening (hm : Moves c port s input s') (hopen : s.pc.opening = true)
    (hok : input.isError = false) :
    (∃ n data s₁, s.pc = .readFirst ∧ input = .read .client n
        ∧ s.read .client c.config.receiveBufferSize n = some (data, s₁)
        ∧ s' = s₁.firstRead c port data)
      ∨ (s.pc = .readFirst ∧ input = .readEnd .client)
      ∨ (∃ data, s.pc = .respond data ∧ s' = { s with responded := true, pc := .tlsAccept data })
      ∨ ∃ data verifier, s.pc = .tlsAccept data ∧ s'.handshake = some verifier
        ∧ s'.pc = .readPost ∧ s'.responded = s.responded ∧ s'.routed = s.routed
        ∧ s'.touched = s.touched := by
  cases hm with
  | first hpc hread => exact Or.inl ⟨_, _, _, hpc, rfl, hread, rfl⟩
  | respond hpc => exact Or.inr (Or.inr (Or.inl ⟨_, hpc, rfl⟩))
  | handshake hpc htls => exact Or.inr (Or.inr (Or.inr ⟨_, _, hpc, rfl, rfl, rfl, rfl, rfl⟩))
  | early hpc =>
    rcases hpc with hpc | hpc
    · exact Or.inr (Or.inl ⟨hpc, rfl⟩)
    · rw [hpc] at hopen
      cases hopen
  | fail result herror =>
    rw [hok] at herror
    cases herror
  | post hpc | connect hpc | refuse _ hpc | send hpc | skip hpc | entry hpc | peer hpc | undo hpc
  | delete _ hpc | stray hpc | unwrap hpc | select hpc | forward hpc | copyRead hpc | copyEnd hpc
  | copyWrite hpc | copyShut hpc | copyDone hpc | close hpc | selectEnd hpc =>
    rw [hpc] at hopen
    cases hopen

theorem Undisturbed.isError (h : Undisturbed s (.go input)) (hplain : s.handshake = none) :
    input.isError = false := by
  by_contra herror
  rw [Bool.not_eq_false] at herror
  have hsome : s.handshake.isSome = true := by
    cases input with
    | readError | writeError | tls => exact h herror
    | _ => cases herror
  rw [hplain] at hsome
  cases hsome

/-- A step of the session that is not a short first read brings it nearer to TLS. -/
theorem Moves.upgrade (hacc : c.tlsAcceptor.isSome = true) (hm : Moves c 5432 s input s')
    (hinv : Inv s) (hstreams : Streams pgSslRequest backend s)
    (hcalm : Undisturbed s (.go input)) (hs : Upgrade s) (hwhole : WholeRequest s (.go input)) :
    Upgrade s' := by
  cases hs with
  | reading hpc hsilent hplain hrouted =>
    rcases hm.opening (by rw [hpc]; rfl) (hcalm.isError hplain) with
      ⟨n, data, s₁, -, rfl, hread, rfl⟩ | ⟨-, rfl⟩ | ⟨_, hat, -⟩ | ⟨_, _, hat, -⟩
    · obtain ⟨hdata, hlen⟩ := firstRead_isPrefix hinv hstreams hpc hplain hread
      rw [hwhole hpc] at hlen
      have hssl : isPostgresqlSslRequest data = true :=
        isPostgresqlSslRequest_iff.2 (hdata.eq_of_length hlen)
      obtain ⟨-, rfl, -⟩ := State.read_eq hread
      refine @Upgrade.answering _ data ?_ hplain hrouted
      simp [State.firstRead, hacc, hssl]
    · exact absurd hpc hcalm
    · cases hpc.symm.trans hat
    · cases hpc.symm.trans hat
  | answering hpc hplain hrouted =>
    rcases hm.opening (by rw [hpc]; rfl) (hcalm.isError hplain) with
      ⟨_, _, _, hat, -⟩ | ⟨hat, -⟩ | ⟨_, -, rfl⟩ | ⟨_, _, hat, -⟩
    · cases hpc.symm.trans hat
    · cases hpc.symm.trans hat
    · exact .accepting rfl rfl hplain hrouted
    · cases hpc.symm.trans hat
  | accepting hpc hanswered hplain hrouted =>
    rcases hm.opening (by rw [hpc]; rfl) (hcalm.isError hplain) with
      ⟨_, _, _, hat, -⟩ | ⟨hat, -⟩ | ⟨_, hat, -⟩ | ⟨_, _, -, hhand, hpc', hresp, hroute, htouch⟩
    · cases hpc.symm.trans hat
    · cases hpc.symm.trans hat
    · cases hpc.symm.trans hat
    · have htouched := (hinv.early (by rw [hpc]; rfl)).1
      refine .secured (by rw [hpc']; rfl) (hresp.trans hanswered) (by rw [hhand]; rfl)
        (htouch.trans htouched) fun data hdata => ?_
      rw [hroute, hrouted] at hdata
      cases hdata
  | secured hpc hanswered hupgraded htouched hrouted =>
    obtain ⟨hpc', hanswered', htouched', hrouted'⟩ := hm.secured hinv hpc hanswered hrouted
    rcases hm.streams with ⟨hhand, hsent⟩ | ⟨_, _, hat, -⟩
    · refine .secured hpc' hanswered' (by rw [hhand, hupgraded]) (htouched'.trans htouched) ?_
      rw [hsent]
      exact hrouted'
    · rw [hat] at hpc
      cases hpc

theorem Upgrade.setSock {x : Side} {k : Sock} (hs : Upgrade s) (hk : k.sent = (s.socks x).sent) :
    Upgrade (s.setSock x k) := hs.still rfl rfl rfl rfl rfl (setSock_sent hk)

theorem step_upgrade {a : Action} (hacc : c.tlsAcceptor.isSome = true) (hinv : Inv s)
    (hstreams : Streams pgSslRequest backend s) (hcalm : Undisturbed s a) (hs : Upgrade s)
    (hwhole : WholeRequest s a) (h : step c 5432 s a = some s') : Upgrade s' := by
  rcases steps_of_step h with @⟨x, n, -, -, -⟩ | _ | _ | _ | hm
  · have hred : ¬ (s.socks x).redirect = true := by
      intro hred
      cases (hs.untouched hinv).symm.trans (hinv.redirect x hred)
    rw [arrive_of_not_redirect hred]
    exact hs.setSock rfl
  · exact hs.setSock rfl
  · exact hs.setSock rfl
  · exact hs.still rfl rfl rfl rfl rfl fun _ => rfl
  · exact hm.upgrade hacc hinv hstreams hcalm hs hwhole

/-- A first read of fewer bytes than the request is taken for the start of a plain session. -/
theorem step_short {a : Action} (hinv : Inv s) (hstreams : Streams pgSslRequest backend s)
    (hs : Upgrade s) (hshort : ¬ WholeRequest s a) (h : step c port s a = some s') :
    ¬ Upgrading s' := by
  obtain ⟨n, rfl, hpc, hn⟩ : ∃ n, a = .go (.read .client n) ∧ s.pc = .readFirst
      ∧ n ≠ pgSslRequest.length := by
    unfold WholeRequest at hshort
    split at hshort
    · exact ⟨_, rfl, Classical.not_imp.1 hshort⟩
    · exact absurd trivial hshort
  have hsilent : s.responded = false ∧ s.handshake = none := by
    cases hs with
    | reading _ hsilent hplain => exact ⟨hsilent, hplain⟩
    | answering hat | accepting hat => cases hpc.symm.trans hat
    | secured hat =>
      rw [hpc] at hat
      cases hat
  simp only [step, hpc, next, Option.map_eq_some_iff] at h
  obtain ⟨⟨data, s₁⟩, hread, rfl⟩ := h
  obtain ⟨-, hlen⟩ := firstRead_isPrefix hinv hstreams hpc hsilent.2 hread
  have hssl : ¬ isPostgresqlSslRequest data = true := by
    intro hssl
    rw [isPostgresqlSslRequest_iff.1 hssl] at hlen
    exact hn hlen.symm
  obtain ⟨-, rfl, -⟩ := State.read_eq hread
  intro hup
  have hans := hup.answers
  simp [State.firstRead, hssl, State.setSock, hsilent.1] at hans

/-! ## A client that asks for something else -/

/-- Where the session answers an SSLRequest. -/
def Pc.answering : Pc → Bool
  | .respond _ | .tlsAccept _ => true
  | _ => false

/-- The session has not answered an SSLRequest and is not about to. -/
structure Silent (s : State) : Prop where
  pc : s.pc.answering = false
  responded : s.responded = false
  plain : s.handshake = none

theorem Moves.silent (hother : client.take 8 ≠ pgSslRequest) (hm : Moves c port s input s')
    (hinv : Inv s) (hstreams : Streams client backend s) (hs : Silent s) : Silent s' := by
  cases hm with
  | @first n data s₁ hpc hread =>
    have hssl : ¬ isPostgresqlSslRequest data = true := by
      intro hssl
      obtain ⟨hdata, -⟩ := firstRead_isPrefix hinv hstreams hpc hs.plain hread
      rw [isPostgresqlSslRequest_iff.1 hssl] at hdata
      exact hother (List.prefix_iff_eq_take.1 hdata).symm
    obtain ⟨-, rfl, -⟩ := State.read_eq hread
    refine ⟨?_, hs.responded, hs.plain⟩
    simp [State.firstRead, hssl, Pc.answering]
  | respond hpc | handshake hpc =>
    have := hs.pc
    rw [hpc] at this
    cases this
  | post hpc hread | select hpc hread | copyRead hpc hopen hread | stray hpc hread =>
    obtain ⟨-, rfl, -⟩ := State.read_eq hread
    exact ⟨rfl, hs.responded, hs.plain⟩
  | send hpc hwrote | forward hpc hwrote =>
    rw [State.wrote_eq hwrote]
    refine ⟨?_, hs.responded, hs.plain⟩
    simp only [State.goto]
    split_ifs <;> rfl
  | unwrap hpc =>
    refine ⟨?_, hs.responded, hs.plain⟩
    simp only
    split_ifs <;> rfl
  | connect | refuse | skip | entry | peer | undo | delete | copyEnd | copyWrite | copyShut
  | copyDone | early | close | selectEnd | fail => exact ⟨rfl, hs.responded, hs.plain⟩

theorem step_silent {a : Action} (hother : client.take 8 ≠ pgSslRequest) (hinv : Inv s)
    (hstreams : Streams client backend s) (hs : Silent s) (h : step c port s a = some s') :
    Silent s' := by
  rcases steps_of_step h with @⟨x, n, -, -, -⟩ | _ | _ | _ | hm
  · unfold State.arrive
    simp only
    split_ifs <;> exact ⟨hs.pc, hs.responded, hs.plain⟩
  · exact ⟨hs.pc, hs.responded, hs.plain⟩
  · exact ⟨hs.pc, hs.responded, hs.plain⟩
  · exact ⟨hs.pc, hs.responded, hs.plain⟩
  · exact hm.silent hother hinv hstreams hs

/-! ## The answer -/

theorem step_tlsAccept {acceptor : ServerConfig} (port : UInt16)
    (hacc : c.tlsAcceptor = some acceptor) {data : Bytes} (hpc : s.pc = .tlsAccept data)
    (plain : Bytes) :
    ∃ s', step c port s (.go (.tls (.ok plain))) = some s' ∧ s'.responded = s.responded
      ∧ s'.handshake = some acceptor.verifier := by
  simp only [step, next, hpc, hacc, Option.map_some]
  exact ⟨_, rfl, rfl, rfl⟩

/-- A session that is to answer an SSLRequest is upgraded by the write of `S` and the handshake. -/
theorem Upgrade.upgrades {acceptor : ServerConfig} (hacc : c.tlsAcceptor = some acceptor)
    (hs : Upgrade s) (hread : s.pc ≠ .readFirst) (hplain : s.handshake = none) (plain : Bytes) :
    ∃ as s', as <:+ [.go (.wrote .client 1), .go (.tls (.ok plain))]
      ∧ run (step c port) s as = some s' ∧ s'.responded = true
      ∧ s'.handshake = some acceptor.verifier := by
  cases hs with
  | reading hpc => exact absurd hpc hread
  | @answering data hpc =>
    have hwrote : step c port s (.go (.wrote .client 1))
        = some { s with responded := true, pc := .tlsAccept data } := by
      simp [step, next, hpc]
    obtain ⟨s', htls, hresp, hhand⟩ := step_tlsAccept port hacc
      (s := { s with responded := true, pc := .tlsAccept data }) rfl plain
    exact ⟨_, s', List.suffix_rfl, run_cons.2 ⟨_, hwrote, run_cons.2 ⟨_, htls, rfl⟩⟩, hresp, hhand⟩
  | accepting hpc hanswered =>
    obtain ⟨s', htls, hresp, hhand⟩ := step_tlsAccept port hacc hpc plain
    exact ⟨_, s', List.suffix_cons _ _, run_cons.2 ⟨_, htls, rfl⟩, hresp.trans hanswered, hhand⟩
  | secured _ _ hupgraded =>
    rw [hplain] at hupgraded
    cases hupgraded

/-- For every server with a TLS acceptor and every session on port 5432.  If the client sends an
SSLRequest, and nothing fails before the handshake is done, the session is upgraded exactly if its
first read returns the whole request, and then only the write of `S` and the handshake are left to
do.  If the client's stream does not begin with an SSLRequest, the session never answers `S`. -/
theorem upgrading_iff_wholeRequest (c : Shared) (acceptor : ServerConfig) (client backend : Bytes)
    (as : List Action) (s : State) (hacc : c.tlsAcceptor = some acceptor)
    (hrun : run (step c 5432) (start client backend) as = some s) :
    (client = pgSslRequest → EachStep (step c 5432) Undisturbed (start client backend) as →
      (Always (step c 5432) Upgrading (start client backend) as
          ↔ EachStep (step c 5432) WholeRequest (start client backend) as)
        ∧ (EachStep (step c 5432) WholeRequest (start client backend) as →
          s.pc ≠ .readFirst → s.handshake = none → ∀ plain, ∃ as' s',
            as' <:+ [.go (.wrote .client 1), .go (.tls (.ok plain))]
              ∧ run (step c 5432) s as' = some s' ∧ s'.responded = true
              ∧ s'.handshake = some acceptor.verifier))
      ∧ (client.take 8 ≠ pgSslRequest → s.responded = false) := by
  have hstart : Inv (start client backend) ∧ Streams client backend (start client backend) :=
    ⟨inv_start client backend, rfl, fun _ => rfl⟩
  refine ⟨fun hclient hcalm => ?_, fun hother => ?_⟩
  · subst hclient
    have hsome : c.tlsAcceptor.isSome = true := by
      rw [hacc]
      rfl
    have hbegin : Upgrade (start pgSslRequest backend) := .reading rfl rfl rfl rfl
    refine ⟨?_, fun hwhole hread hplain plain => ?_⟩
    · refine always_iff_eachStep_within (J := fun s => Inv s ∧ Streams pgSslRequest backend s)
        (Q := Upgrade) ?_ (fun s hJ hs => hs.upgrading hJ.1) ?_ ?_ hstart hbegin hcalm hrun
      · exact fun s a s' hJ _ h => ⟨step_inv hJ.1 h, step_streams hJ.2 h⟩
      · exact fun s a s' hJ hD hs hC h => step_upgrade hsome hJ.1 hJ.2 hD hs hC h
      · exact fun s a s' hJ _ hs hC h => step_short hJ.1 hJ.2 hs hC h
    · have hall : (Inv s ∧ Streams pgSslRequest backend s) ∧ Upgrade s := by
        refine run_inv_of_each
          (P := fun s => (Inv s ∧ Streams pgSslRequest backend s) ∧ Upgrade s)
          (fun s a s' hs hC h => ?_) ⟨hstart, hbegin⟩ (hcalm.and hwhole) hrun
        exact ⟨⟨step_inv hs.1.1 h, step_streams hs.1.2 h⟩,
          step_upgrade hsome hs.1.1 hs.1.2 hC.1 hs.2 hC.2 h⟩
      exact hall.2.upgrades hacc hread hplain plain
  · have hsilent : Silent s := by
      refine run_inv_with (J := fun s => Inv s ∧ Streams client backend s)
        (fun s a s' hJ h => ⟨step_inv hJ.1 h, step_streams hJ.2 h⟩) ?_ hstart ⟨rfl, rfl, rfl⟩ hrun
      exact fun s a s' hJ hs h => step_silent hother hJ.1 hJ.2 hs h
    exact hsilent.responded

/-- The settings of a server on port 5432 with a TLS acceptor. -/
def tlsShared : Shared :=
  ⟨⟨[5432], 8192, false, "", some mutualTls⟩, some ⟨.noClientAuth, [[1]], [2]⟩, false⟩

/-- The request arrives in two segments and is read at once; what follows in TLS is routed. -/
theorem upgrading_iff_wholeRequest_two_segments :
    ∃ s, run (step tlsShared 5432) (start pgSslRequest [])
        [.arrive .client 4, .arrive .client 4, .go (.read .client 8), .go (.wrote .client 1),
          .go (.tls (.ok [9])), .arrive .client 1, .go (.read .client 1),
          .go (.connection (.ok ()))] = some s
      ∧ s.routed = some [9] ∧ Upgrading s := by
  have hrun : ∃ s, run (step tlsShared 5432) (start pgSslRequest [])
        [.arrive .client 4, .arrive .client 4, .go (.read .client 8), .go (.wrote .client 1),
          .go (.tls (.ok [9])), .arrive .client 1, .go (.read .client 1),
          .go (.connection (.ok ()))] = some s ∧ s.routed = some [9] := ⟨_, rfl, rfl⟩
  obtain ⟨s, hrun, hrouted⟩ := hrun
  refine ⟨s, hrun, hrouted, ?_⟩
  have hiff := (upgrading_iff_wholeRequest tlsShared _ pgSslRequest [] _ s rfl hrun).1 rfl ?_
  · refine (hiff.1.2 ?_).last hrun
    exact .cons trivial rfl <| .cons trivial rfl <| .cons (fun _ => rfl) rfl <| .cons trivial rfl <|
      .cons trivial rfl <| .cons trivial rfl <| .cons (fun h => by cases h) rfl <|
      .cons trivial rfl trivial
  · exact .cons trivial rfl <| .cons trivial rfl <| .cons (fun h => by cases h) rfl <|
      .cons (fun h => by cases h) rfl <| .cons (fun h => by cases h) rfl <| .cons trivial rfl <|
      .cons (fun h => by cases h) rfl <| .cons (fun h => by cases h) rfl trivial

/-- The same request read in two parts: the first four bytes are routed and reach a backend. -/
theorem split_request_reaches_backend :
    ∃ s, run (step tlsShared 5432) (start pgSslRequest [])
        [.arrive .client 4, .go (.read .client 4), .go (.connection (.ok ())),
          .go (.wrote .backend 4)] = some s
      ∧ s.responded = false ∧ s.routed = some [0, 0, 0, 8]
      ∧ (s.socks .backend).written = [0, 0, 0, 8] ∧ ¬ Upgrading s := by
  refine ⟨_, rfl, rfl, rfl, rfl, fun h => ?_⟩
  have hbefore := h.before rfl
  cases hbefore.1

end Session

end ProtocolProxy
