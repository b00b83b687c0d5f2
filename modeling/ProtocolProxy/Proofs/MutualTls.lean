import ProtocolProxy.Proofs.Session

/-!
# Who reaches a backend when client certificates are required

A server that starts with `require_client_cert` set has an acceptor that asks for a certificate
(`start_mutual`).  The acceptor is used for one kind of session only: on port 5432, when the first
read returns an SSLRequest and nothing else.  There nothing reaches a backend before the handshake
(`Gated`).  Any other first read is sent to a backend as it is, whoever sent it
(`protected_iff_sslRequest`).
-/

namespace ProtocolProxy

theorem clientVerifier_ok {files : Files} {ca : String} {verifier : ClientVerifier}
    (h : clientVerifier files ca = .ok verifier) : ∃ roots, verifier = .webPki roots := by
  simp only [clientVerifier, bind_eq_ok] at h
  obtain ⟨roots, -, _, -, _, -, hv⟩ := h
  cases hv
  exact ⟨roots, rfl⟩

theorem rustlsServerConfig_mutual {files : Files} {tls : Tls} {acceptor : ServerConfig}
    (h : rustlsServerConfig files tls = .ok acceptor) (hcert : tls.requireClientCert = true)
    (hca : tls.ca.isEmpty = false) : ∃ roots, acceptor.verifier = .webPki roots := by
  simp only [rustlsServerConfig, hcert, hca, Bool.not_false, Bool.and_self, if_true,
    bind_eq_ok] at h
  obtain ⟨certs, -, key, -, verifier, hv, _, -, ha⟩ := h
  cases ha
  exact clientVerifier_ok hv

theorem Tls.validate_ca {files : Files} {tls : Tls} (h : tls.validate files = .ok ())
    (hcert : tls.requireClientCert = true) : tls.ca.isEmpty = false := by
  unfold Tls.validate at h
  split_ifs at h with h₁ h₂ h₃ h₄ h₅ h₆
  simpa [hcert] using h₅

/-- The acceptor of a server that requires client certificates. -/
theorem start_mutual {files : Files} {loaded : Bool} {config : TcpConfig} {tls : Tls}
    {shared : Shared} (htls : config.tls = some tls) (hcert : tls.requireClientCert = true)
    (h : config.start files loaded = .ok shared) :
    shared.config = config ∧ ∃ acceptor roots, shared.tlsAcceptor = some acceptor
      ∧ acceptor.verifier = .webPki roots := by
  unfold TcpConfig.start at h
  rw [htls] at h
  split_ifs at h with hports
  simp only at h
  split at h
  · cases h
  · rename_i hvalid
    split at h
    · cases h
    · rename_i acceptor hacc
      cases h
      obtain ⟨roots, hroots⟩ :=
        rustlsServerConfig_mutual hacc hcert (Tls.validate_ca hvalid hcert)
      exact ⟨rfl, acceptor, roots, rfl, hroots⟩

theorem isPostgresqlSslRequest_iff {data : Bytes} :
    isPostgresqlSslRequest data = true ↔ data = pgSslRequest := by
  unfold isPostgresqlSslRequest
  rw [Bool.and_eq_true, beq_iff_eq, beq_iff_eq]
  refine ⟨fun h => h.2, fun h => ⟨?_, h⟩⟩
  rw [h]
  rfl

namespace Session

open Machine

variable {c : Shared} {port : UInt16} {s s' s₁ : State} {x : Side} {n : ℕ} {data : Bytes}
  {acceptor : ServerConfig}

/-- Where a session stands before its handshake, or at its end. -/
def Pc.opening : Pc → Bool
  | .readFirst | .respond _ | .tlsAccept _ | .done _ _ => true
  | _ => false

/-- A session whose first read is an SSLRequest stands before its handshake and has written nothing,
or has had the acceptor's handshake. -/
structure Gated (acceptor : ServerConfig) (s : State) : Prop where
  opening : s.handshake = none → (∀ data ∈ s.initial, data = pgSslRequest) →
    s.pc.opening = true ∧ (s.socks .backend).written = []
  verified : ∀ verifier, s.handshake = some verifier → verifier = acceptor.verifier

theorem gated_start (client backend : Bytes) : Gated acceptor (start client backend) := by
  refine ⟨fun _ _ => ⟨rfl, rfl⟩, fun _ h => ?_⟩
  cases h

theorem Gated.same (hs : Gated acceptor s) (hhand : s'.handshake = s.handshake)
    (hinit : s'.initial = s.initial)
    (h : s.pc.opening = true → (s.socks .backend).written = [] →
      s'.pc.opening = true ∧ (s'.socks .backend).written = []) : Gated acceptor s' := by
  refine ⟨fun hnone hfirst => ?_, fun v hv => hs.verified v (hhand ▸ hv)⟩
  obtain ⟨hpc, hwritten⟩ := hs.opening (hhand ▸ hnone) (hinit ▸ hfirst)
  exact h hpc hwritten

/-- A step from a place past the handshake. -/
theorem Gated.later (hs : Gated acceptor s) (hpc : s.pc.opening = false)
    (hhand : s'.handshake = s.handshake) (hinit : s'.initial = s.initial) : Gated acceptor s' := by
  refine hs.same hhand hinit fun h => ?_
  rw [hpc] at h
  cases h

theorem Moves.gated {input : Input} (hacc : c.tlsAcceptor = some acceptor) (hs : Gated acceptor s)
    (hinv : Inv s) (hm : Moves c 5432 s input s') : Gated acceptor s' := by
  cases hm with
  | @first n data s₁ hpc hread =>
    obtain ⟨-, rfl, -⟩ := State.read_eq hread
    refine ⟨fun _ hfirst => ⟨?_, ?_⟩, hs.verified⟩
    · have hssl : isPostgresqlSslRequest data = true :=
        isPostgresqlSslRequest_iff.2 (hfirst data rfl)
      simp [State.firstRead, hacc, hssl, Pc.opening]
    · exact (hinv.early (by rw [hpc]; rfl)).2
  | respond hpc => exact hs.same rfl rfl fun _ hwritten => ⟨rfl, hwritten⟩
  | handshake hpc htls =>
    refine ⟨fun hnone => ?_, fun v hv => ?_⟩
    · cases hnone
    · rw [hacc] at htls
      cases htls
      cases hv
      rfl
  | early | fail => exact hs.same rfl rfl fun _ hwritten => ⟨rfl, hwritten⟩
  | post hpc hread | stray hpc hread | select hpc hread | copyRead hpc hopen hread =>
    obtain ⟨-, rfl, -⟩ := State.read_eq hread
    exact hs.later (by rw [hpc]; rfl) rfl rfl
  | send hpc hwrote | forward hpc hwrote =>
    rw [State.wrote_eq hwrote]
    exact hs.later (by rw [hpc]; rfl) rfl rfl
  | connect hpc | refuse e hpc | skip hpc | entry hpc | peer hpc | undo hpc | delete deleted hpc
  | unwrap hpc | copyEnd hpc | copyWrite hpc | copyShut hpc | copyDone hpc | close hpc
  | selectEnd hpc => exact hs.later (by rw [hpc]; rfl) rfl rfl

/-- Before its handshake a session has no sockmap entry, so nothing that arrives is passed on. -/
theorem Gated.arrive (hs : Gated acceptor s) (hinv : Inv s) (hlive : s.pc.isDone = false) (x : Side)
    (n : ℕ) : Gated acceptor (s.arrive x n) := by
  by_cases hred : (s.socks x).redirect = true
  · have hlater : s.pc.opening = false := by
      by_contra hopen
      have hearly : s.pc.beforeSend = true := by
        rcases hpc : s.pc <;> rw [hpc] at hopen hlive <;>
          simp_all [Pc.opening, Pc.isDone, Pc.beforeSend]
      have htouched := (hinv.early hearly).1
      rw [hinv.redirect x hred] at htouched
      cases htouched
    rw [arrive_of_redirect hred]
    exact hs.later hlater rfl rfl
  · rw [arrive_of_not_redirect hred]
    refine hs.same rfl rfl fun hpc hwritten => ⟨hpc, ?_⟩
    cases x <;> exact hwritten

theorem step_gated {a : Action} (hacc : c.tlsAcceptor = some acceptor) (hs : Gated acceptor s)
    (hinv : Inv s) (h : step c 5432 s a = some s') : Gated acceptor s' := by
  rcases steps_of_step h with @⟨x, n, hlive, -, -⟩ | @⟨x, -, -⟩ | @⟨x, -⟩ | _ | hm
  · exact hs.arrive hinv hlive x n
  · refine hs.same rfl rfl fun hpc hwritten => ⟨hpc, ?_⟩
    cases x <;> exact hwritten
  · refine hs.same rfl rfl fun hpc hwritten => ⟨hpc, ?_⟩
    cases x <;> exact hwritten
  · exact ⟨hs.opening, hs.verified⟩
  · exact hm.gated hacc hs hinv

theorem run_gated {client backend : Bytes} {as : List Action}
    (hacc : c.tlsAcceptor = some acceptor)
    (h : run (step c 5432) (start client backend) as = some s) : Gated acceptor s :=
  run_inv_with (fun _ _ _ hinv h => step_inv hinv h)
    (fun _ _ _ hinv hs h => step_gated hacc hs hinv h) (inv_start client backend)
    (gated_start client backend) h

/-- A first packet that is not answered with `S` reaches the backend without a handshake. -/
theorem run_plain {seg : Bytes} (hplain : ¬ (port = 5432 ∧ seg = pgSslRequest)) (hseg : seg ≠ [])
    (hlen : seg.length ≤ c.config.receiveBufferSize) :
    ∃ s, run (step c port) (start seg [])
        [.arrive .client seg.length, .go (.read .client seg.length), .go (.connection (.ok ())),
          .go (.wrote .backend 1)] = some s
      ∧ s.initial = some seg ∧ s.handshake = none ∧ (s.socks .backend).written = seg.take 1 := by
  have hpos : 0 < seg.length := List.length_pos_iff.2 hseg
  have hguard : ¬ (port = 5432 ∧ c.tlsAcceptor.isSome ∧ isPostgresqlSslRequest seg) := by
    rintro ⟨hport, -, hssl⟩
    exact hplain ⟨hport, isPostgresqlSslRequest_iff.1 hssl⟩
  -- the four states, one after the other
  have harrive : ∃ s₁, step c port (start seg []) (.arrive .client seg.length) = some s₁
      ∧ s₁ = (start seg []).setSock .client
        { Sock.new seg with pending := [], queue := seg } := by
    refine ⟨_, if_pos ⟨rfl, hpos, le_rfl⟩, ?_⟩
    rw [arrive_of_not_redirect (by simp [start, Sock.new])]
    simp [start, Sock.new]
  obtain ⟨s₁, h₁, rfl⟩ := harrive
  have hread : ∃ s₂, step c port ((start seg []).setSock .client
        { Sock.new seg with pending := [], queue := seg })
          (.go (.read .client seg.length)) = some s₂
      ∧ s₂.pc = .getConnection seg false ∧ s₂.initial = some seg ∧ s₂.handshake = none
      ∧ (s₂.socks .backend).written = [] := by
    have hr : ((start seg []).setSock .client
        { Sock.new seg with pending := [], queue := seg }).read .client c.config.receiveBufferSize
          seg.length = some (seg, (start seg []).setSock .client
            { Sock.new seg with pending := [], queue := [] }) := by
      simp [State.read, State.setSock, hpos, hlen]
    refine ⟨_, congrArg (Option.map _) hr, ?_, rfl, rfl, rfl⟩
    exact if_neg hguard
  obtain ⟨s₂, h₂, hpc, hinit, hhand, hwritten⟩ := hread
  have hconnect : step c port s₂ (.go (.connection (.ok ()))) = some { s₂ with
      routed := some seg, connected := true, adapterHolds := true
      pc := .sendToBackend seg false } := by
    simp [step, next, hpc]
  refine ⟨_, run_cons.2 ⟨_, h₁, run_cons.2 ⟨_, h₂, run_cons.2 ⟨_, hconnect,
    run_cons.2 ⟨_, if_pos ⟨Nat.one_pos, hpos⟩, rfl⟩⟩⟩⟩, hinit, hhand, ?_⟩
  simp [State.goto, State.write, hwritten]

/-- For every server that starts with client certificates required, every port and every first read
that may be returned: no session whose first read is that one writes to a backend without a
handshake that asked for a certificate, if and only if the port is 5432 and the read is an
SSLRequest. -/
theorem protected_iff_sslRequest (files : Files) (loaded : Bool) (config : TcpConfig) (tls : Tls)
    (shared : Shared) (port : UInt16) (seg : Bytes) (htls : config.tls = some tls)
    (hcert : tls.requireClientCert = true) (hstart : config.start files loaded = .ok shared)
    (hseg : seg ≠ []) (hlen : seg.length ≤ config.receiveBufferSize) :
    (∀ client backend as s, run (step shared port) (start client backend) as = some s →
        (∀ data ∈ s.initial, data = seg) → Protected s)
      ↔ port = 5432 ∧ seg = pgSslRequest := by
  obtain ⟨hconfig, acceptor, roots, hacc, hroots⟩ := start_mutual htls hcert hstart
  constructor
  · intro hall
    by_contra hplain
    obtain ⟨s, hrun, hinit, hhand, hwritten⟩ :=
      run_plain (c := shared) hplain hseg (by rw [hconfig]; exact hlen)
    have hprot := hall seg [] _ s hrun fun data hdata => by
      rw [hinit] at hdata
      exact (Option.some.inj hdata).symm
    obtain ⟨_, hsome⟩ := hprot (by simp [hwritten, hseg])
    rw [hhand] at hsome
    cases hsome
  · rintro ⟨rfl, rfl⟩ client backend as s hrun hinit hne
    have hs := run_gated hacc hrun
    rcases hhand : s.handshake with _ | verifier
    · exact absurd (hs.opening hhand hinit).2 hne
    · exact ⟨roots, by rw [hs.verified verifier hhand, hroots]⟩

/-- Files that rustls is content with. -/
def goodFiles : Files where
  isFile _ := true
  read _ := .ok []
  certs _ := .ok [[1]]
  privateKey _ := .ok (some [2])
  addRoot _ := .ok ()
  buildVerifier _ := .ok ()
  singleCert _ _ := .ok ()

def mutualTls : Tls := ⟨"/certs/server.crt", "/certs/server.key", "/certs/ca.crt", true⟩

def mutualConfig : TcpConfig := ⟨[5432, 3306], 8192, false, "", some mutualTls⟩

theorem protected_iff_sslRequest_postgresql :
    ∃ shared, mutualConfig.start goodFiles false = .ok shared
      ∧ ∀ client backend as s, run (step shared 5432) (start client backend) as = some s →
        (∀ data ∈ s.initial, data = pgSslRequest) → Protected s := by
  have hstart : ∃ shared, mutualConfig.start goodFiles false = .ok shared := ⟨_, rfl⟩
  obtain ⟨shared, hstart⟩ := hstart
  refine ⟨shared, hstart, ?_⟩
  exact (protected_iff_sslRequest goodFiles false mutualConfig mutualTls shared 5432 pgSslRequest
    rfl rfl hstart (by decide) (by decide)).2 ⟨rfl, rfl⟩

/-- On the port of MySQL a byte reaches the backend although there was no handshake. -/
theorem plain_byte_reaches_backend :
    ∃ shared s, mutualConfig.start goodFiles false = .ok shared
      ∧ run (step shared 3306) (start [1] []) [.arrive .client 1, .go (.read .client 1),
        .go (.connection (.ok ())), .go (.wrote .backend 1)] = some s
      ∧ (s.socks .backend).written = [1] ∧ s.handshake = none ∧ ¬ Protected s := by
  refine ⟨_, _, rfl, rfl, rfl, rfl, fun h => ?_⟩
  obtain ⟨_, hsome⟩ := h (List.cons_ne_nil 1 [])
  cases hsome

end Session

end ProtocolProxy
