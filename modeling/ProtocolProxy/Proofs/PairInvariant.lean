import ProtocolProxy.Pairs
import ProtocolProxy.Proofs.Sockmap

/-!
# What the four maps have to do with each other

The backend of a client is a descriptor of its own (`Inv.owner`) and is open as long as the client
has it.  So a new pair can share a key only with a pair whose client is closed already
(`Kept.keys_fresh`).  Where none does, `insert_pair` writes to places of `peers` that are empty,
which makes its undoing exact, and `remove_pair` deletes the entries of its own pair only.
-/

namespace ProtocolProxy

namespace Pairs

open Sockmap

variable {ι : Type*} {s s' : State ι} {c c' b : RawFd} {x x' : Client ι} {i j : ι}

/-! ## Clients, their backends and their calls -/

/-- The backend of a client, from the time it is dialed. -/
def State.Owns (s : State ι) (c b : RawFd) : Prop :=
  ∃ x, s.clients c = some x ∧ (s.conn x.adapter c = some b ∨ x.call = .dialed b)

/-- How a client's entries in its adapter's maps and in `allocated_pairs` go with its calls. -/
structure Fits (x : Client ι) (conn pair : Option RawFd) (allocated : Bool) : Prop where
  pair_eq : pair = if x.activated then conn else none
  activated : x.activated = true → conn ≠ none
  allocated : allocated = true ↔
    x.activated = true ∨ ∃ b, x.call = .inserted b ∨ x.call = .unpairing b
  dialing : x.call = .dialing ∨ (∃ b, x.call = .dialed b) → conn = none
  pairing : ∀ b, x.call = .inserting b ∨ x.call = .inserted b ∨ x.call = .unpairing b →
    conn = some b ∧ x.activated = false
  disconnecting : x.call = .disconnecting → x.activated = false
  closing : x.closed = true → x.call = .idle ∨ (∃ b, x.call = .unpairing b)
    ∨ x.call = .disconnecting

def State.fits (s : State ι) (c : RawFd) (x : Client ι) : Prop :=
  Fits x (s.conn x.adapter c) (s.pair x.adapter c) (s.inner.allocatedPairs c).isSome

/-- The pairs of two clients have four different keys. -/
def Disjoint (inner : Inner) : Prop :=
  ∀ c c' keys keys', c ≠ c' → inner.allocatedPairs c = some keys →
    inner.allocatedPairs c' = some keys' →
      ∀ key, key = keys.1 ∨ key = keys.2 → key ≠ keys'.1 ∧ key ≠ keys'.2

/-- Whoever has this number as a client's is through with its socket. -/
def State.Free (s : State ι) (fd : RawFd) : Prop := ∀ x, s.clients fd = some x → x.closed = true

structure Inv (s : State ι) : Prop where
  live : ∀ c x, s.clients c = some x → x.closed = false → s.fds c = some x.sock
  conn_client : ∀ i c b, s.conn i c = some b → ∃ x, s.clients c = some x ∧ x.adapter = i
  pair_client : ∀ i c b, s.pair i c = some b → ∃ x, s.clients c = some x ∧ x.adapter = i
  fits : ∀ c x, s.clients c = some x → s.fits c x
  backend : ∀ c b, s.Owns c b → s.fds b ≠ none ∧ s.Free b ∧ s.released b = false
  owner : ∀ c c' b, s.Owns c b → s.Owns c' b → c = c'
  released : ∀ b, s.released b = true → s.fds b ≠ none ∧ s.Free b
  keys : ∀ fd fd' t t' key, s.fds fd = some t → s.fds fd' = some t' →
    buildTupleKey t = some key → buildTupleKey t' = some key → fd = fd'
  pairs : Disjoint s.inner

/-- A step of client `c`, which is `x` before and `x'` after it, leaves the others' entries and
sockets alone. -/
structure Moved (s s' : State ι) (c : RawFd) (x x' : Client ι) : Prop where
  adapter : x'.adapter = x.adapter
  sock : x'.sock = x.sock
  closed : x.closed = true → x'.closed = true
  clients : s'.clients = Function.update s.clients c (some x')
  conn : ∀ j d, ¬ (j = x.adapter ∧ d = c) → s'.conn j d = s.conn j d
  pair : ∀ j d, ¬ (j = x.adapter ∧ d = c) → s'.pair j d = s.pair j d
  allocated : ∀ d, d ≠ c → s'.inner.allocatedPairs d = s.inner.allocatedPairs d
  fds : ∀ fd, s.fds fd ≠ none → ¬ s.Owns c fd → (fd = c → x'.closed = x.closed) →
    s'.fds fd = s.fds fd

theorem Moved.client (h : Moved s s' c x x') {d : RawFd} :
    s'.clients d = if d = c then some x' else s.clients d := by
  rw [h.clients, Function.update_apply]

theorem Moved.owns (h : Moved s s' c x x') {d : RawFd} (hd : d ≠ c) :
    s'.Owns d b ↔ s.Owns d b := by
  unfold State.Owns
  rw [h.client, if_neg hd]
  refine exists_congr fun y => and_congr_right fun _ => ?_
  rw [h.conn _ _ fun hh => hd hh.2]

theorem Inv.not_owns (hs : Inv s) (hx : s.clients c' = some x) (hopen : x.closed = false) :
    ¬ s.Owns c c' := by
  intro h
  cases hopen.symm.trans ((hs.backend c c' h).2.1 x hx)

/-- The socket of a number that no open client has is as it was. -/
theorem Moved.fds_free (h : Moved s s' c x x') (hx : s.clients c = some x) {fd : RawFd}
    (hfd : s.fds fd ≠ none) (hnot : ¬ s.Owns c fd) (hfree : s.Free fd) : s'.fds fd = s.fds fd := by
  refine h.fds fd hfd hnot fun hc => ?_
  have hclosed : x.closed = true := hfree x (hc ▸ hx)
  rw [hclosed, h.closed hclosed]

theorem Moved.free (h : Moved s s' c x x') (hx : s.clients c = some x) {fd : RawFd}
    (hfree : s.Free fd) : s'.Free fd := by
  intro y hy
  rw [h.client] at hy
  split_ifs at hy with hc
  · obtain rfl := Option.some.inj hy
    exact h.closed (hfree x (hc ▸ hx))
  · exact hfree y hy

/-- A map of the adapters has entries for their own clients only. -/
def Listed (clients : RawFd → Option (Client ι)) (m : ι → RawFd → Option RawFd) : Prop :=
  ∀ j c b, m j c = some b → ∃ x, clients c = some x ∧ x.adapter = j

variable {clients clients' : RawFd → Option (Client ι)} {m m' : ι → RawFd → Option RawFd}

theorem Listed.eq_none (h : Listed clients m) (hc : clients c = none) (j : ι) : m j c = none := by
  by_contra hne
  obtain ⟨b, hb⟩ := Option.ne_none_iff_exists'.1 hne
  obtain ⟨x, hx, -⟩ := h j c b hb
  cases hc.symm.trans hx

/-- The clients that have entries stay as they are. -/
theorem Listed.congr (h : Listed clients m)
    (hclients : ∀ j d b, m j d = some b → clients' d = clients d) : Listed clients' m := by
  intro j d b hb
  obtain ⟨x, hx, hxj⟩ := h j d b hb
  exact ⟨x, by rw [hclients j d b hb, hx], hxj⟩

theorem Moved.listed (hm : Moved s s' c x x') (hx : s.clients c = some x)
    (hframe : ∀ j d, ¬ (j = x.adapter ∧ d = c) → m' j d = m j d) (h : Listed s.clients m) :
    Listed s'.clients m' := by
  intro j d b hb
  by_cases hd : j = x.adapter ∧ d = c
  · obtain ⟨rfl, rfl⟩ := hd
    exact ⟨x', by rw [hm.client, if_pos rfl], hm.adapter⟩
  · rw [hframe j d hd] at hb
    obtain ⟨y, hy, hyj⟩ := h j d b hb
    have hdc : d ≠ c := by
      rintro rfl
      obtain rfl := Option.some.inj (hx.symm.trans hy)
      exact hd ⟨hyj.symm, rfl⟩
    exact ⟨y, by rw [hm.client, if_neg hdc, hy], hyj⟩

/-- A backend that the client owns after the step it owned before, or it is new. -/
theorem Inv.owner_move (hs : Inv s) (hm : Moved s s' c x x')
    (hown : ∀ b, s'.Owns c b → s.Owns c b ∨ s.fds b = none) :
    ∀ d e b, s'.Owns d b → s'.Owns e b → d = e := by
  have hmix : ∀ d b, d ≠ c → s'.Owns c b → s'.Owns d b → False := by
    intro d b hd hb hb'
    rw [hm.owns hd] at hb'
    rcases hown b hb with hold | hnew
    · exact hd (hs.owner d c b hb' hold)
    · exact (hs.backend d b hb').1 hnew
  intro d e b hd he
  by_cases hdc : d = c <;> by_cases hec : e = c
  · rw [hdc, hec]
  · exact (hmix e b hec (hdc ▸ hd) he).elim
  · exact (hmix d b hdc (hec ▸ he) hd).elim
  · exact hs.owner d e b ((hm.owns hdc).1 hd) ((hm.owns hec).1 he)

theorem Inv.move (hs : Inv s) (hx : s.clients c = some x) (hm : Moved s s' c x x')
    (hfits : s'.fits c x')
    (howns : ∀ b, s'.conn x.adapter c = some b ∨ x'.call = .dialed b →
      s'.fds b ≠ none ∧ s'.released b = false ∧ (s.Owns c b ∨ s.fds b = none))
    (hreleased : ∀ b, s'.released b = true →
      s.released b = true ∨ s.Owns c b ∧ s'.fds b ≠ none)
    (hkeys : ∀ fd fd' t t' key, s'.fds fd = some t → s'.fds fd' = some t' →
      buildTupleKey t = some key → buildTupleKey t' = some key → fd = fd')
    (hpairs : Disjoint s'.inner) : Inv s' := by
  have hc : s'.clients c = some x' := by rw [hm.client, if_pos rfl]
  -- what the client owns after the step
  have hown : ∀ b, s'.Owns c b →
      s'.fds b ≠ none ∧ s'.released b = false ∧ (s.Owns c b ∨ s.fds b = none) := by
    rintro b ⟨y, hy, hb⟩
    obtain rfl : x' = y := Option.some.inj (hc.symm.trans hy)
    rw [hm.adapter] at hb
    exact howns b hb
  have hfree : ∀ b, s.Owns c b ∨ s.fds b = none → s.Free b := by
    rintro b (hb | hb)
    · exact (hs.backend c b hb).2.1
    · intro y hy
      by_contra hne
      cases hb.symm.trans (hs.live b y hy (by simpa using hne))
  refine ⟨?_, hm.listed hx hm.conn hs.conn_client, hm.listed hx hm.pair hs.pair_client, ?_, ?_,
    hs.owner_move hm fun b hb => (hown b hb).2.2, ?_, hkeys, hpairs⟩
  · intro d y hy hopen
    by_cases hd : d = c
    · subst hd
      obtain rfl : x' = y := Option.some.inj (hc.symm.trans hy)
      have hbefore : x.closed = false := by
        by_contra hne
        cases hopen.symm.trans (hm.closed (by simpa using hne))
      have hlive := hs.live d x hx hbefore
      rw [hm.fds d (by simp [hlive]) (hs.not_owns hx hbefore) fun _ => hopen.trans hbefore.symm,
        hlive, hm.sock]
    · rw [hm.client, if_neg hd] at hy
      have hlive := hs.live d y hy hopen
      rw [hm.fds d (by simp [hlive]) (hs.not_owns hy hopen) fun h => absurd h hd, hlive]
  · intro d y hy
    by_cases hd : d = c
    · subst hd
      obtain rfl : x' = y := Option.some.inj (hc.symm.trans hy)
      exact hfits
    · rw [hm.client, if_neg hd] at hy
      have hfit := hs.fits d y hy
      unfold State.fits at hfit ⊢
      rwa [hm.conn _ _ fun hh => hd hh.2, hm.pair _ _ fun hh => hd hh.2, hm.allocated d hd]
  · intro d b hb
    by_cases hd : d = c
    · subst hd
      obtain ⟨hfd, hrel, hold⟩ := hown b hb
      exact ⟨hfd, hm.free hx (hfree b hold), hrel⟩
    · rw [hm.owns hd] at hb
      obtain ⟨hfd, hcl, hrel⟩ := hs.backend d b hb
      have hnot : ¬ s.Owns c b := fun hcb => hd (hs.owner d c b hb hcb)
      refine ⟨by rwa [hm.fds_free hx hfd hnot hcl], hm.free hx hcl, ?_⟩
      by_contra hne
      rcases hreleased b (by simpa using hne) with hr | hr
      · rw [hrel] at hr
        cases hr
      · exact hnot hr.1
  · intro b hb
    rcases hreleased b hb with hr | ⟨hr, hfd⟩
    · obtain ⟨hfd, hcl⟩ := hs.released b hr
      have hnot : ¬ s.Owns c b := by
        intro hcb
        rw [(hs.backend c b hcb).2.2] at hr
        cases hr
      exact ⟨by rwa [hm.fds_free hx hfd hnot hcl], hm.free hx hcl⟩
    · exact ⟨hfd, hm.free hx (hs.backend c b hr).2.1⟩

/-! ## Pairs -/

theorem Inv.owns_of_conn (hs : Inv s) (h : s.conn i c = some b) : s.Owns c b := by
  obtain ⟨x, hx, rfl⟩ := hs.conn_client i c b h
  exact ⟨x, hx, .inl h⟩

theorem Inv.conn_unique (hs : Inv s) {b' : RawFd} (h : s.conn i c = some b)
    (h' : s.conn j c = some b') : b = b' := by
  obtain ⟨x, hx, rfl⟩ := hs.conn_client i c b h
  obtain ⟨y, hy, rfl⟩ := hs.conn_client j c b' h'
  obtain rfl := Option.some.inj (hx.symm.trans hy)
  exact Option.some.inj (h.symm.trans h')

section Paired

variable {keys keys' : UInt64 × UInt64} {b' : RawFd} {sock sock' backendSock backendSock' : Socket}

theorem Paired.unique (hs : Inv s) (h : Paired s c keys b sock backendSock)
    (h' : Paired s c keys' b' sock' backendSock') :
    keys = keys' ∧ sock = sock' ∧ backendSock = backendSock' := by
  obtain ⟨i, hi⟩ := h.connected
  obtain ⟨j, hj⟩ := h'.connected
  obtain rfl := hs.conn_unique hi hj
  obtain ⟨x, hx, rfl⟩ := h.client
  obtain ⟨y, hy, rfl⟩ := h'.client
  obtain rfl := Option.some.inj (hx.symm.trans hy)
  exact ⟨Option.some.inj (h.allocated.symm.trans h'.allocated), rfl,
    Option.some.inj (h.backend.symm.trans h'.backend)⟩

/-- A pair outlives the steps of other clients, and those of its own that leave its backend. -/
theorem Paired.move (hs : Inv s) (hx : s.clients c = some x) (hm : Moved s s' c x x')
    (h : Paired s c' keys b sock backendSock)
    (halloc : s'.inner.allocatedPairs c' = s.inner.allocatedPairs c')
    (hown : c' = c → s'.conn = s.conn ∧ s'.fds b = s.fds b) :
    Paired s' c' keys b sock backendSock := by
  obtain ⟨i, hi⟩ := h.connected
  obtain ⟨y, hy, hsock⟩ := h.client
  by_cases hc : c' = c
  · obtain ⟨hconn, hfds⟩ := hown hc
    subst hc
    obtain rfl := Option.some.inj (hx.symm.trans hy)
    have hclient : s'.clients c' = some x' := by rw [hm.client, if_pos rfl]
    exact ⟨halloc.trans h.allocated, ⟨i, by rw [hconn, hi]⟩, ⟨x', hclient, hm.sock.trans hsock⟩,
      by rw [hfds, h.backend], h.selfKey, h.peerKey⟩
  · have hb := hs.owns_of_conn hi
    obtain ⟨hopen, hfree, -⟩ := hs.backend c' b hb
    have hbackend : s'.fds b = s.fds b :=
      hm.fds_free hx hopen (fun hcb => hc (hs.owner c' c b hb hcb)) hfree
    exact ⟨halloc.trans h.allocated, ⟨i, by rw [hm.conn _ _ fun hh => hc hh.2, hi]⟩,
      ⟨y, by rw [hm.client, if_neg hc, hy], hsock⟩, by rw [hbackend, h.backend], h.selfKey,
      h.peerKey⟩

/-- A client's entries in `peers`. -/
def Entry (s : State ι) (c : RawFd) (key : UInt64) (t : Socket) : Prop :=
  ∃ keys backend sock backendSock, Paired s c keys backend sock backendSock
    ∧ (key = keys.1 ∧ t = backendSock ∨ key = keys.2 ∧ t = sock)

theorem Paired.entry_iff (hs : Inv s) (h : Paired s c keys b sock backendSock) {key : UInt64}
    {t : Socket} :
    Entry s c key t ↔ key = keys.1 ∧ t = backendSock ∨ key = keys.2 ∧ t = sock := by
  refine ⟨?_, fun hcase => ⟨keys, b, sock, backendSock, h, hcase⟩⟩
  rintro ⟨keys', b', sock', backendSock', h', hcase⟩
  obtain ⟨rfl, rfl, rfl⟩ := h'.unique hs h
  exact hcase

theorem Entry.disjoint (hs : Inv s) {key : UInt64} {t : Socket} (he : Entry s c' key t)
    (h : Paired s c keys b sock backendSock) (hne : c' ≠ c) : key ≠ keys.1 ∧ key ≠ keys.2 := by
  obtain ⟨keys', b', sock', backendSock', h', hcase⟩ := he
  exact hs.pairs c' c keys' keys hne h'.allocated h.allocated key (hcase.imp And.left And.left)

/-- The pair of a client is the same after a step that leaves the sockets and connections, and the
client and its entry in `allocated_pairs`, as they are. -/
theorem paired_congr (hconn : s'.conn = s.conn) (hfds : s'.fds = s.fds)
    (hclient : s'.clients c = s.clients c)
    (halloc : s'.inner.allocatedPairs c = s.inner.allocatedPairs c) :
    Paired s' c keys b sock backendSock ↔ Paired s c keys b sock backendSock := by
  constructor
  · rintro ⟨h₁, h₂, h₃, h₄, h₅, h₆⟩
    rw [hconn] at h₂
    rw [hclient] at h₃
    rw [hfds] at h₄
    exact ⟨halloc ▸ h₁, h₂, h₃, h₄, h₅, h₆⟩
  · rintro ⟨h₁, h₂, h₃, h₄, h₅, h₆⟩
    rw [← hconn] at h₂
    rw [← hclient] at h₃
    rw [← hfds] at h₄
    exact ⟨halloc.trans h₁, h₂, h₃, h₄, h₅, h₆⟩

theorem entry_congr (hconn : s'.conn = s.conn) (hfds : s'.fds = s.fds)
    (hclient : s'.clients c = s.clients c)
    (halloc : s'.inner.allocatedPairs c = s.inner.allocatedPairs c) {key : UInt64} {t : Socket} :
    Entry s' c key t ↔ Entry s c key t := by
  unfold Entry
  simp only [paired_congr hconn hfds hclient halloc]

end Paired

/-- While the loader has the same pairs and each of them lives on, `peers` stays exact. -/
theorem PeersExact.of_inner (hp : PeersExact s) (hs' : Inv s') (hinner : s'.inner = s.inner)
    (hkeep : ∀ d keys b sock backendSock, Paired s d keys b sock backendSock →
      Paired s' d keys b sock backendSock) : PeersExact s' := by
  refine ⟨fun d keys hd => ?_, fun key t => ?_⟩
  · rw [hinner] at hd
    obtain ⟨b, sock, backendSock, h⟩ := hp.1 d keys hd
    exact ⟨b, sock, backendSock, hkeep d keys b sock backendSock h⟩
  · rw [hinner, hp.2]
    constructor
    · rintro ⟨d, keys, b, sock, backendSock, h, hkey⟩
      exact ⟨d, keys, b, sock, backendSock, hkeep d keys b sock backendSock h, hkey⟩
    · rintro ⟨d, keys, b, sock, backendSock, h, hkey⟩
      -- what `d` has after the step is what it had before, since it can only have one pair
      obtain ⟨b₀, sock₀, backendSock₀, h₀⟩ := hp.1 d keys (hinner ▸ h.allocated)
      obtain ⟨-, rfl, rfl⟩ := h.unique hs' (hkeep _ _ _ _ _ h₀)
      exact ⟨d, keys, b₀, sock, backendSock, h₀, hkey⟩

/-- One client's pair is made or dropped: `peers` changes only under its two keys, to what the
client has there afterwards, and no other client has an entry there. -/
theorem PeersExact.of_own (hp : PeersExact s) (keys : UInt64 × UInt64) (hconn : s'.conn = s.conn)
    (hfds : s'.fds = s.fds) (hclient : ∀ d, d ≠ c → s'.clients d = s.clients d)
    (hother : ∀ d, d ≠ c → s'.inner.allocatedPairs d = s.inner.allocatedPairs d)
    (hpaired : ∀ keys', s'.inner.allocatedPairs c = some keys' →
      ∃ b sock backendSock, Paired s' c keys' b sock backendSock)
    (hfree : ∀ d key t, d ≠ c → Entry s' d key t → key ≠ keys.1 ∧ key ≠ keys.2)
    (hown : ∀ key t, Entry s c key t ∨ Entry s' c key t → key = keys.1 ∨ key = keys.2)
    (hset : ∀ key t, key = keys.1 ∨ key = keys.2 →
      (s'.inner.peers key = some t ↔ Entry s' c key t))
    (hkeep : ∀ key, key ≠ keys.1 → key ≠ keys.2 → s'.inner.peers key = s.inner.peers key) :
    PeersExact s' := by
  refine ⟨fun d keys' hd => ?_, fun key t => ?_⟩
  · by_cases hdc : d = c
    · subst hdc
      exact hpaired keys' hd
    · obtain ⟨b, sock, backendSock, h⟩ := hp.1 d keys' ((hother d hdc).symm.trans hd)
      exact ⟨b, sock, backendSock, (paired_congr hconn hfds (hclient d hdc) (hother d hdc)).2 h⟩
  show s'.inner.peers key = some t ↔ ∃ d, Entry s' d key t
  by_cases hkey : key = keys.1 ∨ key = keys.2
  · rw [hset key t hkey]
    refine ⟨fun he => ⟨c, he⟩, ?_⟩
    rintro ⟨d, he⟩
    by_cases hdc : d = c
    · exact hdc ▸ he
    · obtain ⟨hq, hp⟩ := hfree d key t hdc he
      exact (hkey.elim hq hp).elim
  · have hold : s.inner.peers key = some t ↔ ∃ d, Entry s d key t := hp.2 key t
    obtain ⟨hq, hp⟩ := not_or.1 hkey
    rw [hkeep key hq hp, hold]
    refine exists_congr fun d => ?_
    by_cases hdc : d = c
    · subst hdc
      exact ⟨fun he => (hkey (hown key t (.inl he))).elim,
        fun he => (hkey (hown key t (.inr he))).elim⟩
    · exact (entry_congr hconn hfds (hclient d hdc) (hother d hdc)).symm

theorem PeersExact.peers_ne_none {keys : UInt64 × UInt64} (h : PeersExact s)
    (hkeys : s.inner.allocatedPairs c = some keys) : s.inner.peers keys.1 ≠ none := by
  obtain ⟨b, sock, backendSock, hpaired⟩ := h.1 c keys hkeys
  rw [(h.2 keys.1 backendSock).2 ⟨c, keys, b, sock, backendSock, hpaired, .inl ⟨rfl, rfl⟩⟩]
  exact Option.some_ne_none backendSock

/-! ## What a step keeps -/

def Kept (s : State ι) : Prop := Inv s ∧ PeersExact s

section Keys

variable {fds : Fds} (h : ∀ fd fd' t t' key, fds fd = some t → fds fd' = some t' →
  buildTupleKey t = some key → buildTupleKey t' = some key → fd = fd')

include h

theorem keys_update_none (b fd fd' : RawFd) (t t' : Socket) (key : UInt64)
    (hfd : Function.update fds b none fd = some t) (hfd' : Function.update fds b none fd' = some t')
    (ht : buildTupleKey t = some key) (ht' : buildTupleKey t' = some key) : fd = fd' := by
  rw [Function.update_apply] at hfd hfd'
  split_ifs at hfd hfd'
  exact h fd fd' t t' key hfd hfd' ht ht'

theorem keys_update_some {sock : Socket} (hkey : KeyUnused fds sock) (b fd fd' : RawFd)
    (t t' : Socket) (key : UInt64) (hfd : Function.update fds b (some sock) fd = some t)
    (hfd' : Function.update fds b (some sock) fd' = some t') (ht : buildTupleKey t = some key)
    (ht' : buildTupleKey t' = some key) : fd = fd' := by
  rw [Function.update_apply] at hfd hfd'
  split_ifs at hfd hfd' with hb hb'
  · rw [hb, hb']
  · obtain rfl := Option.some.inj hfd
    exact (hkey fd' t' hfd' key ht' ht).elim
  · obtain rfl := Option.some.inj hfd'
    exact (hkey fd t hfd key ht ht').elim
  · exact h fd fd' t t' key hfd hfd' ht ht'

end Keys

/-- A step that only moves the client's call on. -/
theorem Kept.put (hs : Kept s) (hx : s.clients c = some x) (hadapter : x'.adapter = x.adapter)
    (hsock : x'.sock = x.sock) (hclosed : x'.closed = x.closed) (hfits : s.fits c x')
    (hdialed : ∀ b, x'.call ≠ .dialed b) : Kept (s.put c x') := by
  have hm : Moved s (s.put c x') c x x' :=
    ⟨hadapter, hsock, hclosed.trans, rfl, fun _ _ _ => rfl, fun _ _ _ => rfl, fun _ _ => rfl,
      fun _ _ _ _ => rfl⟩
  have hinv : Inv (s.put c x') := by
    refine hs.1.move hx hm hfits (fun b hb => ?_) (fun b hb => .inl hb) hs.1.keys hs.1.pairs
    have hown : s.Owns c b := ⟨x, hx, .inl (hb.resolve_right (hdialed b))⟩
    exact ⟨(hs.1.backend c b hown).1, (hs.1.backend c b hown).2.2, .inl hown⟩
  exact ⟨hinv, hs.2.of_inner hinv rfl fun d _ _ _ _ h =>
    h.move hs.1 hx hm rfl fun _ => ⟨rfl, rfl⟩⟩

/-- `run_client` returns; the client's pair stays. -/
theorem Kept.hangup (hs : Kept s) (hx : s.clients c = some x) (hcall : x.call = .idle)
    (hopen : x.closed = false) :
    Kept { s.put c { x with closed := true } with fds := Function.update s.fds c none } := by
  set s' : State ι :=
    { s.put c { x with closed := true } with fds := Function.update s.fds c none } with hs'
  have hm : Moved s s' c x { x with closed := true } := by
    refine ⟨rfl, rfl, fun _ => rfl, rfl, fun _ _ _ => rfl, fun _ _ _ => rfl, fun _ _ => rfl,
      fun fd _ _ hfd => ?_⟩
    have hne : fd ≠ c := fun h => nomatch hopen.symm.trans (hfd h).symm
    exact Function.update_of_ne hne _ _
  have hbackend : ∀ b, s.Owns c b → s'.fds b = s.fds b := by
    intro b hb
    refine Function.update_of_ne ?_ _ _
    rintro rfl
    exact hs.1.not_owns hx hopen hb
  have hinv : Inv s' := by
    refine hs.1.move hx hm ?_ (fun b hb => ?_) (fun b hb => .inl hb)
      (keys_update_none hs.1.keys c) hs.1.pairs
    · obtain ⟨h₁, h₂, h₃, h₄, h₅, h₆, -⟩ := hs.1.fits c x hx
      exact ⟨h₁, h₂, h₃, h₄, h₅, h₆, fun _ => .inl hcall⟩
    · have hown : s.Owns c b := ⟨x, hx, hb⟩
      rw [hbackend b hown]
      exact ⟨(hs.1.backend c b hown).1, (hs.1.backend c b hown).2.2, .inl hown⟩
  refine ⟨hinv, hs.2.of_inner hinv rfl fun d _ b _ _ h => h.move hs.1 hx hm rfl fun hd => ?_⟩
  obtain ⟨i, hi⟩ := h.connected
  exact ⟨rfl, hbackend b (hd ▸ hs.1.owns_of_conn hi)⟩

/-- A client that is dialing, or has dialed, has no entry in any map. -/
theorem Inv.absent (hs : Inv s) (hx : s.clients c = some x)
    (hcall : x.call = .dialing ∨ ∃ b, x.call = .dialed b) :
    s.conn x.adapter c = none ∧ x.activated = false ∧ s.pair x.adapter c = none
      ∧ s.inner.allocatedPairs c = none := by
  have hf := hs.fits c x hx
  have hconn := hf.dialing hcall
  have hact : x.activated = false := by
    by_contra h
    exact hf.activated (by simpa using h) hconn
  have hpair := hf.pair_eq
  rw [hact] at hpair
  refine ⟨hconn, hact, hpair, ?_⟩
  by_contra hne
  have hsome := hf.allocated.1 (by rwa [Option.isSome_iff_ne_none])
  rcases hsome with h | ⟨b, h | h⟩
  · rw [hact] at h
    cases h
  all_goals
    rw [h] at hcall
    simp at hcall

theorem fits_absent {pair : Option RawFd} {conn : Option RawFd} (hact : x.activated = false)
    (hpair : pair = none)
    (hcall : x.call = .idle ∨ x.call = .disconnecting
      ∨ conn = none ∧ x.closed = false ∧ ∃ b, x.call = .dialed b) :
    Fits x conn pair false := by
  rcases hcall with h | h | ⟨rfl, hopen, b, h⟩ <;> constructor <;> simp [h, hact, hpair]
  exact hopen

/-- A client that is being connected or activated is in `run_client`. -/
theorem Inv.open_of_call (hs : Inv s) (hx : s.clients c = some x)
    (hcall : x.call = .dialing ∨ (∃ b, x.call = .dialed b) ∨ ∃ b, x.call = .inserting b) :
    x.closed = false := by
  by_contra hne
  rcases (hs.fits c x hx).closing (by simpa using hne) with h | ⟨b, h⟩ | h <;>
    · rw [h] at hcall
      simp at hcall

theorem Kept.dial (hs : Kept s) (hx : s.clients c = some x) (hcall : x.call = .dialing)
    {sock : Socket} (hunused : s.fds b = none) (hkey : KeyUnused s.fds sock) :
    Kept { s.put c { x with call := .dialed b } with
      fds := Function.update s.fds b (some sock) } := by
  obtain ⟨hconn, hact, hpair, halloc⟩ := hs.1.absent hx (.inl hcall)
  have hopen : x.closed = false := hs.1.open_of_call hx (.inl hcall)
  set s' : State ι := { s.put c { x with call := .dialed b } with
    fds := Function.update s.fds b (some sock) } with hs'
  have hm : Moved s s' c x { x with call := .dialed b } := by
    refine ⟨rfl, rfl, id, rfl, fun _ _ _ => rfl, fun _ _ _ => rfl, fun _ _ => rfl,
      fun fd hfd _ _ => ?_⟩
    have hne : fd ≠ b := fun h => hfd (h ▸ hunused)
    exact Function.update_of_ne hne _ _
  have hinv : Inv s' := by
    refine hs.1.move hx hm ?_ (fun b' hb' => ?_) (fun b' hb' => .inl hb') ?_ hs.1.pairs
    · unfold State.fits
      rw [show s'.inner.allocatedPairs c = none from halloc]
      exact fits_absent hact hpair (.inr (.inr ⟨hconn, hopen, b, rfl⟩))
    · have hconn' : s'.conn x.adapter c = none := hconn
      rw [hconn'] at hb'
      obtain rfl : b = b' := by simpa using hb'
      refine ⟨by simp [hs'], ?_, .inr hunused⟩
      by_contra hrel
      exact (hs.1.released b (by simpa [hs', State.put] using hrel)).1 hunused
    · exact keys_update_some hs.1.keys hkey b
  refine ⟨hinv, hs.2.of_inner hinv rfl fun d keys _ _ _ h => h.move hs.1 hx hm rfl ?_⟩
  rintro rfl
  rw [h.allocated] at halloc
  cases halloc

theorem Kept.nodelayFails (hs : Kept s) (hx : s.clients c = some x) (hcall : x.call = .dialed b) :
    Kept { s.put c { x with call := .idle } with fds := Function.update s.fds b none } := by
  obtain ⟨hconn, hact, hpair, halloc⟩ := hs.1.absent hx (.inr ⟨b, hcall⟩)
  set s' : State ι :=
    { s.put c { x with call := .idle } with fds := Function.update s.fds b none } with hs'
  have hm : Moved s s' c x { x with call := .idle } := by
    refine ⟨rfl, rfl, id, rfl, fun _ _ _ => rfl, fun _ _ _ => rfl, fun _ _ => rfl,
      fun fd _ hfd _ => ?_⟩
    have hne : fd ≠ b := fun h => hfd (h ▸ ⟨x, hx, .inr hcall⟩)
    exact Function.update_of_ne hne _ _
  have hinv : Inv s' := by
    refine hs.1.move hx hm ?_ (fun b' hb' => ?_) (fun b' hb' => .inl hb')
      (keys_update_none hs.1.keys b) hs.1.pairs
    · unfold State.fits
      rw [show s'.inner.allocatedPairs c = none from halloc]
      exact fits_absent hact hpair (.inl rfl)
    · have hconn' : s'.conn x.adapter c = none := hconn
      rw [hconn'] at hb'
      simp at hb'
  refine ⟨hinv, hs.2.of_inner hinv rfl fun d keys _ _ _ h => h.move hs.1 hx hm rfl ?_⟩
  rintro rfl
  rw [h.allocated] at halloc
  cases halloc

/-- A step that changes the loader's entry for the client. -/
theorem Inv.setInner (hs : Inv s) (hx : s.clients c = some x) (hadapter : x'.adapter = x.adapter)
    (hsock : x'.sock = x.sock) (hclosed : x'.closed = x.closed) {inner : Inner}
    (hdialed : ∀ b, x'.call ≠ .dialed b) (hpairs : Disjoint inner)
    (hother : ∀ d, d ≠ c → inner.allocatedPairs d = s.inner.allocatedPairs d)
    (hfits : Fits x' (s.conn x.adapter c) (s.pair x.adapter c) (inner.allocatedPairs c).isSome) :
    Inv { s.put c x' with inner := inner } := by
  have hm : Moved s { s.put c x' with inner := inner } c x x' :=
    ⟨hadapter, hsock, hclosed.trans, rfl, fun _ _ _ => rfl, fun _ _ _ => rfl, hother,
      fun _ _ _ _ => rfl⟩
  refine hs.move hx hm ?_ (fun b hb => ?_) (fun b hb => .inl hb) hs.keys hpairs
  · unfold State.fits
    rw [hadapter]
    exact hfits
  · have hown : s.Owns c b := ⟨x, hx, .inl (hb.resolve_right (hdialed b))⟩
    exact ⟨(hs.backend c b hown).1, (hs.backend c b hown).2.2, .inl hown⟩

theorem Kept.tracked (hs : Kept s) : s.inner.Tracked := by
  intro key hkey
  obtain ⟨t, ht⟩ := Option.ne_none_iff_exists'.1 hkey
  obtain ⟨c, keys, b, sock, backendSock, h, hcase⟩ := (hs.2.2 key t).1 ht
  exact ⟨c, keys, h.allocated, hcase.imp And.left And.left⟩

/-- The keys of two open sockets are in no pair but their own, since the backends of all pairs are
open, and so are the clients but those that the condition is about. -/
theorem Kept.keys_fresh (hs : Kept s) (hx : s.clients c = some x) (hcall : x.call = .inserting b)
    {k : MapAnswers} (hvacant : Vacant s (.resume c (.insertPair k))) {d : RawFd}
    {keys : UInt64 × UInt64} (hd : d ≠ c) (hkeys : s.inner.allocatedPairs d = some keys)
    {fd : RawFd} {t : Socket} {key : UInt64} (hfd : fd = c ∨ fd = b) (ht : s.fds fd = some t)
    (hkey : buildTupleKey t = some key) : key ≠ keys.1 ∧ key ≠ keys.2 := by
  obtain ⟨b', sock, backendSock, h⟩ := hs.2.1 d keys hkeys
  obtain ⟨i, hi⟩ := h.connected
  obtain ⟨y, hy, rfl⟩ := h.client
  have hopen : x.closed = false := hs.1.open_of_call hx (.inr (.inr ⟨b, hcall⟩))
  have hown : s.Owns c b := ⟨x, hx, .inl ((hs.1.fits c x hx).pairing b (.inl hcall)).1⟩
  have hown' : s.Owns d b' := hs.1.owns_of_conn hi
  refine ⟨?_, ?_⟩
  · rintro rfl
    by_cases hclosed : y.closed = true
    · obtain ⟨hself, hpeer⟩ := hvacant x b hx hcall d y keys hy hclosed hkeys
      rcases hfd with rfl | rfl
      · obtain rfl := Option.some.inj ((hs.1.live fd x hx hopen).symm.trans ht)
        exact hself hkey
      · exact hpeer t ht hkey
    · have hyopen : y.closed = false := by simpa using hclosed
      obtain rfl := hs.1.keys fd d _ _ _ ht (hs.1.live d y hy hyopen) hkey h.selfKey
      rcases hfd with rfl | rfl
      · exact hd rfl
      · exact hs.1.not_owns hy hyopen hown
  · rintro rfl
    obtain rfl := hs.1.keys fd b' _ _ _ ht h.backend hkey h.peerKey
    rcases hfd with rfl | rfl
    · exact hs.1.not_owns hx hopen hown'
    · exact hd (hs.1.owner d c fd hown' hown)

theorem Disjoint.insert {inner : Inner} {keys : UInt64 × UInt64} {peers : UInt64 → Option Socket}
    (h : Disjoint inner)
    (hfresh : ∀ d keys', d ≠ c → inner.allocatedPairs d = some keys' →
      ∀ key, key = keys.1 ∨ key = keys.2 → key ≠ keys'.1 ∧ key ≠ keys'.2) :
    Disjoint ⟨peers, Function.update inner.allocatedPairs c (some keys)⟩ := by
  intro d d' ks ks' hne hd hd' key hkey
  simp only [Function.update_apply] at hd hd'
  split_ifs at hd hd' with hdc hdc' hdc'
  · exact absurd (hdc.trans hdc'.symm) hne
  · obtain rfl := Option.some.inj hd
    exact hfresh d' ks' hdc' hd' key hkey
  · obtain rfl := Option.some.inj hd'
    have hother := hfresh d ks hdc hd
    refine ⟨fun heq => ?_, fun heq => ?_⟩
    · obtain ⟨h₁, h₂⟩ := hother keys.1 (.inl rfl)
      exact hkey.elim (fun h => h₁ (heq.symm.trans h)) fun h => h₂ (heq.symm.trans h)
    · obtain ⟨h₁, h₂⟩ := hother keys.2 (.inr rfl)
      exact hkey.elim (fun h => h₁ (heq.symm.trans h)) fun h => h₂ (heq.symm.trans h)
  · exact h d d' ks ks' hne hd hd' key hkey

theorem Disjoint.remove {inner : Inner} {peers : UInt64 → Option Socket} (h : Disjoint inner) :
    Disjoint ⟨peers, Function.update inner.allocatedPairs c none⟩ := by
  intro d d' ks ks' hne hd hd' key hkey
  simp only [Function.update_apply] at hd hd'
  split_ifs at hd hd'
  exact h d d' ks ks' hne hd hd' key hkey

theorem Kept.insertPair (hs : Kept s) (hx : s.clients c = some x) (hcall : x.call = .inserting b)
    {k : MapAnswers} (hvacant : Vacant s (.resume c (.insertPair k)))
    (hok : (insertPair s.fds s.inner k c b).2 = true) :
    Kept { s.put c { x with call := .inserted b } with
      inner := (insertPair s.fds s.inner k c b).1 } := by
  obtain ⟨sock, backendSock, selfKey, peerKey, hsock, hbackend, hself, hpeer, hinner⟩ :=
    insertPair_true hok
  rw [hinner]
  have hf := hs.1.fits c x hx
  have hopen : x.closed = false := hs.1.open_of_call hx (.inr (.inr ⟨b, hcall⟩))
  obtain rfl : x.sock = sock := Option.some.inj ((hs.1.live c x hx hopen).symm.trans hsock)
  obtain ⟨hconn, hact⟩ := hf.pairing b (.inl hcall)
  have halloc : s.inner.allocatedPairs c = none := by
    have := hf.allocated
    simpa [hact, hcall] using this
  set inner : Inner := ⟨Function.update (Function.update s.inner.peers selfKey (some backendSock))
    peerKey (some x.sock), Function.update s.inner.allocatedPairs c (some (selfKey, peerKey))⟩
    with hinner'
  set s' : State ι := { s.put c { x with call := .inserted b } with inner := inner } with hs'
  have hconn' : s'.conn = s.conn := rfl
  have hfds' : s'.fds = s.fds := rfl
  have hother : ∀ d, d ≠ c → inner.allocatedPairs d = s.inner.allocatedPairs d :=
    fun d hd => Function.update_of_ne hd _ _
  have hself' : inner.allocatedPairs c = some (selfKey, peerKey) := Function.update_self _ _ _
  have hpairs : Disjoint inner := by
    refine hs.1.pairs.insert fun d keys' hd hkeys' key hkey => ?_
    rcases hkey with rfl | rfl
    · exact hs.keys_fresh hx hcall hvacant hd hkeys' (.inl rfl) hsock hself
    · exact hs.keys_fresh hx hcall hvacant hd hkeys' (.inr rfl) hbackend hpeer
  have hinv : Inv s' := by
    refine hs.1.setInner hx (by rfl) (by rfl) (by rfl) (by simp) hpairs hother ?_
    have hpair := hf.pair_eq
    rw [hact] at hpair
    rw [hconn, hpair, hself']
    constructor <;> simp [hact, hopen]
  have hclient' : s'.clients c = some { x with call := .inserted b } := Function.update_self _ _ _
  have hnew : Paired s' c (selfKey, peerKey) b x.sock backendSock :=
    ⟨hself', ⟨x.adapter, hconn⟩, ⟨_, hclient', rfl⟩, hbackend, hself, hpeer⟩
  have hne : selfKey ≠ peerKey := by
    rintro rfl
    obtain rfl := hs.1.keys c b _ _ _ hsock hbackend hself hpeer
    exact hs.1.not_owns hx hopen ⟨x, hx, .inl hconn⟩
  have hclients : ∀ d, d ≠ c → s'.clients d = s.clients d :=
    fun d hd => Function.update_of_ne hd _ _
  refine ⟨hinv, hs.2.of_own (selfKey, peerKey) hconn' hfds' hclients hother ?_ ?_ ?_ ?_ ?_⟩
  · intro keys hkeys
    obtain rfl := Option.some.inj (hself'.symm.trans hkeys)
    exact ⟨b, x.sock, backendSock, hnew⟩
  · intro d key t hdc he
    exact he.disjoint hinv hnew hdc
  · rintro key t (⟨keys, _, _, _, h, -⟩ | he)
    · cases halloc.symm.trans h.allocated
    · exact ((hnew.entry_iff hinv).1 he).imp And.left And.left
  · intro key t hkey
    rw [hnew.entry_iff hinv]
    change inner.peers key = some t ↔ _
    rw [hinner']
    rcases hkey with rfl | rfl
    · simp [hne, eq_comm]
    · simp [Ne.symm hne, eq_comm]
  · intro key hq hp
    change inner.peers key = _
    simp only [hinner', Function.update_of_ne hq, Function.update_of_ne hp]

/-- The loader's part of an insertion that fails. -/
theorem Kept.notInserted (hs : Kept s) (hx : s.clients c = some x) (hcall : x.call = .inserting b)
    {k : MapAnswers} (hdelete : k.delete = true) (hvacant : Vacant s (.resume c (.insertPair k)))
    (hok : (Sockmap.insertPair s.fds s.inner k c b).2 = false) :
    (Sockmap.insertPair s.fds s.inner k c b).1 = s.inner := by
  have hf := hs.1.fits c x hx
  obtain ⟨-, hact⟩ := hf.pairing b (.inl hcall)
  have halloc : s.inner.allocatedPairs c = none := by
    have := hf.allocated
    simpa [hact, hcall] using this
  refine insertPair_false hdelete (fun sock key hsock hkey => ?_) hok
  by_contra hne
  obtain ⟨d, keys, hkeys, hcase⟩ := hs.tracked key hne
  have hd : d ≠ c := by
    rintro rfl
    cases halloc.symm.trans hkeys
  obtain ⟨h₁, h₂⟩ := hs.keys_fresh hx hcall hvacant hd hkeys (.inl rfl) hsock hkey
  exact hcase.elim h₁ h₂

theorem Kept.removePair (hs : Kept s) (hx : s.clients c = some x) (hcall : x.call = .unpairing b) :
    Kept { s.put c { x with call := .disconnecting } with
      inner := removePair s.inner true c } := by
  have hf := hs.1.fits c x hx
  obtain ⟨hconn, hact⟩ := hf.pairing b (.inr (.inr hcall))
  obtain ⟨keys₀, halloc⟩ := Option.isSome_iff_exists.1 (hf.allocated.2 (.inr ⟨b, .inr hcall⟩))
  obtain ⟨b₀, sock₀, backendSock₀, h₀⟩ := hs.2.1 c keys₀ halloc
  have hinner : Sockmap.removePair s.inner true c
      = ⟨Function.update (Function.update s.inner.peers keys₀.1 none) keys₀.2 none,
        Function.update s.inner.allocatedPairs c none⟩ := by
    unfold Sockmap.removePair
    rw [halloc]
    rfl
  rw [hinner]
  set inner : Inner := ⟨Function.update (Function.update s.inner.peers keys₀.1 none) keys₀.2 none,
    Function.update s.inner.allocatedPairs c none⟩ with hinner'
  set s' : State ι := { s.put c { x with call := .disconnecting } with inner := inner } with hs'
  have hconn' : s'.conn = s.conn := rfl
  have hfds' : s'.fds = s.fds := rfl
  have hother : ∀ d, d ≠ c → inner.allocatedPairs d = s.inner.allocatedPairs d :=
    fun d hd => Function.update_of_ne hd _ _
  have hself : inner.allocatedPairs c = none := Function.update_self _ _ _
  have hinv : Inv s' := by
    refine hs.1.setInner hx (by rfl) (by rfl) (by rfl) (by simp) hs.1.pairs.remove hother ?_
    have hpair := hf.pair_eq
    rw [hact] at hpair
    rw [hself]
    exact fits_absent hact hpair (.inr (.inl rfl))
  have hnone : ∀ key t, ¬ Entry s' c key t := by
    rintro key t ⟨keys, _, _, _, h, -⟩
    cases hself.symm.trans h.allocated
  have hclients : ∀ d, d ≠ c → s'.clients d = s.clients d :=
    fun d hd => Function.update_of_ne hd _ _
  refine ⟨hinv, hs.2.of_own keys₀ hconn' hfds' hclients hother ?_ ?_ ?_ ?_ ?_⟩
  · intro keys hkeys
    cases hself.symm.trans hkeys
  · intro d key t hdc he
    exact ((entry_congr hconn' hfds' (hclients d hdc) (hother d hdc)).1 he).disjoint hs.1 h₀ hdc
  · rintro key t (he | he)
    · exact ((h₀.entry_iff hs.1).1 he).imp And.left And.left
    · exact (hnone key t he).elim
  · intro key t hkey
    have hpeers : inner.peers key = none := by
      rcases hkey with rfl | rfl <;> simp [hinner', Function.update_apply]
    exact ⟨fun h => (nomatch hpeers.symm.trans h), fun he => (hnone key t he).elim⟩
  · intro key hq hp
    change inner.peers key = _
    simp only [hinner', Function.update_of_ne hq, Function.update_of_ne hp]

/-! ## Sockets that come and go -/

theorem Kept.accept (hs : Kept s) {sock : Socket} (hunused : s.fds c = none)
    (hclient : s.clients c = none) (hkey : KeyUnused s.fds sock) :
    Kept { s.put c ⟨i, sock, false, .idle, false⟩ with
      fds := Function.update s.fds c (some sock) } := by
  have hconn : ∀ j, s.conn j c = none := Listed.eq_none hs.1.conn_client hclient
  have hpair : ∀ j, s.pair j c = none := Listed.eq_none hs.1.pair_client hclient
  have halloc : s.inner.allocatedPairs c = none := by
    by_contra hne
    obtain ⟨keys, hkeys⟩ := Option.ne_none_iff_exists'.1 hne
    obtain ⟨b, sock', backendSock, h⟩ := hs.2.1 c keys hkeys
    obtain ⟨x, hx, -⟩ := h.client
    cases hclient.symm.trans hx
  set s' : State ι := { s.put c ⟨i, sock, false, .idle, false⟩ with
    fds := Function.update s.fds c (some sock) } with hs'
  have hclient' : ∀ d, s'.clients d
      = if d = c then some ⟨i, sock, false, .idle, false⟩ else s.clients d :=
    fun d => Function.update_apply _ _ _ _
  have hopen : ∀ fd, s.fds fd ≠ none → fd ≠ c := by
    rintro fd hfd rfl
    exact hfd hunused
  have hfds : ∀ fd, s.fds fd ≠ none → s'.fds fd = s.fds fd :=
    fun fd hfd => Function.update_of_ne (hopen fd hfd) _ _
  have howns : ∀ d b, s'.Owns d b → s.Owns d b := by
    rintro d b ⟨x, hx, hb⟩
    rw [hclient'] at hx
    split_ifs at hx with h
    · obtain rfl := Option.some.inj hx
      have hb' : s.conn i d = some b := hb.resolve_right (by simp)
      rw [h, hconn] at hb'
      cases hb'
    · exact ⟨x, hx, hb⟩
  have hfree : ∀ b, s.fds b ≠ none → s.Free b → s'.Free b := by
    intro b hb hb' x hx
    rw [hclient', if_neg (hopen b hb)] at hx
    exact hb' x hx
  have hinv : Inv s' := by
    refine ⟨?_, ?_, ?_, ?_, ?_, ?_, ?_, ?_, hs.1.pairs⟩
    · intro d x hx hlive
      rw [hclient'] at hx
      split_ifs at hx with h
      · obtain rfl := Option.some.inj hx
        rw [h]
        exact Function.update_self _ _ _
      · have hsock := hs.1.live d x hx hlive
        rw [hfds d (by simp [hsock]), hsock]
    · refine Listed.congr hs.1.conn_client fun j d b hb => ?_
      have hd : d ≠ c := by
        rintro rfl
        cases (hconn j).symm.trans hb
      rw [hclient', if_neg hd]
    · refine Listed.congr hs.1.pair_client fun j d b hb => ?_
      have hd : d ≠ c := by
        rintro rfl
        cases (hpair j).symm.trans hb
      rw [hclient', if_neg hd]
    · intro d x hx
      rw [hclient'] at hx
      split_ifs at hx with h
      · obtain rfl := Option.some.inj hx
        unfold State.fits
        rw [h, show s'.inner.allocatedPairs c = none from halloc]
        exact fits_absent rfl (hpair i) (.inl rfl)
      · exact hs.1.fits d x hx
    · intro d b hb
      obtain ⟨hfd, hcl, hrel⟩ := hs.1.backend d b (howns d b hb)
      exact ⟨by rwa [hfds b hfd], hfree b hfd hcl, hrel⟩
    · intro d e b hd he
      exact hs.1.owner d e b (howns d b hd) (howns e b he)
    · intro b hb
      obtain ⟨hfd, hcl⟩ := hs.1.released b hb
      exact ⟨by rwa [hfds b hfd], hfree b hfd hcl⟩
    · exact keys_update_some hs.1.keys hkey c
  refine ⟨hinv, hs.2.of_inner hinv rfl fun d keys b sock' backendSock h => ?_⟩
  obtain ⟨x, hx, hsock⟩ := h.client
  have hd : d ≠ c := by
    rintro rfl
    cases hclient.symm.trans hx
  refine ⟨h.allocated, h.connected, ⟨x, ?_, hsock⟩, ?_, h.selfKey, h.peerKey⟩
  · rw [hclient', if_neg hd, hx]
  · rw [hfds b (by simp [h.backend]), h.backend]

/-- A backend is closed that nobody has any more. -/
theorem Kept.drop (hs : Kept s) (hreleased : s.released b = true) :
    Kept { s with
      fds := Function.update s.fds b none, released := Function.update s.released b false } := by
  obtain ⟨-, hfree⟩ := hs.1.released b hreleased
  set s' : State ι := { s with
    fds := Function.update s.fds b none, released := Function.update s.released b false } with hs'
  have hfds : ∀ fd, fd ≠ b → s'.fds fd = s.fds fd := fun fd hfd => Function.update_of_ne hfd _ _
  have hreleased' : ∀ b', s'.released b' = true → b' ≠ b ∧ s.released b' = true := by
    intro b' hb'
    simp only [hs', Function.update_apply] at hb'
    split_ifs at hb' with hne
    exact ⟨hne, hb'⟩
  have hbackend : ∀ d b', s.Owns d b' → b' ≠ b := by
    rintro d b' hd rfl
    cases hreleased.symm.trans (hs.1.backend d b' hd).2.2
  have hinv : Inv s' := by
    refine ⟨?_, hs.1.conn_client, hs.1.pair_client, hs.1.fits, ?_, hs.1.owner, ?_,
      keys_update_none hs.1.keys b, hs.1.pairs⟩
    · intro d x hx hopen
      have hd : d ≠ b := by
        rintro rfl
        cases hopen.symm.trans (hfree x hx)
      rw [hfds d hd]
      exact hs.1.live d x hx hopen
    · intro d b' hb'
      obtain ⟨hfd, hcl, hrel⟩ := hs.1.backend d b' hb'
      refine ⟨by rwa [hfds b' (hbackend d b' hb')], hcl, ?_⟩
      by_contra hne
      cases hrel.symm.trans (hreleased' b' (by simpa using hne)).2
    · intro b' hb'
      obtain ⟨hne, hrel⟩ := hreleased' b' hb'
      obtain ⟨hfd, hcl⟩ := hs.1.released b' hrel
      exact ⟨by rwa [hfds b' hne], hcl⟩
  refine ⟨hinv, hs.2.of_inner hinv rfl fun d keys b' sock' backendSock h => ?_⟩
  obtain ⟨j, hj⟩ := h.connected
  refine ⟨h.allocated, h.connected, h.client, ?_, h.selfKey, h.peerKey⟩
  rw [hfds b' (hbackend d b' (hs.1.owns_of_conn hj)), h.backend]

/-- A client that has no connection any more is forgotten. -/
theorem Kept.forget (hs : Kept s) (hconn : ∀ j, s.conn j c = none)
    (hpair : ∀ j, s.pair j c = none) : Kept (s.forget c) := by
  have hclient : ∀ d, d ≠ c → (s.forget c).clients d = s.clients d :=
    fun d hd => Function.update_of_ne hd _ _
  have hclient' : ∀ d x, (s.forget c).clients d = some x → s.clients d = some x := by
    intro d x hx
    simp only [State.forget, Function.update_apply] at hx
    split_ifs at hx
    exact hx
  have howns : ∀ d b, (s.forget c).Owns d b → s.Owns d b := by
    rintro d b ⟨x, hx, hb⟩
    exact ⟨x, hclient' d x hx, hb⟩
  have hinv : Inv (s.forget c) := by
    refine ⟨?_, ?_, ?_, ?_, ?_, ?_, ?_, hs.1.keys, hs.1.pairs⟩
    · intro d x hx
      exact hs.1.live d x (hclient' d x hx)
    · refine Listed.congr hs.1.conn_client fun j d b hb => hclient d ?_
      rintro rfl
      cases (hconn j).symm.trans hb
    · refine Listed.congr hs.1.pair_client fun j d b hb => hclient d ?_
      rintro rfl
      cases (hpair j).symm.trans hb
    · intro d x hx
      exact hs.1.fits d x (hclient' d x hx)
    · intro d b hb
      obtain ⟨hfd, hcl, hrel⟩ := hs.1.backend d b (howns d b hb)
      exact ⟨hfd, fun x hx => hcl x (hclient' b x hx), hrel⟩
    · intro d e b hd he
      exact hs.1.owner d e b (howns d b hd) (howns e b he)
    · intro b hb
      obtain ⟨hfd, hcl⟩ := hs.1.released b hb
      exact ⟨hfd, fun x hx => hcl x (hclient' b x hx)⟩
  refine ⟨hinv, hs.2.of_inner hinv rfl fun d keys b sock' backendSock h => ?_⟩
  obtain ⟨j, hj⟩ := h.connected
  obtain ⟨x, hx, hsock⟩ := h.client
  have hd : d ≠ c := by
    rintro rfl
    cases (hconn j).symm.trans hj
  exact ⟨h.allocated, h.connected, ⟨x, by rw [hclient d hd, hx], hsock⟩, h.backend, h.selfKey,
    h.peerKey⟩

theorem Kept.forget_idle (hs : Kept s) (hx : s.clients c = some x) (hact : x.activated = false)
    (hconn : s.conn x.adapter c = none) : Kept (s.forget c) := by
  have hadapter : ∀ {j y}, s.clients c = some y → y.adapter = j → x.adapter = j := by
    rintro j y hy rfl
    rw [Option.some.inj (hx.symm.trans hy)]
  refine hs.forget (fun j => ?_) fun j => ?_ <;> by_contra hne <;>
    obtain ⟨b, hb⟩ := Option.ne_none_iff_exists'.1 hne
  · obtain ⟨y, hy, hyj⟩ := hs.1.conn_client j c b hb
    rw [← hadapter hy hyj, hconn] at hb
    cases hb
  · obtain ⟨y, hy, hyj⟩ := hs.1.pair_client j c b hb
    rw [← hadapter hy hyj, (hs.1.fits c x hx).pair_eq, hact] at hb
    cases hb

theorem Kept.gone (hs : Kept s) (hc : s.clients c = none) : Gone s c := by
  have halloc : s.inner.allocatedPairs c = none := by
    by_contra hne
    obtain ⟨keys, hkeys⟩ := Option.ne_none_iff_exists'.1 hne
    obtain ⟨b, sock, backendSock, h⟩ := hs.2.1 c keys hkeys
    obtain ⟨x, hx, -⟩ := h.client
    cases hc.symm.trans hx
  refine ⟨fun j => ⟨Listed.eq_none hs.1.conn_client hc j, Listed.eq_none hs.1.pair_client hc j⟩,
    halloc, fun key t ht => ?_⟩
  obtain ⟨d, keys, hkeys, hcase⟩ := hs.tracked key (by simp [ht])
  refine ⟨d, keys, ?_, hkeys, hcase⟩
  rintro rfl
  cases halloc.symm.trans hkeys

theorem kept_new {available : Bool} : Kept (new available : State ι) := by
  refine ⟨⟨?_, ?_, ?_, ?_, ?_, ?_, ?_, ?_, ?_⟩, ?_, fun key t => ⟨?_, ?_⟩⟩
  · intro c x hx
    cases hx
  · intro i c b hb
    cases hb
  · intro i c b hb
    cases hb
  · intro c x hx
    cases hx
  · rintro c b ⟨x, hx, -⟩
    cases hx
  · rintro c c' b ⟨x, hx, -⟩
    cases hx
  · intro b hb
    cases hb
  · intro fd fd' t t' key hfd
    cases hfd
  · intro c c' keys keys' hne hkeys
    cases hkeys
  · intro c keys hkeys
    cases hkeys
  · intro h
    cases h
  · rintro ⟨c, keys, b, sock, backendSock, h, -⟩
    cases h.allocated

end Pairs

end ProtocolProxy
