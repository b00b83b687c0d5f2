import ProtocolProxy.PhpRaw
import ProtocolProxy.Slots

/-!
# Pooled raw connections stay in step

While the backends' replies are sound, a connection is idle only when everything that was asked on
it has been answered and the answers have been received to the last byte.  A request that is written
to it then reads its own answer and no other (`InSync`).

A connection is in one pool or with one call, which its `owner` says, so that what one call does to
its connection is nothing to the others (`InSync.set`, `Idle.set`).
-/

namespace ProtocolProxy

namespace PhpRaw

open Digits Machine Search Slots
open Http (crlfCrlf)
open PhpHttp (hostAndPort)

/-! ## Pool keys -/

variable {host host' : Text} {port port' : ℤ}

theorem hostAndPort_inj (hhost : ':' ∉ host) (hhost' : ':' ∉ host')
    (h : hostAndPort host port = hostAndPort host' port') : host = host' ∧ port = port' := by
  have hsplit : splitOnce ':' (hostAndPort host port) = some (host, (toString port).toList) :=
    splitOnce_eq_some.2 ⟨rfl, hhost⟩
  rw [h, hostAndPort, splitOnce_eq_some.2 ⟨rfl, hhost'⟩, Option.some.injEq, Prod.mk.injEq] at hsplit
  refine ⟨hsplit.1.symm, Int.repr_injective ?_⟩
  rw [← Int.toString_eq_repr, ← Int.toString_eq_repr]
  exact String.toList_inj.1 hsplit.2.symm

theorem rawKey_inj (hhost : ':' ∉ host) (hhost' : ':' ∉ host')
    (h : rawKey host port = rawKey host' port') : host = host' ∧ port = port' :=
  hostAndPort_inj hhost hhost' (List.append_cancel_left h)

theorem colon_notMem_host (intval : Text → ℤ) (endpoint : Text) (defaultPort : ℤ) :
    ':' ∉ (PhpHttp.parseEndpoint intval endpoint defaultPort).1 := by
  unfold PhpHttp.parseEndpoint
  rcases hsplit : splitOnce ':' endpoint with _ | ⟨host, portStr⟩
  · exact splitOnce_eq_none.1 hsplit
  · exact (splitOnce_eq_some.1 hsplit).2

/-! ## Replies in pieces -/

variable {reply buffer rest head body : Bytes} {n : ℕ}

theorem Splits.unique {head' body' : Bytes} (h : Splits reply head body)
    (h' : Splits reply head' body') : head = head' ∧ body = body' := by
  obtain ⟨heq, hfirst⟩ := h
  obtain ⟨heq', hfirst'⟩ := h'
  rw [hfirst, Option.some.injEq] at hfirst'
  rw [heq] at heq'
  obtain ⟨hhead, hbody⟩ := List.append_inj heq' (by simp [hfirst'])
  exact ⟨(List.append_inj hhead hfirst').1, hbody⟩

/-- The block that ends in the bytes received so far is the block of the reply. -/
theorem splits_of_firstAt (h : firstAt crlfCrlf buffer = some n) (hreply : buffer ++ rest = reply) :
    Splits reply (buffer.take n) (buffer.drop (n + 4) ++ rest) := by
  have hbegins : buffer <+: reply := ⟨rest, hreply⟩
  have hlen := length_le_of_firstAt h
  have hfirst : firstAt crlfCrlf reply = some n := by
    rcases hr : firstAt crlfCrlf reply with _ | m
    · rw [firstAt_eq_none_of_isPrefix hbegins hr] at h
      cases h
    · rw [firstAt_of_isPrefix hbegins hr] at h
      split_ifs at h
      exact h
  have hblock : buffer = buffer.take n ++ crlfCrlf ++ buffer.drop (n + 4) := by
    obtain ⟨t, ht⟩ := (firstAt_eq_some.1 h).1
    have hdrop : buffer.drop (n + 4) = t := by
      rw [← List.drop_drop, ← ht]
      rfl
    rw [hdrop, List.append_assoc, ht, List.take_append_drop]
  refine ⟨?_, ?_⟩
  · rw [← hreply, ← List.append_assoc, ← hblock]
  · rw [hfirst, List.length_take, Nat.min_eq_left (by omega)]

/-- When the forwarder has a body of the announced length, nothing of a sound reply is left. -/
theorem Sound.rest_eq_nil (hsound : Sound reply) (hsplits : Splits reply head (body ++ rest))
    {length : ℤ} (hlength : (parseHead (chars head)).length = some length)
    (hle : length ≤ body.length) : rest = [] := by
  obtain ⟨head', body', hsplits', hall⟩ := hsound
  obtain ⟨rfl, rfl⟩ := hsplits.unique hsplits'
  rcases hall length hlength with hnil | heq
  · exact (List.append_eq_nil_iff.1 hnil).2
  · rw [List.length_append] at heq
    exact List.length_eq_zero_iff.1 (by omega)

/-! ## Connections and their owners -/

variable {config : Config} {answer : ℕ → Bytes} {s s' : State} {clients : List Client}
  {i j k k' : ℕ} {c c' : Client} {call call' : Call} {key : Text}

/-- Call `i` has connection `k` to its own host and port, on which this is still to be received. -/
def Holds (clients : List Client) (i : ℕ) (call : Call) (k : ℕ) (rest : Bytes) : Prop :=
  ∃ c, clients[k]? = some c ∧ c.owner = .call i ∧ c.host = call.host ∧ c.port = call.port
    ∧ c.unread = rest

/-- Connection `k` is idle in the pool of its own host and port, and nothing is to be received. -/
def Idle (clients : List Client) (key : Text) (k : ℕ) : Prop :=
  ∃ c, clients[k]? = some c ∧ c.owner = .idle key ∧ ':' ∉ c.host ∧ rawKey c.host c.port = key
    ∧ c.unread = []

/-- What a call has received and what is still to be received on its connection is its own
answer. -/
def StageInSync (config : Config) (reply : Bytes) (clients : List Client) (i : ℕ) (call : Call) :
    Stage → Prop
  | .popping | .connecting => call.response = none
  | .sending k => call.response = none ∧ Holds clients i call k []
  | .readHead k buffer => call.response = none ∧ firstAt crlfCrlf buffer = none
      ∧ ∃ rest, Holds clients i call k rest ∧ buffer ++ rest = reply
  | .readBody k head body remaining => call.response = none ∧ 0 < remaining
      ∧ ∃ block rest, Holds clients i call k rest ∧ Splits reply block (body ++ rest)
        ∧ head = parseHead (chars block) ∧ head.length = some (remaining + body.length)
  | .pushing k => Holds clients i call k []
      ∧ ∃ response, call.response = some response ∧ Relays config reply response
  | .returned => ∃ response, call.response = some response
      ∧ (Relays config reply response ∨ ∃ headers, response = badGateway headers)

structure InSync (config : Config) (reply : Bytes) (clients : List Client) (i : ℕ) (call : Call) :
    Prop where
  host : ':' ∉ call.host
  stage : StageInSync config reply clients i call call.stage

theorem getElem?_set_of_owner (hk : clients[k]? = some c) (hk' : clients[k']? = some c')
    (hne : c.owner ≠ c'.owner) (x : Client) : (clients.set k x)[k']? = some c' := by
  have hkk : k ≠ k' := by
    rintro rfl
    rw [hk, Option.some.injEq] at hk'
    exact hne (congrArg Client.owner hk')
  rw [List.getElem?_set_ne hkk, hk']

/-- What happens to a connection does not matter to a call that has another one. -/
theorem Holds.set (h : Holds clients j call k' rest) (hk : clients[k]? = some c)
    (howner : c.owner ≠ .call j) (x : Client) : Holds (clients.set k x) j call k' rest := by
  obtain ⟨c', hc', hown, hrest⟩ := h
  exact ⟨c', getElem?_set_of_owner hk hc' (hown ▸ howner) x, hown, hrest⟩

theorem InSync.mono {clients' : List Client} (h : InSync config reply clients i call)
    (hmono : ∀ k rest, Holds clients i call k rest → Holds clients' i call k rest) :
    InSync config reply clients' i call := by
  obtain ⟨hhost, hstage⟩ := h
  refine ⟨hhost, ?_⟩
  cases hst : call.stage with
  | popping | connecting | returned =>
    rw [hst] at hstage
    exact hstage
  | sending k | pushing k =>
    rw [hst] at hstage
    first
    | exact ⟨hstage.1, hmono _ _ hstage.2⟩
    | exact ⟨hmono _ _ hstage.1, hstage.2⟩
  | readHead k buffer =>
    rw [hst] at hstage
    obtain ⟨hnone, hfirst, rest, hholds, heq⟩ := hstage
    exact ⟨hnone, hfirst, rest, hmono _ _ hholds, heq⟩
  | readBody k head body remaining =>
    rw [hst] at hstage
    obtain ⟨hnone, hpos, block, rest, hholds, hrest⟩ := hstage
    exact ⟨hnone, hpos, block, rest, hmono _ _ hholds, hrest⟩

theorem InSync.set (h : InSync config reply clients j call) (hk : clients[k]? = some c)
    (howner : c.owner ≠ .call j) (x : Client) : InSync config reply (clients.set k x) j call :=
  h.mono fun _ _ hholds => hholds.set hk howner x

theorem Idle.set (h : Idle clients key k') (hk : clients[k]? = some c)
    (howner : c.owner ≠ .idle key) (x : Client) : Idle (clients.set k x) key k' := by
  obtain ⟨c', hc', hown, hrest⟩ := h
  exact ⟨c', getElem?_set_of_owner hk hc' (hown ▸ howner) x, hown, hrest⟩

/-- The connection that a call had, after something was done to it. -/
theorem holds_set (hk : clients[k]? = some c) (howner : c'.owner = .call i)
    (hhost : c'.host = call.host) (hport : c'.port = call.port) :
    Holds (clients.set k c') i call k c'.unread :=
  ⟨c', List.getElem?_set_self (List.getElem?_eq_some_iff.1 hk).1, howner, hhost, hport, rfl⟩

theorem unread_arrive (c : Client) (n : ℕ) : (c.arrive n).unread = c.unread := by
  simp [Client.arrive, Client.unread]

theorem Holds.arrive (h : Holds clients j call k' rest) (hk : clients[k]? = some c) (n : ℕ) :
    Holds (clients.set k (c.arrive n)) j call k' rest := by
  obtain ⟨c', hc', hown, hhost, hport, hrest⟩ := h
  by_cases hkk : k = k'
  · subst hkk
    rw [hk, Option.some.injEq] at hc'
    subst hc'
    rw [← hrest, ← unread_arrive c n]
    exact holds_set hk hown hhost hport
  · exact ⟨c', by rw [List.getElem?_set_ne hkk, hc'], hown, hhost, hport, hrest⟩

theorem Idle.arrive (h : Idle clients key k') (hk : clients[k]? = some c) (n : ℕ) :
    Idle (clients.set k (c.arrive n)) key k' := by
  obtain ⟨c', hc', hown, hhost, hkey, hrest⟩ := h
  by_cases hkk : k = k'
  · subst hkk
    rw [hk, Option.some.injEq] at hc'
    subst hc'
    exact ⟨c.arrive n, List.getElem?_set_self (List.getElem?_eq_some_iff.1 hk).1, hown, hhost, hkey,
      (unread_arrive c n).trans hrest⟩
  · exact ⟨c', by rw [List.getElem?_set_ne hkk, hc'], hown, hhost, hkey, hrest⟩

/-! ## The invariant -/

structure PoolInSync (config : Config) (clients : List Client) (key : Text) (pool : List ℕ) :
    Prop where
  nodup : pool.Nodup
  room : pool.length ≤ capacity config
  idle : ∀ k ∈ pool, Idle clients key k

theorem PoolInSync.mono {clients' : List Client} {pool : List ℕ}
    (h : PoolInSync config clients key pool)
    (hmono : ∀ k, Idle clients key k → Idle clients' key k) :
    PoolInSync config clients' key pool :=
  ⟨h.nodup, h.room, fun k hk => hmono k (h.idle k hk)⟩

structure Inv (config : Config) (answer : ℕ → Bytes) (s : State) : Prop where
  pools : ∀ key, PoolInSync config s.clients key (s.pools key)
  calls : ∀ i call, s.calls[i]? = some call → InSync config (answer i) s.clients i call

theorem inv_new : Inv config answer new where
  pools _ := ⟨List.nodup_nil, Nat.zero_le _, by simp [new]⟩
  calls := by simp [new]

/-- A call goes on without touching a connection. -/
theorem Inv.put (hs : Inv config answer s) (hi : InSync config (answer i) s.clients i call') :
    Inv config answer (s.put i call') :=
  ⟨hs.pools, forall_set hi fun j x _ hx => hs.calls j x hx⟩

/-- A call goes on, with something done to its own connection. -/
theorem Inv.setClient (hs : Inv config answer s) (hk : s.clients[k]? = some c)
    (howner : c.owner = .call i) (hi : InSync config (answer i) (s.clients.set k c') i call') :
    Inv config answer ((s.setClient k c').put i call') where
  pools key := (hs.pools key).mono fun k' hidle => hidle.set hk (by simp [howner]) c'
  calls := by
    refine forall_set hi fun j x hij hx => (hs.calls j x hx).set hk ?_ c'
    rw [howner]
    exact fun h => hij (Owner.call.inj h).symm

theorem Inv.readBody (hs : Inv config answer s) (hsound : Sound (answer i))
    (hk : s.clients[k]? = some c) (howner : c.owner = .call i) {head : Head} {block body : Bytes}
    {remaining : ℤ} (hhost : ':' ∉ call.host) (hnone : call.response = none)
    (hholds : Holds (s.clients.set k c') i call k rest)
    (hsplits : Splits (answer i) block (body ++ rest)) (hhead : head = parseHead (chars block))
    (hlength : head.length = some (remaining + body.length)) :
    Inv config answer ((s.setClient k c').readBody config i k call head body remaining) := by
  unfold State.readBody
  split_ifs with hpos
  · exact hs.setClient hk howner
      ⟨hhost, hnone, hpos, block, rest, hholds, hsplits, hhead, hlength⟩
  · subst hhead
    have hrest : rest = [] := hsound.rest_eq_nil hsplits hlength (by omega)
    subst hrest
    rw [List.append_nil] at hsplits
    exact hs.setClient hk howner ⟨hhost, hholds, _, rfl, block, body, body, hsplits, rfl,
      List.prefix_refl _, fun _ => rfl⟩

theorem Inv.readHead (hs : Inv config answer s) (hsound : Sound (answer i))
    (hk : s.clients[k]? = some c) (howner : c.owner = .call i) {buffer : Bytes}
    (hhost : ':' ∉ call.host) (hnone : call.response = none)
    (hholds : Holds (s.clients.set k c') i call k rest) (hreply : buffer ++ rest = answer i) :
    Inv config answer ((s.setClient k c').readHead config i k c' call buffer) := by
  unfold State.readHead
  split
  next hfirst =>
    exact hs.setClient hk howner ⟨hhost, hnone, hfirst, rest, hholds, hreply⟩
  next position hfirst =>
    have hsplits := splits_of_firstAt hfirst hreply
    simp only
    split
    next contentLength hlength =>
      refine hs.readBody hsound hk howner hhost hnone hholds hsplits rfl ?_
      rw [hlength]
      congr 1
      omega
    next hlength =>
      have hclose : (s.setClient k c').setClient k (c'.give .closed)
          = s.setClient k (c'.give .closed) := by
        simp [State.setClient]
      rw [hclose]
      refine hs.setClient hk howner ⟨hhost, _, rfl, .inl ⟨_, _, _, hsplits, rfl,
        List.prefix_append _ _, ?_⟩⟩
      rw [hlength]
      simp

/-- A call closes its connection, with a response that is its own. -/
theorem Inv.close (hs : Inv config answer s) (hk : s.clients[k]? = some c)
    (howner : c.owner = .call i) {response : Response} (hhost : ':' ∉ call'.host)
    (hreturned : call'.stage = .returned) (hresponse : call'.response = some response)
    (hown : Relays config (answer i) response ∨ ∃ headers, response = badGateway headers) :
    Inv config answer ((s.setClient k (c.give .closed)).put i call') :=
  hs.setClient hk howner ⟨hhost, by rw [hreturned]; exact ⟨response, hresponse, hown⟩⟩

/-- A connection is taken from a pool. -/
theorem Inv.pop (hs : Inv config answer s) {rest : List ℕ} (hpool : s.pools key = k :: rest)
    (hk : s.clients[k]? = some c) (owner : Owner)
    (hi : InSync config (answer i) (s.clients.set k (c.give owner)) i call') :
    Inv config answer (((s.setPool key rest).setClient k (c.give owner)).put i call') := by
  obtain ⟨hnodup, hroom, hidle⟩ := hs.pools key
  rw [hpool] at hnodup hroom hidle
  rw [List.nodup_cons] at hnodup
  rw [List.length_cons] at hroom
  have howner : c.owner = .idle key := by
    obtain ⟨c', hc', hown, -⟩ := hidle k List.mem_cons_self
    rw [hk, Option.some.injEq] at hc'
    exact hc' ▸ hown
  refine ⟨(Function.forall_update_iff _ fun key' pool => PoolInSync config _ key' pool).2
      ⟨⟨hnodup.2, by omega, fun k' hk' => ?_⟩,
        fun key' hkey => (hs.pools key').mono fun k' hidle' => hidle'.set hk ?_ _⟩,
    forall_set hi fun j x _ hx => (hs.calls j x hx).set hk (by simp [howner]) _⟩
  · -- the connection is not in its pool a second time
    obtain ⟨c', hc', hrest⟩ := hidle k' (List.mem_cons_of_mem k hk')
    have hkk : k ≠ k' := by
      rintro rfl
      exact hnodup.1 hk'
    exact ⟨c', (List.getElem?_set_ne hkk).trans hc', hrest⟩
  · rw [howner]
    exact fun h => hkey (Owner.idle.inj h).symm

/-- A connection with nothing left to be received is put into the pool of its call. -/
theorem Inv.push (hs : Inv config answer s) (hk : s.clients[k]? = some c)
    (howner : c.owner = .call i) (hhost : ':' ∉ c.host) (hkey : rawKey c.host c.port = key)
    (hunread : c.unread = []) (hroom : (s.pools key).length < capacity config)
    (hi : InSync config (answer i) (s.clients.set k (c.give (.idle key))) i call') :
    Inv config answer (((s.setPool key (s.pools key ++ [k])).setClient k (c.give (.idle key))).put i
      call') := by
  have hold : ∀ key',
      PoolInSync config (s.clients.set k (c.give (.idle key))) key' (s.pools key') :=
    fun key' => (hs.pools key').mono fun k' hidle => hidle.set hk (by simp [howner]) _
  have hnot : k ∉ s.pools key := by
    intro hmem
    obtain ⟨c', hc', hown, -⟩ := (hs.pools key).idle k hmem
    rw [hk, Option.some.injEq] at hc'
    subst hc'
    rw [howner] at hown
    cases hown
  have hnodup : (s.pools key ++ [k]).Nodup := by
    rw [← List.concat_eq_append]
    exact (hs.pools key).nodup.concat hnot
  refine ⟨(Function.forall_update_iff _ fun key' pool => PoolInSync config _ key' pool).2
      ⟨⟨hnodup, by simpa using hroom, fun k' hk' => ?_⟩, fun key' _ => hold key'⟩,
    forall_set hi fun j x hij hx => (hs.calls j x hx).set hk ?_ _⟩
  · rcases List.mem_append.1 hk' with hk' | hk'
    · exact (hold key).idle k' hk'
    · rw [List.mem_singleton.1 hk']
      exact ⟨c.give (.idle key), List.getElem?_set_self (List.getElem?_eq_some_iff.1 hk).1, rfl,
        hhost, hkey, hunread⟩
  · rw [howner]
    exact fun h => hij (Owner.call.inj h).symm

/-- A connection is added. -/
theorem Inv.connect (hs : Inv config answer s)
    (hi : InSync config (answer i) (s.clients ++ [c]) i call') :
    Inv config answer ({ s with clients := s.clients ++ [c] }.put i call') := by
  have hkeep : ∀ {k : ℕ} {c' : Client}, s.clients[k]? = some c' →
      (s.clients ++ [c])[k]? = some c' := fun hc' =>
    (List.getElem?_append_left (List.getElem?_eq_some_iff.1 hc').1).trans hc'
  refine ⟨fun key => (hs.pools key).mono fun k hidle => ?_,
    forall_set hi fun j x _ hx => (hs.calls j x hx).mono fun k rest hholds => ?_⟩
  · obtain ⟨c', hc', hrest⟩ := hidle
    exact ⟨c', hkeep hc', hrest⟩
  · obtain ⟨c', hc', hrest⟩ := hholds
    exact ⟨c', hkeep hc', hrest⟩

theorem unread_recv (c : Client) (n : ℕ) :
    c.inbox.take n ++ (c.recv n).unread = c.unread := by
  simp [Client.recv, Client.unread, ← List.append_assoc]

theorem resume_inv (hs : Inv config answer s) (hsound : Sound (answer i))
    (hcall : s.calls[i]? = some call) {move : Move}
    (h : s.resume config answer i call call.stage move = some s') : Inv config answer s' := by
  obtain ⟨hhost, hstage⟩ := hs.calls i call hcall
  cases hst : call.stage with
  | popping =>
    rw [hst] at h hstage
    cases move with
    | pop connected =>
      simp only [State.resume] at h
      split at h
      next => cases h
      next k rest hpool =>
        obtain ⟨c, hk, rfl⟩ := Option.map_eq_some_iff.1 h
        obtain ⟨c', hc', hown, hchost, hckey, hunread⟩ := (hs.pools call.poolKey).idle k
          (by simp [hpool])
        rw [hk, Option.some.injEq] at hc'
        subst hc'
        obtain ⟨heqhost, heqport⟩ := rawKey_inj hchost hhost hckey
        split_ifs
        · refine hs.pop hpool hk (.call i) ⟨hhost, hstage, ?_⟩
          rw [← hunread]
          exact holds_set hk rfl heqhost heqport
        · exact hs.pop hpool hk .closed ⟨hhost, hstage⟩
    | popTimeout =>
      cases h
      exact hs.put ⟨hhost, hstage⟩
    | connect | send | recv | recvFails | push | pushTimeout => cases h
  | connecting =>
    rw [hst] at h hstage
    cases move with
    | connect ok =>
      simp only [State.resume] at h
      split_ifs at h
      · cases h
        exact hs.connect ⟨hhost, hstage, _, List.getElem?_concat_length, rfl, rfl, rfl, rfl⟩
      · cases h
        exact hs.put ⟨hhost, _, rfl, .inr ⟨_, rfl⟩⟩
    | pop | popTimeout | send | recv | recvFails | push | pushTimeout => cases h
  | sending k =>
    rw [hst] at h hstage
    obtain ⟨hnone, c, hk, hown, hchost, hcport, hunread⟩ := hstage
    cases move with
    | send ok =>
      obtain ⟨c', hc', rfl⟩ := Option.map_eq_some_iff.1 h
      rw [hk, Option.some.injEq] at hc'
      subst hc'
      split_ifs
      · refine hs.setClient hk hown ⟨hhost, hnone, rfl, _, holds_set hk hown hchost hcport, ?_⟩
        rw [Client.unread, List.append_eq_nil_iff] at hunread
        simp [Client.send, Client.unread, hunread]
      · exact hs.close hk hown hhost rfl rfl (.inr ⟨_, rfl⟩)
    | pop | popTimeout | connect | recv | recvFails | push | pushTimeout => cases h
  | readHead k buffer =>
    rw [hst] at h hstage
    obtain ⟨hnone, hfirst, rest, ⟨c, hk, hown, hchost, hcport, hunread⟩, hreply⟩ := hstage
    cases move with
    | recv n =>
      obtain ⟨c', hc', h⟩ := Option.bind_eq_some_iff.1 h
      rw [hk, Option.some.injEq] at hc'
      subst hc'
      split_ifs at h with hn
      cases h
      refine hs.readHead hsound hk hown hhost hnone (holds_set hk hown hchost hcport) ?_
      rw [List.append_assoc, unread_recv, hunread, hreply]
    | recvFails =>
      obtain ⟨c', hc', rfl⟩ := Option.map_eq_some_iff.1 h
      rw [hk, Option.some.injEq] at hc'
      subst hc'
      exact hs.close hk hown hhost rfl rfl (.inr ⟨_, rfl⟩)
    | pop | popTimeout | connect | send | push | pushTimeout => cases h
  | readBody k head body remaining =>
    rw [hst] at h hstage
    obtain ⟨hnone, hpos, block, rest, ⟨c, hk, hown, hchost, hcport, hunread⟩, hsplits, hhead,
      hlength⟩ := hstage
    cases move with
    | recv n =>
      obtain ⟨c', hc', h⟩ := Option.bind_eq_some_iff.1 h
      rw [hk, Option.some.injEq] at hc'
      subst hc'
      split_ifs at h with hn
      cases h
      refine hs.readBody hsound hk hown hhost hnone (holds_set hk hown hchost hcport) ?_ hhead ?_
      · rw [List.append_assoc, unread_recv, hunread]
        exact hsplits
      · rw [hlength, List.length_append, List.length_take, Nat.min_eq_left hn.2]
        congr 1
        push_cast
        omega
    | recvFails =>
      obtain ⟨c', hc', rfl⟩ := Option.map_eq_some_iff.1 h
      rw [hk, Option.some.injEq] at hc'
      subst hc'
      exact hs.close hk hown hhost rfl rfl (.inr ⟨_, rfl⟩)
    | pop | popTimeout | connect | send | push | pushTimeout => cases h
  | pushing k =>
    rw [hst] at h hstage
    obtain ⟨⟨c, hk, hown, hchost, hcport, hunread⟩, response, hresponse, hrelays⟩ := hstage
    cases move with
    | push connected =>
      obtain ⟨c', hc', h⟩ := Option.bind_eq_some_iff.1 h
      rw [hk, Option.some.injEq] at hc'
      subst hc'
      split_ifs at h with hconn hroom
      · cases h
        refine hs.push hk hown (hchost ▸ hhost) ?_ hunread hroom
          ⟨hhost, response, hresponse, .inl hrelays⟩
        rw [hchost, hcport, Call.poolKey]
      · cases h
        exact hs.close hk hown hhost rfl hresponse (.inl hrelays)
    | pushTimeout =>
      obtain ⟨c', hc', rfl⟩ := Option.map_eq_some_iff.1 h
      rw [hk, Option.some.injEq] at hc'
      subst hc'
      exact hs.close hk hown hhost rfl hresponse (.inl hrelays)
    | pop | popTimeout | connect | send | recv | recvFails => cases h
  | returned =>
    rw [hst] at h
    cases move <;> cases h

theorem step_inv (hsound : ∀ i, Sound (answer i)) (hs : Inv config answer s) {a : Action}
    (h : step config answer s a = some s') : Inv config answer s' := by
  cases a with
  | forward request endpoint =>
    cases h
    exact ⟨hs.pools, forall_concat ⟨colon_notMem_host _ endpoint 80, rfl⟩ hs.calls⟩
  | arrive k n =>
    obtain ⟨c, hk, rfl⟩ := Option.map_eq_some_iff.1 h
    exact ⟨fun key => (hs.pools key).mono fun k' hidle => hidle.arrive hk n,
      fun i call hi => (hs.calls i call hi).mono fun k' rest hholds => hholds.arrive hk n⟩
  | resume i move =>
    obtain ⟨call, hcall, h⟩ := Option.bind_eq_some_iff.1 h
    exact resume_inv hs (hsound i) hcall h

/-- A response that is ended is the reply or a 502. -/
theorem Inv.relays (hs : Inv config answer s) {call : Call} {response : Response}
    (hi : s.calls[i]? = some call) (hresponse : call.response = some response) :
    Relays config (answer i) response ∨ ∃ headers, response = badGateway headers := by
  have hstage := (hs.calls i call hi).stage
  cases hst : call.stage with
  | popping | connecting =>
    rw [hst, StageInSync, hresponse] at hstage
    cases hstage
  | sending | readHead | readBody =>
    rw [hst, StageInSync, hresponse] at hstage
    cases hstage.1
  | pushing k =>
    rw [hst] at hstage
    obtain ⟨-, r, hr, hrelays⟩ := hstage
    rw [hresponse, Option.some.injEq] at hr
    exact .inl (hr ▸ hrelays)
  | returned =>
    rw [hst] at hstage
    obtain ⟨r, hr, hown⟩ := hstage
    rw [hresponse, Option.some.injEq] at hr
    exact hr ▸ hown

/-- However the requests are interleaved, the replies cut and the calls failing, a request that is
answered with something other than 502 gets the reply to it, of which the body is complete if it has
an announced length; and no connection waits in a pool with anything to be received, or in a pool
that is not that of its host and port. -/
theorem replies_in_step (config : Config) {answer : ℕ → Bytes} (hsound : ∀ i, Sound (answer i))
    {as : List Action} {s : State} (h : run (step config answer) new as = some s) :
    (∀ (i : ℕ) call response, s.calls[i]? = some call → call.response = some response →
      Relays config (answer i) response ∨ ∃ headers, response = badGateway headers)
    ∧ ∀ key, (s.pools key).length ≤ capacity config ∧ ∀ k ∈ s.pools key, ∃ c,
      s.clients[k]? = some c ∧ rawKey c.host c.port = key ∧ c.unread = [] := by
  have hs : Inv config answer s :=
    run_inv (fun _ _ _ hs hstep => step_inv hsound hs hstep) inv_new h
  refine ⟨fun i call response hi hresponse => hs.relays hi hresponse,
    fun key => ⟨(hs.pools key).room, fun k hk => ?_⟩⟩
  obtain ⟨c, hc, -, -, hkey, hunread⟩ := (hs.pools key).idle k hk
  exact ⟨c, hc, hkey, hunread⟩

def lengthBlock : Bytes := asBytes "HTTP/1.1 200 OK\r\nContent-Length: 2".toList

/-- The first request is answered with `hi`, the others with `ok`. -/
def hiThenOk (i : ℕ) : Bytes :=
  lengthBlock ++ crlfCrlf ++ if i = 0 then [104, 105] else [111, 107]

theorem sound_hiThenOk (i : ℕ) : Sound (hiThenOk i) := by
  refine ⟨lengthBlock, _, ⟨rfl, rfl⟩, fun n hn => .inr ?_⟩
  have htwo : (parseHead (chars lengthBlock)).length = some 2 := rfl
  rw [htwo, Option.some.injEq] at hn
  rw [← hn]
  split_ifs <;> rfl

/-- Two requests, the second on the connection of the first.  The replies come in two pieces. -/
def keptAlive : List Action :=
  [.forward ⟨.get, none, none⟩ ['b'], .resume 0 .popTimeout, .resume 0 (.connect true),
    .resume 0 (.send true), .arrive 0 37, .resume 0 (.recv 37), .arrive 0 3, .resume 0 (.recv 3),
    .resume 0 (.push true), .forward ⟨.get, none, none⟩ "b:80".toList, .resume 1 (.pop true),
    .resume 1 (.send true), .arrive 0 39, .resume 1 (.recv 39), .arrive 0 1, .resume 1 (.recv 1)]

theorem replies_in_step_keptAlive :
    ∃ s call, run (step ⟨8, false⟩ hiThenOk) new keptAlive = some s ∧ s.clients.length = 1
      ∧ s.calls[1]? = some call ∧ call.response = some ⟨200, [], [111, 107]⟩
      ∧ Relays ⟨8, false⟩ (hiThenOk 1) ⟨200, [], [111, 107]⟩ := by
  have hrun : ∃ s call, run (step ⟨8, false⟩ hiThenOk) new keptAlive = some s
      ∧ s.clients.length = 1 ∧ s.calls[1]? = some call
      ∧ call.response = some ⟨200, [], [111, 107]⟩ := ⟨_, _, rfl, rfl, rfl, rfl⟩
  obtain ⟨s, call, hs, hone, hcall, hresponse⟩ := hrun
  refine ⟨s, call, hs, hone, hcall, hresponse, ?_⟩
  rcases (replies_in_step ⟨8, false⟩ sound_hiThenOk hs).1 1 call _ hcall hresponse with
    hrelays | ⟨headers, hbad⟩
  · exact hrelays
  · cases hbad

/-! ## What a call is made with -/

/-- The two calls are for one request, at one host and port. -/
def Call.SameTarget (call call' : Call) : Prop :=
  call'.request = call.request ∧ call'.host = call.host ∧ call'.port = call.port

theorem readBody_calls (s : State) (head : Head) (body : Bytes) (remaining : ℤ) :
    ∃ call', (s.readBody config i k call head body remaining).calls = s.calls.set i call'
      ∧ call.SameTarget call' := by
  unfold State.readBody
  split_ifs
  · exact ⟨_, rfl, rfl, rfl, rfl⟩
  · exact ⟨_, rfl, rfl, rfl, rfl⟩

theorem readHead_calls (s : State) (buffer : Bytes) :
    ∃ call', (s.readHead config i k c call buffer).calls = s.calls.set i call'
      ∧ call.SameTarget call' := by
  unfold State.readHead
  split
  · exact ⟨_, rfl, rfl, rfl, rfl⟩
  · dsimp only
    split
    · exact readBody_calls s _ _ _
    · exact ⟨_, rfl, rfl, rfl, rfl⟩

theorem resume_calls {stage : Stage} {move : Move}
    (h : s.resume config answer i call stage move = some s') :
    ∃ call', s'.calls = s.calls.set i call' ∧ call.SameTarget call' := by
  unfold State.resume at h
  split at h
  · split at h
    · cases h
    · obtain ⟨c, -, rfl⟩ := Option.map_eq_some_iff.1 h
      split_ifs <;> exact ⟨_, rfl, rfl, rfl, rfl⟩
  · cases h
    exact ⟨_, rfl, rfl, rfl, rfl⟩
  · split_ifs at h <;> cases h <;> exact ⟨_, rfl, rfl, rfl, rfl⟩
  · obtain ⟨c, -, rfl⟩ := Option.map_eq_some_iff.1 h
    split_ifs <;> exact ⟨_, rfl, rfl, rfl, rfl⟩
  · obtain ⟨c, -, h⟩ := Option.bind_eq_some_iff.1 h
    split_ifs at h
    cases h
    exact readHead_calls _ _
  · obtain ⟨c, -, rfl⟩ := Option.map_eq_some_iff.1 h
    exact ⟨_, rfl, rfl, rfl, rfl⟩
  · obtain ⟨c, -, h⟩ := Option.bind_eq_some_iff.1 h
    split_ifs at h
    cases h
    exact readBody_calls _ _ _ _
  · obtain ⟨c, -, rfl⟩ := Option.map_eq_some_iff.1 h
    exact ⟨_, rfl, rfl, rfl, rfl⟩
  · obtain ⟨c, -, h⟩ := Option.bind_eq_some_iff.1 h
    split_ifs at h <;> cases h <;> exact ⟨_, rfl, rfl, rfl, rfl⟩
  · obtain ⟨c, -, rfl⟩ := Option.map_eq_some_iff.1 h
    exact ⟨_, rfl, rfl, rfl, rfl⟩
  · cases h

/-- A call goes on with the request and the backend it was made with. -/
theorem step_calls {a : Action} (h : step config answer s a = some s')
    (hk : s.calls[k]? = some call) :
    ∃ call', s'.calls[k]? = some call' ∧ call.SameTarget call' := by
  cases a with
  | forward request endpoint =>
    cases h
    have hlt : k < s.calls.length := (List.getElem?_eq_some_iff.1 hk).1
    exact ⟨call, (List.getElem?_append_left hlt).trans hk, rfl, rfl, rfl⟩
  | arrive j n =>
    obtain ⟨c, -, rfl⟩ := Option.map_eq_some_iff.1 h
    exact ⟨call, hk, rfl, rfl, rfl⟩
  | resume i move =>
    obtain ⟨before, hbefore, h⟩ := Option.bind_eq_some_iff.1 h
    obtain ⟨after, hcalls, htarget⟩ := resume_calls h
    rw [hcalls]
    by_cases hik : i = k
    · subst hik
      obtain rfl := Option.some.inj (hbefore.symm.trans hk)
      have hlt : i < s.calls.length := (List.getElem?_eq_some_iff.1 hk).1
      exact ⟨after, List.getElem?_set_self hlt, htarget⟩
    · exact ⟨call, (List.getElem?_set_ne hik).trans hk, rfl, rfl, rfl⟩

end PhpRaw

end ProtocolProxy
