import ProtocolProxy.Sockmap

/-!
# Which sockets share a sockmap key

A key is the local port, the remote port's bytes and four bytes of the remote socket address, one
after the other (`toNat_tupleKey`), so keys are equal only if all of these are
(`tupleKey_inj`).  For an IPv4 socket the four bytes are the remote address, and the BPF
program computes the same key.  The local address is in no key.
-/

namespace ProtocolProxy

namespace Sockmap

open Net

/-! ## Keys as numbers -/

theorem toNat_u16FromLeBytes (b₀ b₁ : UInt8) :
    (u16FromLeBytes b₀ b₁).toNat = b₀.toNat + 256 * b₁.toNat := by
  have h₀ := b₀.toNat_lt
  have h₁ := b₁.toNat_lt
  refine UInt16.toNat_ofNat_of_lt' ?_
  simp only [UInt16.size]
  omega

theorem toNat_u32FromLeBytes (b₀ b₁ b₂ b₃ : UInt8) :
    (u32FromLeBytes b₀ b₁ b₂ b₃).toNat
      = b₀.toNat + 256 * (b₁.toNat + 256 * (b₂.toNat + 256 * b₃.toNat)) := by
  have h₀ := b₀.toNat_lt
  have h₁ := b₁.toNat_lt
  have h₂ := b₂.toNat_lt
  have h₃ := b₃.toNat_lt
  refine UInt32.toNat_ofNat_of_lt' ?_
  simp only [UInt32.size]
  omega

theorem u16FromLeBytes_inj {p p' : UInt8 × UInt8}
    (h : (u16FromLeBytes p.1 p.2).toNat = (u16FromLeBytes p'.1 p'.2).toNat) : p = p' := by
  rw [toNat_u16FromLeBytes, toNat_u16FromLeBytes] at h
  have h₁ := p.1.toNat_lt
  have h₂ := p'.1.toNat_lt
  exact Prod.ext (UInt8.toNat_inj.1 (by omega)) (UInt8.toNat_inj.1 (by omega))

theorem u32FromLeBytes_inj {ip ip' : Ipv4Addr}
    (h : (u32FromLeBytes ip.a ip.b ip.c ip.d).toNat
      = (u32FromLeBytes ip'.a ip'.b ip'.c ip'.d).toNat) : ip = ip' := by
  obtain ⟨a, b, c, d⟩ := ip
  obtain ⟨a', b', c', d'⟩ := ip'
  simp only [toNat_u32FromLeBytes] at h
  have ha := a.toNat_lt
  have hb := b.toNat_lt
  have hc := c.toNat_lt
  have ha' := a'.toNat_lt
  have hb' := b'.toNat_lt
  have hc' := c'.toNat_lt
  obtain rfl : a = a' := UInt8.toNat_inj.1 (by omega)
  obtain rfl : b = b' := UInt8.toNat_inj.1 (by omega)
  obtain rfl : c = c' := UInt8.toNat_inj.1 (by omega)
  obtain rfl : d = d' := UInt8.toNat_inj.1 (by omega)
  rfl

theorem u16FromBeBytes_beBytes (n : UInt16) : u16FromBeBytes (beBytes n).1 (beBytes n).2 = n := by
  have h := n.toNat_lt
  apply UInt16.toNat_inj.1
  simp only [u16FromBeBytes, toNat_u16FromLeBytes, beBytes, UInt8.toNat_ofNat']
  omega

theorem beBytes_inj {n m : UInt16} : beBytes n = beBytes m ↔ n = m := by
  refine ⟨fun h => ?_, fun h => by rw [h]⟩
  rw [← u16FromBeBytes_beBytes n, h, u16FromBeBytes_beBytes]

theorem toNat_and_ffff {x : UInt64} (h : x.toNat < 2 ^ 16) : (x &&& 0xffff).toNat = x.toNat := by
  have hmask := Nat.and_two_pow_sub_one_eq_mod x.toNat 16
  rw [UInt64.toNat_and]
  rw [Nat.mod_eq_of_lt h] at hmask
  exact hmask

/-- Shifting makes room for the lower part. -/
theorem toNat_shiftLeft_or {hi lo n : UInt64} (hn : n.toNat < 64)
    (hhi : hi.toNat < 2 ^ (64 - n.toNat)) (hlo : lo.toNat < 2 ^ n.toNat) :
    (hi <<< n ||| lo).toNat = hi.toNat * 2 ^ n.toNat + lo.toNat := by
  have hfit : hi.toNat * 2 ^ n.toNat < 2 ^ 64 := by
    have := Nat.mul_lt_mul_of_pos_right hhi (Nat.two_pow_pos n.toNat)
    rwa [← pow_add, Nat.sub_add_cancel hn.le] at this
  rw [UInt64.toNat_or, UInt64.toNat_shiftLeft, Nat.mod_eq_of_lt hn, Nat.mod_eq_of_lt (by
    rw [Nat.shiftLeft_eq]; exact hfit), ← Nat.shiftLeft_add_eq_or_of_lt hlo, Nat.shiftLeft_eq]

/-- The three fields of a key, one after the other. -/
theorem toNat_pack {a b c : UInt64} (ha : a.toNat < 2 ^ 16) (hb : b.toNat < 2 ^ 16)
    (hc : c.toNat < 2 ^ 32) :
    ((a <<< 16 ||| b) <<< 32 ||| c).toNat = (a.toNat * 2 ^ 16 + b.toNat) * 2 ^ 32 + c.toNat := by
  have hab : (a <<< 16 ||| b).toNat = a.toNat * 2 ^ 16 + b.toNat :=
    toNat_shiftLeft_or (by decide) (by simpa using ha.trans (by decide)) hb
  have habc : (a <<< 16 ||| b).toNat < 2 ^ (64 - (32 : UInt64).toNat) := by
    rw [hab]
    show a.toNat * 2 ^ 16 + b.toNat < 2 ^ 32
    omega
  rw [toNat_shiftLeft_or (by decide) habc hc, hab]
  rfl

theorem toNat_tupleKey (localPort : UInt16) (p : UInt8 × UInt8) (ip : Ipv4Addr) :
    (tupleKey localPort p ip).toNat
      = (localPort.toNat * 2 ^ 16 + (u16FromLeBytes p.1 p.2).toNat) * 2 ^ 32
        + (u32FromLeBytes ip.a ip.b ip.c ip.d).toNat := by
  have hl : localPort.toUInt64.toNat < 2 ^ 16 := localPort.toNat_lt
  have hr : (u16FromLeBytes p.1 p.2).toUInt64.toNat < 2 ^ 16 := UInt16.toNat_lt _
  have hip : (u32FromLeBytes ip.a ip.b ip.c ip.d).toUInt64.toNat < 2 ^ 32 := UInt32.toNat_lt _
  unfold tupleKey
  rw [toNat_pack (by rwa [toNat_and_ffff hl]) (by rwa [toNat_and_ffff hr]) hip, toNat_and_ffff hl,
    toNat_and_ffff hr]
  rfl

theorem tupleKey_inj {l l' : UInt16} {p p' : UInt8 × UInt8} {ip ip' : Ipv4Addr} :
    tupleKey l p ip = tupleKey l' p' ip' ↔ l = l' ∧ p = p' ∧ ip = ip' := by
  refine ⟨fun h => ?_, fun ⟨h₁, h₂, h₃⟩ => by rw [h₁, h₂, h₃]⟩
  have hkey := congrArg UInt64.toNat h
  rw [toNat_tupleKey, toNat_tupleKey] at hkey
  -- each field is below the weight of the next one, so the fields agree one by one
  have hr := (u16FromLeBytes p.1 p.2).toNat_lt
  have hr' := (u16FromLeBytes p'.1 p'.2).toNat_lt
  have hi := (u32FromLeBytes ip.a ip.b ip.c ip.d).toNat_lt
  have hi' := (u32FromLeBytes ip'.a ip'.b ip'.c ip'.d).toNat_lt
  have hport : (u16FromLeBytes p.1 p.2).toNat = (u16FromLeBytes p'.1 p'.2).toNat := by omega
  have hip : (u32FromLeBytes ip.a ip.b ip.c ip.d).toNat
      = (u32FromLeBytes ip'.a ip'.b ip'.c ip'.d).toNat := by omega
  refine ⟨UInt16.toNat_inj.1 (by omega), u16FromLeBytes_inj hport, u32FromLeBytes_inj hip⟩

/-! ## Keys of sockets -/

theorem buildTupleKey_inet (la : Ipv4Addr) (lp : UInt16) (ra : Ipv4Addr) (rp : UInt16) :
    buildTupleKey (.inet la lp ra rp)
      = if lp = 0 then none else some (tupleKey lp (beBytes rp) ra) := by
  show (if u16FromBeBytes (beBytes lp).1 (beBytes lp).2 = 0 then none
    else some (tupleKey (u16FromBeBytes (beBytes lp).1 (beBytes lp).2) (beBytes rp) ra)) = _
  rw [u16FromBeBytes_beBytes]

theorem toNat_low_half (n : UInt16) : (n.toUInt32 &&& 0xffff).toUInt64.toNat = n.toNat := by
  have hmask := Nat.and_two_pow_sub_one_eq_mod n.toNat 16
  rw [Nat.mod_eq_of_lt n.toNat_lt] at hmask
  rw [UInt32.toNat_toUInt64, UInt32.toNat_and]
  exact hmask

/-- What stands in the high half of a field is read back by shifting it down. -/
theorem toNat_high_half (n low : UInt16) :
    (((n.toUInt32 <<< 16 ||| low.toUInt32) >>> 16) &&& 0xffff).toUInt64.toNat = n.toNat := by
  have hshift : (n.toUInt32 <<< 16 ||| low.toUInt32) >>> 16 = n.toUInt32 := by
    have h := n.toNat_lt
    have hlow := low.toNat_lt
    apply UInt32.toNat_inj.1
    have h16 : (16 : UInt32).toNat % 32 = 16 := rfl
    have hmod : n.toNat * 2 ^ 16 % 2 ^ 32 = n.toNat <<< 16 := by
      rw [Nat.mod_eq_of_lt (by omega), Nat.shiftLeft_eq]
    rw [UInt32.toNat_shiftRight, UInt32.toNat_or, UInt32.toNat_shiftLeft, UInt16.toNat_toUInt32,
      UInt16.toNat_toUInt32, h16, Nat.shiftLeft_eq, hmod, ← Nat.shiftLeft_add_eq_or_of_lt hlow,
      Nat.shiftLeft_eq, Nat.shiftRight_eq_div_pow]
    omega
  rw [hshift, toNat_low_half]

/-- The program finds in a segment the key that the loader makes of the socket's two ends. -/
theorem bpfTupleKey_rawSkb (lp : UInt16) (p : UInt8 × UInt8) (ra : Ipv4Addr) (low : UInt16) :
    bpfTupleKey (rawSkb lp p ra low) = tupleKey lp p ra := by
  apply UInt64.toNat_inj.1
  have hl := toNat_low_half lp
  have hr := toNat_high_half (u16FromLeBytes p.1 p.2) low
  have hip : (u32FromLeBytes ra.a ra.b ra.c ra.d).toUInt64.toNat < 2 ^ 32 := UInt32.toNat_lt _
  unfold bpfTupleKey rawSkb
  rw [toNat_tupleKey, toNat_pack (by rw [hl]; exact lp.toNat_lt)
    (by rw [hr]; exact UInt16.toNat_lt _) hip, hl, hr]
  rfl

theorem bpfTupleKey_inetSkb (lp : UInt16) (ra : Ipv4Addr) (rp : UInt16) :
    bpfTupleKey (inetSkb lp ra rp) = tupleKey lp (beBytes rp) ra := by
  have hskb : inetSkb lp ra rp = rawSkb lp (beBytes rp) ra 0 := by
    have hzero : (0 : UInt16).toUInt32 = 0 := rfl
    unfold inetSkb rawSkb
    rw [hzero, UInt32.or_zero]
  rw [hskb, bpfTupleKey_rawSkb]

/-- The pair that is inserted changes the map at the keys of its two sockets only. -/
theorem insertPair_peers {fds : Fds} {inner : Inner} {k : MapAnswers} {accept backend : RawFd}
    {key : UInt64} (ha : ∀ s, fds accept = some s → buildTupleKey s ≠ some key)
    (hb : ∀ s, fds backend = some s → buildTupleKey s ≠ some key) :
    (insertPair fds inner k accept backend).1.peers key = inner.peers key := by
  unfold insertPair
  split
  next a b hfa hfb =>
    split
    next selfKey peerKey hself hpeer =>
      have hne : key ≠ selfKey := fun h => ha a hfa (h ▸ hself)
      have hne' : key ≠ peerKey := fun h => hb b hfb (h ▸ hpeer)
      split_ifs <;> simp [hne, hne']
    next => rfl
  next => rfl

/-- An insertion that succeeds writes the two entries and allocates the pair. -/
theorem insertPair_true {fds : Fds} {inner : Inner} {k : MapAnswers} {accept backend : RawFd}
    (h : (insertPair fds inner k accept backend).2 = true) :
    ∃ sock backendSock selfKey peerKey, fds accept = some sock ∧ fds backend = some backendSock
      ∧ buildTupleKey sock = some selfKey ∧ buildTupleKey backendSock = some peerKey
      ∧ (insertPair fds inner k accept backend).1
        = ⟨Function.update (Function.update inner.peers selfKey (some backendSock)) peerKey
              (some sock),
            Function.update inner.allocatedPairs accept (some (selfKey, peerKey))⟩ := by
  unfold insertPair at h ⊢
  split at h
  next sock backendSock hsock hbackend =>
    split at h
    next selfKey peerKey hself hpeer =>
      refine ⟨sock, backendSock, selfKey, peerKey, hsock, hbackend, hself, hpeer, ?_⟩
      split_ifs at h ⊢
      rfl
    next => cases h
  next => cases h

/-- An insertion that fails changes nothing, if the first key had no entry before. -/
theorem insertPair_false {fds : Fds} {inner : Inner} {k : MapAnswers} {accept backend : RawFd}
    (hdelete : k.delete = true)
    (hempty : ∀ sock key, fds accept = some sock → buildTupleKey sock = some key →
      inner.peers key = none)
    (h : (insertPair fds inner k accept backend).2 = false) :
    (insertPair fds inner k accept backend).1 = inner := by
  unfold insertPair at h ⊢
  split at h
  next sock backendSock hsock hbackend =>
    split at h
    next selfKey peerKey hself hpeer =>
      split_ifs at h ⊢
      · rfl
      · rfl
      · have hnone := hempty sock selfKey hsock hself
        dsimp only
        rw [Function.update_idem, ← hnone, Function.update_eq_self]
    next => rfl
  next => rfl

theorem allocatedPairs_removePair {inner : Inner} {found : Bool} {accept fd : RawFd} :
    (removePair inner found accept).allocatedPairs fd
      = if fd = accept then none else inner.allocatedPairs fd := by
  unfold removePair
  split
  next h =>
    split_ifs with hfd
    · rw [hfd, h]
    · rfl
  next => exact Function.update_apply _ _ _ _

/-- Every entry of the map belongs to an allocated pair. -/
def Inner.Tracked (inner : Inner) : Prop :=
  ∀ key, inner.peers key ≠ none →
    ∃ fd keys, inner.allocatedPairs fd = some keys ∧ (key = keys.1 ∨ key = keys.2)

theorem Inner.Tracked.removePair {inner : Inner} (h : inner.Tracked) (accept : RawFd) :
    (removePair inner true accept).Tracked := by
  rcases hkeys : inner.allocatedPairs accept with _ | keys₀
  · have hsame : Sockmap.removePair inner true accept = inner := by
      unfold Sockmap.removePair
      rw [hkeys]
    rwa [hsame]
  · intro key hkey
    have hpeers : (Sockmap.removePair inner true accept).peers
        = Function.update (Function.update inner.peers keys₀.1 none) keys₀.2 none := by
      unfold Sockmap.removePair
      rw [hkeys]
      rfl
    rw [hpeers, Function.update_apply, Function.update_apply] at hkey
    split_ifs at hkey with h₂ h₁ <;> try exact absurd rfl hkey
    obtain ⟨fd, keys, hfd, hcase⟩ := h key hkey
    have hne : fd ≠ accept := by
      rintro rfl
      obtain rfl := Option.some.inj (hkeys.symm.trans hfd)
      exact hcase.elim h₁ h₂
    exact ⟨fd, keys, by rw [allocatedPairs_removePair, if_neg hne, hfd], hcase⟩

theorem Inner.drop_cons {inner : Inner} {found : Bool} {fd : RawFd} {accepts : List RawFd} :
    inner.drop found (fd :: accepts) = (removePair inner found fd).drop found accepts := rfl

theorem Inner.Tracked.drop : ∀ (accepts : List RawFd) {inner : Inner}, inner.Tracked →
    (inner.drop true accepts).Tracked
  | [], _, h => h
  | fd :: accepts, _, h => (h.removePair fd).drop accepts

theorem allocatedPairs_drop {found : Bool} {fd : RawFd} : ∀ (accepts : List RawFd) {inner : Inner},
    (inner.drop found accepts).allocatedPairs fd
      = if fd ∈ accepts then none else inner.allocatedPairs fd
  | [], _ => rfl
  | fd' :: accepts, inner => by
    rw [Inner.drop_cons, allocatedPairs_drop accepts, allocatedPairs_removePair]
    by_cases h : fd = fd'
    · simp [h]
    · simp [h]

/-- Dropping the loader takes every entry out of the map. -/
theorem Inner.Tracked.peers_drop {inner : Inner} (h : inner.Tracked) {accepts : List RawFd}
    (hall : ∀ fd, inner.allocatedPairs fd ≠ none → fd ∈ accepts) (key : UInt64) :
    (inner.drop true accepts).peers key = none := by
  by_contra hne
  obtain ⟨fd, keys, hfd, -⟩ := h.drop accepts key hne
  rw [allocatedPairs_drop] at hfd
  split_ifs at hfd with hmem
  exact hmem (hall fd (by rw [hfd]; exact Option.some_ne_none keys))

theorem inetTuple_eq_some {s : Socket} {t : UInt16 × UInt16 × Ipv4Addr}
    (h : s.inetTuple = some t) : ∃ la, s = .inet la t.1 t.2.2 t.2.1 := by
  cases s with
  | inet la lp ra rp =>
    cases h
    exact ⟨la, rfl⟩
  | inet6 => cases h

theorem buildTupleKey_of_inetTuple {s : Socket} {t : UInt16 × UInt16 × Ipv4Addr} {key : UInt64}
    (h : s.inetTuple = some t) (hkey : buildTupleKey s = some key) :
    key = tupleKey t.1 (beBytes t.2.1) t.2.2 := by
  obtain ⟨la, rfl⟩ := inetTuple_eq_some h
  rw [buildTupleKey_inet] at hkey
  split_ifs at hkey
  exact (Option.some.inj hkey).symm

theorem relay_of_inetTuple {s : Socket} {t : UInt16 × UInt16 × Ipv4Addr}
    (h : s.inetTuple = some t) (peers : UInt64 → Option Socket) :
    relay peers s = peers (tupleKey t.1 (beBytes t.2.1) t.2.2) := by
  obtain ⟨la, rfl⟩ := inetTuple_eq_some h
  rw [relay, bpfTupleKey_inetSkb]

theorem tupleKey_tuple_inj {t u : UInt16 × UInt16 × Ipv4Addr} :
    tupleKey t.1 (beBytes t.2.1) t.2.2 = tupleKey u.1 (beBytes u.2.1) u.2.2 ↔ t = u := by
  rw [tupleKey_inj, beBytes_inj, Prod.ext_iff, Prod.ext_iff]

/-- IPv4 sockets have the same key exactly if they agree in local port, remote port and remote
address; and inserting a pair does not change where the segments of a socket go that differs in one
of these from both sockets of the pair. -/
theorem inet_keys_distinct :
    (∀ a b t u ka kb, a.inetTuple = some t → b.inetTuple = some u → buildTupleKey a = some ka →
        buildTupleKey b = some kb → (ka = kb ↔ t = u))
      ∧ ∀ (fds : Fds) (inner : Inner) (k : MapAnswers) (accept backend : RawFd) (a b s : Socket)
          (t u v : UInt16 × UInt16 × Ipv4Addr),
        fds accept = some a → fds backend = some b → a.inetTuple = some t → b.inetTuple = some u →
        s.inetTuple = some v → v ≠ t → v ≠ u →
        relay (insertPair fds inner k accept backend).1.peers s = relay inner.peers s := by
  refine ⟨fun a b t u ka kb ha hb hka hkb => ?_, ?_⟩
  · rw [buildTupleKey_of_inetTuple ha hka, buildTupleKey_of_inetTuple hb hkb]
    exact tupleKey_tuple_inj
  · intro fds inner k accept backend a b s t u v hfa hfb ha hb hs hvt hvu
    rw [relay_of_inetTuple hs, relay_of_inetTuple hs]
    refine insertPair_peers (fun x hx hkey => hvt ?_) (fun x hx hkey => hvu ?_)
    · cases hfa.symm.trans hx
      exact tupleKey_tuple_inj.1 (buildTupleKey_of_inetTuple ha hkey)
    · cases hfb.symm.trans hx
      exact tupleKey_tuple_inj.1 (buildTupleKey_of_inetTuple hb hkey)

theorem inet_keys_distinct_remotes :
    relay (insertPair (fun fd => if fd = 7 then
            some (.inet ⟨192, 0, 2, 1⟩ 5432 ⟨198, 51, 100, 7⟩ 40000)
          else some (.inet ⟨192, 0, 2, 1⟩ 40001 ⟨203, 0, 113, 1⟩ 5432))
        ⟨fun _ => none, fun _ => none⟩ ⟨true, true, true, true⟩ 7 8).1.peers
        (.inet ⟨192, 0, 2, 1⟩ 5432 ⟨198, 51, 100, 8⟩ 40000)
      = relay (fun _ => none) (.inet ⟨192, 0, 2, 1⟩ 5432 ⟨198, 51, 100, 8⟩ 40000) :=
  inet_keys_distinct.2 _ _ _ 7 8 _ _ _ _ _ _ rfl rfl rfl rfl rfl (by decide) (by decide)

/-- Two connections of one client socket address to the two addresses of this host have one key. -/
theorem local_addresses_share_key :
    ¬ ∀ (a b : Socket) (ka kb : UInt64), a ≠ b → buildTupleKey a = some ka →
      buildTupleKey b = some kb → ka ≠ kb := by
  intro h
  exact h (.inet ⟨192, 0, 2, 1⟩ 5432 ⟨198, 51, 100, 7⟩ 40000)
    (.inet ⟨192, 0, 2, 2⟩ 5432 ⟨198, 51, 100, 7⟩ 40000) _ _ (by decide) rfl rfl rfl

/-! ## The bytes of a key -/

theorem leBytes_inj : ∀ {width n m : ℕ}, n < 256 ^ width → m < 256 ^ width →
    leBytes width n = leBytes width m → n = m
  | 0, n, m, hn, hm, _ => by
    rw [pow_zero] at hn hm
    omega
  | width + 1, n, m, hn, hm, h => by
    rw [pow_succ] at hn hm
    obtain ⟨hlow, hrest⟩ := List.cons.inj h
    have hdiv : n / 256 = m / 256 := leBytes_inj (by omega) (by omega) hrest
    have hmod := congrArg UInt8.toNat hlow
    rw [UInt8.toNat_ofNat', UInt8.toNat_ofNat'] at hmod
    omega

theorem toLeBytes_inj {k k' : UInt64} : toLeBytes k = toLeBytes k' ↔ k = k' := by
  refine ⟨fun h => ?_, fun h => by rw [h]⟩
  exact UInt64.toNat_inj.1 (leBytes_inj k.toNat_lt k'.toNat_lt h)

namespace Loader

/-- Shifted one by one or together, the fields end up in the same places. -/
theorem toUInt64_pack (l r ip : Int64) :
    ((l &&& 0xffff) <<< 48 ||| (r &&& 0xffff) <<< 32 ||| (ip &&& 0xffffffff)).toUInt64
      = ((l.toUInt64 &&& 0xffff) <<< 16 ||| (r.toUInt64 &&& 0xffff)) <<< 32
        ||| (ip.toUInt64 &&& 0xffffffff) := by
  have h48 : ((l &&& 0xffff) <<< 48).toUInt64 = (l.toUInt64 &&& 0xffff) <<< 16 <<< 32 := by
    apply UInt64.toBitVec_inj.1
    exact BitVec.shiftLeft_add (l.toUInt64 &&& 0xffff).toBitVec 16 32
  have h32 : ((r &&& 0xffff) <<< 32).toUInt64 = (r.toUInt64 &&& 0xffff) <<< 32 := rfl
  rw [Int64.toUInt64_or, Int64.toUInt64_or, h48, h32, ← UInt64.shiftLeft_or]
  rfl

theorem and_ffffffff {x : UInt64} (h : x.toNat < 2 ^ 32) : x &&& 0xffffffff = x := by
  have hmask := Nat.and_two_pow_sub_one_eq_mod x.toNat 32
  rw [Nat.mod_eq_of_lt h] at hmask
  apply UInt64.toNat_inj.1
  rw [UInt64.toNat_and]
  exact hmask

theorem toUInt64_unpackU16Le (b₀ b₁ : UInt8) :
    (unpackU16Le b₀ b₁).toUInt64 = (u16FromLeBytes b₀ b₁).toUInt64 := by
  have h := (u16FromLeBytes b₀ b₁).toNat_lt
  rw [toNat_u16FromLeBytes] at h
  apply UInt64.toNat_inj.1
  rw [unpackU16Le, Int64.toUInt64_ofNat', UInt64.toNat_ofNat_of_lt' (h.trans (by decide)),
    UInt16.toNat_toUInt64, toNat_u16FromLeBytes]

theorem toUInt64_unpackU32Le (b₀ b₁ b₂ b₃ : UInt8) :
    (unpackU32Le b₀ b₁ b₂ b₃).toUInt64 = (u32FromLeBytes b₀ b₁ b₂ b₃).toUInt64 := by
  have h := (u32FromLeBytes b₀ b₁ b₂ b₃).toNat_lt
  rw [toNat_u32FromLeBytes] at h
  apply UInt64.toNat_inj.1
  rw [unpackU32Le, Int64.toUInt64_ofNat', UInt64.toNat_ofNat_of_lt' (h.trans (by decide)),
    UInt32.toNat_toUInt64, toNat_u32FromLeBytes]

/-- The sign is looked at before the port is shifted into the sign bit. -/
theorem unpackU16Be_pos {b₀ b₁ : UInt8} (h : u16FromBeBytes b₀ b₁ ≠ 0) :
    ¬ unpackU16Be b₀ b₁ ≤ 0 := by
  have hlt := (u16FromLeBytes b₁ b₀).toNat_lt
  have hne : (u16FromLeBytes b₁ b₀).toNat ≠ 0 := fun h0 => h (UInt16.toNat_inj.1 h0)
  rw [toNat_u16FromLeBytes] at hlt hne
  rw [unpackU16Be, unpackU16Le, Int64.le_iff_toInt_le, Int64.toInt_ofNat_of_lt (by omega)]
  show ¬ ((b₁.toNat + 256 * b₀.toNat : ℕ) : ℤ) ≤ 0
  omega

theorem toUInt64_tupleKey {sockname peername : Buffer} (h : (keyFields sockname peername).1 ≠ 0) :
    (tupleKey true (some sockname) (some peername)).toUInt64
      = Sockmap.tupleKey (keyFields sockname peername).1 (keyFields sockname peername).2.1
          (keyFields sockname peername).2.2 := by
  have hpos := unpackU16Be_pos h
  have hip : (u32FromLeBytes peername[4] peername[5] peername[6] peername[7]).toUInt64.toNat
      < 2 ^ 32 := UInt32.toNat_lt _
  unfold tupleKey
  simp only [Bool.not_true, Bool.false_eq_true, if_false, if_neg hpos]
  rw [toUInt64_pack, unpackU16Be, toUInt64_unpackU16Le, toUInt64_unpackU16Le,
    toUInt64_unpackU32Le, and_ffffffff hip]
  rfl

end Loader

theorem tupleKey_ne_zero {l : UInt16} (h : l ≠ 0) (p : UInt8 × UInt8) (ip : Ipv4Addr) :
    tupleKey l p ip ≠ 0 := by
  intro h0
  have hnat := toNat_tupleKey l p ip
  have hl : l.toNat ≠ 0 := fun hl => h (UInt16.toNat_inj.1 hl)
  rw [h0, UInt64.toNat_zero] at hnat
  omega

/-- The loader, the PHP loader and the program write a key as the same eight bytes.  For a socket
with a local port these are never the bytes of zero, and they are those of no other port, remote
port and remote address. -/
theorem key_bytes_agree (sockname peername : Buffer) (low : UInt16)
    (hport : (keyFields sockname peername).1 ≠ 0) :
    let t := keyFields sockname peername
    let bytes := toLeBytes (tupleKey t.1 t.2.1 t.2.2)
    bytes = Loader.packU64Le (Loader.tupleKey true (some sockname) (some peername))
      ∧ bytes = toLeBytes (bpfTupleKey (rawSkb t.1 t.2.1 t.2.2 low))
      ∧ bytes ≠ List.replicate 8 0
      ∧ ∀ u : UInt16 × (UInt8 × UInt8) × Ipv4Addr, u ≠ t →
          toLeBytes (tupleKey u.1 u.2.1 u.2.2) ≠ bytes := by
  intro t bytes
  refine ⟨?_, ?_, ?_, fun u hu h => hu ?_⟩
  · show _ = toLeBytes _
    rw [Loader.toUInt64_tupleKey hport]
  · rw [bpfTupleKey_rawSkb]
  · intro h
    have hzero : toLeBytes (tupleKey t.1 t.2.1 t.2.2) = toLeBytes 0 := h
    exact tupleKey_ne_zero hport _ _ (toLeBytes_inj.1 hzero)
  · obtain ⟨h₁, h₂, h₃⟩ := tupleKey_inj.1 (toLeBytes_inj.1 h)
    exact Prod.ext h₁ (Prod.ext h₂ h₃)

/-- The socket of the loaders' shared test vector, from port 50000 to 127.0.0.1:8080: the PHP key of
it is negative. -/
theorem key_bytes_agree_port_50000 :
    Loader.tupleKey true (some (sockaddrIn 50000 ⟨127, 0, 0, 1⟩))
        (some (sockaddrIn 8080 ⟨127, 0, 0, 1⟩)) < 0
      ∧ toLeBytes (tupleKey 50000 (0x1f, 0x90) ⟨127, 0, 0, 1⟩)
        = Loader.packU64Le (Loader.tupleKey true (some (sockaddrIn 50000 ⟨127, 0, 0, 1⟩))
            (some (sockaddrIn 8080 ⟨127, 0, 0, 1⟩))) :=
  ⟨by decide, (key_bytes_agree (sockaddrIn 50000 ⟨127, 0, 0, 1⟩) (sockaddrIn 8080 ⟨127, 0, 0, 1⟩) 0
    (by decide)).1⟩

end Sockmap

end ProtocolProxy
