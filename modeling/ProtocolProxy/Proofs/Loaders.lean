import ProtocolProxy.Loaders
import ProtocolProxy.Proofs.Sockmap

/-!
# The two loaders have the kernel do the same

The PHP loader's map and pairs stand for an `Inner` of the Rust loader (`Loader.State.inner`): the
bytes of a key determine it, and the signed keys have the bits of the unsigned ones.  A call keeps
this, and returns the same in both (`Agree.call`).
-/

namespace ProtocolProxy

namespace Sockmap

namespace Loader

variable {s : State}

/-! ## Keys -/

theorem unpackU16Be_of_zero {b₀ b₁ : UInt8} (h : u16FromBeBytes b₀ b₁ = 0) :
    unpackU16Be b₀ b₁ ≤ 0 := by
  have hnat := congrArg UInt16.toNat h
  rw [u16FromBeBytes, toNat_u16FromLeBytes, UInt16.toNat_zero] at hnat
  rw [unpackU16Be, unpackU16Le, hnat]
  decide

/-- Zero stands for the key that the Rust loader does not make, and the other keys have its bits. -/
theorem tupleKey_inet (sock : Socket) :
    let key := tupleKey true (some (getsocknameInet sock)) (some (getpeernameInet sock))
    buildTupleKey sock = if key = 0 then none else some key.toUInt64 := by
  intro key
  by_cases hport : (keyFields (getsocknameInet sock) (getpeernameInet sock)).1 = 0
  · have hzero : key = 0 := by
      have hle := unpackU16Be_of_zero hport
      simp only [key, tupleKey, Bool.not_true, Bool.false_eq_true, if_false, if_pos hle]
    rw [if_pos hzero]
    exact if_pos hport
  · have hkey := toUInt64_tupleKey hport
    have hne : key ≠ 0 := by
      intro hzero
      refine tupleKey_ne_zero hport _ _ (hkey.symm.trans ?_)
      exact congrArg Int64.toUInt64 hzero
    rw [if_neg hne, hkey]
    exact if_neg hport

theorem State.buildTupleKey_eq (hlibc : s.libc = true) (fds : Fds) (fd : RawFd) :
    (fds fd).bind buildTupleKey
      = if s.tupleKeyOf fds fd = 0 then none else some (s.tupleKeyOf fds fd).toUInt64 := by
  unfold State.tupleKeyOf
  rw [hlibc]
  rcases fds fd with _ | sock
  · rfl
  · exact tupleKey_inet sock

/-! ## What the map and the pairs stand for -/

def unsignedKeys (keys : Int64 × Int64) : UInt64 × UInt64 := (keys.1.toUInt64, keys.2.toUInt64)

def State.inner (s : State) : Option Inner :=
  s.object.map fun peers =>
    ⟨fun key => peers (toLeBytes key), fun fd => (s.allocatedPairs fd).map unsignedKeys⟩

theorem peers_update (peers : Bytes → Option Socket) (key : Int64) (value : Option Socket) :
    (fun k => Function.update peers (packU64Le key) value (toLeBytes k))
      = Function.update (fun k => peers (toLeBytes k)) key.toUInt64 value := by
  funext k
  by_cases hk : k = key.toUInt64
  · rw [hk, Function.update_self]
    exact Function.update_self _ _ _
  · rw [Function.update_of_ne hk]
    exact Function.update_of_ne (fun h => hk (toLeBytes_inj.1 h)) _ _

theorem pairs_update (pairs : RawFd → Option (Int64 × Int64)) (acceptFd : RawFd)
    (keys : Option (Int64 × Int64)) :
    (fun fd => (Function.update pairs acceptFd keys fd).map unsignedKeys)
      = Function.update (fun fd => (pairs fd).map unsignedKeys) acceptFd
          (keys.map unsignedKeys) := by
  funext fd
  by_cases hfd : fd = acceptFd
  · rw [hfd, Function.update_self, Function.update_self]
  · rw [Function.update_of_ne hfd, Function.update_of_ne hfd]

theorem State.inner_setPeer (key : Int64) (value : Option Socket) :
    (s.setPeer key value).inner = s.inner.map fun inner =>
      { inner with peers := Function.update inner.peers key.toUInt64 value } := by
  unfold State.inner State.setPeer
  rcases s.object with _ | peers
  · rfl
  · simp only [Option.map_some, peers_update]

theorem State.inner_setPairs (acceptFd : RawFd) (keys : Option (Int64 × Int64)) :
    ({ s with allocatedPairs := Function.update s.allocatedPairs acceptFd keys } : State).inner
      = s.inner.map fun inner =>
        { inner with
          allocatedPairs :=
            Function.update inner.allocatedPairs acceptFd (keys.map unsignedKeys) } := by
  unfold State.inner
  rcases s.object with _ | peers
  · rfl
  · simp only [Option.map_some, pairs_update]

/-- Two states that differ at most in what the map and the pairs hold. -/
structure SameShape (s t : State) : Prop where
  ffi : t.ffi = s.ffi
  libc : t.libc = s.libc
  opened : t.object.isSome = s.object.isSome
  available : t.available = s.available
  answers : t.answers = s.answers

theorem SameShape.refl (s : State) : SameShape s s := ⟨rfl, rfl, rfl, rfl, rfl⟩

theorem SameShape.setPeer {t : State} (h : SameShape s t) (key : Int64) (value : Option Socket) :
    SameShape s (t.setPeer key value) :=
  ⟨h.ffi, h.libc, Option.isSome_map.trans h.opened, h.available, h.answers⟩

theorem SameShape.setPairs {t : State} (h : SameShape s t)
    (pairs : RawFd → Option (Int64 × Int64)) : SameShape s { t with allocatedPairs := pairs } :=
  ⟨h.ffi, h.libc, h.opened, h.available, h.answers⟩

theorem State.insertPair_sameShape (s : State) (fds : Fds) (k : MapAnswers)
    (acceptFd backendFd : RawFd) : SameShape s (s.insertPair fds k acceptFd backendFd).1 := by
  have hself := (SameShape.refl s).setPeer (s.tupleKeyOf fds acceptFd)
  unfold State.insertPair
  simp only
  split_ifs
  · exact SameShape.refl s
  · exact SameShape.refl s
  · exact SameShape.refl s
  · exact (hself _).setPeer _ _
  · exact hself _
  · exact ((hself _).setPeer _ _).setPairs _

theorem State.removePair_sameShape (s : State) (acceptFd : RawFd) :
    SameShape s (s.removePair acceptFd) := by
  unfold State.removePair
  split_ifs
  · exact SameShape.refl s
  · split
    · exact SameShape.refl s
    · exact (((SameShape.refl s).setPeer _ _).setPeer _ _).setPairs _

end Loader

/-! ## One call -/

/-- A PHP loader and the Rust loader it stands for.  With an open object it has its libraries. -/
structure Agree (p : Loader.State) (r : State) : Prop where
  ffi : p.object.isSome = true → p.ffi = true
  libc : p.object.isSome = true → p.libc = true
  opened : p.available = p.object.isSome
  available : r.available = p.available
  inner : r.inner = p.inner
  answers : r.answers = p.answers

variable {p : Loader.State} {r : State} {fds : Fds} {inner : Inner} {k : MapAnswers}
  {acceptFd backendFd : RawFd}

theorem insertPair_of_no_key
    (h : (fds acceptFd).bind buildTupleKey = none ∨ (fds backendFd).bind buildTupleKey = none) :
    insertPair fds inner k acceptFd backendFd = (inner, false) := by
  unfold insertPair
  rcases haccept : fds acceptFd with _ | accept
  · rfl
  rcases hbackend : fds backendFd with _ | backend
  · rfl
  rw [haccept, hbackend, Option.bind_some, Option.bind_some] at h
  rcases h with h | h
  · simp only [h]
  · rcases hself : buildTupleKey accept with _ | selfKey
    · simp only [hself]
    · simp only [hself, h]

/-- With both keys, and the map at hand, the updates decide. -/
theorem insertPair_of_keys {selfKey peerKey : UInt64} (hfound : k.found = true)
    (hself : (fds acceptFd).bind buildTupleKey = some selfKey)
    (hpeer : (fds backendFd).bind buildTupleKey = some peerKey) :
    insertPair fds inner k acceptFd backendFd =
      let peers := Function.update inner.peers selfKey (fds backendFd)
      if !k.update then (inner, false)
      else if !k.update' then
        ({ inner with peers := if k.delete then Function.update peers selfKey none else peers },
          false)
      else
        (⟨Function.update peers peerKey (fds acceptFd),
          Function.update inner.allocatedPairs acceptFd (some (selfKey, peerKey))⟩, true) := by
  obtain ⟨accept, haccept, hself⟩ := Option.bind_eq_some_iff.1 hself
  obtain ⟨backend, hbackend, hpeer⟩ := Option.bind_eq_some_iff.1 hpeer
  simp only [insertPair, haccept, hbackend, hself, hpeer, hfound, Bool.not_true,
    Bool.false_eq_true, if_false]

/-- `insertPair` of the PHP loader does what `insert_pair` does with what it stands for. -/
theorem Agree.insertPair (h : Agree p r) (hfound : k.found = true) (hinner : r.inner = some inner)
    (fds : Fds) (acceptFd backendFd : RawFd) :
    (p.insertPair fds k acceptFd backendFd).1.inner
        = some (Sockmap.insertPair fds inner k acceptFd backendFd).1
      ∧ (p.insertPair fds k acceptFd backendFd).2
        = (Sockmap.insertPair fds inner k acceptFd backendFd).2 := by
  have hp : p.inner = some inner := h.inner.symm.trans hinner
  have hopen : p.object.isSome = true := by
    rw [Loader.State.inner, Option.map_eq_some_iff] at hp
    obtain ⟨peers, hobject, -⟩ := hp
    rw [hobject, Option.isSome_some]
  have hself := Loader.State.buildTupleKey_eq (h.libc hopen) fds acceptFd
  have hpeer := Loader.State.buildTupleKey_eq (h.libc hopen) fds backendFd
  have hready : (!p.available || !p.ffi) = false := by rw [h.opened, hopen, h.ffi hopen]; rfl
  unfold Loader.State.insertPair
  simp only [hready, Bool.false_eq_true, if_false]
  by_cases hzero : p.tupleKeyOf fds acceptFd = 0 ∨ p.tupleKeyOf fds backendFd = 0
  · have hnone : (fds acceptFd).bind buildTupleKey = none
        ∨ (fds backendFd).bind buildTupleKey = none := by
      rw [hself, hpeer]
      exact hzero.imp (fun h => if_pos h) (fun h => if_pos h)
    rw [if_pos hzero, insertPair_of_no_key hnone]
    exact ⟨hp, rfl⟩
  · rw [if_neg hzero]
    rw [not_or] at hzero
    rw [if_neg hzero.1] at hself
    rw [if_neg hzero.2] at hpeer
    rw [insertPair_of_keys hfound hself hpeer]
    rcases k.update with _ | _
    · exact ⟨hp, rfl⟩
    rcases k.update' with _ | _
    · rcases k.delete with _ | _
      · exact ⟨by simp [Loader.State.inner_setPeer, hp], rfl⟩
      · exact ⟨by simp [Loader.State.inner_setPeer, hp], rfl⟩
    · refine ⟨(Loader.State.inner_setPairs acceptFd (some (_, _))).trans ?_, rfl⟩
      simp [Loader.State.inner_setPeer, hp, Loader.unsignedKeys]

theorem Agree.removePair (h : Agree p r) (acceptFd : RawFd) :
    (p.removePair acceptFd).inner = r.inner.map fun inner => removePair inner true acceptFd := by
  unfold Loader.State.removePair
  rw [h.inner]
  rcases hobject : p.object with _ | peers
  · have hclosed : p.available = false := by rw [h.opened, hobject]; rfl
    simp [hclosed, Loader.State.inner, hobject]
  · have hready : (!p.available || !p.ffi) = false := by
      rw [h.opened, h.ffi (by rw [hobject]; rfl), hobject]
      rfl
    simp only [hready, Bool.false_eq_true, if_false]
    rcases hkeys : p.allocatedPairs acceptFd with _ | keys
    · simp [Loader.State.inner, hobject, Sockmap.removePair, hkeys]
    · refine (Loader.State.inner_setPairs acceptFd none).trans ?_
      rw [Loader.State.inner_setPeer, Loader.State.inner_setPeer]
      simp [Loader.State.inner, hobject, Sockmap.removePair, hkeys, Loader.unsignedKeys]

/-- A closed loader inserts nothing. -/
theorem Agree.insertPair_closed (h : Agree p r) (hinner : r.inner = none) (fds : Fds)
    (k : MapAnswers) (acceptFd backendFd : RawFd) :
    p.insertPair fds k acceptFd backendFd = (p, false) := by
  have hobject : p.object = none := Option.map_eq_none_iff.1 (h.inner.symm.trans hinner)
  have hclosed : p.available = false := by rw [h.opened, hobject, Option.isSome_none]
  simp [Loader.State.insertPair, hclosed]

/-- The loaders agree after a call that leaves the shape and gives the same map and pairs. -/
theorem Agree.of_sameShape (h : Agree p r) {q : Loader.State} (hq : Loader.SameShape p q)
    {inner : Option Inner} (hinner : q.inner = inner) (answers : List Bool) :
    Agree { q with answers := q.answers ++ answers }
      { r with inner := inner, answers := r.answers ++ answers } where
  ffi hopen := hq.ffi.trans (h.ffi (hq.opened.symm.trans hopen))
  libc hopen := hq.libc.trans (h.libc (hq.opened.symm.trans hopen))
  opened := hq.available.trans (h.opened.trans hq.opened.symm)
  available := h.available.trans hq.available.symm
  inner := hinner.symm
  answers := by rw [hq.answers, h.answers]

theorem Agree.call (h : Agree p r) {c : Call} (hc : c.FindsMap) : Agree (p.call c) (r.call c) := by
  cases c with
  | insertPair fds k acceptFd backendFd =>
    have hshape := p.insertPair_sameShape fds k acceptFd backendFd
    rcases hinner : r.inner with _ | inner
    · have hclosed := h.insertPair_closed hinner fds k acceptFd backendFd
      have hagree := h.of_sameShape (Loader.SameShape.refl p) h.inner.symm [false]
      simpa [Loader.State.call, State.call, hclosed, hinner] using hagree
    · obtain ⟨hmap, hok⟩ := h.insertPair hc hinner fds acceptFd backendFd
      have hopen : r.available = true := by
        rw [h.available, h.opened]
        rw [h.inner, Loader.State.inner, Option.map_eq_some_iff] at hinner
        obtain ⟨peers, hobject, -⟩ := hinner
        rw [hobject, Option.isSome_some]
      have hagree := h.of_sameShape hshape hmap
        [(Sockmap.insertPair fds inner k acceptFd backendFd).2]
      simpa [Loader.State.call, State.call, hinner, hopen, hok] using hagree
  | removePair acceptFd backendFd =>
    have hagree := h.of_sameShape (p.removePair_sameShape acceptFd) (h.removePair acceptFd) []
    simpa [Loader.State.call, State.call] using hagree
  | close =>
    have hclosed : (p.call .close).object = none := by
      rcases hobject : p.object with _ | peers
      · simp [Loader.State.call, Loader.State.close, hobject]
      · simp [Loader.State.call, Loader.State.close, h.ffi (by rw [hobject]; rfl)]
    refine ⟨fun hopen => ?_, fun hopen => ?_, ?_, rfl, ?_, h.answers⟩
    · simp [hclosed] at hopen
    · simp [hclosed] at hopen
    · rw [hclosed]
      rfl
    · rw [Loader.State.inner, hclosed]
      rfl

/-! ## Loading, and all calls after it -/

variable {env : LoadEnv}

/-- A load that fails leaves both loaders without an object. -/
theorem agree_fail {ffi libc : Bool} {e e' : String} :
    Agree ((⟨ffi, libc, none, false, "", fun _ => none, []⟩ : Loader.State).fail e)
      ⟨false, e', none, [false]⟩ :=
  ⟨nofun, nofun, rfl, rfl, rfl, rfl⟩

theorem agree_load (h : env.SupportsPhp) : Agree (Loader.load env) (load env) := by
  unfold Loader.load load Inner.load Loader.State.loadObject
  simp only [h.ffi, h.linux, h.libbpf, h.libc, Bool.not_true, Bool.false_eq_true, if_false]
  rcases env.isFile with _ | _
  · exact agree_fail
  rcases env.openFile with e | _
  · exact agree_fail
  by_cases hload : env.loadRc < 0
  · simp only [if_pos hload]
    exact agree_fail
  simp only [if_neg hload]
  rcases hprog : env.prog with _ | progFd <;> rcases hpeers : env.peers with _ | peersFd
  · exact agree_fail
  · exact agree_fail
  · exact agree_fail
  have hfds : ¬ (progFd < 0 ∨ peersFd < 0) := by
    have hprogFd := h.progFd progFd hprog
    have hpeersFd := h.peersFd peersFd hpeers
    omega
  by_cases hattach : env.attachRc < 0
  · simp only [if_neg hfds, if_pos hattach]
    exact agree_fail
  · simp only [if_neg hfds, if_neg hattach]
    exact ⟨fun _ => rfl, fun _ => rfl, rfl, rfl, rfl, rfl⟩

theorem Agree.calls {calls : List Call} (h : Agree p r) (hcalls : ∀ c ∈ calls, c.FindsMap) :
    Agree (calls.foldl Loader.State.call p) (calls.foldl State.call r) := by
  induction calls generalizing p r with
  | nil => exact h
  | cons c calls ih =>
    obtain ⟨hc, hcalls⟩ := List.forall_mem_cons.1 hcalls
    exact ih (h.call hc) hcalls

theorem Agree.sameRelay (h : Agree p r) : SameRelay p r where
  available := h.available.symm
  answers := h.answers.symm
  redirect skb := by
    rw [State.redirect, h.inner]
    unfold Loader.State.redirect Loader.State.inner
    rcases p.object with _ | peers
    · rfl
    · rfl

/-! ## A PHP loader that could not load -/

theorem inert_fail {ffi libc : Bool} {e : String} :
    ((⟨ffi, libc, none, false, "", fun _ => none, []⟩ : Loader.State).fail e).Inert :=
  ⟨rfl, by simp [Loader.State.fail], fun _ => rfl⟩

theorem inert_load (h : ¬ env.SupportsPhp) : (Loader.load env).Inert := by
  unfold Loader.load Loader.State.loadObject
  rcases hffi : env.ffi with _ | _
  · exact inert_fail
  rcases hlinux : env.linux with _ | _
  · exact inert_fail
  rcases env.isFile with _ | _
  · exact inert_fail
  rcases hlibbpf : env.libbpf with e | ⟨⟩
  · exact inert_fail
  rcases hlibc : env.libc with e | ⟨⟩
  · exact inert_fail
  rcases env.openFile with e | _
  · exact inert_fail
  by_cases hload : env.loadRc < 0
  · simp only [if_pos hload]
    exact inert_fail
  simp only [if_neg hload]
  rcases hprog : env.prog with _ | progFd <;> rcases hpeers : env.peers with _ | peersFd
  · exact inert_fail
  · exact inert_fail
  · exact inert_fail
  -- only the descriptors can be what is missing
  have hfds : progFd < 0 ∨ peersFd < 0 := by
    by_contra hfds
    refine h ⟨hffi, hlinux, hlibbpf, hlibc, fun fd hfd => ?_, fun fd hfd => ?_⟩
    · cases hprog.symm.trans hfd
      omega
    · cases hpeers.symm.trans hfd
      omega
  simp only [if_pos hfds]
  exact inert_fail

theorem Loader.State.Inert.call (h : p.Inert) (c : Call) : (p.call c).Inert := by
  have hclosed := h.available
  cases c with
  | insertPair fds k acceptFd backendFd =>
    refine ⟨?_, fun ok hok => ?_, fun skb => ?_⟩
    · simp [Loader.State.call, Loader.State.insertPair, hclosed]
    · have hmem : ok ∈ p.answers ∨ ok = false := by
        simpa [Loader.State.call, Loader.State.insertPair, hclosed] using hok
      exact hmem.elim (h.answers ok) id
    · simpa [Loader.State.call, Loader.State.insertPair, hclosed, Loader.State.redirect]
        using h.redirect skb
  | removePair acceptFd backendFd =>
    simpa [Loader.State.call, Loader.State.removePair, hclosed] using h
  | close =>
    refine ⟨rfl, h.answers, fun skb => ?_⟩
    rcases hffi : p.ffi with _ | _
    · simpa [Loader.State.call, Loader.State.close, Loader.State.redirect, hffi]
        using h.redirect skb
    · simp [Loader.State.call, Loader.State.close, Loader.State.redirect, hffi]

theorem Loader.State.Inert.calls {calls : List Call} (h : p.Inert) :
    (calls.foldl Loader.State.call p).Inert := by
  induction calls generalizing p with
  | nil => exact h
  | cons c calls ih => exact ih (h.call c)

/-- Loaded in the same place and called in the same way, the two loaders return the same and have
the kernel send every segment to the same socket.  Where PHP misses something that Rust does not
need, its loader has the kernel do nothing, and says so to every call. -/
theorem loaders_agree (env : LoadEnv) {calls : List Call} (hcalls : ∀ c ∈ calls, c.FindsMap) :
    (env.SupportsPhp → SameRelay (calls.foldl Loader.State.call (Loader.load env))
        (calls.foldl State.call (load env)))
      ∧ (¬ env.SupportsPhp → (calls.foldl Loader.State.call (Loader.load env)).Inert) :=
  ⟨fun h => ((agree_load h).calls hcalls).sameRelay, fun h => (inert_load h).calls⟩

/-- A kernel that has what both loaders need. -/
def fullEnv : LoadEnv where
  ffi := true
  linux := true
  path := "relay.bpf.o"
  isFile := true
  libbpf := .ok ()
  libc := .ok ()
  openFile := .ok ()
  loadRc := 0
  loadError := ""
  prog := some 5
  peers := some 6
  attachRc := 0
  attachError := ""

/-- Two clients, one of which goes again. -/
def twoPairs : List Call :=
  let fds : Fds := fun fd =>
    some (.inet ⟨192, 0, 2, 1⟩ 50000 ⟨198, 51, 100, 7⟩ (UInt16.ofNat (40000 + fd)))
  [.insertPair fds ⟨true, true, true, true⟩ 7 8, .insertPair fds ⟨true, true, true, true⟩ 9 10,
    .insertPair fds ⟨true, true, false, true⟩ 11 12, .removePair 7 8]

theorem loaders_agree_twoPairs :
    (twoPairs.foldl State.call (load fullEnv)).redirect (inetSkb 50000 ⟨198, 51, 100, 7⟩ 40009)
        = some (.inet ⟨192, 0, 2, 1⟩ 50000 ⟨198, 51, 100, 7⟩ 40010)
      ∧ (twoPairs.foldl State.call (load fullEnv)).answers = [true, true, true, false]
      ∧ SameRelay (twoPairs.foldl Loader.State.call (Loader.load fullEnv))
        (twoPairs.foldl State.call (load fullEnv)) := by
  refine ⟨by decide, by decide, (loaders_agree fullEnv ?_).1 ?_⟩
  · simp [twoPairs, Call.FindsMap]
  · exact ⟨rfl, rfl, rfl, rfl, by simp [fullEnv], by simp [fullEnv]⟩

end Sockmap

end ProtocolProxy
