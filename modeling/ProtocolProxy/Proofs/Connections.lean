import ProtocolProxy.Connections

/-!
# Which runs keep the handlers' backends apart

A descriptor's number is free again once the socket is closed, which is before the handler calls
`close_connection`.  In that time another handler may be given the number, and then finds the entry
of the first, or has its own entry removed by it.

Nothing else goes wrong (`owned_iff_exclusive`): an entry always belongs to a handler that still
serves it (`Inv.owner`), and while a handler dials there is no entry for its number (`Inv.absent`),
since the only handler with an open socket of that number is itself.

Since every entry has an owner of its own, the map never outgrows the handlers that are being
served (`entries_le_serving`).
-/

namespace ProtocolProxy

namespace Connections

open Machine

variable {port : UInt16} {s s' : State} {i j : ℕ} {h h' : Handler} {c : TcpClient} {fd : RawFd}

theorem Handler.serving_eq_some :
    h.serving = some c ↔ (h.stage = .running ∨ h.stage = .closed) ∧ h.got = some (.ok c) := by
  rcases h with ⟨fd, stage, got⟩
  rcases got with _ | _ | _ <;> cases stage <;> simp [Handler.serving]

/-! ## What every run keeps -/

structure Inv (s : State) : Prop where
  distinct : ∀ (i j : ℕ) (h h' : Handler), s.handlers[i]? = some h → s.handlers[j]? = some h' →
    h.socketOpen = true → h'.socketOpen = true → h.fd = h'.fd → i = j
  owner : ∀ (fd : RawFd) (c : TcpClient), s.connections.lookup fd = some c →
    ∃ h, s.handlers[c.dialedFor]? = some h ∧ h.fd = fd ∧ h.serving = some c
  absent : ∀ (i : ℕ) (h : Handler), s.handlers[i]? = some h →
    (h.stage = .dialing ∨ ∃ c, h.stage = .dialed c) → s.connections.lookup h.fd = none
  dialed : ∀ (i : ℕ) (h : Handler) (c : TcpClient), s.handlers[i]? = some h →
    h.stage = .dialed c → c.dialedFor = i
  early : ∀ (i : ℕ) (h : Handler), s.handlers[i]? = some h → h.stage = .accepted → h.got = none

theorem inv_new : Inv new where
  distinct := by simp [new]
  owner := by simp [new]
  absent := by simp [new]
  dialed := by simp [new]
  early := by simp [new]

theorem getElem?_put {x : Handler} (hi : s.handlers[i]? = some h) :
    (s.put i h').handlers[j]? = some x ↔ (j = i ∧ x = h') ∨ (j ≠ i ∧ s.handlers[j]? = some x) := by
  have hlt := (List.getElem?_eq_some_iff.1 hi).1
  simp only [State.put, List.getElem?_set]
  by_cases hij : i = j
  · subst hij
    simp [hlt, eq_comm]
  · simp [hij, Ne.symm hij]

/-- What a move of handler `i`, which is `h`, can be. -/
inductive Resumes (s : State) (i : ℕ) (h : Handler) : Move → State → Prop
  | hit (c : TcpClient) (at_ : h.stage = .accepted) (found : s.connections.lookup h.fd = some c) :
      Resumes s i h .lookup (s.put i { h with stage := .running, got := some (.ok c) })
  | miss (at_ : h.stage = .accepted) (found : s.connections.lookup h.fd = none) :
      Resumes s i h .lookup (s.put i { h with stage := .dialing })
  | refused {route : Except ResolverError ConnectionResult} {connect : Connect} (e : ProxyError)
      (at_ : h.stage = .dialing) :
      Resumes s i h (.connect route connect)
        (s.put i { h with stage := .running, got := some (.error e) })
  | connected {route : Except ResolverError ConnectionResult} {connect : Connect} (fd : RawFd)
      (at_ : h.stage = .dialing) :
      Resumes s i h (.connect route connect) (s.put i { h with stage := .dialed ⟨fd, i⟩ })
  | insert (c : TcpClient) (at_ : h.stage = .dialed c) :
      Resumes s i h .insert { s.put i { h with stage := .running, got := some (.ok c) } with
        connections := s.connections.insert h.fd c }
  | close (at_ : h.stage = .accepted ∨ h.stage = .running) :
      Resumes s i h .close (s.put i { h with stage := .closed })
  | closeConnection (at_ : h.stage = .closed) :
      Resumes s i h .closeConnection
        { s.put i { h with stage := .done } with connections := s.connections.erase h.fd }

theorem resumes_of_resume {m : Move} (hm : s.resume port i h m = some s') : Resumes s i h m s' := by
  cases m with
  | lookup =>
    simp only [State.resume] at hm
    split_ifs at hm with hst
    rcases hl : s.connections.lookup h.fd with _ | c <;> rw [hl] at hm <;> cases hm
    · exact .miss hst hl
    · exact .hit c hst hl
  | connect route connect =>
    simp only [State.resume] at hm
    split_ifs at hm with hst
    rcases hd : dial port route connect with e | fd <;> rw [hd] at hm
    · cases hm
      exact .refused e hst
    · simp only at hm
      split_ifs at hm
      cases hm
      exact .connected fd hst
  | insert =>
    simp only [State.resume] at hm
    split at hm
    next c hst =>
      cases hm
      exact .insert c hst
    next => cases hm
  | close =>
    simp only [State.resume] at hm
    split_ifs at hm with hst
    cases hm
    exact .close hst
  | closeConnection =>
    simp only [State.resume] at hm
    split_ifs at hm with hst
    cases hm
    exact .closeConnection hst

theorem step_resume {m : Move} (hm : step port s (.resume i m) = some s') :
    ∃ h, s.handlers[i]? = some h ∧ Resumes s i h m s' := by
  obtain ⟨h, hi, hr⟩ := Option.bind_eq_some_iff.1 hm
  exact ⟨h, hi, resumes_of_resume hr⟩

theorem socketOpen_of_dialing (hst : h.stage = .dialing ∨ ∃ c, h.stage = .dialed c) :
    h.socketOpen = true := by
  rcases hst with hst | ⟨c, hst⟩ <;> simp [Handler.socketOpen, hst]

/-- A move keeps the invariant if it opens no socket, changes the map at the handler's number only,
and what it puts there is what the handler then serves. -/
theorem Inv.put (hs : Inv s) (hi : s.handlers[i]? = some h) (hfd : h'.fd = h.fd)
    (hopen : h'.socketOpen = true → h.socketOpen = true) (hleft : h'.stage ≠ .accepted)
    (hdialed : ∀ c, h'.stage = .dialed c → c.dialedFor = i)
    {conns : AList fun _ : RawFd => TcpClient}
    (hother : ∀ fd, fd ≠ h.fd → conns.lookup fd = s.connections.lookup fd)
    (hold : ∀ c, conns.lookup h.fd = some c → s.connections.lookup h.fd = some c
      ∨ h.socketOpen = true ∧ c.dialedFor = i ∧ h'.serving = some c)
    (hserving : ∀ c, conns.lookup h.fd = some c → h.serving = some c → h'.serving = some c)
    (habsent : (h'.stage = .dialing ∨ ∃ c, h'.stage = .dialed c) → conns.lookup h.fd = none) :
    Inv { s.put i h' with connections := conns } where
  distinct := by
    intro j k x y hj hk hx hy hxy
    rcases (getElem?_put hi).1 hj with ⟨hji, hxh⟩ | ⟨-, hj'⟩ <;>
      rcases (getElem?_put hi).1 hk with ⟨hki, hyh⟩ | ⟨-, hk'⟩
    · rw [hji, hki]
    · rw [hxh] at hx hxy
      rw [hji]
      exact hs.distinct i k h y hi hk' (hopen hx) hy (hfd ▸ hxy)
    · rw [hyh] at hy hxy
      rw [hki]
      exact hs.distinct j i x h hj' hi hx (hopen hy) (hfd ▸ hxy)
    · exact hs.distinct j k x y hj' hk' hx hy hxy
  owner := by
    intro fd c hc
    have hput : ∀ x, s.handlers[c.dialedFor]? = some x → x.fd = fd → x.serving = some c →
        (c.dialedFor = i → h'.serving = some c) →
        ∃ x, (s.put i h').handlers[c.dialedFor]? = some x ∧ x.fd = fd ∧ x.serving = some c := by
      intro x hx hxfd hxs hself
      by_cases hci : c.dialedFor = i
      · rw [hci, hi, Option.some.injEq] at hx
        subst hx
        exact ⟨h', (getElem?_put hi).2 (Or.inl ⟨hci, rfl⟩), hfd.trans hxfd, hself hci⟩
      · exact ⟨x, (getElem?_put hi).2 (Or.inr ⟨hci, hx⟩), hxfd, hxs⟩
    by_cases hf : fd = h.fd
    · subst hf
      rcases hold c hc with hold | ⟨-, hci, hserv⟩
      · obtain ⟨x, hx, hxfd, hxs⟩ := hs.owner _ c hold
        refine hput x hx hxfd hxs fun hci => hserving c hc ?_
        rw [hci, hi, Option.some.injEq] at hx
        rw [hx]
        exact hxs
      · exact ⟨h', (getElem?_put hi).2 (Or.inl ⟨hci, rfl⟩), hfd, hserv⟩
    · simp only [hother fd hf] at hc
      obtain ⟨x, hx, hxfd, hxs⟩ := hs.owner fd c hc
      refine hput x hx hxfd hxs fun hci => absurd ?_ hf
      rw [hci, hi, Option.some.injEq] at hx
      rw [← hxfd, hx]
  absent := by
    intro j x hj hst
    rcases (getElem?_put hi).1 hj with ⟨rfl, rfl⟩ | ⟨hji, hj⟩
    · rw [hfd]
      exact habsent hst
    · by_cases hf : x.fd = h.fd
      · rcases hc : conns.lookup x.fd with _ | c
        · rfl
        · rw [hf] at hc
          rcases hold c hc with hold | ⟨hopen', -⟩
          · rw [← hf, hs.absent j x hj hst] at hold
            cases hold
          · exact absurd (hs.distinct j i x h hj hi (socketOpen_of_dialing hst) hopen' hf) hji
      · simp only [hother _ hf]
        exact hs.absent j x hj hst
  dialed := by
    intro j x c hj hst
    rcases (getElem?_put hi).1 hj with ⟨rfl, rfl⟩ | ⟨-, hj⟩
    · exact hdialed c hst
    · exact hs.dialed j x c hj hst
  early := by
    intro j x hj hst
    rcases (getElem?_put hi).1 hj with ⟨rfl, rfl⟩ | ⟨-, hj⟩
    · exact absurd hst hleft
    · exact hs.early j x hj hst

/-- The moves that leave the map alone. -/
theorem Inv.put_same (hs : Inv s) (hi : s.handlers[i]? = some h) (hfd : h'.fd = h.fd)
    (hopen : h'.socketOpen = true → h.socketOpen = true) (hleft : h'.stage ≠ .accepted)
    (hdialed : ∀ c, h'.stage = .dialed c → c.dialedFor = i)
    (hserving : ∀ c, h.serving = some c → h'.serving = some c)
    (habsent : (h'.stage = .dialing ∨ ∃ c, h'.stage = .dialed c) →
      s.connections.lookup h.fd = none) : Inv (s.put i h') :=
  hs.put hi hfd hopen hleft hdialed (fun _ _ => rfl) (fun _ hc => Or.inl hc)
    (fun c _ => hserving c) habsent

theorem Resumes.inv {m : Move} (hs : Inv s) (hi : s.handlers[i]? = some h)
    (hm : Resumes s i h m s') : Inv s' := by
  cases hm with
  | hit c hst hfound =>
    refine hs.put_same hi rfl ?_ ?_ ?_ ?_ ?_ <;> simp [Handler.socketOpen, Handler.serving, hst]
  | miss hst hfound =>
    refine hs.put_same hi rfl ?_ ?_ ?_ ?_ (fun _ => hfound) <;>
      simp [Handler.socketOpen, Handler.serving, hst]
  | refused e hst =>
    refine hs.put_same hi rfl ?_ ?_ ?_ ?_ ?_ <;> simp [Handler.socketOpen, Handler.serving, hst]
  | connected fd hst =>
    refine hs.put_same hi rfl ?_ ?_ ?_ ?_ (fun _ => hs.absent i h hi (Or.inl hst)) <;>
      simp [Handler.socketOpen, Handler.serving, hst]
  | insert c hst =>
    have hci : c.dialedFor = i := hs.dialed i h c hi hst
    have hopen : h.socketOpen = true := socketOpen_of_dialing (Or.inr ⟨c, hst⟩)
    refine hs.put hi ?_ (fun _ => hopen) ?_ ?_ (fun fd hfd => AList.lookup_insert_ne hfd)
      (fun c' hc' => Or.inr ⟨hopen, ?_⟩) ?_ ?_
    · rfl
    · simp
    · simp
    · rw [AList.lookup_insert, Option.some.injEq] at hc'
      subst hc'
      exact ⟨hci, rfl⟩
    · simp [Handler.serving, hst]
    · simp
  | close hst =>
    refine hs.put_same hi rfl (by simp [Handler.socketOpen]) (by simp) (by simp) (fun c hc => ?_)
      (by simp)
    obtain ⟨-, hgot⟩ := Handler.serving_eq_some.1 hc
    exact Handler.serving_eq_some.2 ⟨Or.inr rfl, hgot⟩
  | closeConnection hst =>
    refine hs.put hi ?_ ?_ ?_ ?_ (fun fd hfd => AList.lookup_erase_ne hfd) ?_ ?_ ?_
    · rfl
    all_goals simp [Handler.socketOpen]

theorem getElem?_accept {x : Handler}
    (hj : (s.handlers ++ [⟨fd, .accepted, none⟩])[j]? = some x) :
    s.handlers[j]? = some x ∨ j = s.handlers.length ∧ x = ⟨fd, .accepted, none⟩ := by
  rw [List.getElem?_append] at hj
  split_ifs at hj with hlt
  · exact Or.inl hj
  · rw [List.getElem?_singleton] at hj
    split_ifs at hj with h0
    exact Or.inr ⟨by omega, (Option.some.inj hj).symm⟩

theorem ne_of_not_isOpen (hfd : ¬ s.isOpen fd = true) (hj : s.handlers[j]? = some h)
    (hopen : h.socketOpen = true) : h.fd ≠ fd := by
  intro heq
  refine hfd ?_
  simp only [State.isOpen, Bool.or_eq_true, List.any_eq_true]
  exact Or.inl ⟨h, List.mem_of_getElem? hj, by simp [hopen, heq]⟩

theorem Inv.accept (hs : Inv s) (hfd : ¬ s.isOpen fd = true) :
    Inv { s with handlers := s.handlers ++ [⟨fd, .accepted, none⟩] } where
  distinct := by
    intro j k x y hj hk hx hy hxy
    rcases getElem?_accept hj with hj' | ⟨hj', rfl⟩ <;>
      rcases getElem?_accept hk with hk' | ⟨hk', rfl⟩
    · exact hs.distinct j k x y hj' hk' hx hy hxy
    · exact absurd hxy (ne_of_not_isOpen hfd hj' hx)
    · exact absurd hxy.symm (ne_of_not_isOpen hfd hk' hy)
    · rw [hj', hk']
  owner := by
    intro fd' c hc
    obtain ⟨x, hx, hrest⟩ := hs.owner fd' c hc
    refine ⟨x, ?_, hrest⟩
    rw [List.getElem?_append_left (List.getElem?_eq_some_iff.1 hx).1]
    exact hx
  absent := by
    intro j x hj hst
    rcases getElem?_accept hj with hj | ⟨-, rfl⟩
    · exact hs.absent j x hj hst
    · simp at hst
  dialed := by
    intro j x c hj hst
    rcases getElem?_accept hj with hj | ⟨-, rfl⟩
    · exact hs.dialed j x c hj hst
    · cases hst
  early := by
    intro j x hj hst
    rcases getElem?_accept hj with hj | ⟨-, rfl⟩
    · exact hs.early j x hj hst
    · rfl

theorem step_accept (hstep : step port s (.accept fd) = some s') :
    ¬ s.isOpen fd = true ∧ s' = { s with handlers := s.handlers ++ [⟨fd, .accepted, none⟩] } := by
  simp only [step] at hstep
  split_ifs at hstep with hopen
  exact ⟨hopen, (Option.some.inj hstep).symm⟩

theorem step_inv {a : Action} (hs : Inv s) (hstep : step port s a = some s') : Inv s' := by
  cases a with
  | accept fd =>
    obtain ⟨hfd, rfl⟩ := step_accept hstep
    exact hs.accept hfd
  | resume i m =>
    obtain ⟨h, hi, hm⟩ := step_resume hstep
    exact hm.inv hs hi

/-! ## What a step does to the handlers' backends -/

theorem Owned.accept (ho : Owned s) :
    Owned { s with handlers := s.handlers ++ [⟨fd, .accepted, none⟩] } where
  got := by
    intro j x c hj hgot
    rcases getElem?_accept hj with hj | ⟨-, rfl⟩
    · exact ho.got j x c hj hgot
    · cases hgot
  kept := by
    intro j x c hj hserv
    rcases getElem?_accept hj with hj | ⟨-, rfl⟩
    · exact ho.kept j x c hj hserv
    · cases hserv

/-- A move keeps the backends apart if the handler's own is right and the map changes only where no
other handler serves. -/
theorem Owned.put (ho : Owned s) (hi : s.handlers[i]? = some h) (hfd : h'.fd = h.fd)
    (hgot : ∀ c, h'.got = some (.ok c) → c.dialedFor = i)
    {conns : AList fun _ : RawFd => TcpClient}
    (hkept : ∀ c, h'.serving = some c → conns.lookup h.fd = some c)
    (hother : ∀ (j : ℕ) (x : Handler) (c : TcpClient), j ≠ i → s.handlers[j]? = some x →
      x.serving = some c → conns.lookup x.fd = s.connections.lookup x.fd) :
    Owned { s.put i h' with connections := conns } where
  got := by
    intro j x c hj hx
    rcases (getElem?_put hi).1 hj with ⟨rfl, rfl⟩ | ⟨-, hj⟩
    · exact hgot c hx
    · exact ho.got j x c hj hx
  kept := by
    intro j x c hj hx
    rcases (getElem?_put hi).1 hj with ⟨rfl, rfl⟩ | ⟨hji, hj⟩
    · rw [hfd]
      exact hkept c hx
    · simp only [hother j x c hji hj hx]
      exact ho.kept j x c hj hx

theorem Alone.fd_ne (hal : Alone s i h) (hji : j ≠ i) (hj : s.handlers[j]? = some h')
    (hserv : h'.serving = some c) : h'.fd ≠ h.fd := by
  intro heq
  rw [hal j h' hji hj heq] at hserv
  cases hserv

theorem Resumes.owned {m : Move} (hs : Inv s) (ho : Owned s) (hi : s.handlers[i]? = some h)
    (hex : Exclusive s (.resume i m)) (hm : Resumes s i h m s') : Owned s' := by
  cases hm with
  | hit c hst hfound =>
    -- the entry's owner is another handler, which serves it
    exfalso
    obtain ⟨x, hx, hxfd, hxs⟩ := hs.owner h.fd c hfound
    have hne : c.dialedFor ≠ i := by
      intro hci
      rw [hci, hi, Option.some.injEq] at hx
      subst hx
      simp [Handler.serving, hst] at hxs
    exact (hex h hi).fd_ne hne hx hxs hxfd
  | miss hst hfound =>
    refine ho.put hi ?_ ?_ ?_ fun _ _ _ _ _ _ => rfl
    · rfl
    · exact fun c hc => ho.got i h c hi hc
    · simp [Handler.serving]
  | refused e hst =>
    refine ho.put hi ?_ ?_ ?_ fun _ _ _ _ _ _ => rfl
    · rfl
    · simp
    · simp [Handler.serving]
  | connected fd hst =>
    refine ho.put hi ?_ ?_ ?_ fun _ _ _ _ _ _ => rfl
    · rfl
    · exact fun c hc => ho.got i h c hi hc
    · simp [Handler.serving]
  | insert c hst =>
    refine ho.put hi ?_ (fun c' hc' => ?_) (fun c' hc' => ?_) fun j x c' hji hj hx => ?_
    · rfl
    · cases hc'
      exact hs.dialed i h c hi hst
    · cases hc'
      exact AList.lookup_insert _
    · refine AList.lookup_insert_ne fun hfd => ?_
      have hkept := ho.kept j x c' hj hx
      rw [hfd, hs.absent i h hi (Or.inr ⟨c, hst⟩)] at hkept
      cases hkept
  | close hst =>
    refine ho.put hi ?_ ?_ (fun c hc => ?_) fun _ _ _ _ _ _ => rfl
    · rfl
    · exact fun c hc => ho.got i h c hi hc
    · obtain ⟨-, hgot⟩ := Handler.serving_eq_some.1 hc
      rcases hst with hst | hst
      · cases (hs.early i h hi hst).symm.trans hgot
      · exact ho.kept i h c hi (Handler.serving_eq_some.2 ⟨Or.inl hst, hgot⟩)
  | closeConnection hst =>
    refine ho.put hi ?_ ?_ ?_ fun j x c hji hj hx => ?_
    · rfl
    · exact fun c hc => ho.got i h c hi hc
    · simp [Handler.serving]
    · exact AList.lookup_erase_ne ((hex h hi).fd_ne hji hj hx)

theorem shared_of_not_exclusive {m : Move} (hi : s.handlers[i]? = some h)
    (hex : ¬ Exclusive s (.resume i m)) : (m = .lookup ∨ m = .closeConnection)
      ∧ ∃ j x c, j ≠ i ∧ s.handlers[j]? = some x ∧ x.fd = h.fd ∧ x.serving = some c := by
  cases m with
  | lookup | closeConnection =>
    simp only [Exclusive, Alone, not_forall] at hex
    obtain ⟨h₀, hi₀, j, x, hji, hj, hfd, hx⟩ := hex
    cases hi.symm.trans hi₀
    obtain ⟨c, hc⟩ := Option.ne_none_iff_exists'.1 hx
    exact ⟨by simp, j, x, c, hji, hj, hfd, hc⟩
  | connect | insert | close => exact absurd trivial hex

/-- A lookup or removal by a handler that is not alone hands out or removes another's backend. -/
theorem Resumes.not_owned {m : Move} (ho : Owned s) (hi : s.handlers[i]? = some h)
    (hex : ¬ Exclusive s (.resume i m)) (hm : Resumes s i h m s') : ¬ Owned s' := by
  intro ho'
  obtain ⟨hm', j, x, c, hji, hj, hfd, hx⟩ := shared_of_not_exclusive hi hex
  have hentry : s.connections.lookup h.fd = some c := hfd ▸ ho.kept j x c hj hx
  cases hm with
  | hit c' hst hfound =>
    rw [hfound, Option.some.injEq] at hentry
    subst hentry
    have hforj := ho.got j x c' hj (Handler.serving_eq_some.1 hx).2
    have hfori := ho'.got i _ c' ((getElem?_put hi).2 (Or.inl ⟨rfl, rfl⟩)) rfl
    exact hji (hforj.symm.trans hfori)
  | miss hst hfound =>
    rw [hfound] at hentry
    cases hentry
  | closeConnection hst =>
    have hkept : (s.connections.erase h.fd).lookup x.fd = some c :=
      ho'.kept j x c ((getElem?_put hi).2 (Or.inr ⟨hji, hj⟩)) hx
    rw [hfd, AList.lookup_erase] at hkept
    cases hkept
  | refused | connected | insert | close => simp at hm'

theorem step_owned {a : Action} (hs : Inv s) (ho : Owned s) (hex : Exclusive s a)
    (hstep : step port s a = some s') : Owned s' := by
  cases a with
  | accept fd =>
    obtain ⟨-, rfl⟩ := step_accept hstep
    exact ho.accept
  | resume i m =>
    obtain ⟨h, hi, hm⟩ := step_resume hstep
    exact hm.owned hs ho hi hex

theorem step_not_owned {a : Action} (ho : Owned s) (hex : ¬ Exclusive s a)
    (hstep : step port s a = some s') : ¬ Owned s' := by
  cases a with
  | accept fd => exact absurd trivial hex
  | resume i m =>
    obtain ⟨h, hi, hm⟩ := step_resume hstep
    exact hm.not_owned ho hi hex

/-- Along a run every handler gets and keeps its own backend exactly if no handler looks up or
removes its entry while another one that was given the same number still has to call
`close_connection` for a backend it got. -/
theorem owned_iff_exclusive (port : UInt16) {as : List Action} {s : State}
    (hrun : run (step port) new as = some s) :
    Always (step port) Owned new as ↔ EachStep (step port) Exclusive new as :=
  always_iff_eachStep (fun _ _ _ hs h => step_inv hs h)
    (fun _ _ _ hs ho hex h => step_owned hs ho hex h)
    (fun _ _ _ _ ho hex h => step_not_owned ho hex h) inv_new ⟨by simp [new], by simp [new]⟩ hrun

/-- A handler's life from `accept` to the end of `run_client`, with a backend at descriptor `b`. -/
def served (i : ℕ) (fd b : RawFd) : List Action :=
  [.accept fd, .resume i .lookup,
    .resume i (.connect (.ok ⟨"203.0.113.1:5432".toList, .tcp, []⟩) (.connected b)),
    .resume i .insert, .resume i .close]

theorem alone_of_length {x : Handler} (hs : s.handlers.length ≤ 1) : Alone s 0 x := by
  intro j h' hj0 hj
  have := (List.getElem?_eq_some_iff.1 hj).1
  omega

/-- One client, served from beginning to end. -/
theorem owned_iff_exclusive_one_client :
    Always (step 5432) Owned new (served 0 7 8 ++ [.resume 0 .closeConnection]) := by
  have hrun : ∃ s, run (step 5432) new (served 0 7 8 ++ [.resume 0 .closeConnection]) = some s :=
    ⟨_, rfl⟩
  obtain ⟨s, hrun⟩ := hrun
  refine (owned_iff_exclusive 5432 hrun).2 ⟨trivial, fun s₁ h₁ => ⟨fun _ _ => ?_, fun s₂ h₂ =>
    ⟨trivial, fun s₃ h₃ => ⟨trivial, fun s₄ h₄ => ⟨trivial, fun s₅ h₅ => ⟨fun _ _ => ?_,
      fun _ _ => trivial⟩⟩⟩⟩⟩⟩
  · cases h₁
    exact alone_of_length (by decide)
  · cases h₁
    cases h₂
    cases h₃
    cases h₄
    cases h₅
    exact alone_of_length (by decide)

/-- The first client's socket is closed, the second client is given its number and asks for its
connection before the first handler has removed the entry: it gets the first one's backend. -/
theorem reused_number_gets_other_backend :
    ¬ ∀ (port : UInt16) (as : List Action) (s : State), run (step port) new as = some s →
      Always (step port) Owned new as := by
  intro h
  have hrun : ∃ s x, run (step 5432) new (served 0 7 8 ++ [.accept 7, .resume 1 .lookup]) = some s
      ∧ s.handlers[1]? = some x ∧ x.got = some (.ok ⟨8, 0⟩) := ⟨_, _, rfl, rfl, rfl⟩
  obtain ⟨s, x, hrun, hx, hgot⟩ := hrun
  have hown : Owned s := (h 5432 _ s hrun).last hrun
  exact absurd (hown.got 1 x ⟨8, 0⟩ hx hgot) (by decide)

/-! ## How many entries there are -/

/-- Distinct entries were dialed for distinct handlers. -/
theorem Inv.dialedFor_inj (hs : Inv s) {fd' : RawFd} {c' : TcpClient}
    (hc : s.connections.lookup fd = some c) (hc' : s.connections.lookup fd' = some c')
    (heq : c.dialedFor = c'.dialedFor) : fd = fd' ∧ c = c' := by
  obtain ⟨h, hi, hfd, hserv⟩ := hs.owner fd c hc
  obtain ⟨h', hi', hfd', hserv'⟩ := hs.owner fd' c' hc'
  rw [← heq, hi, Option.some.injEq] at hi'
  subst hi'
  exact ⟨hfd.symm.trans hfd', Option.some.inj (hserv.symm.trans hserv')⟩

theorem Inv.nodup_dialedFor (hs : Inv s) :
    (s.connections.entries.map (·.2.dialedFor)).Nodup := by
  refine List.Nodup.map_on ?_ s.connections.nodupKeys.nodup
  rintro ⟨fd, c⟩ hc ⟨fd', c'⟩ hc' heq
  obtain ⟨rfl, rfl⟩ := hs.dialedFor_inj (AList.mem_lookup_iff.2 hc) (AList.mem_lookup_iff.2 hc') heq
  rfl

/-- The map never has more entries than there are handlers between their successful
`get_connection` and their `close_connection`, however the numbers are given out again. -/
theorem entries_le_serving (port : UInt16) {as : List Action} {s : State}
    (hrun : run (step port) new as = some s) :
    s.connections.entries.length ≤ s.handlers.countP (·.serving.isSome) := by
  have hs : Inv s := run_inv (fun _ _ _ hs h => step_inv hs h) inv_new hrun
  have hsub : s.connections.entries.map (·.2.dialedFor)
      ⊆ s.handlers.findIdxs (·.serving.isSome) := by
    intro i hi
    obtain ⟨⟨fd, c⟩, hc, rfl⟩ := List.mem_map.1 hi
    obtain ⟨h, hh, -, hserv⟩ := hs.owner fd c (AList.mem_lookup_iff.2 hc)
    obtain ⟨hlt, rfl⟩ := List.getElem?_eq_some_iff.1 hh
    rw [List.mem_findIdxs_iff_pos_getElem hlt, hserv]
    rfl
  calc s.connections.entries.length
      = (s.connections.entries.map (·.2.dialedFor)).length := (List.length_map _).symm
    _ ≤ (s.handlers.findIdxs (·.serving.isSome)).length :=
      (hs.nodup_dialedFor.subperm hsub).length_le
    _ = s.handlers.countP (·.serving.isSome) := List.length_findIdxs

/-- Two clients of one number share an entry, and nothing is left when both handlers are done. -/
theorem entries_le_serving_sharedNumber :
    ∃ s, run (step 5432) new (served 0 7 8 ++ [.accept 7, .resume 1 .lookup, .resume 1 .close,
        .resume 0 .closeConnection, .resume 1 .closeConnection]) = some s
      ∧ s.connections.entries.length ≤ 0 := by
  have hrun : ∃ s, run (step 5432) new (served 0 7 8 ++ [.accept 7, .resume 1 .lookup,
        .resume 1 .close, .resume 0 .closeConnection, .resume 1 .closeConnection]) = some s
      ∧ s.handlers.countP (·.serving.isSome) = 0 := ⟨_, rfl, rfl⟩
  obtain ⟨s, hrun, hdone⟩ := hrun
  exact ⟨s, hrun, hdone ▸ entries_le_serving 5432 hrun⟩

end Connections

end ProtocolProxy
