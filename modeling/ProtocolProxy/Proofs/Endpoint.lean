import ProtocolProxy.Endpoint
import ProtocolProxy.Proofs.Lookup

/-!
# When the dial reaches the address that was checked

What `validate` accepts is the text of an unblocked address, with the endpoint's port after it
(`validate_ok`).  The text of an IPv4 address has no colon, so splitting at the first one gives the
address and the port back.  The text of an IPv6 address has one, so the host a server dials is a
fragment of it, and no text of an IPv6 address at all (`dialsChecked_iff`).
-/

namespace ProtocolProxy

open Net Digits

/-! ## Ports -/

theorem parsePort_portText (p : UInt16) : parsePort (portText p) = some p := by
  have hp : p.toNat < 65536 := p.toNat_lt
  simp [parsePort, portText, parseUnsigned_toDigits hp]

theorem portText_ne_nil (p : UInt16) : portText p ≠ [] := Nat.toDigits_ne_nil

/-! ## The parts of an endpoint -/

theorem splitn_three (e : Text) :
    (splitOnce ':' e = none ∧ splitn ':' 3 e = [e])
    ∨ (∃ host port, splitOnce ':' e = some (host, port) ∧ ':' ∉ port
        ∧ splitn ':' 3 e = [host, port])
    ∨ 2 < (splitn ':' 3 e).length := by
  rcases h : splitOnce ':' e with _ | ⟨host, port⟩
  · exact Or.inl ⟨rfl, by simp [splitn, h]⟩
  · rcases h' : splitOnce ':' port with _ | ⟨a, b⟩
    · exact Or.inr (Or.inl ⟨host, port, rfl, splitOnce_eq_none.1 h', by simp [splitn, h, h']⟩)
    · exact Or.inr (Or.inr (by simp [splitn, h, h']))

/-- How an accepted endpoint was written: with a port, or without one. -/
inductive Written (e : Text) : Option UInt16 → Prop
  | port {portStr : Text} {p : UInt16} (split : splitOnce ':' e = some (hostPart e, portStr))
      (parse : parsePort portStr = some p) (pos : 1 ≤ p) : Written e (some p)
  | noPort (split : splitOnce ':' e = none ∨ splitOnce ':' e = some (hostPart e, [])) :
      Written e none

theorem Written.writtenPort_eq {e : Text} {port : Option UInt16} (h : Written e port) :
    writtenPort e = port := by
  cases h with
  | port split parse _ => simp [writtenPort, split, parse]
  | noPort split =>
    have hnil : parsePort [] = none := rfl
    rcases split with split | split <;> simp [writtenPort, split, hnil]

theorem endpointPort_ok {e : Text} {port : Option UInt16} (h2 : ¬ 2 < (splitn ':' 3 e).length)
    (h : endpointPort (splitn ':' 3 e) = .ok port) : Written e port := by
  rcases splitn_three e with ⟨hsplit, hparts⟩ | ⟨host, portStr, hsplit, -, hparts⟩ | hlen
  · rw [hparts] at h
    cases h
    exact .noPort (Or.inl hsplit)
  · have hhost : hostPart e = host := by simp [hostPart, hparts]
    rw [← hhost] at hsplit
    simp only [hparts, endpointPort] at h
    rcases portStr with _ | ⟨c, cs⟩
    · cases h
      exact .noPort (Or.inr hsplit)
    · simp only [List.getD_cons_succ, List.getD_cons_zero, List.length_cons, List.length_nil,
        List.isEmpty_cons, Bool.not_false, decide_true, Bool.and_self, if_true] at h
      split at h
      · cases h
      · rename_i p hp
        split_ifs at h with hpos
        cases h
        exact .port hsplit hp hpos
  · exact absurd hlen h2

theorem endpointAddress_ok {env : DnsEnv} {host : Text} {ip : IpAddr}
    (h : endpointAddress env host = .ok ip) :
    IpAddr.parse (resolve env host).1 = some ip ∧ isBlockedIp ip = false := by
  unfold endpointAddress at h
  split at h
  · cases h
  · rename_i ip' hip
    split_ifs at h with hb
    cases h
    exact ⟨hip, by simpa using hb⟩

/-- What `validate` accepts: an endpoint whose address is not blocked.  It returns that address
with the port that was written. -/
theorem validate_ok {env : DnsEnv} {e s : Text} (h : validate env e = .ok s) :
    ∃ ip port, checkedAddress env e = some ip ∧ isBlockedIp ip = false ∧ Written e port
      ∧ s = addressText ip port := by
  simp only [validate] at h
  split_ifs at h with h2
  simp only [bind_eq_ok] at h
  obtain ⟨port, hport, ip, hip, hs⟩ := h
  obtain ⟨haddr, hb⟩ := endpointAddress_ok hip
  cases hs
  exact ⟨ip, port, haddr, hb, endpointPort_ok h2 hport, rfl⟩

/-! ## Splitting what was accepted -/

theorem parseEndpoint_v4 (ip : Ipv4Addr) (port : Option UInt16) (d : UInt16) :
    parseEndpoint (addressText (.v4 ip) port) d = (ip.text, port.getD d) := by
  have hcolon := colon_notMem_v4_text ip
  rcases port with _ | p
  · have h : splitOnce ':' ip.text = none := splitOnce_eq_none.2 hcolon
    simp [parseEndpoint, addressText, IpAddr.text, h]
  · have h : splitOnce ':' (ip.text ++ ':' :: portText p) = some (ip.text, portText p) :=
      splitOnce_eq_some.2 ⟨rfl, hcolon⟩
    simp [parseEndpoint, addressText, IpAddr.text, h, portText_ne_nil, parsePort_portText]

/-- The dialed host never has a colon in it, if the endpoint has one. -/
theorem colon_notMem_parseEndpoint {s : Text} (h : ':' ∈ s) (d : UInt16) :
    ':' ∉ (parseEndpoint s d).1 := by
  rcases hs : splitOnce ':' s with _ | ⟨host, portStr⟩
  · exact absurd h (splitOnce_eq_none.1 hs)
  · obtain ⟨-, hhost⟩ := splitOnce_eq_some.1 hs
    simp only [parseEndpoint, hs]
    split_ifs <;> exact hhost

theorem colon_mem_addressText_v6 (ip : Ipv6Addr) (port : Option UInt16) :
    ':' ∈ addressText (.v6 ip) port := by
  have h := colon_mem_v6_text ip
  rcases port with _ | p
  · exact h
  · simp [addressText]

/-! ## The family of the address -/

theorem isIpv4_preferred {ips : List IpAddr} {ip : IpAddr} (h : Preferred ips ip) :
    ip.isIpv4 = ips.any IpAddr.isIpv4 := by
  rcases h with ⟨pre, post, rfl, hip, -⟩ | ⟨hall, hhead⟩
  · simp [hip]
  · rw [hall ip (List.mem_of_mem_head? hhead), eq_comm, List.any_eq_false]
    simpa using hall

/-- The address a host resolves to is an IPv4 one exactly when `picksIpv4` says so. -/
theorem picksIpv4_eq {env : DnsEnv} {host : Text} {ip : IpAddr}
    (h : IpAddr.parse (resolve env host).1 = some ip) : picksIpv4 env host = ip.isIpv4 := by
  rcases hlit : IpAddr.parse host with _ | lit
  · have hne : host ≠ [] := by
      rintro rfl
      simp [resolve_empty, hlit] at h
    rcases hcache : env.cache host with _ | cached
    · have hasks : Asks env.cache host := ⟨hne, hlit, hcache⟩
      rcases hlookup : env.lookup with _ | _ | ips
      · simp [resolve_failed hasks (.inl hlookup), hlit] at h
      · simp [resolve_failed hasks (.inr (.inl hlookup)), hlit] at h
      · rcases hpick : pickAddress ips with _ | picked
        · rw [pickAddress_eq_none.1 hpick] at hlookup
          simp [resolve_failed hasks (.inr (.inr hlookup)), hlit] at h
        · have hpreferred := pickAddress_eq_some.1 hpick
          rw [resolve_answer hasks hlookup hpreferred, IpAddr.parse_text, Option.some.injEq] at h
          subst h
          simp only [picksIpv4, hlit, hcache, hlookup]
          exact (isIpv4_preferred hpreferred).symm
    · rw [resolve_cached hne hlit hcache, IpAddr.parse_text, Option.some.injEq] at h
      simp only [picksIpv4, hlit, hcache, h]
  · rw [resolve_literal hlit, hlit, Option.some.injEq] at h
    simp only [picksIpv4, hlit, h]

/-- An accepted endpoint is dialed at the address that was checked, and at its port, exactly when
that address is an IPv4 one. -/
theorem dialsChecked_iff {env : DnsEnv} {e s : Text} (h : validate env e = .ok s) (d : UInt16) :
    DialsChecked env e s d ↔ picksIpv4 env (hostPart e) = true := by
  obtain ⟨ip, port, haddr, hb, hw, rfl⟩ := validate_ok h
  rw [picksIpv4_eq haddr]
  constructor
  · rintro ⟨ip', haddr', -, htext, -, -⟩
    rw [haddr, Option.some.injEq] at haddr'
    subst haddr'
    cases ip with
    | v4 ip => rfl
    | v6 ip =>
      have hin := colon_mem_v6_text ip
      have hout := colon_notMem_parseEndpoint (colon_mem_addressText_v6 ip port) d
      rw [htext] at hout
      exact absurd hin hout
  · intro hv4
    cases ip with
    | v4 ip =>
      rw [DialsChecked, parseEndpoint_v4, hw.writtenPort_eq]
      exact ⟨.v4 ip, haddr, hb, rfl, IpAddr.parse_text (.v4 ip), rfl⟩
    | v6 ip => cases hv4

/-- A host with addresses of both families is dialed at the IPv4 one. -/
theorem dialsChecked_iff_both_families :
    validate ⟨fun _ => none, .answer [.v6 ⟨[0x2606, 0x4700, 0x4700, 0, 0, 0, 0, 0x1111], rfl⟩,
        .v4 ⟨1, 1, 1, 1⟩]⟩ "db.example:5433".toList = .ok "1.1.1.1:5433".toList
      ∧ (DialsChecked ⟨fun _ => none, .answer [.v6 ⟨[0x2606, 0x4700, 0x4700, 0, 0, 0, 0, 0x1111],
          rfl⟩, .v4 ⟨1, 1, 1, 1⟩]⟩ "db.example:5433".toList "1.1.1.1:5433".toList 5432
        ↔ picksIpv4 ⟨fun _ => none, .answer [.v6 ⟨[0x2606, 0x4700, 0x4700, 0, 0, 0, 0, 0x1111],
          rfl⟩, .v4 ⟨1, 1, 1, 1⟩]⟩ (hostPart "db.example:5433".toList) = true) :=
  ⟨rfl, dialsChecked_iff rfl 5432⟩

/-- A host with only an IPv6 address is accepted and dialed somewhere else: for
`2606:4700:4700::1111` the servers dial the host `2606`. -/
theorem ipv6_answer_not_dialed :
    ¬ ∀ (env : DnsEnv) (e s : Text) (d : UInt16), validate env e = .ok s →
      DialsChecked env e s d := by
  intro h
  obtain ⟨ip, haddr, -, htext, -, -⟩ := h
    ⟨fun _ => none, .answer [.v6 ⟨[0x2606, 0x4700, 0x4700, 0, 0, 0, 0, 0x1111], rfl⟩]⟩
    "db.example".toList "2606:4700:4700::1111".toList 5432 rfl
  have hip : ip = .v6 ⟨[0x2606, 0x4700, 0x4700, 0, 0, 0, 0, 0x1111], rfl⟩ :=
    (Option.some.inj haddr).symm
  rw [hip] at htext
  revert htext
  decide

end ProtocolProxy
