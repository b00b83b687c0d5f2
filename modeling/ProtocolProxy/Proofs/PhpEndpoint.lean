import ProtocolProxy.PhpEndpoint
import ProtocolProxy.Proofs.BlockList

/-!
# Where the two validations of an endpoint agree

Both adapters look for the host's address in the same places (`parse_resolve`, `php_resolve`) and
refuse the same addresses, so they can differ only in the port.  A port that Rust takes is the same
number for PHP (`port_of_isPlain`), but PHP takes other texts for numbers, and an empty text after
the colon is no port for Rust and the port 0 for PHP.
-/

namespace ProtocolProxy

namespace PhpEndpoint

open Net Digits Numeric

variable {rust : ProtocolProxy.DnsEnv} {php : DnsEnv} {answer : Option Ipv4Addr}
  {e s host port : Text} {a : Ipv4Addr}

/-! ## The parts of an endpoint -/

/-- Both adapters see the same parts, as long as there are at most two. -/
theorem parts_cases (e : Text) :
    (':' ∉ e ∧ splitn ':' 3 e = [e] ∧ e.splitOn ':' = [e])
    ∨ (∃ host port, ':' ∉ host ∧ splitn ':' 3 e = [host, port] ∧ e.splitOn ':' = [host, port])
    ∨ (2 < (splitn ':' 3 e).length ∧ 2 < (e.splitOn ':').length) := by
  rcases h : splitOnce ':' e with _ | ⟨host, rest⟩
  · have he := splitOnce_eq_none.1 h
    exact .inl ⟨he, by simp [splitn, h], List.splitOn_eq_singleton he⟩
  · obtain ⟨he, hhost⟩ := splitOnce_eq_some.1 h
    have hsplit : e.splitOn ':' = host :: rest.splitOn ':' := by
      rw [he, List.splitOn_append_cons_self, List.splitOn_eq_singleton hhost]
      rfl
    rcases h' : splitOnce ':' rest with _ | ⟨mid, last⟩
    · refine .inr (.inl ⟨host, rest, hhost, by simp [splitn, h, h'], ?_⟩)
      rw [hsplit, List.splitOn_eq_singleton (splitOnce_eq_none.1 h')]
    · obtain ⟨hrest, -⟩ := splitOnce_eq_some.1 h'
      have hlast := List.length_pos_iff.2 (List.splitOn_ne_nil ':' last)
      have hmid := List.length_pos_iff.2 (List.splitOn_ne_nil ':' mid)
      refine .inr (.inr ⟨by simp [splitn, h, h'], ?_⟩)
      rw [hsplit, hrest, List.splitOn_append_cons_self, List.length_cons, List.length_append]
      omega

theorem rust_validate_ok (h : ¬ 2 < (splitn ':' 3 e).length) :
    ProtocolProxy.validate rust e = .ok s ↔ ∃ port,
      ProtocolProxy.endpointPort (splitn ':' 3 e) = .ok port
        ∧ ∃ ip, ProtocolProxy.endpointAddress rust ((splitn ':' 3 e).getD 0 []) = .ok ip
          ∧ ProtocolProxy.addressText ip port = s := by
  simp only [ProtocolProxy.validate, if_neg h, bind_eq_ok, pure, Except.pure, Except.ok.injEq]

theorem php_validate_ok (h : ¬ 2 < (e.splitOn ':').length) :
    validate php e = .ok s ↔ ∃ port, endpointPort (e.splitOn ':') = .ok port
      ∧ ∃ ip, endpointAddress php ((e.splitOn ':').getD 0 []) = .ok ip
        ∧ addressText ip port = s := by
  simp only [validate, if_neg h, bind_eq_ok, pure, Except.pure, Except.ok.injEq]

/-! ## The address -/

theorem isIp_of_colon_notMem (h : ':' ∉ host) : isIp host = (Ipv4Addr.parse host).isSome := by
  rw [isIp, IpAddr.parse_of_colon_notMem h, Option.isSome_map]

theorem parse_eq_none (hhost : ':' ∉ host) (h : Ipv4Addr.parse host = none) :
    IpAddr.parse host = none := by
  rw [IpAddr.parse_of_colon_notMem hhost, h]
  rfl

theorem parse_resolve (hhost : ':' ∉ host) (h : rustYields rust host answer) :
    IpAddr.parse (ProtocolProxy.resolve rust host).1 = (hostAddress answer host).map .v4 := by
  rcases eq_or_ne host [] with rfl | hne
  · rfl
  rcases hquad : Ipv4Addr.parse host with _ | a
  · have hparse := parse_eq_none hhost hquad
    have haddress : hostAddress answer host = answer := by simp [hostAddress, hne, hquad]
    rw [haddress]
    rcases answer with _ | a
    · obtain ⟨hcache, hlookup⟩ := h
      rw [resolve_failed ⟨hne, hparse, hcache⟩ hlookup, hparse]
      rfl
    · rcases h with hcache | ⟨hcache, ips, hlookup⟩
      · rw [resolve_cached hne hparse hcache, IpAddr.parse_text]
        rfl
      · have hpreferred : Preferred ((a :: ips).map .v4) (.v4 a) :=
          .inl ⟨[], ips.map .v4, rfl, rfl, by simp⟩
        rw [resolve_answer ⟨hne, hparse, hcache⟩ hlookup hpreferred, IpAddr.parse_text]
        rfl
  · have hparse : IpAddr.parse host = some (.v4 a) := by
      rw [IpAddr.parse_of_colon_notMem hhost, hquad]
      rfl
    have haddress : hostAddress answer host = some a := by simp [hostAddress, hne, hquad]
    rw [haddress, resolve_literal hparse, hparse]
    rfl

theorem rust_endpointAddress_ok (hhost : ':' ∉ host) (h : rustYields rust host answer)
    {ip : IpAddr} : ProtocolProxy.endpointAddress rust host = .ok ip
      ↔ ∃ a, Dialable answer host a ∧ .v4 a = ip := by
  unfold Dialable ProtocolProxy.endpointAddress
  rw [parse_resolve hhost h]
  rcases hostAddress answer host with _ | a
  · simp
  · rcases hb : isBlockedIpv4 a with _ | _ <;> simp [isBlockedIp, hb]

theorem php_resolve_some (hhost : ':' ∉ host) (h : phpYields php host answer)
    (haddress : hostAddress answer host = some a) : (resolve php host).1 = a.text := by
  have hne : host ≠ [] := by
    rintro rfl
    simp [hostAddress] at haddress
  have hip := isIp_of_colon_notMem hhost
  rcases hquad : Ipv4Addr.parse host with _ | b
  · have hanswer : answer = some a := by simpa [hostAddress, hne, hquad] using haddress
    subst hanswer
    rw [hquad] at hip
    rcases h with ⟨entry, hentry, htext⟩ | ⟨hentry, hanswer | hanswer⟩
    · simp [resolve, hne, hip, hentry, htext]
    · simp [resolve, hne, hip, hentry, hanswer]
    · simp [resolve, hne, hip, hentry, hanswer]
  · have hb : b = a := by simpa [hostAddress, hne, hquad] using haddress
    rw [hquad] at hip
    have hres : (resolve php host).1 = host := by simp [resolve, hip]
    rw [hres, Ipv4Addr.parse_eq_some.1 hquad, hb]

theorem php_resolve_none (hhost : ':' ∉ host) (h : phpYields php host answer)
    (haddress : hostAddress answer host = none) :
    (resolve php host).1 = host ∧ isIp host = false := by
  rcases eq_or_ne host [] with rfl | hne
  · exact ⟨rfl, rfl⟩
  have hip := isIp_of_colon_notMem hhost
  have hboth : Ipv4Addr.parse host = none ∧ answer = none := by
    simpa [hostAddress, hne] using haddress
  obtain ⟨hquad, rfl⟩ := hboth
  rw [hquad] at hip
  obtain ⟨hentry, hanswer | hanswer⟩ := h
  · simp [resolve, hne, hip, hentry, hanswer]
  · simp [resolve, hne, hip, hentry, hanswer]

theorem isBlockedIpv4_eq_any (a : Ipv4Addr) :
    blockedRanges.any (inRange a.toBits) = isBlockedIpv4 a := by
  rw [Bool.eq_iff_iff, List.any_eq_true, BlockList.exists_inRange_iff,
    BlockList.isBlockedIpv4_iff_reserved]

theorem php_endpointAddress_ok (hhost : ':' ∉ host) (h : phpYields php host answer) {ip : Text} :
    endpointAddress php host = .ok ip
      ↔ ∃ a, Dialable answer host a ∧ a.text = ip := by
  unfold Dialable
  rcases haddress : hostAddress answer host with _ | a
  · obtain ⟨hres, hip⟩ := php_resolve_none hhost h haddress
    simp [endpointAddress, hres, hip]
  · have hres := php_resolve_some hhost h haddress
    have hparse : IpAddr.parse a.text = some (.v4 a) := IpAddr.parse_text (.v4 a)
    have hquad : Ipv4Addr.parse a.text = some a := Ipv4Addr.parse_eq_some.2 rfl
    rcases hb : isBlockedIpv4 a with _ | _ <;>
      simp [endpointAddress, hres, isIp, hparse, isIpv4, hquad, BlockList.ip2long_text,
        isBlockedIpv4_eq_any, hb]

/-! ## The port -/

theorem parsePort_of_isPlain (h : isPlain port = true) :
    parsePort port = if value 10 0 (stripPlus port) < 65536
      then some (UInt16.ofNat (value 10 0 (stripPlus port))) else none := by
  rw [parsePort, parseUnsigned_of_isPlain h (by omega)]
  split_ifs <;> rfl

/-- A port that is written plainly is the same number for both adapters, or for neither of them a
port. -/
theorem port_of_isPlain (h : isPlain port = true) :
    (∃ q : UInt16, parsePort port = some q ∧ 1 ≤ q ∧ intCast port = q.toNat)
      ∨ (∀ q, parsePort port = some q → ¬ 1 ≤ q)
        ∧ ¬ (1 ≤ intCast port ∧ intCast port ≤ 65535) := by
  have hcast := intCast_of_isPlain h
  have hparse := parsePort_of_isPlain h
  generalize value 10 0 (stripPlus port) = v at hcast hparse
  by_cases hv : v < 65536
  · have hq : (UInt16.ofNat v).toNat = v := UInt16.toNat_ofNat_of_lt' hv
    rw [if_pos hv] at hparse
    by_cases hpos : 1 ≤ v
    · refine .inl ⟨UInt16.ofNat v, hparse, ?_, ?_⟩
      · rw [UInt16.le_iff_toNat_le, hq]
        exact hpos
      · rw [hcast, hq]
        omega
    · refine .inr ⟨?_, by omega⟩
      intro q hq'
      rw [hparse, Option.some.injEq] at hq'
      rw [← hq', UInt16.le_iff_toNat_le, hq]
      exact hpos
  · rw [if_neg hv] at hparse
    exact .inr ⟨by simp [hparse], by omega⟩

theorem rust_endpointPort_ok (hne : port ≠ []) {p : Option UInt16} :
    ProtocolProxy.endpointPort [host, port] = .ok p
      ↔ ∃ q, parsePort port = some q ∧ 1 ≤ q ∧ some q = p := by
  rcases hparse : parsePort port with _ | q
  · simp [ProtocolProxy.endpointPort, hne, hparse]
  · by_cases hq : 1 ≤ q <;> simp [ProtocolProxy.endpointPort, hne, hparse, hq]

theorem php_endpointPort_ok {p : Option ℤ} : endpointPort [host, port] = .ok p
    ↔ (1 ≤ intCast port ∧ intCast port ≤ 65535) ∧ some (intCast port) = p := by
  by_cases hrange : 1 ≤ intCast port ∧ intCast port ≤ 65535 <;> simp [endpointPort, hrange]

theorem addressText_natCast (a : Ipv4Addr) (q : UInt16) :
    addressText a.text (some q.toNat) = ProtocolProxy.addressText (.v4 a) (some q) := by
  have htext : (toString (q.toNat : ℤ)).toList = portText q := by
    change (String.ofList (Nat.toDigits 10 q.toNat)).toList = _
    rw [String.toList_ofList]
    rfl
  change a.text ++ ':' :: (toString (q.toNat : ℤ)).toList = a.text ++ ':' :: portText q
  rw [htext]

/-! ## Agreement -/

theorem rust_ok_iff {rest : List Text} (hparts : splitn ':' 3 e = host :: rest)
    (hrest : rest.length ≤ 1) (hhost : ':' ∉ host) (h : rustYields rust host answer) :
    ProtocolProxy.validate rust e = .ok s
      ↔ ∃ p, ProtocolProxy.endpointPort (host :: rest) = .ok p
        ∧ ∃ a, Dialable answer host a ∧ ProtocolProxy.addressText (.v4 a) p = s := by
  have hlen : ¬ 2 < (splitn ':' 3 e).length := by
    rw [hparts, List.length_cons]
    omega
  rw [rust_validate_ok hlen, hparts, List.getD_cons_zero]
  simp only [rust_endpointAddress_ok hhost h, exists_exists_and_eq_and]

theorem php_ok_iff {rest : List Text} (hparts : e.splitOn ':' = host :: rest)
    (hrest : rest.length ≤ 1) (hhost : ':' ∉ host) (h : phpYields php host answer) :
    validate php e = .ok s ↔ ∃ p, endpointPort (host :: rest) = .ok p
      ∧ ∃ a, Dialable answer host a ∧ addressText a.text p = s := by
  have hlen : ¬ 2 < (e.splitOn ':').length := by
    rw [hparts, List.length_cons]
    omega
  rw [php_validate_ok hlen, hparts, List.getD_cons_zero]
  simp only [php_endpointAddress_ok hhost h, exists_exists_and_eq_and]

theorem isLoosePort_eq_false : isLoosePort port = false
    ↔ port ≠ [] ∧ (isPlain port = true ∨ ¬ (1 ≤ intCast port ∧ intCast port ≤ 65535)) := by
  rw [isLoosePort, decide_eq_false_iff_not, not_or, not_and_or, Bool.not_eq_false]

/-- What follows the colon is a port for both adapters, and the same one, or for neither, unless it
is a loose one. -/
theorem endpointPort_agree (h : isLoosePort port = false) (a : Ipv4Addr) :
    (∃ p, ProtocolProxy.endpointPort [host, port] = .ok p
        ∧ ProtocolProxy.addressText (.v4 a) p = s)
      ↔ ∃ p, endpointPort [host, port] = .ok p ∧ addressText a.text p = s := by
  obtain ⟨hne, hport⟩ := isLoosePort_eq_false.1 h
  simp only [rust_endpointPort_ok hne, php_endpointPort_ok]
  rcases hplain : isPlain port with _ | _
  · have hrange : ¬ (1 ≤ intCast port ∧ intCast port ≤ 65535) := by simpa [hplain] using hport
    have hparse : parsePort port = none := by simp [parsePort, parseUnsigned_of_not_isPlain hplain]
    simp [hrange, hparse]
  · rcases port_of_isPlain hplain with ⟨q, hq, hpos, hcast⟩ | ⟨hnone, hrange⟩
    · have hlt := q.toNat_lt
      have hone : 1 ≤ q.toNat := UInt16.le_iff_toNat_le.1 hpos
      have hrange : (1 : ℤ) ≤ q.toNat ∧ (q.toNat : ℤ) ≤ 65535 := by omega
      rw [hcast]
      simp [hq, hpos, hrange, addressText_natCast]
    · constructor
      · rintro ⟨p, ⟨q, hq, hpos, -⟩, -⟩
        exact absurd hpos (hnone q hq)
      · rintro ⟨p, ⟨h', -⟩, -⟩
        exact absurd h' hrange

theorem agree_of_pair (hhost : ':' ∉ host) (hrust : rustYields rust host answer)
    (hphp : phpYields php host answer) (hn : splitn ':' 3 e = [host, port])
    (hsplit : e.splitOn ':' = [host, port]) :
    Agree rust php e ↔ ¬ (isLoosePort port = true ∧ ∃ a, Dialable answer host a) := by
  have hr : ∀ s, ProtocolProxy.validate rust e = .ok s ↔ _ := fun s =>
    rust_ok_iff hn (by simp) hhost hrust
  have hp : ∀ s, validate php e = .ok s ↔ _ := fun s => php_ok_iff hsplit (by simp) hhost hphp
  constructor
  · rintro hagree ⟨hloose, a, ha⟩
    rw [isLoosePort, decide_eq_true_iff] at hloose
    rcases hloose with rfl | ⟨hplain, hrange⟩
    · -- no port for Rust, the port 0 for PHP
      obtain ⟨p, hport, -⟩ := (hp _).1 ((hagree _).1 ((hr _).2 ⟨none, rfl, a, ha, rfl⟩))
      have hzero : intCast [] = 0 := rfl
      have hrange := (php_endpointPort_ok.1 hport).1
      omega
    · have hne : port ≠ [] := by
        rintro rfl
        have hzero : intCast [] = 0 := rfl
        omega
      have hphp := (hp _).2 ⟨_, php_endpointPort_ok.2 ⟨hrange, rfl⟩, a, ha, rfl⟩
      obtain ⟨p, hport, -⟩ := (hr _).1 ((hagree _).2 hphp)
      obtain ⟨q, hq, -⟩ := (rust_endpointPort_ok hne).1 hport
      simp [parsePort, parseUnsigned_of_not_isPlain hplain] at hq
  · intro h s
    rw [hr, hp]
    rcases hloose : isLoosePort port with _ | _
    · constructor
      · rintro ⟨p, hport, a, ha, hs⟩
        obtain ⟨p', hport', hs'⟩ := (endpointPort_agree hloose a).1 ⟨p, hport, hs⟩
        exact ⟨p', hport', a, ha, hs'⟩
      · rintro ⟨p, hport, a, ha, hs⟩
        obtain ⟨p', hport', hs'⟩ := (endpointPort_agree hloose a).2 ⟨p, hport, hs⟩
        exact ⟨p', hport', a, ha, hs'⟩
    · -- no address that may be dialed: neither accepts
      have hnone : ∀ a, ¬ Dialable answer host a := by simpa [hloose] using h
      simp [hnone]

/-- Every endpoint, and every DNS that gives both adapters the same IPv4 address or fails for both:
they return the same texts unless the host's address may be dialed and the endpoint is a loose
one. -/
theorem validate_agree_iff (hrust : rustYields rust (hostPart e) answer)
    (hphp : phpYields php (hostPart e) answer) :
    Agree rust php e ↔ ¬ (isLoose e = true ∧ ∃ a, Dialable answer (hostPart e) a) := by
  rcases parts_cases e with ⟨he, hn, hsplit⟩ | ⟨host, port, hhost, hn, hsplit⟩ | ⟨hn, hsplit⟩
  · have hpart : hostPart e = e := by simp [hostPart, hn]
    rw [hpart] at hrust hphp ⊢
    have hloose : isLoose e = false := by rw [isLoose, hsplit]
    have hagree : Agree rust php e := by
      intro s
      rw [rust_ok_iff hn (by simp) he hrust, php_ok_iff hsplit (by simp) he hphp]
      simp [ProtocolProxy.endpointPort, endpointPort, ProtocolProxy.addressText, addressText,
        IpAddr.text]
    simp [hagree, hloose]
  · have hpart : hostPart e = host := by simp [hostPart, hn]
    rw [hpart] at hrust hphp ⊢
    rw [agree_of_pair hhost hrust hphp hn hsplit, isLoose, hsplit]
  · have hloose : isLoose e = false := by
      unfold isLoose
      split
      · rename_i hpair
        simp [hpair] at hsplit
      · rfl
    have hagree : Agree rust php e := by
      intro s
      simp [ProtocolProxy.validate, validate, hn, hsplit]
    simp [hagree, hloose]

/-- A lookup that gives both adapters the address `8.8.8.8`. -/
def rustEnv : ProtocolProxy.DnsEnv := ⟨fun _ => none, .answer [.v4 ⟨8, 8, 8, 8⟩]⟩

def phpEnv : DnsEnv := ⟨fun _ => none, 0, 60, .coroutine (some "8.8.8.8".toList)⟩

theorem rustYields_rustEnv (host : Text) : rustYields rustEnv host (some ⟨8, 8, 8, 8⟩) :=
  .inr ⟨rfl, [], rfl⟩

theorem phpYields_phpEnv (host : Text) : phpYields phpEnv host (some ⟨8, 8, 8, 8⟩) :=
  .inr ⟨rfl, .inl rfl⟩

/-- A port with a plus sign and a zero in front is the same for both. -/
theorem validate_agree_iff_plus :
    ProtocolProxy.validate rustEnv "db.example:+080".toList = .ok "8.8.8.8:80".toList
      ∧ (Agree rustEnv phpEnv "db.example:+080".toList
        ↔ ¬ (isLoose "db.example:+080".toList = true
          ∧ ∃ a, Dialable (some ⟨8, 8, 8, 8⟩) (hostPart "db.example:+080".toList) a)) :=
  ⟨rfl, validate_agree_iff (rustYields_rustEnv _) (phpYields_phpEnv _)⟩

/-- A colon with nothing after it: Rust takes the host alone, PHP refuses the port 0. -/
theorem trailing_colon_accepted :
    ¬ ∀ (rust : ProtocolProxy.DnsEnv) (php : DnsEnv) (e : Text) (answer : Option Ipv4Addr),
      rustYields rust (hostPart e) answer → phpYields php (hostPart e) answer →
        Agree rust php e := by
  intro h
  have hphp := (h rustEnv phpEnv "8.8.8.8:".toList _ (rustYields_rustEnv _) (phpYields_phpEnv _)
    "8.8.8.8".toList).1 rfl
  revert hphp
  decide

end PhpEndpoint

end ProtocolProxy
