import ProtocolProxy.Endpoint
import ProtocolProxy.Proofs.IpText

/-!
# One lookup

`dns::resolve` and `dns::resolve_strict` take the same course: an empty host, a literal address, a
cached one, or what the resolver answers.  There is one lemma for each, and the two functions agree
on every one of them (`lookupsAgree`).
-/

namespace ProtocolProxy

open Net

variable {env : DnsEnv} {cache : Text → Option IpAddr} {result : LookupResult} {host : Text}
  {ip : IpAddr} {ips : List IpAddr}

/-! ## The choice of an address -/

theorem find?_isIpv4 : ips.find? IpAddr.isIpv4 = some ip
    ↔ ∃ pre post, ips = pre ++ ip :: post ∧ ip.isIpv4 = true ∧ ∀ x ∈ pre, x.isIpv4 = false := by
  rw [List.find?_eq_some_iff_append]
  constructor
  · rintro ⟨hip, pre, post, hips, hpre⟩
    exact ⟨pre, post, hips, hip, by simpa using hpre⟩
  · rintro ⟨pre, post, hips, hip, hpre⟩
    exact ⟨hip, pre, post, hips, by simpa using hpre⟩

theorem pickAddress_eq_some : pickAddress ips = some ip ↔ Preferred ips ip := by
  unfold pickAddress Preferred
  rw [← find?_isIpv4]
  rcases hf : ips.find? IpAddr.isIpv4 with _ | v4
  · have hall : ∀ x ∈ ips, x.isIpv4 = false := by
      intro x hx
      simpa using List.find?_eq_none.1 hf x hx
    simpa using fun _ => hall
  · have hv4 : ¬ ∀ x ∈ ips, x.isIpv4 = false := by
      intro hall
      have := hall v4 (List.mem_of_find?_eq_some hf)
      rw [List.find?_some hf] at this
      simp at this
    simp [hv4]

theorem pickAddress_eq_none : pickAddress ips = none ↔ ips = [] := by
  unfold pickAddress
  rw [Option.or_eq_none_iff, List.head?_eq_none_iff, and_iff_right_iff_imp]
  rintro rfl
  rfl

/-! ## The courses of a lookup -/

theorem resolve_empty : resolve env [] = ([], env.cache) := rfl

theorem resolve_literal (h : IpAddr.parse host = some ip) :
    resolve env host = (host, env.cache) := by
  simp [resolve, h]

theorem resolve_cached (hne : host ≠ []) (hparse : IpAddr.parse host = none)
    (hcache : env.cache host = some ip) : resolve env host = (ip.text, env.cache) := by
  simp [resolve, hne, hparse, hcache]

theorem resolve_answer (h : Asks env.cache host) (hlookup : env.lookup = .answer ips)
    (hip : Preferred ips ip) :
    resolve env host = (ip.text, Function.update env.cache host (some ip)) := by
  obtain ⟨hne, hparse, hcache⟩ := h
  simp [resolve, hne, hparse, hcache, hlookup, pickAddress_eq_some.2 hip]

theorem resolve_failed (h : Asks env.cache host)
    (hlookup : env.lookup = .noResolver ∨ env.lookup = .failed ∨ env.lookup = .answer []) :
    resolve env host = (host, env.cache) := by
  obtain ⟨hne, hparse, hcache⟩ := h
  rcases hlookup with hlookup | hlookup | hlookup <;>
    simp [resolve, hne, hparse, hcache, hlookup, pickAddress]

/-! ## The strict variant -/

theorem resolveStrict_literal (hne : host ≠ []) (h : IpAddr.parse host = some ip) :
    resolveStrict cache result host = (.ok ip, cache) := by
  simp [resolveStrict, hne, h]

theorem resolveStrict_cached (hne : host ≠ []) (hparse : IpAddr.parse host = none)
    (hcache : cache host = some ip) : resolveStrict cache result host = (.ok ip, cache) := by
  simp [resolveStrict, hne, hparse, hcache]

theorem resolveStrict_answer (h : Asks cache host) (hip : Preferred ips ip) :
    resolveStrict cache (.answer ips) host = (.ok ip, Function.update cache host (some ip)) := by
  obtain ⟨hne, hparse, hcache⟩ := h
  simp [resolveStrict, hne, hparse, hcache, pickAddress_eq_some.2 hip]

theorem resolveStrict_failed (h : Asks cache host)
    (hresult : ∀ ips, result = .answer ips → ips = []) :
    ∃ e, resolveStrict cache result host = (.error e, cache) := by
  obtain ⟨hne, hparse, hcache⟩ := h
  rcases result with message | _ | _ | ips
  · exact ⟨.resolverInit message, by simp [resolveStrict, hne, hparse, hcache]⟩
  · exact ⟨.timeout, by simp [resolveStrict, hne, hparse, hcache]⟩
  · exact ⟨.notResolvable host, by simp [resolveStrict, hne, hparse, hcache]⟩
  · rw [hresult ips rfl]
    exact ⟨.notResolvable host, by simp [resolveStrict, hne, hparse, hcache, pickAddress]⟩

/-! ## Agreement -/

/-- Where the cache is left alone, the two functions agree if they agree on the address. -/
theorem LookupsAgree.of_kept {text : Text} {outcome : Except DnsError IpAddr}
    (hresolve : resolve ⟨cache, result.lookup⟩ host = (text, cache))
    (hstrict : resolveStrict cache result host = (outcome, cache))
    (hkept : ∀ ips, Asks cache host → result = .answer ips → ips = [])
    (haddress : ∀ ip, IpAddr.parse text = some ip ↔ outcome = .ok ip)
    (hotherwise : IpAddr.parse text = none → text = host) : LookupsAgree cache result host := by
  constructor
  · simpa [hresolve, hstrict] using haddress
  · simpa [hresolve] using hotherwise
  · rw [hresolve, hstrict]
  · simp [hstrict]
  · intro ips hasks hresult hne
    exact absurd (hkept ips hasks hresult) hne
  · simp [hstrict]

theorem LookupsAgree.of_answer (h : Asks cache host) (hip : Preferred ips ip) :
    LookupsAgree cache (.answer ips) host := by
  have hresolve : resolve ⟨cache, (LookupResult.answer ips).lookup⟩ host = _ :=
    resolve_answer h rfl hip
  have hstrict := resolveStrict_answer h hip
  constructor
  · simp [hresolve, hstrict, IpAddr.parse_text]
  · simp [hresolve, IpAddr.parse_text]
  · rw [hresolve, hstrict]
  · intro other hother
    simp [hstrict, hother]
  · intro ips' _ heq _
    cases heq
    exact ⟨ip, hip, by simp [hstrict]⟩
  · intro hempty
    rw [← pickAddress_eq_some, hempty ips h rfl] at hip
    simp [pickAddress] at hip

/-- Every host, every cache and every outcome of a lookup: the two functions agree. -/
theorem lookupsAgree (cache : Text → Option IpAddr) (result : LookupResult) (host : Text) :
    LookupsAgree cache result host := by
  have hnil : IpAddr.parse [] = none := rfl
  rcases eq_or_ne host [] with rfl | hne
  · exact .of_kept resolve_empty rfl (fun _ h _ => absurd rfl h.1) (by simp [hnil]) (fun _ => rfl)
  rcases hparse : IpAddr.parse host with _ | ip
  · rcases hcache : cache host with _ | ip
    · have hasks : Asks cache host := ⟨hne, hparse, hcache⟩
      by_cases hempty : ∀ ips, result = .answer ips → ips = []
      · obtain ⟨e, hstrict⟩ := resolveStrict_failed hasks hempty
        have hlookup : result.lookup = .noResolver ∨ result.lookup = .failed
            ∨ result.lookup = .answer [] := by
          rcases result with _ | _ | _ | ips
          · exact .inl rfl
          · exact .inr (.inl rfl)
          · exact .inr (.inl rfl)
          · exact .inr (.inr (congrArg Lookup.answer (hempty ips rfl)))
        exact .of_kept (resolve_failed hasks hlookup) hstrict (fun ips _ => hempty ips)
          (by simp [hparse]) (fun _ => rfl)
      · push Not at hempty
        obtain ⟨ips, rfl, hips⟩ := hempty
        obtain ⟨ip, hip⟩ := Option.ne_none_iff_exists'.1 (mt pickAddress_eq_none.1 hips)
        exact .of_answer hasks (pickAddress_eq_some.1 hip)
    · exact .of_kept (resolve_cached hne hparse hcache) (resolveStrict_cached hne hparse hcache)
        (fun _ h _ => absurd h.2.2 (by simp [hcache])) (by simp [IpAddr.parse_text])
        (by simp [IpAddr.parse_text])
  · exact .of_kept (resolve_literal hparse) (resolveStrict_literal hne hparse)
      (fun _ h _ => absurd h.2.1 (by simp [hparse])) (by simp [hparse]) (fun _ => rfl)

end ProtocolProxy
