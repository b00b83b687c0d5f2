import ProtocolProxy.PhpDial
import ProtocolProxy.Proofs.PhpEndpoint
import ProtocolProxy.Proofs.PhpRouter

/-!
# The PHP servers dial no blocked address

What `validate` returns is the text of an address that is not blocked, with or without a port
(`checked_of_validate`).  Such a text is shorter than the table's column, so a row has it whole, and
`parseEndpoint` reads the same address and port back from it (`Checked.dials`).  It does not matter
then whose row a call finds.
-/

namespace ProtocolProxy

namespace Php

open Machine Net Digits PhpEndpoint

variable {A : Adapter} {s s' : State} {e endpoint : Text}

/-! ## Validated endpoints -/

/-- An address that is not blocked, with or without a port. -/
def Checked (endpoint : Text) : Prop :=
  ∃ (a : Ipv4Addr) (port : Option ℕ), isBlockedIpv4 a = false
    ∧ (∀ p ∈ port, 1 ≤ p ∧ p ≤ 65535) ∧ endpoint = PhpEndpoint.addressText a.text (port.map (↑))

theorem checked_of_validate {validate : Text → Except ResolverError Text} (h : Validates validate)
    (hok : validate e = .ok endpoint) : Checked endpoint := by
  obtain ⟨env, heq, answer, hyields⟩ := h e
  rw [heq] at hok
  rcases parts_cases e with ⟨he, hn, hsplit⟩ | ⟨host, port, hhost, hn, hsplit⟩ | ⟨-, hsplit⟩
  · have hpart : hostPart e = e := by simp [hostPart, hn]
    rw [hpart] at hyields
    obtain ⟨p, hp, a, ha, rfl⟩ := (php_ok_iff hsplit (by simp) he hyields).1 hok
    cases hp
    exact ⟨a, none, ha.2, by simp, rfl⟩
  · have hpart : hostPart e = host := by simp [hostPart, hn]
    rw [hpart] at hyields
    obtain ⟨p, hp, a, ha, rfl⟩ := (php_ok_iff hsplit (by simp) hhost hyields).1 hok
    obtain ⟨hrange, rfl⟩ := php_endpointPort_ok.1 hp
    obtain ⟨n, hn⟩ := Int.eq_ofNat_of_zero_le (show 0 ≤ Numeric.intCast port by omega)
    rw [hn] at hrange ⊢
    exact ⟨a, some n, ha.2, by simpa using by omega, rfl⟩
  · simp [PhpEndpoint.validate, hsplit] at hok

theorem toList_toString (n : ℕ) : (toString (n : ℤ)).toList = Nat.toDigits 10 n := by
  change (String.ofList (Nat.toDigits 10 n)).toList = _
  rw [String.toList_ofList]

theorem length_octetText (o : UInt8) : (octetText o).length ≤ 3 := by
  refine (Nat.length_toDigits_le_iff (by omega) (by omega)).2 ?_
  have := o.toNat_lt
  omega

theorem length_text (a : Ipv4Addr) : a.text.length ≤ 15 := by
  have ha := length_octetText a.a
  have hb := length_octetText a.b
  have hc := length_octetText a.c
  have hd := length_octetText a.d
  simp only [Ipv4Addr.text, List.length_append, List.length_cons]
  omega

/-- The table keeps a validated endpoint whole. -/
theorem Checked.take (h : Checked endpoint) : endpoint.take endpointSize = endpoint := by
  obtain ⟨a, port, -, hport, rfl⟩ := h
  have ha := length_text a
  refine List.take_of_length_le ?_
  rcases port with _ | p
  · change a.text.length ≤ endpointSize
    unfold endpointSize
    omega
  · have hdigits : (Nat.toDigits 10 p).length ≤ 5 :=
      (Nat.length_toDigits_le_iff (by omega) (by omega)).2 (by have := hport p rfl; omega)
    change (a.text ++ ':' :: (toString (p : ℤ)).toList).length ≤ endpointSize
    rw [toList_toString, List.length_append, List.length_cons]
    unfold endpointSize
    omega

theorem Checked.dials (h : Checked endpoint) (defaultPort : ℤ) : Dials endpoint defaultPort := by
  obtain ⟨a, port, hblocked, hport, rfl⟩ := h
  have hcolon := colon_notMem_v4_text a
  rcases port with _ | p
  · refine ⟨a, defaultPort, ?_, hblocked, Or.inl rfl⟩
    have hsplit : splitOnce ':' a.text = none := splitOnce_eq_none.2 hcolon
    change PhpHttp.parseEndpoint _ a.text _ = _
    simp only [PhpHttp.parseEndpoint, hsplit]
  · have hp := hport p rfl
    refine ⟨a, p, ?_, hblocked, Or.inr (by omega)⟩
    have hsplit : splitOnce ':' (PhpEndpoint.addressText a.text (some (p : ℤ)))
        = some (a.text, Nat.toDigits 10 p) := by
      refine splitOnce_eq_some.2 ⟨?_, hcolon⟩
      rw [← toList_toString]
      rfl
    change PhpHttp.parseEndpoint _ (PhpEndpoint.addressText a.text (some (p : ℤ))) _ = _
    simp only [PhpHttp.parseEndpoint, hsplit]
    rw [if_pos Nat.toDigits_ne_nil, Numeric.intCast_toDigits (by omega)]

/-! ## Every run -/

/-- What is kept and what was handed out has been validated, and validation is on. -/
structure AllChecked (s : State) : Prop where
  validating : s.skipValidation = false
  table : ∀ data row, s.table.get data = some row → Checked row.endpoint
  results : ∀ r, .ok r ∈ s.results → Checked r.endpoint

theorem allChecked_new : AllChecked new where
  validating := rfl
  table := fun data row h => by simp [new, Table.get] at h
  results := by simp [new]

theorem checked_of_produce {w : World} {data : Text} {result : ResolverResult}
    (hvalidating : s.skipValidation = false) (hw : Validates w.validate)
    (h : produce A s w data = .ok (result, endpoint)) : Checked endpoint := by
  simp only [produce, hvalidating, Bool.false_eq_true, if_false] at h
  rcases hr : Php.resolve A s w with e | answer <;> rw [hr] at h
  · cases h
  · simp only at h
    split_ifs at h
    rcases hv : w.validate answer.endpoint with e | x <;> rw [hv] at h <;> cases h
    exact checked_of_validate hw hv

theorem AllChecked.finish {w : World} {p : Pending} (hs : AllChecked s)
    (hw : Validates w.validate) : AllChecked (s.finish A w p) := by
  unfold State.finish
  rcases hp : produce A s w p.data with e | ⟨result, endpoint⟩
  · refine ⟨hs.validating, hs.table, fun r hr => ?_⟩
    simpa using hs.results r (by simpa using hr)
  · have hchecked : Checked endpoint := checked_of_produce hs.validating hw hp
    refine ⟨hs.validating, fun data row hrow => ?_, fun r hr => ?_⟩
    · simp only at hrow
      split_ifs at hrow
      · rw [get_set] at hrow
        split_ifs at hrow
        · cases hrow
          simpa only [hchecked.take] using hchecked
        · exact hs.table data row hrow
      · exact hs.table data row hrow
    · rcases List.mem_append.1 hr with hr | hr
      · exact hs.results r hr
      · cases List.mem_singleton.1 hr
        exact hchecked

theorem step_allChecked {a : Action} (hs : AllChecked s) (ha : ValidatesAll s a)
    (h : step A s a = some s') : AllChecked s' := by
  cases a with
  | setSkipValidation skip =>
    cases h
    exact ⟨ha, hs.table, hs.results⟩
  | setCacheTTL | onResolve =>
    cases h
    exact ⟨hs.validating, hs.table, hs.results⟩
  | route data now =>
    simp only [step] at h
    split at h
    next row hrow =>
      cases h
      refine ⟨hs.validating, hs.table, fun r hr => ?_⟩
      rcases List.mem_append.1 hr with hr | hr
      · exact hs.results r hr
      · cases List.mem_singleton.1 hr
        exact hs.table data row (lookup_eq_some hrow)
    next =>
      cases h
      exact ⟨hs.validating, hs.table, hs.results⟩
  | finish i w =>
    simp only [step, Option.map_eq_some_iff] at h
    obtain ⟨p, -, rfl⟩ := h
    have hrest : AllChecked { s with pending := s.pending.eraseIdx i } :=
      ⟨hs.validating, hs.table, hs.results⟩
    exact hrest.finish ha

/-- Where validation stays on, every endpoint a call of `route` returns, from the table or not, is
dialed as an IPv4 address that is not blocked. -/
theorem routes_dialable (A : Adapter) {as : List Action} {s : State}
    (hrun : run (step A) new as = some s) (hall : EachStep (step A) ValidatesAll new as)
    (defaultPort : ℤ) : ∀ r, .ok r ∈ s.results → Dials r.endpoint defaultPort := by
  have hs : AllChecked s :=
    run_inv_of_each (fun _ _ _ hs ha h => step_allChecked hs ha h) allChecked_new hall hrun
  exact fun r hr => (hs.results r hr).dials defaultPort

/-- Two calls on data that differ after 63 bytes: the second is answered from the first one's
row. -/
def sharedRow : List Action :=
  [.setCacheTTL 60, .route (List.replicate 63 'a' ++ ['b']) 0,
    .finish 0 ⟨.ok .other, .ok ⟨"db:5432".toList, []⟩, PhpEndpoint.validate phpEnv, true⟩,
    .route (List.replicate 63 'a' ++ ['c']) 1]

theorem routes_dialable_sharedRow : ∃ s : State, run (step ⟨.tcp, true⟩) new sharedRow = some s
    ∧ s.results.length = 2 ∧ ∀ r, .ok r ∈ s.results → Dials r.endpoint 3306 := by
  have hrun : ∃ s : State, run (step ⟨.tcp, true⟩) new sharedRow = some s
      ∧ s.results.length = 2 := ⟨_, rfl, rfl⟩
  obtain ⟨s, hrun, hlength⟩ := hrun
  have hw : Validates (PhpEndpoint.validate phpEnv) :=
    fun e => ⟨phpEnv, rfl, _, phpYields_phpEnv (hostPart e)⟩
  refine ⟨s, hrun, hlength, routes_dialable _ hrun ?_ 3306⟩
  exact ⟨trivial, fun _ _ => ⟨trivial, fun _ _ => ⟨hw, fun _ _ => ⟨trivial, fun _ _ => trivial⟩⟩⟩⟩

end Php

end ProtocolProxy
