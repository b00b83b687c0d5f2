import ProtocolProxy.PhpHttp

/-!
# Pooled clients and the requests before

The headers of an outbound request are replaced every time, so they do not depend on what the client
sent before (`outbound_headers`).  The cookies are replaced only by a request that has some: without
any, the request is sent with those of the client that is popped (`outbound_cookies`).
-/

namespace ProtocolProxy

namespace PhpHttp

open Machine

variable {intval : Text → ℤ} {poolSize : ℕ} {s : State} {request : Request} {endpoint : Text}

theorem outbound_headers : (s.outbound intval request endpoint).headers
    = outboundHeaders request (parseEndpoint intval endpoint 80).1
      (parseEndpoint intval endpoint 80).2 := by
  unfold State.outbound HttpClient.prepare
  simp only
  split_ifs <;> rfl

theorem outbound_cookies_of_ne (h : request.cookie ≠ []) :
    (s.outbound intval request endpoint).cookies = request.cookie := by
  unfold State.outbound HttpClient.prepare
  simp only [if_pos h]
  rfl

/-- The key of an endpoint's pool. -/
def poolKeyOf (intval : Text → ℤ) (endpoint : Text) : Text :=
  hostAndPort (parseEndpoint intval endpoint 80).1 (parseEndpoint intval endpoint 80).2

theorem outbound_cookies (h : request.cookie = []) :
    (s.outbound intval request endpoint).cookies
      = ((s.pools (poolKeyOf intval endpoint)).head?.map HttpClient.cookies).getD [] := by
  unfold State.outbound HttpClient.prepare State.pop poolKeyOf
  simp only [h, ne_eq, not_true_eq_false, if_false]
  split
  · next hpool =>
    rw [hpool]
    rfl
  · next client rest hpool =>
    rw [hpool]
    rfl

/-- What another client's request leaves in an empty pool. -/
theorem exists_pooled (intval : Text → ℤ) (poolSize : ℕ) (endpoint : Text) (other : Request)
    (cookies : Fields) : ∃ s client, run (step intval poolSize) new
        [.forward other endpoint, .respond 0 cookies true] = some s
      ∧ s.pools (poolKeyOf intval endpoint) = [client]
      ∧ client = ((new.outbound intval other endpoint).addCookies cookies) := by
  have hcapacity : 0 < capacity poolSize := Nat.lt_of_lt_of_le Nat.one_pos (le_max_left _ _)
  set key := poolKeyOf intval endpoint with hkey
  set out := new.outbound intval other endpoint with hout
  have hforward : step intval poolSize new (.forward other endpoint)
      = some ⟨Function.update new.pools key [], [.sent key out]⟩ := rfl
  have hrespond : step intval poolSize ⟨Function.update new.pools key [], [.sent key out]⟩
      (.respond 0 cookies true)
      = some ⟨Function.update (Function.update new.pools key []) key [out.addCookies cookies],
        [.over]⟩ := by
    simp [step, hcapacity]
  refine ⟨_, _, run_cons.2 ⟨_, hforward, run_cons.2 ⟨_, hrespond, rfl⟩⟩, ?_, rfl⟩
  exact Function.update_self _ _ _

/-- A request leaves with the same headers and cookies whatever was sent before, exactly when its
parsed cookies are not empty. -/
theorem unleaked_iff (intval : Text → ℤ) (poolSize : ℕ) (request : Request) (endpoint : Text) :
    Unleaked intval poolSize request endpoint ↔ request.cookie ≠ [] := by
  constructor
  · intro h hnil
    let other : Request := ⟨[], [("a".toList, "b".toList)]⟩
    obtain ⟨s, client, hrun, hpool, hclient⟩ := exists_pooled intval poolSize endpoint other []
    obtain ⟨-, hcookies⟩ := h [] _ new s rfl hrun
    rw [outbound_cookies hnil, outbound_cookies hnil, hpool, hclient] at hcookies
    have hother : (new.outbound intval other endpoint).cookies = other.cookie :=
      outbound_cookies_of_ne (by simp [other])
    simp only [HttpClient.addCookies, List.foldl_nil, List.head?_cons, Option.map_some,
      Option.getD_some, hother] at hcookies
    exact absurd hcookies (by simp [new, other])
  · intro h as as' s s' _ _
    refine ⟨?_, ?_⟩
    · rw [outbound_headers, outbound_headers]
    · rw [outbound_cookies_of_ne h, outbound_cookies_of_ne h]

/-- One user's cookie, and one that the backend set for that user, are sent with another user's
request that has none. -/
theorem cookies_leak : ∃ s, run (step (fun _ => 0) 8) new
      [.forward ⟨[("host".toList, "h".toList)], [("session".toList, "one".toList)]⟩ "b".toList,
        .respond 0 [("token".toList, "t".toList)] true] = some s
    ∧ (s.outbound (fun _ => 0) ⟨[("host".toList, "h".toList)], []⟩ "b".toList).cookies
      = [("session".toList, "one".toList), ("token".toList, "t".toList)]
    ∧ (new.outbound (fun _ => 0) ⟨[("host".toList, "h".toList)], []⟩ "b".toList).cookies = [] := by
  refine ⟨_, rfl, ?_, rfl⟩
  decide +kernel

end PhpHttp

end ProtocolProxy
