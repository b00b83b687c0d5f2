import ProtocolProxy.Proofs.Head

/-!
# When the handler panics

The offsets into the header block come from the search for its end and stay within what has been
read (`readRaw_eq`), and the responses of the handler itself can be built.  A `Content-Length` of
the backend is handed to `BytesMut::with_capacity` as it is, and `pool_size` to `VecDeque`: these
two can ask for too much (`returns_handle_iff`).
-/

namespace ProtocolProxy

namespace Http

open Digits Search Trim

variable {lib : Library} {config : Config} {env : Env} {request : Request} {endpoint : Text}
  {reads left : List Read} {buffer : Bytes} {header : Text}

theorem returns_ok {α : Type} (a : α) : Returns (.ok a : Partial α) := ⟨a, rfl⟩

theorem not_returns_error {α : Type} (panic : Panic) : ¬ Returns (.error panic : Partial α) := by
  rintro ⟨a, h⟩
  simp at h

theorem returns_bind_iff {α β : Type} {x : Partial α} {f : α → Partial β} :
    Returns (x >>= f) ↔ ∃ a, x = .ok a ∧ Returns (f a) := by
  unfold Returns
  simp only [bind_eq_ok]
  constructor
  · rintro ⟨b, a, hx, hb⟩
    exact ⟨a, hx, b, hb⟩
  · rintro ⟨a, hx, b, hb⟩
    exact ⟨b, a, hx, hb⟩

/-! ## The raw way -/

theorem returns_readBody (total : ℕ) (body : Bytes) (reads : List Read) :
    Returns (readBody total body reads) := by
  rcases Nat.lt_or_ge (body.length + (pieces reads).flatten.length) total with hlt | hle
  · obtain ⟨e, he⟩ := readBody_eq_error hlt
    exact ⟨_, he⟩
  · exact ⟨_, readBody_eq hle⟩

theorem returns_rawReply_iff :
    Returns (rawReply lib config header buffer left)
      ↔ ¬ (isChunked header = false ∧ ∃ n, lastLength header = some n ∧ isizeMax < n) := by
  by_cases hno : isChunked header = true ∨ lastLength header = none
  · rw [rawReply_of_no_length hno]
    refine ⟨?_, fun _ => returns_ok _⟩
    rintro - ⟨hchunked, n, hlast, -⟩
    rcases hno with h | h
    · simp [hchunked] at h
    · simp [hlast] at h
  · obtain ⟨hchunked, n, hlast⟩ := length_of_not hno
    rw [rawReply_of_length hchunked hlast]
    split_ifs with hsize
    · obtain ⟨body, hbody⟩ := returns_readBody n buffer left
      rw [hbody]
      refine ⟨?_, fun _ => returns_ok _⟩
      rintro - ⟨-, m, hm, hlarge⟩
      rw [hlast] at hm
      cases hm
      omega
    · refine ⟨fun h => absurd h (not_returns_error _), fun h => ?_⟩
      exact absurd ⟨hchunked, n, hlast, Nat.not_le.1 hsize⟩ h

theorem returns_readRaw_iff :
    Returns (readRaw lib config reads) ↔ ¬ Oversized (pieces reads).flatten := by
  rcases hfirst : firstAt crlfCrlf (pieces reads).flatten with _ | h
  · have hempty : firstAt crlfCrlf ([] ++ (pieces reads).flatten) = none := hfirst
    obtain ⟨e, he⟩ := readHeaders_eq_error hempty
    have hresult : readRaw lib config reads = .ok (.error e) := by
      unfold readRaw
      rw [he]
    rw [hresult]
    refine ⟨?_, fun _ => returns_ok _⟩
    rintro - ⟨h, header, n, hfirst', -⟩
    simp [hfirst] at hfirst'
  · obtain ⟨left, -, hread⟩ := @readRaw_eq lib config _ _ hfirst
    rw [hread]
    have hover : Oversized (pieces reads).flatten ↔ ∃ header,
        fromUtf8 ((pieces reads).flatten.take h) = some header
          ∧ isChunked header = false ∧ ∃ n, lastLength header = some n ∧ isizeMax < n := by
      constructor
      · rintro ⟨h', header, n, hfirst', hheader, hchunked, hlast, hlarge⟩
        rw [hfirst] at hfirst'
        cases hfirst'
        exact ⟨header, hheader, hchunked, n, hlast, hlarge⟩
      · rintro ⟨header, hheader, hchunked, n, hlast, hlarge⟩
        exact ⟨h, header, n, hfirst, hheader, hchunked, hlast, hlarge⟩
    rw [hover]
    rcases fromUtf8 ((pieces reads).flatten.take h) with _ | header
    · refine ⟨?_, fun _ => returns_ok _⟩
      rintro - ⟨header, hheader, -⟩
      simp at hheader
    · simp only [Option.some.injEq, exists_eq_left']
      exact returns_rawReply_iff

/-! ## The pooled way -/

theorem returns_clientResponse (response : BackendResponse) :
    Returns (clientResponse lib config response) := by
  unfold clientResponse
  split
  · exact returns_ok _
  · exact returns_ok _
  · obtain ⟨relayed, hrelayed⟩ := @relayHeaders_eq_ok lib [] response.headers
      (by simpa using response.few)
    rw [hrelayed]
    exact returns_ok _

theorem returns_getOrCreate_iff (hpool : config.poolSize ≤ 2 ^ 61 - 1) :
    Returns (getOrCreate lib config env (Pools.authority endpoint))
      ↔ ¬ PoolTooLarge lib config env endpoint := by
  unfold getOrCreate PoolTooLarge withCapacity
  rw [if_pos hpool]
  split_ifs with hpooled hsize
  · refine ⟨?_, fun _ => returns_ok _⟩
    rintro - ⟨hnew, -⟩
    simp [hpooled] at hnew
  · refine ⟨?_, fun _ => returns_ok _⟩
    rintro - ⟨-, hlarge⟩
    omega
  · refine ⟨fun h => absurd h (not_returns_error _), fun h => ?_⟩
    exact absurd ⟨by simpa using hpooled, Nat.not_le.1 hsize⟩ h

theorem returns_forwardRequest_iff (hpool : config.poolSize ≤ 2 ^ 61 - 1) :
    Returns (forwardRequest lib config env request endpoint)
      ↔ ¬ PoolTooLarge lib config env endpoint := by
  rw [← returns_getOrCreate_iff hpool]
  unfold forwardRequest
  simp only [returns_bind_iff]
  constructor
  · rintro ⟨u, hcreate, -⟩
    exact ⟨u, hcreate⟩
  · rintro ⟨u, hcreate⟩
    refine ⟨u, hcreate, ?_⟩
    split
    · exact returns_ok _
    · split
      · exact returns_ok _
      · rw [returns_bind_iff]
        refine ⟨_, rfl, ?_⟩
        split
        · exact returns_ok _
        · exact returns_ok _
        · exact returns_clientResponse _

/-! ## Both ways -/

theorem returns_forwardRawRequest_iff (hmethod : request.method = .get ∨ request.method = .head) :
    Returns (forwardRawRequest lib config env request endpoint)
      ↔ ¬ (Written env request endpoint ∧ Oversized (stream env)) := by
  by_cases hwritten : Written env request endpoint
  · rw [forwardRawRequest_eq hmethod hwritten, returns_readRaw_iff, stream]
    simp only [hwritten, true_and]
  · refine ⟨fun _ h => hwritten h.1, fun _ => ?_⟩
    unfold forwardRawRequest
    rw [if_neg (not_other_iff.2 hmethod)]
    simp only
    split
    · exact returns_ok _
    · exact returns_ok _
    · next hconnect =>
      split
      · exact returns_ok _
      · next hnodelay =>
        split_ifs with hwrite
        · exact returns_ok _
        · exact absurd ⟨hconnect, hnodelay, by simpa using hwrite⟩ hwritten

theorem returns_forward_iff (hpool : config.poolSize ≤ 2 ^ 61 - 1) :
    Returns (if config.rawBackend then forwardRawRequest lib config env request endpoint
        else forwardRequest lib config env request endpoint)
      ↔ ¬ (TakesRaw config request ∧ Written env request endpoint ∧ Oversized (stream env)
        ∨ ¬ TakesRaw config request ∧ PoolTooLarge lib config env endpoint) := by
  by_cases hraw : TakesRaw config request
  · rw [if_pos hraw.1, returns_forwardRawRequest_iff hraw.2]
    simp only [hraw, true_and, not_true, false_and, or_false]
  · have hpooled : (if config.rawBackend then forwardRawRequest lib config env request endpoint
        else forwardRequest lib config env request endpoint)
        = forwardRequest lib config env request endpoint := by
      split_ifs with hbackend
      · have hother : request.method ≠ .get ∧ request.method ≠ .head := by
          rw [← not_or]
          exact fun hmethod => hraw ⟨hbackend, hmethod⟩
        unfold forwardRawRequest
        rw [if_pos hother]
      · rfl
    rw [hpooled, returns_forwardRequest_iff hpool]
    simp only [hraw, false_and, not_false_eq_true, true_and, false_or]

/-! ## The handler -/

theorem serviceUnavailable_eq : serviceUnavailable lib
    = .ok ⟨503, [("content-type".toList, asBytes "application/json".toList)],
      asBytes unavailableBody⟩ := by
  have hfits : lib.fits ([] ++ [("content-type".toList, asBytes "application/json".toList)])
      = true := lib.fits_hundred _ (by decide)
  have hheaders : appendHeader lib [] "content-type".toList (asBytes "application/json".toList)
      = .ok ([] ++ [("content-type".toList, asBytes "application/json".toList)]) := by
    unfold appendHeader
    rw [if_pos hfits]
  unfold serviceUnavailable
  show (appendHeader lib [] _ _ >>= _) = _
  rw [hheaders]
  rfl

theorem returns_serviceUnavailable : Returns (serviceUnavailable lib) := ⟨_, serviceUnavailable_eq⟩

/-- Whatever the forwarding comes to is answered. -/
theorem returns_answer_iff {forward : Partial (Except ProxyError Response)} :
    Returns (do match ← forward with
      | .ok response => return response
      | .error _ => serviceUnavailable lib) ↔ Returns forward := by
  rw [returns_bind_iff]
  constructor
  · rintro ⟨result, hresult, -⟩
    exact ⟨result, hresult⟩
  · rintro ⟨result, hresult⟩
    refine ⟨result, hresult, ?_⟩
    rcases result with e | response
    · exact returns_serviceUnavailable
    · exact returns_ok _

theorem extractHost_eq (request : Request) :
    ∃ extracted, extractHost request = .ok extracted
      ∧ ∀ host, extracted = .ok host
        ↔ (request.headers.lookup "host".toList).bind toStr = some host ∧ host ≠ []
          ∧ isValidHostname host = true := by
  unfold extractHost
  rcases (request.headers.lookup "host".toList).bind toStr with _ | host
  · refine ⟨_, rfl, fun host => ⟨fun h => ?_, fun h => ?_⟩⟩
    · simp at h
    · simp at h
  · by_cases hnil : host = []
    · simp only [hnil, if_true]
      refine ⟨_, rfl, fun host' => ⟨fun h => ?_, ?_⟩⟩
      · simp at h
      · rintro ⟨h, hne, -⟩
        cases h
        exact absurd rfl hne
    · by_cases hvalid : isValidHostname host = true
      · simp only [hnil, hvalid, if_true, if_false]
        refine ⟨_, rfl, fun host' => ⟨fun h => ?_, ?_⟩⟩
        · cases h
          exact ⟨rfl, hnil, hvalid⟩
        · rintro ⟨h, -⟩
          cases h
          rfl
      · simp only [hnil, hvalid, if_false]
        refine ⟨_, rfl, fun host' => ⟨fun h => ?_, ?_⟩⟩
        · simp at h
        · rintro ⟨h, -, hvalid'⟩
          cases h
          exact absurd hvalid' hvalid

/-- The endpoint, or the response to a request without one. -/
theorem chooseEndpoint_eq (config : Config) (env : Env) (request : Request) :
    ∃ chosen, chooseEndpoint config env request = .ok chosen
      ∧ ∀ endpoint, chosen = .ok endpoint ↔ RoutesTo config env request endpoint := by
  unfold chooseEndpoint RoutesTo
  rcases config.fixedBackend with _ | fixed
  · obtain ⟨extracted, hextracted, hhost⟩ := extractHost_eq request
    rw [hextracted]
    rcases extracted with response | host
    · refine ⟨_, rfl, fun endpoint => ⟨fun h => (nomatch h), ?_⟩⟩
      rintro (h | ⟨-, host, result, hlookup, hne, hvalid, -⟩)
      · simp at h
      · have hnone := (hhost host).2 ⟨hlookup, hne, hvalid⟩
        simp at hnone
    · obtain ⟨hlookup, hne, hvalid⟩ := (hhost host).1 rfl
      simp only [bind, Except.bind]
      rcases hroute : env.route (asBytes host) with e | result
      · refine ⟨_, rfl, fun endpoint => ⟨fun h => (nomatch h), ?_⟩⟩
        rintro (h | ⟨-, host', result, hlookup', -, -, hroute', -⟩)
        · simp at h
        · rw [hlookup] at hlookup'
          cases hlookup'
          simp [hroute] at hroute'
      · refine ⟨_, rfl, fun endpoint => ⟨fun h => ?_, ?_⟩⟩
        · cases h
          exact .inr ⟨trivial, host, result, hlookup, hne, hvalid, hroute, rfl⟩
        · rintro (h | ⟨-, host', result', hlookup', -, -, hroute', rfl⟩)
          · simp at h
          · rw [hlookup] at hlookup'
            cases hlookup'
            rw [hroute] at hroute'
            cases hroute'
            rfl
  · refine ⟨_, rfl, fun endpoint => ?_⟩
    constructor
    · intro h
      cases h
      exact .inl rfl
    · rintro (h | ⟨h, -⟩) <;> cases h
      rfl

/-- Every configuration without a request handler and with a pool size that a semaphore has room
for, every request, every outcome of the resolver and whatever the backend sends: the handler
returns a response, if and only if it does not meet a raw backend that announces more than
`isize::MAX` bytes, and need not make a pool for more clients than can be allocated. -/
theorem returns_handle_iff (lib : Library) (config : Config) (env : Env) (request : Request)
    (hhandler : config.requestHandler = none) (hpool : config.poolSize ≤ 2 ^ 61 - 1) :
    Returns (handle lib config env request) ↔ ¬ (config.directResponse = none
      ∧ ∃ endpoint, RoutesTo config env request endpoint
        ∧ (TakesRaw config request ∧ Written env request endpoint ∧ Oversized (stream env)
          ∨ ¬ TakesRaw config request ∧ PoolTooLarge lib config env endpoint)) := by
  unfold handle
  rw [hhandler]
  rcases config.directResponse with _ | body
  · obtain ⟨chosen, hchosen, hroutes⟩ := chooseEndpoint_eq config env request
    simp only [returns_bind_iff, hchosen, Except.ok.injEq, exists_eq_left', true_and]
    rcases chosen with response | endpoint
    · refine ⟨?_, fun _ => returns_ok _⟩
      rintro - ⟨endpoint, hendpoint, -⟩
      have hnone := (hroutes endpoint).2 hendpoint
      simp at hnone
    · simp only [← hroutes, Except.ok.injEq, exists_eq_left']
      rw [← returns_forward_iff hpool]
      split_ifs
      · exact returns_answer_iff
      · exact returns_answer_iff
  · refine ⟨?_, fun _ => ⟨_, rfl⟩⟩
    rintro - ⟨h, -⟩
    simp at h

def rawConfig : Config := { plainConfig with fixedBackend := some ['b'], rawBackend := true }

theorem returns_handle_iff_cut : Returns (handle plainLibrary rawConfig cutEnv plainGet) := by
  refine (returns_handle_iff _ _ _ _ rfl (by decide)).2 ?_
  rintro ⟨-, endpoint, -, h⟩
  have hraw : TakesRaw rawConfig plainGet := ⟨rfl, .inl rfl⟩
  rcases h with ⟨-, -, h, header, n, hfirst, hheader, -, hlast, hlarge⟩ | ⟨hpooled, -⟩
  · obtain ⟨hblock, -, hvalues, -, hend, -⟩ := lengthBlock_facts
    have htwo : lastLength lengthBlock = some 2 := by
      unfold lastLength
      rw [hvalues]
      rfl
    rw [stream_cutEnv, hend] at hfirst
    cases hfirst
    rw [stream_cutEnv, List.append_assoc, List.take_left, hblock] at hheader
    cases hheader
    rw [htwo] at hlast
    cases hlast
    exact absurd hlarge (by decide)
  · exact hpooled hraw

def hugeBlock : Text := "HTTP/1.1 200 OK\r\nContent-Length: 9223372036854775808".toList

/-- A raw backend that announces a body of `isize::MAX + 1` bytes makes the handler panic. -/
theorem huge_length_panics :
    ∃ chunk : Chunk, chunk.val = asBytes hugeBlock ++ crlfCrlf
      ∧ handle plainLibrary rawConfig { plainEnv with reads := [.data chunk] } plainGet
        = .error .capacityOverflow :=
  ⟨⟨asBytes hugeBlock ++ crlfCrlf, by decide +kernel⟩, rfl, by decide +kernel⟩

end Http

end ProtocolProxy
