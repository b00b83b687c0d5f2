import ProtocolProxy.Handler

/-!
# The framing of a forwarded request

`forward_request` copies the headers by one rule and the body by another.  A `Content-Length` is
always copied (`outboundHeaders_eq`), the body of a GET or HEAD never is, so the two part for a GET
or HEAD that has both (`framed_outbound_iff`).
-/

namespace ProtocolProxy

namespace Http

variable {lib : Library} {config : Config} {env : Env} {request : Request} {endpoint : Text}
  {out : Outbound} {headers : Headers}

/-- The headers that are copied. -/
def isCopied (name : Text) : Bool := name ≠ "host".toList ∧ name ≠ "connection".toList

theorem isCopied_iff (name : Text) :
    isCopied name = true ↔ ¬ (name = "host".toList ∨ name = "connection".toList) := by
  unfold isCopied
  rw [decide_eq_true_iff, not_or]

theorem append_eq_ok {builder : Builder} {name : Text} {value : Bytes}
    (h : builder.append lib name value = .ok headers) :
    ∃ before, builder = .ok before ∧ headers = before ++ [(name, value)] := by
  unfold Builder.append at h
  split at h
  · cases h
  · split_ifs at h
    cases h
    exact ⟨_, rfl, rfl⟩

theorem header_eq_ok {builder : Builder} {name value : Text}
    (h : builder.header lib name value = .ok headers) :
    ∃ before name' value', builder = .ok before ∧ headerName name = some name'
      ∧ headerValue value = some value' ∧ headers = before ++ [(name', value')] := by
  unfold Builder.header at h
  split at h
  · cases h
  · cases h
  · cases h
  · next before name' value' hname hvalue =>
    obtain ⟨before', hbefore, rfl⟩ := append_eq_ok h
    cases hbefore
    exact ⟨_, _, _, rfl, hname, hvalue, rfl⟩

theorem foldl_append_eq_ok {start : Builder} :
    ∀ {copied : Headers}, copied.foldl (fun builder (name, value) =>
        if name = "host".toList ∨ name = "connection".toList then builder
        else builder.append lib name value) start = .ok headers →
      ∃ before, start = .ok before ∧ headers = before ++ copied.filter fun p => isCopied p.1 := by
  intro copied
  induction copied generalizing start with
  | nil =>
    intro h
    exact ⟨headers, h, by simp⟩
  | cons p copied ih =>
    obtain ⟨name, value⟩ := p
    intro h
    rw [List.foldl_cons] at h
    obtain ⟨before, hstart, rfl⟩ := ih h
    simp only at hstart
    split_ifs at hstart with hname
    · refine ⟨before, hstart, ?_⟩
      have hleft : ¬ isCopied (name, value).1 = true := fun h => (isCopied_iff name).1 h hname
      rw [List.filter_cons, if_neg hleft]
    · obtain ⟨before', rfl, rfl⟩ := append_eq_ok hstart
      refine ⟨before', rfl, ?_⟩
      have hkept : isCopied (name, value).1 = true := (isCopied_iff name).2 hname
      rw [List.filter_cons, if_pos hkept, List.append_assoc, List.singleton_append]

/-- The headers of the forwarded request. -/
theorem outboundHeaders_eq (h : outboundHeaders lib endpoint request = .ok headers) :
    ∃ value, headers
      = (request.headers.filter fun p => isCopied p.1) ++ [("host".toList, value)] := by
  unfold outboundHeaders at h
  obtain ⟨copied, name, value, hcopied, hname, -, rfl⟩ := header_eq_ok h
  obtain ⟨before, hstart, rfl⟩ := foldl_append_eq_ok hcopied
  have hnil : before = [] := by
    split at hstart <;> cases hstart
    rfl
  have hhost : headerName "host".toList = some "host".toList := rfl
  rw [hhost] at hname
  cases hname
  exact ⟨value, by rw [hnil, List.nil_append]⟩

theorem contentLength_mem_iff (h : outboundHeaders lib endpoint request = .ok headers)
    (value : Bytes) :
    (contentLength, value) ∈ headers ↔ (contentLength, value) ∈ request.headers := by
  obtain ⟨host, rfl⟩ := outboundHeaders_eq h
  have hcopied : isCopied contentLength = true := by decide
  have hne : contentLength ≠ "host".toList := by decide
  rw [List.mem_append, List.mem_filter, List.mem_singleton, Prod.mk.injEq]
  constructor
  · rintro (⟨hmem, -⟩ | ⟨hhost, -⟩)
    · exact hmem
    · exact absurd hhost hne
  · exact fun hmem => Or.inl ⟨hmem, hcopied⟩

theorem outbound_eq_ok (h : outbound lib config env request endpoint = .ok out) :
    bodyBytes config env request = .ok out.body
      ∧ outboundHeaders lib endpoint request = .ok out.headers := by
  unfold outbound at h
  obtain ⟨body, hbody, h⟩ := bind_eq_ok.1 h
  split at h
  · next headers hheaders =>
    cases h
    exact ⟨hbody, hheaders⟩
  · cases h

/-- For every request whose body is as long as its `Content-Length` headers say, and everything that
can be passed to the pooled client for it: its `Content-Length` headers give the length of its body,
if and only if the request is not a GET or HEAD with a `Content-Length` and a body. -/
theorem framed_outbound_iff (lib : Library) (config : Config) (env : Env) (request : Request)
    (endpoint : Text) (out : Outbound) (hframed : Framed request.headers request.body)
    (hout : outbound lib config env request endpoint = .ok out) :
    Framed out.headers out.body ↔ ¬ ((request.method = .get ∨ request.method = .head)
      ∧ request.body ≠ [] ∧ ∃ value, (contentLength, value) ∈ request.headers) := by
  obtain ⟨hbody, hheaders⟩ := outbound_eq_ok hout
  have hmem := contentLength_mem_iff hheaders
  unfold bodyBytes at hbody
  split_ifs at hbody with hmethod
  · -- nothing is sent after the headers
    have hnil : out.body = [] := (Except.ok.inj hbody).symm
    constructor
    · rintro hout' ⟨-, hne, value, hvalue⟩
      have hzero := hout' value ((hmem value).2 hvalue)
      rw [hframed value hvalue, hnil] at hzero
      exact hne (List.length_eq_zero_iff.1 (Option.some.inj hzero))
    · intro hsafe value hvalue
      have hvalue := (hmem value).1 hvalue
      have hempty : request.body = [] := by
        by_contra hne
        exact hsafe ⟨hmethod, hne, value, hvalue⟩
      rw [hframed value hvalue, hempty, hnil]
  · have hsame : out.body = request.body := by
      split at hbody
      · exact (Except.ok.inj hbody).symm
      · cases hbody
      · cases hbody
    refine ⟨fun _ h => hmethod h.1, fun _ value hvalue => ?_⟩
    rw [hframed value ((hmem value).1 hvalue), hsame]

def withBody (method : Method) : Request :=
  ⟨method, some ['/'], [("host".toList, [97]), (contentLength, [53])], [71, 69, 84, 32, 47]⟩

theorem framed_withBody (method : Method) :
    Framed (withBody method).headers (withBody method).body := by
  intro value hvalue
  have hne : contentLength ≠ "host".toList := by decide
  have hfive : value = [53] := by
    simpa only [withBody, List.mem_cons, Prod.mk.injEq, hne, false_and, true_and, false_or,
      List.not_mem_nil, or_false] using hvalue
  rw [hfive]
  rfl

/-- A POST keeps its body. -/
theorem framed_outbound_iff_post :
    ∃ out, outbound plainLibrary plainConfig plainEnv (withBody (.other "POST".toList)) ['b']
        = .ok out
      ∧ out.body = [71, 69, 84, 32, 47] ∧ Framed out.headers out.body := by
  have hout : ∃ out, outbound plainLibrary plainConfig plainEnv (withBody (.other "POST".toList))
      ['b'] = .ok out ∧ out.body = [71, 69, 84, 32, 47] := ⟨_, rfl, rfl⟩
  obtain ⟨out, hout, hbody⟩ := hout
  refine ⟨out, hout, hbody, (framed_outbound_iff _ _ _ _ _ out (framed_withBody _) hout).2 ?_⟩
  rintro ⟨hmethod, -⟩
  rcases hmethod with hmethod | hmethod <;> cases hmethod

/-- A GET with a body of five bytes is passed on with its `Content-Length` and without the body. -/
theorem get_loses_body :
    Framed (withBody .get).headers (withBody .get).body
      ∧ ∃ out, outbound plainLibrary plainConfig plainEnv (withBody .get) ['b'] = .ok out
        ∧ (contentLength, [53]) ∈ out.headers ∧ out.body = [] ∧ ¬ Framed out.headers out.body := by
  have hmem : (contentLength, ([53] : Bytes)) ∈ [(contentLength, ([53] : Bytes)),
      ("host".toList, asBytes ['b'])] := List.mem_cons_self
  refine ⟨framed_withBody .get, _, rfl, hmem, rfl, fun h => ?_⟩
  have hfive := h [53] hmem
  cases hfive

end Http

end ProtocolProxy
