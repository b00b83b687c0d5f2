import ProtocolProxy.Proofs.HttpReplies
import ProtocolProxy.Proofs.PhpRaw

/-!
# The PHP forwarder makes the same of a reply as the Rust forwarder

The PHP forwarder reads the status with a pattern, the length with a cast and the names of the
headers in any case; of a well-formed reply it makes what the Rust forwarder makes of it
(`parseHead_text`).  It also keeps its connections, but a request reads its own reply and no other,
so every response it gives is the one that the Rust forwarder gives (`same_as_rust`).
-/

namespace ProtocolProxy

namespace PhpRaw

open Digits Machine Search Trim
open Http (FullReply contentLength isFraming isOws)
open Numeric (intCast isBlank isDigit)

/-! ## The status line -/

theorem isDigit_toDigits {n : ℕ} : ∀ c ∈ Nat.toDigits 10 n, isDigit c = true :=
  isSome_toDigit_of_mem (by omega) (by omega) n

theorem isBlank_eq_false {c : Char} (h : isDigit c = true) : isBlank c = false := by
  obtain ⟨d, hd⟩ := Option.isSome_iff_exists.1 h
  obtain ⟨hlt, rfl⟩ := eq_digitChar_of_toDigit hd
  interval_cases d <;> rfl

theorem matchStatus_statusLine (reply : Http.Reply) :
    matchStatus reply.statusLine = some (Nat.toDigits 10 reply.code) := by
  have hdigits := isDigit_toDigits (n := reply.code)
  have hne := Nat.toDigits_ne_nil (n := reply.code) (b := 10)
  have htake : (Nat.toDigits 10 reply.code ++ ' ' :: reply.reason).takeWhile isDigit
      = Nat.toDigits 10 reply.code := by
    rw [List.takeWhile_append_of_pos hdigits]
    simp [isDigit, toDigit]
  have hdrop : (Nat.toDigits 10 reply.code ++ ' ' :: reply.reason).dropWhile isBlank
      = Nat.toDigits 10 reply.code ++ ' ' :: reply.reason := by
    obtain ⟨d, ds, hds⟩ := List.exists_cons_of_ne_nil hne
    rw [hds] at hdigits ⊢
    rw [List.cons_append, List.dropWhile_cons_of_neg]
    rw [isBlank_eq_false (hdigits d List.mem_cons_self)]
    nofun
  -- up to the blanks after the version everything is given
  have hversion : matchStatus reply.statusLine
      = (some ((Nat.toDigits 10 reply.code ++ ' ' :: reply.reason).dropWhile isBlank)).bind fun s =>
        if s.takeWhile isDigit = [] then none else some (s.takeWhile isDigit) := rfl
  rw [hversion, hdrop, Option.bind_some, htake, if_neg hne]

/-! ## The headers -/

section Headers

variable (reply : FullReply)

theorem trimmed_value {p : Text × Text} (hp : p ∈ reply.headers) :
    trimmed isTrimmed p.2 = trimmed isOws p.2 :=
  trimmed_congr fun _ hc => (reply.value_blank hp hc).2

/-- A header as it is relayed. -/
def field (p : Text × Text) : Text × Text := (p.1, trimmed isOws p.2)

theorem ne_transferEncoding {p : Text × Text} (hp : p ∈ reply.headers) :
    p.1.map Char.toLower ≠ "transfer-encoding".toList := by
  intro hname
  have hmem : trim p.2 ∈ reply.toReply.values "transfer-encoding".toList :=
    List.mem_map_of_mem (List.mem_filter.2 ⟨hp, decide_eq_true hname⟩)
  rw [reply.not_encoded] at hmem
  cases hmem

theorem readLine_eq {p : Text × Text} (hp : p ∈ reply.headers) (head : Head) :
    readLine head (p.1 ++ ':' :: p.2)
      = ⟨head.statusCode,
        if isFraming (p.1.map Char.toLower) then head.headers else head.headers ++ [field p],
        if p.1.map Char.toLower = contentLength then some (intCast (trimmed isOws p.2))
          else head.contentLength, head.chunked⟩ := by
  have hcolon : ':' ∉ p.1 := fun h =>
    (Http.isToken_range ((reply.name_token p hp).2 _ h)).2.2 rfl
  have hsplit := splitOnce_eq_some.2 ⟨@rfl _ (p.1 ++ ':' :: p.2), hcolon⟩
  have hencoding := ne_transferEncoding reply hp
  have hlower : PhpHttp.strtolower p.1 = p.1.map Char.toLower := rfl
  have hname : "content-length".toList = contentLength := rfl
  unfold readLine
  rw [hsplit]
  simp only [hlower, trimmed_value reply hp, hencoding, false_and, if_false, hname, field]
  generalize p.1.map Char.toLower = lower
  have hskip : skipHeaders.contains lower = isFraming lower := rfl
  rw [hskip]
  split_ifs <;> rfl

theorem foldl_readLine : ∀ {headers : List (Text × Text)}, (∀ p ∈ headers, p ∈ reply.headers) →
    ∀ head : Head, (headers.map fun p => p.1 ++ ':' :: p.2).foldl readLine head
      = ⟨head.statusCode,
        head.headers ++ (headers.filter fun p => !isFraming (p.1.map Char.toLower)).map field,
        (headers.filter fun p => p.1.map Char.toLower = contentLength).foldl
          (fun _ p => some (intCast (trimmed isOws p.2))) head.contentLength, head.chunked⟩ := by
  intro headers hsub head
  induction headers generalizing head with
  | nil => simp
  | cons p headers ih =>
    obtain ⟨hp, hsub⟩ := List.forall_mem_cons.1 hsub
    rw [List.map_cons, List.foldl_cons, readLine_eq reply hp, ih hsub, List.filter_cons,
      List.filter_cons]
    rcases isFraming (p.1.map Char.toLower) with _ | _ <;>
      by_cases hlength : p.1.map Char.toLower = contentLength <;> simp [hlength]

/-- The one `Content-Length` is cast to the length of the body. -/
theorem foldl_contentLength (init : Option ℤ) :
    (reply.headers.filter fun p => p.1.map Char.toLower = contentLength).foldl
      (fun _ p => some (intCast (trimmed isOws p.2))) init = some (reply.body.length : ℤ) := by
  obtain ⟨text, hvalues, hne, hdigits, hvalue⟩ := reply.length
  obtain ⟨p, hfilter, htext⟩ := List.map_eq_singleton_iff.1 hvalues
  have hp : p ∈ reply.headers := List.mem_of_mem_filter (hfilter ▸ List.mem_singleton_self p)
  have hfits := reply.fits
  unfold Http.isizeMax at hfits
  rw [hfilter, List.foldl_cons, List.foldl_nil, ← reply.trim_value hp, htext,
    Numeric.intCast_of_isPlain (isPlain_digits hne hdigits), stripPlus_digits hdigits, hvalue]
  congr 1
  omega

/-- What the forwarder takes the header block to say. -/
theorem parseHead_text : parseHead reply.text
    = ⟨reply.code, (reply.headers.filter fun p => !isFraming (p.1.map Char.toLower)).map field,
      some (reply.body.length : ℤ), false⟩ := by
  have hvalid := reply.code_valid
  unfold parseHead
  rw [reply.splitCrlf_text]
  simp only [List.headD_cons, List.tail_cons, matchStatus_statusLine, Option.elim_some]
  rw [foldl_readLine reply fun _ hp => hp, foldl_contentLength,
    Numeric.intCast_toDigits (by omega), List.nil_append]

theorem splits_bytes : Splits reply.bytes (asBytes reply.text) reply.body :=
  ⟨rfl, reply.firstAt_bytes⟩

theorem length_parseHead :
    (parseHead (chars (asBytes reply.text))).length = some (reply.body.length : ℤ) := by
  rw [Http.chars_asBytes reply.text_ascii, parseHead_text]
  rfl

theorem sound_bytes : Sound reply.bytes := by
  refine ⟨_, _, splits_bytes reply, fun n hn => .inr ?_⟩
  rw [length_parseHead, Option.some.injEq] at hn
  exact hn.symm

/-- A response that relays the reply. -/
theorem eq_of_relays {config : Config} {response : Response}
    (h : Relays config reply.bytes response) :
    response = ⟨if config.rawBackendAssumeOk then 200 else reply.code,
      (reply.headers.filter fun p => !isFraming (p.1.map Char.toLower)).map field,
      reply.body⟩ := by
  obtain ⟨head, body, part, hsplits, rfl, -, hpart⟩ := h
  obtain ⟨rfl, rfl⟩ := hsplits.unique (splits_bytes reply)
  rw [hpart (by rw [length_parseHead]; rfl), Http.chars_asBytes reply.text_ascii, parseHead_text]
  rfl

/-! ## The headers that are sent -/

theorem assign_of_notMem {set : PhpHttp.Fields} {key value : Text} (h : key ∉ set.map Prod.fst) :
    PhpHttp.assign set key value = set ++ [(key, value)] := by
  induction set with
  | nil => rfl
  | cons p set ih =>
    rw [List.map_cons, List.mem_cons, not_or] at h
    rw [PhpHttp.assign, if_neg (Ne.symm h.1), ih h.2, List.cons_append]

/-- Headers with different names are all sent. -/
theorem foldl_assign : ∀ {headers : List (Text × Text)} {set : PhpHttp.Fields},
    (set.map Prod.fst ++ headers.map fun p => p.1.map Char.toLower).Nodup →
    headers.foldl (fun set p => PhpHttp.assign set (PhpHttp.strtolower p.1) p.2) set
      = set ++ headers.map fun p => (p.1.map Char.toLower, p.2) := by
  intro headers set hnodup
  induction headers generalizing set with
  | nil => simp
  | cons p headers ih =>
    have hnot : PhpHttp.strtolower p.1 ∉ set.map Prod.fst := by
      intro hmem
      exact (List.nodup_append.1 hnodup).2.2 _ hmem _ List.mem_cons_self rfl
    rw [List.foldl_cons, assign_of_notMem hnot, ih, List.map_cons, List.append_assoc,
      List.singleton_append]
    · rfl
    · rw [List.map_append, List.append_assoc]
      exact hnodup

theorem sameAs_relayed {config : Config} {rust : Http.Config} {response : Response}
    (hassume : rust.rawBackendAssumeOk = config.rawBackendAssumeOk)
    (hdistinct : (reply.headers.map fun p => p.1.map Char.toLower).Nodup)
    (h : Relays config reply.bytes response) : SameAs response (reply.relayed rust) := by
  obtain rfl := eq_of_relays reply h
  refine ⟨?_, ?_, rfl⟩
  · rw [FullReply.relayed, hassume]
    split_ifs <;> rfl
  · have hnodup : (([] : PhpHttp.Fields).map Prod.fst ++ ((reply.headers.filter fun p =>
        !isFraming (p.1.map Char.toLower)).map field).map fun p => p.1.map Char.toLower).Nodup := by
      rw [List.map_map]
      exact (List.filter_sublist.map _).nodup hdistinct
    unfold Response.headersSent FullReply.relayed FullReply.fields
    simp only
    rw [foldl_assign hnodup, List.nil_append, List.map_map, List.map_map, List.filter_map]
    rfl

end Headers

/-- However the requests are interleaved over the kept connections and however the replies are cut:
a GET that is answered with something other than 502 is answered as the Rust forwarder answers it,
which has the same reply on a connection of its own. -/
theorem same_as_rust (config : Config) (lib : Http.Library) (rust : Http.Config)
    (hassume : rust.rawBackendAssumeOk = config.rawBackendAssumeOk) (replies : ℕ → FullReply)
    (hdistinct : ∀ i, ((replies i).headers.map fun p => p.1.map Char.toLower).Nodup)
    {as : List Action} {s : State}
    (h : run (step config fun i => (replies i).bytes) new as = some s) {i : ℕ} {call : Call}
    {response : Response} (hi : s.calls[i]? = some call)
    (hresponse : call.response = some response) :
    (∃ headers, response = badGateway headers)
      ∨ ∃ rustResponse, SameAs response rustResponse
        ∧ ∀ env request endpoint, request.method = .get → Http.Written env request endpoint →
          Http.stream env = (replies i).bytes →
          Http.forwardRawRequest lib rust env request endpoint = .ok (.ok rustResponse) := by
  have hs : Inv config (fun i => (replies i).bytes) s :=
    run_inv (fun _ _ _ hs hstep => step_inv (fun i => sound_bytes (replies i)) hs hstep) inv_new h
  rcases hs.relays hi hresponse with hrelays | hbad
  · refine .inr ⟨_, sameAs_relayed (replies i) hassume (hdistinct i) hrelays, ?_⟩
    intro env request endpoint hmethod hwritten hstream
    exact (replies i).forwardRawRequest_eq_relayed hmethod hwritten hstream
  · exact .inl hbad

/-- Two requests, the second on the connection of the first. -/
theorem same_as_rust_keptAlive :
    ∃ s call, run (step ⟨8, false⟩ fun _ => Http.hiReply.bytes) new keptAlive = some s
      ∧ s.calls[1]? = some call ∧ call.response = some ⟨200, [], [104, 105]⟩
      ∧ ∃ rust, SameAs ⟨200, [], [104, 105]⟩ rust
        ∧ Http.forwardRawRequest Http.plainLibrary Http.plainConfig Http.hiEnv Http.plainGet ['b']
          = .ok (.ok rust) := by
  have hrun : ∃ s call, run (step ⟨8, false⟩ fun _ => Http.hiReply.bytes) new keptAlive = some s
      ∧ s.calls[1]? = some call ∧ call.response = some ⟨200, [], [104, 105]⟩ :=
    ⟨_, _, rfl, rfl, rfl⟩
  obtain ⟨s, call, hs, hcall, hresponse⟩ := hrun
  refine ⟨s, call, hs, hcall, hresponse, ?_⟩
  rcases same_as_rust ⟨8, false⟩ Http.plainLibrary Http.plainConfig rfl (fun _ => Http.hiReply)
    (fun _ => by decide) hs hcall hresponse with ⟨headers, hbad⟩ | ⟨rust, hsame, hrust⟩
  · cases hbad
  · exact ⟨rust, hsame, hrust _ _ _ rfl ⟨rfl, rfl, rfl⟩ Http.stream_hiEnv⟩

end PhpRaw

end ProtocolProxy
