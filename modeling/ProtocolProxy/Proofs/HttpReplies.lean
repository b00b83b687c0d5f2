import ProtocolProxy.HttpReplies
import ProtocolProxy.Proofs.Head
import ProtocolProxy.Proofs.Helo

/-!
# The two ways make the same of a reply

The raw way finds the end of the header block, the length and the headers of a well-formed reply
wherever its reads end (`firstAt_bytes`, `lastLength_text`, `relayed_text`), so it answers with the
same response as the pooled way, but for the headers of a connection that it does not know
(`raw_eq_pooled_iff`).
-/

namespace ProtocolProxy

namespace Http

open Digits Search Trim

/-! ## ASCII texts -/

theorem toChar_ofNat {c : Char} (hc : c.toNat < 128) :
    Helo.toChar (UInt8.ofNat c.toNat) = c ∧ UInt8.ofNat c.toNat < 128 := by
  have hnat : (UInt8.ofNat c.toNat).toNat = c.toNat := by
    rw [UInt8.toNat_ofNat', Nat.mod_eq_of_lt (by omega)]
  unfold Helo.toChar
  rw [UInt8.lt_iff_toNat_lt, hnat, Char.ofNat_toNat]
  exact ⟨rfl, hc⟩

/-- A text in ASCII and its bytes. -/
theorem exists_ascii {t : Text} (ht : ∀ c ∈ t, c.toNat < 128) :
    ∃ l : Bytes, (∀ b ∈ l, b < 128) ∧ t = l.map Helo.toChar ∧ asBytes t = l := by
  have htext : (t.map fun c => UInt8.ofNat c.toNat).map Helo.toChar = t := by
    rw [List.map_map]
    exact (List.map_congr_left fun c hc => (toChar_ofNat (ht c hc)).1).trans (List.map_id t)
  have hbytes : ∀ b ∈ t.map fun c => UInt8.ofNat c.toNat, b < 128 := by
    intro b hb
    obtain ⟨c, hc, rfl⟩ := List.mem_map.1 hb
    exact (toChar_ofNat (ht c hc)).2
  refine ⟨_, hbytes, htext.symm, ?_⟩
  nth_rewrite 1 [← htext]
  exact Helo.asBytes_map_toChar hbytes

theorem fromUtf8_asBytes {t : Text} (ht : ∀ c ∈ t, c.toNat < 128) :
    fromUtf8 (asBytes t) = some t := by
  obtain ⟨l, hl, rfl, hbytes⟩ := exists_ascii ht
  rw [hbytes, Helo.fromUtf8_ascii hl]

theorem chars_asBytes {t : Text} (ht : ∀ c ∈ t, c.toNat < 128) : PhpRaw.chars (asBytes t) = t := by
  obtain ⟨l, hl, rfl, hbytes⟩ := exists_ascii ht
  rw [hbytes]
  rfl

theorem asBytes_append (t t' : Text) : asBytes (t ++ t') = asBytes t ++ asBytes t' :=
  List.flatMap_append

/-- What is used of a plain character. -/
theorem plain_facts (b : UInt8) : b < 128 → isPlain (Helo.toChar b) = true →
    (b = 9 ∨ 32 ≤ b ∧ b ≠ 127) ∧ isWhitespace (Helo.toChar b) = isOws (Helo.toChar b)
      ∧ PhpRaw.isTrimmed (Helo.toChar b) = isOws (Helo.toChar b) := by
  revert b
  decide +kernel

/-! ## The end of the header block -/

theorem firstAt_append {line rest : Bytes} (hline : 13 ∉ line) :
    firstAt crlfCrlf (line ++ rest) = (firstAt crlfCrlf rest).map (· + line.length) := by
  induction line with
  | nil => simp
  | cons b line ih =>
    obtain ⟨hb, hline⟩ := List.ne_and_not_mem_of_not_mem_cons hline
    have hnot : crlfCrlf.isPrefixOf (b :: line ++ rest) = false := by
      simp [crlfCrlf, List.isPrefixOf, hb]
    rw [List.cons_append, firstAt, ← List.cons_append, hnot, ih hline]
    simp [Option.map_map, Function.comp_def, Nat.add_assoc]

/-- An end of line that is followed by a line. -/
theorem firstAt_crlf {line rest : Bytes} (hline : 13 ∉ line) (hne : line ≠ []) :
    firstAt crlfCrlf (13 :: 10 :: (line ++ rest))
      = (firstAt crlfCrlf rest).map (· + (line.length + 2)) := by
  obtain ⟨b, line', rfl⟩ := List.exists_cons_of_ne_nil hne
  have hb : 13 ≠ b := fun h => hline (h ▸ List.mem_cons_self)
  have hnot : crlfCrlf.isPrefixOf (13 :: 10 :: (b :: line' ++ rest)) = false := by
    simp [crlfCrlf, List.isPrefixOf, hb]
  have hnot' : crlfCrlf.isPrefixOf (10 :: (b :: line' ++ rest)) = false := rfl
  rw [firstAt, hnot, firstAt, hnot', firstAt_append hline]
  simp [Option.map_map, Function.comp_def, Nat.add_assoc]

namespace FullReply

variable (reply : FullReply)

theorem line_ascii {p : Text × Text} (hp : p ∈ reply.headers) :
    ∀ c ∈ p.1 ++ ':' :: p.2, c.toNat < 128 := by
  refine List.forall_mem_append.2 ⟨fun c hc => ?_, List.forall_mem_cons.2 ⟨by decide, ?_⟩⟩
  · have hrange := isToken_range ((reply.name_token p hp).2 c hc)
    omega
  · exact reply.value_ascii p hp

theorem statusLine_ascii : ∀ c ∈ reply.statusLine, c.toNat < 128 := by
  have hversion : ∀ c ∈ "HTTP/1.1".toList, c.toNat < 128 := by simp
  refine List.forall_mem_append.2 ⟨hversion, List.forall_mem_cons.2 ⟨by decide, ?_⟩⟩
  refine List.forall_mem_append.2 ⟨fun c hc => ?_, List.forall_mem_cons.2 ⟨by decide, ?_⟩⟩
  · have hrange := Reply.digit_range hc
    omega
  · exact reply.reason_ascii

theorem text_ascii : ∀ c ∈ reply.text, c.toNat < 128 := by
  refine List.forall_mem_append.2 ⟨reply.statusLine_ascii, fun c hc => ?_⟩
  obtain ⟨p, hp, hc⟩ := List.mem_flatMap.1 hc
  rcases List.mem_cons.1 hc with rfl | hc
  · decide
  rcases List.mem_cons.1 hc with rfl | hc
  · decide
  · exact reply.line_ascii hp c hc

theorem cr_notMem_asBytes {t : Text} (ht : ∀ c ∈ t, c.toNat < 128) (hcr : '\r' ∉ t) :
    13 ∉ asBytes t := by
  obtain ⟨l, -, rfl, hbytes⟩ := exists_ascii ht
  rw [hbytes]
  exact fun h => hcr (List.mem_map_of_mem h)

/-- Nowhere before its end is the header block followed by an empty line. -/
theorem firstAt_bytes : firstAt crlfCrlf reply.bytes = some (asBytes reply.text).length := by
  have hlines : ∀ headers : List (Text × Text), (∀ p ∈ headers, p ∈ reply.headers) →
      firstAt crlfCrlf (asBytes (headers.flatMap fun p => '\r' :: '\n' :: (p.1 ++ ':' :: p.2))
        ++ (crlfCrlf ++ reply.body))
      = some (asBytes (headers.flatMap fun p => '\r' :: '\n' :: (p.1 ++ ':' :: p.2))).length := by
    intro headers hsub
    induction headers with
    | nil => rfl
    | cons p headers ih =>
      obtain ⟨hp, hsub⟩ := List.forall_mem_cons.1 hsub
      have hline : asBytes ('\r' :: '\n' :: (p.1 ++ ':' :: p.2))
          = 13 :: 10 :: asBytes (p.1 ++ ':' :: p.2) := rfl
      have hcr := cr_notMem_asBytes (reply.line_ascii hp) (reply.cr_notMem_line hp)
      have hne : asBytes (p.1 ++ ':' :: p.2) ≠ [] := by
        rw [asBytes_append]
        exact List.append_ne_nil_of_right_ne_nil _ nofun
      rw [List.flatMap_cons, asBytes_append, hline, List.append_assoc, List.cons_append,
        List.cons_append, firstAt_crlf hcr hne, ih hsub, Option.map_some, List.length_append,
        List.length_cons, List.length_cons]
      congr 1
      omega
  have hcr := cr_notMem_asBytes reply.statusLine_ascii reply.cr_notMem_statusLine
  unfold bytes Reply.text
  rw [asBytes_append, List.append_assoc, List.append_assoc, firstAt_append hcr,
    hlines _ fun _ hp => hp, Option.map_some, List.length_append, Nat.add_comm]

/-! ## The headers -/

/-- In the value of a header there are no blanks but spaces and tabs. -/
theorem value_blank {p : Text × Text} (hp : p ∈ reply.headers) {c : Char} (hc : c ∈ p.2) :
    isWhitespace c = isOws c ∧ PhpRaw.isTrimmed c = isOws c := by
  obtain ⟨hchar, hlt⟩ := toChar_ofNat (reply.value_ascii p hp c hc)
  have hfacts := plain_facts _ hlt (hchar.symm ▸ reply.value_plain p hp c hc)
  rw [hchar] at hfacts
  exact hfacts.2

theorem trim_value {p : Text × Text} (hp : p ∈ reply.headers) : trim p.2 = trimmed isOws p.2 :=
  trimmed_congr fun _ hc => (reply.value_blank hp hc).1

theorem mem_trimmed {t : Text} {c : Char} (hc : c ∈ trimmed isOws t) : c ∈ t := by
  obtain ⟨before, after, hsplit, -⟩ := exists_eq_trimmed isOws t
  rw [hsplit]
  exact List.mem_append_left _ (List.mem_append_right _ hc)

theorem headerValue_value {p : Text × Text} (hp : p ∈ reply.headers) :
    headerValue (trimmed isOws p.2) = some (asBytes (trimmed isOws p.2)) := by
  have hplain : ∀ c ∈ trimmed isOws p.2, isPlain c := fun c hc =>
    reply.value_plain p hp c (mem_trimmed hc)
  obtain ⟨l, hl, htext, hbytes⟩ := exists_ascii fun c hc =>
    reply.value_ascii p hp c (mem_trimmed hc)
  unfold headerValue
  rw [if_pos]
  rw [hbytes, List.all_eq_true]
  intro b hb
  have hb' : Helo.toChar b ∈ trimmed isOws p.2 := by
    rw [htext]
    exact List.mem_map_of_mem hb
  rw [decide_eq_true_eq]
  exact (plain_facts b (hl b hb) (hplain _ hb')).1

theorem headerName_name {p : Text × Text} (hp : p ∈ reply.headers) :
    headerName p.1 = some (p.1.map Char.toLower) := by
  obtain ⟨hne, htoken⟩ := reply.name_token p hp
  have hshort := reply.name_short p hp
  unfold headerName
  rw [if_neg (not_or.2 ⟨hne, by omega⟩), if_pos (List.all_eq_true.2 htoken)]

theorem foldl_header {lib : Library} : ∀ {headers : List (Text × Text)} {built : Headers},
    (∀ p ∈ headers, headerName p.1 = some (p.1.map Char.toLower)
      ∧ headerValue p.2 = some (asBytes p.2)) → built.length + headers.length ≤ 100 →
    headers.foldl (fun builder p => Builder.header lib builder p.1 p.2) (.ok built)
      = .ok (built ++ headers.map fun p => (p.1.map Char.toLower, asBytes p.2)) := by
  intro headers built hvalid hlen
  induction headers generalizing built with
  | nil => simp
  | cons p headers ih =>
    obtain ⟨⟨hname, hvalue⟩, hvalid⟩ := List.forall_mem_cons.1 hvalid
    rw [List.length_cons] at hlen
    have hlen' : (built ++ [(p.1.map Char.toLower, asBytes p.2)]).length + headers.length
        ≤ 100 := by
      rw [List.length_append, List.length_singleton]
      omega
    have hheader : Builder.header lib (.ok built) p.1 p.2
        = .ok (built ++ [(p.1.map Char.toLower, asBytes p.2)]) := by
      simp only [Builder.header, hname, hvalue, Builder.append]
      rw [if_pos (lib.fits_hundred _ (by omega))]
    rw [List.foldl_cons, hheader, ih hvalid hlen', List.map_cons, List.append_assoc,
      List.singleton_append]

theorem fields_text : Http.fields reply.text
    = reply.headers.map fun p => (p.1, trimmed isOws p.2) := by
  rw [reply.toReply.fields_text]
  exact List.map_congr_left fun p hp => by rw [reply.trim_value hp]

theorem relayed_text (lib : Library) :
    Http.relayed lib reply.text = .ok (reply.fields.filter fun p => !isFraming p.1) := by
  unfold Http.relayed
  rw [reply.fields_text, foldl_header]
  · rw [List.nil_append, List.filter_map, List.map_map]
    unfold fields
    rw [List.filter_map]
    rfl
  · intro p hp
    obtain ⟨q, hq, rfl⟩ := List.mem_map.1 (List.mem_of_mem_filter hp)
    have hname := reply.headerName_name hq
    exact ⟨hname, reply.headerValue_value hq⟩
  · rw [List.length_nil, Nat.zero_add]
    refine (List.length_filter_le _ _).trans ?_
    rw [List.length_map]
    exact reply.few

/-! ## The two ways -/

theorem lastLength_text : lastLength reply.text = some reply.body.length := by
  obtain ⟨text, hvalues, hne, hdigits, hvalue⟩ := reply.length
  have hfits := reply.fits
  rw [reply.toReply.lastLength_text, hvalues, List.getLast?_singleton, Option.bind_some,
    parseUnsigned_digits hne hdigits (Nat.two_pow_pos 64), hvalue, if_pos]
  unfold isizeMax at hfits
  omega

theorem isChunked_text : isChunked reply.text = false := by
  rw [reply.isChunked_text_eq_false_iff, reply.not_encoded]
  nofun

/-- However the reply is read, the raw way relays it. -/
theorem forwardRawRequest_eq_relayed {lib : Library} {config : Config} {env : Env}
    {request : Request} {endpoint : Text} (hmethod : request.method = .get)
    (hwritten : Written env request endpoint) (hstream : stream env = reply.bytes) :
    forwardRawRequest lib config env request endpoint = .ok (.ok (reply.relayed config)) := by
  obtain ⟨extra, left, -, -, hleft, hforward⟩ :=
    @forwardRawRequest_of_stream lib config _ _ _ _ _ (.inl hmethod) hwritten hstream
      (hstream ▸ reply.firstAt_bytes)
  have htotal : reply.body.length = extra.length + (pieces left).flatten.length := by
    rw [← hleft, List.length_append]
  rw [hforward, fromUtf8_asBytes reply.text_ascii]
  simp only
  rw [rawReply_of_length reply.isChunked_text reply.lastLength_text, if_pos reply.fits,
    readBody_eq htotal.le, List.take_of_length_le (by omega), hleft, reply.relayed_text,
    reply.rawStatus_text]
  rfl

theorem isHopByHop_of_isFraming {name : Text} (h : isFraming name = true) :
    isHopByHop name = true := by
  unfold isFraming at h
  unfold isHopByHop
  rw [List.contains_iff_mem] at h ⊢
  revert name
  decide

theorem clientResponse_received (lib : Library) (config : Config) :
    clientResponse lib config reply.received
      = .ok (.ok ⟨if config.fastPathAssumeOk then 200 else reply.code,
        reply.fields.filter fun p => !isHopByHop p.1, reply.body⟩) := by
  have hlen : ([] : Headers).length + reply.fields.length ≤ 100 := by
    rw [List.length_nil, Nat.zero_add]
    exact reply.received.few
  have hheaders := @relayHeaders_eq lib _ _ hlen
  unfold clientResponse
  simp only [received, hheaders]
  rfl

end FullReply

/-- For every GET that both ways could take, every well-formed reply with a length and every way in
which its bytes are read: the raw way gives the same response as the pooled one, if and only if the
configuration replaces the status on both or on none, unless it is 200 anyway, and the reply has no
header that only the pooled way takes for one of the connection. -/
theorem raw_eq_pooled_iff (lib : Library) (config : Config) (env : Env) (request : Request)
    (endpoint : Text) (reply : FullReply) (hmethod : request.method = .get)
    (hwritten : Written env request endpoint) (hstream : stream env = reply.bytes)
    (hsent : Sent lib config env request endpoint reply.received) :
    forwardRawRequest lib config env request endpoint
        = forwardRequest lib config env request endpoint
      ↔ (reply.code = 200 ∨ config.rawBackendAssumeOk = config.fastPathAssumeOk)
        ∧ ∀ p ∈ reply.fields, isHopByHop p.1 = true → isFraming p.1 = true := by
  rw [reply.forwardRawRequest_eq_relayed hmethod hwritten hstream, forwardRequest_of_sent hsent,
    reply.clientResponse_received, FullReply.relayed]
  simp only [Except.ok.injEq, Response.mk.injEq, and_true]
  refine and_congr ?_ ⟨fun heq p hp hhop => ?_, fun hsame => ?_⟩
  · rcases config.rawBackendAssumeOk <;> rcases config.fastPathAssumeOk <;> simp [eq_comm]
  · by_contra hframing
    have hmem : p ∈ reply.fields.filter fun p => !isFraming p.1 :=
      List.mem_filter.2 ⟨hp, by simpa using hframing⟩
    rw [heq, List.mem_filter, hhop] at hmem
    cases hmem.2
  · refine List.filter_congr fun p hp => ?_
    congr 1
    exact Bool.eq_iff_iff.2 ⟨FullReply.isHopByHop_of_isFraming, hsame p hp⟩

/-- A reply of two bytes. -/
def hiReply : FullReply where
  toReply := twoReply
  body := [104, 105]
  reason_ascii := by simp [twoReply, lengthReply]
  value_ascii := by simp [twoReply, lengthReply]
  few := by decide
  name_short := by simp [twoReply, lengthReply]
  length := ⟨['2'], by decide, by decide, by simp [toDigit], rfl⟩
  not_encoded := by decide
  fits := by decide

/-- The raw way reads it in two pieces, and the pooled way gets it from hyper. -/
def hiEnv : Env :=
  { plainEnv with
    send := fun _ => .done hiReply.received
    reads := [.data ⟨hiReply.bytes.take 37, by decide +kernel⟩,
      .data ⟨hiReply.bytes.drop 37, by decide +kernel⟩] }

theorem stream_hiEnv : stream hiEnv = hiReply.bytes := by
  show hiReply.bytes.take 37 ++ (hiReply.bytes.drop 37 ++ []) = _
  rw [List.append_nil, List.take_append_drop]

theorem raw_eq_pooled_iff_hi :
    forwardRawRequest plainLibrary plainConfig hiEnv plainGet ['b']
        = forwardRequest plainLibrary plainConfig hiEnv plainGet ['b']
      ∧ forwardRequest plainLibrary plainConfig hiEnv plainGet ['b']
        = .ok (.ok ⟨200, [], [104, 105]⟩) := by
  have hsent : Sent plainLibrary plainConfig hiEnv plainGet ['b'] hiReply.received :=
    ⟨rfl, 0, _, rfl, rfl, rfl⟩
  refine ⟨(raw_eq_pooled_iff _ _ hiEnv plainGet ['b'] hiReply rfl ⟨rfl, rfl, rfl⟩ stream_hiEnv
    hsent).2 ⟨.inl rfl, by decide⟩, ?_⟩
  decide +kernel

end Http

end ProtocolProxy
