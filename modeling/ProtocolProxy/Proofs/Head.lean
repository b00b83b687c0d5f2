import ProtocolProxy.Proofs.RawReply

/-!
# Replies to HEAD

A well-formed reply is read as it was written (`statusLine_text`, `fields_text`), so the raw way
relays the backend's status.  Its second loop does not know what was asked for: it waits for a body
that a reply to HEAD only announces (`answersHead_iff`).
-/

namespace ProtocolProxy

namespace Http

open Digits Search Trim

/-! ## Characters -/

theorem isAlphanum_range {c : Char} (hc : c.isAlphanum = true) :
    48 ≤ c.toNat ∧ c.toNat ≤ 122 ∧ c.toNat ≠ 58 := by
  simp only [Char.isAlphanum, Char.isAlpha, Char.isUpper, Char.isLower, Char.isDigit,
    Bool.or_eq_true, Bool.and_eq_true, decide_eq_true_eq, UInt32.le_iff_toNat_le,
    ge_iff_le] at hc
  change (65 ≤ c.toNat ∧ c.toNat ≤ 90 ∨ 97 ≤ c.toNat ∧ c.toNat ≤ 122)
    ∨ 48 ≤ c.toNat ∧ c.toNat ≤ 57 at hc
  omega

theorem isToken_range {c : Char} (hc : isToken c = true) :
    33 ≤ c.toNat ∧ c.toNat ≤ 126 ∧ c.toNat ≠ 58 := by
  unfold isToken at hc
  rcases Bool.or_eq_true_iff.1 hc with hc | hc
  · have hrange := isAlphanum_range hc
    omega
  · have hall : ∀ c ∈ "!#$%&'*+-.^_`|~".toList, 33 ≤ c.toNat ∧ c.toNat ≤ 126 ∧ c.toNat ≠ 58 := by
      simp
    exact hall c (List.contains_iff_mem.1 hc)

theorem isWhitespace_eq_false {c : Char} (hlow : 33 ≤ c.toNat) (hhigh : c.toNat ≤ 126) :
    isWhitespace c = false := by
  unfold isWhitespace
  simp only [decide_eq_false_iff_not]
  omega

theorem cr_not_plain : isPlain '\r' = false := by decide

/-! ## Lines -/

/-- A line ends at the first CRLF. -/
theorem splitCrlf_append {line rest : Text} (hline : '\r' ∉ line) :
    splitCrlf (line ++ '\r' :: '\n' :: rest) = line :: splitCrlf rest := by
  induction line with
  | nil => rfl
  | cons c line ih =>
    obtain ⟨hc, hline⟩ := List.ne_and_not_mem_of_not_mem_cons hline
    rw [List.cons_append, splitCrlf, ih hline]
    intro s hs
    exact absurd hs.symm hc

theorem splitCrlf_line {line : Text} (hline : '\r' ∉ line) : splitCrlf line = [line] := by
  induction line with
  | nil => rfl
  | cons c line ih =>
    obtain ⟨hc, hline⟩ := List.ne_and_not_mem_of_not_mem_cons hline
    rw [splitCrlf, ih hline]
    intro s hs
    exact absurd hs.symm hc

theorem splitCrlf_lines {lines : List Text} : ∀ {line : Text}, '\r' ∉ line →
    (∀ line ∈ lines, '\r' ∉ line) →
    splitCrlf (line ++ lines.flatMap fun line => '\r' :: '\n' :: line) = line :: lines := by
  induction lines with
  | nil =>
    intro line hline _
    rw [List.flatMap_nil, List.append_nil, splitCrlf_line hline]
  | cons next lines ih =>
    intro line hline hlines
    obtain ⟨hnext, hlines⟩ := List.forall_mem_cons.1 hlines
    rw [List.flatMap_cons, List.cons_append, List.cons_append, splitCrlf_append hline,
      ih hnext hlines]

/-! ## What is read of a reply -/

namespace Reply

variable (reply : Reply)

theorem digit_range {c : Char} {n : ℕ} (hc : c ∈ Nat.toDigits 10 n) :
    48 ≤ c.toNat ∧ c.toNat ≤ 122 := by
  have hdigit := Nat.isDigit_of_mem_toDigits (by omega) (by omega) hc
  have hrange := isAlphanum_range (Bool.or_eq_true_iff.2 (.inr hdigit))
  exact ⟨hrange.1, hrange.2.1⟩

theorem cr_notMem_statusLine : '\r' ∉ reply.statusLine := by
  have hspace : '\r' ≠ ' ' := by decide
  have hversion : '\r' ∉ "HTTP/1.1".toList := by decide
  have hcode : '\r' ∉ Nat.toDigits 10 reply.code := fun h => absurd (digit_range h).1 (by decide)
  have hreason : '\r' ∉ reply.reason := by
    intro h
    have hplain := reply.reason_plain _ h
    simp [cr_not_plain] at hplain
  unfold statusLine
  simp only [List.mem_append, List.mem_cons, hspace, hversion, hcode, hreason, or_self,
    not_false_eq_true]

theorem cr_notMem_line {p : Text × Text} (hp : p ∈ reply.headers) :
    '\r' ∉ p.1 ++ ':' :: p.2 := by
  intro hcr
  rcases List.mem_append.1 hcr with hcr | hcr
  · have hrange := isToken_range ((reply.name_token p hp).2 _ hcr)
    exact absurd hrange.1 (by decide)
  · rcases List.mem_cons.1 hcr with hcr | hcr
    · exact absurd hcr (by decide)
    · have hplain := reply.value_plain p hp _ hcr
      simp [cr_not_plain] at hplain

theorem splitCrlf_text :
    splitCrlf reply.text = reply.statusLine :: reply.headers.map fun p => p.1 ++ ':' :: p.2 := by
  have hlines : reply.text = reply.statusLine ++ (reply.headers.map fun p =>
      p.1 ++ ':' :: p.2).flatMap fun line => '\r' :: '\n' :: line := by
    rw [List.flatMap_map]
    rfl
  rw [hlines]
  refine splitCrlf_lines reply.cr_notMem_statusLine fun line hline => ?_
  obtain ⟨p, hp, rfl⟩ := List.mem_map.1 hline
  exact reply.cr_notMem_line hp

theorem statusLine_text : Http.statusLine reply.text = reply.statusLine := by
  unfold Http.statusLine
  rw [splitCrlf_text]
  rfl

/-- The status code is read back. -/
theorem parseStatusLine_statusLine : parseStatusLine reply.statusLine = some reply.code := by
  have hblank : isWhitespace ' ' = true := by decide
  have hversion : ∀ c ∈ "HTTP/1.1".toList, isWhitespace c = false := by simp [isWhitespace]
  have hcode : ∀ c ∈ Nat.toDigits 10 reply.code, isWhitespace c = false := by
    intro c hc
    have hrange := digit_range hc
    exact isWhitespace_eq_false (by omega) (by omega)
  unfold parseStatusLine statusLine
  rw [splitWhitespace_append (by decide) hversion hblank,
    splitWhitespace_append Nat.toDigits_ne_nil hcode hblank]
  have hvalid := reply.code_valid
  exact parseUnsigned_toDigits (by omega)

theorem rawStatus_text (config : Config) :
    rawStatus config (Http.statusLine reply.text)
      = if config.rawBackendAssumeOk then 200 else reply.code := by
  unfold rawStatus
  rw [statusLine_text, parseStatusLine_statusLine, Option.getD_some, statusCode,
    if_pos reply.code_valid, Option.getD_some]

theorem trim_token {name : Text} (hne : name ≠ []) (hname : ∀ c ∈ name, isToken c) :
    trim name = name := by
  have hsolid : ∀ c ∈ name, isWhitespace c = false := by
    intro c hc
    have hrange := isToken_range (hname c hc)
    exact isWhitespace_eq_false hrange.1 hrange.2.1
  have htrim := @trimmed_append_solid _ isWhitespace [] name [] (by simp) hsolid hne
  rw [List.nil_append, List.append_nil, List.rdropWhile_nil, List.append_nil] at htrim
  exact htrim

theorem fields_text : fields reply.text = reply.headers.map fun p => (p.1, trim p.2) := by
  unfold fields
  rw [splitCrlf_text, List.tail_cons, List.filterMap_map]
  rw [← List.filterMap_eq_map]
  refine List.filterMap_congr fun p hp => ?_
  obtain ⟨hne, htoken⟩ := reply.name_token p hp
  have hcolon : ':' ∉ p.1 := fun h => (isToken_range (htoken _ h)).2.2 rfl
  have hsplit := splitOnce_eq_some.2 ⟨@rfl _ (p.1 ++ ':' :: p.2), hcolon⟩
  simp only [Function.comp_apply, hsplit, Option.map_some, trim_token hne htoken]

theorem values_text (name : Text) : Http.values name reply.text = reply.values name := by
  unfold Http.values Reply.values
  rw [fields_text, List.filter_map, List.map_map]
  rfl

theorem lastLength_text :
    lastLength reply.text
      = (reply.values contentLength).getLast?.bind (parseUnsigned (2 ^ 64)) := by
  unfold lastLength
  rw [values_text]

theorem isChunked_text_eq_false_iff :
    isChunked reply.text = false ↔ ∀ text ∈ reply.values "transfer-encoding".toList,
      text.map Char.toLower ≠ "chunked".toList := by
  unfold isChunked
  rw [values_text, List.any_eq_false]
  refine forall₂_congr fun text _ => ?_
  rw [decide_eq_true_iff]

theorem announces_iff :
    reply.Announces ↔ (∃ n, 0 < n ∧ lastLength reply.text = some n)
      ∧ isChunked reply.text = false := by
  unfold Announces
  rw [isChunked_text_eq_false_iff, lastLength_text]
  refine and_congr_left fun _ => ?_
  simp only [Option.bind_eq_some_iff, Option.mem_def]
  constructor
  · rintro ⟨text, htext, n, hn, hparse⟩
    exact ⟨n, hn, text, htext, hparse⟩
  · rintro ⟨n, hn, text, htext, hparse⟩
    exact ⟨text, htext, n, hn, hparse⟩

end Reply

/-! ## The two ways -/

section Ways

variable {lib : Library} {config : Config} {env : Env} {request : Request} {endpoint : Text}
  {response : BackendResponse} {reply : Reply} {head : Bytes}

/-- A hundred headers are relayed, but for those of the connection. -/
theorem relayHeaders_eq : ∀ {headers rest : Headers}, headers.length + rest.length ≤ 100 →
    relayHeaders lib headers rest = .ok (headers ++ rest.filter fun p => !isHopByHop p.1) := by
  intro headers rest
  induction rest generalizing headers with
  | nil =>
    intro _
    rw [List.filter_nil, List.append_nil]
    rfl
  | cons p rest ih =>
    obtain ⟨name, value⟩ := p
    intro hlen
    rw [List.length_cons] at hlen
    unfold relayHeaders
    split_ifs with hhop
    · rw [ih (by omega), List.filter_cons_of_neg (by simpa using hhop)]
    · have hfits : lib.fits (headers ++ [(name, value)]) = true := by
        refine lib.fits_hundred _ ?_
        rw [List.length_append, List.length_singleton]
        omega
      have hlen' : (headers ++ [(name, value)]).length + rest.length ≤ 100 := by
        rw [List.length_append, List.length_singleton]
        omega
      unfold appendHeader
      rw [if_pos hfits, List.filter_cons_of_pos (by simpa using hhop)]
      refine (ih hlen').trans ?_
      rw [List.append_assoc, List.singleton_append]

theorem relayHeaders_eq_ok {headers rest : Headers} (hlen : headers.length + rest.length ≤ 100) :
    ∃ relayed, relayHeaders lib headers rest = .ok relayed :=
  ⟨_, relayHeaders_eq hlen⟩

theorem forwardRequest_of_sent (hsent : Sent lib config env request endpoint response) :
    forwardRequest lib config env request endpoint = clientResponse lib config response := by
  obtain ⟨hpool, client, out, hacquire, hout, hsend⟩ := hsent
  unfold forwardRequest
  simp only [hpool, hacquire, hout, hsend]
  rfl

theorem answersHead_clientResponse_iff (hbody : response.body = .done []) {code : ℕ}
    (hcode : response.status = code) :
    AnswersHead code (clientResponse lib config response)
      ↔ (config.fastPathAssumeOk = true → code = 200) := by
  obtain ⟨relayed, hrelayed⟩ := @relayHeaders_eq_ok lib [] response.headers
    (by simpa using response.few)
  have hresult : clientResponse lib config response
      = .ok (.ok ⟨if config.fastPathAssumeOk then 200 else code, relayed, []⟩) := by
    unfold clientResponse
    simp only [hbody, hrelayed, hcode]
    rfl
  rw [hresult]
  constructor
  · rintro ⟨headers, hheaders⟩ hfast
    rw [if_pos hfast] at hheaders
    cases hheaders
    rfl
  · intro hfast
    refine ⟨relayed, ?_⟩
    split_ifs with h
    · rw [hfast h]
    · rfl

theorem answersHead_buildResponse_iff {header : Text} (hheader : fromUtf8 head = some header)
    {code status : ℕ} :
    AnswersHead code (.ok (buildResponse status (relayed lib header) []))
      ↔ Relayable lib head ∧ status = code := by
  constructor
  · rintro ⟨headers, hresult⟩
    rcases hbuilder : relayed lib header with e | built <;> rw [hbuilder] at hresult
    · cases hresult
    · cases hresult
      exact ⟨⟨header, headers, hheader, hbuilder⟩, rfl⟩
  · rintro ⟨⟨header', headers, hheader', hbuilder⟩, rfl⟩
    rw [hheader] at hheader'
    cases hheader'
    exact ⟨headers, by rw [hbuilder]; rfl⟩

/-- Unless it announces a body, the reply is complete with its header block. -/
theorem rawReply_of_not_announces (h : ¬ reply.Announces) {left : List Read} :
    rawReply lib config reply.text [] left
      = .ok (buildResponse (rawStatus config (statusLine reply.text)) (relayed lib reply.text)
        []) := by
  rw [reply.announces_iff] at h
  by_cases hno : isChunked reply.text = true ∨ lastLength reply.text = none
  · exact rawReply_of_no_length hno
  · obtain ⟨hchunked, n, hn⟩ := length_of_not hno
    have hzero : n = 0 := by
      by_contra hne
      exact h ⟨⟨n, Nat.pos_of_ne_zero hne, hn⟩, hchunked⟩
    rw [rawReply_of_length hchunked hn, hzero, if_pos (Nat.zero_le _),
      readBody_of_le (Nat.zero_le _)]
    rfl

theorem not_answersHead_of_announces (h : reply.Announces) {left : List Read}
    (hleft : (pieces left).flatten = []) {code : ℕ} :
    ¬ AnswersHead code (rawReply lib config reply.text [] left) := by
  obtain ⟨⟨n, hn, hlast⟩, hchunked⟩ := reply.announces_iff.1 h
  rintro ⟨headers, hresult⟩
  rw [rawReply_of_length hchunked hlast] at hresult
  split_ifs at hresult
  have hshort : ([] : Bytes).length + (pieces left).flatten.length < n := by
    rw [hleft]
    exact hn
  obtain ⟨e, he⟩ := readBody_eq_error hshort
  rw [he] at hresult
  cases hresult

/-- For every well-formed reply to a HEAD, however it is read: the raw way answers with the
backend's status and no body if and only if the header block can be relayed, the status is not
replaced by the configuration, and no body is announced.  The pooled way does unless its status is
replaced. -/
theorem answersHead_iff (lib : Library) (config : Config) (env : Env) (request : Request)
    (endpoint : Text) (reply : Reply) (head : Bytes) (response : BackendResponse)
    (hmethod : request.method = .head) (hwritten : Written env request endpoint)
    (hhead : ∀ header, fromUtf8 head = some header → header = reply.text)
    (hstream : stream env = head ++ crlfCrlf)
    (hfirst : firstAt crlfCrlf (stream env) = some head.length)
    (hsent : Sent lib config env request endpoint response) (hcode : response.status = reply.code)
    (hbody : response.body = .done []) :
    (AnswersHead reply.code (forwardRawRequest lib config env request endpoint)
        ↔ Relayable lib head ∧ (config.rawBackendAssumeOk = true → reply.code = 200)
          ∧ ¬ reply.Announces)
      ∧ (AnswersHead reply.code (forwardRequest lib config env request endpoint)
        ↔ (config.fastPathAssumeOk = true → reply.code = 200)) := by
  refine ⟨?_, by rw [forwardRequest_of_sent hsent, answersHead_clientResponse_iff hbody hcode]⟩
  have hstream' : stream env = head ++ crlfCrlf ++ [] := by rw [hstream, List.append_nil]
  obtain ⟨extra, left, -, -, hleft, hforward⟩ :=
    @forwardRawRequest_of_stream lib config _ _ _ _ _ (.inr hmethod) hwritten hstream' hfirst
  obtain ⟨rfl, hleft⟩ := List.append_eq_nil_iff.1 hleft
  rw [hforward]
  rcases hheader : fromUtf8 head with _ | header
  · constructor
    · rintro ⟨headers, hresult⟩
      simp at hresult
    · rintro ⟨⟨header, -, hheader', -⟩, -⟩
      simp [hheader] at hheader'
  obtain rfl := hhead header hheader
  by_cases hannounces : reply.Announces
  · refine ⟨fun h => absurd h (not_answersHead_of_announces hannounces hleft), fun h => ?_⟩
    exact absurd hannounces h.2.2
  · simp only
    rw [rawReply_of_not_announces hannounces, answersHead_buildResponse_iff hheader,
      reply.rawStatus_text]
    refine and_congr_right fun _ => ⟨fun hstatus => ⟨fun hok => ?_, hannounces⟩, fun h => ?_⟩
    · rw [if_pos hok] at hstatus
      exact hstatus.symm
    · split_ifs with hok
      · exact (h.1 hok).symm
      · rfl

def plainHead : Request := ⟨.head, some ['/'], [], []⟩

theorem sent_plainHead (reads : List Read) :
    Sent plainLibrary plainConfig { plainEnv with reads := reads } plainHead ['b']
      ⟨200, [], Nat.zero_le _, .done []⟩ :=
  ⟨rfl, 0, _, rfl, rfl, rfl⟩

/-- A reply with a `Content-Length`. -/
def lengthReply (value : Text) (hvalue : value.all isPlain = true) : Reply where
  code := 200
  reason := "OK".toList
  headers := [("Content-Length".toList, value)]
  code_valid := by decide
  reason_plain := List.all_eq_true.1 (by decide +kernel)
  name_token p hp := by
    have htoken : "Content-Length".toList.all isToken = true := by decide +kernel
    rw [List.mem_singleton.1 hp]
    exact ⟨List.cons_ne_nil _ _, List.all_eq_true.1 htoken⟩
  value_plain p hp := by
    rw [List.mem_singleton.1 hp]
    exact List.all_eq_true.1 hvalue

def emptyReply : Reply := lengthReply ['0'] (by decide +kernel)

def twoReply : Reply := lengthReply [' ', '2'] (by decide +kernel)

def emptyReads : List Read :=
  [.data ⟨asBytes emptyReply.text ++ [13], by decide +kernel⟩, .data ⟨[10, 13, 10], by decide⟩,
    .eof]

def emptyEnv : Env := { plainEnv with reads := emptyReads }

theorem stream_emptyEnv : stream emptyEnv = asBytes emptyReply.text ++ crlfCrlf := by
  simp [stream, emptyEnv, emptyReads, pieces, crlfCrlf]

theorem emptyReply_facts :
    fromUtf8 (asBytes emptyReply.text) = some emptyReply.text
      ∧ lastLength emptyReply.text = some 0
      ∧ relayed plainLibrary emptyReply.text = .ok []
      ∧ firstAt crlfCrlf (asBytes emptyReply.text ++ crlfCrlf)
        = some (asBytes emptyReply.text).length := by
  decide +kernel

theorem answersHead_iff_empty :
    AnswersHead 200 (forwardRawRequest plainLibrary plainConfig emptyEnv plainHead ['b'])
      ∧ AnswersHead 200 (forwardRequest plainLibrary plainConfig emptyEnv plainHead ['b']) := by
  obtain ⟨hutf8, hzero, hrelayed, hfirst⟩ := emptyReply_facts
  have hhead : ∀ header, fromUtf8 (asBytes emptyReply.text) = some header →
      header = emptyReply.text := by
    intro header hheader
    rw [hutf8] at hheader
    exact (Option.some.inj hheader).symm
  have hiff := answersHead_iff plainLibrary plainConfig emptyEnv plainHead ['b'] emptyReply
    (asBytes emptyReply.text) ⟨200, [], Nat.zero_le _, .done []⟩ rfl ⟨rfl, rfl, rfl⟩ hhead
    stream_emptyEnv (by rw [stream_emptyEnv, hfirst]) (sent_plainHead _) rfl rfl
  refine ⟨hiff.1.2 ⟨⟨emptyReply.text, [], hutf8, hrelayed⟩, fun _ => rfl, fun hannounces => ?_⟩,
    hiff.2.2 fun _ => rfl⟩
  obtain ⟨⟨n, hn, hlast⟩, -⟩ := emptyReply.announces_iff.1 hannounces
  rw [hzero] at hlast
  cases hlast
  exact absurd hn (Nat.lt_irrefl 0)

/-- The backend's answer to a HEAD says how long the body of a GET would be, and the raw way waits
for it. -/
theorem head_times_out :
    ∃ chunk : Chunk, chunk.val = asBytes twoReply.text ++ crlfCrlf
      ∧ forwardRawRequest plainLibrary plainConfig { plainEnv with reads := [.data chunk] }
        plainHead ['b'] = .ok (.error (.other "read timed out"))
      ∧ ¬ AnswersHead twoReply.code (forwardRawRequest plainLibrary plainConfig
        { plainEnv with reads := [.data chunk] } plainHead ['b'])
      ∧ AnswersHead twoReply.code (forwardRequest plainLibrary plainConfig
        { plainEnv with reads := [.data chunk] } plainHead ['b']) := by
  have hresult : forwardRawRequest plainLibrary plainConfig
      { plainEnv with reads := [.data ⟨asBytes twoReply.text ++ crlfCrlf, by decide +kernel⟩] }
      plainHead ['b'] = .ok (.error (.other "read timed out")) := by decide +kernel
  refine ⟨_, rfl, hresult, ?_, [], ?_⟩
  · rintro ⟨headers, h⟩
    rw [hresult] at h
    cases h
  · rw [forwardRequest_of_sent (sent_plainHead _)]
    rfl

end Ways

end Http

end ProtocolProxy
