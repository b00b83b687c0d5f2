import ProtocolProxy.Handler

/-!
# What is made of a raw backend's bytes

The two read loops of `forward_raw_request`, over whatever the reads return.  The first stops with
the read that completes the header block (`readHeaders_eq`), the second with the byte that completes
the body (`readBody_eq`).  What the header lines say does not depend on the reads
(`foldl_scanLine`), so the response to a GET depends on them in one point: nothing cuts off what the
first loop has read past the end of the body (`relays_iff`).
-/

namespace ProtocolProxy

namespace Http

open Digits Search Trim

variable {lib : Library} {config : Config} {reads left : List Read} {buffer body : Bytes}
  {header : Text} {h total : ℕ}

/-! ## The reads -/

theorem length_le_of_mem_pieces : ∀ {reads : List Read}, ∀ c ∈ pieces reads, c.length ≤ 8192
  | [], c, hc => absurd hc List.not_mem_nil
  | .data chunk :: reads, c, hc => by
    rcases List.mem_cons.1 hc with rfl | hc
    · exact chunk.property.2
    · exact length_le_of_mem_pieces c hc
  | .eof :: _, c, hc => absurd hc List.not_mem_nil
  | .failed _ :: _, c, hc => absurd hc List.not_mem_nil
  | .timedOut :: _, c, hc => absurd hc List.not_mem_nil

/-- A read that returns nothing ends the loop in front of the header block. -/
theorem readHeaders_of_pieces_nil (hbuffer : findSubslice buffer crlfCrlf = none)
    (hreads : pieces reads = []) : ∃ e, readHeaders buffer reads = .error e := by
  rcases reads with _ | ⟨_ | _ | _ | _, reads⟩ <;> unfold readHeaders <;> rw [hbuffer]
  · exact ⟨_, rfl⟩
  · exact absurd hreads (List.cons_ne_nil _ _)
  · exact ⟨_, rfl⟩
  · exact ⟨_, rfl⟩
  · exact ⟨_, rfl⟩

theorem readHeaders_data (hbuffer : findSubslice buffer crlfCrlf = none) (chunk : Chunk) :
    readHeaders buffer (.data chunk :: reads) = readHeaders (buffer ++ chunk.val) reads := by
  rw [readHeaders, hbuffer]

theorem readHeaders_of_some (hbuffer : findSubslice buffer crlfCrlf = some h) :
    readHeaders buffer reads = .ok (h + 4, buffer, reads) := by
  rw [readHeaders.eq_def, hbuffer]

theorem findSubslice_of_stream (hfirst : firstAt crlfCrlf (buffer ++ body) = some h) :
    findSubslice buffer crlfCrlf = if h + 4 ≤ buffer.length then some h else none :=
  firstAt_of_isPrefix (List.prefix_append buffer body) hfirst

/-- The header block needs bytes that have not been read. -/
theorem pieces_ne_nil (hfirst : firstAt crlfCrlf (buffer ++ (pieces reads).flatten) = some h)
    (hbuffer : buffer.length < h + 4) : pieces reads ≠ [] := by
  intro hnil
  have hlen := length_le_of_firstAt hfirst
  rw [hnil, List.flatten_nil, List.append_nil] at hlen
  exact absurd hlen (Nat.not_le.2 hbuffer)

/-- The first loop reads whole chunks until it has the header block. -/
theorem readHeaders_eq (hfirst : firstAt crlfCrlf (buffer ++ (pieces reads).flatten) = some h)
    (hbuffer : buffer.length < h + 4) :
    ∃ left, readHeaders buffer reads
        = .ok (h + 4, buffer ++ upTo (h + 4 - buffer.length) (pieces reads), left)
      ∧ upTo (h + 4 - buffer.length) (pieces reads) ++ (pieces left).flatten
        = (pieces reads).flatten := by
  induction reads generalizing buffer with
  | nil => exact absurd rfl (pieces_ne_nil hfirst hbuffer)
  | cons read reads ih =>
    have hnone := findSubslice_of_stream hfirst
    rw [if_neg (Nat.not_le.2 hbuffer)] at hnone
    cases read with
    | data chunk =>
      rw [readHeaders_data hnone]
      rw [pieces, List.flatten_cons, ← List.append_assoc] at hfirst
      rw [pieces, upTo, List.flatten_cons]
      have hlen : (buffer ++ chunk.val).length = buffer.length + chunk.val.length :=
        List.length_append
      by_cases hdone : h + 4 ≤ (buffer ++ chunk.val).length
      · have hsome := findSubslice_of_stream hfirst
        rw [if_pos hdone] at hsome
        rw [readHeaders_of_some hsome, if_pos (by omega)]
        exact ⟨reads, rfl, rfl⟩
      · obtain ⟨left, hread, hleft⟩ := ih hfirst (by omega)
        rw [if_neg (by omega), hread]
        have hcount : h + 4 - (buffer ++ chunk.val).length
            = h + 4 - buffer.length - chunk.val.length := by omega
        rw [hcount] at hleft ⊢
        refine ⟨left, by rw [List.append_assoc], ?_⟩
        rw [List.append_assoc, hleft]
    | eof | failed | timedOut => exact absurd rfl (pieces_ne_nil hfirst hbuffer)

theorem readHeaders_eq_error
    (hfirst : firstAt crlfCrlf (buffer ++ (pieces reads).flatten) = none) :
    ∃ e, readHeaders buffer reads = .error e := by
  induction reads generalizing buffer with
  | nil =>
    have hnone := firstAt_eq_none_of_isPrefix (List.prefix_append _ _) hfirst
    exact readHeaders_of_pieces_nil hnone rfl
  | cons read reads ih =>
    have hnone := firstAt_eq_none_of_isPrefix (List.prefix_append _ _) hfirst
    cases read with
    | data chunk =>
      rw [readHeaders_data hnone]
      rw [pieces, List.flatten_cons, ← List.append_assoc] at hfirst
      exact ih hfirst
    | eof | failed | timedOut => exact readHeaders_of_pieces_nil hnone rfl

theorem readBody_of_le (hbody : total ≤ body.length) :
    readBody total body reads = .ok (.ok body) := by
  rw [readBody.eq_def, if_neg (Nat.not_lt.2 hbody)]

theorem readBody_data (hbody : body.length < total) (chunk : Chunk) :
    readBody total body (.data chunk :: reads)
      = readBody total (body ++ chunk.val.take (total - body.length)) reads := by
  have htake : chunk.val.take (min (total - body.length) 8192)
      = chunk.val.take (total - body.length) := by
    rw [← List.take_take, List.take_of_length_le chunk.property.2]
  rw [readBody, if_pos hbody, sub, if_pos hbody.le]
  simp only [htake]

theorem readBody_of_pieces_nil (hbody : body.length < total) (hreads : pieces reads = []) :
    ∃ e, readBody total body reads = .ok (.error e) := by
  rcases reads with _ | ⟨_ | _ | _ | _, reads⟩ <;> unfold readBody <;>
    rw [if_pos hbody, sub, if_pos hbody.le]
  · exact ⟨_, rfl⟩
  · exact absurd hreads (List.cons_ne_nil _ _)
  · exact ⟨_, rfl⟩
  · exact ⟨_, rfl⟩
  · exact ⟨_, rfl⟩

/-- The second loop ends with the byte that completes the body. -/
theorem readBody_eq (htotal : total ≤ body.length + (pieces reads).flatten.length) :
    readBody total body reads
      = .ok (.ok (body ++ (pieces reads).flatten.take (total - body.length))) := by
  induction reads generalizing body with
  | nil =>
    rw [readBody_of_le (by simpa [pieces] using htotal)]
    simp [pieces]
  | cons read reads ih =>
    by_cases hbody : total ≤ body.length
    · rw [readBody_of_le hbody, Nat.sub_eq_zero_of_le hbody, List.take_zero, List.append_nil]
    have hlt : body.length < total := Nat.not_le.1 hbody
    cases read with
    | data chunk =>
      rw [pieces, List.flatten_cons, List.length_append] at htotal
      have hlen : (body ++ chunk.val.take (total - body.length)).length
          = body.length + min (total - body.length) chunk.val.length := by
        rw [List.length_append, List.length_take]
      have hleft : total - (body ++ chunk.val.take (total - body.length)).length
          = total - body.length - chunk.val.length := by omega
      rw [readBody_data hlt, ih (by omega), hleft, pieces, List.flatten_cons, List.take_append,
        List.append_assoc]
    | eof | failed | timedOut => exact absurd htotal hbody

theorem readBody_eq_error (htotal : body.length + (pieces reads).flatten.length < total) :
    ∃ e, readBody total body reads = .ok (.error e) := by
  induction reads generalizing body with
  | nil => exact readBody_of_pieces_nil (by omega) rfl
  | cons read reads ih =>
    cases read with
    | data chunk =>
      rw [pieces, List.flatten_cons, List.length_append] at htotal
      rw [readBody_data (by omega), List.take_of_length_le (by omega)]
      refine ih ?_
      rw [List.length_append]
      omega
    | eof | failed | timedOut => exact readBody_of_pieces_nil (by omega) rfl

/-! ## The header lines -/

/-- What a header does to a scan. -/
def scanField (lib : Library) (scan : Scan) (p : Text × Text) : Scan where
  builder :=
    if isFraming (p.1.map Char.toLower) then scan.builder else scan.builder.header lib p.1 p.2
  contentLength :=
    if p.1.map Char.toLower = "content-length".toList then parseUnsigned (2 ^ 64) p.2
    else scan.contentLength
  chunked := scan.chunked || decide (p.1.map Char.toLower = "transfer-encoding".toList
    ∧ p.2.map Char.toLower = "chunked".toList)

theorem scanLine_eq (scan : Scan) (line : Text) :
    scanLine lib scan line
      = match (splitOnce ':' line).map fun p => (trim p.1, trim p.2) with
        | some p => scanField lib scan p
        | none => scan := by
  unfold scanLine
  rcases splitOnce ':' line with _ | ⟨key, value⟩
  · rfl
  · have hdiff : "content-length".toList ≠ "transfer-encoding".toList := by decide
    have hframing : isFraming "content-length".toList = true := by decide
    simp only [Option.map_some, scanField]
    by_cases hlength : (trim key).map Char.toLower = "content-length".toList
    · simp only [hlength, hframing, hdiff, if_true, false_and, decide_false, Bool.or_false]
    · simp only [hlength, if_false]
      by_cases hchunked : (trim key).map Char.toLower = "transfer-encoding".toList
        ∧ (trim value).map Char.toLower = "chunked".toList
      · simp only [hchunked, and_self, if_true, decide_true, Bool.or_true]
        split_ifs <;> rfl
      · simp only [hchunked, if_false, decide_false, Bool.or_false]
        split_ifs <;> rfl

theorem foldl_scanField (headers : List (Text × Text)) :
    headers.foldl (scanField lib) ⟨.ok [], none, false⟩
      = ⟨(headers.filter fun p => !isFraming (p.1.map Char.toLower)).foldl
          (fun builder p => builder.header lib p.1 p.2) (.ok []),
        ((headers.filter fun p => p.1.map Char.toLower = "content-length".toList).map
          Prod.snd).getLast?.bind (parseUnsigned (2 ^ 64)),
        ((headers.filter fun p => p.1.map Char.toLower = "transfer-encoding".toList).map
          Prod.snd).any fun value => value.map Char.toLower = "chunked".toList⟩ := by
  induction headers using List.reverseRecOn with
  | nil => rfl
  | append_singleton headers p ih =>
    simp only [List.foldl_append, List.foldl_cons, List.foldl_nil, ih, scanField,
      List.filter_append, List.map_append, List.any_append, Scan.mk.injEq]
    refine ⟨?_, ?_, ?_⟩
    · by_cases hp : isFraming (p.1.map Char.toLower) = true
      · rw [if_pos hp, List.filter_cons_of_neg (by simp [hp])]
        rfl
      · rw [if_neg hp, List.filter_cons_of_pos (by simpa using hp)]
        rfl
    · by_cases hp : p.1.map Char.toLower = "content-length".toList
      · rw [if_pos hp, List.filter_cons, if_pos (decide_eq_true hp)]
        simp only [List.filter_nil, List.map_cons, List.map_nil, List.getLast?_append_cons,
          List.getLast?_singleton, Option.bind_some]
      · rw [if_neg hp, List.filter_cons, if_neg (by rw [decide_eq_true_iff]; exact hp)]
        simp only [List.filter_nil, List.map_nil, List.append_nil]
    · by_cases hp : p.1.map Char.toLower = "transfer-encoding".toList
      · rw [List.filter_cons, if_pos (decide_eq_true hp)]
        simp only [List.filter_nil, List.map_cons, List.map_nil, List.any_cons, List.any_nil,
          Bool.or_false, hp, true_and]
      · rw [List.filter_cons, if_neg (by rw [decide_eq_true_iff]; exact hp)]
        simp only [hp, false_and, decide_false, List.filter_nil, List.map_nil, List.any_nil]

/-- What the header lines say. -/
theorem foldl_scanLine (header : Text) :
    (splitCrlf header).tail.foldl (scanLine lib) ⟨.ok [], none, false⟩
      = ⟨relayed lib header, lastLength header, isChunked header⟩ := by
  have hfields : (splitCrlf header).tail.foldl (scanLine lib) ⟨.ok [], none, false⟩
      = (fields header).foldl (scanField lib) ⟨.ok [], none, false⟩ := by
    rw [fields, List.foldl_filterMap]
    congr 1
    funext scan line
    rw [scanLine_eq]
    cases splitOnce ':' line <;> rfl
  rw [hfields]
  exact foldl_scanField (fields header)

/-! ## The reply -/

theorem splitCrlf_eq_cons (header : Text) :
    splitCrlf header = statusLine header :: (splitCrlf header).tail := by
  unfold statusLine
  unfold splitCrlf
  split
  · rfl
  · rfl
  · split <;> rfl

/-- Without a length, the body is what has been read. -/
theorem rawReply_of_no_length (h : isChunked header = true ∨ lastLength header = none) :
    rawReply lib config header buffer reads
      = .ok (buildResponse (rawStatus config (statusLine header)) (relayed lib header) buffer) := by
  have hcond : (isChunked header || (lastLength header).isNone) = true := by
    simpa only [Bool.or_eq_true, Option.isNone_iff_eq_none] using h
  unfold rawReply
  rw [splitCrlf_eq_cons]
  simp only [foldl_scanLine, hcond, if_true]
  rfl

theorem length_of_not (h : ¬ (isChunked header = true ∨ lastLength header = none)) :
    isChunked header = false ∧ ∃ n, lastLength header = some n := by
  rw [not_or] at h
  exact ⟨by simpa using h.1, Option.ne_none_iff_exists'.1 h.2⟩

theorem rawReply_of_length (hchunked : isChunked header = false)
    (hlength : lastLength header = some total) :
    rawReply lib config header buffer reads
      = if total ≤ isizeMax then
          (readBody total buffer reads).map fun body => body.bind
            (buildResponse (rawStatus config (statusLine header)) (relayed lib header))
        else .error .capacityOverflow := by
  unfold rawReply
  rw [splitCrlf_eq_cons]
  simp only [foldl_scanLine, hchunked, hlength, Option.isNone_some, Bool.or_self, unwrap,
    withCapacity, Nat.mul_one, Bool.false_eq_true, if_false]
  change Except.bind (if total ≤ isizeMax then Except.ok () else _) _ = _
  split_ifs
  · change Except.bind (readBody total buffer reads) _ = _
    rcases readBody total buffer reads with panic | e | body <;> rfl
  · rfl

/-- The reply is made of the header block and what has been read past it. -/
theorem readRaw_eq (hfirst : firstAt crlfCrlf (pieces reads).flatten = some h) :
    ∃ left, (upTo (h + 4) (pieces reads)).drop (h + 4) ++ (pieces left).flatten
        = (pieces reads).flatten.drop (h + 4)
      ∧ readRaw lib config reads
        = match fromUtf8 ((pieces reads).flatten.take h) with
          | none => .ok (.error (.other "non-utf8 header"))
          | some header =>
            rawReply lib config header ((upTo (h + 4) (pieces reads)).drop (h + 4)) left := by
  have hlen : h + 4 ≤ (upTo (h + 4) (pieces reads)).length :=
    le_length_upTo (length_le_of_firstAt hfirst)
  have hempty : firstAt crlfCrlf ([] ++ (pieces reads).flatten) = some h := hfirst
  obtain ⟨left, hread, hleft⟩ := readHeaders_eq hempty (Nat.zero_lt_succ _)
  rw [List.length_nil, Nat.sub_zero, List.nil_append] at hread
  rw [List.length_nil, Nat.sub_zero] at hleft
  have htake : ((upTo (h + 4) (pieces reads)).take (h + 4)).take h
      = (pieces reads).flatten.take h := by
    rw [List.take_take, Nat.min_eq_left (by omega), ← hleft,
      List.take_append_of_le_length (by omega)]
  refine ⟨left, ?_, ?_⟩
  · rw [← List.drop_append_of_le_length hlen, hleft]
  · have hslice : h ≤ ((upTo (h + 4) (pieces reads)).take (h + 4)).length := by
      rw [List.length_take]
      omega
    unfold readRaw
    rw [hread]
    simp only [splitTo, if_pos hlen, sub, if_pos (Nat.le_add_left 4 h), Nat.add_sub_cancel,
      sliceTo]
    change Except.bind (if h ≤ _ then Except.ok _ else _) _ = _
    rw [if_pos hslice, htake]
    rfl

section Forward

variable {env : Env} {request : Request} {endpoint : Text} {head rest body' : Bytes} {n : ℕ}

theorem not_other_iff {method : Method} :
    ¬ (method ≠ .get ∧ method ≠ .head) ↔ method = .get ∨ method = .head := by
  rw [← not_or, not_not]

theorem forwardRawRequest_eq (hmethod : request.method = .get ∨ request.method = .head)
    (hwritten : Written env request endpoint) :
    forwardRawRequest lib config env request endpoint = readRaw lib config env.reads := by
  obtain ⟨hconnect, hnodelay, hwrite⟩ := hwritten
  unfold forwardRawRequest
  rw [if_neg (not_other_iff.2 hmethod)]
  simp only [hconnect, hnodelay, hwrite, Bool.false_eq_true, if_false]

theorem relays_buildResponse_iff (hheader : fromUtf8 head = some header) :
    Relays lib config head body
        (.ok (buildResponse (rawStatus config (statusLine header)) (relayed lib header) body'))
      ↔ Relayable lib head ∧ body' = body := by
  constructor
  · rintro ⟨header', headers, hheader', hbuilder, hresult⟩
    rw [hheader] at hheader'
    cases hheader'
    rw [hbuilder] at hresult
    refine ⟨⟨header, headers, hheader, hbuilder⟩, ?_⟩
    cases hresult
    rfl
  · rintro ⟨⟨header', headers, hheader', hbuilder⟩, rfl⟩
    rw [hheader] at hheader'
    cases hheader'
    exact ⟨header, headers, hheader, hbuilder, by rw [hbuilder]; rfl⟩

theorem lastLength_of_hasLength (hlength : HasLength head n)
    (hheader : fromUtf8 head = some header) :
    isChunked header = false ∧ lastLength header = if n < 2 ^ 64 then some n else none := by
  obtain ⟨hchunked, text, hvalues, hne, hdigits, hvalue⟩ := hlength header hheader
  refine ⟨hchunked, ?_⟩
  unfold lastLength
  rw [hvalues, List.getLast?_singleton, Option.bind_some,
    parseUnsigned_digits hne hdigits (Nat.two_pow_pos 64), hvalue]

/-- The reply to a request that is written is made of the header block, the `extra` bytes that have
been read past it and what the reads that are left return. -/
theorem forwardRawRequest_of_stream (hmethod : request.method = .get ∨ request.method = .head)
    (hwritten : Written env request endpoint) (hstream : stream env = head ++ crlfCrlf ++ rest)
    (hfirst : firstAt crlfCrlf (stream env) = some head.length) :
    ∃ extra left,
      (upTo (head.length + 4) (pieces env.reads)).length = head.length + 4 + extra.length
      ∧ extra.length < 8192 ∧ extra ++ (pieces left).flatten = rest
      ∧ forwardRawRequest lib config env request endpoint
        = match fromUtf8 head with
          | none => .ok (.error (.other "non-utf8 header"))
          | some header => rawReply lib config header extra left := by
  obtain ⟨left, hleft, hread⟩ := @readRaw_eq lib config _ _ hfirst
  have hhead : (pieces env.reads).flatten.take head.length = head := by
    rw [← stream, hstream, List.append_assoc, List.take_left]
  have hafter : (pieces env.reads).flatten.drop (head.length + 4) = rest := by
    have hblock : head.length + 4 = (head ++ crlfCrlf).length := by
      rw [List.length_append]
      rfl
    rw [← stream, hstream, hblock, List.drop_left]
  have hlen : head.length + 4 ≤ (upTo (head.length + 4) (pieces env.reads)).length :=
    le_length_upTo (length_le_of_firstAt hfirst)
  have hless : (upTo (head.length + 4) (pieces env.reads)).length < head.length + 4 + 8192 :=
    length_upTo_lt length_le_of_mem_pieces (Nat.zero_lt_succ _)
  refine ⟨(upTo (head.length + 4) (pieces env.reads)).drop (head.length + 4), left, ?_, ?_, ?_, ?_⟩
  · rw [List.length_drop]
    omega
  · rw [List.length_drop]
    omega
  · rw [hleft, hafter]
  · rw [forwardRawRequest_eq hmethod hwritten, hread, hhead]

/-- For every stream that begins with a header block with one `Content-Length`, and has that many
bytes after it, and every way it is read: the response to a GET has the status and the headers of
the block and exactly these bytes, if and only if the block can be relayed, the length is one that
can be allocated, and the read which completes the block ends within the body. -/
theorem relays_iff (lib : Library) (config : Config) (env : Env) (request : Request)
    (endpoint : Text) (head rest : Bytes) (n : ℕ) (hmethod : request.method = .get)
    (hwritten : Written env request endpoint) (hstream : stream env = head ++ crlfCrlf ++ rest)
    (hfirst : firstAt crlfCrlf (stream env) = some head.length) (hlength : HasLength head n)
    (hrest : n ≤ rest.length) :
    Relays lib config head (rest.take n) (forwardRawRequest lib config env request endpoint)
      ↔ Relayable lib head ∧ n ≤ isizeMax
        ∧ (upTo (head.length + 4) (pieces env.reads)).length ≤ head.length + 4 + n := by
  obtain ⟨extra, left, hlen, hless, hleft, hforward⟩ :=
    @forwardRawRequest_of_stream lib config _ _ _ _ _ (.inl hmethod) hwritten hstream hfirst
  rw [hforward, hlen]
  have htotal : extra.length + (pieces left).flatten.length = rest.length := by
    rw [← hleft, List.length_append]
  have htake : (rest.take n).length = n := by
    rw [List.length_take, Nat.min_eq_left hrest]
  rcases hheader : fromUtf8 head with _ | header
  · -- the code refuses a header block that is no text
    constructor
    · rintro ⟨header, -, hheader', -⟩
      simp [hheader] at hheader'
    · rintro ⟨⟨header, -, hheader', -⟩, -⟩
      simp [hheader] at hheader'
  obtain ⟨hchunked, hlast⟩ := lastLength_of_hasLength hlength hheader
  simp only
  split_ifs at hlast with hfits
  · rw [rawReply_of_length hchunked hlast]
    split_ifs with hsize
    · rw [readBody_eq (by omega)]
      change Relays lib config head (rest.take n) (.ok (buildResponse _ _ _)) ↔ _
      rw [relays_buildResponse_iff hheader]
      refine and_congr_right fun _ => ⟨fun hbody => ⟨hsize, ?_⟩, fun ⟨_, hle⟩ => ?_⟩
      · have hcount := congrArg List.length hbody
        rw [List.length_append, htake] at hcount
        omega
      · have hextra : extra.take n = extra := List.take_of_length_le (by omega)
        rw [← hleft, List.take_append, hextra]
    · refine ⟨?_, fun h => absurd h.2.1 hsize⟩
      rintro ⟨_, _, _, _, hresult⟩
      simp at hresult
  · -- more than a `usize`: the code takes the length for missing
    rw [rawReply_of_no_length (.inr hlast), relays_buildResponse_iff hheader]
    have hsize : ¬ n ≤ isizeMax := by
      unfold isizeMax
      omega
    refine ⟨fun h => ?_, fun h => absurd h.2.1 hsize⟩
    have hcount := congrArg List.length h.2
    rw [htake] at hcount
    omega

def plainGet : Request := ⟨.get, some ['/'], [], []⟩

def lengthBlock : Text := "HTTP/1.1 200 OK\r\nContent-Length: 2".toList

/-- The block and three bytes, in two reads that cut the end of the block and the body. -/
def cutReads : List Read :=
  [.data ⟨asBytes lengthBlock ++ [13, 10], by decide +kernel⟩, .data ⟨[13, 10, 104], by decide⟩,
    .data ⟨[105, 33], by decide⟩]

def cutEnv : Env := { plainEnv with reads := cutReads }

theorem stream_cutEnv : stream cutEnv = asBytes lengthBlock ++ crlfCrlf ++ [104, 105, 33] := by
  simp [stream, cutEnv, cutReads, pieces, crlfCrlf]

/-- What the block says and where it ends. -/
theorem lengthBlock_facts :
    fromUtf8 (asBytes lengthBlock) = some lengthBlock ∧ isChunked lengthBlock = false
      ∧ values contentLength lengthBlock = [['2']] ∧ relayed plainLibrary lengthBlock = .ok []
      ∧ firstAt crlfCrlf (asBytes lengthBlock ++ crlfCrlf ++ [104, 105, 33])
        = some (asBytes lengthBlock).length
      ∧ (upTo ((asBytes lengthBlock).length + 4) (pieces cutReads)).length
        = (asBytes lengthBlock).length + 5 := by
  decide +kernel

theorem hasLength_lengthBlock : HasLength (asBytes lengthBlock) 2 := by
  obtain ⟨hblock, hchunked, hvalues, -⟩ := lengthBlock_facts
  intro header hheader
  rw [hblock] at hheader
  cases hheader
  refine ⟨hchunked, ['2'], hvalues, List.cons_ne_nil _ _, ?_, rfl⟩
  intro c hc
  rw [List.mem_singleton.1 hc]
  rfl

theorem relays_iff_cut :
    Relays plainLibrary plainConfig (asBytes lengthBlock) [104, 105]
      (forwardRawRequest plainLibrary plainConfig cutEnv plainGet ['b']) := by
  obtain ⟨hblock, -, -, hrelayed, hfirst, hread⟩ := lengthBlock_facts
  refine (relays_iff _ _ cutEnv plainGet ['b'] (asBytes lengthBlock) [104, 105, 33] 2 rfl
    ⟨rfl, rfl, rfl⟩ stream_cutEnv (by rw [stream_cutEnv, hfirst]) hasLength_lengthBlock
    (by decide)).2 ⟨⟨lengthBlock, [], hblock, hrelayed⟩, by decide, ?_⟩
  exact hread.trans_le (by omega)

/-- The same bytes in one read: the third is in the body too. -/
theorem one_read_adds_to_body :
    ∃ chunk : Chunk, chunk.val = asBytes lengthBlock ++ crlfCrlf ++ [104, 105, 33]
      ∧ forwardRawRequest plainLibrary plainConfig { plainEnv with reads := [.data chunk] } plainGet
        ['b'] = .ok (.ok ⟨200, [], [104, 105, 33]⟩)
      ∧ ¬ Relays plainLibrary plainConfig (asBytes lengthBlock) [104, 105]
        (forwardRawRequest plainLibrary plainConfig { plainEnv with reads := [.data chunk] }
          plainGet ['b']) := by
  have hresult : forwardRawRequest plainLibrary plainConfig
      { plainEnv with reads := [.data ⟨asBytes lengthBlock ++ crlfCrlf ++ [104, 105, 33],
        by decide +kernel⟩] } plainGet ['b'] = .ok (.ok ⟨200, [], [104, 105, 33]⟩) := by
    decide +kernel
  refine ⟨_, rfl, hresult, ?_⟩
  rintro ⟨_, _, _, _, h⟩
  rw [hresult, Except.ok.injEq, Except.ok.injEq, Response.mk.injEq] at h
  exact absurd h.2.2 (by decide)

end Forward

end Http

end ProtocolProxy
