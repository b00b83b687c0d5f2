import ProtocolProxy.IpText

/-!
# An address is read back from its text

Each reader takes back what the printer wrote in front of anything that cannot continue it.  For
an IPv6 address the run of zeros the printer leaves out is a run of zeros
(`segments_eq_of_scanZeros`), so the parser's padding puts back exactly what is missing.

An IPv4 address has no other text (`Ipv4Addr.parse_eq_some`), and a text without a colon is no IPv6
address (`IpAddr.parse_of_colon_notMem`).
-/

namespace Net

open Digits

/-! ## IPv4 -/

theorem readOctet_octetText (o : UInt8) {rest : List Char}
    (h : ∀ c ∈ rest.head?, toDigit 10 c = none) :
    readOctet (octetText o ++ rest) = some (o, rest) := by
  have ho : o.toNat < 256 := o.toNat_lt
  unfold readOctet octetText
  rw [readNumber_toDigits (by omega) (by omega) (by omega) (by omega) ho h]
  simp

theorem readSeparator_cons {β : Type} {sep : Char} {inner : Reader β} {s : List Char} :
    readSeparator sep false inner (sep :: s) = inner s := by
  simp [readSeparator, readGivenChar]

theorem readIpv4Addr_text (ip : Ipv4Addr) {rest : List Char}
    (h : ∀ c ∈ rest.head?, toDigit 10 c = none) :
    readIpv4Addr (ip.text ++ rest) = some (ip, rest) := by
  have hdot : ∀ s : List Char, ∀ c ∈ ('.' :: s).head?, toDigit 10 c = none := by
    intro s c hc
    simp only [List.head?_cons, Option.mem_def, Option.some.injEq] at hc
    subst hc
    decide
  unfold readIpv4Addr Ipv4Addr.text
  simp only [List.append_assoc, List.cons_append]
  rw [show readSeparator '.' true readOctet = readOctet from rfl, readOctet_octetText ip.a (hdot _)]
  simp only [Option.bind_eq_bind, Option.bind_some, readSeparator_cons,
    readOctet_octetText ip.b (hdot _), readOctet_octetText ip.c (hdot _),
    readOctet_octetText ip.d h]
  rfl

theorem readIpv4Addr_whole (ip : Ipv4Addr) : readIpv4Addr ip.text = some (ip, []) := by
  have := readIpv4Addr_text ip (by simp : ∀ c ∈ ([] : List Char).head?, toDigit 10 c = none)
  rwa [List.append_nil] at this

theorem readOctet_suffix {s rest : List Char} {o : UInt8} (h : readOctet s = some (o, rest)) :
    rest <:+ s := by
  unfold readOctet at h
  rw [Option.map_eq_some_iff] at h
  obtain ⟨⟨n, r⟩, hr, he⟩ := h
  cases he
  exact readNumber_suffix hr

/-- A dotted quad has a dot. -/
theorem readIpv4Addr_eq_none {s : List Char} (h : '.' ∉ s) : readIpv4Addr s = none := by
  unfold readIpv4Addr
  rw [show readSeparator '.' true readOctet = readOctet from rfl]
  rcases ho : readOctet s with _ | ⟨o, rest⟩
  · rfl
  · have hrest : '.' ∉ rest := fun hc => h ((readOctet_suffix ho).subset hc)
    rcases rest with _ | ⟨c, rest⟩
    · rfl
    · have hc : c ≠ '.' := fun hc => hrest (hc ▸ List.mem_cons_self)
      simp [readSeparator, readGivenChar, hc]

/-! ## Segments -/

theorem readSegment_segmentText (g : UInt16) {rest : List Char}
    (h : ∀ c ∈ rest.head?, toDigit 16 c = none) :
    readSegment (segmentText g ++ rest) = some (g, rest) := by
  have hg : g.toNat < 65536 := g.toNat_lt
  unfold readSegment segmentText
  rw [readNumber_toDigits (by omega) (by omega) (by omega) (by omega) hg h]
  simp

theorem readSegment_colon (s : List Char) : readSegment (':' :: s) = none := by
  have : toDigit 16 ':' = none := by decide
  simp [readSegment, readNumber, this]

theorem readOctet_colon (s : List Char) : readOctet (':' :: s) = none := by
  have : toDigit 10 ':' = none := by decide
  simp [readOctet, readNumber, this]

theorem readIpv4Addr_colon (s : List Char) : readIpv4Addr (':' :: s) = none := by
  unfold readIpv4Addr
  rw [show readSeparator '.' true readOctet = readOctet from rfl, readOctet_colon]
  rfl

/-- The text of segments that follow others, unless they are the first. -/
def groupsText : Bool → List UInt16 → List Char
  | _, [] => []
  | first, g :: gs => (if first then [] else [':']) ++ (segmentText g ++ groupsText false gs)

theorem fmtSubslice_eq : ∀ gs : List UInt16, fmtSubslice gs = groupsText true gs
  | [] => rfl
  | [g] => by simp [fmtSubslice, groupsText]
  | g :: h :: gs => by
    rw [fmtSubslice, fmtSubslice_eq (h :: gs)]
    · simp [groupsText]
    · simp

theorem dot_notMem_segmentText (g : UInt16) : '.' ∉ segmentText g := by
  intro h
  have := isSome_toDigit_of_mem (b := 16) (by omega) (by omega) _ _ h
  revert this
  decide

theorem dot_notMem_groupsText : ∀ (first : Bool) (gs : List UInt16), '.' ∉ groupsText first gs
  | _, [] => by simp [groupsText]
  | first, g :: gs => by
    have h₁ := dot_notMem_segmentText g
    have h₂ := dot_notMem_groupsText false gs
    cases first <;> simp [groupsText, h₁, h₂]

theorem head_groupsText (gs : List UInt16) {rest : List Char}
    (h : ∀ c ∈ rest.head?, toDigit 16 c = none) :
    ∀ c ∈ (groupsText false gs ++ rest).head?, toDigit 16 c = none := by
  rcases gs with _ | ⟨g, gs⟩
  · exact h
  · intro c hc
    simp only [groupsText, Bool.false_eq_true, if_false, List.cons_append, List.nil_append,
      List.head?_cons, Option.mem_def, Option.some.injEq] at hc
    subst hc
    decide

theorem readSegment_group (first : Bool) (g : UInt16) (gs : List UInt16) {rest : List Char}
    (h : ∀ c ∈ rest.head?, toDigit 16 c = none) :
    readSeparator ':' first readSegment (groupsText first (g :: gs) ++ rest)
      = some (g, groupsText false gs ++ rest) := by
  have := readSegment_segmentText g (head_groupsText gs h)
  cases first
  · simpa [groupsText, readSeparator_cons] using this
  · simpa [groupsText, readSeparator] using this

theorem readIpv4Addr_group {first : Bool} {s : List Char} (h : '.' ∉ s) :
    readSeparator ':' first readIpv4Addr s = none := by
  rcases s with _ | ⟨c, s⟩
  · cases first <;> rfl
  · have hs : '.' ∉ s := fun hc => h (List.mem_cons_of_mem _ hc)
    cases first
    · by_cases hc : c = ':'
      · rw [hc, readSeparator_cons, readIpv4Addr_eq_none hs]
      · simp [readSeparator, readGivenChar, hc]
    · exact readIpv4Addr_eq_none h

theorem readGroups_quad {limit : ℕ} {first : Bool} {s rest : List Char} {v4 : Ipv4Addr}
    (hlimit : 0 < limit) (h : readSeparator ':' first readIpv4Addr s = some (v4, rest)) :
    readGroups (limit + 1) first s = (v4.toSegments, true, rest) := by
  simp only [readGroups, hlimit, if_true, h]

theorem readGroups_segment {limit : ℕ} {first : Bool} {s rest : List Char} {g : UInt16}
    (h₄ : readSeparator ':' first readIpv4Addr s = none)
    (h : readSeparator ':' first readSegment s = some (g, rest)) :
    readGroups (limit + 1) first s
      = (g :: (readGroups limit false rest).1, (readGroups limit false rest).2) := by
  simp only [readGroups, h₄, ite_self, h]

/-- The segments are read back, up to something that is no further segment. -/
theorem readGroups_groupsText : ∀ (gs : List UInt16) (limit : ℕ) (first : Bool) {rest : List Char},
    gs.length ≤ limit → '.' ∉ rest → (∀ c ∈ rest.head?, toDigit 16 c = none) →
      readSeparator ':' (first && gs.isEmpty) readSegment rest = none →
      readGroups limit first (groupsText first gs ++ rest) = (gs, false, rest)
  | [], 0, _, _, _, _, _, _ => rfl
  | [], limit + 1, first, rest, _, hdot, _, hstop => by
    simp only [List.isEmpty_nil, Bool.and_true] at hstop
    simp only [readGroups, groupsText, List.nil_append, readIpv4Addr_group hdot, ite_self, hstop]
  | g :: gs, 0, _, _, hlen, _, _, _ => by simp at hlen
  | g :: gs, limit + 1, first, rest, hlen, hdot, hhead, hstop => by
    have hd : '.' ∉ groupsText first (g :: gs) ++ rest := by
      simp only [List.mem_append, not_or]
      exact ⟨dot_notMem_groupsText _ _, hdot⟩
    have hstop' : readSeparator ':' (false && gs.isEmpty) readSegment rest = none := by
      simpa using hstop
    have ih := readGroups_groupsText gs limit false (by simpa using hlen) hdot hhead hstop'
    rw [readGroups_segment (readIpv4Addr_group hd) (readSegment_group first g gs hhead), ih]

/-! ## The run of zeros -/

/-- The run lies in the segments and holds only zeros. -/
def Span.Zeros (r : Span) (gs : List UInt16) : Prop :=
  r.start + r.len ≤ gs.length ∧ ∀ k, r.start ≤ k → k < r.start + r.len → gs[k]? = some 0

theorem Span.Zeros.append {r : Span} {gs : List UInt16} (h : r.Zeros gs) (hs : List UInt16) :
    r.Zeros (gs ++ hs) := by
  refine ⟨by simp only [List.length_append]; exact h.1.trans (by omega), fun k hk hk' => ?_⟩
  rw [List.getElem?_append_left (lt_of_lt_of_le hk' h.1)]
  exact h.2 k hk hk'

/-- One zero more makes the run that ends here longer. -/
theorem Span.Zeros.push {r : Span} {gs : List UInt16} (h : r.Zeros gs)
    (hend : r.len = 0 ∨ r.start + r.len = gs.length) :
    Span.Zeros ⟨if r.len = 0 then gs.length else r.start, r.len + 1⟩ (gs ++ [0]) := by
  have hlast : ∀ k, k = gs.length → (gs ++ [0])[k]? = some 0 := by
    rintro k rfl
    simp
  split_ifs with h0
  · refine ⟨by simp [h0], fun k hk hk' => hlast k ?_⟩
    simp only [h0] at hk hk'
    omega
  · have he := hend.resolve_left h0
    refine ⟨by simp only [List.length_append, List.length_singleton]; omega, fun k hk hk' => ?_⟩
    simp only at hk hk'
    by_cases hkl : k = gs.length
    · exact hlast k hkl
    · rw [List.getElem?_append_left (by omega)]
      exact h.2 k hk (by omega)

/-- The scan keeps a run of zeros in what it has seen: the longest one, and the one that ends
where it stands. -/
theorem scanZeros_zeros : ∀ (gs pre : List UInt16) {longest current : Span},
    longest.Zeros pre → current.Zeros pre →
      (current.len = 0 ∨ current.start + current.len = pre.length) →
      (scanZeros pre.length longest current gs).Zeros (pre ++ gs)
  | [], pre, longest, _, hl, _, _ => by simpa [scanZeros] using hl
  | g :: gs, pre, longest, current, hl, hc, hend => by
    have hlen : (pre ++ [g]).length = pre.length + 1 := by simp
    have happ : pre ++ g :: gs = (pre ++ [g]) ++ gs := by simp
    rw [scanZeros, happ, ← hlen]
    by_cases hg : g = 0
    · subst hg
      have hp := hc.push hend
      set next : Span := ⟨if current.len = 0 then pre.length else current.start, current.len + 1⟩
      have hend' : next.start + next.len = (pre ++ [0]).length := by
        simp only [hlen, next]
        split_ifs <;> omega
      rw [if_pos rfl]
      refine scanZeros_zeros gs (pre ++ [0]) ?_ hp (Or.inr hend')
      split_ifs
      · exact hp
      · exact hl.append _
    · rw [if_neg hg]
      exact scanZeros_zeros gs _ (hl.append _) ⟨by simp, fun k hk hk' => by simp at hk'⟩
        (Or.inl rfl)

/-- The segments around a run of zeros, with the zeros put back. -/
theorem Span.Zeros.split {r : Span} {gs : List UInt16} (h : r.Zeros gs) :
    gs = gs.take r.start ++ List.replicate r.len 0 ++ gs.drop (r.start + r.len) := by
  have hmid : (gs.drop r.start).take r.len = List.replicate r.len 0 := by
    apply List.ext_getElem?
    intro k
    rw [List.getElem?_take, List.getElem?_replicate]
    split_ifs with hk
    · rw [List.getElem?_drop]
      exact h.2 _ (by omega) (by omega)
    · rfl
  rw [← hmid, List.append_assoc, ← List.drop_drop, List.take_append_drop, List.take_append_drop]

theorem segments_eq_of_scanZeros (gs : List UInt16) :
    (scanZeros 0 ⟨0, 0⟩ ⟨0, 0⟩ gs).Zeros gs := by
  have h0 : Span.Zeros ⟨0, 0⟩ [] := ⟨by simp, fun k _ hk => by simp at hk⟩
  simpa using scanZeros_zeros gs [] h0 h0 (Or.inl rfl)

/-! ## IPv6 -/

theorem toNat_joinOctets (a b : UInt8) :
    (a.toUInt16 <<< 8 ||| b.toUInt16).toNat = a.toNat * 2 ^ 8 + b.toNat := by
  have ha : a.toNat < 2 ^ 8 := a.toNat_lt
  have hb : b.toNat < 2 ^ 8 := b.toNat_lt
  rw [UInt16.toNat_or, UInt16.toNat_shiftLeft]
  simp only [UInt8.toNat_toUInt16, UInt16.reduceToNat, Nat.reduceMod]
  rw [Nat.mod_eq_of_lt (by rw [Nat.shiftLeft_eq]; omega), ← Nat.shiftLeft_add_eq_or_of_lt hb,
    Nat.shiftLeft_eq]

theorem byte_split (g : UInt16) :
    (g >>> 8).toUInt8.toUInt16 <<< 8 ||| g.toUInt8.toUInt16 = g := by
  apply UInt16.toNat_inj.1
  have hg : g.toNat < 65536 := g.toNat_lt
  rw [toNat_joinOctets]
  simp only [UInt16.toNat_toUInt8, UInt16.toNat_shiftRight,
    show (8 : UInt16).toNat % 16 = 8 from rfl, Nat.shiftRight_eq_div_pow]
  omega

theorem readGroups_whole (gs : List UInt16) (limit : ℕ) (h : gs.length ≤ limit) :
    readGroups limit true (groupsText true gs) = (gs, false, []) := by
  have hstop : readSeparator ':' (true && gs.isEmpty) readSegment [] = none := by
    cases gs.isEmpty <;> rfl
  have := readGroups_groupsText gs limit true h (by simp) (by simp) hstop
  rwa [List.append_nil] at this

theorem readGroups_colon (limit : ℕ) (s : List Char) :
    readGroups limit true (':' :: s) = ([], false, ':' :: s) := by
  rcases limit with _ | limit
  · rfl
  · have h₁ : readSeparator ':' true readIpv4Addr (':' :: s) = none := readIpv4Addr_colon s
    have h₂ : readSeparator ':' true readSegment (':' :: s) = none := readSegment_colon s
    simp only [readGroups, h₁, h₂, ite_self]

/-- The dotted quad at the end of an IPv4-mapped address fills its last two segments. -/
theorem readGroups_mapped (v4 : Ipv4Addr) :
    readGroups 7 true ("ffff:".toList ++ v4.text) = (0xffff :: v4.toSegments, true, []) := by
  have hffff : "ffff:".toList ++ v4.text = segmentText 0xffff ++ ':' :: v4.text := by
    rw [show "ffff:".toList = segmentText 0xffff ++ [':'] by decide]
    simp
  have hcolon : ∀ c ∈ (':' :: v4.text).head?, toDigit 16 c = none := by
    intro c hc
    simp only [List.head?_cons, Option.mem_def, Option.some.injEq] at hc
    subst hc
    decide
  have hseg : readSeparator ':' true readSegment ("ffff:".toList ++ v4.text)
      = some (0xffff, ':' :: v4.text) := by
    rw [hffff]
    exact readSegment_segmentText 0xffff hcolon
  have hv4 : readSeparator ':' true readIpv4Addr ("ffff:".toList ++ v4.text) = none := by
    have hf : toDigit 10 'f' = none := by decide
    have ho : readOctet ("ffff:".toList ++ v4.text) = none := by
      simp [readOctet, readNumber, hf]
    simp only [readSeparator, if_true, readIpv4Addr, ho]
    rfl
  have hquad : readSeparator ':' false readIpv4Addr (':' :: v4.text) = some (v4, []) := by
    rw [readSeparator_cons, readIpv4Addr_whole]
  rw [readGroups_segment hv4 hseg, readGroups_quad (by omega) hquad]

theorem toIpv4Mapped_eq_some {ip : Ipv6Addr} {v4 : Ipv4Addr} (h : ip.toIpv4Mapped = some v4) :
    ip.segments = [0, 0, 0, 0, 0, 0xffff] ++ v4.toSegments := by
  unfold Ipv6Addr.toIpv4Mapped at h
  split at h
  · rename_i g k heq
    cases h
    rw [heq]
    simp only [Ipv4Addr.toSegments, byte_split]
    rfl
  · cases h

theorem ofSegments_segments (ip : Ipv6Addr) : ofSegments ip.segments = some ip := by
  simp [ofSegments, ip.length_eq]

theorem readIpv6Addr_text (ip : Ipv6Addr) : readIpv6Addr ip.text = some (ip, []) := by
  unfold Ipv6Addr.text
  rcases hm : ip.toIpv4Mapped with _ | v4
  · simp only [fmtSubslice_eq]
    have hz := segments_eq_of_scanZeros ip.segments
    set r := scanZeros 0 ⟨0, 0⟩ ⟨0, 0⟩ ip.segments
    have hle : r.start + r.len ≤ 8 := by
      have := hz.1
      rwa [ip.length_eq] at this
    split_ifs with hlen
    · set front := ip.segments.take r.start with hfront
      set back := ip.segments.drop (r.start + r.len) with hback
      have hfl : front.length = r.start := by
        rw [hfront, List.length_take, ip.length_eq]
        omega
      have hbl : back.length = 8 - (r.start + r.len) := by
        rw [hback, List.length_drop, ip.length_eq]
      have hhead : ∀ c ∈ (':' :: ':' :: groupsText true back).head?, toDigit 16 c = none := by
        intro c hc
        simp only [List.head?_cons, Option.mem_def, Option.some.injEq] at hc
        subst hc
        decide
      have hdot : '.' ∉ ':' :: ':' :: groupsText true back := by
        have := dot_notMem_groupsText true back
        simp [this]
      -- after the front, a colon and then another one: no further segment
      have hend : readSeparator ':' (true && front.isEmpty) readSegment
          (':' :: ':' :: groupsText true back) = none := by
        cases front.isEmpty
        · rw [Bool.and_false, readSeparator_cons, readSegment_colon]
        · exact readSegment_colon (':' :: groupsText true back)
      have h₁ := readGroups_groupsText front 8 true (by omega) hdot hhead hend
      have h₂ := readGroups_whole back (8 - (front.length + 1)) (by omega)
      have hpad : front ++ List.replicate (8 - front.length - back.length) 0 ++ back
          = ip.segments := by
        rw [show 8 - front.length - back.length = r.len by omega]
        exact hz.split.symm
      simp only [readIpv6Addr, h₁, show ¬ front.length = 8 by omega, if_false, Bool.false_eq_true,
        readGivenChar, if_true, Option.bind_eq_bind, Option.bind_some, h₂, hpad,
        ofSegments_segments]
      rfl
    · have h₁ := readGroups_whole ip.segments 8 ip.length_eq.le
      simp only [readIpv6Addr, h₁, ip.length_eq, if_true, ofSegments_segments]
      rfl
  · have htail := readGroups_mapped v4
    have hpad : [] ++ List.replicate (8 - 0 - (0xffff :: v4.toSegments).length) 0
        ++ (0xffff :: v4.toSegments) = ip.segments := by
      rw [toIpv4Mapped_eq_some hm]
      rfl
    have htext : "::ffff:".toList ++ v4.text = ':' :: ':' :: ("ffff:".toList ++ v4.text) := rfl
    simp only [htext, readIpv6Addr, readGroups_colon, List.length_nil, readGivenChar, if_true,
      Option.bind_eq_bind, Option.bind_some, Bool.false_eq_true, if_false, htail, hpad,
      ofSegments_segments, show ¬ (0 = 8) by decide, show 8 - (0 + 1) = 7 by decide]
    rfl

/-! ## Both families -/

theorem readIpv4Addr_v6_text (ip : Ipv6Addr) : readIpv4Addr ip.text = none := by
  unfold Ipv6Addr.text
  rcases hm : ip.toIpv4Mapped with _ | v4
  · apply readIpv4Addr_eq_none
    simp only [fmtSubslice_eq]
    split_ifs
    · simp [dot_notMem_groupsText]
    · exact dot_notMem_groupsText _ _
  · exact readIpv4Addr_colon _

/-- The text of an address parses back to the address. -/
theorem IpAddr.parse_text (ip : IpAddr) : IpAddr.parse ip.text = some ip := by
  cases ip with
  | v4 ip =>
    simp only [IpAddr.parse, IpAddr.text, readIpAddr, readIpv4Addr_whole]
  | v6 ip =>
    simp only [IpAddr.parse, IpAddr.text, readIpAddr, readIpv4Addr_v6_text, readIpv6Addr_text,
      Option.map_some]

theorem colon_notMem_octetText (o : UInt8) : ':' ∉ octetText o := by
  intro h
  have := isSome_toDigit_of_mem (b := 10) (by omega) (by omega) _ _ h
  revert this
  decide

theorem colon_notMem_v4_text (ip : Ipv4Addr) : ':' ∉ ip.text := by
  simp [Ipv4Addr.text, colon_notMem_octetText]

theorem colon_mem_groupsText {gs : List UInt16} (h : 1 < gs.length) (first : Bool) :
    ':' ∈ groupsText first gs := by
  rcases gs with _ | ⟨g, _ | ⟨k, gs⟩⟩
  · simp at h
  · simp at h
  · simp [groupsText]

theorem colon_mem_v6_text (ip : Ipv6Addr) : ':' ∈ ip.text := by
  unfold Ipv6Addr.text
  rcases ip.toIpv4Mapped with _ | v4
  · simp only [fmtSubslice_eq]
    split_ifs
    · simp
    · exact colon_mem_groupsText (by rw [ip.length_eq]; omega) true
  · simp

/-! ## From what is read back to the text -/

theorem eq_octetText_of_readOctet {s rest : List Char} {o : UInt8}
    (h : readOctet s = some (o, rest)) : s = octetText o ++ rest := by
  unfold readOctet at h
  rw [Option.map_eq_some_iff] at h
  obtain ⟨⟨n, r⟩, hr, he⟩ := h
  cases he
  have hn : n < 256 := by
    simp only [readNumber] at hr
    split_ifs at hr with _ _ hlt
    cases hr
    exact hlt
  have ho : (UInt8.ofNat n).toNat = n := UInt8.toNat_ofNat_of_lt' hn
  rw [octetText, ho]
  exact eq_toDigits_of_readNumber hr

theorem eq_cons_of_readSeparator {β : Type} {sep : Char} {inner : Reader β} {s rest : List Char}
    {x : β} (h : readSeparator sep false inner s = some (x, rest)) :
    ∃ s', s = sep :: s' ∧ inner s' = some (x, rest) := by
  rcases s with _ | ⟨c, s⟩
  · simp [readSeparator, readGivenChar] at h
  · by_cases hc : c = sep
    · subst hc
      rw [readSeparator_cons] at h
      exact ⟨s, rfl, h⟩
    · simp [readSeparator, readGivenChar, hc] at h

theorem eq_text_of_readIpv4Addr {s rest : List Char} {ip : Ipv4Addr}
    (h : readIpv4Addr s = some (ip, rest)) : s = ip.text ++ rest := by
  unfold readIpv4Addr at h
  simp only [Option.bind_eq_bind, Option.bind_eq_some_iff, Prod.exists] at h
  obtain ⟨a, sa, ha, b, sb, hb, c, sc, hc, d, sd, hd, heq⟩ := h
  cases heq
  obtain ⟨tb, rfl, hb'⟩ := eq_cons_of_readSeparator hb
  obtain ⟨tc, rfl, hc'⟩ := eq_cons_of_readSeparator hc
  obtain ⟨td, rfl, hd'⟩ := eq_cons_of_readSeparator hd
  rw [eq_octetText_of_readOctet ha, eq_octetText_of_readOctet hb', eq_octetText_of_readOctet hc',
    eq_octetText_of_readOctet hd']
  simp [Ipv4Addr.text]

theorem Ipv4Addr.parse_eq_some {s : List Char} {ip : Ipv4Addr} :
    Ipv4Addr.parse s = some ip ↔ s = ip.text := by
  constructor
  · intro h
    unfold Ipv4Addr.parse at h
    split at h
    · rename_i ip' hread
      cases h
      rw [eq_text_of_readIpv4Addr hread, List.append_nil]
    · simp at h
  · rintro rfl
    simp [Ipv4Addr.parse, readIpv4Addr_whole]

theorem readSeparator_eq_none {β : Type} {sep : Char} {inner : Reader β} {s : List Char}
    (h : sep ∉ s) : readSeparator sep false inner s = none := by
  rcases s with _ | ⟨c, s⟩
  · rfl
  · have hc : c ≠ sep := by
      rintro rfl
      simp at h
    simp [readSeparator, readGivenChar, hc]

theorem readSegment_suffix {s rest : List Char} {g : UInt16} (h : readSegment s = some (g, rest)) :
    rest <:+ s := by
  unfold readSegment at h
  rw [Option.map_eq_some_iff] at h
  obtain ⟨⟨n, r⟩, hr, he⟩ := h
  cases he
  exact readNumber_suffix hr

theorem readSeparator_first {β : Type} {sep : Char} {inner : Reader β} {s : List Char} :
    readSeparator sep true inner s = inner s := rfl

/-- Without a colon at most one group is read. -/
theorem readGroups_of_colon_notMem {s : List Char} (h : ':' ∉ s) (h₄ : readIpv4Addr s = none) :
    ∃ gs rest, readGroups 8 true s = (gs, false, rest) ∧ gs.length ≤ 1 ∧ ':' ∉ rest := by
  rcases hg : readSegment s with _ | ⟨g, rest⟩
  · exact ⟨[], s, by simp [readGroups, readSeparator_first, h₄, hg], by simp, h⟩
  · have hrest : ':' ∉ rest := fun hc => h ((readSegment_suffix hg).subset hc)
    have hstop : readGroups 7 false rest = ([], false, rest) := by
      simp [readGroups, readSeparator_eq_none hrest]
    have h₄' : readSeparator ':' true readIpv4Addr s = none := h₄
    have hg' : readSeparator ':' true readSegment s = some (g, rest) := hg
    exact ⟨[g], rest, by rw [readGroups_segment h₄' hg', hstop], by simp, hrest⟩

/-- An IPv6 address has a colon. -/
theorem readIpv6Addr_eq_none {s : List Char} (h : ':' ∉ s) (h₄ : readIpv4Addr s = none) :
    readIpv6Addr s = none := by
  obtain ⟨gs, rest, hgroups, hlen, hrest⟩ := readGroups_of_colon_notMem h h₄
  have hcolon : readGivenChar ':' rest = none := by
    rcases rest with _ | ⟨c, rest⟩
    · rfl
    · have hc : c ≠ ':' := by
        rintro rfl
        simp at hrest
      simp [readGivenChar, hc]
  have h8 : gs.length ≠ 8 := by omega
  simp [readIpv6Addr, hgroups, h8, hcolon]

theorem IpAddr.parse_of_colon_notMem {s : List Char} (h : ':' ∉ s) :
    IpAddr.parse s = (Ipv4Addr.parse s).map .v4 := by
  unfold IpAddr.parse Ipv4Addr.parse readIpAddr
  rcases h₄ : readIpv4Addr s with _ | ⟨ip, rest⟩
  · simp [readIpv6Addr_eq_none h h₄]
  · rcases rest with _ | ⟨c, rest⟩ <;> simp

end Net
