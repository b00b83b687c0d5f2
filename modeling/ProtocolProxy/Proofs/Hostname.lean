import ProtocolProxy.Hostname
import ProtocolProxy.Proofs.IpText

/-!
# Which host names are accepted

A name with dots is accepted exactly if its pieces are labels, and a dotted quad is such a name.  A
name without a dot is only looked at character by character, so the two rules on a label's length
and its hyphens do not apply to it.
-/

namespace ProtocolProxy

open Net Digits

variable {s host port label : Text} {c : Char}

/-! ## Characters and bytes -/

theorem isLabelChar_iff : isLabelChar c = true ↔ (c.isAlphanum = true ∨ c = '-') := by
  simp [isLabelChar]

theorem all_isLabelChar_iff :
    s.all isLabelChar = true ↔ ∀ c ∈ s, c.isAlphanum = true ∨ c = '-' := by
  simp only [List.all_eq_true, isLabelChar_iff]

theorem toNat_lt_of_isLabelChar (h : c.isAlphanum = true ∨ c = '-') : c.toNat < 128 := by
  rcases h with h | rfl
  · simp only [Char.isAlphanum, Char.isAlpha, Char.isUpper, Char.isLower, Char.isDigit,
      Bool.or_eq_true, Bool.and_eq_true, decide_eq_true_eq, ge_iff_le,
      UInt32.le_iff_toNat_le] at h
    change (65 ≤ c.toNat ∧ c.toNat ≤ 90 ∨ 97 ≤ c.toNat ∧ c.toNat ≤ 122)
      ∨ 48 ≤ c.toNat ∧ c.toNat ≤ 57 at h
    omega
  · decide

theorem utf8Size_of_isLabelChar (h : c.isAlphanum = true ∨ c = '-') : c.utf8Size = 1 := by
  have hlt := toNat_lt_of_isLabelChar h
  rw [Char.utf8Size_eq_one_iff, UInt32.le_iff_toNat_le]
  change c.toNat ≤ 127
  omega

theorem byteLen_of_labelChars : ∀ {s : Text}, (∀ c ∈ s, c.isAlphanum = true ∨ c = '-') →
    byteLen s = s.length
  | [], _ => rfl
  | c :: s, h => by
    obtain ⟨hc, hs⟩ := List.forall_mem_cons.1 h
    have htail := byteLen_of_labelChars hs
    unfold byteLen at htail ⊢
    rw [List.map_cons, List.sum_cons, htail, utf8Size_of_isLabelChar hc, List.length_cons]
    omega

theorem length_le_byteLen : ∀ s : Text, s.length ≤ byteLen s
  | [] => le_rfl
  | c :: s => by
    have htail := length_le_byteLen s
    have hc := c.utf8Size_pos
    unfold byteLen at htail ⊢
    rw [List.map_cons, List.sum_cons, List.length_cons]
    omega

theorem dot_not_labelChar : ¬ (('.' : Char).isAlphanum = true ∨ '.' = '-') := by decide

theorem colon_not_labelChar : ¬ ((':' : Char).isAlphanum = true ∨ ':' = '-') := by decide

/-! ## Labels -/

theorem isValidLabel_iff : isValidLabel label = true ↔ IsLabel label := by
  have hlength : (∀ c ∈ label, c.isAlphanum = true ∨ c = '-') → byteLen label = label.length :=
    byteLen_of_labelChars
  have hpos : label.isEmpty = true ↔ ¬ 1 ≤ label.length := by
    cases label <;> simp
  unfold isValidLabel IsLabel
  split_ifs with hsize hhyphen
  · simp only [Bool.or_eq_true, decide_eq_true_eq, hpos] at hsize
    simp only [false_iff]
    rintro ⟨hone, hle, hchars, -⟩
    rw [hlength hchars] at hsize
    omega
  · simp only [Bool.or_eq_true, decide_eq_true_eq] at hhyphen
    simp only [false_iff]
    rintro ⟨-, -, -, hhead, hlast⟩
    rcases hhyphen with h | h
    · exact hhead h
    · exact hlast h
  · simp only [Bool.or_eq_true, decide_eq_true_eq, hpos, not_or, not_not] at hsize
    simp only [Bool.or_eq_true, decide_eq_true_eq, not_or] at hhyphen
    rw [all_isLabelChar_iff]
    constructor
    · intro hchars
      rw [hlength hchars] at hsize
      exact ⟨hsize.1, by omega, hchars, hhyphen⟩
    · rintro ⟨-, -, hchars, -⟩
      exact hchars

theorem IsLabel.dot_notMem (h : IsLabel label) : '.' ∉ label :=
  fun hdot => dot_not_labelChar (h.2.2.1 _ hdot)

theorem IsLabel.colon_notMem (h : IsLabel label) : ':' ∉ label :=
  fun hcolon => colon_not_labelChar (h.2.2.1 _ hcolon)

/-! ## Hosts -/

/-- The characters of labels that are put together are theirs and the dots between them. -/
theorem mem_intercalate {x : Char} : ∀ {labels : List Text},
    x ∈ ['.'].intercalate labels → x = '.' ∨ ∃ l ∈ labels, x ∈ l
  | [], h => by simp at h
  | [l], h => .inr ⟨l, by simp, by simpa using h⟩
  | l :: l' :: labels, h => by
    rw [List.intercalate_cons_cons] at h
    rcases List.mem_append.1 h with h | h
    · rcases List.mem_append.1 h with h | h
      · exact .inr ⟨l, by simp, h⟩
      · exact .inl (by simpa using h)
    · rcases mem_intercalate h with h | ⟨m, hm, hx⟩
      · exact .inl h
      · exact .inr ⟨m, List.mem_cons_of_mem _ hm, hx⟩

theorem IsHost.colon_notMem (h : IsHost host) : ':' ∉ host := by
  obtain ⟨-, -, labels, -, hlabels, rfl⟩ := h
  intro hcolon
  rcases mem_intercalate hcolon with hdot | ⟨l, hl, hcolon⟩
  · exact absurd hdot (by decide)
  · exact (hlabels l hl).colon_notMem hcolon

/-- A host's labels are the pieces between its dots. -/
theorem isHost_iff : IsHost host
    ↔ 1 ≤ byteLen host ∧ byteLen host ≤ 253 ∧ (host.splitOn '.').all isValidLabel = true := by
  simp only [List.all_eq_true, isValidLabel_iff]
  constructor
  · rintro ⟨hone, hle, labels, hne, hlabels, rfl⟩
    refine ⟨hone, hle, fun l hl => hlabels l ?_⟩
    rwa [List.splitOn_intercalate '.' (fun l hl => (hlabels l hl).dot_notMem) hne] at hl
  · rintro ⟨hone, hle, hlabels⟩
    exact ⟨hone, hle, host.splitOn '.', List.splitOn_ne_nil _ _, hlabels,
      (List.intercalate_splitOn '.').symm⟩

/-! ### Dotted quads -/

theorem isDigit_of_toDigit (h : (toDigit 10 c).isSome = true) : c.isDigit = true := by
  obtain ⟨d, hd⟩ := Option.isSome_iff_exists.1 h
  obtain ⟨hlt, rfl⟩ := eq_digitChar_of_toDigit hd
  interval_cases d <;> rfl

theorem isLabel_of_digits (hne : label ≠ []) (hle : label.length ≤ 3)
    (hdigits : ∀ c ∈ label, c.isDigit = true) : IsLabel label := by
  have hhyphen : '-' ∉ label := fun h => absurd (hdigits _ h) (by decide)
  refine ⟨List.length_pos_iff.2 hne, by omega, fun c hc => .inl ?_, fun h => ?_, fun h => ?_⟩
  · simp [Char.isAlphanum, hdigits c hc]
  · exact hhyphen (List.mem_of_mem_head? h)
  · exact hhyphen (List.mem_of_mem_getLast? h)

theorem isLabel_octetText (o : UInt8) : IsLabel (octetText o) := by
  have ho := o.toNat_lt
  have hlen : (octetText o).length ≤ 3 :=
    (Nat.length_toDigits_le_iff (by omega) (by omega)).2 (by omega)
  refine isLabel_of_digits Nat.toDigits_ne_nil hlen fun c hc => isDigit_of_toDigit ?_
  exact isSome_toDigit_of_mem (by omega) (by omega) o.toNat c hc

/-- A dotted quad is four labels. -/
theorem labels_of_parse (h : (Ipv4Addr.parse host).isSome = true) :
    ∃ labels, labels ≠ [] ∧ (∀ l ∈ labels, IsLabel l) ∧ host = ['.'].intercalate labels := by
  obtain ⟨ip, hip⟩ := Option.isSome_iff_exists.1 h
  have htext : host = ip.text := Ipv4Addr.parse_eq_some.1 hip
  refine ⟨[octetText ip.a, octetText ip.b, octetText ip.c, octetText ip.d], by simp, ?_, ?_⟩
  · simp [isLabel_octetText]
  · simp [htext, Ipv4Addr.text, List.intercalate_cons_cons]

/-! ### Names without a port -/

theorem isHost_of_loose_iff (hchars : ∀ c ∈ host, c.isAlphanum = true ∨ c = '-')
    (hone : 1 ≤ host.length) (hle : host.length ≤ 253) : IsHost host ↔ ¬ LooseName host := by
  have hdot : '.' ∉ host := fun h => dot_not_labelChar (hchars _ h)
  have hbytes : byteLen host = host.length := byteLen_of_labelChars hchars
  rw [isHost_iff, List.splitOn_eq_singleton hdot]
  simp only [List.all_cons, List.all_nil, Bool.and_true, isValidLabel_iff, hbytes]
  unfold IsLabel LooseName
  constructor
  · rintro ⟨-, -, -, h63, -, hhead, hlast⟩ ⟨-, -, -, hlong | hhead' | hlast'⟩
    · omega
    · exact hhead hhead'
    · exact hlast hlast'
  · intro h
    have h' : ¬ (63 < host.length ∨ host.head? = some '-' ∨ host.getLast? = some '-') :=
      fun hbad => h ⟨hone, hle, hchars, hbad⟩
    rw [not_or, not_or] at h'
    exact ⟨hone, hle, hone, by omega, hchars, h'.2⟩

/-- What is accepted is a host, or a name without a dot to which the rules on labels are not
applied. -/
theorem accepted_iff : (¬ (host.isEmpty = true ∨ 253 < byteLen host)
      ∧ ((Ipv4Addr.parse host).isSome = true
        ∨ (host.splitOn '.').all isValidLabel = true ∧ host.contains '.' = true
        ∨ host.all isLabelChar = true))
    ↔ IsHost host ∨ LooseName host := by
  have hnil : host.isEmpty = true ↔ ¬ 1 ≤ host.length := by
    cases host <;> simp
  have hbytes := length_le_byteLen host
  rw [hnil, not_or, not_not]
  constructor
  · rintro ⟨⟨hone, hle⟩, hip | ⟨hlabels, -⟩ | hall⟩
    · exact .inl ⟨by omega, by omega, labels_of_parse hip⟩
    · exact .inl (isHost_iff.2 ⟨by omega, by omega, hlabels⟩)
    · by_cases hloose : LooseName host
      · exact .inr hloose
      · exact .inl ((isHost_of_loose_iff (all_isLabelChar_iff.1 hall) hone (by omega)).2 hloose)
  · rintro (hhost | ⟨hone, hle, hchars, -⟩)
    · obtain ⟨hone, hle, hlabels⟩ := isHost_iff.1 hhost
      have hpos : 1 ≤ host.length := by
        by_contra hzero
        obtain rfl : host = [] := List.length_eq_zero_iff.1 (by omega)
        exact absurd hone (by decide)
      refine ⟨⟨hpos, by omega⟩, .inr ?_⟩
      by_cases hdot : '.' ∈ host
      · exact .inl ⟨hlabels, by simpa using hdot⟩
      · rw [List.splitOn_eq_singleton hdot] at hlabels
        simp only [List.all_cons, List.all_nil, Bool.and_true, isValidLabel_iff] at hlabels
        exact .inr (all_isLabelChar_iff.2 hlabels.2.2.1)
    · rw [byteLen_of_labelChars hchars]
      exact ⟨⟨hone, by omega⟩, .inr (.inr (all_isLabelChar_iff.2 hchars))⟩

/-! ## The port -/

theorem rsplitOnce_eq_none : rsplitOnce c s = none ↔ c ∉ s := by
  unfold rsplitOnce
  rw [Option.map_eq_none_iff, splitOnce_eq_none, List.mem_reverse]

theorem rsplitOnce_eq_some {a b : Text} :
    rsplitOnce c s = some (a, b) ↔ s = a ++ c :: b ∧ c ∉ b := by
  unfold rsplitOnce
  simp only [Option.map_eq_some_iff, Prod.exists, Prod.mk.injEq]
  constructor
  · rintro ⟨b', a', h, rfl, rfl⟩
    obtain ⟨hs, hc⟩ := splitOnce_eq_some.1 h
    refine ⟨?_, by simpa using hc⟩
    rw [← List.reverse_reverse s, hs]
    simp
  · rintro ⟨rfl, hc⟩
    exact ⟨b.reverse, a.reverse, splitOnce_eq_some.2 ⟨by simp, by simpa using hc⟩, by simp, by simp⟩

theorem hostnamePart_of_port (hne : port ≠ []) (hdigits : ∀ c ∈ port, c.isDigit = true) :
    hostnamePart (host ++ ':' :: port) = host := by
  have hcolon : ':' ∉ port := fun h => absurd (hdigits _ h) (by decide)
  have hsplit : rsplitOnce ':' (host ++ ':' :: port) = some (host, port) :=
    rsplitOnce_eq_some.2 ⟨rfl, hcolon⟩
  have hport : (!port.isEmpty && port.all Char.isDigit) = true := by
    rw [Bool.and_eq_true, List.all_eq_true]
    exact ⟨by simpa using hne, hdigits⟩
  simp only [hostnamePart, hsplit, hport, if_true]

theorem hostnamePart_cases (s : Text) : hostnamePart s = s
    ∨ ∃ port, port ≠ [] ∧ (∀ c ∈ port, c.isDigit = true) ∧ s = hostnamePart s ++ ':' :: port := by
  rcases hsplit : rsplitOnce ':' s with _ | ⟨host, port⟩
  · left
    simp only [hostnamePart, hsplit]
  · by_cases hport : (!port.isEmpty && port.all Char.isDigit) = true
    · right
      rw [Bool.and_eq_true, List.all_eq_true] at hport
      obtain ⟨rfl, -⟩ := rsplitOnce_eq_some.1 hsplit
      have hne : port ≠ [] := by simpa using hport.1
      exact ⟨port, hne, hport.2, by rw [hostnamePart_of_port hne hport.2]⟩
    · left
      simp only [hostnamePart, hsplit, hport, if_false, Bool.false_eq_true]

theorem isHostname_iff : IsHostname s ↔ IsHost (hostnamePart s) := by
  constructor
  · rintro (h | ⟨host, port, hhost, hne, hdigits, rfl⟩)
    · have hsplit : rsplitOnce ':' s = none := rsplitOnce_eq_none.2 h.colon_notMem
      simp only [hostnamePart, hsplit]
      exact h
    · rw [hostnamePart_of_port hne hdigits]
      exact hhost
  · intro h
    rcases hostnamePart_cases s with heq | ⟨port, hne, hdigits, heq⟩
    · rw [heq] at h
      exact .inl h
    · exact .inr ⟨hostnamePart s, port, h, hne, hdigits, heq⟩

theorem isValidHostname_iff :
    isValidHostname s = true ↔ IsHost (hostnamePart s) ∨ LooseName (hostnamePart s) := by
  rw [← accepted_iff]
  simp only [isValidHostname]
  split_ifs with hempty hsize hip
  · obtain rfl : s = [] := by simpa using hempty
    simp [hostnamePart, rsplitOnce, splitOnce]
  · simp only [Bool.or_eq_true, decide_eq_true_eq] at hsize
    exact ⟨fun h => absurd h (by simp), fun h => absurd hsize h.1⟩
  · simp only [Bool.or_eq_true, decide_eq_true_eq] at hsize
    exact ⟨fun _ => ⟨hsize, .inl hip⟩, fun _ => rfl⟩
  · simp only [Bool.or_eq_true, decide_eq_true_eq] at hsize
    rw [Bool.or_eq_true, Bool.and_eq_true]
    exact ⟨fun h => ⟨hsize, .inr h⟩, fun h => h.2.resolve_left hip⟩

/-- A name is accepted exactly if it is in the grammar, unless what stands before its port is a name
without a dot that is too long for a label or has a hyphen at an end. -/
theorem accepts_grammar_iff (s : Text) :
    (isValidHostname s = true ↔ IsHostname s) ↔ ¬ LooseName (hostnamePart s) := by
  rw [isValidHostname_iff, isHostname_iff]
  constructor
  · intro h hloose
    have hhost : IsHost (hostnamePart s) := h.1 (.inr hloose)
    exact (isHost_of_loose_iff hloose.2.2.1 hloose.1 hloose.2.1).1 hhost hloose
  · intro hloose
    exact ⟨fun h => h.resolve_right hloose, .inl⟩

/-- A hyphen in front is accepted where there is no dot. -/
theorem leading_hyphen_accepted :
    isValidHostname "-bad".toList = true ∧ ¬ IsHostname "-bad".toList := by
  refine ⟨by decide, fun h => ?_⟩
  rw [isHostname_iff, isHost_iff] at h
  exact absurd h.2.2 (by decide)

end ProtocolProxy
