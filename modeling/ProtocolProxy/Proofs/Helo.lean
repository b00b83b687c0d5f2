import ProtocolProxy.Helo

/-!
# Where the two SMTP servers differ on a HELO

A line that the PHP server routes on is a verb, a space and a domain (`heloDomain_eq_some`).  For
the Rust server there may be blanks before the verb and anything glued to it
(`heloRoute_eq_some`).  So the Rust server routes whenever the PHP server does, with the same key,
and the other way round unless the line is loose (`agree_iff_not_isLoose`).
-/

namespace ProtocolProxy

namespace Helo

open Smtp (ascii toAsciiUppercase isAsciiWhitespace trimAscii afterVerb commandToken isHelo
  parseHeloDomain)
open PhpSmtp (strtoupper heloTokens isSpace isTrimmed heloDomain)
open Trim

variable {line l verb rest : Bytes} {b : UInt8} {d : Bytes}

/-! ## ASCII texts -/

def toChar (b : UInt8) : Char := Char.ofNat b.toNat

/-- What is used of single bytes, each of them looked at. -/
theorem byte_facts (b : UInt8) :
    (b < 128 → (toChar b).toUpper = toChar (toAsciiUppercase b)
      ∧ isWhitespace (toChar b) = isSpace b ∧ String.utf8EncodeChar (toChar b) = [b]
      ∧ toAsciiUppercase b < 128)
    ∧ (toAsciiUppercase b ∈ ascii "EHLO" →
      isSpace b = false ∧ isAsciiWhitespace b = false ∧ isTrimmed b = false)
    ∧ (isAsciiWhitespace b = true → isSpace b = true) := by
  revert b
  decide +kernel

theorem toUpper_toChar (hb : b < 128) : (toChar b).toUpper = toChar (toAsciiUppercase b) :=
  ((byte_facts b).1 hb).1

theorem isWhitespace_toChar (hb : b < 128) : isWhitespace (toChar b) = isSpace b :=
  ((byte_facts b).1 hb).2.1

theorem utf8EncodeChar_toChar (hb : b < 128) : String.utf8EncodeChar (toChar b) = [b] :=
  ((byte_facts b).1 hb).2.2.1

theorem toAsciiUppercase_lt (hb : b < 128) : toAsciiUppercase b < 128 :=
  ((byte_facts b).1 hb).2.2.2

theorem fromUtf8_ascii (hl : ∀ b ∈ l, b < 128) : fromUtf8 l = some (l.map toChar) := by
  unfold fromUtf8
  induction l with
  | nil => rfl
  | cons b l ih =>
    obtain ⟨hb, hl⟩ := List.forall_mem_cons.1 hl
    have hhead : decodeHead b l = (some b.toNat, 1) := if_pos hb
    rw [List.length_cons, decodeStrict, hhead]
    simp only [List.drop_succ_cons, List.drop_zero, ih hl, Option.map_some, List.map_cons]
    rfl

theorem asBytes_map_toChar (hl : ∀ b ∈ l, b < 128) : asBytes (l.map toChar) = l := by
  unfold asBytes
  induction l with
  | nil => rfl
  | cons b l ih =>
    obtain ⟨hb, hl⟩ := List.forall_mem_cons.1 hl
    rw [List.map_cons, List.flatMap_cons, ih hl, utf8EncodeChar_toChar hb]
    rfl

/-! ## The verb -/

theorem length_verb (h : strtoupper verb ∈ heloTokens) : verb.length = 4 := by
  have hfour : ∀ v ∈ heloTokens, v.length = 4 := by decide
  rw [← hfour _ h, strtoupper, List.length_map]

theorem verb_solid (h : strtoupper verb ∈ heloTokens) (hb : b ∈ verb) :
    isSpace b = false ∧ isAsciiWhitespace b = false ∧ isTrimmed b = false := by
  have hletters : ∀ v ∈ heloTokens, ∀ x ∈ v, x ∈ ascii "EHLO" := by
    simp [heloTokens, ascii]
  exact (byte_facts b).2.1 (hletters _ h _ (List.mem_map_of_mem hb))

theorem verb_ne_nil (h : strtoupper verb ∈ heloTokens) : verb ≠ [] := by
  have hlen := length_verb h
  rintro rfl
  cases hlen

/-! ## The Rust server -/

/-- The token of an ASCII line, byte by byte. -/
theorem commandToken_eq_iff (hline : ∀ b ∈ line, b < 128) {w : Bytes} (hw : ∀ b ∈ w, b < 128) :
    commandToken line = w.map toChar ↔ strtoupper ((trimAscii line).take 4) = w := by
  have hl : ∀ b ∈ (trimAscii line).take 4, b < 128 := by
    intro b hb
    obtain ⟨before, after, hsplit, -⟩ := exists_eq_trimmed isAsciiWhitespace line
    refine hline b ?_
    rw [hsplit]
    exact List.mem_append_left _ (List.mem_append_right _ (List.mem_of_mem_take hb))
  generalize htoken : (trimAscii line).take 4 = token at hl
  have hupper : commandToken line = (strtoupper token).map toChar := by
    unfold commandToken
    rw [htoken, fromUtf8_ascii hl, Option.getD_some, List.map_map, strtoupper, List.map_map]
    exact List.map_congr_left fun b hb => toUpper_toChar (hl b hb)
  have hlt : ∀ b ∈ strtoupper token, b < 128 := by
    intro b hb
    obtain ⟨x, hx, rfl⟩ := List.mem_map.1 hb
    exact toAsciiUppercase_lt (hl x hx)
  rw [hupper]
  refine ⟨fun h => ?_, fun h => by rw [h]⟩
  rw [← asBytes_map_toChar hlt, h, asBytes_map_toChar hw]

theorem isHelo_commandToken (hline : ∀ b ∈ line, b < 128) :
    isHelo (commandToken line) = true ↔ strtoupper ((trimAscii line).take 4) ∈ heloTokens := by
  have hehlo := commandToken_eq_iff hline (w := ascii "EHLO") (by simp [ascii])
  have hhelo := commandToken_eq_iff hline (w := ascii "HELO") (by simp [ascii])
  rw [isHelo, decide_eq_true_eq, heloTokens, List.mem_cons, List.mem_singleton, ← hehlo, ← hhelo]
  rfl

/-- What follows the first space. -/
theorem afterVerb_eq_some {r : Text} (hl : ∀ b ∈ l, b < 128) :
    afterVerb (l.map toChar) = some r ↔ ∃ before b rest, l = before ++ b :: rest
      ∧ (∀ x ∈ before, isSpace x = false) ∧ isSpace b = true ∧ r = rest.map toChar := by
  induction l with
  | nil => simp [afterVerb]
  | cons x l ih =>
    obtain ⟨hx, hl⟩ := List.forall_mem_cons.1 hl
    unfold afterVerb at ih ⊢
    rw [List.map_cons, List.dropWhile_cons, isWhitespace_toChar hx]
    by_cases hspace : isSpace x = true
    · simp only [hspace, Bool.not_true, Bool.false_eq_true, if_false, Option.some.injEq]
      refine ⟨fun h => ⟨[], x, l, rfl, by simp, hspace, h.symm⟩, ?_⟩
      rintro ⟨before, b, rest, hsplit, hbefore, -, rfl⟩
      cases before with
      | nil =>
        obtain ⟨-, rfl⟩ := List.cons.inj hsplit
        rfl
      | cons y before =>
        obtain ⟨rfl, -⟩ := List.cons.inj hsplit
        cases (hbefore x List.mem_cons_self).symm.trans hspace
    · rw [Bool.not_eq_true] at hspace
      simp only [hspace, Bool.not_false, if_true]
      rw [ih hl]
      constructor
      · rintro ⟨before, b, rest, rfl, hbefore, hb, rfl⟩
        exact ⟨x :: before, b, rest, rfl, List.forall_mem_cons.2 ⟨hspace, hbefore⟩, hb, rfl⟩
      · rintro ⟨before, b, rest, hsplit, hbefore, hb, rfl⟩
        cases before with
        | nil =>
          obtain ⟨rfl, -⟩ := List.cons.inj hsplit
          cases hspace.symm.trans hb
        | cons y before =>
          obtain ⟨-, rfl⟩ := List.cons.inj hsplit
          exact ⟨before, b, rest, rfl, (List.forall_mem_cons.1 hbefore).2, hb, rfl⟩

/-- What `parse_helo_domain` does with what follows the first space. -/
theorem parseHeloDomain_eq (hl : ∀ b ∈ trimAscii line, b < 128) :
    parseHeloDomain line = (afterVerb ((trimAscii line).map toChar)).bind fun r =>
      if firstWord isWhitespace r = [] then none else some (firstWord isWhitespace r) := by
  have hparse : parseHeloDomain line
      = (afterVerb ((trimAscii line).map toChar)).bind fun r =>
        if firstWord isWhitespace (trimmed isWhitespace r) = [] then none
        else some (firstWord isWhitespace (trimmed isWhitespace r)) := by
    unfold parseHeloDomain
    rw [fromUtf8_ascii hl]
    rfl
  rw [hparse]
  congr 1
  funext r
  rw [firstWord_trimmed fun _ h => h]

/-- The domain is the line's second word. -/
theorem parseHeloDomain_eq_some (hl : ∀ b ∈ trimAscii line, b < 128) :
    (parseHeloDomain line).map asBytes = some d ↔ ∃ before b rest,
      trimAscii line = before ++ b :: rest ∧ (∀ x ∈ before, isSpace x = false) ∧ isSpace b = true
        ∧ firstWord isSpace rest = d ∧ d ≠ [] := by
  have hword {before rest : Bytes} {b : UInt8} (h : trimAscii line = before ++ b :: rest) :
      firstWord isWhitespace (rest.map toChar) = (firstWord isSpace rest).map toChar
        ∧ asBytes ((firstWord isSpace rest).map toChar) = firstWord isSpace rest := by
    have hrest : ∀ x ∈ rest, x < 128 := by
      intro x hx
      refine hl x ?_
      rw [h]
      exact List.mem_append_right _ (List.mem_cons_of_mem _ hx)
    refine ⟨firstWord_map fun x hx => isWhitespace_toChar (hrest x hx), ?_⟩
    refine asBytes_map_toChar fun x hx => hrest x ?_
    exact (List.dropWhile_suffix _).subset ((List.takeWhile_prefix _).subset hx)
  rw [parseHeloDomain_eq hl, Option.map_eq_some_iff]
  simp only [Option.bind_eq_some_iff, afterVerb_eq_some hl]
  constructor
  · rintro ⟨domain, ⟨r, ⟨before, b, rest, hsplit, hbefore, hb, rfl⟩, hdomain⟩, rfl⟩
    obtain ⟨hfirst, hbytes⟩ := hword hsplit
    rw [hfirst] at hdomain
    split_ifs at hdomain with hnil
    obtain rfl := Option.some.inj hdomain
    refine ⟨before, b, rest, hsplit, hbefore, hb, hbytes.symm, ?_⟩
    rw [hbytes]
    exact fun h => hnil (by rw [h]; rfl)
  · rintro ⟨before, b, rest, hsplit, hbefore, hb, rfl, hne⟩
    obtain ⟨hfirst, hbytes⟩ := hword hsplit
    refine ⟨_, ⟨_, ⟨before, b, rest, hsplit, hbefore, hb, rfl⟩, if_neg ?_⟩, ?_⟩
    · rw [hfirst]
      exact fun h => hne (List.map_eq_nil_iff.1 h)
    · rw [hfirst, hbytes]

theorem isSpace_of_isAsciiWhitespace (b : UInt8) (h : isAsciiWhitespace b = true) :
    isSpace b = true := (byte_facts b).2.2 h

/-- The line without the blanks at its two ends. -/
theorem Parts.trimAscii_eq (parts : Parts line) (hrest : firstWord isSpace parts.rest ≠ []) :
    trimAscii line = parts.verb
      ++ (parts.glued ++ parts.space :: parts.rest.rdropWhile isAsciiWhitespace) := by
  have hne : ¬ ∀ x ∈ parts.rest, isAsciiWhitespace x = true := by
    intro hall
    exact hrest (firstWord_eq_nil.2 fun x hx => isSpace_of_isAsciiWhitespace x (hall x hx))
  have htrim : trimAscii line = parts.verb
      ++ (parts.glued ++ [parts.space] ++ parts.rest).rdropWhile isAsciiWhitespace := by
    nth_rewrite 1 [parts.eq]
    rw [List.append_assoc parts.glued, List.singleton_append]
    exact trimmed_append_solid parts.blanks_blank
      (fun x hx => (verb_solid parts.verb_helo hx).2.1) (verb_ne_nil parts.verb_helo)
  rw [htrim, rdropWhile_append_of_not_blank hne, List.append_assoc parts.glued,
    List.singleton_append]

/-- The first four bytes of a trimmed line are the verb, so the first word has no space in it and
ends with what is glued to them. -/
theorem exists_parts {before : Bytes} (hcore : trimAscii line = before ++ b :: rest)
    (hbefore : ∀ x ∈ before, isSpace x = false) (hb : isSpace b = true)
    (hverb : strtoupper ((trimAscii line).take 4) ∈ heloTokens) :
    ∃ parts : Parts line, firstWord isSpace parts.rest = firstWord isSpace rest := by
  obtain ⟨blanks, after, hsplit, hblanks, hafter⟩ := exists_eq_trimmed isAsciiWhitespace line
  have hlen : 4 ≤ before.length := by
    by_contra hlt
    have hmem : b ∈ (trimAscii line).take 4 := by
      rw [hcore, List.take_append, List.mem_append]
      right
      obtain ⟨k, hk⟩ : ∃ k, 4 - before.length = k + 1 := ⟨3 - before.length, by omega⟩
      rw [hk, List.take_succ_cons]
      exact List.mem_cons_self
    cases hb.symm.trans (verb_solid hverb hmem).1
  rw [hcore, List.take_append_of_le_length hlen] at hverb
  refine ⟨⟨blanks, before.take 4, before.drop 4, b, rest ++ after, ?_, hblanks, hverb,
    fun x hx => hbefore x (List.mem_of_mem_drop hx), hb⟩, ?_⟩
  · rw [hsplit, show trimmed isAsciiWhitespace line = before ++ b :: rest from hcore,
      ← List.append_assoc (before.take 4), List.take_append_drop]
    simp only [List.append_assoc, List.cons_append]
  · exact firstWord_append_blank fun x hx => isSpace_of_isAsciiWhitespace x (hafter x hx)

/-- The Rust server routes on the word after the verb and what is glued to it. -/
theorem heloRoute_eq_some (hline : ∀ b ∈ line, b < 128) :
    (Smtp.heloRoute line).map asBytes = some d
      ↔ ∃ parts : Parts line, firstWord isSpace parts.rest = d ∧ d ≠ [] := by
  have hcore : ∀ b ∈ trimAscii line, b < 128 := by
    intro b hb
    obtain ⟨before, after, hsplit, -⟩ := exists_eq_trimmed isAsciiWhitespace line
    refine hline b ?_
    rw [hsplit]
    exact List.mem_append_left _ (List.mem_append_right _ hb)
  unfold Smtp.heloRoute
  constructor
  · intro h
    split_ifs at h with hhelo
    · obtain ⟨before, b, rest, hsplit, hbefore, hb, rfl, hne⟩ :=
        (parseHeloDomain_eq_some hcore).1 h
      obtain ⟨parts, hparts⟩ :=
        exists_parts hsplit hbefore hb ((isHelo_commandToken hline).1 hhelo)
      exact ⟨parts, hparts, hne⟩
    · cases h
  · rintro ⟨parts, rfl, hne⟩
    have htrim := parts.trimAscii_eq hne
    have hhelo : isHelo (commandToken line) = true := by
      rw [isHelo_commandToken hline, htrim, List.take_left' (length_verb parts.verb_helo)]
      exact parts.verb_helo
    rw [if_pos hhelo, parseHeloDomain_eq_some hcore]
    refine ⟨parts.verb ++ parts.glued, parts.space, _, ?_, ?_, parts.space_space,
      firstWord_rdropWhile isSpace_of_isAsciiWhitespace, hne⟩
    · rw [htrim, List.append_assoc]
    · refine List.forall_mem_append.2 ⟨fun x hx => ?_, parts.glued_solid⟩
      exact (verb_solid parts.verb_helo hx).1

/-! ## The PHP server -/

theorem heloDomain_eq_some : heloDomain line = some d ↔ ∃ verb b rest, line = verb ++ b :: rest
    ∧ strtoupper verb ∈ heloTokens ∧ isSpace b = true ∧ firstWord isSpace rest = d ∧ d ≠ [] := by
  constructor
  · intro h
    unfold heloDomain at h
    split_ifs at h with hverb
    rcases hdrop : line.drop 4 with _ | ⟨b, rest⟩ <;> rw [hdrop] at h <;> simp only at h
    · cases h
    split_ifs at h with hb hnil
    refine ⟨line.take 4, b, rest, ?_, hverb, hb, Option.some.inj h, ?_⟩
    · rw [← hdrop, List.take_append_drop]
    · rw [← Option.some.inj h]
      exact hnil
  · rintro ⟨verb, b, rest, rfl, hverb, hb, rfl, hne⟩
    unfold heloDomain
    rw [List.take_left' (length_verb hverb), List.drop_left' (length_verb hverb), if_pos hverb]
    simp only
    rw [if_pos hb]
    exact if_neg hne

/-- A line that matches the pattern has the verb as its command. -/
theorem command_of_heloDomain (h : heloDomain line = some d) : PhpSmtp.command line = .helo := by
  obtain ⟨verb, b, rest, rfl, hverb, -⟩ := heloDomain_eq_some.1 h
  have htrim : PhpSmtp.trim (verb ++ b :: rest) = verb ++ (b :: rest).rdropWhile isTrimmed :=
    trimmed_append_solid (a := []) (by simp) (fun x hx => (verb_solid hverb hx).2.2)
      (verb_ne_nil hverb)
  have htoken : PhpSmtp.commandToken (verb ++ b :: rest) = strtoupper verb := by
    unfold PhpSmtp.commandToken
    rw [htrim, List.take_left' (length_verb hverb)]
  unfold PhpSmtp.command
  rw [htoken, if_pos hverb]

theorem heloRoute_eq_heloDomain (line : Bytes) : PhpSmtp.heloRoute line = heloDomain line := by
  unfold PhpSmtp.heloRoute
  rcases hdomain : heloDomain line with _ | d
  · split <;> rfl
  · rw [command_of_heloDomain hdomain]

/-! ## Both -/

/-- A line that the PHP server routes on is the verb, a space and the rest, for every way of seeing
it as a verb among blanks. -/
theorem Parts.tight (parts : Parts line) (h : heloDomain line = some d) :
    parts.blanks = [] ∧ parts.glued = [] := by
  obtain ⟨verb, b, rest, hline, hverb, hb, -⟩ := heloDomain_eq_some.1 h
  obtain ⟨x, verb', rfl⟩ := List.exists_cons_of_ne_nil (verb_ne_nil hverb)
  have heq := hline.symm.trans parts.eq
  have hblanks : parts.blanks = [] := by
    rcases hbl : parts.blanks with _ | ⟨y, blanks⟩
    · rfl
    · rw [hbl] at heq
      obtain ⟨rfl, -⟩ := List.cons.inj heq
      have hsolid := (verb_solid hverb List.mem_cons_self).2.1
      cases hsolid.symm.trans (parts.blanks_blank x (by rw [hbl]; exact List.mem_cons_self))
  refine ⟨hblanks, ?_⟩
  rw [hblanks, List.nil_append] at heq
  have hlen : (x :: verb').length = parts.verb.length := by
    rw [length_verb hverb, length_verb parts.verb_helo]
  obtain ⟨-, htail⟩ := List.append_inj heq hlen
  rcases hgl : parts.glued with _ | ⟨y, glued⟩
  · rfl
  · rw [hgl] at htail
    obtain ⟨rfl, -⟩ := List.cons.inj htail
    cases hb.symm.trans (parts.glued_solid b (by rw [hgl]; exact List.mem_cons_self))

theorem Parts.heloDomain_eq (parts : Parts line) (hblanks : parts.blanks = [])
    (hglued : parts.glued = []) (hne : firstWord isSpace parts.rest ≠ []) :
    heloDomain line = some (firstWord isSpace parts.rest) := by
  refine heloDomain_eq_some.2 ⟨parts.verb, parts.space, parts.rest, ?_, parts.verb_helo,
    parts.space_space, rfl, hne⟩
  have heq := parts.eq
  rwa [hblanks, hglued] at heq

/-- A line that the PHP server routes on, the Rust server routes on with the same key. -/
theorem heloRoute_of_heloDomain (hline : ∀ b ∈ line, b < 128) (h : heloDomain line = some d) :
    (Smtp.heloRoute line).map asBytes = some d := by
  obtain ⟨verb, b, rest, rfl, hverb, hb, hd, hne⟩ := heloDomain_eq_some.1 h
  exact (heloRoute_eq_some hline).2
    ⟨⟨[], verb, [], b, rest, rfl, by simp, hverb, by simp, hb⟩, hd, hne⟩

/-- For every line of ASCII bytes that ends in a CRLF and has no other: the two servers route on the
same domain or both on none, if and only if the line is not loose. -/
theorem agree_iff_not_isLoose (line : Bytes) (hline : IsCommandLine line) :
    Agree line ↔ ¬ IsLoose line := by
  unfold Agree
  rw [heloRoute_eq_heloDomain]
  constructor
  · rintro hagree ⟨parts, hloose, x, hx, hsolid⟩
    have hne : firstWord isSpace parts.rest ≠ [] := by
      intro hnil
      cases hsolid.symm.trans (firstWord_eq_nil.1 hnil x hx)
    have hrust := (heloRoute_eq_some hline.ascii).2 ⟨parts, rfl, hne⟩
    obtain ⟨hblanks, hglued⟩ := parts.tight (hagree.symm.trans hrust)
    exact hloose.elim (fun h => h hblanks) fun h => h hglued
  · intro htight
    rcases hrust : (Smtp.heloRoute line).map asBytes with _ | d
    · rcases hphp : heloDomain line with _ | d
      · rfl
      · cases hrust.symm.trans (heloRoute_of_heloDomain hline.ascii hphp)
    · obtain ⟨parts, rfl, hne⟩ := (heloRoute_eq_some hline.ascii).1 hrust
      have hword : ∃ x ∈ parts.rest, isSpace x = false := by
        by_contra hall
        push Not at hall
        exact hne (firstWord_eq_nil.2 fun x hx => by simpa using hall x hx)
      have hclean : parts.blanks = [] ∧ parts.glued = [] := by
        by_contra hloose
        exact htight ⟨parts, by tauto, hword⟩
      exact (parts.heloDomain_eq hclean.1 hclean.2 hne).symm

theorem agree_iff_not_isLoose_ehlo :
    IsCommandLine (ascii "EHLO a\r\n") ∧ PhpSmtp.heloRoute (ascii "EHLO a\r\n") = some (ascii "a")
      ∧ ¬ IsLoose (ascii "EHLO a\r\n") := by
  have hline : IsCommandLine (ascii "EHLO a\r\n") :=
    ⟨⟨ascii "EHLO a", rfl, by simp [ascii]⟩, by simp [ascii]⟩
  exact ⟨hline, rfl, (agree_iff_not_isLoose _ hline).1 rfl⟩

/-- The Rust server routes on what follows a glued verb or an indented one; the PHP server answers
both with a syntax error. -/
theorem glued_verb_routed :
    IsCommandLine (ascii "EHLOX a\r\n") ∧ Smtp.heloRoute (ascii "EHLOX a\r\n") = some ['a']
      ∧ PhpSmtp.heloRoute (ascii "EHLOX a\r\n") = none ∧ ¬ Agree (ascii "EHLOX a\r\n")
      ∧ Smtp.heloRoute (ascii " EHLO a\r\n") = some ['a']
      ∧ PhpSmtp.heloRoute (ascii " EHLO a\r\n") = none := by
  have hline : IsCommandLine (ascii "EHLOX a\r\n") :=
    ⟨⟨ascii "EHLOX a", rfl, by simp [ascii]⟩, by simp [ascii]⟩
  refine ⟨hline, rfl, rfl, fun h => ?_, rfl, rfl⟩
  cases h

end Helo

end ProtocolProxy
