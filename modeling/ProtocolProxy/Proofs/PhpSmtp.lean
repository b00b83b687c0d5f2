import ProtocolProxy.Machine
import ProtocolProxy.PhpSmtp

/-!
# Packets and lines

The PHP server handles a packet of several lines as if it were one line.  The command is the one of
the first line that is not blank (`command_append`), and what a test sees of the whole packet it
sees of one line only if the others are blank (`isDataCommand_append`, `trim_append_eq_dot`).

From one state, a packet and its lines lead to the same state exactly when the packet is `Alike`
(`receive_eq_iff`).  That they do not is seen from three measures that lines only make larger
(`Grown`): the bytes sent, the backends, the changes of state.
-/

namespace ProtocolProxy

namespace PhpSmtp

open Machine
open Smtp (ascii SmtpState dataReadyCode dataTerminator toAsciiUppercase)

variable {w : World} {a b line : Bytes} {lines : List Bytes} {c c' : Connection} {s : Session}

/-! ## What a test sees of a packet -/

theorem IsLine.getLast? (h : IsLine line) : line.getLast? = some 10 := by
  obtain ⟨⟨body, rfl⟩, -⟩ := h
  simp [Smtp.crlf, ascii]

theorem IsLine.ne_nil (h : IsLine line) : line ≠ [] := by
  rintro rfl
  simpa using h.getLast?

theorem isBlank_iff : IsBlank a ↔ ∀ x ∈ a, isTrimmed x := Trim.trimmed_eq_nil

theorem isBlank_flatten : IsBlank lines.flatten ↔ ∀ line ∈ lines, IsBlank line := by
  simp only [isBlank_iff, List.mem_flatten]
  exact ⟨fun h line hl x hx => h x ⟨line, hl, hx⟩, fun h x ⟨line, hl, hx⟩ => h line hl x hx⟩

theorem toAsciiUppercase_of_isTrimmed {x : UInt8} (h : isTrimmed x) : toAsciiUppercase x = x := by
  revert x
  decide +kernel

theorem trim_append_of_blank (ha : IsBlank a) : trim (a ++ b) = trim b :=
  Trim.trimmed_append_left (isBlank_iff.1 ha)

theorem trim_append (ha : IsLine a) (hblank : ¬ IsBlank a) :
    (IsBlank b ∧ trim (a ++ b) = trim a)
      ∨ ¬ IsBlank b ∧ ∃ x rest, isTrimmed x ∧ trim (a ++ b) = trim a ++ x :: rest := by
  rw [isBlank_iff] at hblank
  simp only [isBlank_iff]
  exact Trim.trimmed_append hblank (z := 10) rfl ha.getLast?

theorem commandToken_append (ha : IsLine a) (hblank : ¬ IsBlank a) {v : Bytes} (hlen : v.length = 4)
    (hv : ∀ x ∈ v, ¬ isTrimmed x) : commandToken (a ++ b) = v ↔ commandToken a = v := by
  unfold commandToken strtoupper
  rcases trim_append (b := b) ha hblank with ⟨-, h⟩ | ⟨-, x, rest, hx, h⟩
  · rw [h]
  · rw [h]
    by_cases hshort : 4 ≤ (trim a).length
    · rw [List.take_append_of_le_length hshort]
    · -- the blank that follows is among the four bytes
      have hmem : x ∈ (trim a ++ x :: rest).take 4 := by
        obtain ⟨n, hn⟩ : ∃ n, 4 - (trim a).length = n + 1 := ⟨3 - (trim a).length, by omega⟩
        rw [List.take_append, hn]
        simp
      constructor
      · rintro rfl
        have hup := List.mem_map_of_mem (f := toAsciiUppercase) hmem
        rw [toAsciiUppercase_of_isTrimmed hx] at hup
        exact absurd hx (hv x hup)
      · rintro rfl
        simp only [List.length_map, List.length_take] at hlen
        omega

theorem command_append (ha : IsLine a) (hblank : ¬ IsBlank a) : command (a ++ b) = command a := by
  have hmem : ∀ vs : List Bytes, (∀ v ∈ vs, v.length = 4 ∧ ∀ x ∈ v, ¬ isTrimmed x) →
      (commandToken (a ++ b) ∈ vs ↔ commandToken a ∈ vs) := by
    intro vs hvs
    constructor
    · intro h
      rw [(commandToken_append ha hblank (hvs _ h).1 (hvs _ h).2).1 rfl]
      exact h
    · intro h
      rw [(commandToken_append ha hblank (hvs _ h).1 (hvs _ h).2).2 rfl]
      exact h
  unfold command
  have hhelo := hmem heloTokens (by simp [heloTokens, ascii, isTrimmed, Trim.phpBlanks])
  have hforwarded := hmem forwardedTokens
    (by simp [forwardedTokens, ascii, isTrimmed, Trim.phpBlanks])
  simp only [hhelo, hforwarded]

theorem command_of_blank (ha : IsBlank a) : command a = .unknown := by
  have htoken : commandToken a = [] := by
    unfold commandToken
    rw [show trim a = [] from ha]
    rfl
  unfold command
  rw [htoken]
  rfl

theorem isDataCommand_append (ha : IsLine a) (hblank : ¬ IsBlank a) :
    isDataCommand (a ++ b) ↔ isDataCommand a ∧ IsBlank b := by
  unfold isDataCommand commandToken
  rcases trim_append (b := b) ha hblank with ⟨hb, h⟩ | ⟨hb, x, rest, hx, h⟩
  · rw [h]
    simp [hb]
  · constructor
    · intro hdata
      have hup := (of_decide_eq_true hdata).2
      rw [h] at hup
      have hmem : toAsciiUppercase x ∈ ascii "DATA" := by
        rw [← hup]
        exact List.mem_map_of_mem (by simp)
      rw [toAsciiUppercase_of_isTrimmed hx] at hmem
      have hnone : ∀ y ∈ ascii "DATA", ¬ isTrimmed y := by simp [ascii, isTrimmed, Trim.phpBlanks]
      exact absurd hx (hnone x hmem)
    · rintro ⟨-, hb'⟩
      exact absurd hb' hb

theorem not_isDataCommand_of_blank (ha : IsBlank a) : ¬ isDataCommand a := by
  unfold isDataCommand
  rw [show trim a = [] from ha]
  simp [strtoupper, ascii]

theorem command_of_isDataCommand (h : isDataCommand a) : command a = .forwarded := by
  have htoken := (of_decide_eq_true h).1
  unfold command
  rw [htoken]
  rfl

theorem trim_append_eq_dot (ha : IsLine a) (hblank : ¬ IsBlank a) :
    trim (a ++ b) = dataTerminator ↔ trim a = dataTerminator ∧ IsBlank b := by
  rcases trim_append (b := b) ha hblank with ⟨hb, h⟩ | ⟨hb, x, rest, hx, h⟩
  · rw [h]
    simp [hb]
  · constructor
    · intro hdot
      have hmem : x ∈ dataTerminator := by
        rw [← hdot, h]
        simp
      have hnone : ∀ y ∈ dataTerminator, ¬ isTrimmed y := by
        simp [dataTerminator, ascii, isTrimmed, Trim.phpBlanks]
      exact absurd hx (hnone x hmem)
    · rintro ⟨-, hb'⟩
      exact absurd hb' hb

theorem not_dot_of_blank (ha : IsBlank a) : trim a ≠ dataTerminator := by
  rw [show trim a = [] from ha]
  simp [dataTerminator, ascii]

/-- A packet that is a dot is a dot line among blank ones. -/
theorem exists_dot : ∀ {lines : List Bytes}, (∀ l ∈ lines, IsLine l) →
    trim lines.flatten = dataTerminator → ∃ pre line post, lines = pre ++ line :: post
      ∧ (∀ l ∈ pre, IsBlank l) ∧ trim line = dataTerminator ∧ ∀ l ∈ post, IsBlank l
  | [], _, h => absurd h (not_dot_of_blank rfl)
  | line :: lines, hlines, h => by
    obtain ⟨hline, hlines⟩ := List.forall_mem_cons.1 hlines
    rw [List.flatten_cons] at h
    by_cases hblank : IsBlank line
    · rw [trim_append_of_blank hblank] at h
      obtain ⟨pre, dot, post, rfl, hpre, hdot, hpost⟩ := exists_dot hlines h
      exact ⟨line :: pre, dot, post, rfl, List.forall_mem_cons.2 ⟨hblank, hpre⟩, hdot, hpost⟩
    · obtain ⟨hdot, hpost⟩ := (trim_append_eq_dot hline hblank).1 h
      exact ⟨[], line, lines, rfl, by simp, hdot, isBlank_flatten.1 hpost⟩

theorem heloDomain_append (ha : IsLine a) {domain : Bytes} (h : heloDomain a = some domain) :
    heloDomain (a ++ b) = some domain := by
  unfold heloDomain at h ⊢
  split_ifs at h with htoken
  have hlen : 4 ≤ a.length := by
    have hfour : ∀ v ∈ heloTokens, v.length = 4 := by decide
    have htake := hfour _ htoken
    simp only [strtoupper, List.length_map, List.length_take] at htake
    omega
  rw [List.take_append_of_le_length hlen, List.drop_append_of_le_length hlen, if_pos htoken]
  rcases hdrop : a.drop 4 with _ | ⟨x, rest⟩
  · rw [hdrop] at h
    simp at h
  · rw [hdrop] at h
    simp only [List.cons_append] at h ⊢
    split_ifs at h with hx hnil
    obtain rfl := Option.some.inj h
    have hrest : ¬ ∀ y ∈ rest, isSpace y := by
      intro hall
      rw [List.dropWhile_eq_nil_iff.2 hall] at hnil
      exact hnil rfl
    -- the line's last byte is a space, so the domain ends within the line
    have hspace : (10 : UInt8) ∈ rest.dropWhile isSpace := by
      have hne : rest.dropWhile isSpace ≠ [] := fun h' => hrest (List.dropWhile_eq_nil_iff.1 h')
      have hsuffix : rest.dropWhile isSpace <:+ a :=
        (List.dropWhile_suffix _).trans
          ((List.suffix_cons x rest).trans (hdrop ▸ List.drop_suffix 4 a))
      have hlast : (rest.dropWhile isSpace).getLast? = some 10 := by
        obtain ⟨front, hfront⟩ := hsuffix
        have hgl := ha.getLast?
        rw [← hfront, List.getLast?_append_of_ne_nil _ hne] at hgl
        exact hgl
      exact List.mem_of_getLast? hlast
    have hshort : ((rest.dropWhile isSpace).takeWhile fun b => !isSpace b).length
        ≠ (rest.dropWhile isSpace).length := by
      intro hall
      have heq := (List.takeWhile_prefix fun b => !isSpace b).eq_of_length hall
      have hten := List.mem_takeWhile_imp (heq.symm ▸ hspace)
      exact absurd hten (by decide)
    rw [if_pos hx, Trim.dropWhile_append_of_not_blank hrest, List.takeWhile_append, if_neg hshort,
      if_neg hnil]

/-! ## What a packet does -/

/-- The packet is sent to the connection's backend, and the answers are read. -/
def Connection.deliver (w : World) (c : Connection) (lines : List Bytes) : Connection :=
  let sent := c.backend.getD []
  let c' := { c with backend := some (sent ++ lines.flatten) }
  if isDataCommand lines.flatten ∧ dataReadyCode <+: w.response c.left.length sent lines then
    c'.setState .data
  else c'

/-- The packet is sent to the connection's backend as a part of a message. -/
def Connection.deliverBody (c : Connection) (lines : List Bytes) : Connection :=
  let c' := { c with backend := some (c.backend.getD [] ++ lines.flatten) }
  if trim lines.flatten = dataTerminator then c'.setState .command else c'

inductive Receives (w : World) (lines : List Bytes) : Session → Session → Prop
  | closed (c : Connection) : Receives w lines ⟨c, true⟩ ⟨c, true⟩
  | answered (c : Connection) : c.state = .command → IsAnswered lines.flatten →
      Receives w lines ⟨c, false⟩ ⟨c, false⟩
  | ends (c : Connection) : c.state = .command → Ends w c lines.flatten →
      Receives w lines ⟨c, false⟩ ⟨c, true⟩
  | target (c c' : Connection) : c.state = .command → Target w c lines.flatten c' →
      Receives w lines ⟨c, false⟩ ⟨c'.deliver w lines, false⟩
  | body (c : Connection) : c.state = .data → c.backend ≠ none →
      Receives w lines ⟨c, false⟩ ⟨c.deliverBody lines, false⟩
  | stray (c : Connection) : c.state = .data → c.backend = none →
      Receives w lines ⟨c, false⟩ ⟨c, true⟩

theorem forwardCommand_none (k : Answers) (data : Bytes) (hc : c.backend = none) :
    forwardCommand k data c = (c, .error .noBackend) := by
  unfold forwardCommand
  rw [hc]

theorem forwardCommand_answers (w : World) (lines : List Bytes) (hc : c.backend ≠ none) :
    ∃ response, forwardCommand (w.answers lines) lines.flatten c
      = (c.deliver w lines, .ok response) := by
  rcases hsent : c.backend with _ | sent
  · exact absurd hsent hc
  · refine ⟨w.response c.left.length sent lines, ?_⟩
    unfold forwardCommand Connection.deliver
    have hne : dataReadyCode <+: w.response c.left.length sent lines →
        w.response c.left.length sent lines ≠ [] := by
      intro hready hnil
      rw [hnil, List.prefix_nil] at hready
      exact absurd hready (by decide)
    by_cases hready : isDataCommand lines.flatten
        ∧ dataReadyCode <+: w.response c.left.length sent lines
    · simp [hsent, World.answers, hready, hne hready.2]
    · have hnot : ¬ (w.response c.left.length sent lines ≠ [] ∧ isDataCommand lines.flatten
          ∧ dataReadyCode <+: w.response c.left.length sent lines) := fun h => hready h.2
      simp only [hsent, World.answers, Option.getD_some, Bool.not_true, Bool.false_eq_true,
        if_false, if_neg hready, if_neg hnot]

theorem receives (w : World) (lines : List Bytes) (s : Session) :
    Receives w lines s (receive w s lines) := by
  obtain ⟨c, closed⟩ := s
  unfold receive
  cases closed
  case true => exact .closed c
  case false =>
    simp only [Bool.false_eq_true, if_false, onReceive, handle]
    rcases hstate : c.state with _ | _
    · simp only
      rcases hcommand : command lines.flatten with _ | _ | _
      · simp only [handleHelo]
        rcases hdomain : heloDomain lines.flatten with _ | domain
        · exact .answered c hstate (.inr ⟨hcommand, hdomain⟩)
        · rcases hdial : (w.dial c.dialed domain).result with e | u
          · simp only [World.answers, hdial]
            exact .ends c hstate (.inr ⟨hcommand, domain, e, hdomain, hdial⟩)
          · obtain ⟨response, h⟩ := forwardCommand_answers (c := c.open) w lines
              (by simp [Connection.open])
            simp only [World.answers, hdial] at h ⊢
            rw [h]
            exact .target c c.open hstate (.inr ⟨hcommand, ⟨domain, hdomain, hdial⟩, rfl⟩)
      · rcases hbackend : c.backend with _ | sent
        · simp only [forwardCommand_none _ _ hbackend]
          exact .ends c hstate (.inl ⟨hcommand, hbackend⟩)
        · have hsome : c.backend ≠ none := by simp [hbackend]
          obtain ⟨response, h⟩ := forwardCommand_answers w lines hsome
          simp only [h]
          exact .target c c hstate (.inl ⟨hcommand, hsome, rfl⟩)
      · exact .answered c hstate (.inl hcommand)
    · simp only [forwardData]
      rcases hbackend : c.backend with _ | sent
      · exact .stray c hstate hbackend
      · have hbody : Receives w lines ⟨c, false⟩ ⟨c.deliverBody lines, false⟩ :=
          .body c hstate (by simp [hbackend])
        unfold Connection.deliverBody at hbody
        simp only [World.answers, Bool.not_true, Bool.false_eq_true, if_false, hbackend,
          Option.getD_some] at hbody ⊢
        split_ifs at hbody ⊢
        · exact hbody
        · exact hbody

/-! ## One packet and its lines -/

theorem not_isBlank_of_command (h : command a ≠ .unknown) : ¬ IsBlank a :=
  fun hblank => h (command_of_blank hblank)

theorem IsAnswered.not_ends (h : IsAnswered a) : ¬ Ends w c a := by
  rintro (⟨hf, -⟩ | ⟨hh, domain, e, hdomain, -⟩)
  · rcases h with h | ⟨h, -⟩ <;> rw [h] at hf <;> cases hf
  · rcases h with h | ⟨-, h⟩
    · rw [h] at hh
      cases hh
    · rw [h] at hdomain
      cases hdomain

theorem IsAnswered.not_target (h : IsAnswered a) : ¬ Target w c a c' := by
  rintro (⟨hf, -⟩ | ⟨hh, ⟨domain, hdomain, -⟩, -⟩)
  · rcases h with h | ⟨h, -⟩ <;> rw [h] at hf <;> cases hf
  · rcases h with h | ⟨-, h⟩
    · rw [h] at hh
      cases hh
    · rw [h] at hdomain
      cases hdomain

theorem Ends.not_target (h : Ends w c a) : ¬ Target w c a c' := by
  rintro (⟨hf, hsome, -⟩ | ⟨hh, ⟨domain, hdomain, hok⟩, -⟩)
  · rcases h with ⟨-, hnone⟩ | ⟨hh, -⟩
    · exact hsome hnone
    · rw [hh] at hf
      cases hf
  · rcases h with ⟨hf, -⟩ | ⟨-, domain', e, hdomain', he⟩
    · rw [hh] at hf
      cases hf
    · rw [hdomain] at hdomain'
      obtain rfl := Option.some.inj hdomain'
      rw [hok] at he
      cases he

theorem Target.unique {d : Connection} (h : Target w c a c') (h' : Target w c a d) : c' = d := by
  rcases h with ⟨hf, -, rfl⟩ | ⟨hh, -, rfl⟩ <;> rcases h' with ⟨hf', -, rfl⟩ | ⟨hh', -, rfl⟩
  · rfl
  · rw [hf] at hh'
    cases hh'
  · rw [hh] at hf'
    cases hf'
  · rfl

theorem Target.command_ne (h : Target w c a c') : command a ≠ .unknown := by
  rcases h with ⟨h, -⟩ | ⟨h, -⟩ <;> simp [h]

theorem Target.backend_ne (h : Target w c a c') : c'.backend ≠ none := by
  rcases h with ⟨-, h, rfl⟩ | ⟨-, -, rfl⟩
  · exact h
  · simp [Connection.open]

theorem Target.state_eq (h : Target w c a c') : c'.state = c.state := by
  rcases h with ⟨-, -, rfl⟩ | ⟨-, -, rfl⟩ <;> rfl

theorem Target.append (ha : IsLine a) (h : Target w c a c') : Target w c (a ++ b) c' := by
  have hcommand : command (a ++ b) = command a :=
    command_append ha (not_isBlank_of_command h.command_ne)
  rcases h with ⟨hf, hsome, rfl⟩ | ⟨hh, ⟨domain, hdomain, hok⟩, rfl⟩
  · exact .inl ⟨hcommand.trans hf, hsome, rfl⟩
  · exact .inr ⟨hcommand.trans hh, ⟨domain, heloDomain_append ha hdomain, hok⟩, rfl⟩

theorem Receives.receive_eq {s' : Session} (h : Receives w lines s s') :
    receive w s lines = s' := by
  generalize hs : receive w s lines = s''
  have h' := receives w lines s
  rw [hs] at h'
  cases h with
  | closed => cases h' with | closed => rfl
  | answered c hstate ha =>
    cases h' with
    | answered => rfl
    | ends _ _ he => exact absurd he ha.not_ends
    | target _ _ _ ht => exact absurd ht ha.not_target
    | body _ hdata => simp [hstate] at hdata
    | stray _ hdata => simp [hstate] at hdata
  | ends c hstate he =>
    cases h' with
    | answered _ _ ha => exact absurd he ha.not_ends
    | ends => rfl
    | target _ _ _ ht => exact absurd ht he.not_target
    | body _ hdata => simp [hstate] at hdata
    | stray => rfl
  | target c c' hstate ht =>
    cases h' with
    | answered _ _ ha => exact absurd ht ha.not_target
    | ends _ _ he => exact absurd ht he.not_target
    | target _ _ _ ht' => rw [ht.unique ht']
    | body _ hdata => simp [hstate] at hdata
    | stray _ hdata => simp [hstate] at hdata
  | body c hstate hsome =>
    cases h' with
    | answered _ hcommand => simp [hstate] at hcommand
    | ends _ hcommand => simp [hstate] at hcommand
    | target _ _ hcommand => simp [hstate] at hcommand
    | body => rfl
    | stray _ _ hnone => exact absurd hnone hsome
  | stray c hstate hnone =>
    cases h' with
    | answered _ hcommand => simp [hstate] at hcommand
    | ends => rfl
    | target _ _ hcommand => simp [hstate] at hcommand
    | body _ _ hsome => exact absurd hnone hsome
    | stray => rfl

theorem receiveEach_nil (w : World) (s : Session) : receiveEach w s [] = s := rfl

theorem receiveEach_cons (w : World) (s : Session) (line : Bytes) (lines : List Bytes) :
    receiveEach w s (line :: lines) = receiveEach w (receive w s [line]) lines := rfl

theorem receiveEach_append (w : World) (s : Session) (lines lines' : List Bytes) :
    receiveEach w s (lines ++ lines') = receiveEach w (receiveEach w s lines) lines' :=
  List.foldl_append

theorem receiveEach_closed (w : World) (c : Connection) :
    ∀ lines : List Bytes, receiveEach w ⟨c, true⟩ lines = ⟨c, true⟩
  | [] => rfl
  | line :: lines => by
    have hone : receive w ⟨c, true⟩ [line] = ⟨c, true⟩ := rfl
    rw [receiveEach_cons, hone, receiveEach_closed w c lines]

theorem receiveEach_answered (hstate : c.state = .command) :
    ∀ {lines : List Bytes}, (∀ l ∈ lines, IsAnswered l) →
      receiveEach w ⟨c, false⟩ lines = ⟨c, false⟩
  | [], _ => rfl
  | line :: lines, h => by
    obtain ⟨hline, hlines⟩ := List.forall_mem_cons.1 h
    have hone : receive w ⟨c, false⟩ [line] = ⟨c, false⟩ :=
      (Receives.answered c hstate (by simpa using hline)).receive_eq
    rw [receiveEach_cons, hone, receiveEach_answered hstate hlines]

/-! ## Measures -/

/-- How many bytes have been sent to backends. -/
def Connection.total (c : Connection) : ℕ := (c.backend.toList ++ c.left).flatten.length

theorem total_append {sent data : Bytes} (hsent : c.backend.getD [] = sent) :
    ({ c with backend := some (sent ++ data) } : Connection).total = c.total + data.length := by
  subst hsent
  unfold Connection.total
  rcases c.backend with _ | sent
  · simp
    omega
  · simp
    omega

theorem total_open : c.open.total = c.total := by
  unfold Connection.total Connection.open
  simp

theorem total_deliver : (c.deliver w lines).total = c.total + lines.flatten.length := by
  unfold Connection.deliver
  simp only
  split_ifs
  · exact total_append rfl
  · exact total_append rfl

theorem total_deliverBody : (c.deliverBody lines).total = c.total + lines.flatten.length := by
  unfold Connection.deliverBody
  simp only
  split_ifs
  · exact total_append rfl
  · exact total_append rfl

theorem Target.total_eq (h : Target w c a c') : c'.total = c.total := by
  rcases h with ⟨-, -, rfl⟩ | ⟨-, -, rfl⟩
  · rfl
  · exact total_open

/-- A session that has gone on, with at most `n` bytes more sent. -/
structure Grown (s s' : Session) (n : ℕ) : Prop where
  le_total : s.connection.total ≤ s'.connection.total
  total_le : s'.connection.total ≤ s.connection.total + n
  left_le : s.connection.left.length ≤ s'.connection.left.length
  changes_le : s.connection.changes.length ≤ s'.connection.changes.length

theorem Grown.refl (s : Session) (n : ℕ) : Grown s s n :=
  ⟨le_rfl, Nat.le_add_right _ _, le_rfl, le_rfl⟩

theorem Grown.trans {s' s'' : Session} {m n : ℕ} (h : Grown s s' m) (h' : Grown s' s'' n) :
    Grown s s'' (m + n) where
  le_total := h.le_total.trans h'.le_total
  total_le := by
    have h₁ := h.total_le
    have h₂ := h'.total_le
    omega
  left_le := h.left_le.trans h'.left_le
  changes_le := h.changes_le.trans h'.changes_le

theorem left_deliver : (c.deliver w lines).left = c.left := by
  unfold Connection.deliver
  simp only
  split_ifs <;> rfl

theorem changes_deliver_le : c.changes.length ≤ (c.deliver w lines).changes.length := by
  unfold Connection.deliver
  simp only
  split_ifs <;> simp [Connection.setState]

theorem grown_receive (w : World) (s : Session) (lines : List Bytes) :
    Grown s (receive w s lines) lines.flatten.length := by
  generalize hs : receive w s lines = s'
  have hr := receives w lines s
  rw [hs] at hr
  cases hr with
  | closed c => exact .refl _ _
  | answered c => exact .refl _ _
  | ends c => exact ⟨le_rfl, Nat.le_add_right _ _, le_rfl, le_rfl⟩
  | stray c => exact ⟨le_rfl, Nat.le_add_right _ _, le_rfl, le_rfl⟩
  | target c c' hstate ht =>
    have htotal : (c'.deliver w lines).total = c.total + lines.flatten.length := by
      rw [total_deliver, ht.total_eq]
    refine ⟨by simp only [htotal]; omega, by simp only [htotal]; omega, ?_, ?_⟩
    · simp only [left_deliver]
      rcases ht with ⟨-, -, rfl⟩ | ⟨-, -, rfl⟩
      · exact le_rfl
      · simp [Connection.open]
    · refine le_trans (le_of_eq ?_) changes_deliver_le
      rcases ht with ⟨-, -, rfl⟩ | ⟨-, -, rfl⟩ <;> rfl
  | body c hstate hsome =>
    have htotal : (c.deliverBody lines).total = c.total + lines.flatten.length := total_deliverBody
    refine ⟨by simp only [htotal]; omega, by simp only [htotal]; omega, ?_, ?_⟩
    · unfold Connection.deliverBody
      simp only
      split_ifs <;> exact le_rfl
    · unfold Connection.deliverBody
      simp only
      split_ifs <;> simp [Connection.setState]

theorem grown_receiveEach (w : World) : ∀ (lines : List Bytes) (s : Session),
    Grown s (receiveEach w s lines) lines.flatten.length
  | [], s => .refl s _
  | line :: lines, s => by
    have hone := grown_receive w s [line]
    have hrest := grown_receiveEach w lines (receive w s [line])
    have hboth := hone.trans hrest
    rw [receiveEach_cons, List.flatten_cons, List.length_append]
    simpa using hboth

theorem length_flatten_pos (hlines : ∀ l ∈ lines, IsLine l) (hne : lines ≠ []) :
    0 < lines.flatten.length := by
  rw [List.length_pos_iff, Ne, List.flatten_eq_nil_iff]
  intro hall
  obtain ⟨line, hline⟩ := List.exists_mem_of_ne_nil lines hne
  exact (hlines line hline).ne_nil (hall line hline)

/-! ## Commands for one backend -/

/-- The connection with more bytes sent to its backend. -/
def Connection.plus (c : Connection) (data : Bytes) : Connection :=
  { c with backend := some (c.backend.getD [] ++ data) }

theorem plus_plus : (c.plus a).plus b = c.plus (a ++ b) := by
  simp [Connection.plus]

theorem plus_nil (h : c.backend ≠ none) : c.plus [] = c := by
  obtain ⟨state, backend, left, changes⟩ := c
  rcases backend with _ | sent
  · exact absurd rfl h
  · simp [Connection.plus]

theorem noneReady_cons : NoneReady w c (line :: lines) ↔
    ¬ dataReadyCode <+: w.reply c.left.length (c.backend.getD []) line
      ∧ NoneReady w (c.plus line) lines := by
  constructor
  · intro h
    refine ⟨by simpa using h [] line lines rfl, fun pre l post hsplit => ?_⟩
    have hl := h (line :: pre) l post (by rw [hsplit]; rfl)
    simpa [Connection.plus] using hl
  · rintro ⟨hline, hrest⟩ pre l post hsplit
    cases pre with
    | nil =>
      obtain ⟨rfl, -⟩ := List.cons.inj hsplit
      simpa using hline
    | cons first pre =>
      obtain ⟨rfl, htail⟩ := List.cons.inj hsplit
      simpa [Connection.plus] using hrest pre l post htail

/-- Answers that begin with the code 354 begin with such an answer. -/
theorem NoneReady.not_response : ∀ {lines : List Bytes} {c : Connection}, NoneReady w c lines →
    ¬ dataReadyCode <+: w.response c.left.length (c.backend.getD []) lines
  | [], c, _, h => by
    have hnil := List.prefix_nil.1 h
    exact absurd hnil (by decide)
  | line :: lines, c, hnone, h => by
    obtain ⟨hline, hrest⟩ := noneReady_cons.1 hnone
    simp only [World.response] at h
    rcases w.three_le_reply c.left.length (c.backend.getD []) line with hnil | hthree
    · rw [hnil, List.nil_append] at h
      exact hrest.not_response h
    · exact hline (List.prefix_of_prefix_length_le h (List.prefix_append _ _) hthree)

theorem deliver_of_not_ready
    (h : ¬ (isDataCommand lines.flatten
      ∧ dataReadyCode <+: w.response c.left.length (c.backend.getD []) lines)) :
    c.deliver w lines = c.plus lines.flatten := by
  unfold Connection.deliver
  simp only [if_neg h]
  rfl

theorem deliver_of_ready (hdata : isDataCommand lines.flatten)
    (h : dataReadyCode <+: w.response c.left.length (c.backend.getD []) lines) :
    c.deliver w lines = (c.plus lines.flatten).setState .data := by
  unfold Connection.deliver
  simp only [if_pos (And.intro hdata h)]
  rfl

theorem NoneReady.deliver_eq (h : NoneReady w c lines) : c.deliver w lines = c.plus lines.flatten :=
  deliver_of_not_ready fun h' => h.not_response h'.2

theorem response_single (w : World) (n : ℕ) (sent line : Bytes) :
    w.response n sent [line] = w.reply n sent line := by
  simp [World.response]

/-- A first line that is no command for the connection's backend, or begins a message: bytes of it
are lost, or a backend is opened, or the state changes, or the client is closed. -/
theorem receiveEach_ne_plus (hstate : c.state = .command) (hsome : c.backend ≠ none)
    (hline : IsLine line) (hbad : ¬ (command line = .forwarded
      ∧ ¬ dataReadyCode <+: w.reply c.left.length (c.backend.getD []) line)) :
    receiveEach w (receive w ⟨c, false⟩ [line]) lines
      ≠ ⟨c.plus (line ++ lines.flatten), false⟩ := by
  intro heq
  have hgrown := grown_receiveEach w lines (receive w ⟨c, false⟩ [line])
  rw [heq] at hgrown
  have htotal : (c.plus (line ++ lines.flatten)).total
      = c.total + (line ++ lines.flatten).length := total_append rfl
  have hpos : 0 < line.length := List.length_pos_iff.2 hline.ne_nil
  generalize hs : receive w ⟨c, false⟩ [line] = s' at heq hgrown
  have hr := receives w [line] ⟨c, false⟩
  rw [hs] at hr
  cases hr with
  | answered =>
    have hle := hgrown.total_le
    simp only [htotal, List.length_append] at hle
    omega
  | ends =>
    rw [receiveEach_closed] at heq
    simp at heq
  | target _ c' _ ht =>
    rcases ht with ⟨hf, -, hc'⟩ | ⟨hh, -, hc'⟩ <;> rw [hc'] at hgrown
    · have hready : dataReadyCode <+: w.reply c.left.length (c.backend.getD []) line := by
        by_contra hnot
        simp only [List.flatten_singleton] at hf
        exact hbad ⟨hf, hnot⟩
      have hdata : isDataCommand [line].flatten := by
        simpa using w.isDataCommand_of_ready _ _ _ hready
      rw [← response_single] at hready
      have hle := hgrown.changes_le
      rw [deliver_of_ready hdata hready] at hle
      simp [Connection.setState, Connection.plus] at hle
    · have hle := hgrown.left_le
      rw [left_deliver] at hle
      obtain ⟨sent, hsent⟩ := Option.ne_none_iff_exists'.1 hsome
      simp [Connection.open, Connection.plus, hsent] at hle
  | body _ hdata => simp [hstate] at hdata
  | stray _ hdata => simp [hstate] at hdata

/-- The lines all reach the connection's backend, and nothing else happens, exactly when they are
commands for it and none begins a message. -/
theorem receiveEach_eq_plus_iff : ∀ {lines : List Bytes} {c : Connection}, c.state = .command →
    c.backend ≠ none → (∀ l ∈ lines, IsLine l) →
    (receiveEach w ⟨c, false⟩ lines = ⟨c.plus lines.flatten, false⟩ ↔
      (∀ l ∈ lines, command l = .forwarded) ∧ NoneReady w c lines)
  | [], c, _, hsome, _ => by simp [receiveEach_nil, plus_nil hsome, NoneReady]
  | line :: lines, c, hstate, hsome, hlines => by
    obtain ⟨hline, hlines⟩ := List.forall_mem_cons.1 hlines
    have ih := receiveEach_eq_plus_iff (c := c.plus line) hstate (by simp [Connection.plus]) hlines
    rw [plus_plus] at ih
    rw [receiveEach_cons, List.forall_mem_cons, noneReady_cons, List.flatten_cons]
    by_cases hgood : command line = .forwarded
        ∧ ¬ dataReadyCode <+: w.reply c.left.length (c.backend.getD []) line
    · have htarget : Target w c [line].flatten c := by
        rw [List.flatten_singleton]
        exact .inl ⟨hgood.1, hsome, rfl⟩
      have hone : receive w ⟨c, false⟩ [line] = ⟨c.plus line, false⟩ := by
        rw [(Receives.target c c hstate htarget).receive_eq, deliver_of_not_ready]
        · simp
        · rw [response_single]
          exact fun h => hgood.2 h.2
      rw [hone, ih]
      tauto
    · constructor
      · intro heq
        exact absurd heq (receiveEach_ne_plus hstate hsome hline hgood)
      · rintro ⟨⟨hf, -⟩, hnot, -⟩
        exact absurd ⟨hf, hnot⟩ hgood

/-! ## Messages -/

theorem deliverBody_of_ne (h : trim lines.flatten ≠ dataTerminator) :
    c.deliverBody lines = c.plus lines.flatten := by
  unfold Connection.deliverBody
  simp only [if_neg h]
  rfl

theorem deliverBody_of_eq (h : trim lines.flatten = dataTerminator) :
    c.deliverBody lines = (c.plus lines.flatten).setState .command := by
  unfold Connection.deliverBody
  simp only [if_pos h]
  rfl

theorem receiveEach_body : ∀ {lines : List Bytes} {c : Connection}, c.state = .data →
    c.backend ≠ none → (∀ l ∈ lines, trim l ≠ dataTerminator) →
    receiveEach w ⟨c, false⟩ lines = ⟨c.plus lines.flatten, false⟩
  | [], c, _, hsome, _ => by simp [receiveEach_nil, plus_nil hsome]
  | line :: lines, c, hstate, hsome, h => by
    obtain ⟨hline, hlines⟩ := List.forall_mem_cons.1 h
    have hone : receive w ⟨c, false⟩ [line] = ⟨c.plus line, false⟩ := by
      rw [(Receives.body c hstate hsome).receive_eq, deliverBody_of_ne]
      · simp
      · simpa using hline
    have hrest := receiveEach_body (c := c.plus line) hstate (by simp [Connection.plus]) hlines
    rw [receiveEach_cons, hone, hrest, plus_plus, List.flatten_cons]

theorem receive_eq_of_body (hstate : c.state = .data) (hsome : c.backend ≠ none)
    (hlines : ∀ l ∈ lines, IsLine l) (h : ∀ l ∈ lines, trim l ≠ dataTerminator) :
    receive w ⟨c, false⟩ lines = receiveEach w ⟨c, false⟩ lines := by
  have hdot : trim lines.flatten ≠ dataTerminator := by
    intro hdot
    obtain ⟨pre, line, post, rfl, -, hline, -⟩ := exists_dot hlines hdot
    exact h line (by simp) hline
  rw [(Receives.body c hstate hsome).receive_eq, deliverBody_of_ne hdot,
    receiveEach_body hstate hsome h]

/-- Up to its first dot line, a message is forwarded, and then the state is changed. -/
theorem receiveEach_dot {pre post : List Bytes} (hstate : c.state = .data)
    (hsome : c.backend ≠ none) (hpre : ∀ l ∈ pre, trim l ≠ dataTerminator)
    (hline : trim line = dataTerminator) :
    receiveEach w ⟨c, false⟩ (pre ++ line :: post)
      = receiveEach w ⟨(c.plus (pre.flatten ++ line)).setState .command, false⟩ post := by
  have hone : receive w ⟨c.plus pre.flatten, false⟩ [line]
      = ⟨(c.plus (pre.flatten ++ line)).setState .command, false⟩ := by
    have hbody : Receives w [line] ⟨c.plus pre.flatten, false⟩ _ :=
      .body (c.plus pre.flatten) hstate (by simp [Connection.plus])
    rw [hbody.receive_eq, deliverBody_of_eq (by simpa using hline), plus_plus]
    simp
  rw [receiveEach_append, receiveEach_body hstate hsome hpre, receiveEach_cons, hone]

theorem alike_of_data (hstate : c.state = .data) (hsome : c.backend ≠ none)
    (hlines : ∀ l ∈ lines, IsLine l)
    (heq : receive w ⟨c, false⟩ lines = receiveEach w ⟨c, false⟩ lines) : Alike w c lines := by
  rcases hfind : lines.find? fun l => trim l = dataTerminator with _ | line
  · refine .body lines hstate fun l hl => ?_
    simpa using List.find?_eq_none.1 hfind l hl
  · obtain ⟨hdot, pre, post, rfl, hpre⟩ := List.find?_eq_some_iff_append.1 hfind
    have hline : trim line = dataTerminator := by simpa using hdot
    have hpre' : ∀ l ∈ pre, trim l ≠ dataTerminator := fun l hl => by simpa using hpre l hl
    have hisLine : IsLine line := hlines line (by simp)
    have hnotBlank : ¬ IsBlank line := fun hb => not_dot_of_blank hb hline
    rw [receiveEach_dot hstate hsome hpre' hline, (Receives.body c hstate hsome).receive_eq] at heq
    have hgrown := grown_receiveEach w post
      ⟨(c.plus (pre.flatten ++ line)).setState .command, false⟩
    by_cases hall : trim (pre ++ line :: post).flatten = dataTerminator
    · -- the other lines are blank, and those after the dot are not forwarded
      obtain ⟨pre', line', post', hsplit, hblank, hdot', hblank'⟩ :=
        exists_dot hlines hall
      have hpreBlank : ∀ l ∈ pre, IsBlank l := by
        intro l hl
        have hmem : l ∈ pre' ++ line' :: post' := by
          rw [← hsplit]
          exact List.mem_append_left _ hl
        by_contra hnb
        rcases List.mem_append.1 hmem with h | h
        · exact hnb (hblank l h)
        · rcases List.mem_cons.1 h with rfl | h
          · exact hpre' l hl hdot'
          · exact hnb (hblank' l h)
      have hpostBlank : ∀ l ∈ post, IsBlank l := by
        rw [List.flatten_append, trim_append_of_blank (isBlank_flatten.2 hpreBlank),
          List.flatten_cons, trim_append_eq_dot hisLine hnotBlank] at hall
        exact isBlank_flatten.1 hall.2
      have hanswered : ∀ l ∈ post, IsAnswered l :=
        fun l hl => .inl (command_of_blank (hpostBlank l hl))
      rw [receiveEach_answered rfl hanswered] at heq
      have htotal := congrArg (fun s => s.connection.total) heq
      have hplus : ((c.plus (pre.flatten ++ line)).setState .command).total
          = c.total + (pre.flatten ++ line).length := total_append rfl
      simp only [total_deliverBody, hplus, List.flatten_append, List.flatten_cons,
        List.length_append] at htotal
      have hnil : post = [] := by
        by_contra hne
        have hpos := length_flatten_pos (fun l hl => hlines l (by simp [hl])) hne
        omega
      subst hnil
      exact .dot pre line hstate hpreBlank hline
    · rw [← heq, deliverBody_of_ne hall] at hgrown
      have hle := hgrown.changes_le
      simp [Connection.setState, Connection.plus] at hle

/-! ## Packets and lines -/

/-- The lines after a first one that goes to a backend, and the packet. -/
theorem alike_of_target (hstate : c.state = .command) (hlines : ∀ l ∈ line :: lines, IsLine l)
    (ht : Target w c line c')
    (heq : (⟨c'.deliver w (line :: lines), false⟩ : Session)
      = receiveEach w ⟨c'.deliver w [line], false⟩ lines) : Alike w c (line :: lines) := by
  obtain ⟨hline, hlines⟩ := List.forall_mem_cons.1 hlines
  have hnotBlank : ¬ IsBlank line := not_isBlank_of_command ht.command_ne
  have hdataCommand := isDataCommand_append (b := lines.flatten) hline hnotBlank
  rw [← List.flatten_cons] at hdataCommand
  by_cases hready : dataReadyCode <+: w.reply c'.left.length (c'.backend.getD []) line
  · have hdata : isDataCommand line := w.isDataCommand_of_ready _ _ _ hready
    have hc' : c' = c := by
      rcases ht with ⟨-, -, h⟩ | ⟨hh, -, -⟩
      · exact h
      · rw [command_of_isDataCommand hdata] at hh
        cases hh
    rw [hc'] at heq hready
    obtain ⟨sent, hsent⟩ := Option.ne_none_iff_exists'.1 (hc' ▸ ht.backend_ne)
    by_cases hblank : ∀ l ∈ lines, IsBlank l
    · exact .ready line lines sent hstate hsent hdata (by simpa [hsent] using hready) hblank
    · -- the packet does not begin a message, its first line does
      exfalso
      have hnot : ¬ isDataCommand (line :: lines).flatten :=
        fun h => hblank (isBlank_flatten.1 (hdataCommand.1 h).2)
      have hgrown := grown_receiveEach w lines ⟨c.deliver w [line], false⟩
      rw [← heq, deliver_of_not_ready (fun h => hnot h.1),
        deliver_of_ready (by simpa using hdata) (by rw [response_single]; exact hready)] at hgrown
      have hle := hgrown.changes_le
      simp [Connection.setState, Connection.plus] at hle
  · have hnone : ¬ (isDataCommand (line :: lines).flatten
        ∧ dataReadyCode <+: w.response c'.left.length (c'.backend.getD []) (line :: lines)) := by
      rintro ⟨hdata, hresponse⟩
      have hblank := isBlank_flatten.1 (hdataCommand.1 hdata).2
      refine NoneReady.not_response (noneReady_cons.2 ⟨hready, ?_⟩) hresponse
      rintro pre l post rfl hl
      exact not_isDataCommand_of_blank (hblank l (by simp)) (w.isDataCommand_of_ready _ _ _ hl)
    have hone : c'.deliver w [line] = c'.plus line := by
      rw [deliver_of_not_ready]
      · simp
      · rw [response_single]
        exact fun h => hready h.2
    rw [deliver_of_not_ready hnone, hone, List.flatten_cons, ← plus_plus] at heq
    have hstate' : (c'.plus line).state = .command := ht.state_eq.trans hstate
    obtain ⟨hforwarded, hrest⟩ :=
      (receiveEach_eq_plus_iff hstate' (by simp [Connection.plus]) hlines).1 heq.symm
    exact .taken line lines c' hstate ht hforwarded (noneReady_cons.2 ⟨hready, hrest⟩)

theorem isAnswered_or_ends_or_target (w : World) (c : Connection) (data : Bytes) :
    IsAnswered data ∨ Ends w c data ∨ ∃ c', Target w c data c' := by
  rcases hcommand : command data with _ | _ | _
  · rcases hdomain : heloDomain data with _ | domain
    · exact .inl (.inr ⟨hcommand, hdomain⟩)
    · rcases hdial : (w.dial c.dialed domain).result with e | u
      · exact .inr (.inl (.inr ⟨hcommand, domain, e, hdomain, hdial⟩))
      · exact .inr (.inr ⟨c.open, .inr ⟨hcommand, ⟨domain, hdomain, hdial⟩, rfl⟩⟩)
  · by_cases hbackend : c.backend = none
    · exact .inr (.inl (.inl ⟨hcommand, hbackend⟩))
    · exact .inr (.inr ⟨c, .inl ⟨hcommand, hbackend, rfl⟩⟩)
  · exact .inl (.inl hcommand)

/-- A packet without a line for a backend. -/
theorem alike_of_answered (hstate : c.state = .command) (hne : lines ≠ [])
    (hlines : ∀ l ∈ lines, IsLine l) (hanswered : ∀ l ∈ lines, IsAnswered l)
    (heq : receive w ⟨c, false⟩ lines = ⟨c, false⟩) : Alike w c lines := by
  rcases isAnswered_or_ends_or_target w c lines.flatten with h | h | ⟨c', h⟩
  · exact .answered lines hstate hanswered h
  · rw [(Receives.ends c hstate h).receive_eq] at heq
    simp at heq
  · rw [(Receives.target c c' hstate h).receive_eq] at heq
    have htotal := congrArg (fun s => s.connection.total) heq
    have hpos := length_flatten_pos hlines hne
    simp only [total_deliver, h.total_eq] at htotal
    omega

/-- A packet whose first line that the server does not answer itself closes the client. -/
theorem alike_of_ends {pre post : List Bytes} (hstate : c.state = .command)
    (hpre : ∀ l ∈ pre, IsAnswered l) (hline : Ends w c line)
    (heq : receive w ⟨c, false⟩ (pre ++ line :: post) = ⟨c, true⟩) :
    Alike w c (pre ++ line :: post) := by
  rcases isAnswered_or_ends_or_target w c (pre ++ line :: post).flatten with h | h | ⟨c', h⟩
  · rw [(Receives.answered c hstate h).receive_eq] at heq
    simp at heq
  · exact .ends pre line post hstate hpre hline h
  · rw [(Receives.target c c' hstate h).receive_eq] at heq
    simp at heq

/-- A packet whose first line that the server does not answer itself is for a backend. -/
theorem alike_of_pre {pre post : List Bytes} (hstate : c.state = .command)
    (hlines : ∀ l ∈ pre ++ line :: post, IsLine l) (hline : Target w c line c')
    (heq : receive w ⟨c, false⟩ (pre ++ line :: post)
      = receiveEach w ⟨c'.deliver w [line], false⟩ post) : Alike w c (pre ++ line :: post) := by
  have hgrown := grown_receiveEach w post ⟨c'.deliver w [line], false⟩
  rw [← heq] at hgrown
  have hisLine : IsLine line := hlines line (by simp)
  have hpos : 0 < line.length := List.length_pos_iff.2 hisLine.ne_nil
  have hone : (c'.deliver w [line]).total = c.total + line.length := by
    rw [total_deliver, hline.total_eq, List.flatten_singleton]
  have hge := hgrown.le_total
  have hle := hgrown.total_le
  rcases isAnswered_or_ends_or_target w c (pre ++ line :: post).flatten with h | h | ⟨d, h⟩
  · rw [(Receives.answered c hstate h).receive_eq] at hge
    simp only [hone] at hge
    omega
  · rw [(Receives.ends c hstate h).receive_eq] at hge
    simp only [hone] at hge
    omega
  · rw [(Receives.target c d hstate h).receive_eq] at hle heq
    simp only [total_deliver, h.total_eq, hline.total_eq, List.flatten_append, List.flatten_cons,
      List.flatten_nil, List.length_append, List.length_nil] at hle
    -- the packet brings all its bytes to the backend, so its lines must
    have hnil : pre = [] := by
      by_contra hne
      have hpre := length_flatten_pos (fun l hl => hlines l (List.mem_append_left _ hl)) hne
      omega
    subst hnil
    rw [List.nil_append] at h heq hlines ⊢
    have hd : d = c' := h.unique (by simpa using hline.append hisLine)
    rw [hd] at heq
    exact alike_of_target hstate hlines hline heq

theorem alike_of_command (hstate : c.state = .command) (hne : lines ≠ [])
    (hlines : ∀ l ∈ lines, IsLine l)
    (heq : receive w ⟨c, false⟩ lines = receiveEach w ⟨c, false⟩ lines) : Alike w c lines := by
  classical
  rcases hfind : lines.find? fun l => ¬ IsAnswered l with _ | line
  · have hanswered : ∀ l ∈ lines, IsAnswered l := fun l hl => by
      simpa using List.find?_eq_none.1 hfind l hl
    rw [receiveEach_answered hstate hanswered] at heq
    exact alike_of_answered hstate hne hlines hanswered heq
  · obtain ⟨hnot, pre, post, rfl, hpre⟩ := List.find?_eq_some_iff_append.1 hfind
    have hnot' : ¬ IsAnswered line := by simpa using hnot
    have hpre' : ∀ l ∈ pre, IsAnswered l := fun l hl => by simpa using hpre l hl
    rw [receiveEach_append, receiveEach_answered hstate hpre', receiveEach_cons] at heq
    rcases isAnswered_or_ends_or_target w c line with h | h | ⟨c', h⟩
    · exact absurd h hnot'
    · have hone : receive w ⟨c, false⟩ [line] = ⟨c, true⟩ :=
        (Receives.ends c hstate (by simpa using h)).receive_eq
      rw [hone, receiveEach_closed] at heq
      exact alike_of_ends hstate hpre' h heq
    · have hone : receive w ⟨c, false⟩ [line] = ⟨c'.deliver w [line], false⟩ :=
        (Receives.target c c' hstate (by simpa using h)).receive_eq
      rw [hone] at heq
      exact alike_of_pre hstate hlines h heq

/-- A connection that is within a message has a backend. -/
def Connection.Sound (c : Connection) : Prop := c.state = .data → c.backend ≠ none

theorem Alike.receive_eq (h : Alike w c lines) (hsound : c.Sound) (hlines : ∀ l ∈ lines, IsLine l) :
    receive w ⟨c, false⟩ lines = receiveEach w ⟨c, false⟩ lines := by
  cases h with
  | single line => rfl
  | body _ hstate hbody => exact receive_eq_of_body hstate (hsound hstate) hlines hbody
  | dot blanks line hstate hblank hline =>
    have hnotDot : ∀ l ∈ blanks, trim l ≠ dataTerminator :=
      fun l hl => not_dot_of_blank (hblank l hl)
    have hall : trim (blanks ++ [line]).flatten = dataTerminator := by
      rw [List.flatten_append, trim_append_of_blank (isBlank_flatten.2 hblank),
        List.flatten_singleton]
      exact hline
    rw [receiveEach_dot hstate (hsound hstate) hnotDot hline, receiveEach_nil,
      (Receives.body c hstate (hsound hstate)).receive_eq, deliverBody_of_eq hall]
    simp
  | answered _ hstate hanswered hflat =>
    rw [(Receives.answered c hstate hflat).receive_eq, receiveEach_answered hstate hanswered]
  | ends pre line post hstate hpre hline hflat =>
    have hone : receive w ⟨c, false⟩ [line] = ⟨c, true⟩ :=
      (Receives.ends c hstate (by simpa using hline)).receive_eq
    rw [(Receives.ends c hstate hflat).receive_eq, receiveEach_append,
      receiveEach_answered hstate hpre, receiveEach_cons, hone, receiveEach_closed]
  | taken line lines c' hstate ht hforwarded hnone =>
    obtain ⟨hisLine, hlines⟩ := List.forall_mem_cons.1 hlines
    obtain ⟨hready, hrest⟩ := noneReady_cons.1 hnone
    have hall : Target w c (line :: lines).flatten c' := ht.append hisLine
    have hone : receive w ⟨c, false⟩ [line] = ⟨c'.plus line, false⟩ := by
      rw [(Receives.target c c' hstate (by simpa using ht)).receive_eq, deliver_of_not_ready]
      · simp
      · rw [response_single]
        exact fun h => hready h.2
    have hstate' : (c'.plus line).state = .command := ht.state_eq.trans hstate
    have heach := (receiveEach_eq_plus_iff hstate' (by simp [Connection.plus]) hlines).2
      ⟨hforwarded, hrest⟩
    rw [(Receives.target c c' hstate hall).receive_eq, hnone.deliver_eq, receiveEach_cons, hone,
      heach, plus_plus, List.flatten_cons]
  | ready line blanks sent hstate hsent hdata hready hblank =>
    obtain ⟨hisLine, -⟩ := List.forall_mem_cons.1 hlines
    have hcommand := command_of_isDataCommand hdata
    have ht : Target w c line c := .inl ⟨hcommand, by simp [hsent], rfl⟩
    have hnotBlank : ¬ IsBlank line := not_isBlank_of_command ht.command_ne
    have hready' : dataReadyCode <+: w.reply c.left.length (c.backend.getD []) line := by
      simpa [hsent] using hready
    have hone : receive w ⟨c, false⟩ [line] = ⟨(c.plus line).setState .data, false⟩ := by
      rw [(Receives.target c c hstate (by simpa using ht)).receive_eq,
        deliver_of_ready (by simpa using hdata) (by rw [response_single]; exact hready')]
      simp
    have hallData : isDataCommand (line :: blanks).flatten :=
      (isDataCommand_append hisLine hnotBlank).2 ⟨hdata, isBlank_flatten.2 hblank⟩
    have hallReady : dataReadyCode
        <+: w.response c.left.length (c.backend.getD []) (line :: blanks) :=
      hready'.trans (List.prefix_append _ _)
    have hrest := receiveEach_body (w := w) (c := (c.plus line).setState .data) rfl
      (by simp [Connection.plus, Connection.setState])
      fun l hl => not_dot_of_blank (hblank l hl)
    have hall : Target w c (line :: blanks).flatten c := ht.append hisLine
    rw [(Receives.target c c hstate hall).receive_eq, deliver_of_ready hallData hallReady,
      receiveEach_cons, hone, hrest, List.flatten_cons, ← plus_plus]
    rfl

theorem receive_eq_iff (hsound : c.Sound) (p : Packet) :
    receive w ⟨c, false⟩ p.1 = receiveEach w ⟨c, false⟩ p.1 ↔ Alike w c p.1 := by
  refine ⟨fun heq => ?_, fun h => h.receive_eq hsound p.2.2⟩
  rcases hstate : c.state with _ | _
  · exact alike_of_command hstate p.2.1 p.2.2 heq
  · exact alike_of_data hstate (hsound hstate) p.2.2 heq

theorem sound_receive (hsound : s.connection.Sound) (lines : List Bytes) :
    (receive w s lines).connection.Sound := by
  generalize hs : receive w s lines = s'
  have hr := receives w lines s
  rw [hs] at hr
  cases hr with
  | closed => exact hsound
  | answered => exact hsound
  | ends => exact hsound
  | stray => exact hsound
  | target c c' =>
    intro _
    show (c'.deliver w lines).backend ≠ none
    unfold Connection.deliver
    simp only
    split_ifs <;> simp [Connection.setState]
  | body c =>
    intro _
    show (c.deliverBody lines).backend ≠ none
    unfold Connection.deliverBody
    simp only
    split_ifs <;> simp [Connection.setState]

/-- A server that gets the client's lines in packets does at every packet what one does that gets
them one by one, exactly when every packet is one that is handled as its lines are. -/
theorem agreed_iff_alike (w : World) (packets : List Packet) :
    Always (step w) Agreed (.new, .new) packets ↔
      EachStep (step w) (fun st p => st.1.closed ∨ Alike w st.1.connection p.1) (.new, .new)
        packets := by
  have htotal : ∀ st p, ∃ st', step w st p = some st' := fun _ _ => ⟨_, rfl⟩
  obtain ⟨t, hrun⟩ := exists_run htotal packets (.new, .new)
  refine always_iff_eachStep (J := fun st => st.1.connection.Sound) ?_ ?_ ?_ ?_ rfl hrun
  · rintro ⟨s, t⟩ p st' hs h
    obtain rfl := Option.some.inj h
    exact sound_receive hs p.1
  · rintro ⟨⟨c, closed⟩, t⟩ p st' hs hagreed halike h
    obtain rfl := Option.some.inj h
    obtain rfl : (⟨c, closed⟩ : Session) = t := hagreed
    show receive w ⟨c, closed⟩ p.1 = receiveEach w ⟨c, closed⟩ p.1
    cases closed with
    | true => rw [receiveEach_closed, (Receives.closed c).receive_eq]
    | false => exact (receive_eq_iff hs p).2 (by simpa using halike)
  · rintro ⟨⟨c, closed⟩, t⟩ p st' hs hagreed halike h heq
    obtain rfl := Option.some.inj h
    obtain rfl : (⟨c, closed⟩ : Session) = t := hagreed
    cases closed with
    | true => exact halike (.inl rfl)
    | false => exact halike (.inr ((receive_eq_iff hs p).1 heq))
  · intro h
    cases h

/-- A backend that accepts every command. -/
def obliging : World where
  dial _ _ := ⟨true, true, some (ascii "220 b\r\n")⟩
  reply _ _ line := if isDataCommand line then ascii "354 c\r\n" else ascii "250 d\r\n"
  three_le_reply _ _ line := by split_ifs <;> decide
  isDataCommand_of_ready _ _ line h := by
    by_contra hnot
    rw [if_neg hnot] at h
    exact absurd h (by decide)

/-- The end of a message in one packet with its last line: the server stays in the message. -/
theorem dot_in_packet_missed :
    let packet (lines : List String) := lines.map ascii
    let packets := [packet ["EHLO a\r\n"], packet ["DATA\r\n"], packet ["hi\r\n", ".\r\n"]]
    (∀ lines ∈ packets, lines ≠ [] ∧ ∀ line ∈ lines, IsLine line)
      ∧ (packets.foldl (receive obliging) .new).connection.changes = [.data]
      ∧ (packets.foldl (receiveEach obliging) .new).connection.changes = [.command, .data] := by
  decide +kernel

end PhpSmtp

end ProtocolProxy
