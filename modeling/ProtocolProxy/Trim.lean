import Mathlib

/-!
# Trimming lists

A list without the blanks at its two ends, for any notion of blank.  A list whose last element is
blank keeps its trimmed text apart from whatever is appended to it (`trimmed_append`): either only
blanks follow, or a blank stands between the two.  The first word of a list is the same as that of
its trimmed text (`firstWord_trimmed`).
-/

namespace Trim

variable {α : Type*} (p : α → Bool)

def trimmed (l : List α) : List α := (l.dropWhile p).rdropWhile p

variable {p} {a b l : List α}

variable (p) (l) in
theorem rdropWhile_append_rtakeWhile : l.rdropWhile p ++ l.rtakeWhile p = l := by
  unfold List.rdropWhile List.rtakeWhile
  rw [← List.reverse_append, List.takeWhile_append_dropWhile, List.reverse_reverse]

theorem dropWhile_append_of_not_blank (ha : ¬ ∀ x ∈ a, p x) :
    (a ++ b).dropWhile p = a.dropWhile p ++ b := by
  have hne : ¬ (a.dropWhile p).isEmpty := by
    rw [List.isEmpty_iff, List.dropWhile_eq_nil_iff]
    exact ha
  rw [List.dropWhile_append, if_neg hne]

theorem trimmed_append_left (ha : ∀ x ∈ a, p x) : trimmed p (a ++ b) = trimmed p b := by
  unfold trimmed
  rw [List.dropWhile_append_of_pos ha]

theorem rdropWhile_append_of_blank (hb : ∀ x ∈ b, p x) :
    (a ++ b).rdropWhile p = a.rdropWhile p := by
  unfold List.rdropWhile
  rw [List.reverse_append, List.dropWhile_append_of_pos (by simpa using hb)]

theorem rdropWhile_append_of_not_blank (hb : ¬ ∀ x ∈ b, p x) :
    (a ++ b).rdropWhile p = a ++ b.rdropWhile p := by
  unfold List.rdropWhile
  rw [List.reverse_append, dropWhile_append_of_not_blank (by simpa using hb), List.reverse_append,
    List.reverse_reverse]

theorem trimmed_eq_nil : trimmed p l = [] ↔ ∀ x ∈ l, p x := by
  unfold trimmed
  rw [List.rdropWhile_eq_nil_iff]
  constructor
  · intro h
    have hnil : l.dropWhile p = [] := by
      by_contra hne
      have hhead := List.head_dropWhile_not p hne
      rw [h _ (List.head_mem hne)] at hhead
      exact Bool.noConfusion hhead
    exact List.dropWhile_eq_nil_iff.1 hnil
  · intro h x hx
    exact h x ((List.dropWhile_suffix p).subset hx)

/-- The blanks that end a list come right after its trimmed text. -/
theorem dropWhile_eq_trimmed_append (ha : ¬ ∀ x ∈ a, p x) {z : α} (hz : p z)
    (hlast : a.getLast? = some z) :
    ∃ x rest, p x ∧ a.dropWhile p = trimmed p a ++ x :: rest := by
  obtain ⟨init, rfl⟩ := List.getLast?_eq_some_iff.1 hlast
  have hinit : ¬ ∀ x ∈ init, p x := by
    intro h
    refine ha fun x hx => ?_
    rcases List.mem_append.1 hx with hx | hx
    · exact h x hx
    · rw [List.mem_singleton.1 hx]
      exact hz
  set body := init.dropWhile p with hbody
  have hdrop : (init ++ [z]).dropWhile p = body ++ [z] := dropWhile_append_of_not_blank hinit
  have htrim : trimmed p (init ++ [z]) = body.rdropWhile p := by
    unfold trimmed
    rw [hdrop, rdropWhile_append_of_blank (by simpa using hz)]
  rw [hdrop, htrim]
  nth_rewrite 1 [← rdropWhile_append_rtakeWhile p body]
  rcases htail : body.rtakeWhile p with _ | ⟨y, tail⟩
  · exact ⟨z, [], hz, by simp⟩
  · refine ⟨y, tail ++ [z], ?_, by simp⟩
    exact List.mem_rtakeWhile_imp (by rw [htail]; exact List.mem_cons_self)

theorem trimmed_append (ha : ¬ ∀ x ∈ a, p x) {z : α} (hz : p z) (hlast : a.getLast? = some z) :
    ((∀ x ∈ b, p x) ∧ trimmed p (a ++ b) = trimmed p a)
      ∨ (¬ ∀ x ∈ b, p x) ∧ ∃ x rest, p x ∧ trimmed p (a ++ b) = trimmed p a ++ x :: rest := by
  have hdrop : (a ++ b).dropWhile p = a.dropWhile p ++ b := dropWhile_append_of_not_blank ha
  by_cases hb : ∀ x ∈ b, p x
  · left
    refine ⟨hb, ?_⟩
    show ((a ++ b).dropWhile p).rdropWhile p = (a.dropWhile p).rdropWhile p
    rw [hdrop, rdropWhile_append_of_blank hb]
  · right
    obtain ⟨x, rest, hx, heq⟩ := dropWhile_eq_trimmed_append ha hz hlast
    refine ⟨hb, x, rest ++ b.rdropWhile p, hx, ?_⟩
    show ((a ++ b).dropWhile p).rdropWhile p = _
    rw [hdrop, rdropWhile_append_of_not_blank hb, heq, List.append_assoc, List.cons_append]

/-- Trimming stops at what is not blank, and what follows it loses its blanks at the end. -/
theorem trimmed_append_solid {c : List α} (ha : ∀ x ∈ a, p x) (hb : ∀ x ∈ b, p x = false)
    (hne : b ≠ []) : trimmed p (a ++ (b ++ c)) = b ++ c.rdropWhile p := by
  have hdrop : (b ++ c).dropWhile p = b ++ c := by
    obtain ⟨x, b, rfl⟩ := List.exists_cons_of_ne_nil hne
    rw [List.cons_append, List.dropWhile_cons_of_neg (by simp [hb x List.mem_cons_self])]
  rw [trimmed_append_left ha]
  unfold trimmed
  rw [hdrop]
  by_cases hc : ∀ x ∈ c, p x
  · rw [rdropWhile_append_of_blank hc, List.rdropWhile_eq_nil_iff.2 hc, List.append_nil,
      List.rdropWhile_eq_self_iff]
    intro hb'
    rw [hb _ (List.getLast_mem hb')]
    simp
  · exact rdropWhile_append_of_not_blank hc

theorem trimmed_eq_self (h : ∀ x ∈ l, p x = false) : trimmed p l = l := by
  rcases eq_or_ne l [] with rfl | hne
  · rfl
  · simpa using trimmed_append_solid (a := []) (c := []) (by simp) h hne

theorem dropWhile_congr {q : α → Bool} : ∀ {l : List α}, (∀ x ∈ l, p x = q x) →
    l.dropWhile p = l.dropWhile q
  | [], _ => rfl
  | x :: l, h => by
    obtain ⟨hx, hl⟩ := List.forall_mem_cons.1 h
    rw [List.dropWhile_cons, List.dropWhile_cons, hx, dropWhile_congr hl]

theorem trimmed_congr {q : α → Bool} (h : ∀ x ∈ l, p x = q x) : trimmed p l = trimmed q l := by
  have hdrop : l.dropWhile p = l.dropWhile q := dropWhile_congr h
  have hmem : ∀ x ∈ (l.dropWhile q).reverse, p x = q x := fun x hx =>
    h x ((List.dropWhile_suffix q).subset (List.mem_reverse.1 hx))
  unfold trimmed List.rdropWhile
  rw [hdrop, dropWhile_congr hmem]

variable (p) (l) in
theorem exists_eq_trimmed :
    ∃ before after, l = before ++ trimmed p l ++ after ∧ (∀ x ∈ before, p x)
      ∧ ∀ x ∈ after, p x := by
  refine ⟨l.takeWhile p, (l.dropWhile p).rtakeWhile p, ?_, fun x hx => List.mem_takeWhile_imp hx,
    fun x hx => List.mem_rtakeWhile_imp hx⟩
  unfold trimmed
  rw [List.append_assoc, rdropWhile_append_rtakeWhile, List.takeWhile_append_dropWhile]

/-! ## Texts -/

/-- The Unicode property `White_Space`. -/
def isWhitespace (c : Char) : Bool :=
  let n := c.toNat
  (9 ≤ n ∧ n ≤ 13) ∨ n = 0x20 ∨ n = 0x85 ∨ n = 0xA0 ∨ n = 0x1680 ∨ (0x2000 ≤ n ∧ n ≤ 0x200A)
    ∨ n = 0x2028 ∨ n = 0x2029 ∨ n = 0x202F ∨ n = 0x205F ∨ n = 0x3000

/-- The codes of what PHP's `trim` strips: space, tab, line feed, carriage return, NUL and vertical
tab. -/
def phpBlanks : List ℕ := [32, 9, 10, 13, 0, 11]

/-- `str::trim`. -/
def trim (s : List Char) : List Char := trimmed isWhitespace s

/-- `str::split_whitespace`. -/
def splitWhitespace (s : List Char) : List (List Char) :=
  (s.splitOnP isWhitespace).filter (· ≠ [])

theorem splitWhitespace_append {w rest : List Char} {c : Char} (hne : w ≠ [])
    (hw : ∀ x ∈ w, isWhitespace x = false) (hc : isWhitespace c) :
    splitWhitespace (w ++ c :: rest) = w :: splitWhitespace rest := by
  unfold splitWhitespace
  rw [List.splitOnP_append_cons_of_forall_mem hw c hc, List.filter_cons_of_pos (by simpa using hne)]

/-! ## Words -/

variable {q : α → Bool} {d : List α}

variable (q) in
/-- The first word: what stands before the next blank once the leading blanks are gone. -/
def firstWord (l : List α) : List α := (l.dropWhile q).takeWhile fun x => !q x

theorem firstWord_eq_nil : firstWord q l = [] ↔ ∀ x ∈ l, q x := by
  unfold firstWord
  rw [← List.dropWhile_eq_nil_iff]
  refine ⟨fun h => ?_, fun h => by rw [h]; rfl⟩
  by_contra hne
  have hhead := List.head_dropWhile_not q hne
  rw [List.takeWhile_eq_nil_iff] at h
  exact h (List.length_pos_iff.2 hne) (by simpa [List.head_eq_getElem] using hhead)

theorem firstWord_append_blank (hb : ∀ x ∈ b, q x) : firstWord q (a ++ b) = firstWord q a := by
  by_cases ha : ∀ x ∈ a, q x
  · rw [firstWord_eq_nil.2 ha, firstWord_eq_nil]
    exact List.forall_mem_append.2 ⟨ha, hb⟩
  · unfold firstWord
    rw [dropWhile_append_of_not_blank ha, List.takeWhile_append]
    split_ifs with hall
    · have hnil : (b.takeWhile fun x => !q x) = [] := by
        rw [List.takeWhile_eq_nil_iff]
        intro hlen
        simp [hb _ (List.getElem_mem hlen)]
      have hfull := (List.takeWhile_prefix fun x => !q x).eq_of_length hall
      rw [hnil, List.append_nil, hfull]
    · rfl

theorem firstWord_append_left (ha : ∀ x ∈ a, q x) : firstWord q (a ++ b) = firstWord q b := by
  unfold firstWord
  rw [List.dropWhile_append_of_pos ha]

/-- Blanks at the ends do not matter to the first word. -/
theorem firstWord_trimmed (hpq : ∀ x, p x → q x) : firstWord q (trimmed p l) = firstWord q l := by
  obtain ⟨before, after, hl, hbefore, hafter⟩ := exists_eq_trimmed p l
  nth_rewrite 2 [hl]
  rw [firstWord_append_blank fun x hx => hpq x (hafter x hx),
    firstWord_append_left fun x hx => hpq x (hbefore x hx)]

theorem firstWord_rdropWhile (hpq : ∀ x, p x → q x) :
    firstWord q (l.rdropWhile p) = firstWord q l := by
  nth_rewrite 2 [← rdropWhile_append_rtakeWhile p l]
  exact (firstWord_append_blank fun x hx => hpq x (List.mem_rtakeWhile_imp hx)).symm

/-- A first word is mapped to the first word if the blanks are. -/
theorem firstWord_map {β : Type*} {f : α → β} {r : β → Bool} :
    ∀ {l : List α}, (∀ x ∈ l, r (f x) = q x) → firstWord r (l.map f) = (firstWord q l).map f := by
  intro l hl
  have hdrop : ∀ {l : List α}, (∀ x ∈ l, r (f x) = q x) →
      (l.map f).dropWhile r = (l.dropWhile q).map f := by
    intro l hl
    induction l with
    | nil => rfl
    | cons x l ih =>
      obtain ⟨hx, hl⟩ := List.forall_mem_cons.1 hl
      rw [List.map_cons, List.dropWhile_cons, List.dropWhile_cons, hx]
      split_ifs
      · exact ih hl
      · rfl
  have htake : ∀ {l : List α}, (∀ x ∈ l, r (f x) = q x) →
      ((l.map f).takeWhile fun x => !r x) = (l.takeWhile fun x => !q x).map f := by
    intro l hl
    induction l with
    | nil => rfl
    | cons x l ih =>
      obtain ⟨hx, hl⟩ := List.forall_mem_cons.1 hl
      rw [List.map_cons, List.takeWhile_cons, List.takeWhile_cons, hx]
      split_ifs
      · rw [ih hl, List.map_cons]
      · rfl
  unfold firstWord
  rw [hdrop hl, htake fun x hx => hl x ((List.dropWhile_suffix q).subset hx)]

end Trim
