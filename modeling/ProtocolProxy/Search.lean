import Mathlib

/-!
# Looking for a word in a stream

The first place at which a word stands in a list (`firstAt`), the beginning of a stream being enough
to find it as soon as it has the whole word (`firstAt_of_isPrefix`).  A stream that comes in chunks
is read up to some point by taking whole chunks (`upTo`).
-/

namespace Search

variable {α : Type*} [DecidableEq α] {w l m : List α} {i j n : ℕ} {chunks : List (List α)}

/-- The first place at which the word stands. -/
def firstAt (w : List α) : List α → Option ℕ
  | [] => if w = [] then some 0 else none
  | x :: l => if w.isPrefixOf (x :: l) then some 0 else (firstAt w l).map (· + 1)

theorem firstAt_eq_some : firstAt w l = some i ↔ w <+: l.drop i ∧ i ≤ l.length
    ∧ ∀ j < i, ¬ w <+: l.drop j := by
  induction l generalizing i with
  | nil =>
    unfold firstAt
    constructor
    · intro h
      split_ifs at h with hw
      cases h
      simp [hw]
    · rintro ⟨hw, hi, -⟩
      obtain rfl : i = 0 := by simpa using hi
      rw [if_pos (by simpa using hw)]
  | cons x l ih =>
    unfold firstAt
    by_cases hw : w.isPrefixOf (x :: l) = true
    · rw [if_pos hw]
      rw [List.isPrefixOf_iff_prefix] at hw
      constructor
      · intro h
        cases h
        exact ⟨hw, Nat.zero_le _, fun j hj => absurd hj (Nat.not_lt_zero j)⟩
      · rintro ⟨-, -, hfirst⟩
        rcases Nat.eq_zero_or_pos i with rfl | hi
        · rfl
        · exact absurd hw (hfirst 0 hi)
    · rw [if_neg hw, Option.map_eq_some_iff]
      rw [List.isPrefixOf_iff_prefix] at hw
      constructor
      · rintro ⟨k, hk, rfl⟩
        obtain ⟨hat, hle, hfirst⟩ := ih.1 hk
        refine ⟨hat, by simpa using hle, fun j hj => ?_⟩
        cases j with
        | zero => exact hw
        | succ j => exact hfirst j (by omega)
      · rintro ⟨hat, hle, hfirst⟩
        cases i with
        | zero => exact absurd hat hw
        | succ i =>
          refine ⟨i, ih.2 ⟨hat, by simpa using hle, fun j hj => ?_⟩, rfl⟩
          exact hfirst (j + 1) (by omega)

theorem isSome_firstAt : (firstAt w l).isSome ↔ w <:+: l := by
  induction l with
  | nil =>
    unfold firstAt
    rw [List.infix_nil]
    split_ifs with hw <;> simp [hw]
  | cons x l ih =>
    unfold firstAt
    rw [List.infix_cons_iff, ← ih, ← List.isPrefixOf_iff_prefix]
    split_ifs with hw <;> simp [hw]

theorem firstAt_eq_none_of_isPrefix (hlm : l <+: m) (h : firstAt w m = none) :
    firstAt w l = none := by
  rw [← Option.not_isSome_iff_eq_none, isSome_firstAt] at h ⊢
  exact fun hl => h (hl.trans hlm.isInfix)

theorem length_le_of_firstAt (h : firstAt w l = some i) : i + w.length ≤ l.length := by
  obtain ⟨hat, hle, -⟩ := firstAt_eq_some.1 h
  have hlen := hat.length_le
  rw [List.length_drop] at hlen
  omega

omit [DecidableEq α] in
/-- A word stands in the beginning of a stream where it stands in the stream, if it ends there. -/
theorem isPrefix_drop_iff (hlm : l <+: m) (hj : j ≤ l.length) :
    w <+: l.drop j ↔ w <+: m.drop j ∧ j + w.length ≤ l.length := by
  obtain ⟨t, rfl⟩ := hlm
  rw [List.drop_append_of_le_length hj]
  constructor
  · intro h
    have hlen := h.length_le
    rw [List.length_drop] at hlen
    exact ⟨h.trans (List.prefix_append _ _), by omega⟩
  · rintro ⟨h, hlen⟩
    exact List.prefix_of_prefix_length_le h (List.prefix_append _ _)
      (by rw [List.length_drop]; omega)

/-- The beginning of a stream shows the word exactly if it has all of it. -/
theorem firstAt_of_isPrefix (hlm : l <+: m) (h : firstAt w m = some i) :
    firstAt w l = if i + w.length ≤ l.length then some i else none := by
  obtain ⟨hat, -, hfirst⟩ := firstAt_eq_some.1 h
  split_ifs with hle
  · rw [firstAt_eq_some, isPrefix_drop_iff hlm (by omega)]
    refine ⟨⟨hat, hle⟩, by omega, fun j hj hj' => ?_⟩
    exact hfirst j hj ((isPrefix_drop_iff hlm (by omega)).1 hj').1
  · by_contra hsome
    obtain ⟨k, hk⟩ := Option.ne_none_iff_exists'.1 hsome
    obtain ⟨hat', hle', -⟩ := firstAt_eq_some.1 hk
    obtain ⟨hm, hend⟩ := (isPrefix_drop_iff hlm hle').1 hat'
    rcases Nat.lt_or_ge k i with hki | hik
    · exact hfirst k hki hm
    · omega

/-- What has been read once `n` elements have, the chunks being read whole. -/
def upTo (n : ℕ) : List (List α) → List α
  | [] => []
  | c :: chunks => if n ≤ c.length then c else c ++ upTo (n - c.length) chunks

omit [DecidableEq α] in
/-- Less than a chunk is read too much. -/
theorem length_upTo_lt {b : ℕ} (hb : ∀ c ∈ chunks, c.length ≤ b) (hn : 0 < n) :
    (upTo n chunks).length < n + b := by
  induction chunks generalizing n with
  | nil =>
    show 0 < n + b
    omega
  | cons c chunks ih =>
    obtain ⟨hc, hchunks⟩ := List.forall_mem_cons.1 hb
    unfold upTo
    split_ifs with hle
    · omega
    · have hrest := ih (n := n - c.length) hchunks (by omega)
      rw [List.length_append]
      omega

omit [DecidableEq α] in
theorem le_length_upTo (hn : n ≤ chunks.flatten.length) : n ≤ (upTo n chunks).length := by
  induction chunks generalizing n with
  | nil => exact hn
  | cons c chunks ih =>
    rw [List.flatten_cons, List.length_append] at hn
    unfold upTo
    split_ifs with hle
    · exact hle
    · have hrest := ih (n := n - c.length) (by omega)
      rw [List.length_append]
      omega

end Search
