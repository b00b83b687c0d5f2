import Mathlib

/-!
# Numbers as text

How a number is written in base `b` (`Nat.toDigits`) and read back, in the two ways Rust's
standard library reads one: a field of an address, where the digits are counted (`readNumber`), and
a whole string as an unsigned integer (`parseUnsigned`).  Both read back what was written
(`readNumber_toDigits`, `parseUnsigned_toDigits`).

The splits of a text at a separator are here too (`splitOnce`, `splitn`).
-/

namespace Digits

/-- `char::to_digit`: the value of a digit in base `b`, letters in either case. -/
def toDigit (b : ℕ) (c : Char) : Option ℕ :=
  let v := if '0' ≤ c ∧ c ≤ '9' then c.toNat - '0'.toNat
    else if 'a' ≤ c ∧ c ≤ 'z' then c.toNat - 'a'.toNat + 10
    else if 'A' ≤ c ∧ c ≤ 'Z' then c.toNat - 'A'.toNat + 10
    else b
  if v < b then some v else none

/-- The number the digits spell, from `acc` on. -/
def value (b : ℕ) (acc : ℕ) (ds : List Char) : ℕ :=
  ds.foldl (fun n c => n * b + (toDigit b c).getD 0) acc

/-- Read the digits at the front, at most `max` of them, as a number below `bound`.  A leading zero
is refused unless `zeroPrefix` allows it or it stands alone. -/
def readNumber (b max bound : ℕ) (zeroPrefix : Bool) (s : List Char) : Option (ℕ × List Char) :=
  let ds := s.takeWhile fun c => (toDigit b c).isSome
  if ds.length = 0 ∨ max < ds.length then none
  else if zeroPrefix = false ∧ ds.head? = some '0' ∧ 1 < ds.length then none
  else if value b 0 ds < bound then some (value b 0 ds, s.drop ds.length)
  else none

/-- One digit more: `checked_mul` by the base, then `checked_add` of the digit. -/
def pushDigit (bound : ℕ) (n : ℕ) (c : Char) : Option ℕ :=
  (toDigit 10 c).bind fun d =>
    if n * 10 < bound ∧ n * 10 + d < bound then some (n * 10 + d) else none

/-- `str::parse` for an unsigned integer type with `bound` values: an optional plus sign, then
digits and nothing else, without overflow. -/
def parseUnsigned (bound : ℕ) (s : List Char) : Option ℕ :=
  match s with
  | [] => none
  | ['+'] => none
  | '+' :: ds => ds.foldlM (pushDigit bound) 0
  | ds => ds.foldlM (pushDigit bound) 0

/-- A string without the plus sign at its front, if there is one. -/
def stripPlus : List Char → List Char
  | '+' :: s => s
  | s => s

/-- Digits, at least one of them, with at most a plus sign in front. -/
def isPlain (s : List Char) : Bool :=
  stripPlus s ≠ [] ∧ ∀ c ∈ stripPlus s, (toDigit 10 c).isSome

/-- `str::split_once`: the text before and after the first `c`. -/
def splitOnce (c : Char) : List Char → Option (List Char × List Char)
  | [] => none
  | x :: xs => if x = c then some ([], xs) else (splitOnce c xs).map fun p => (x :: p.1, p.2)

/-- `str::splitn`: the pieces between the first `n - 1` separators and what follows them. -/
def splitn (c : Char) : ℕ → List Char → List (List Char)
  | 0, _ => []
  | 1, s => [s]
  | n + 2, s =>
    match splitOnce c s with
    | none => [s]
    | some (a, b) => a :: splitn c (n + 1) b

/-! ## Digits -/

theorem toDigit_digitChar {b d : ℕ} (hd : d < b) (hb : b ≤ 16) :
    toDigit b (Nat.digitChar d) = some d := by
  have h16 : d < 16 := by omega
  interval_cases d <;> simp [toDigit, Nat.digitChar, hd]

theorem isSome_toDigit_of_mem {b : ℕ} (hb : 1 < b) (hb' : b ≤ 16) (n : ℕ) :
    ∀ c ∈ Nat.toDigits b n, (toDigit b c).isSome := by
  induction n using Nat.strong_induction_on with
  | _ n ih =>
    intro c hc
    rw [Nat.toDigits_eq_if hb] at hc
    split_ifs at hc with hn
    · rw [List.mem_singleton] at hc
      rw [hc, toDigit_digitChar hn hb']
      rfl
    · rcases List.mem_append.1 hc with hc | hc
      · exact ih (n / b) (Nat.div_lt_self (by omega) hb) c hc
      · rw [List.mem_singleton] at hc
        rw [hc, toDigit_digitChar (Nat.mod_lt n (by omega)) hb']
        rfl

theorem value_append (b acc : ℕ) (xs ys : List Char) :
    value b acc (xs ++ ys) = value b (value b acc xs) ys := by
  simp only [value, List.foldl_append]

theorem value_toDigits {b : ℕ} (hb : 1 < b) (hb' : b ≤ 16) (n : ℕ) :
    value b 0 (Nat.toDigits b n) = n := by
  induction n using Nat.strong_induction_on with
  | _ n ih =>
    rw [Nat.toDigits_eq_if hb]
    split_ifs with hn
    · simp [value, toDigit_digitChar hn hb']
    · rw [value_append, ih (n / b) (Nat.div_lt_self (by omega) hb)]
      simp only [value, List.foldl_cons, List.foldl_nil,
        toDigit_digitChar (Nat.mod_lt n (by omega)) hb', Option.getD_some]
      rw [Nat.mul_comm]
      exact Nat.div_add_mod n b

/-- Only zero is written with a zero in front. -/
theorem head_toDigits {b : ℕ} (hb : 1 < b) (hb' : b ≤ 16) (n : ℕ)
    (h : (Nat.toDigits b n).head? = some '0') : n = 0 := by
  induction n using Nat.strong_induction_on with
  | _ n ih =>
    rw [Nat.toDigits_eq_if hb] at h
    split_ifs at h with hn
    · have hd := toDigit_digitChar hn hb'
      simp only [List.head?_cons, Option.some.injEq] at h
      have h0 : toDigit b '0' = some 0 := toDigit_digitChar (d := 0) (by omega) hb'
      rw [h, h0] at hd
      exact (Option.some.inj hd).symm
    · have hne : (Nat.toDigits b (n / b)) ≠ [] := Nat.toDigits_ne_nil
      rw [List.head?_append_of_ne_nil _ hne] at h
      have := ih (n / b) (Nat.div_lt_self (by omega) hb) h
      rw [Nat.div_eq_zero_iff] at this
      omega

/-- A number is read back from its digits, whatever else follows that is no digit. -/
theorem readNumber_toDigits {b max bound n : ℕ} {zeroPrefix : Bool} {rest : List Char}
    (hb : 1 < b) (hb' : b ≤ 16) (hmax : 0 < max) (hn : n < b ^ max) (hbound : n < bound)
    (hrest : ∀ c ∈ rest.head?, toDigit b c = none) :
    readNumber b max bound zeroPrefix (Nat.toDigits b n ++ rest) = some (n, rest) := by
  have htake : (Nat.toDigits b n ++ rest).takeWhile (fun c => (toDigit b c).isSome)
      = Nat.toDigits b n := by
    rw [List.takeWhile_append_of_pos (isSome_toDigit_of_mem hb hb' n)]
    cases rest with
    | nil => simp
    | cons c rest => simp [hrest c (by simp)]
  have hlen : (Nat.toDigits b n).length ≤ max := (Nat.length_toDigits_le_iff hb hmax).2 hn
  have hpos : 0 < (Nat.toDigits b n).length := Nat.length_toDigits_pos
  have hzero : ¬ (zeroPrefix = false ∧ (Nat.toDigits b n).head? = some '0'
      ∧ 1 < (Nat.toDigits b n).length) := by
    rintro ⟨-, h0, h1⟩
    rw [head_toDigits hb hb' n h0] at h1
    simp at h1
  simp only [readNumber, htake]
  rw [if_neg (by omega), if_neg hzero, value_toDigits hb hb', if_pos hbound,
    List.drop_left]

theorem eq_digitChar_of_toDigit {c : Char} {d : ℕ} (h : toDigit 10 c = some d) :
    d < 10 ∧ c = Nat.digitChar d := by
  by_cases hc : '0' ≤ c ∧ c ≤ '9'
  · have hlow : 48 ≤ c.toNat := hc.1
    have hhigh : c.toNat ≤ 57 := hc.2
    have hd : d = c.toNat - 48 := by
      simp only [toDigit, if_pos hc] at h
      split_ifs at h
      exact (Option.some.inj h).symm
    refine ⟨by omega, ?_⟩
    rw [hd, ← Char.ofNat_toNat c]
    interval_cases c.toNat <;> rfl
  · simp only [toDigit, if_neg hc] at h
    split_ifs at h <;> omega

/-- Digits without a zero in front, but for a zero alone, are the ones their number is written
with. -/
theorem toDigits_value (ds : List Char) (hne : ds ≠ []) (hds : ∀ c ∈ ds, (toDigit 10 c).isSome)
    (hzero : ds.head? = some '0' → ds.length = 1) : Nat.toDigits 10 (value 10 0 ds) = ds := by
  induction ds using List.reverseRecOn with
  | nil => exact absurd rfl hne
  | append_singleton ds c ih =>
    obtain ⟨d, hd⟩ := Option.isSome_iff_exists.1 (hds c (by simp))
    obtain ⟨hlt, hc⟩ := eq_digitChar_of_toDigit hd
    have hv : value 10 0 (ds ++ [c]) = value 10 0 ds * 10 + d := by
      simp [value, hd]
    rw [hv, Nat.toDigits_eq_if (by omega)]
    rcases eq_or_ne ds [] with rfl | hne'
    · simp [value, hlt, hc]
    · have hhead : ds.head? ≠ some '0' := by
        intro h0
        have hlen := hzero (by rw [List.head?_append_of_ne_nil _ hne', h0])
        simp [hne'] at hlen
      have hrest := ih hne' (fun c hc => hds c (by simp [hc])) (fun h0 => absurd h0 hhead)
      have hpos : value 10 0 ds ≠ 0 := by
        intro h0
        rw [h0] at hrest
        rw [← hrest] at hhead
        exact hhead rfl
      rw [if_neg (by omega), show (value 10 0 ds * 10 + d) / 10 = value 10 0 ds by omega,
        show (value 10 0 ds * 10 + d) % 10 = d by omega, hrest, hc]

/-- What is read without zeros in front is the number's own text. -/
theorem eq_toDigits_of_readNumber {max bound n : ℕ} {s rest : List Char}
    (h : readNumber 10 max bound false s = some (n, rest)) : s = Nat.toDigits 10 n ++ rest := by
  simp only [readNumber] at h
  split_ifs at h with hlen hzero hbound
  cases h
  have hds : ∀ c ∈ s.takeWhile (fun c => (toDigit 10 c).isSome), (toDigit 10 c).isSome :=
    fun c hc => List.mem_takeWhile_imp (p := fun c => (toDigit 10 c).isSome) hc
  have hsplit := List.prefix_iff_eq_append.1 (List.takeWhile_prefix (l := s)
    fun c => (toDigit 10 c).isSome)
  have hne : s.takeWhile (fun c => (toDigit 10 c).isSome) ≠ [] := by
    intro h0
    rw [h0] at hlen
    simp at hlen
  have hone : (s.takeWhile fun c => (toDigit 10 c).isSome).head? = some '0' →
      (s.takeWhile fun c => (toDigit 10 c).isSome).length = 1 := by
    intro h0
    have hle := Nat.not_lt.1 fun h1 => hzero ⟨trivial, h0, h1⟩
    have hpos := List.length_pos_iff.2 hne
    omega
  rw [toDigits_value _ hne hds hone]
  exact hsplit.symm

theorem readNumber_suffix {b max bound n : ℕ} {zeroPrefix : Bool} {s rest : List Char}
    (h : readNumber b max bound zeroPrefix s = some (n, rest)) : rest <:+ s := by
  simp only [readNumber] at h
  split_ifs at h
  cases h
  exact List.drop_suffix _ _

/-! ## Whole strings -/

theorem le_value : ∀ (ds : List Char) (n : ℕ), n ≤ value 10 n ds
  | [], _ => le_rfl
  | c :: ds, n => by
    have h : n * 10 + (toDigit 10 c).getD 0 ≤ value 10 n (c :: ds) := le_value ds _
    omega

theorem foldlM_pushDigit {bound : ℕ} (ds : List Char) (acc : ℕ)
    (hds : ∀ c ∈ ds, (toDigit 10 c).isSome) (h : value 10 acc ds < bound) :
    ds.foldlM (pushDigit bound) acc = some (value 10 acc ds) := by
  induction ds generalizing acc with
  | nil => rfl
  | cons c ds ih =>
    obtain ⟨d, hd⟩ := Option.isSome_iff_exists.1 (hds c (by simp))
    have hv : value 10 acc (c :: ds) = value 10 (acc * 10 + d) ds := by
      simp [value, hd]
    have hlt := le_value ds (acc * 10 + d)
    rw [hv] at h
    have hpush : pushDigit bound acc c = some (acc * 10 + d) := by
      simp only [pushDigit, hd, Option.bind_some]
      rw [if_pos (by omega)]
    rw [List.foldlM_cons, hpush, hv]
    exact ih _ (fun c hc => hds c (by simp [hc])) h

theorem foldlM_pushDigit_of_le {bound : ℕ} (ds : List Char) (acc : ℕ) (hacc : acc < bound)
    (hds : ∀ c ∈ ds, (toDigit 10 c).isSome) (h : bound ≤ value 10 acc ds) :
    ds.foldlM (pushDigit bound) acc = none := by
  induction ds generalizing acc with
  | nil => exact absurd hacc (Nat.not_lt.2 h)
  | cons c ds ih =>
    obtain ⟨d, hd⟩ := Option.isSome_iff_exists.1 (hds c (by simp))
    have hv : value 10 acc (c :: ds) = value 10 (acc * 10 + d) ds := by
      simp [value, hd]
    rw [hv] at h
    simp only [List.foldlM_cons, pushDigit, hd, Option.bind_some]
    split_ifs with hfits
    · exact ih _ hfits.2 (fun c hc => hds c (by simp [hc])) h
    · rfl

theorem parseUnsigned_eq (bound : ℕ) (s : List Char) : parseUnsigned bound s
    = if stripPlus s = [] then none else (stripPlus s).foldlM (pushDigit bound) 0 := by
  unfold parseUnsigned
  split
  · rfl
  · rfl
  · rename_i ds hne
    have hstrip : stripPlus ('+' :: ds) = ds := rfl
    rw [hstrip, if_neg hne]
  · rename_i hnil _ hplus
    have hstrip : stripPlus s = s := by
      unfold stripPlus
      split
      · exact absurd rfl (hplus _)
      · rfl
    rw [hstrip, if_neg hnil]

theorem isPlain_iff {s : List Char} :
    isPlain s = true ↔ stripPlus s ≠ [] ∧ ∀ c ∈ stripPlus s, (toDigit 10 c).isSome := by
  simp [isPlain]

theorem isSome_toDigit_of_foldlM {bound : ℕ} : ∀ {ds : List Char} {acc n : ℕ},
    ds.foldlM (pushDigit bound) acc = some n → ∀ c ∈ ds, (toDigit 10 c).isSome
  | [], _, _, _ => by simp
  | d :: ds, acc, n, h => by
    rw [List.foldlM_cons, Option.bind_eq_bind, Option.bind_eq_some_iff] at h
    obtain ⟨acc', hpush, hrest⟩ := h
    intro c hc
    rcases List.mem_cons.1 hc with rfl | hc
    · unfold pushDigit at hpush
      rw [Option.bind_eq_some_iff] at hpush
      obtain ⟨v, hv, -⟩ := hpush
      rw [hv]
      rfl
    · exact isSome_toDigit_of_foldlM hrest c hc

theorem parseUnsigned_of_isPlain {bound : ℕ} {s : List Char} (h : isPlain s = true)
    (hbound : 0 < bound) : parseUnsigned bound s
      = if value 10 0 (stripPlus s) < bound then some (value 10 0 (stripPlus s)) else none := by
  obtain ⟨hne, hds⟩ := isPlain_iff.1 h
  rw [parseUnsigned_eq, if_neg hne]
  split_ifs with hlt
  · exact foldlM_pushDigit _ 0 hds hlt
  · exact foldlM_pushDigit_of_le _ 0 hbound hds (Nat.not_lt.1 hlt)

theorem parseUnsigned_of_not_isPlain {bound : ℕ} {s : List Char} (h : isPlain s = false) :
    parseUnsigned bound s = none := by
  rw [parseUnsigned_eq]
  split_ifs with hnil
  · rfl
  · rw [Option.eq_none_iff_forall_ne_some]
    intro n hn
    have hplain := isPlain_iff.2 ⟨hnil, isSome_toDigit_of_foldlM hn⟩
    rw [h] at hplain
    simp at hplain

theorem stripPlus_cons {c : Char} (s : List Char) (h : c ≠ '+') : stripPlus (c :: s) = c :: s := by
  unfold stripPlus
  split
  · rename_i heq
    exact absurd (List.cons.inj heq).1 h
  · rfl

theorem stripPlus_of_notMem {s : List Char} (h : '+' ∉ s) : stripPlus s = s := by
  rcases s with _ | ⟨c, s⟩
  · rfl
  · refine stripPlus_cons s ?_
    rintro rfl
    simp at h

theorem stripPlus_digits {ds : List Char} (hds : ∀ c ∈ ds, (toDigit 10 c).isSome) :
    stripPlus ds = ds := by
  refine stripPlus_of_notMem fun h => ?_
  have := hds _ h
  simp [toDigit] at this

theorem isPlain_digits {ds : List Char} (hne : ds ≠ []) (hds : ∀ c ∈ ds, (toDigit 10 c).isSome) :
    isPlain ds = true := by
  refine isPlain_iff.2 ?_
  rw [stripPlus_digits hds]
  exact ⟨hne, hds⟩

/-- A string of digits is parsed to the number they spell, if the type holds it. -/
theorem parseUnsigned_digits {bound : ℕ} {ds : List Char} (hne : ds ≠ [])
    (hds : ∀ c ∈ ds, (toDigit 10 c).isSome) (hbound : 0 < bound) :
    parseUnsigned bound ds = if value 10 0 ds < bound then some (value 10 0 ds) else none := by
  rw [parseUnsigned_of_isPlain (isPlain_digits hne hds) hbound, stripPlus_digits hds]

/-- What is written as digits is parsed back, if the type holds it. -/
theorem parseUnsigned_toDigits {bound n : ℕ} (h : n < bound) :
    parseUnsigned bound (Nat.toDigits 10 n) = some n := by
  have hds := isSome_toDigit_of_mem (b := 10) (by omega) (by omega) n
  rw [parseUnsigned_digits Nat.toDigits_ne_nil hds (by omega),
    value_toDigits (by omega) (by omega), if_pos h]

/-! ## Splits -/

theorem splitOnce_eq_none {c : Char} : ∀ {s : List Char}, splitOnce c s = none ↔ c ∉ s
  | [] => by simp [splitOnce]
  | x :: xs => by
    simp only [splitOnce]
    split_ifs with hx
    · simp [hx]
    · simp [splitOnce_eq_none (s := xs), Ne.symm hx, eq_comm]

theorem splitOnce_eq_some {c : Char} : ∀ {s a b : List Char},
    splitOnce c s = some (a, b) ↔ s = a ++ c :: b ∧ c ∉ a
  | [], a, b => by simp [splitOnce]
  | x :: xs, a, b => by
    simp only [splitOnce]
    split_ifs with hx
    · subst hx
      constructor
      · intro h
        cases h
        simp
      · rintro ⟨h, hn⟩
        cases a with
        | nil => simpa using h
        | cons y ys =>
          rw [List.cons_append] at h
          injection h with h₁ h₂
          exact absurd (h₁ ▸ List.mem_cons_self) hn
    · simp only [Option.map_eq_some_iff, Prod.exists, Prod.mk.injEq]
      constructor
      · rintro ⟨a', b', h, rfl, rfl⟩
        obtain ⟨rfl, hn⟩ := splitOnce_eq_some.1 h
        simp [hn, Ne.symm hx]
      · rintro ⟨h, hn⟩
        cases a with
        | nil =>
          rw [List.nil_append] at h
          injection h with h₁
          exact absurd h₁ hx
        | cons y ys =>
          rw [List.cons_append] at h
          injection h with h₁ h₂
          exact ⟨ys, b, splitOnce_eq_some.2 ⟨h₂, fun hc => hn (by simp [hc])⟩, by rw [h₁], rfl⟩

end Digits
