import ProtocolProxy.Digits

/-!
# Strings cast to integers

PHP's `(int)` of a string: the number at the front of it, after blanks, whatever follows.  Digits
are read as an integer, a number with a point or an exponent as a double of which the fraction is
dropped.  What a 64-bit integer does not hold becomes the nearest one it holds.
-/

namespace Numeric

open Digits

def isBlank (c : Char) : Bool := c = ' ' ∨ (9 ≤ c.toNat ∧ c.toNat ≤ 13)

def isDigit (c : Char) : Bool := (toDigit 10 c).isSome

/-- Whether there is a minus sign at the front, and what follows the sign. -/
def readSign : List Char → Bool × List Char
  | '-' :: s => (true, s)
  | '+' :: s => (false, s)
  | s => (false, s)

/-- The digits after a point, if there is a point, and what follows them. -/
def readFraction : List Char → Option (List Char) × List Char
  | '.' :: s => (some (s.takeWhile isDigit), s.dropWhile isDigit)
  | s => (none, s)

/-- `zend_strtod` takes any larger exponent for this one. -/
def maxExponent : ℕ := 19999

/-- An exponent, which has at least one digit. -/
def readExponent : List Char → Option ℤ
  | c :: s =>
    let sign := readSign s
    let ds := sign.2.takeWhile isDigit
    if (c = 'e' ∨ c = 'E') ∧ ds ≠ [] then
      let e : ℤ := min (value 10 0 ds) maxExponent
      some (if sign.1 then -e else e)
    else none
  | [] => none

/-- The integer nearest to `n / d`, the even one of two. -/
def roundEven (n d : ℕ) : ℕ :=
  let q := n / d
  let r := n % d
  if 2 * r < d ∨ 2 * r = d ∧ q % 2 = 0 then q else q + 1

/-- The double nearest to `n / d`, the even one of two, as a fraction. -/
def nearestDouble (n d : ℕ) : ℕ × ℕ :=
  let e : ℤ := (n.log2 : ℤ) - d.log2
  -- the largest `e` with `2 ^ e ≤ n / d`
  let e := if n * 2 ^ (-e).toNat < d * 2 ^ e.toNat then e - 1 else e
  -- doubles of this size are the multiples of `2 ^ k`
  let k := max (e - 52) (-1074)
  let m := roundEven (n * 2 ^ (-k).toNat) (d * 2 ^ k.toNat)
  (m * 2 ^ k.toNat, 2 ^ (-k).toNat)

/-- The integer part of the double nearest to `n / d`. -/
def truncDouble (n d : ℕ) : ℕ :=
  let x := nearestDouble n d
  x.1 / x.2

def saturate (negative : Bool) (n : ℕ) : ℤ :=
  if negative then max (-n) (-2 ^ 63) else min n (2 ^ 63 - 1)

def intCast (s : List Char) : ℤ :=
  let (negative, s) := readSign (s.dropWhile isBlank)
  let ds := s.takeWhile isDigit
  let (fraction, s) := readFraction (s.dropWhile isDigit)
  let exponent := readExponent s
  let fds := fraction.getD []
  if ds = [] ∧ fds = [] then 0
  else if fraction = none ∧ exponent = none then saturate negative (value 10 0 ds)
  else
    let scale : ℤ := exponent.getD 0 - fds.length
    saturate negative
      (truncDouble (value 10 0 (ds ++ fds) * 10 ^ scale.toNat) (10 ^ (-scale).toNat))

/-- A digit is neither a blank nor a sign. -/
theorem readSign_of_isDigit {c : Char} {s : List Char} (h : isDigit c = true) :
    readSign ((c :: s).dropWhile isBlank) = (false, c :: s) := by
  obtain ⟨d, hd⟩ := Option.isSome_iff_exists.1 h
  obtain ⟨hlt, rfl⟩ := eq_digitChar_of_toDigit hd
  interval_cases d <;> rfl

theorem readSign_of_isPlain {s : List Char} (h : isPlain s = true) :
    readSign (s.dropWhile isBlank) = (false, stripPlus s) := by
  rcases s with _ | ⟨c, s⟩
  · rfl
  · by_cases hc : c = '+'
    · subst hc
      rfl
    · obtain ⟨-, hds⟩ := isPlain_iff.1 h
      rw [stripPlus_cons s hc] at hds ⊢
      exact readSign_of_isDigit (hds c (by simp))

/-- Of digits with at most a plus sign in front nothing is ignored. -/
theorem intCast_of_isPlain {s : List Char} (h : isPlain s = true) :
    intCast s = min (value 10 0 (stripPlus s) : ℤ) (2 ^ 63 - 1) := by
  obtain ⟨hne, hds⟩ := isPlain_iff.1 h
  have htake : (stripPlus s).takeWhile isDigit = stripPlus s := by
    rw [List.takeWhile_eq_self_iff]
    exact hds
  have hdrop : (stripPlus s).dropWhile isDigit = [] := by
    rw [List.dropWhile_eq_nil_iff]
    exact hds
  simp [intCast, readSign_of_isPlain h, htake, hdrop, hne, readFraction, readExponent, saturate]

/-- What is written as digits is cast back, if an integer holds it. -/
theorem intCast_toDigits {n : ℕ} (h : n < 2 ^ 63) : intCast (Nat.toDigits 10 n) = n := by
  have hds := isSome_toDigit_of_mem (b := 10) (by omega) (by omega) n
  rw [intCast_of_isPlain (isPlain_digits Nat.toDigits_ne_nil hds), stripPlus_digits hds,
    value_toDigits (by omega) (by omega)]
  omega

-- a number with a fraction or an exponent is cut off only after it was rounded to a double
example : intCast " +080.9e1x".toList = 809 := by decide

example : intCast "0.99999999999999999999".toList = 1 := by decide

end Numeric
