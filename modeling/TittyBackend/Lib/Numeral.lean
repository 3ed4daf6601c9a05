import TittyBackend.Lib.Digits
import Mathlib.Data.Nat.Log

/-!
# Numerals without padding

A numeral that has no more digits than its value needs, and how it is read off the front of a
text: the digits go on for as long as they can, and too many of them are an error.
-/

namespace Numerals.Alphabet

variable {b : ℕ} (A : Alphabet b)

/-- The numeral of `n` without leading zeros. -/
def numeral (n : ℕ) : Text := A.write (Nat.log b n + 1) n

def isDigit (c : Char) : Bool := (A.val c).isSome

/-- Read a numeral of at most `k` digits. With `padded` it may begin with a zero that is not its
only digit. -/
def scan (k : ℕ) (padded : Bool) (s : Text) : Option (ℕ × Text) :=
  let digits := s.takeWhile A.isDigit
  if k < digits.length ∨ digits = [] then none
  else if ¬ padded ∧ digits.head? = some (A.sym 0) ∧ 1 < digits.length then none
  else (A.read digits).map fun n => (n, s.dropWhile A.isDigit)

variable {A} {k n : ℕ} {c : Char} {s : Text}

lemma isDigit_sym (hn : n < b) : A.isDigit (A.sym n) = true := by
  rw [isDigit, A.val_sym n hn]
  rfl

lemma isDigit_write (hb : 0 < b) (hc : c ∈ A.write k n) : A.isDigit c = true := by
  induction k generalizing n with
  | zero => cases hc
  | succ k ih =>
    rcases List.mem_append.mp hc with hc | hc
    · exact ih hc
    · exact List.mem_singleton.mp hc ▸ isDigit_sym (Nat.mod_lt _ hb)

lemma numeral_ne_nil : A.numeral n ≠ [] := by simp [numeral, write]

lemma length_numeral_le (hk : k ≠ 0) (hn : n < b ^ k) :
    (A.numeral n).length ≤ k := by
  rw [numeral, length_write]
  rcases eq_or_ne n 0 with rfl | hn₀
  · simpa using Nat.one_le_iff_ne_zero.mpr hk
  · exact Nat.log_lt_of_lt_pow hn₀ hn

lemma read_numeral (hb : 1 < b) (n : ℕ) : A.read (A.numeral n) = some n :=
  A.read_write (Nat.zero_lt_of_lt hb) (Nat.lt_pow_succ_log_self hb n)

/-- The first digit of a numeral of width `k + 1`. -/
lemma head?_write (k n : ℕ) : (A.write (k + 1) n).head? = some (A.sym (n / b ^ k % b)) := by
  induction k generalizing n with
  | zero => simp [write]
  | succ k ih =>
    rw [write, List.head?_append_of_ne_nil _ (by simp [write]), ih, Nat.div_div_eq_div_mul,
      pow_succ, Nat.mul_comm b]

/-- Zero is the only numeral that begins with a zero. -/
lemma head?_numeral (hb : 1 < b) (hn : n ≠ 0) : (A.numeral n).head? ≠ some (A.sym 0) := by
  rw [numeral, head?_write]
  intro h
  have hpos : 0 < b ^ Nat.log b n := Nat.pow_pos (Nat.zero_lt_of_lt hb)
  have hlt : n / b ^ Nat.log b n < b :=
    Nat.div_lt_of_lt_mul (by rw [← pow_succ]; exact Nat.lt_pow_succ_log_self hb n)
  have hval := congrArg (Option.bind · A.val) h
  simp only [Option.bind_some, Nat.mod_eq_of_lt hlt, A.val_sym _ hlt,
    A.val_sym 0 (Nat.zero_lt_of_lt hb), Option.some.injEq] at hval
  have hle : b ^ Nat.log b n ≤ n := Nat.pow_log_le_self b hn
  exact absurd hval (Nat.div_pos hle hpos).ne'

lemma takeWhile_numeral (hb : 0 < b) (hs : s.head?.any A.isDigit = false) :
    (A.numeral n ++ s).takeWhile A.isDigit = A.numeral n ∧
      (A.numeral n ++ s).dropWhile A.isDigit = s := by
  have hall : ∀ c ∈ A.numeral n, A.isDigit c = true := fun c hc => isDigit_write hb hc
  have hstop : s.takeWhile A.isDigit = [] ∧ s.dropWhile A.isDigit = s := by
    cases s with
    | nil => exact ⟨rfl, rfl⟩
    | cons c s =>
      have hc : A.isDigit c = false := hs
      simp [hc]
  rw [List.takeWhile_append_of_pos hall, List.dropWhile_append_of_pos hall, hstop.1, hstop.2,
    List.append_nil]
  exact ⟨rfl, rfl⟩

/-- A numeral is read back up to the first character that is not a digit. -/
theorem scan_numeral (hb : 1 < b) (hk : k ≠ 0) (hn : n < b ^ k) (padded : Bool)
    (hs : s.head?.any A.isDigit = false) : A.scan k padded (A.numeral n ++ s) = some (n, s) := by
  obtain ⟨htake, hdrop⟩ := A.takeWhile_numeral (n := n) (Nat.zero_lt_of_lt hb) hs
  have hlen : ¬ (k < (A.numeral n).length ∨ A.numeral n = []) :=
    not_or.mpr ⟨not_lt.mpr (length_numeral_le hk hn), numeral_ne_nil⟩
  have hzero : ¬ (¬ padded = true ∧ (A.numeral n).head? = some (A.sym 0) ∧
      1 < (A.numeral n).length) := by
    rintro ⟨-, hhead, hlong⟩
    rcases eq_or_ne n 0 with rfl | hn₀
    · simp [numeral] at hlong
    · exact head?_numeral hb hn₀ hhead
  rw [scan, htake, hdrop, if_neg hlen, if_neg hzero, read_numeral hb]
  rfl

/-- What does not begin with a digit is not read. -/
lemma scan_eq_none (padded : Bool) (hs : s.head?.any A.isDigit = false) :
    A.scan k padded s = none := by
  have hnil : s.takeWhile A.isDigit = [] := by
    cases s with
    | nil => rfl
    | cons c s =>
      have hc : A.isDigit c = false := hs
      simp [hc]
  rw [scan, hnil]
  exact if_pos (.inr rfl)

end Numerals.Alphabet
