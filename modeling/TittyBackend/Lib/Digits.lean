import Mathlib.Data.Nat.Init
import Mathlib.Data.List.Lex
import Mathlib.Data.Char
import Mathlib.Tactic.Ring
import Mathlib.Tactic.IntervalCases

/-!
# Numerals of a fixed width

Texts are lists of characters. A numeral of width `k` in base `b` has exactly `k` digits, the
most significant first, padded with the digit zero, so numerals of one width are read back
without a terminator and, when the digits are in the order of their characters, compare as
texts in the order of their values.
-/

namespace Numerals

abbrev Text := List Char

/-- The digits of base `b`: how each is written and how a character is read. -/
structure Alphabet (b : ℕ) where
  sym : ℕ → Char
  val : Char → Option ℕ
  val_sym : ∀ d < b, val (sym d) = some d
  val_lt : ∀ c d, val c = some d → d < b

namespace Alphabet

variable {b : ℕ} (A : Alphabet b)

/-- The `k` lowest digits of `n`. -/
def write : ℕ → ℕ → Text
  | 0, _ => []
  | k + 1, n => write k (n / b) ++ [A.sym (n % b)]

/-- Read digits after the value `n` of those before them. -/
def readFrom : ℕ → Text → Option ℕ
  | n, [] => some n
  | n, c :: s => (A.val c).bind fun d => readFrom (n * b + d) s

def read (s : Text) : Option ℕ := A.readFrom 0 s

/-- Read a numeral of width `k` off the front of a text. -/
def number (k : ℕ) (s : Text) : Option (ℕ × Text) :=
  if k ≤ s.length then (A.read (s.take k)).map fun n => (n, s.drop k) else none

@[simp] lemma length_write (k n : ℕ) : (A.write k n).length = k := by
  induction k generalizing n with
  | zero => rfl
  | succ k ih => simp [write, ih]

lemma readFrom_append (n : ℕ) (s t : Text) :
    A.readFrom n (s ++ t) = (A.readFrom n s).bind fun m => A.readFrom m t := by
  induction s generalizing n with
  | nil => rfl
  | cons c s ih =>
    simp only [List.cons_append, readFrom, Option.bind_assoc]
    exact congrArg _ (funext fun d => ih _)

lemma readFrom_write (hb : 0 < b) (k m n : ℕ) (hn : n < b ^ k) :
    A.readFrom m (A.write k n) = some (m * b ^ k + n) := by
  induction k generalizing n with
  | zero =>
    obtain rfl : n = 0 := by simpa using hn
    simp [write, readFrom]
  | succ k ih =>
    have hdiv : n / b < b ^ k := Nat.div_lt_of_lt_mul (by rwa [pow_succ, mul_comm] at hn)
    have hval : A.val (A.sym (n % b)) = some (n % b) := A.val_sym _ (Nat.mod_lt _ hb)
    rw [write, readFrom_append, ih _ hdiv]
    simp only [Option.bind_some, readFrom, hval, Option.some.injEq]
    calc (m * b ^ k + n / b) * b + n % b
        = m * b ^ (k + 1) + (b * (n / b) + n % b) := by ring
      _ = m * b ^ (k + 1) + n := by rw [Nat.div_add_mod]

lemma read_write (hb : 0 < b) {k n : ℕ} (hn : n < b ^ k) : A.read (A.write k n) = some n := by
  rw [read, A.readFrom_write hb k 0 n hn, zero_mul, zero_add]

lemma number_write (hb : 0 < b) {k n : ℕ} (hn : n < b ^ k) (s : Text) :
    A.number k (A.write k n ++ s) = some (n, s) := by
  have htake : (A.write k n ++ s).take k = A.write k n := List.take_left' (A.length_write k n)
  have hdrop : (A.write k n ++ s).drop k = s := List.drop_left' (A.length_write k n)
  rw [number, if_pos (by simp), htake, hdrop, A.read_write hb hn]
  rfl

end Alphabet

/-! ### Order of texts -/

lemma append_lt_append_of_lt {a b : Text} (h : a < b) (hlen : a.length = b.length) (s t : Text) :
    a ++ s < b ++ t := by
  induction a generalizing b with
  | nil =>
    obtain rfl : b = [] := List.length_eq_zero_iff.mp hlen.symm
    exact absurd h (lt_irrefl _)
  | cons x a ih =>
    cases b with
    | nil => cases hlen
    | cons y b =>
      rw [List.cons_append, List.cons_append, List.cons_lt_cons_iff]
      rcases List.cons_lt_cons_iff.mp h with hxy | ⟨rfl, hab⟩
      · exact .inl hxy
      · exact .inr ⟨rfl, ih hab (Nat.succ.inj hlen)⟩

lemma append_lt_append_iff (a : Text) {s t : Text} : a ++ s < a ++ t ↔ s < t := by
  induction a with
  | nil => rfl
  | cons x a ih => simp [ih]

/-- With digits in the order of their characters, numerals compare as their values. -/
lemma Alphabet.write_lt {b : ℕ} (A : Alphabet b) (hb : 0 < b)
    (hA : ∀ d e, d < e → e < b → A.sym d < A.sym e) {k m n : ℕ} (hmn : m < n)
    (hn : n < b ^ k) : A.write k m < A.write k n := by
  induction k generalizing m n with
  | zero => simp at hn; omega
  | succ k ih =>
    have hdiv : n / b < b ^ k := Nat.div_lt_of_lt_mul (by rwa [pow_succ, mul_comm] at hn)
    rw [write, write]
    rcases (Nat.div_le_div_right (c := b) hmn.le).lt_or_eq with hlt | heq
    · exact append_lt_append_of_lt (ih hlt hdiv) (by simp) _ _
    · rw [heq, append_lt_append_iff, List.cons_lt_cons_iff]
      have hm := Nat.div_add_mod m b
      have hn' := Nat.div_add_mod n b
      rw [heq] at hm
      exact .inl (hA _ _ (by omega) (Nat.mod_lt _ hb))

/-! ### Decimal and hexadecimal -/

/-- Lower-case hexadecimal; upper-case letters are read as well. -/
def hex : Alphabet 16 where
  sym d := if d < 10 then Char.ofNat (48 + d) else Char.ofNat (87 + d)
  val c :=
    if 48 ≤ c.toNat ∧ c.toNat ≤ 57 then some (c.toNat - 48)
    else if 97 ≤ c.toNat ∧ c.toNat ≤ 102 then some (c.toNat - 87)
    else if 65 ≤ c.toNat ∧ c.toNat ≤ 70 then some (c.toNat - 55)
    else none
  val_sym := by decide
  val_lt := by
    intro c d h
    split_ifs at h <;> simp only [Option.some.injEq] at h <;> omega

def decimal : Alphabet 10 where
  sym d := Char.ofNat (48 + d)
  val c := if 48 ≤ c.toNat ∧ c.toNat ≤ 57 then some (c.toNat - 48) else none
  val_sym := by decide
  val_lt := by
    intro c d h
    split_ifs at h
    simp only [Option.some.injEq] at h
    omega

lemma decimal_sym_lt : ∀ d e, d < e → e < 10 → decimal.sym d < decimal.sym e := by
  intro d e hde he
  interval_cases e <;> interval_cases d <;> decide

lemma decimal_write_lt {k m n : ℕ} (hmn : m < n) (hn : n < 10 ^ k) :
    decimal.write k m < decimal.write k n :=
  decimal.write_lt (by decide) decimal_sym_lt hmn hn

end Numerals
