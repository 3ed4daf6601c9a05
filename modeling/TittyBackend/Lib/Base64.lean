import TittyBackend.Lib.Digits
import Mathlib.Data.List.Induction

/-!
# Base64 with canonical padding

The standard alphabet, padded with `=`. Decoding accepts the encodings and nothing else: a text
whose length is not a multiple of four, a padding that is missing or misplaced, a foreign
character, or bits left over before the padding are all refused.
-/

namespace Base64

open Numerals

def alphabet : Alphabet 64 where
  sym d :=
    if d < 26 then Char.ofNat (65 + d)
    else if d < 52 then Char.ofNat (71 + d)
    else if d < 62 then Char.ofNat (d - 4)
    else if d = 62 then '+' else '/'
  val c :=
    if 65 ≤ c.toNat ∧ c.toNat ≤ 90 then some (c.toNat - 65)
    else if 97 ≤ c.toNat ∧ c.toNat ≤ 122 then some (c.toNat - 71)
    else if 48 ≤ c.toNat ∧ c.toNat ≤ 57 then some (c.toNat + 4)
    else if c = '+' then some 62
    else if c = '/' then some 63
    else none
  val_sym := by decide
  val_lt := by
    intro c d h
    split_ifs at h <;> simp only [Option.some.injEq] at h <;> omega

/-- Every character that is read is ASCII. -/
private lemma toNat_lt_of_val {c : Char} {d : ℕ} (h : alphabet.val c = some d) :
    c.toNat < 128 := by
  simp only [alphabet] at h
  split_ifs at h with h₁ h₂ h₃ h₄ h₅
  · omega
  · omega
  · omega
  · subst h₄; decide
  · subst h₅; decide

/-- Each digit is read from one character only. -/
lemma sym_of_val {c : Char} {d : ℕ} (h : alphabet.val c = some d) : alphabet.sym d = c := by
  have hall : ∀ n < 128, ∀ d ∈ alphabet.val (Char.ofNat n), alphabet.sym d = Char.ofNat n := by
    decide
  have hc := hall c.toNat (toNat_lt_of_val h) d
  rw [Char.ofNat_toNat] at hc
  exact hc h

lemma val_pad : alphabet.val '=' = none := by decide

def encode : List UInt8 → Text
  | [] => []
  | [x] => alphabet.write 2 (x.toNat * 16) ++ ['=', '=']
  | [x, y] => alphabet.write 3 ((x.toNat * 256 + y.toNat) * 4) ++ ['=']
  | x :: y :: z :: bs =>
    alphabet.write 4 ((x.toNat * 256 + y.toNat) * 256 + z.toNat) ++ encode bs

/-- The last four characters, when they end in `=`. -/
def decodePadded (a b c : Char) : Option (List UInt8) :=
  if c = '=' then
    (alphabet.read [a, b]).bind fun n =>
      if n % 16 = 0 then some [UInt8.ofNat (n / 16)] else none
  else
    (alphabet.read [a, b, c]).bind fun n =>
      if n % 4 = 0 then some [UInt8.ofNat (n / 1024), UInt8.ofNat (n / 4)] else none

def decode : Text → Option (List UInt8)
  | [] => some []
  | a :: b :: c :: d :: s =>
    if s = [] ∧ d = '=' then decodePadded a b c
    else
      (alphabet.read [a, b, c, d]).bind fun n =>
        (decode s).map fun bs =>
          UInt8.ofNat (n / 65536) :: UInt8.ofNat (n / 256) :: UInt8.ofNat n :: bs
  | _ => none

/-! ### Decoding undoes encoding -/

lemma sym_ne_pad {d : ℕ} (hd : d < 64) : alphabet.sym d ≠ '=' := by
  intro h
  have hval := alphabet.val_sym d hd
  rw [h, val_pad] at hval
  cases hval

/-- A byte is what is left of a number that it ends. -/
lemma ofNat_byte (q : ℕ) (x : UInt8) : UInt8.ofNat (q * 256 + x.toNat) = x := by
  apply UInt8.toNat_inj.mp
  have hx := x.toNat_lt
  simp only [UInt8.toNat_ofNat']
  omega

lemma read_pair (v : ℕ) (hv : v < 64 ^ 2) :
    alphabet.read [alphabet.sym (v / 64 % 64), alphabet.sym (v % 64)] = some v :=
  alphabet.read_write (k := 2) (by decide) hv

lemma read_triple (v : ℕ) (hv : v < 64 ^ 3) :
    alphabet.read [alphabet.sym (v / 64 / 64 % 64), alphabet.sym (v / 64 % 64),
      alphabet.sym (v % 64)] = some v :=
  alphabet.read_write (k := 3) (by decide) hv

lemma read_quad (v : ℕ) (hv : v < 64 ^ 4) :
    alphabet.read [alphabet.sym (v / 64 / 64 / 64 % 64), alphabet.sym (v / 64 / 64 % 64),
      alphabet.sym (v / 64 % 64), alphabet.sym (v % 64)] = some v :=
  alphabet.read_write (k := 4) (by decide) hv

theorem decode_encode (bs : List UInt8) : decode (encode bs) = some bs := by
  induction bs using encode.induct with
  | case1 => rfl
  | case2 x =>
    have hx := x.toNat_lt
    have hread := read_pair (x.toNat * 16) (by omega)
    simp only [encode, Alphabet.write, List.nil_append, List.cons_append, decode, true_and,
      if_true, decodePadded, hread, Option.bind_some]
    rw [if_pos (by omega), show x.toNat * 16 / 16 = 0 * 256 + x.toNat by omega, ofNat_byte]
  | case3 x y =>
    have hx := x.toNat_lt
    have hy := y.toNat_lt
    have hread := read_triple ((x.toNat * 256 + y.toNat) * 4) (by omega)
    have hpad : alphabet.sym ((x.toNat * 256 + y.toNat) * 4 % 64) ≠ '=' :=
      sym_ne_pad (Nat.mod_lt _ (by decide))
    simp only [encode, Alphabet.write, List.nil_append, List.cons_append, decode, true_and,
      if_true, decodePadded, if_neg hpad, hread, Option.bind_some]
    rw [if_pos (by omega),
      show (x.toNat * 256 + y.toNat) * 4 / 1024 = 0 * 256 + x.toNat by omega,
      show (x.toNat * 256 + y.toNat) * 4 / 4 = x.toNat * 256 + y.toNat by omega,
      ofNat_byte, ofNat_byte]
  | case4 x y z bs ih =>
    have hx := x.toNat_lt
    have hy := y.toNat_lt
    have hz := z.toNat_lt
    set v := (x.toNat * 256 + y.toNat) * 256 + z.toNat with hv
    have hread := read_quad v (by omega)
    have hpad : ¬ (encode bs = [] ∧ alphabet.sym (v % 64) = '=') :=
      fun h => sym_ne_pad (Nat.mod_lt v (by decide)) h.2
    simp only [encode, ← hv, Alphabet.write, List.nil_append, List.cons_append, decode,
      if_neg hpad, hread, Option.bind_some, ih, Option.map_some, Option.some.injEq,
      List.cons.injEq, and_true]
    refine ⟨?_, ?_, ?_⟩
    · rw [show v / 65536 = 0 * 256 + x.toNat by omega, ofNat_byte]
    · rw [show v / 256 = x.toNat * 256 + y.toNat by omega, ofNat_byte]
    · rw [hv, ofNat_byte]

/-! ### Only encodings are decoded -/

lemma read_cons {c : Char} {s : Text} {m n : ℕ} (h : alphabet.readFrom m (c :: s) = some n) :
    ∃ d < 64, c = alphabet.sym d ∧ alphabet.readFrom (m * 64 + d) s = some n := by
  obtain ⟨d, hd, hs⟩ := Option.bind_eq_some_iff.mp h
  exact ⟨d, alphabet.val_lt c d hd, (sym_of_val hd).symm, hs⟩

/-- A text that is read is the numeral of the number read. -/
lemma write_of_readFrom {s : Text} {m n : ℕ} (h : alphabet.readFrom m s = some n) :
    ∃ v < 64 ^ s.length, n = m * 64 ^ s.length + v ∧ s = alphabet.write s.length v := by
  induction s using List.reverseRecOn generalizing n with
  | nil =>
    simp only [Alphabet.readFrom, Option.some.injEq] at h
    exact ⟨0, by simp, by simp [h], rfl⟩
  | append_singleton s c ih =>
    rw [alphabet.readFrom_append] at h
    obtain ⟨k, hk, hc⟩ := Option.bind_eq_some_iff.mp h
    obtain ⟨v, hv, rfl, hs⟩ := ih hk
    obtain ⟨d, hd, rfl, hn⟩ := read_cons hc
    simp only [Alphabet.readFrom, Option.some.injEq] at hn
    refine ⟨v * 64 + d, ?_, ?_, ?_⟩
    · rw [List.length_append, List.length_singleton, pow_succ]
      omega
    · rw [← hn, List.length_append, List.length_singleton, pow_succ]
      ring
    · rw [List.length_append, List.length_singleton, Alphabet.write,
        show (v * 64 + d) / 64 = v by omega, show (v * 64 + d) % 64 = d by omega, ← hs]

lemma write_of_read {s : Text} {n : ℕ} (h : alphabet.read s = some n) :
    n < 64 ^ s.length ∧ s = alphabet.write s.length n := by
  obtain ⟨v, hv, rfl, hs⟩ := write_of_readFrom h
  simpa using ⟨hv, hs⟩

lemma toNat_ofNat (n : ℕ) : (UInt8.ofNat n).toNat = n % 256 := UInt8.toNat_ofNat'

lemma encode_of_decodePadded {a b c : Char} {bs : List UInt8} (h : decodePadded a b c = some bs) :
    encode bs = [a, b, c, '='] := by
  unfold decodePadded at h
  split_ifs at h with hc
  · obtain ⟨n, hn, h⟩ := Option.bind_eq_some_iff.mp h
    split_ifs at h with hmod
    obtain ⟨hlt, hs⟩ := write_of_read hn
    simp only [Option.some.injEq] at h
    subst h hc
    have hv : n / 16 % 256 * 16 = n := by simp at hlt; omega
    rw [encode, toNat_ofNat, hv]
    exact congrArg (· ++ ['=', '=']) hs.symm
  · obtain ⟨n, hn, h⟩ := Option.bind_eq_some_iff.mp h
    split_ifs at h with hmod
    obtain ⟨hlt, hs⟩ := write_of_read hn
    simp only [Option.some.injEq] at h
    subst h
    have hv : (n / 1024 % 256 * 256 + n / 4 % 256) * 4 = n := by simp at hlt; omega
    rw [encode, toNat_ofNat, toNat_ofNat, hv]
    exact congrArg (· ++ ['=']) hs.symm

theorem encode_of_decode {s : Text} {bs : List UInt8} (h : decode s = some bs) :
    encode bs = s := by
  induction s using decode.induct generalizing bs with
  | case1 =>
    simp only [decode, Option.some.injEq] at h
    exact h ▸ rfl
  | case2 a b c d s hpad =>
    obtain ⟨rfl, rfl⟩ := hpad
    simp only [decode, true_and, if_true] at h
    exact encode_of_decodePadded h
  | case3 a b c d s hpad ih =>
    rw [decode, if_neg hpad] at h
    obtain ⟨n, hn, h⟩ := Option.bind_eq_some_iff.mp h
    obtain ⟨bs', hbs', rfl⟩ := Option.map_eq_some_iff.mp h
    obtain ⟨hlt, hs⟩ := write_of_read hn
    have hv : (n / 65536 % 256 * 256 + n / 256 % 256) * 256 + n % 256 = n := by
      simp at hlt; omega
    rw [encode, toNat_ofNat, toNat_ofNat, toNat_ofNat, hv, ih hbs']
    exact congrArg (· ++ s) hs.symm
  | case4 s h₁ h₂ =>
    rw [decode] at h
    · cases h
    · exact h₁
    · exact h₂

example : encode [77, 97, 110, 33] = "TWFuIQ==".toList := by decide
example : decode "TWFuIQ==".toList = some [77, 97, 110, 33] := by decide
example : decode "TWFuIR==".toList = none := by decide

end Base64
