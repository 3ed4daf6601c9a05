import TittyBackend.Data.DateTime

/-!
# Texts in the order of their instants

The text of `to_rfc3339` has a fraction of three, six or nine digits or none, and goes on with a
`+`, which comes before the decimal point and before every digit. So a fraction that stops where
another goes on comes before it, and SQLite, which compares texts byte by byte, puts the texts in
the order of their instants.
-/

namespace Numerals

lemma Alphabet.write_add {b : ℕ} (A : Alphabet b) (k j n : ℕ) :
    A.write (k + j) n = A.write k (n / b ^ j) ++ A.write j n := by
  induction j generalizing n with
  | zero => simp [write]
  | succ j ih => rw [← Nat.add_assoc, write, ih, write, Nat.div_div_eq_div_mul, ← pow_succ',
      List.append_assoc]

lemma decimal_write_succ (k n : ℕ) :
    ∃ d < 10, decimal.write (k + 1) n = decimal.sym d :: decimal.write k n := by
  refine ⟨n / 10 ^ k % 10, Nat.mod_lt _ (by decide), ?_⟩
  rw [Nat.add_comm, Alphabet.write_add]
  rfl

/-- A shorter numeral, followed by a character that comes before every digit, comes before the
numerals of greater fractions. -/
lemma decimal_cut_lt {k j a n : ℕ} {c : Char} (hc : ∀ d < 10, c < decimal.sym d)
    (h : a * 10 ^ j < n) (hn : n < 10 ^ (k + j)) (s t : Text) :
    decimal.write k a ++ c :: s < decimal.write (k + j) n ++ t := by
  have hle : a ≤ n / 10 ^ j := (Nat.le_div_iff_mul_le (by positivity)).2 h.le
  rw [Alphabet.write_add, List.append_assoc]
  rcases hle.lt_or_eq with hlt | heq
  · have hbound : n / 10 ^ j < 10 ^ k := Nat.div_lt_of_lt_mul (by rwa [← pow_add, Nat.add_comm])
    exact append_lt_append_of_lt (decimal_write_lt hlt hbound) (by simp) _ _
  · rw [← heq, append_lt_append_iff]
    cases j with
    | zero => simp at heq h; omega
    | succ j =>
      obtain ⟨d, hd, hwrite⟩ := decimal_write_succ j n
      rw [hwrite, List.cons_append, List.cons_lt_cons_iff]
      exact .inl (hc d hd)

/-- The other way round the digits decide. -/
lemma decimal_lt_cut {k j a n : ℕ} (h : n < a * 10 ^ j) (ha : a < 10 ^ k) (s t : Text) :
    decimal.write (k + j) n ++ s < decimal.write k a ++ t := by
  have hlt : n / 10 ^ j < a := (Nat.div_lt_iff_lt_mul (by positivity)).2 h
  rw [Alphabet.write_add, List.append_assoc]
  exact append_lt_append_of_lt (decimal_write_lt hlt ha) (by simp) _ _

end Numerals

namespace TittyBackend

open Civil Numerals

/-! ### Parts of a text -/

/-- A fraction is cut after three, six or nine of its digits. -/
lemma writeFraction_eq {n : ℕ} (hn : n ≠ 0) : ∃ k j a, k + j = 9 ∧ n = a * 10 ^ j ∧
    writeFraction n = '.' :: decimal.write k a := by
  rw [writeFraction, if_neg hn]
  split_ifs with h3 h6
  · exact ⟨3, 6, n / 1000000, rfl, by omega, rfl⟩
  · exact ⟨6, 3, n / 1000, rfl, by omega, rfl⟩
  · exact ⟨9, 0, n, rfl, by omega, rfl⟩

lemma plus_lt_sym : ∀ d < 10, '+' < decimal.sym d := by decide

lemma writeFraction_lt {m n : ℕ} (h : m < n) (hn : n < 1000000000) :
    writeFraction m ++ "+00:00".toList < writeFraction n ++ "+00:00".toList := by
  obtain ⟨k', j', a', hk', ha', hwrite'⟩ := writeFraction_eq (Nat.ne_of_gt (Nat.zero_lt_of_lt h))
  rw [hwrite', utc_eq]
  by_cases hm : m = 0
  · rw [hm, writeFraction, if_pos rfl, List.nil_append, List.cons_append, List.cons_lt_cons_iff]
    exact .inl (by decide)
  · obtain ⟨k, j, a, hk, ha, hwrite⟩ := writeFraction_eq hm
    rw [hwrite, List.cons_append, List.cons_append, List.cons_lt_cons_iff]
    refine .inr ⟨rfl, ?_⟩
    have hpow : (10 : ℕ) ^ 9 = 1000000000 := by norm_num
    rcases Nat.le_total k k' with hle | hle
    · obtain ⟨i, rfl⟩ := Nat.exists_eq_add_of_le hle
      have hj : j = i + j' := by omega
      rw [ha, ha', hj, pow_add, ← mul_assoc] at h
      rw [ha', ← hpow, ← hk', pow_add] at hn
      exact decimal_cut_lt plus_lt_sym (Nat.lt_of_mul_lt_mul_right h)
        (Nat.lt_of_mul_lt_mul_right hn) _ _
    · obtain ⟨i, rfl⟩ := Nat.exists_eq_add_of_le hle
      have hj : j' = i + j := by omega
      rw [ha', ← hpow, ← hk', pow_add] at hn
      rw [ha, ha', hj, pow_add, ← mul_assoc] at h
      exact decimal_lt_cut (Nat.lt_of_mul_lt_mul_right h) (Nat.lt_of_mul_lt_mul_right hn) _ _

/-- Whole seconds since midnight. -/
def secondOfDay (t : ℤ) : ℕ := DateTime.ofDay t / 1000000000

lemma writeTime_lt {t u : ℤ} (h : secondOfDay t < secondOfDay u) : writeTime t < writeTime u := by
  have hu := time_bounds u
  simp only [secondOfDay] at h
  simp only [DateTime.hour, DateTime.minute, DateTime.second] at hu
  simp only [writeTime, DateTime.hour, DateTime.minute, DateTime.second]
  set x := DateTime.ofDay t
  set y := DateTime.ofDay u
  have hcases : x / 3600000000000 < y / 3600000000000 ∨
      x / 3600000000000 = y / 3600000000000 ∧ (x / 60000000000 % 60 < y / 60000000000 % 60 ∨
        x / 60000000000 % 60 = y / 60000000000 % 60 ∧
          x / 1000000000 % 60 < y / 1000000000 % 60) := by omega
  rw [List.append_assoc, List.append_assoc]
  rcases hcases with hlt | ⟨heq, hlt | ⟨heq', hlt⟩⟩
  · exact append_lt_append_of_lt (decimal_write_lt hlt (by omega)) (by simp) _ _
  · rw [heq, append_lt_append_iff, List.cons_append, List.cons_append, List.cons_lt_cons_iff]
    exact .inr ⟨rfl, append_lt_append_of_lt (decimal_write_lt hlt (by omega)) (by simp) _ _⟩
  · rw [heq, heq', append_lt_append_iff, List.cons_append, List.cons_append, List.cons_lt_cons_iff]
    refine .inr ⟨rfl, ?_⟩
    rw [append_lt_append_iff, List.cons_lt_cons_iff]
    exact .inr ⟨rfl, decimal_write_lt hlt (by omega)⟩

lemma writeTime_congr {t u : ℤ} (h : secondOfDay t = secondOfDay u) :
    writeTime t = writeTime u := by
  have hparts : DateTime.hour t = DateTime.hour u ∧ DateTime.minute t = DateTime.minute u ∧
      DateTime.second t = DateTime.second u := by
    simp only [secondOfDay] at h
    simp only [DateTime.hour, DateTime.minute, DateTime.second]
    omega
  rw [writeTime, writeTime, hparts.1, hparts.2.1, hparts.2.2]

@[simp] lemma length_writeTime (t : ℤ) : (writeTime t).length = 8 := by simp [writeTime]

/-- The day, the second within it and the nanosecond within that, in this order. -/
lemma instant_lt {t u : ℤ} (h : t < u) :
    t / DateTime.nanosPerDay < u / DateTime.nanosPerDay ∨
      t / DateTime.nanosPerDay = u / DateTime.nanosPerDay ∧ (secondOfDay t < secondOfDay u ∨
        secondOfDay t = secondOfDay u ∧ DateTime.nanosecond t < DateTime.nanosecond u) := by
  simp only [secondOfDay, DateTime.nanosecond, DateTime.ofDay, DateTime.nanosPerDay]
  omega

/-! ### Order -/

/-- Texts that start with the date and the time of their instants compare as these do. -/
lemma text_lt {t u : ℤ} (ht : InEra t) (hu : InEra u)
    (h : t / DateTime.nanosPerDay < u / DateTime.nanosPerDay ∨
      t / DateTime.nanosPerDay = u / DateTime.nanosPerDay ∧ secondOfDay t < secondOfDay u)
    (c : Char) (x y : Text) :
    writeDate (DateTime.date t) ++ c :: (writeTime t ++ x) <
      writeDate (DateTime.date u) ++ c :: (writeTime u ++ y) := by
  have hyt := year_inEra.mp ht
  have hyu := year_inEra.mp hu
  rcases h with hday | ⟨hday, hsecond⟩
  · have hdate : DateTime.date t < DateTime.date u := ofDays_lt (by omega)
    exact append_lt_append_of_lt (writeDate_lt (valid_ofDays _) hyt.1 hyu.2 hdate)
      ((length_writeDate hyt).trans (length_writeDate hyu).symm) _ _
  · have hdate : DateTime.date t = DateTime.date u := by
      rw [DateTime.date, hday, DateTime.date]
    rw [hdate, append_lt_append_iff, List.cons_lt_cons_iff]
    exact .inr ⟨rfl, append_lt_append_of_lt (writeTime_lt hsecond) (by simp) _ _⟩

theorem toRfc3339_lt {t u : ℤ} (ht : InEra t) (hu : InEra u) (h : t < u) :
    toRfc3339 t < toRfc3339 u := by
  rw [toRfc3339, toRfc3339]
  rcases instant_lt h with hday | ⟨hday, hsecond | ⟨hsecond, hnano⟩⟩
  · exact text_lt ht hu (.inl hday) _ _ _
  · exact text_lt ht hu (.inr ⟨hday, hsecond⟩) _ _ _
  · have hdate : DateTime.date t = DateTime.date u := by
      rw [DateTime.date, hday, DateTime.date]
    rw [hdate, writeTime_congr hsecond, append_lt_append_iff, List.cons_lt_cons_iff]
    refine .inr ⟨rfl, ?_⟩
    rw [append_lt_append_iff]
    exact writeFraction_lt hnano (time_bounds u).2.2.2

theorem toRfc3339_le_iff {t u : ℤ} (ht : InEra t) (hu : InEra u) :
    toRfc3339 t ≤ toRfc3339 u ↔ t ≤ u := by
  constructor
  · intro h
    by_contra hlt
    exact absurd (toRfc3339_lt hu ht (not_le.1 hlt)) (not_lt.2 h)
  · intro h
    rcases h.lt_or_eq with hlt | rfl
    · exact (toRfc3339_lt ht hu hlt).le
    · exact le_rfl

/-! ### Against `CURRENT_TIMESTAMP` -/

lemma hyphen_lt_sym : ∀ d < 10, '-' < decimal.sym d := by decide

/-- On one day the separator decides: the `T` comes after the space. -/
lemma currentTimestamp_lt_of_day {t u : ℤ}
    (h : u / DateTime.nanosPerDay = t / DateTime.nanosPerDay) :
    currentTimestamp t < toRfc3339 u := by
  have hdate : DateTime.date u = DateTime.date t := by rw [DateTime.date, h, DateTime.date]
  rw [currentTimestamp, toRfc3339, hdate, append_lt_append_iff, List.cons_lt_cons_iff]
  exact .inl (by decide)

/-- A text of an earlier day, which may be one before the year 0, comes before. -/
lemma toRfc3339_lt_currentTimestamp {t u : ℤ} (ht : InEra t)
    (h : u / DateTime.nanosPerDay < t / DateTime.nanosPerDay) :
    toRfc3339 u < currentTimestamp t := by
  have hdate : DateTime.date u < DateTime.date t := ofDays_lt (by omega)
  have hyt := year_inEra.mp ht
  rw [currentTimestamp, toRfc3339]
  by_cases hu : 0 ≤ (DateTime.date u).year
  · have hyu : (DateTime.date u).year ≤ 9999 := by
      rw [Date.lt_def] at hdate
      omega
    exact append_lt_append_of_lt (writeDate_lt (valid_ofDays _) hu hyt.2 hdate)
      ((length_writeDate ⟨hu, hyu⟩).trans (length_writeDate hyt).symm) _ _
  · obtain ⟨d, hd, hwrite⟩ := decimal_write_succ 3 (DateTime.date t).year.toNat
    have hera : writeYear (DateTime.date t).year =
        decimal.sym d :: decimal.write 3 (DateTime.date t).year.toNat := by
      rw [writeYear, if_pos hyt, hwrite]
    obtain ⟨k, hbefore⟩ : ∃ k, writeYear (DateTime.date u).year =
        '-' :: decimal.write k (DateTime.date u).year.natAbs := by
      rw [writeYear, if_neg (fun hy => hu hy.1), if_neg hu]
      exact ⟨_, rfl⟩
    simp only [writeDate, hera, hbefore, List.append_assoc, List.cons_append,
      List.cons_lt_cons_iff]
    exact .inl (hyphen_lt_sym d hd)

end TittyBackend
