import Mathlib.Data.Prod.Lex
import Mathlib.Tactic.IntervalCases

/-!
# The proleptic Gregorian calendar

Days are counted from 1 March of the year 0, so that the leap day is the last day of its year.
`ofDays` finds the date of a day and `Date.days` the day of a date; they are inverse to each
other on valid dates, and both keep the order.
-/

namespace Civil

structure Date where
  year : ℤ
  month : ℕ
  day : ℕ
  deriving DecidableEq

def IsLeap (y : ℤ) : Prop := y % 4 = 0 ∧ (y % 100 ≠ 0 ∨ y % 400 = 0)

instance (y : ℤ) : Decidable (IsLeap y) := inferInstanceAs (Decidable (_ ∧ _))

def daysInMonth (y : ℤ) (m : ℕ) : ℕ :=
  if m = 2 then if IsLeap y then 29 else 28
  else if m = 4 ∨ m = 6 ∨ m = 9 ∨ m = 11 then 30
  else 31

namespace Date

def Valid (x : Date) : Prop :=
  1 ≤ x.month ∧ x.month ≤ 12 ∧ 1 ≤ x.day ∧ x.day ≤ daysInMonth x.year x.month

instance (x : Date) : Decidable x.Valid := inferInstanceAs (Decidable (_ ∧ _))

/-- Days before 1 March of the year `y`. -/
def yearStart (y : ℤ) : ℤ := 365 * y + y / 4 - y / 100 + y / 400

/-- Days before the month number `mp`, with March as month 0. -/
def monthStart (mp : ℕ) : ℕ := (153 * mp + 2) / 5

/-- The date of day `d` in month `mp` of the year beginning in March of `y`. -/
def ofMarch (y : ℤ) (mp d : ℕ) : Date :=
  if mp < 10 then ⟨y, mp + 3, d⟩ else ⟨y + 1, mp - 9, d⟩

/-- The year beginning in March that a date lies in. -/
def marchYear (x : Date) : ℤ := if x.month ≤ 2 then x.year - 1 else x.year

def marchMonth (x : Date) : ℕ := (x.month + 9) % 12

def days (x : Date) : ℤ := yearStart x.marchYear + monthStart x.marchMonth + x.day - 1

lemma march_ofMarch (y : ℤ) {mp : ℕ} (hmp : mp ≤ 11) (d : ℕ) :
    (ofMarch y mp d).marchYear = y ∧ (ofMarch y mp d).marchMonth = mp ∧
      (ofMarch y mp d).day = d := by
  by_cases h10 : mp < 10
  · simp only [ofMarch, if_pos h10, marchYear, marchMonth]
    rw [if_neg (by omega)]
    exact ⟨rfl, by omega, trivial⟩
  · simp only [ofMarch, if_neg h10, marchYear, marchMonth]
    rw [if_pos (by omega)]
    exact ⟨by omega, by omega, trivial⟩

end Date

open Date

/-- The year beginning in March of day `z`, and the day within it. -/
def splitYear (z : ℤ) : ℤ × ℤ :=
  let doe := z % 146097
  let c := min (doe / 36524) 3
  let r := doe - c * 36524
  let q := r / 1461
  let r' := r - q * 1461
  let y := min (r' / 365) 3
  (400 * (z / 146097) + 100 * c + 4 * q + y, r' - y * 365)

def ofDays (z : ℤ) : Date :=
  let n := (splitYear z).2.toNat
  let mp := (5 * n + 2) / 153
  ofMarch (splitYear z).1 mp (n - monthStart mp + 1)

/-- A year by its place in the 400 years, the century and the four years it lies in. -/
lemma yearStart_digits (e : ℤ) {c q y : ℤ} (hc : 0 ≤ c ∧ c ≤ 3) (hq : 0 ≤ q ∧ q ≤ 24)
    (hy : 0 ≤ y ∧ y ≤ 3) :
    yearStart (400 * e + 100 * c + 4 * q + y) =
      146097 * e + 36524 * c + 1461 * q + 365 * y := by
  have h4 : (400 * e + 100 * c + 4 * q + y) / 4 = 100 * e + 25 * c + q := by omega
  have h100 : (400 * e + 100 * c + 4 * q + y) / 100 = 4 * e + c := by omega
  have h400 : (400 * e + 100 * c + 4 * q + y) / 400 = e := by omega
  rw [yearStart, h4, h100, h400]
  omega

lemma splitYear_spec (z : ℤ) :
    yearStart (splitYear z).1 + (splitYear z).2 = z ∧ 0 ≤ (splitYear z).2 ∧
      (splitYear z).2 ≤ 365 ∧ ((splitYear z).2 = 365 → IsLeap ((splitYear z).1 + 1)) := by
  simp only [splitYear]
  set c := min (z % 146097 / 36524) 3 with hc
  set r := z % 146097 - c * 36524 with hr
  set q := r / 1461 with hq
  set r' := r - q * 1461 with hr'
  set y := min (r' / 365) 3 with hy
  have hcr : 0 ≤ c ∧ c ≤ 3 ∧ 0 ≤ r ∧ r ≤ 36524 ∧ (c < 3 → r < 36524) := by omega
  have hqr : 0 ≤ q ∧ q ≤ 24 ∧ 0 ≤ r' ∧ r' ≤ 1460 := by omega
  have hyr : 0 ≤ y ∧ y ≤ 3 ∧ 0 ≤ r' - y * 365 ∧ r' - y * 365 ≤ 365 := by omega
  rw [yearStart_digits _ ⟨hcr.1, hcr.2.1⟩ ⟨hqr.1, hqr.2.1⟩ ⟨hyr.1, hyr.2.1⟩]
  refine ⟨by omega, hyr.2.2.1, hyr.2.2.2, fun h365 => ?_⟩
  -- day 365 is the last of four years, and of the last four years of a century only if c = 3
  have hlast : y = 3 ∧ r' = 1460 := by omega
  have hcent : q = 24 → c = 3 := by omega
  simp only [IsLeap]
  omega

/-- Day `n` of a year lies in the month that the formula of `ofDays` gives. -/
lemma monthStart_of_day {n : ℕ} (hn : n ≤ 365) :
    (5 * n + 2) / 153 ≤ 11 ∧ monthStart ((5 * n + 2) / 153) ≤ n ∧
      n < monthStart ((5 * n + 2) / 153 + 1) := by
  simp only [monthStart]
  omega

theorem days_ofDays (z : ℤ) : (ofDays z).days = z := by
  obtain ⟨hz, h0, h365, -⟩ := splitYear_spec z
  obtain ⟨hmp, hle, -⟩ := monthStart_of_day (n := (splitYear z).2.toNat) (by omega)
  obtain ⟨hy, hm, hd⟩ := march_ofMarch (splitYear z).1 hmp
    ((splitYear z).2.toNat - monthStart ((5 * (splitYear z).2.toNat + 2) / 153) + 1)
  simp only [ofDays, Date.days, hy, hm, hd]
  omega

/-- The months counted from March, but for the last one, February. -/
lemma monthStart_succ : ∀ mp < 11, monthStart (mp + 1) =
    monthStart mp + if mp ∈ [1, 3, 6, 8] then 30 else 31 := by decide

theorem valid_ofDays (z : ℤ) : (ofDays z).Valid := by
  obtain ⟨-, h0, h365, hleap⟩ := splitYear_spec z
  obtain ⟨hmp, hle, hlt⟩ := monthStart_of_day (n := (splitYear z).2.toNat) (by omega)
  simp only [ofDays]
  generalize (splitYear z).1 = y at hleap ⊢
  generalize (splitYear z).2 = doy at *
  have hn : (doy.toNat : ℤ) = doy := Int.toNat_of_nonneg h0
  generalize doy.toNat = n at *
  generalize (5 * n + 2) / 153 = mp at *
  rcases eq_or_ne mp 11 with rfl | h11
  · have hl : n = 365 → IsLeap (y + 1) := fun h => hleap (by omega)
    have h337 : monthStart 11 = 337 := rfl
    rw [h337] at hle ⊢
    change 1 ≤ 2 ∧ 2 ≤ 12 ∧ 1 ≤ n - 337 + 1 ∧ n - 337 + 1 ≤ if IsLeap (y + 1) then 29 else 28
    refine ⟨by decide, by decide, Nat.le_add_left _ _, ?_⟩
    split_ifs with hyl
    · omega
    · have hne : n ≠ 365 := fun h => hyl (hl h)
      omega
  · have hsucc := monthStart_succ mp (by omega)
    rw [hsucc] at hlt
    interval_cases mp <;> simp [ofMarch, Date.Valid, daysInMonth] at hlt hle ⊢ <;> omega

/-! ### The order of dates -/

instance : LT Date where
  lt x y := x.year < y.year ∨ x.year = y.year ∧
    (x.month < y.month ∨ x.month = y.month ∧ x.day < y.day)

lemma Date.lt_def {x y : Date} : x < y ↔ x.year < y.year ∨ x.year = y.year ∧
    (x.month < y.month ∨ x.month = y.month ∧ x.day < y.day) := Iff.rfl

lemma Date.lt_or_eq_or_gt (x y : Date) : x < y ∨ x = y ∨ y < x := by
  obtain ⟨y₁, m₁, d₁⟩ := x
  obtain ⟨y₂, m₂, d₂⟩ := y
  simp only [Date.lt_def, Date.mk.injEq]
  omega

/-- Counting months from March does not change the order. -/
lemma march_of_lt {x y : Date} (hx : x.Valid) (hy : y.Valid) (h : x < y) :
    x.marchYear < y.marchYear ∨ x.marchYear = y.marchYear ∧
      (x.marchMonth < y.marchMonth ∨ x.marchMonth = y.marchMonth ∧ x.day < y.day) := by
  obtain ⟨hx1, hx2, -⟩ := hx
  obtain ⟨hy1, hy2, -⟩ := hy
  simp only [marchYear, marchMonth]
  rcases h with h | ⟨hyear, h | ⟨hm, hd⟩⟩
  · split_ifs <;> omega
  · split_ifs <;> omega
  · split_ifs <;> omega

lemma yearStart_succ (y : ℤ) :
    yearStart (y + 1) = yearStart y + if IsLeap (y + 1) then 366 else 365 := by
  simp only [yearStart, IsLeap]
  split_ifs <;> omega

/-- A valid date lies before the next month of its year beginning in March. -/
lemma days_month_bound {x : Date} (hx : x.Valid) (h : x.marchMonth < 11) :
    monthStart x.marchMonth + x.day ≤ monthStart (x.marchMonth + 1) := by
  obtain ⟨y, m, d⟩ := x
  obtain ⟨h1, h12, -, hd⟩ := hx
  simp only [marchMonth] at *
  rw [monthStart_succ _ h]
  interval_cases m <;> simp [daysInMonth] at hd h ⊢ <;> omega

/-- A valid date lies before the next year beginning in March. -/
lemma days_year_bound {x : Date} (hx : x.Valid) : x.days < yearStart (x.marchYear + 1) := by
  obtain ⟨y, m, d⟩ := x
  obtain ⟨h1, h12, -, hd⟩ := hx
  rw [yearStart_succ]
  simp only [Date.days, marchYear, marchMonth] at *
  interval_cases m <;> simp [daysInMonth, monthStart] at hd ⊢ <;> split_ifs at * <;> omega

lemma monthStart_mono {m n : ℕ} (h : m ≤ n) : monthStart m ≤ monthStart n := by
  simp only [monthStart]
  omega

lemma yearStart_mono {y z : ℤ} (h : y ≤ z) : yearStart y ≤ yearStart z := by
  simp only [yearStart]
  omega

theorem days_lt {x y : Date} (hx : x.Valid) (hy : y.Valid) (h : x < y) : x.days < y.days := by
  have hday : 1 ≤ y.day := hy.2.2.1
  rcases march_of_lt hx hy h with hlt | ⟨heq, hlt | ⟨hm, hd⟩⟩
  · have hstart : yearStart (x.marchYear + 1) ≤ yearStart y.marchYear := yearStart_mono hlt
    have hbound := days_year_bound hx
    simp only [Date.days] at hbound ⊢
    omega
  · have hmax : y.marchMonth < 12 := Nat.mod_lt _ (by decide)
    have hbound := days_month_bound hx (by omega)
    have hstart : monthStart (x.marchMonth + 1) ≤ monthStart y.marchMonth := monthStart_mono hlt
    simp only [Date.days, heq]
    omega
  · simp only [Date.days, heq, hm]
    omega

theorem ofDays_lt {z z' : ℤ} (h : z < z') : ofDays z < ofDays z' := by
  have hz := days_ofDays z
  have hz' := days_ofDays z'
  rcases Date.lt_or_eq_or_gt (ofDays z) (ofDays z') with hlt | heq | hgt
  · exact hlt
  · rw [heq] at hz
    omega
  · exact absurd (days_lt (valid_ofDays _) (valid_ofDays _) hgt) (by omega)

end Civil
