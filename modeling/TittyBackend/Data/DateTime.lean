import TittyBackend.Lib.Calendar
import TittyBackend.Lib.Digits

/-!
# Instants and their texts

A value of chrono's `DateTime<Utc>`, without leap seconds, is an integer: the nanoseconds since
1970-01-01T00:00:00Z. Timestamps are stored as the text that `to_rfc3339` prints: it has no
fraction of a second, or one of three, six or nine digits, whichever is the shortest exact one.
SQLite's `CURRENT_TIMESTAMP` is another text, to the second and with a space before the time.
-/

namespace TittyBackend

open Civil Numerals

namespace DateTime

def nanosPerSecond : ℤ := 1000000000

def nanosPerDay : ℤ := 86400000000000

/-- Days from 0000-03-01 to 1970-01-01. -/
def epochDay : ℤ := 719468

def seconds (n : ℤ) : ℤ := n * nanosPerSecond

def date (t : ℤ) : Date := ofDays (t / nanosPerDay + epochDay)

/-- Nanoseconds since midnight. -/
def ofDay (t : ℤ) : ℕ := (t % nanosPerDay).toNat

def hour (t : ℤ) : ℕ := ofDay t / 3600000000000

def minute (t : ℤ) : ℕ := ofDay t / 60000000000 % 60

def second (t : ℤ) : ℕ := ofDay t / 1000000000 % 60

def nanosecond (t : ℤ) : ℕ := ofDay t % 1000000000

/-- The instants that chrono represents: years -262143 to 262142. -/
def InRange (t : ℤ) : Prop := seconds (-8334601228800) ≤ t ∧ t < seconds 8210266876800

instance (t : ℤ) : Decidable (InRange t) := inferInstanceAs (Decidable (_ ∧ _))

/-- `t + Duration::seconds(n)`, which panics outside the range. -/
def addSeconds (t n : ℤ) : Option ℤ :=
  if InRange (t + seconds n) then some (t + seconds n) else none

lemma addSeconds_eq_some {t n u : ℤ} (h : addSeconds t n = some u) : u = t + seconds n := by
  rw [addSeconds] at h
  split_ifs at h
  exact (Option.some.inj h).symm

end DateTime

/-! ### Writing -/

/-- Years outside four digits carry a sign, as chrono's `{year:+05}` prints them. -/
def writeYear (y : ℤ) : Text :=
  if 0 ≤ y ∧ y ≤ 9999 then decimal.write 4 y.toNat
  else (if 0 ≤ y then '+' else '-') ::
    decimal.write (if y.natAbs < 10000 then 4 else if y.natAbs < 100000 then 5 else 6) y.natAbs

def writeDate (x : Date) : Text :=
  writeYear x.year ++ '-' :: decimal.write 2 x.month ++ '-' :: decimal.write 2 x.day

def writeTime (t : ℤ) : Text :=
  decimal.write 2 (DateTime.hour t) ++ ':' :: decimal.write 2 (DateTime.minute t) ++
    ':' :: decimal.write 2 (DateTime.second t)

/-- The fraction of a second, `SecondsFormat::AutoSi`. -/
def writeFraction (n : ℕ) : Text :=
  if n = 0 then []
  else if n % 1000000 = 0 then '.' :: decimal.write 3 (n / 1000000)
  else if n % 1000 = 0 then '.' :: decimal.write 6 (n / 1000)
  else '.' :: decimal.write 9 n

/-- `DateTime<Utc>::to_rfc3339`. -/
def toRfc3339 (t : ℤ) : Text :=
  writeDate (DateTime.date t) ++ 'T' ::
    (writeTime t ++ (writeFraction (DateTime.nanosecond t) ++ "+00:00".toList))

/-- SQLite's `CURRENT_TIMESTAMP`, read at `t`. -/
def currentTimestamp (t : ℤ) : Text := writeDate (DateTime.date t) ++ ' ' :: writeTime t

/-! ### Reading -/

def expect (c : Char) : Text → Option Text
  | [] => none
  | d :: s => if d = c then some s else none

/-- Between the date and the time. -/
def expectSeparator : Text → Option Text
  | [] => none
  | d :: s => if d = 'T' ∨ d = 't' ∨ d = ' ' then some s else none

def isDigit (c : Char) : Bool := (decimal.val c).isSome

/-- Digits after the decimal point; those past the ninth are dropped. -/
def readFraction (s : Text) : Option (ℕ × Text) :=
  let ds := (s.takeWhile isDigit).take 9
  if ds = [] then none
  else (decimal.read ds).map fun n => (n * 10 ^ (9 - ds.length), s.dropWhile isDigit)

/-- The fraction of a second, if there is one. -/
def readSubsecond : Text → Option (ℕ × Text)
  | '.' :: s => readFraction s
  | s => some (0, s)

/-- An offset from UTC in seconds: `Z`, or a sign, hours and minutes. -/
def readOffset : Text → Option (ℤ × Text)
  | [] => none
  | c :: s =>
    if c = 'Z' ∨ c = 'z' then some (0, s)
    else if c = '+' ∨ c = '-' ∨ c = '−' then do
      let (h, s) ← decimal.number 2 s
      let s ← expect ':' s
      let (m, s) ← decimal.number 2 s
      if h ≤ 23 ∧ m ≤ 59 then
        some ((if c = '+' then 1 else -1) * (h * 3600 + m * 60), s)
      else none
    else none

/-- `YYYY-MM-DD`. -/
def readDate (s : Text) : Option (Date × Text) := do
  let (year, s) ← decimal.number 4 s
  let s ← expect '-' s
  let (month, s) ← decimal.number 2 s
  let s ← expect '-' s
  let (day, s) ← decimal.number 2 s
  some (⟨year, month, day⟩, s)

/-- `HH:MM:SS` as the number of seconds. The second 60 is read as the one after second 59. -/
def readTime (s : Text) : Option (ℕ × Text) := do
  let (hour, s) ← decimal.number 2 s
  let s ← expect ':' s
  let (minute, s) ← decimal.number 2 s
  let s ← expect ':' s
  let (second, s) ← decimal.number 2 s
  if hour ≤ 23 ∧ minute ≤ 59 ∧ second ≤ 60 then some (hour * 3600 + minute * 60 + second, s)
  else none

/-- `DateTime::parse_from_rfc3339` followed by `with_timezone(&Utc)`. -/
def parseFromRfc3339 (s : Text) : Option ℤ := do
  let (x, s) ← readDate s
  let s ← expectSeparator s
  let (time, s) ← readTime s
  let (nanos, s) ← readSubsecond s
  let (offset, s) ← readOffset s
  if x.Valid ∧ s = [] then
    some ((x.days - DateTime.epochDay) * DateTime.nanosPerDay +
      DateTime.seconds (time - offset) + nanos)
  else none

/-! ### The four-digit years -/

/-- From 0000-01-01T00:00:00Z up to, but not including, 10000-01-01T00:00:00Z. -/
def InEra (t : ℤ) : Prop :=
  DateTime.seconds (-62167219200) ≤ t ∧ t < DateTime.seconds 253402300800

instance (t : ℤ) : Decidable (InEra t) := inferInstanceAs (Decidable (_ ∧ _))

lemma InEra.inRange {t : ℤ} (h : InEra t) : DateTime.InRange t := by
  simp only [InEra, DateTime.InRange, DateTime.seconds, DateTime.nanosPerSecond] at h ⊢
  omega

lemma InEra.between {t u v : ℤ} (ht : InEra t) (hv : InEra v) (htu : t ≤ u) (huv : u ≤ v) :
    InEra u := ⟨ht.1.trans htu, huv.trans_lt hv.2⟩

lemma addSeconds_of_inEra {t n : ℤ} (h : InEra (t + DateTime.seconds n)) :
    DateTime.addSeconds t n = some (t + DateTime.seconds n) := if_pos h.inRange

lemma year_inEra {t : ℤ} :
    InEra t ↔ 0 ≤ (DateTime.date t).year ∧ (DateTime.date t).year ≤ 9999 := by
  have hv := valid_ofDays (t / DateTime.nanosPerDay + DateTime.epochDay)
  have hdays := days_ofDays (t / DateTime.nanosPerDay + DateTime.epochDay)
  have hfirst : (⟨0, 1, 1⟩ : Date).Valid := by decide
  have hlast : (⟨10000, 1, 1⟩ : Date).Valid := by decide
  have hfirst' : (⟨0, 1, 1⟩ : Date).days = -60 := by decide
  have hlast' : (⟨10000, 1, 1⟩ : Date).days = 3652365 := by decide
  simp only [InEra, DateTime.seconds, DateTime.nanosPerSecond, DateTime.date]
  set x := ofDays (t / DateTime.nanosPerDay + DateTime.epochDay) with hx
  have hm := hv.1
  have hd := hv.2.2.1
  simp only [DateTime.nanosPerDay, DateTime.epochDay] at hdays
  constructor
  · rintro ⟨h0, h1⟩
    constructor
    · by_contra hneg
      have hlt := days_lt hv hfirst (.inl (by simp; omega))
      omega
    · by_contra hbig
      rcases Date.lt_or_eq_or_gt x ⟨10000, 1, 1⟩ with hlt | heq | hgt
      · rw [Date.lt_def] at hlt
        simp only at hlt
        omega
      · rw [heq] at hdays
        omega
      · have hlt := days_lt hlast hv hgt
        omega
  · rintro ⟨h0, h1⟩
    have hlt := days_lt hv hlast (.inl (by simp; omega))
    have hge : -60 ≤ x.days := by
      rcases Date.lt_or_eq_or_gt x ⟨0, 1, 1⟩ with hlt | heq | hgt
      · rw [Date.lt_def] at hlt
        simp only at hlt
        omega
      · rw [heq, hfirst']
      · exact hfirst' ▸ (days_lt hfirst hv hgt).le
    omega

/-! ### Reading back what was written -/

@[simp] lemma expect_cons (c : Char) (s : Text) : expect c (c :: s) = some s := if_pos rfl

lemma isDigit_sym {d : ℕ} (hd : d < 10) : isDigit (decimal.sym d) = true := by
  rw [isDigit, decimal.val_sym d hd]
  rfl

lemma isDigit_of_mem_write {c : Char} {k n : ℕ} (hc : c ∈ decimal.write k n) :
    isDigit c = true := by
  induction k generalizing n with
  | zero => cases hc
  | succ k ih =>
    rcases List.mem_append.mp hc with hc | hc
    · exact ih hc
    · obtain rfl := List.mem_singleton.mp hc
      exact isDigit_sym (Nat.mod_lt _ (by decide))

/-- The digits before a character that is none are read, scaled to nanoseconds. -/
lemma readFraction_write {k n : ℕ} (hk : 0 < k ∧ k ≤ 9) (hn : n < 10 ^ k) {c : Char}
    (hc : isDigit c = false) (s : Text) :
    readFraction (decimal.write k n ++ c :: s) = some (n * 10 ^ (9 - k), c :: s) := by
  have htake : (decimal.write k n ++ c :: s).takeWhile isDigit = decimal.write k n := by
    rw [List.takeWhile_append_of_pos fun c hc => isDigit_of_mem_write hc]
    simp [hc]
  have hdrop : (decimal.write k n ++ c :: s).dropWhile isDigit = c :: s := by
    rw [List.dropWhile_append_of_pos fun c hc => isDigit_of_mem_write hc]
    simp [hc]
  have hlen : (decimal.write k n).take 9 = decimal.write k n :=
    List.take_of_length_le (by simpa using hk.2)
  have hne : decimal.write k n ≠ [] := by
    intro h
    have := congrArg List.length h
    simp at this
    omega
  simp only [readFraction, htake, hdrop, hlen, if_neg hne, Alphabet.length_write,
    decimal.read_write (by decide) hn, Option.map_some]

lemma readSubsecond_write {n : ℕ} (hn : n < 1000000000) (s : Text) :
    readSubsecond (writeFraction n ++ '+' :: s) = some (n, '+' :: s) := by
  have hplus : isDigit '+' = false := by decide
  by_cases h0 : n = 0
  · subst h0
    rfl
  by_cases h3 : n % 1000000 = 0
  · have hread := readFraction_write (k := 3) (n := n / 1000000) (by decide) (by omega) hplus s
    rw [writeFraction, if_neg h0, if_pos h3, List.cons_append, readSubsecond, hread,
      show n / 1000000 * 10 ^ (9 - 3) = n by omega]
  by_cases h6 : n % 1000 = 0
  · have hread := readFraction_write (k := 6) (n := n / 1000) (by decide) (by omega) hplus s
    rw [writeFraction, if_neg h0, if_neg h3, if_pos h6, List.cons_append, readSubsecond, hread,
      show n / 1000 * 10 ^ (9 - 6) = n by omega]
  · have hread := readFraction_write (k := 9) (n := n) (by decide) (by omega) hplus s
    rw [writeFraction, if_neg h0, if_neg h3, if_neg h6, List.cons_append, readSubsecond, hread,
      show n * 10 ^ (9 - 9) = n by omega]

lemma time_bounds (t : ℤ) : DateTime.hour t ≤ 23 ∧ DateTime.minute t ≤ 59 ∧
    DateTime.second t ≤ 59 ∧ DateTime.nanosecond t < 1000000000 := by
  simp only [DateTime.hour, DateTime.minute, DateTime.second, DateTime.nanosecond,
    DateTime.ofDay, DateTime.nanosPerDay]
  omega

lemma day_le {x : Date} (hx : x.Valid) : x.day ≤ 31 := by
  refine hx.2.2.2.trans ?_
  simp only [daysInMonth]
  split_ifs <;> decide

lemma readDate_write {x : Date} (hx : x.Valid) (hy : 0 ≤ x.year ∧ x.year ≤ 9999) (s : Text) :
    readDate (writeDate x ++ s) = some (x, s) := by
  have hm := hx.2.1
  have hd := day_le hx
  simp (disch := omega) only [readDate, writeDate, writeYear, if_pos hy, List.append_assoc,
    List.cons_append, Alphabet.number_write, Option.bind_eq_bind, Option.bind_some, expect_cons,
    Int.toNat_of_nonneg hy.1]

lemma readTime_write (t : ℤ) (s : Text) :
    readTime (writeTime t ++ s) =
      some (DateTime.hour t * 3600 + DateTime.minute t * 60 + DateTime.second t, s) := by
  obtain ⟨hh, hm, hs, -⟩ := time_bounds t
  simp (disch := omega) only [readTime, writeTime, List.append_assoc, List.cons_append,
    Alphabet.number_write, Option.bind_eq_bind, Option.bind_some, expect_cons]
  exact if_pos ⟨hh, hm, by omega⟩

/-- An instant is put together again from its day and its time of day. -/
lemma instant_eq (t : ℤ) :
    ((DateTime.date t).days - DateTime.epochDay) * DateTime.nanosPerDay +
      DateTime.seconds (((DateTime.hour t * 3600 + DateTime.minute t * 60 +
        DateTime.second t : ℕ) : ℤ) - 0) + DateTime.nanosecond t = t := by
  rw [DateTime.date, days_ofDays]
  simp only [DateTime.hour, DateTime.minute, DateTime.second, DateTime.nanosecond,
    DateTime.ofDay, DateTime.nanosPerDay, DateTime.seconds, DateTime.nanosPerSecond]
  omega

lemma utc_eq : "+00:00".toList = '+' :: "00:00".toList := by decide

lemma readOffset_utc : readOffset ('+' :: "00:00".toList) = some (0, []) := by decide

theorem parse_toRfc3339 {t : ℤ} (ht : InEra t) : parseFromRfc3339 (toRfc3339 t) = some t := by
  have hv : (DateTime.date t).Valid := valid_ofDays _
  simp only [parseFromRfc3339, toRfc3339, readDate_write hv (year_inEra.mp ht),
    Option.bind_eq_bind, Option.bind_some, expectSeparator, true_or, if_true, readTime_write,
    utc_eq, readSubsecond_write (time_bounds t).2.2.2, readOffset_utc, hv, and_self]
  exact congrArg some (instant_eq t)

/-- A year that is not written in four digits is not read. -/
lemma parse_toRfc3339_none {t : ℤ} (ht : ¬ InEra t) : parseFromRfc3339 (toRfc3339 t) = none := by
  have hy : ¬ (0 ≤ (DateTime.date t).year ∧ (DateTime.date t).year ≤ 9999) :=
    fun h => ht (year_inEra.mpr h)
  have hsign : ∀ c : Char, decimal.val c = none → ∀ s, decimal.number 4 (c :: s) = none := by
    intro c hc s
    simp only [Alphabet.number, Alphabet.read, List.take_succ_cons, Alphabet.readFrom, hc,
      Option.bind_none, Option.map_none, ite_self]
  have hread : decimal.number 4 (toRfc3339 t) = none := by
    rw [toRfc3339, writeDate, writeYear, if_neg hy]
    split_ifs <;> exact hsign _ (by decide) _
  simp only [parseFromRfc3339, readDate, hread, Option.bind_eq_bind, Option.bind_none]

/-- Whatever instant is read back from a stored text is the one that was stored. -/
theorem eq_of_parse {t u : ℤ} (h : parseFromRfc3339 (toRfc3339 t) = some u) : u = t := by
  by_cases ht : InEra t
  · rw [parse_toRfc3339 ht] at h
    exact (Option.some.inj h).symm
  · rw [parse_toRfc3339_none ht] at h
    cases h

/-! ### Texts in the order of their instants -/

lemma writeDate_lt {x y : Date} (hy : y.Valid) (hx0 : 0 ≤ x.year)
    (hy1 : y.year ≤ 9999) (h : x < y) : writeDate x < writeDate y := by
  have hle : x.year ≤ y.year := by
    rw [Date.lt_def] at h
    omega
  have hxy : writeYear x.year = decimal.write 4 x.year.toNat := if_pos ⟨hx0, by omega⟩
  have hyy : writeYear y.year = decimal.write 4 y.year.toNat := if_pos ⟨by omega, hy1⟩
  have hm := hy.2.1
  have hd := day_le hy
  simp only [writeDate, hxy, hyy, List.append_assoc]
  rcases h with hlt | ⟨heq, hlt | ⟨hme, hlt⟩⟩
  · exact append_lt_append_of_lt (decimal_write_lt (by omega) (by omega)) (by simp) _ _
  · rw [heq, append_lt_append_iff, List.cons_append, List.cons_append, List.cons_lt_cons_iff]
    exact .inr ⟨rfl, append_lt_append_of_lt (decimal_write_lt hlt (by omega)) (by simp) _ _⟩
  · rw [heq, hme, append_lt_append_iff, List.cons_append, List.cons_append,
      List.cons_lt_cons_iff]
    refine .inr ⟨rfl, ?_⟩
    rw [append_lt_append_iff, List.cons_lt_cons_iff]
    exact .inr ⟨rfl, decimal_write_lt hlt (by omega)⟩

lemma length_writeDate {x : Date} (hy : 0 ≤ x.year ∧ x.year ≤ 9999) :
    (writeDate x).length = 10 := by
  simp [writeDate, writeYear, if_pos hy]

lemma date_lt_or_eq {t u : ℤ} (h : t ≤ u) :
    DateTime.date t < DateTime.date u ∨ DateTime.date t = DateTime.date u := by
  have hdiv : t / DateTime.nanosPerDay ≤ u / DateTime.nanosPerDay :=
    Int.ediv_le_ediv (by decide) h
  rcases hdiv.lt_or_eq with hlt | heq
  · exact .inl (ofDays_lt (by omega))
  · exact .inr (by rw [DateTime.date, heq, DateTime.date])

/-- A stored timestamp is greater, as a text, than `CURRENT_TIMESTAMP` at any earlier instant:
on the same day the separator `T` decides, and on an earlier day the date does. -/
theorem currentTimestamp_lt {t u : ℤ} (ht : InEra t) (hu : InEra u) (h : t ≤ u) :
    currentTimestamp t < toRfc3339 u := by
  have hyt := year_inEra.mp ht
  have hyu := year_inEra.mp hu
  rw [currentTimestamp, toRfc3339]
  rcases date_lt_or_eq h with hlt | heq
  · have hdate := writeDate_lt (valid_ofDays _) hyt.1 hyu.2 hlt
    exact append_lt_append_of_lt hdate
      ((length_writeDate hyt).trans (length_writeDate hyu).symm) _ _
  · rw [heq, append_lt_append_iff, List.cons_lt_cons_iff]
    exact .inl (by decide)

example : toRfc3339 1767225600500000000 = "2026-01-01T00:00:00.500+00:00".toList := by decide
example : currentTimestamp 1767225600500000000 = "2026-01-01 00:00:00".toList := by decide
example : parseFromRfc3339 "2026-01-01T01:00:00.5+01:00".toList = some 1767225600500000000 := by
  decide


end TittyBackend
