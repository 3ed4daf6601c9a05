import TittyBackend.Data.TextOrder

/-!
# Buckets of a quarter of an hour

The bucket of a request is the text of the instant at which its quarter of an hour began. The
report is given an instant and compares its text, to the second, with those of the buckets.
-/

namespace TittyBackend

open Civil Numerals

namespace DateTime

def nanosPerMinute : ℤ := 60000000000

/-- The length of a bucket. -/
def nanosPerQuarter : ℤ := 900000000000

/-- `with_minute` -/
def withMinute (t : ℤ) (m : ℕ) : Option ℤ :=
  let u := t + ((m : ℤ) - minute t) * nanosPerMinute
  if m < 60 ∧ InRange u then some u else none

/-- `with_second` -/
def withSecond (t : ℤ) (s : ℕ) : Option ℤ :=
  let u := t + ((s : ℤ) - second t) * nanosPerSecond
  if s < 60 ∧ InRange u then some u else none

/-- `with_nanosecond`; from a whole second on it would say that a leap second passes. -/
def withNanosecond (t : ℤ) (n : ℕ) : Option ℤ :=
  let u := t + ((n : ℤ) - nanosecond t)
  if n < 1000000000 ∧ InRange u then some u else none

end DateTime

/-- The steps from a timestamp to the beginning of its bucket. -/
def truncate (timestamp : ℤ) : Option ℤ :=
  let bucketMinute := DateTime.minute timestamp / 15 * 15
  (DateTime.withMinute timestamp bucketMinute).bind fun value =>
    (DateTime.withSecond value 0).bind fun value => DateTime.withNanosecond value 0

/-- `to_rfc3339_opts(SecondsFormat::Secs, true)` -/
def toRfc3339Secs (t : ℤ) : Text :=
  writeDate (DateTime.date t) ++ 'T' :: (writeTime t ++ "Z".toList)

/-- The `bucket_start` of a request at an instant. -/
def bucketStart (timestamp : ℤ) : Text := toRfc3339Secs ((truncate timestamp).getD timestamp)

/-- The beginning of the quarter of an hour of an instant. -/
def quarterStart (t : ℤ) : ℤ := t / DateTime.nanosPerQuarter * DateTime.nanosPerQuarter

/-- `date -u -d "${SINCE}" '+%Y-%m-%dT%H:%M:%SZ'` for the instant that `date` makes of it. -/
def sqlSince (since : ℤ) : Text := toRfc3339Secs since

/-- The instant that the text of `since` says. -/
def wholeSecond (since : ℤ) : ℤ := since / DateTime.nanosPerSecond * DateTime.nanosPerSecond

/-! ### The beginning of a bucket -/

lemma quarterStart_le (t : ℤ) : quarterStart t ≤ t := by
  simp only [quarterStart, DateTime.nanosPerQuarter]
  omega

lemma InEra.quarterStart {t : ℤ} (h : InEra t) : InEra (quarterStart t) := by
  simp only [InEra, TittyBackend.quarterStart, DateTime.nanosPerQuarter, DateTime.seconds,
    DateTime.nanosPerSecond] at h ⊢
  omega

lemma InEra.wholeSecond {t : ℤ} (h : InEra t) : InEra (wholeSecond t) := by
  simp only [InEra, TittyBackend.wholeSecond, DateTime.seconds, DateTime.nanosPerSecond] at h ⊢
  omega

lemma minute_cast (t : ℤ) : (DateTime.minute t : ℤ) = t / 60000000000 % 60 := by
  simp only [DateTime.minute, DateTime.ofDay, DateTime.nanosPerDay]
  omega

lemma second_cast (t : ℤ) : (DateTime.second t : ℤ) = t / 1000000000 % 60 := by
  simp only [DateTime.second, DateTime.ofDay, DateTime.nanosPerDay]
  omega

lemma nanosecond_cast (t : ℤ) : (DateTime.nanosecond t : ℤ) = t % 1000000000 := by
  simp only [DateTime.nanosecond, DateTime.ofDay, DateTime.nanosPerDay]
  omega

/-- An instant between the beginning of a bucket and an instant of it. -/
lemma inRange_between {t u : ℤ} (h : InEra t) (hu : quarterStart t ≤ u ∧ u ≤ t) :
    DateTime.InRange u := (h.quarterStart.between h hu.1 hu.2).inRange

lemma withMinute_quarter {t : ℤ} (h : InEra t) :
    DateTime.withMinute t (DateTime.minute t / 15 * 15) =
      some (quarterStart t + t % DateTime.nanosPerMinute) := by
  have hm := minute_cast t
  have hbound := (time_bounds t).2.1
  have heq : t + (((DateTime.minute t / 15 * 15 : ℕ) : ℤ) - DateTime.minute t) *
      DateTime.nanosPerMinute = quarterStart t + t % DateTime.nanosPerMinute := by
    simp only [quarterStart, DateTime.nanosPerQuarter, DateTime.nanosPerMinute]
    omega
  rw [DateTime.withMinute, heq]
  refine if_pos ⟨by omega, inRange_between h ?_⟩
  simp only [quarterStart, DateTime.nanosPerQuarter, DateTime.nanosPerMinute]
  omega

lemma withSecond_quarter {t : ℤ} (h : InEra t) :
    DateTime.withSecond (quarterStart t + t % DateTime.nanosPerMinute) 0 =
      some (quarterStart t + t % DateTime.nanosPerSecond) := by
  have hs := second_cast (quarterStart t + t % DateTime.nanosPerMinute)
  have heq : quarterStart t + t % DateTime.nanosPerMinute + (((0 : ℕ) : ℤ) - DateTime.second
      (quarterStart t + t % DateTime.nanosPerMinute)) * DateTime.nanosPerSecond =
        quarterStart t + t % DateTime.nanosPerSecond := by
    rw [hs]
    simp only [quarterStart, DateTime.nanosPerQuarter, DateTime.nanosPerMinute,
      DateTime.nanosPerSecond]
    omega
  rw [DateTime.withSecond, heq]
  refine if_pos ⟨by decide, inRange_between h ?_⟩
  simp only [quarterStart, DateTime.nanosPerQuarter, DateTime.nanosPerSecond]
  omega

lemma withNanosecond_quarter {t : ℤ} (h : InEra t) :
    DateTime.withNanosecond (quarterStart t + t % DateTime.nanosPerSecond) 0 =
      some (quarterStart t) := by
  have hn := nanosecond_cast (quarterStart t + t % DateTime.nanosPerSecond)
  have heq : quarterStart t + t % DateTime.nanosPerSecond + (((0 : ℕ) : ℤ) - DateTime.nanosecond
      (quarterStart t + t % DateTime.nanosPerSecond)) = quarterStart t := by
    rw [hn]
    simp only [quarterStart, DateTime.nanosPerQuarter, DateTime.nanosPerSecond]
    omega
  rw [DateTime.withNanosecond, heq]
  exact if_pos ⟨by decide, inRange_between h ⟨le_rfl, quarterStart_le t⟩⟩

/-- The fallback of `record_api_request` is never taken. -/
theorem truncate_eq {t : ℤ} (h : InEra t) : truncate t = some (quarterStart t) := by
  rw [truncate, withMinute_quarter h, Option.bind_some, withSecond_quarter h, Option.bind_some,
    withNanosecond_quarter h]

lemma bucketStart_eq {t : ℤ} (h : InEra t) : bucketStart t = toRfc3339Secs (quarterStart t) := by
  rw [bucketStart, truncate_eq h, Option.getD_some]

/-! ### Texts to the second -/

lemma secondOfDay_cast (t : ℤ) : (secondOfDay t : ℤ) = t % DateTime.nanosPerDay / 1000000000 := by
  simp only [secondOfDay, DateTime.ofDay, DateTime.nanosPerDay]
  omega

/-- A text to the second is that of the whole second. -/
lemma toRfc3339Secs_wholeSecond (t : ℤ) : toRfc3339Secs (wholeSecond t) = toRfc3339Secs t := by
  have hday : wholeSecond t / DateTime.nanosPerDay = t / DateTime.nanosPerDay := by
    simp only [wholeSecond, DateTime.nanosPerDay, DateTime.nanosPerSecond]
    omega
  have hsecond : secondOfDay (wholeSecond t) = secondOfDay t := by
    have h := secondOfDay_cast t
    have h' := secondOfDay_cast (wholeSecond t)
    simp only [wholeSecond, DateTime.nanosPerDay, DateTime.nanosPerSecond] at h h' ⊢
    omega
  rw [toRfc3339Secs, toRfc3339Secs, DateTime.date, hday, DateTime.date, writeTime_congr hsecond]

lemma toRfc3339Secs_lt {t u : ℤ} (ht : InEra t) (hu : InEra u)
    (h : t / DateTime.nanosPerSecond < u / DateTime.nanosPerSecond) :
    toRfc3339Secs t < toRfc3339Secs u := by
  refine text_lt ht hu ?_ _ _ _
  have hs := secondOfDay_cast t
  have hs' := secondOfDay_cast u
  simp only [DateTime.nanosPerDay, DateTime.nanosPerSecond] at hs hs' h ⊢
  omega

/-- Texts to the second compare as the instants that they say. -/
theorem toRfc3339Secs_le_iff {t u : ℤ} (ht : InEra t) (hu : InEra u) :
    toRfc3339Secs t ≤ toRfc3339Secs u ↔ wholeSecond t ≤ wholeSecond u := by
  have hdiv : wholeSecond t ≤ wholeSecond u ↔
      t / DateTime.nanosPerSecond ≤ u / DateTime.nanosPerSecond := by
    simp only [wholeSecond, DateTime.nanosPerSecond]
    omega
  rw [hdiv]
  constructor
  · intro h
    by_contra hlt
    exact absurd (toRfc3339Secs_lt hu ht (not_le.1 hlt)) (not_lt.2 h)
  · intro h
    rcases h.lt_or_eq with hlt | heq
    · exact (toRfc3339Secs_lt ht hu hlt).le
    · have hwhole : wholeSecond t = wholeSecond u := by rw [wholeSecond, heq, wholeSecond]
      rw [← toRfc3339Secs_wholeSecond t, hwhole, toRfc3339Secs_wholeSecond]

lemma wholeSecond_quarterStart (t : ℤ) : wholeSecond (quarterStart t) = quarterStart t := by
  simp only [wholeSecond, quarterStart, DateTime.nanosPerQuarter, DateTime.nanosPerSecond]
  omega

/-- The report takes a bucket exactly when it begins at or after the second of its `since`. -/
theorem sqlSince_le_bucketStart {t since : ℤ} (ht : InEra t) (hs : InEra since) :
    sqlSince since ≤ bucketStart t ↔ wholeSecond since ≤ quarterStart t := by
  rw [bucketStart_eq ht, sqlSince, toRfc3339Secs_le_iff hs ht.quarterStart,
    wholeSecond_quarterStart]

example : bucketStart 1767226499999999999 = "2026-01-01T00:00:00Z".toList := by decide

end TittyBackend
