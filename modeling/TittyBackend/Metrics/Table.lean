import TittyBackend.Lib.Tally
import TittyBackend.Metrics.Bucket

/-!
# Request metrics

The table `api_request_metrics` counts requests for each bucket, source, method, endpoint and
class of status. The latencies, which are floating point, are left out, and a count is an integer
without a bound: SQLite's has 64 bits.
-/

namespace TittyBackend

open Numerals Relational

/-! ### The table -/

structure MetricKey where
  bucketStart : Text
  sourceIp : Text
  method : Text
  endpoint : Text
  statusClass : ℤ
  deriving DecidableEq

structure MetricRow extends MetricKey where
  requestCount : ℤ
  deriving DecidableEq

abbrev Metrics := Table MetricRow (SameKey MetricRow.toMetricKey)

/-- One call of `record_api_request`. -/
structure ApiRequest where
  timestamp : ℤ
  sourceIp : Text
  method : Text
  endpoint : Text
  status : UInt16
  deriving DecidableEq

def ApiRequest.key (x : ApiRequest) : MetricKey where
  bucketStart := TittyBackend.bucketStart x.timestamp
  sourceIp := x.sourceIp
  method := x.method
  endpoint := x.endpoint
  statusClass := (x.status.toNat / 100 : ℕ)

/-- The row that a call inserts. -/
def ApiRequest.row (x : ApiRequest) : MetricRow := { x.key with requestCount := 1 }

/-- What it makes of a stored row of the same key. -/
def MetricRow.bump (r : MetricRow) : MetricRow := { r with requestCount := r.requestCount + 1 }

lemma MetricRow.key_bump (r : MetricRow) : r.bump.toMetricKey = r.toMetricKey := rfl

def recordApiRequest (m : Metrics) (x : ApiRequest) : Metrics :=
  m.upsert x.row MetricRow.bump MetricRow.key_bump

/-- Calls of `record_api_request`, one after the other. -/
def recordAll (m : Metrics) (xs : List ApiRequest) : Metrics := xs.foldl recordApiRequest m

/-! ### The report -/

/-- `WHERE bucket_start >= '${SQL_SINCE}'` -/
def reported (m : Metrics) (since : ℤ) : List MetricRow :=
  m.rows.filter fun r => sqlSince since ≤ r.bucketStart

/-- `total_requests` of `summary.csv`. -/
def totalRequests (m : Metrics) (since : ℤ) : ℤ := ((reported m since).map (·.requestCount)).sum

/-- The reports of the form `SELECT f, SUM(request_count) ... GROUP BY f`, in some order. -/
def summary {γ : Type} [DecidableEq γ] (f : MetricRow → γ) (m : Metrics) (since : ℤ) :
    List (γ × ℤ) :=
  groups f (·.requestCount) (reported m since)

def endpointSummary : Metrics → ℤ → List (Text × ℤ) := summary (·.endpoint)

def bucketSummary : Metrics → ℤ → List (Text × ℤ) := summary (·.bucketStart)

/-- With `status_class || 'xx'` printed. -/
def statusSummary : Metrics → ℤ → List (ℤ × ℤ) := summary (·.statusClass)

def sourceSummary : Metrics → ℤ → List (Text × ℤ) := summary (·.sourceIp)

def sourceEndpointSummary : Metrics → ℤ → List ((Text × Text) × ℤ) :=
  summary fun r => (r.sourceIp, r.endpoint)

def sourceStatusSummary : Metrics → ℤ → List ((Text × ℤ) × ℤ) :=
  summary fun r => (r.sourceIp, r.statusClass)

/-! ### Counting calls -/

variable {m : Metrics} {x : ApiRequest} {xs : List ApiRequest}

/-- A call adds one to every sum that takes its key. -/
lemma tally_recordApiRequest (m : Metrics) (x : ApiRequest) (q : MetricKey → Bool) :
    tally (·.requestCount) (fun r => q r.toMetricKey) (recordApiRequest m x).rows =
      tally (·.requestCount) (fun r => q r.toMetricKey) m.rows + if q x.key then 1 else 0 :=
  m.tally_upsert MetricRow.key_bump (fun _ => rfl) fun _ _ h => congrArg q h

/-- Every sum grows by the number of the calls whose keys it takes. -/
lemma tally_recordAll (m : Metrics) (xs : List ApiRequest) (q : MetricKey → Bool) :
    tally (·.requestCount) (fun r => q r.toMetricKey) (recordAll m xs).rows =
      tally (·.requestCount) (fun r => q r.toMetricKey) m.rows + xs.countP fun x => q x.key := by
  induction xs generalizing m with
  | nil => simp [recordAll]
  | cons x xs ih =>
    rw [recordAll, List.foldl_cons, ← recordAll, ih, tally_recordApiRequest, List.countP_cons]
    split_ifs <;> omega

lemma mem_keys_recordAll (m : Metrics) (xs : List ApiRequest) {k : MetricKey} :
    k ∈ (recordAll m xs).rows.map MetricRow.toMetricKey ↔
      k ∈ m.rows.map MetricRow.toMetricKey ∨ ∃ x ∈ xs, x.key = k := by
  induction xs generalizing m with
  | nil => simp [recordAll]
  | cons x xs ih =>
    rw [recordAll, List.foldl_cons, ← recordAll, ih]
    rw [recordApiRequest, m.mem_keys_upsert MetricRow.key_bump]
    simp only [List.mem_cons, exists_eq_or_imp, or_assoc]
    exact or_congr Iff.rfl (or_congr eq_comm Iff.rfl)

/-- The row of a key counts its calls, and there is one as soon as there is a call. -/
lemma mem_recordAll {r : MetricRow} : r ∈ (recordAll .empty xs).rows ↔
    r.requestCount = (xs.countP fun x => x.key = r.toMetricKey : ℕ) ∧
      ∃ x ∈ xs, x.key = r.toMetricKey := by
  have hcount : ∀ a ∈ (recordAll .empty xs).rows,
      a.requestCount = (xs.countP fun x => x.key = a.toMetricKey : ℕ) := by
    intro a ha
    have hsum := tally_recordAll .empty xs fun k => k = a.toMetricKey
    rw [Table.tally_key _ ha] at hsum
    simpa using hsum
  constructor
  · intro hr
    have hkey := (mem_keys_recordAll .empty xs).1 (List.mem_map_of_mem hr)
    exact ⟨hcount r hr, hkey.resolve_left (by simp)⟩
  · rintro ⟨hr, hx⟩
    obtain ⟨a, ha, hkey⟩ := List.mem_map.1 ((mem_keys_recordAll .empty xs).2 (.inr hx))
    have ha' := hcount a ha
    rw [hkey, ← hr] at ha'
    obtain ⟨key, n⟩ := a
    obtain ⟨key', n'⟩ := r
    cases hkey
    cases ha'
    exact ha

/-! ### Reported sums -/

/-- The calls whose bucket begins at or after the second of `since`. -/
def takenSince (xs : List ApiRequest) (since : ℤ) : List ApiRequest :=
  xs.filter fun x => wholeSecond since ≤ quarterStart x.timestamp

/-- A report counts the calls `xs` for each value of `f`. -/
structure Tells {γ : Type} [DecidableEq γ] (report : List (γ × ℤ)) (f : ApiRequest → γ)
    (xs : List ApiRequest) : Prop where
  groups : ∀ g n, (g, n) ∈ report ↔ (∃ x ∈ xs, f x = g) ∧ n = (xs.countP fun x => f x = g : ℕ)
  total : (report.map Prod.snd).sum = xs.length

variable {since : ℤ}

/-- A sum over the rows of a report is a number of calls. -/
lemma tally_reported (hxs : ∀ x ∈ xs, InEra x.timestamp) (hsince : InEra since)
    (q : MetricKey → Bool) :
    tally (·.requestCount) (fun r => q r.toMetricKey) (reported (recordAll .empty xs) since) =
      ((takenSince xs since).countP fun x => q x.key : ℕ) := by
  have hsum := tally_recordAll .empty xs fun k => q k && decide (sqlSince since ≤ k.bucketStart)
  rw [reported, tally_filter, takenSince, List.countP_filter]
  rw [Table.rows_empty, tally_nil, zero_add] at hsum
  refine hsum.trans (congrArg _ (List.countP_congr fun x hx => ?_))
  have hle := sqlSince_le_bucketStart (hxs x hx) hsince
  simp only [Bool.and_eq_true, decide_eq_true_eq]
  exact and_congr_right fun _ => hle

lemma exists_reported (hxs : ∀ x ∈ xs, InEra x.timestamp) (hsince : InEra since)
    {q : MetricKey → Prop} :
    (∃ r ∈ reported (recordAll .empty xs) since, q r.toMetricKey) ↔
      ∃ x ∈ takenSince xs since, q x.key := by
  simp only [reported, takenSince, List.mem_filter, decide_eq_true_eq]
  constructor
  · rintro ⟨r, ⟨hr, hle⟩, hq⟩
    obtain ⟨-, x, hx, hkey⟩ := mem_recordAll.1 hr
    rw [← hkey] at hq
    rw [show r.bucketStart = x.key.bucketStart by rw [hkey]] at hle
    exact ⟨x, ⟨hx, (sqlSince_le_bucketStart (hxs x hx) hsince).1 hle⟩, hq⟩
  · rintro ⟨x, ⟨hx, hle⟩, hq⟩
    refine ⟨⟨x.key, (xs.countP fun y => y.key = x.key : ℕ)⟩, ⟨?_, ?_⟩, hq⟩
    · exact mem_recordAll.2 ⟨rfl, x, hx, rfl⟩
    · exact (sqlSince_le_bucketStart (hxs x hx) hsince).2 hle

lemma totalRequests_recordAll (hxs : ∀ x ∈ xs, InEra x.timestamp) (hsince : InEra since) :
    totalRequests (recordAll .empty xs) since = (takenSince xs since).length := by
  have hall := tally_reported hxs hsince fun _ => true
  rw [List.countP_true] at hall
  rw [← hall, totalRequests, tally, List.filter_true]

/-- Every report by a part of the key counts the calls. -/
lemma tells_summary {γ : Type} [DecidableEq γ] (f : MetricKey → γ)
    (hxs : ∀ x ∈ xs, InEra x.timestamp) (hsince : InEra since) :
    Tells (summary (fun r => f r.toMetricKey) (recordAll .empty xs) since) (fun x => f x.key)
      (takenSince xs since) where
  groups g n := by
    rw [summary, mem_groups, exists_reported hxs hsince (q := fun k => f k = g),
      tally_reported hxs hsince fun k => f k = g]
  total := (sum_groups _ _ _).trans (totalRequests_recordAll hxs hsince)

/-! ### Conservation -/

/-- The table counts the calls of each key in whatever order they come, every report sums them up
for its instants, and the bucket of a call is the text of the beginning of its quarter. -/
theorem metrics_conservation :
    (∀ xs ys : List ApiRequest, xs.Perm ys →
      (recordAll .empty xs).rows.Perm (recordAll .empty ys).rows) ∧
    (∀ xs : List ApiRequest,
      ((recordAll .empty xs).rows.Pairwise fun a b => a.toMetricKey ≠ b.toMetricKey) ∧
      ∀ r, r ∈ (recordAll .empty xs).rows ↔
        r.requestCount = (xs.countP fun x => x.key = r.toMetricKey : ℕ) ∧
          ∃ x ∈ xs, x.key = r.toMetricKey) ∧
    (∀ (xs : List ApiRequest) (since : ℤ), (∀ x ∈ xs, InEra x.timestamp) → InEra since →
      totalRequests (recordAll .empty xs) since = (takenSince xs since).length ∧
      Tells (endpointSummary (recordAll .empty xs) since) (·.endpoint) (takenSince xs since) ∧
      Tells (bucketSummary (recordAll .empty xs) since) (bucketStart ·.timestamp)
        (takenSince xs since) ∧
      Tells (sourceSummary (recordAll .empty xs) since) (·.sourceIp) (takenSince xs since) ∧
      Tells (statusSummary (recordAll .empty xs) since) (fun x => (x.status.toNat / 100 : ℕ))
        (takenSince xs since) ∧
      Tells (sourceEndpointSummary (recordAll .empty xs) since) (fun x => (x.sourceIp, x.endpoint))
        (takenSince xs since) ∧
      Tells (sourceStatusSummary (recordAll .empty xs) since)
        (fun x => (x.sourceIp, (x.status.toNat / 100 : ℕ))) (takenSince xs since)) ∧
    (∀ t, InEra t →
      truncate t = some (DateTime.seconds (900 * (t / DateTime.nanosPerSecond / 900))) ∧
      bucketStart t =
        toRfc3339Secs (DateTime.seconds (900 * (t / DateTime.nanosPerSecond / 900)))) ∧
    ∀ t since, InEra t → InEra since →
      (sqlSince since ≤ bucketStart t ↔ wholeSecond since ≤ quarterStart t) := by
  refine ⟨fun xs ys h => ?_, fun xs => ⟨(recordAll .empty xs).distinct, fun r => mem_recordAll⟩,
    fun xs since hxs hsince => ⟨totalRequests_recordAll hxs hsince, ?_, ?_, ?_, ?_, ?_, ?_⟩,
    fun t ht => ?_, fun t since ht hsince => sqlSince_le_bucketStart ht hsince⟩
  · have hnodup (zs : List ApiRequest) : (recordAll .empty zs).rows.Nodup :=
      (recordAll .empty zs).distinct.imp fun hkey heq => hkey (congrArg _ heq)
    refine (List.perm_ext_iff_of_nodup (hnodup xs) (hnodup ys)).2 fun r => ?_
    rw [mem_recordAll, mem_recordAll, h.countP_eq]
    simp only [h.mem_iff]
  · exact tells_summary (·.endpoint) hxs hsince
  · exact tells_summary (·.bucketStart) hxs hsince
  · exact tells_summary (·.sourceIp) hxs hsince
  · exact tells_summary (·.statusClass) hxs hsince
  · exact tells_summary (fun k => (k.sourceIp, k.endpoint)) hxs hsince
  · exact tells_summary (fun k => (k.sourceIp, k.statusClass)) hxs hsince
  · have hquarter : quarterStart t =
        DateTime.seconds (900 * (t / DateTime.nanosPerSecond / 900)) := by
      simp only [quarterStart, DateTime.nanosPerQuarter, DateTime.seconds, DateTime.nanosPerSecond]
      omega
    rw [← hquarter]
    exact ⟨truncate_eq ht, bucketStart_eq ht⟩

/-- Two calls in one quarter and one in the next, reported from the second quarter on. -/
theorem metrics_conservation_quarters :
    let call (t : ℤ) : ApiRequest :=
      ⟨t, "192.0.2.7".toList, "POST".toList, "/graphql".toList, 200⟩
    let xs := [call 1767225600000000000, call 1767226499999999999, call 1767226500000000000]
    totalRequests (recordAll .empty xs) 1767226500000000000 =
      (takenSince xs 1767226500000000000).length ∧
    (takenSince xs 1767226500000000000).length = 1 := by
  intro call xs
  refine ⟨?_, by decide⟩
  exact (metrics_conservation.2.2.1 xs 1767226500000000000 (by decide) (by decide)).1

/-! ### The window of a report -/

/-- The row that counts the call is one of the report. -/
def Counted (xs : List ApiRequest) (since : ℤ) (x : ApiRequest) : Prop :=
  ∃ r ∈ reported (recordAll .empty xs) since, r.toMetricKey = x.key

instance (xs : List ApiRequest) (since : ℤ) (x : ApiRequest) : Decidable (Counted xs since x) :=
  inferInstanceAs (Decidable (∃ r ∈ reported (recordAll .empty xs) since, r.toMetricKey = x.key))

/-- A report counts all calls from `since` on, and none that is a quarter of an hour older. -/
structure Covers (xs : List ApiRequest) (since : ℤ) : Prop where
  complete : ∀ x ∈ xs, since ≤ x.timestamp → Counted xs since x
  older : ∀ x ∈ xs, x.timestamp + DateTime.nanosPerQuarter ≤ since → ¬ Counted xs since x

/-- A quarter of an hour begins in the second of `since`, or no call came in what was left of the
quarter that had begun before. -/
def Aligned (xs : List ApiRequest) (since : ℤ) : Prop :=
  quarterStart since = wholeSecond since ∨ ∀ x ∈ xs, since ≤ x.timestamp →
    quarterStart since + DateTime.nanosPerQuarter ≤ x.timestamp

instance (xs : List ApiRequest) (since : ℤ) : Decidable (Aligned xs since) :=
  inferInstanceAs (Decidable (_ ∨ _))

lemma counted_iff (hxs : ∀ x ∈ xs, InEra x.timestamp) (hsince : InEra since) (hx : x ∈ xs) :
    Counted xs since x ↔ wholeSecond since ≤ quarterStart x.timestamp := by
  rw [Counted, exists_reported hxs hsince (q := fun k => k = x.key)]
  simp only [takenSince, List.mem_filter, decide_eq_true_eq]
  constructor
  · rintro ⟨y, ⟨hy, hle⟩, hkey⟩
    have hbucket : bucketStart y.timestamp = bucketStart x.timestamp :=
      congrArg MetricKey.bucketStart hkey
    rw [← sqlSince_le_bucketStart (hxs y hy) hsince, hbucket] at hle
    exact (sqlSince_le_bucketStart (hxs x hx) hsince).1 hle
  · exact fun hle => ⟨x, ⟨hx, hle⟩, rfl⟩

/-- A call in the quarter of `since` is in a bucket that begins before `since`. -/
lemma wholeSecond_le_quarterStart {t : ℤ} (h : since ≤ t) :
    wholeSecond since ≤ quarterStart t ↔
      quarterStart since = wholeSecond since ∨
        quarterStart since + DateTime.nanosPerQuarter ≤ t := by
  simp only [wholeSecond, quarterStart, DateTime.nanosPerQuarter, DateTime.nanosPerSecond]
  omega

/-- A report counts as many calls as have their rows in it. It covers its window exactly when that
begins with a quarter of an hour, or nothing was lost in the one it begins in. -/
theorem report_covers_iff (hxs : ∀ x ∈ xs, InEra x.timestamp) (hsince : InEra since) :
    totalRequests (recordAll .empty xs) since = xs.countP (fun x => Counted xs since x) ∧
      (Covers xs since ↔ Aligned xs since) := by
  refine ⟨?_, fun h => ?_, fun h => ⟨fun x hx hle => ?_, fun x hx hle => ?_⟩⟩
  · rw [totalRequests_recordAll hxs hsince, takenSince, ← List.countP_eq_length_filter]
    refine congrArg _ (List.countP_congr fun x hx => ?_)
    simp only [decide_eq_true_eq]
    exact (counted_iff hxs hsince hx).symm
  · refine or_iff_not_imp_left.mpr fun hgrid x hx hle => ?_
    have hcounted := (counted_iff hxs hsince hx).mp (h.complete x hx hle)
    exact ((wholeSecond_le_quarterStart hle).mp hcounted).resolve_left hgrid
  · rw [counted_iff hxs hsince hx, wholeSecond_le_quarterStart hle]
    exact h.imp_right fun hall => hall x hx hle
  · rw [counted_iff hxs hsince hx, not_le]
    simp only [wholeSecond, quarterStart, DateTime.nanosPerQuarter,
      DateTime.nanosPerSecond] at hle ⊢
    omega

namespace Known

/-- A call at ten past midnight. -/
def tenPast : ApiRequest :=
  ⟨1767226200000000000, "192.0.2.7".toList, "POST".toList, "/graphql".toList, 200⟩

end Known

/-- The report from seven past midnight does not count a call at ten past. -/
theorem report_not_covers : ¬ Covers [Known.tenPast] 1767226020000000000 := fun h =>
  absurd (h.complete Known.tenPast (by simp) (by decide)) (by decide +kernel)

/-- That from midnight does. -/
theorem report_covers_midnight : Covers [Known.tenPast] 1767225600000000000 :=
  (report_covers_iff (by decide) (by decide)).2.mpr (by decide)

end TittyBackend
