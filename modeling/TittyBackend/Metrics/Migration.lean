import TittyBackend.Metrics.Table

/-!
# The migration of the metrics

Migration 0003 adds the source of a request to the table of migration 0002. The rows that were
there get the source `unknown`, which later requests may have as well.
-/

namespace TittyBackend

open Numerals Relational

/-! ### Two layouts -/

/-- The primary key of migration 0002. -/
structure MetricKeyV2 where
  bucketStart : Text
  method : Text
  endpoint : Text
  statusClass : ℤ
  deriving DecidableEq

structure MetricRowV2 extends MetricKeyV2 where
  requestCount : ℤ
  deriving DecidableEq

abbrev MetricsV2 := Table MetricRowV2 (SameKey MetricRowV2.toMetricKeyV2)

/-- What is left of a key without its source. -/
def MetricKey.unsourced (k : MetricKey) : MetricKeyV2 :=
  ⟨k.bucketStart, k.method, k.endpoint, k.statusClass⟩

/-- A row of `SELECT bucket_start, 'unknown', method, ... FROM api_request_metrics`. -/
def MetricRowV2.migrate (r : MetricRowV2) : MetricRow :=
  { bucketStart := r.bucketStart, sourceIp := "unknown".toList, method := r.method,
    endpoint := r.endpoint, statusClass := r.statusClass, requestCount := r.requestCount }

/-- Migration 0003: the table that has the name `api_request_metrics` after it, unless a row
violates the new primary key. -/
def migrate (old : MetricsV2) : Option Metrics :=
  (Table.empty : Metrics).insertAll (old.rows.map MetricRowV2.migrate)

/-- The count of a key in the old layout. -/
def oldCount (old : MetricsV2) (k : MetricKeyV2) : ℤ :=
  ((old.rows.find? fun r => r.toMetricKeyV2 = k).map (·.requestCount)).getD 0

/-- `SUM(request_count)` over the sources of a key. -/
def sumOverSources (m : Metrics) (k : MetricKeyV2) : ℤ :=
  tally (·.requestCount) (fun r => r.toMetricKey.unsourced = k) m.rows

/-! ### The migrated rows -/

/-- Nothing violates the new primary key, since nothing violated the old one. -/
lemma migrate_eq_some (old : MetricsV2) :
    ∃ m, migrate old = some m ∧ m.rows = old.rows.map MetricRowV2.migrate := by
  have hrows : (old.rows.map MetricRowV2.migrate).Pairwise
      fun a b => ¬ SameKey MetricRow.toMetricKey a b := by
    refine List.pairwise_map.2 (old.distinct.imp fun hne heq => hne ?_)
    exact congrArg MetricKey.unsourced heq
  exact (Table.empty : Metrics).insertAll_eq_some hrows fun r _ a ha => by cases ha

lemma oldCount_eq_tally (old : MetricsV2) (k : MetricKeyV2) :
    oldCount old k = tally (·.requestCount) (fun r => r.toMetricKeyV2 = k) old.rows := by
  rw [oldCount]
  cases hfind : old.rows.find? fun r => r.toMetricKeyV2 = k with
  | none =>
    have hnone : old.rows.filter (fun r => r.toMetricKeyV2 = k) = [] := by
      rw [List.filter_eq_nil_iff]
      exact List.find?_eq_none.1 hfind
    rw [tally, hnone]
    rfl
  | some r =>
    have hk := List.find?_some hfind
    obtain rfl : r.toMetricKeyV2 = k := by simpa using hk
    rw [old.tally_key (List.mem_of_find?_eq_some hfind)]
    rfl

lemma tally_migrate (rows : List MetricRowV2) (k : MetricKeyV2) :
    tally (·.requestCount) (fun r => r.toMetricKey.unsourced = k) (rows.map MetricRowV2.migrate) =
      tally (·.requestCount) (fun r => r.toMetricKeyV2 = k) rows := by
  rw [tally, List.filter_map, List.map_map]
  rfl

/-! ### Nothing is lost -/

/-- The migration succeeds, and then the sum over the sources of a key is its old count and the
number of its later requests. -/
theorem migration_conserves (old : MetricsV2) :
    ∃ m, migrate old = some m ∧ ∀ xs : List ApiRequest,
      ((recordAll m xs).rows.Pairwise fun a b => a.toMetricKey ≠ b.toMetricKey) ∧
      ∀ k, sumOverSources (recordAll m xs) k =
          oldCount old k + (xs.countP fun x => x.key.unsourced = k : ℕ) ∧
        (k ∈ (recordAll m xs).rows.map (fun r => r.toMetricKey.unsourced) ↔
          k ∈ old.rows.map MetricRowV2.toMetricKeyV2 ∨ ∃ x ∈ xs, x.key.unsourced = k) := by
  obtain ⟨m, hm, hrows⟩ := migrate_eq_some old
  refine ⟨m, hm, fun xs => ⟨(recordAll m xs).distinct, fun k => ⟨?_, ?_⟩⟩⟩
  · have hsum := tally_recordAll m xs fun key => key.unsourced = k
    rw [hrows, tally_migrate, ← oldCount_eq_tally] at hsum
    simpa [sumOverSources] using hsum
  · have hkeys : ∀ key, key ∈ (recordAll m xs).rows.map MetricRow.toMetricKey ↔
        (∃ r ∈ old.rows, r.migrate.toMetricKey = key) ∨ ∃ x ∈ xs, x.key = key := by
      intro key
      rw [mem_keys_recordAll, hrows]
      simp
    constructor
    · intro hk
      obtain ⟨r, hr, rfl⟩ := List.mem_map.1 hk
      rcases (hkeys _).1 (List.mem_map_of_mem hr) with ⟨a, ha, heq⟩ | ⟨x, hx, heq⟩
      · exact .inl (List.mem_map.2 ⟨a, ha, congrArg MetricKey.unsourced heq⟩)
      · exact .inr ⟨x, hx, congrArg MetricKey.unsourced heq⟩
    · rintro (hk | ⟨x, hx, rfl⟩)
      · obtain ⟨a, ha, rfl⟩ := List.mem_map.1 hk
        obtain ⟨r, hr, heq⟩ := List.mem_map.1 ((hkeys _).2 (.inl ⟨a, ha, rfl⟩))
        exact List.mem_map.2 ⟨r, hr, congrArg MetricKey.unsourced heq⟩
      · obtain ⟨r, hr, heq⟩ := List.mem_map.1 ((hkeys _).2 (.inr ⟨x, hx, rfl⟩))
        exact List.mem_map.2 ⟨r, hr, congrArg MetricKey.unsourced heq⟩

end TittyBackend
