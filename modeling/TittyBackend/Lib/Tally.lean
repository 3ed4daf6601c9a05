import TittyBackend.Lib.Table
import Mathlib.Algebra.BigOperators.Group.Finset.Piecewise
import Mathlib.Algebra.Ring.Int.Defs
import Mathlib.Data.List.Dedup

/-!
# Counters in a table

A table with one key whose rows count something. `upsert` adds a row or, where there is one of its
key already, merges the two; `tally` is the sum over the rows that satisfy a condition, and
`groups` is the sum for each value of a column.
-/

namespace Relational

variable {ρ κ γ : Type}

/-- Rows clash when they have the same key. -/
def SameKey (key : ρ → κ) (a b : ρ) : Prop := key a = key b

instance [DecidableEq κ] (key : ρ → κ) : DecidableRel (SameKey key) :=
  fun a b => inferInstanceAs (Decidable (key a = key b))

instance (key : ρ → κ) : Std.Symm (SameKey key) := ⟨fun _ _ h => Eq.symm h⟩

variable [DecidableEq κ] {key : ρ → κ}

namespace Table

/-- `INSERT ... ON CONFLICT (key) DO UPDATE`: `merge` is what becomes of the stored row. -/
def upsert (t : Table ρ (SameKey key)) (r : ρ) (merge : ρ → ρ)
    (hmerge : ∀ a, key (merge a) = key a) :
    Table ρ (SameKey key) :=
  if h : t.Fresh r then t.add r h
  else t.update (fun a => key a = key r) merge fun a b => by simp [SameKey, hmerge]

/-- `INSERT INTO ... SELECT`: nothing at all when a row clashes. -/
def insertAll (t : Table ρ (SameKey key)) : List ρ → Option (Table ρ (SameKey key))
  | [] => some t
  | r :: rs => if h : t.Fresh r then (t.add r h).insertAll rs else none

end Table

/-! ### Sums -/

/-- The sum of a column over the rows that satisfy `p`. -/
def tally (count : ρ → ℤ) (p : ρ → Bool) (rows : List ρ) : ℤ := ((rows.filter p).map count).sum

/-- `SELECT f, SUM(count) ... GROUP BY f`. -/
def groups [DecidableEq γ] (f : ρ → γ) (count : ρ → ℤ) (rows : List ρ) : List (γ × ℤ) :=
  (rows.map f).dedup.map fun g => (g, tally count (fun r => f r = g) rows)

variable {count : ρ → ℤ} {p : ρ → Bool}

@[simp] lemma tally_nil : tally count p [] = 0 := rfl

lemma tally_cons (r : ρ) (rows : List ρ) :
    tally count p (r :: rows) = (if p r then count r else 0) + tally count p rows := by
  rw [tally, List.filter_cons]
  split_ifs
  · rw [List.map_cons, List.sum_cons]
    rfl
  · rw [zero_add]
    rfl

lemma tally_append (rows rows' : List ρ) :
    tally count p (rows ++ rows') = tally count p rows + tally count p rows' := by
  rw [tally, List.filter_append, List.map_append, List.sum_append]
  rfl

lemma tally_filter (q : ρ → Bool) (rows : List ρ) :
    tally count p (rows.filter q) = tally count (fun r => p r && q r) rows := by
  rw [tally, List.filter_filter]
  rfl

/-- The sums for every value make up the whole. -/
lemma sum_tally_eq [DecidableEq γ] (f : ρ → γ) (count : ρ → ℤ) {rows : List ρ} {s : Finset γ}
    (hs : ∀ r ∈ rows, f r ∈ s) : ∑ g ∈ s, tally count (fun r => f r = g) rows =
      (rows.map count).sum := by
  induction rows with
  | nil => simp
  | cons r rows ih =>
    have hr : f r ∈ s := hs r List.mem_cons_self
    simp only [tally_cons, decide_eq_true_eq, Finset.sum_add_distrib, List.map_cons, List.sum_cons,
      Finset.sum_ite_eq, hr, if_true, ih fun a ha => hs a (List.mem_cons_of_mem _ ha)]

lemma sum_groups [DecidableEq γ] (f : ρ → γ) (count : ρ → ℤ) (rows : List ρ) :
    ((groups f count rows).map Prod.snd).sum = (rows.map count).sum := by
  rw [groups, List.map_map, ← List.sum_toFinset _ (List.nodup_dedup _)]
  refine sum_tally_eq f count fun r hr => ?_
  simpa using ⟨r, hr, rfl⟩

lemma mem_groups [DecidableEq γ] {f : ρ → γ} {rows : List ρ} {g : γ} {n : ℤ} :
    (g, n) ∈ groups f count rows ↔
      (∃ r ∈ rows, f r = g) ∧ n = tally count (fun r => f r = g) rows := by
  rw [groups, List.mem_map]
  constructor
  · rintro ⟨g', hg', heq⟩
    cases heq
    exact ⟨List.mem_map.1 (List.mem_dedup.1 hg'), rfl⟩
  · rintro ⟨hg, rfl⟩
    exact ⟨g, List.mem_dedup.2 (List.mem_map.2 hg), rfl⟩

/-! ### Counting -/

namespace Table

/-- The merged row of a key adds `n` to every sum that takes its key. -/
lemma tally_merge {rows : List ρ} (hrows : rows.Pairwise fun a b => ¬ SameKey key a b) {r : ρ}
    {merge : ρ → ρ} {n : ℤ} (hr : key r ∈ rows.map key) (hmerge : ∀ a, key (merge a) = key a)
    (hcount : ∀ a, count (merge a) = count a + n) (hp : ∀ a b, key a = key b → p a = p b) :
    tally count p (rows.map fun a => if key a = key r then merge a else a) =
      tally count p rows + if p r then n else 0 := by
  induction rows with
  | nil => cases hr
  | cons a rows ih =>
    obtain ⟨ha, hrows⟩ := List.pairwise_cons.1 hrows
    rw [List.map_cons, tally_cons, tally_cons]
    by_cases hak : key a = key r
    · have hrest : (rows.map fun b => if key b = key r then merge b else b) = rows := by
        have hid : ∀ b ∈ rows, (if key b = key r then merge b else b) = b := fun b hb =>
          if_neg fun hbk => ha b hb (hak.trans hbk.symm)
        rw [List.map_congr_left hid, List.map_id']
      rw [hrest, if_pos hak, hp _ _ (hmerge a), hcount, ← hp _ _ hak]
      split_ifs <;> omega
    · have hr' : key r ∈ rows.map key := (List.mem_cons.1 hr).resolve_left fun h => hak h.symm
      rw [if_neg hak, ih hrows hr']
      omega

variable (t : Table ρ (SameKey key)) {r : ρ} {merge : ρ → ρ}

/-- An upsert adds its count to every sum that takes its key. -/
lemma tally_upsert (hmerge : ∀ a, key (merge a) = key a)
    (hcount : ∀ a, count (merge a) = count a + count r) (hp : ∀ a b, key a = key b → p a = p b) :
    tally count p (t.upsert r merge hmerge).rows =
      tally count p t.rows + if p r then count r else 0 := by
  by_cases hfresh : t.Fresh r
  · rw [upsert, dif_pos hfresh, rows_add, tally_append, tally_cons, tally_nil, add_zero]
  · rw [upsert, dif_neg hfresh]
    have hr : key r ∈ t.rows.map key := by
      simp only [Fresh, not_forall, not_not] at hfresh
      obtain ⟨a, ha, heq⟩ := hfresh
      exact List.mem_map.2 ⟨a, ha, heq⟩
    rw [rows_update]
    simpa using tally_merge t.distinct hr hmerge hcount hp

/-- The keys after an upsert are those before it, and its own. -/
lemma mem_keys_upsert (hmerge : ∀ a, key (merge a) = key a) {k : κ} :
    k ∈ (t.upsert r merge hmerge).rows.map key ↔ k ∈ t.rows.map key ∨ k = key r := by
  by_cases hfresh : t.Fresh r
  · rw [upsert, dif_pos hfresh]
    simp [eq_comm]
  · rw [upsert, dif_neg hfresh]
    have hkeys : (t.rows.map fun a => if key a = key r then merge a else a).map key =
        t.rows.map key := by
      rw [List.map_map]
      refine List.map_congr_left fun a _ => ?_
      simp only [Function.comp_apply]
      split_ifs
      · exact hmerge a
      · rfl
    simp only [Fresh, not_forall, not_not] at hfresh
    obtain ⟨a, ha, heq⟩ := hfresh
    simp only [rows_update, decide_eq_true_eq, hkeys]
    constructor
    · exact .inl
    · rintro (h | rfl)
      · exact h
      · exact List.mem_map.2 ⟨a, ha, heq⟩

/-- The sum for one key is the count of its row. -/
lemma tally_key {a : ρ} (ha : a ∈ t.rows) :
    tally count (fun r => key r = key a) t.rows = count a := by
  have heq : ∀ b ∈ t.rows.filter (fun r => key r = key a), b = a := by
    intro b hb
    obtain ⟨hb, hkey⟩ := List.mem_filter.1 hb
    exact t.eq_of_clash hb ha (of_decide_eq_true hkey)
  have hone : t.rows.countP (fun r => key r = key a) = 1 :=
    t.countP_eq_one ha (by simp) fun b hb => of_decide_eq_true hb
  rw [List.countP_eq_length_filter, List.length_eq_one_iff] at hone
  obtain ⟨b, hb⟩ := hone
  rw [hb] at heq
  rw [tally, hb, heq b (by simp)]
  simp

/-- Rows of distinct keys are all taken in. -/
lemma insertAll_eq_some {rs : List ρ} (hrs : rs.Pairwise fun a b => ¬ SameKey key a b)
    (hfresh : ∀ r ∈ rs, t.Fresh r) : ∃ u, t.insertAll rs = some u ∧ u.rows = t.rows ++ rs := by
  induction rs generalizing t with
  | nil => exact ⟨t, rfl, (List.append_nil _).symm⟩
  | cons r rs ih =>
    obtain ⟨hr, hrs⟩ := List.pairwise_cons.1 hrs
    have hadd : t.Fresh r := hfresh r List.mem_cons_self
    have hfresh' : ∀ a ∈ rs, (t.add r hadd).Fresh a := by
      intro a ha b hb
      rcases List.mem_append.1 hb with hb | hb
      · exact hfresh a (List.mem_cons_of_mem _ ha) b hb
      · obtain rfl := List.mem_singleton.1 hb
        exact hr a ha
    obtain ⟨u, hu, hrows⟩ := ih (t.add r hadd) hrs hfresh'
    refine ⟨u, ?_, ?_⟩
    · rw [insertAll, dif_pos hadd, hu]
    · rw [hrows, rows_add, List.append_assoc]
      rfl

end Table

end Relational
