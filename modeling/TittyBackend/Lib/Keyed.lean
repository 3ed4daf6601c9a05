import Mathlib.Data.List.Nodup
import Mathlib.Data.List.Basic

/-!
# Association lists with unique keys

`List.lookup` on a list in which no key comes twice.
-/

namespace Keyed

variable {κ ν : Type*} {l l' : List (κ × ν)} {k : κ} {v : ν}

lemma nodup_filter (hl : (l.map Prod.fst).Nodup) (p : κ × ν → Bool) :
    ((l.filter p).map Prod.fst).Nodup :=
  hl.sublist ((List.filter_sublist).map Prod.fst)

variable [BEq κ] [LawfulBEq κ]

lemma mem_of_lookup (h : l.lookup k = some v) : (k, v) ∈ l := by
  obtain ⟨l₁, l₂, rfl, -⟩ := List.lookup_eq_some_iff.1 h
  simp

lemma lookup_eq_none : l.lookup k = none ↔ k ∉ l.map Prod.fst := by
  rw [List.lookup_eq_none_iff]
  constructor
  · intro h hk
    obtain ⟨e, he, rfl⟩ := List.mem_map.1 hk
    simpa using h e he
  · intro h e he
    rw [bne_iff_ne]
    rintro rfl
    exact h (List.mem_map_of_mem he)

lemma lookup_isSome : (l.lookup k).isSome ↔ k ∈ l.map Prod.fst := by
  rw [Option.isSome_iff_ne_none, ne_eq, lookup_eq_none, not_not]

lemma lookup_of_mem (hl : (l.map Prod.fst).Nodup) (h : (k, v) ∈ l) : l.lookup k = some v := by
  induction l with
  | nil => cases h
  | cons e l ih =>
    obtain ⟨k', v'⟩ := e
    obtain ⟨hk', hl⟩ := List.nodup_cons.1 hl
    rcases List.mem_cons.1 h with heq | h
    · cases heq
      simp
    · have hk : k ∈ l.map Prod.fst := List.mem_map_of_mem h
      have hne : k ≠ k' := ne_of_mem_of_not_mem hk hk'
      rw [List.lookup_cons, beq_false_of_ne hne]
      exact ih hl h

lemma lookup_eq_some (hl : (l.map Prod.fst).Nodup) : l.lookup k = some v ↔ (k, v) ∈ l :=
  ⟨mem_of_lookup, lookup_of_mem hl⟩

lemma lookup_perm (hl : (l.map Prod.fst).Nodup) (h : l.Perm l') : l.lookup k = l'.lookup k := by
  have hl' : (l'.map Prod.fst).Nodup := (h.map Prod.fst).nodup_iff.1 hl
  ext v
  rw [lookup_eq_some hl, lookup_eq_some hl', h.mem_iff]

/-- What a filter leaves of the value of a key. -/
lemma lookup_filter (hl : (l.map Prod.fst).Nodup) (p : κ × ν → Bool) :
    (l.filter p).lookup k = (l.lookup k).filter fun v => p (k, v) := by
  ext v
  rw [lookup_eq_some (nodup_filter hl p), List.mem_filter, Option.filter_eq_some_iff,
    lookup_eq_some hl]

/-- A filter that only looks at the keys. -/
lemma lookup_filter_key (p : κ → Bool) (hk : p k = true) :
    (l.filter fun e => p e.1).lookup k = l.lookup k := by
  induction l with
  | nil => rfl
  | cons e l ih =>
    obtain ⟨k', v'⟩ := e
    rw [List.filter_cons]
    by_cases hk' : p k' = true
    · rw [if_pos hk', List.lookup_cons, List.lookup_cons, ih]
    · have hne : k ≠ k' := by
        rintro rfl
        exact hk' hk
      rw [if_neg hk', ih, List.lookup_cons, beq_false_of_ne hne]

end Keyed
