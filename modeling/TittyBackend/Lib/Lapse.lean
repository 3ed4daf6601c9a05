import Mathlib.Data.List.Basic

/-!
# Tables that sweep what has lapsed

A table keeps its rows until a sweep takes those that have lapsed; a ledger keeps every entry. The
table shows the ledger while the live rows are the records of the live entries, in order.
-/

namespace Lapses

variable {ρ ε : Type} {rep : ε → ρ} {p p' : ρ → Bool} {q q' : ε → Bool} {rows : List ρ}
  {entries : List ε}

/-- The rows that satisfy `p` are the records of the entries that satisfy `q`. -/
def Shows (rep : ε → ρ) (p : ρ → Bool) (q : ε → Bool) (rows : List ρ) (entries : List ε) : Prop :=
  rows.filter p = (entries.filter q).map rep

lemma Shows.nil : Shows rep p q [] [] := rfl

lemma Shows.mem_iff (h : Shows rep p q rows entries) {r : ρ} :
    r ∈ rows ∧ p r = true ↔ ∃ e ∈ entries, q e = true ∧ rep e = r := by
  rw [← List.mem_filter, h, List.mem_map]
  simp only [List.mem_filter, and_assoc]

/-- Less is live. -/
lemma Shows.later (h : Shows rep p q rows entries) (hp : ∀ r ∈ rows, p' r = true → p r = true)
    (hq : ∀ e ∈ entries, q' e = true → q e = true)
    (hrep : ∀ e ∈ entries, q e = true → p' (rep e) = q' e) : Shows rep p' q' rows entries := by
  have hrows : rows.filter p' = (rows.filter p).filter p' := by
    rw [List.filter_filter]
    refine List.filter_congr fun r hr => ?_
    cases hr' : p' r with
    | false => rfl
    | true => simp [hp r hr hr']
  have hentries : (entries.filter q).filter (p' ∘ rep) = entries.filter q' := by
    rw [List.filter_filter]
    refine List.filter_congr fun e he => ?_
    cases hlive : q e with
    | false =>
      cases he' : q' e with
      | false => simp
      | true => exact absurd (hq e he he') (by simp [hlive])
    | true => simp [hrep e he hlive]
  rw [Shows, hrows, h, List.filter_map, hentries]

/-- A sweep leaves what is live. -/
lemma Shows.sweep (h : Shows rep p q rows entries) {k : ρ → Bool}
    (hk : ∀ r ∈ rows, p r = true → k r = true) : Shows rep p q (rows.filter k) entries := by
  rw [Shows, ← h, List.filter_filter]
  refine List.filter_congr fun r hr => ?_
  cases hr' : p r with
  | false => rfl
  | true => simp [hk r hr hr']

lemma Shows.insert (h : Shows rep p q rows entries) {e : ε} (he : p (rep e) = q e) :
    Shows rep p q (rows ++ [rep e]) (entries ++ [e]) := by
  rw [Shows, List.filter_append, List.filter_append, List.map_append, h]
  cases hq : q e <;> simp [he, hq]

/-- The same deletion on both sides, as far as it is one of live entries. -/
lemma Shows.drop (h : Shows rep p q rows entries) {k : ρ → Bool} {l : ε → Bool}
    (hk : ∀ e ∈ entries, q e = true → k (rep e) = l e) :
    Shows rep p q (rows.filter k) (entries.filter l) := by
  have hcomm : (rows.filter k).filter p = (rows.filter p).filter k := by
    simp only [List.filter_filter, Bool.and_comm]
  have hcomm' : (entries.filter l).filter q = (entries.filter q).filter (k ∘ rep) := by
    simp only [List.filter_filter]
    refine List.filter_congr fun e he => ?_
    cases hq : q e with
    | false => simp
    | true => simp [hk e he hq]
  rw [Shows, hcomm, h, hcomm', List.filter_map]

/-- The same change on both sides, which revives nothing. -/
lemma Shows.change (h : Shows rep p q rows entries) {f : ρ → ρ} {g : ε → ε}
    (hp : ∀ r ∈ rows, p (f r) = true → p r = true)
    (hq : ∀ e ∈ entries, q (g e) = true → q e = true)
    (hrep : ∀ e ∈ entries, q e = true → f (rep e) = rep (g e) ∧ p (rep (g e)) = q (g e)) :
    Shows rep p q (rows.map f) (entries.map g) := by
  have hlater : Shows rep (p ∘ f) (q ∘ g) rows entries := by
    refine h.later hp hq fun e he hlive => ?_
    obtain ⟨hf, hpq⟩ := hrep e he hlive
    rw [Function.comp_apply, hf, hpq, Function.comp_apply]
  rw [Shows, List.filter_map, List.filter_map, hlater, List.map_map, List.map_map]
  refine List.map_congr_left fun e he => ?_
  obtain ⟨hmem, hlive⟩ := List.mem_filter.mp he
  exact (hrep e hmem (hq e hmem hlive)).1

/-- Live rows are counted as the entries are. -/
lemma Shows.countP_eq (h : Shows rep p q rows entries) {c : ρ → Bool} {d : ε → Bool}
    (hc : ∀ e ∈ entries, c (rep e) = d e) :
    rows.countP (fun r => c r && p r) = (entries.filter q).countP d := by
  rw [← List.countP_filter, h, List.countP_map]
  refine List.countP_congr fun e he => ?_
  rw [Function.comp_apply, hc e (List.mem_of_mem_filter he)]

end Lapses
