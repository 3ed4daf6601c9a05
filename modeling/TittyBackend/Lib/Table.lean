import Mathlib.Data.List.Pairwise
import Mathlib.Tactic.Common

/-!
# Tables

A table keeps its rows in the order of their insertion, and no two of them clash: `clash` says
that two rows share a key. A row is added only where it clashes with none.
-/

namespace Relational

structure Table (ρ : Type) (clash : ρ → ρ → Prop) where
  rows : List ρ
  distinct : rows.Pairwise fun a b => ¬ clash a b

namespace Table

variable {ρ : Type} {clash : ρ → ρ → Prop}

@[ext] lemma ext {t u : Table ρ clash} (h : t.rows = u.rows) : t = u := by
  cases t
  cases u
  congr

def empty : Table ρ clash := ⟨[], .nil⟩

@[simp] lemma rows_empty : (empty : Table ρ clash).rows = [] := rfl

/-- `r` clashes with no row of the table. -/
def Fresh (t : Table ρ clash) (r : ρ) : Prop := ∀ a ∈ t.rows, ¬ clash a r

lemma fresh_empty (r : ρ) : (empty : Table ρ clash).Fresh r := by
  intro a ha
  cases ha

instance [DecidableRel clash] (t : Table ρ clash) (r : ρ) : Decidable (t.Fresh r) :=
  inferInstanceAs (Decidable (∀ a ∈ t.rows, ¬ clash a r))

def add (t : Table ρ clash) (r : ρ) (h : t.Fresh r) : Table ρ clash where
  rows := t.rows ++ [r]
  distinct := List.pairwise_append.mpr ⟨t.distinct, List.pairwise_singleton _ _,
    fun a ha _ hb => List.mem_singleton.mp hb ▸ h a ha⟩

@[simp] lemma rows_add (t : Table ρ clash) (r : ρ) (h : t.Fresh r) :
    (t.add r h).rows = t.rows ++ [r] := rfl

def delete (t : Table ρ clash) (p : ρ → Bool) : Table ρ clash where
  rows := t.rows.filter fun r => !p r
  distinct := t.distinct.filter _

@[simp] lemma rows_delete (t : Table ρ clash) (p : ρ → Bool) :
    (t.delete p).rows = t.rows.filter fun r => !p r := rfl

/-- Rewrite the rows that satisfy `p`, leaving their keys as they are. -/
def update (t : Table ρ clash) (p : ρ → Bool) (f : ρ → ρ)
    (hf : ∀ a b, (clash (f a) b ↔ clash a b) ∧ (clash a (f b) ↔ clash a b)) : Table ρ clash where
  rows := t.rows.map fun r => if p r then f r else r
  distinct := List.pairwise_map.mpr <| t.distinct.imp fun {a b} h => by
    have ha := hf a b
    have hb := hf (f a) b
    split_ifs <;> simp_all

@[simp] lemma rows_update (t : Table ρ clash) (p : ρ → Bool) (f : ρ → ρ)
    (hf : ∀ a b, (clash (f a) b ↔ clash a b) ∧ (clash a (f b) ↔ clash a b)) :
    (t.update p f hf).rows = t.rows.map fun r => if p r then f r else r := rfl

variable [Std.Symm clash]

/-- Two rows that share a key are one row. -/
lemma eq_of_clash (t : Table ρ clash) {a b : ρ} (ha : a ∈ t.rows) (hb : b ∈ t.rows)
    (h : clash a b) : a = b := by
  by_contra hab
  have hsymm : Std.Symm fun a b => ¬ clash a b := ⟨fun _ _ h hba => h (symm hba)⟩
  exact t.distinct.forall ha hb hab h

/-- A lookup that only rows with the keys of `a` answer finds `a`. -/
lemma find?_eq_some (t : Table ρ clash) {a : ρ} {p : ρ → Bool} (ha : a ∈ t.rows)
    (hpa : p a = true) (hp : ∀ b, p b = true → clash b a) : t.rows.find? p = some a := by
  obtain ⟨b, hb⟩ := Option.isSome_iff_exists.mp (List.find?_isSome.mpr ⟨a, ha, hpa⟩)
  rw [hb, t.eq_of_clash (List.mem_of_find?_eq_some hb) ha (hp b (List.find?_some hb))]

/-- Just one row satisfies a condition that `a` satisfies and only rows with its keys do. -/
lemma countP_eq_one (t : Table ρ clash) {a : ρ} {p : ρ → Bool} (ha : a ∈ t.rows)
    (hpa : p a = true) (hp : ∀ b, p b = true → clash b a) : t.rows.countP p = 1 := by
  have hpos : 0 < t.rows.countP p := List.countP_pos_iff.mpr ⟨a, ha, hpa⟩
  have heq : ∀ b ∈ t.rows.filter p, b = a := fun b hb =>
    t.eq_of_clash (List.mem_filter.mp hb).1 ha (hp b (List.mem_filter.mp hb).2)
  have hd := t.distinct.filter p
  rw [List.countP_eq_length_filter] at hpos ⊢
  match t.rows.filter p, hd, heq, hpos with
  | [_], _, _, _ => rfl
  | b :: c :: l, hd, heq, _ =>
    obtain rfl := heq b (by simp)
    obtain rfl := heq c (by simp)
    exact absurd (hp _ hpa) ((List.pairwise_cons.mp hd).1 _ (by simp))

end Table

end Relational
