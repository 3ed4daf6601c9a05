import Mathlib.Data.List.Forall2
import Mathlib.Data.List.Nodup

/-!
# Names drawn by two runs

Two runs of one program draw fresh names in step. A name of the first is matched with one of the
second if they were drawn together, or if they are the same and neither run ever draws it. The
pairs so far are a list, and all names that either run draws are another.
-/

namespace Matchings

variable {α τ : Type} {F : List α} {l l' : List (α × α)}

/-- Each run draws a name once. -/
structure Matching (F : List α) (l : List (α × α)) : Prop where
  left : (l.map Prod.fst).Nodup
  right : (l.map Prod.snd).Nodup
  drawn : ∀ p ∈ l, p.1 ∈ F ∧ p.2 ∈ F

lemma Matching.nil : Matching F [] := ⟨List.nodup_nil, List.nodup_nil, by simp⟩

lemma Matching.cons (h : Matching F l) {u v : α} (hu : u ∉ l.map Prod.fst)
    (hv : v ∉ l.map Prod.snd) (huF : u ∈ F) (hvF : v ∈ F) : Matching F ((u, v) :: l) where
  left := List.nodup_cons.mpr ⟨hu, h.left⟩
  right := List.nodup_cons.mpr ⟨hv, h.right⟩
  drawn p hp := by
    rcases List.mem_cons.mp hp with rfl | hp
    · exact ⟨huF, hvF⟩
    · exact h.drawn p hp

/-! ### Names -/

/-- The name `u` of the first run is `v` in the second. -/
def Matched (F : List α) (l : List (α × α)) (u v : α) : Prop := (u, v) ∈ l ∨ (u = v ∧ u ∉ F)

lemma Matched.refl {u : α} (h : u ∉ F) : Matched F l u u := .inr ⟨rfl, h⟩

lemma Matched.mono {u v : α} (h : Matched F l u v) (hl : l ⊆ l') : Matched F l' u v :=
  h.imp (fun h => hl h) id

/-- Names are matched one to one. -/
lemma Matched.eq_iff (hl : Matching F l) {u v u' v' : α} (h : Matched F l u v)
    (h' : Matched F l u' v') : u = u' ↔ v = v' := by
  rcases h with h | ⟨rfl, hF⟩
  · rcases h' with h' | ⟨rfl, hF⟩
    · constructor
      · rintro rfl
        exact congrArg Prod.snd (List.inj_on_of_nodup_map hl.left h h' rfl)
      · rintro rfl
        exact congrArg Prod.fst (List.inj_on_of_nodup_map hl.right h h' rfl)
    · constructor
      · rintro rfl
        exact absurd (hl.drawn _ h).1 hF
      · rintro rfl
        exact absurd (hl.drawn _ h).2 hF
  · rcases h' with h' | ⟨rfl, -⟩
    · constructor
      · rintro rfl
        exact absurd (hl.drawn _ h').1 hF
      · rintro rfl
        exact absurd (hl.drawn _ h').2 hF
    · exact Iff.rfl

/-! ### Texts of names -/

section texts

variable {print : α → τ} {scan : τ → Option α} {x y x' y' : τ}

/-- The texts are those of names drawn together, or the same and of none that is drawn. -/
def TextMatched (print : α → τ) (scan : τ → Option α) (F : List α) (l : List (α × α)) (x y : τ) :
    Prop :=
  (∃ p ∈ l, x = print p.1 ∧ y = print p.2) ∨ (x = y ∧ ∀ u, scan x = some u → u ∉ F)

lemma TextMatched.mono (h : TextMatched print scan F l x y) (hl : l ⊆ l') :
    TextMatched print scan F l' x y :=
  h.imp (fun ⟨p, hp, hxy⟩ => ⟨p, hl hp, hxy⟩) id

variable (hscan : ∀ u, scan (print u) = some u)
include hscan

lemma Matched.text {u v : α} (h : Matched F l u v) :
    TextMatched print scan F l (print u) (print v) := by
  rcases h with h | ⟨rfl, hF⟩
  · exact .inl ⟨(u, v), h, rfl, rfl⟩
  · refine .inr ⟨rfl, fun u' hu' => ?_⟩
    rw [hscan] at hu'
    exact Option.some.inj hu' ▸ hF

/-- Matched texts parse as matched names. -/
lemma TextMatched.parse (h : TextMatched print scan F l x y) :
    Option.Rel (Matched F l) (scan x) (scan y) := by
  rcases h with ⟨p, hp, rfl, rfl⟩ | ⟨rfl, hF⟩
  · rw [hscan, hscan]
    exact .some (.inl hp)
  · cases hx : scan x with
    | none => exact .none
    | some u => exact .some (.refl (hF u hx))

lemma TextMatched.eq_iff (hl : Matching F l) (h : TextMatched print scan F l x y)
    (h' : TextMatched print scan F l x' y') : x = x' ↔ y = y' := by
  have hinj {u v : α} : print u = print v ↔ u = v :=
    ⟨fun h => Option.some.inj ((hscan u).symm.trans ((congrArg scan h).trans (hscan v))),
      congrArg print⟩
  rcases h with ⟨p, hp, rfl, rfl⟩ | ⟨rfl, hF⟩
  · rcases h' with ⟨p', hp', rfl, rfl⟩ | ⟨rfl, hF⟩
    · rw [hinj, hinj]
      exact Matched.eq_iff hl (.inl hp) (.inl hp')
    · constructor
      · rintro rfl
        exact absurd (hl.drawn p hp).1 (hF _ (hscan _))
      · rintro rfl
        exact absurd (hl.drawn p hp).2 (hF _ (hscan _))
  · rcases h' with ⟨p', hp', rfl, rfl⟩ | ⟨rfl, -⟩
    · constructor
      · rintro rfl
        exact absurd (hl.drawn p' hp').1 (hF _ (hscan _))
      · rintro rfl
        exact absurd (hl.drawn p' hp').2 (hF _ (hscan _))
    · exact Iff.rfl

end texts

/-! ### Searches in matched lists -/

section search

variable {β γ : Type} {R : β → γ → Prop} {xs : List β} {ys : List γ} {p : β → Bool} {q : γ → Bool}

lemma find?_rel (hpq : ∀ a b, R a b → p a = q b) (h : List.Forall₂ R xs ys) :
    Option.Rel R (xs.find? p) (ys.find? q) := by
  induction h with
  | nil => exact .none
  | @cons a b xs ys hab _ ih =>
    rw [List.find?_cons, List.find?_cons, ← hpq a b hab]
    cases p a with
    | true => exact .some hab
    | false => exact ih

lemma filter_rel (hpq : ∀ a b, R a b → p a = q b) (h : List.Forall₂ R xs ys) :
    List.Forall₂ R (xs.filter p) (ys.filter q) :=
  List.rel_filter (fun a b hab => iff_of_eq (congrArg (· = true) (hpq a b hab))) h

lemma countP_rel (hpq : ∀ a b, R a b → p a = q b) (h : List.Forall₂ R xs ys) :
    xs.countP p = ys.countP q := by
  rw [List.countP_eq_length_filter, List.countP_eq_length_filter, (filter_rel hpq h).length_eq]

end search

end Matchings
