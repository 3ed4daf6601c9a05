import Mathlib.Algebra.Order.Monoid.Defs
import Mathlib.Data.List.Basic
import Mathlib.Tactic.Basic

/-!
# Fixed windows

A limiter that accepts at most `limit` calls in a window. A window begins at the first call, and
a new one at the first call at least `window` after the beginning of the one before. Such a
limiter accepts at most twice its limit in any interval as long as a window.

Every list of calls is latest first.
-/

namespace FixedWindow

/-! ### Accepted calls -/

section Accepted

variable {T : Type*} [LinearOrder T]

/-- How many calls were accepted in `[a, b)`. -/
def accepted (a b : T) (h : List (T × Bool)) : ℕ :=
  h.countP fun e => e.2 ∧ a ≤ e.1 ∧ e.1 < b

/-- How many calls were accepted from `a` on. -/
def acceptedSince (a : T) (h : List (T × Bool)) : ℕ := h.countP fun e => e.2 ∧ a ≤ e.1

@[simp] lemma acceptedSince_nil (a : T) : acceptedSince a [] = 0 := rfl

lemma acceptedSince_cons (a t : T) (b : Bool) (h : List (T × Bool)) :
    acceptedSince a ((t, b) :: h) = acceptedSince a h + if b ∧ a ≤ t then 1 else 0 := by
  simp [acceptedSince, List.countP_cons]

lemma accepted_cons (a b t : T) (x : Bool) (h : List (T × Bool)) :
    accepted a b ((t, x) :: h) = accepted a b h + if x ∧ a ≤ t ∧ t < b then 1 else 0 := by
  simp [accepted, List.countP_cons]

lemma acceptedSince_anti {a b : T} (h : List (T × Bool)) (hab : a ≤ b) :
    acceptedSince b h ≤ acceptedSince a h := by
  refine List.countP_mono_left fun e _ he => ?_
  simp only [decide_eq_true_eq] at he ⊢
  exact ⟨he.1, hab.trans he.2⟩

lemma accepted_le_since (a b : T) (h : List (T × Bool)) : accepted a b h ≤ acceptedSince a h := by
  refine List.countP_mono_left fun e _ he => ?_
  simp only [decide_eq_true_eq] at he ⊢
  exact ⟨he.1, he.2.1⟩

/-- No call at or after an instant that all of them came before. -/
lemma acceptedSince_eq_zero {a : T} {h : List (T × Bool)} (hlt : ∀ e ∈ h, e.1 < a) :
    acceptedSince a h = 0 := by
  rw [acceptedSince, List.countP_eq_zero]
  intro e he
  simp only [decide_eq_true_eq, not_and, not_le]
  exact fun _ => hlt e he

lemma acceptedSince_le_add (a s : T) (h : List (T × Bool)) :
    acceptedSince a h ≤ accepted a s h + acceptedSince s h := by
  induction h with
  | nil => simp [acceptedSince, accepted]
  | cons e h ih =>
    obtain ⟨t, x⟩ := e
    rw [acceptedSince_cons, acceptedSince_cons, accepted_cons]
    rcases lt_or_ge t s with hts | hts
    · simp only [hts, and_true, not_le.2 hts, and_false, if_false]
      omega
    · have : (if x ∧ a ≤ t then 1 else 0) ≤ (if x ∧ s ≤ t then 1 else 0) := by
        split_ifs <;> simp_all
      omega

end Accepted

/-! ### Windows -/

variable {T : Type*} [AddCommMonoid T] [LinearOrder T]

/-- The beginning of the window of a call at `t`, after calls at `ts`. -/
def opened (window t : T) : List T → T
  | [] => t
  | u :: us => if opened window u us + window ≤ t then t else opened window u us

/-- Every call was accepted exactly when fewer than `limit` had been in its window. -/
def Exact (limit : ℕ) (window : T) : List (T × Bool) → Prop
  | [] => True
  | (t, b) :: h =>
    (b = true ↔ acceptedSince (opened window t (h.map Prod.fst)) h < limit) ∧ Exact limit window h

@[simp] lemma opened_nil (window t : T) : opened window t [] = t := rfl

lemma opened_cons_of_le {window t u : T} {us : List T} (h : opened window u us + window ≤ t) :
    opened window t (u :: us) = t := if_pos h

lemma opened_cons_of_lt {window t u : T} {us : List T} (h : t < opened window u us + window) :
    opened window t (u :: us) = opened window u us := if_neg (not_le.2 h)

variable {limit : ℕ} {window : T}

lemma opened_le : ∀ {t : T} {ts : List T}, (t :: ts).Pairwise (· ≥ ·) → opened window t ts ≤ t
  | t, [], _ => le_rfl
  | t, u :: us, h => by
    obtain ⟨hu, hus⟩ := List.pairwise_cons.1 h
    rw [opened]
    split_ifs
    · exact le_rfl
    · exact (opened_le hus).trans (hu u List.mem_cons_self)

/-! ### Any interval -/

/-- What is known of a history whose latest window began at `s`. -/
structure Bounded (limit : ℕ) (window : T) (h : List (T × Bool)) (s : T) : Prop where
  current : acceptedSince s h ≤ limit
  /-- An interval that reaches into the window meets one earlier window at most. -/
  previous : ∀ a, s < a + window → accepted a s h ≤ limit
  sliding : ∀ a, accepted a (a + window) h ≤ 2 * limit

/-- One more call keeps the bounds when they hold of its window. -/
lemma Bounded.call {h : List (T × Bool)} {s t : T} {b : Bool}
    (hst : s ≤ t) (hcurrent : acceptedSince s ((t, b) :: h) ≤ limit)
    (hprevious : ∀ a, s < a + window → accepted a s h ≤ limit)
    (hsliding : ∀ a, accepted a (a + window) h ≤ 2 * limit) :
    Bounded limit window ((t, b) :: h) s := by
  have hprev : ∀ a, s < a + window → accepted a s ((t, b) :: h) ≤ limit := by
    intro a ha
    rw [accepted_cons, if_neg fun hc => (not_lt.2 hst) hc.2.2]
    exact hprevious a ha
  refine ⟨hcurrent, hprev, fun a => ?_⟩
  rcases lt_or_ge t (a + window) with hin | hout
  · have hle := accepted_le_since a (a + window) ((t, b) :: h)
    have := acceptedSince_le_add a s ((t, b) :: h)
    have := hprev a (hst.trans_lt hin)
    omega
  · rw [accepted_cons, if_neg fun hc => (not_lt.2 hout) hc.2.2]
    exact hsliding a

variable [IsOrderedCancelAddMonoid T]

/-- A call lies in its own window. -/
lemma lt_opened_add (hpos : 0 < window) (t : T) (ts : List T) :
    t < opened window t ts + window := by
  cases ts with
  | nil => exact lt_add_of_pos_right t hpos
  | cons u us =>
    rw [opened]
    split_ifs with hnew
    · exact lt_add_of_pos_right t hpos
    · exact not_le.1 hnew

/-- No call lies behind the window of the latest one. -/
lemma lt_of_mem (hpos : 0 < window) {t : T} {ts : List T} (h : (t :: ts).Pairwise (· ≥ ·)) :
    ∀ u ∈ t :: ts, u < opened window t ts + window := by
  have hlast := lt_opened_add hpos t ts
  intro u hu
  rcases List.mem_cons.1 hu with rfl | hu
  · exact hlast
  · exact ((List.pairwise_cons.1 h).1 u hu).trans_lt hlast

lemma Exact.bounded (hpos : 0 < window) : ∀ {t : T} {b : Bool} {h : List (T × Bool)},
    Exact limit window ((t, b) :: h) → (t :: h.map Prod.fst).Pairwise (· ≥ ·) →
      Bounded limit window ((t, b) :: h) (opened window t (h.map Prod.fst))
  | t, b, [], hex, _ => by
    refine Bounded.call le_rfl ?_ (fun _ _ => Nat.zero_le _) (fun _ => Nat.zero_le _)
    have := hex.1
    cases b
    · simp [acceptedSince_cons]
    · simp_all [acceptedSince_cons, Nat.one_le_iff_ne_zero, Nat.pos_iff_ne_zero]
  | t, b, (u, c) :: h, hex, hclock => by
    obtain ⟨hlast, hbefore⟩ := hex
    obtain ⟨-, hsorted⟩ := List.pairwise_cons.1 hclock
    have ih := Exact.bounded hpos hbefore hsorted
    have hcurrent :
        acceptedSince (opened window t (u :: h.map Prod.fst)) ((u, c) :: h) ≤ limit := by
      rw [opened]
      split_ifs with hnew
      · rw [acceptedSince_eq_zero]
        · exact Nat.zero_le _
        · intro e he
          exact (lt_of_mem hpos hsorted e.1 (List.mem_map_of_mem he)).trans_le hnew
      · exact ih.current
    refine Bounded.call (opened_le hclock) ?_ ?_ ih.sliding
    · rw [acceptedSince_cons]
      cases b with
      | false => simpa using hcurrent
      | true =>
        rw [if_pos ⟨rfl, opened_le hclock⟩]
        exact hlast.1 rfl
    · intro a ha
      rw [List.map_cons] at ha ⊢
      rcases le_or_gt (opened window u (h.map Prod.fst) + window) t with hnew | hold
      · -- a new window: the interval starts after the beginning of the one before
        rw [opened_cons_of_le hnew] at ha ⊢
        have hlt : opened window u (h.map Prod.fst) < a :=
          lt_of_add_lt_add_right (hnew.trans_lt ha)
        exact (accepted_le_since a t _).trans ((acceptedSince_anti _ hlt.le).trans ih.current)
      · rw [opened_cons_of_lt hold] at ha ⊢
        exact ih.previous a ha

/-- At most twice the limit in any interval as long as a window. -/
theorem Exact.sliding (hpos : 0 < window) {h : List (T × Bool)} (hex : Exact limit window h)
    (hclock : (h.map Prod.fst).Pairwise (· ≥ ·)) (a : T) :
    accepted a (a + window) h ≤ 2 * limit := by
  cases h with
  | nil => exact Nat.zero_le _
  | cons e h => exact (hex.bounded hpos hclock).sliding a

end FixedWindow
