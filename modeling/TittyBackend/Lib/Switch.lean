import Mathlib.Data.List.Basic
import Mathlib.Tactic.Common

/-!
# Switches

Events turn a switch on or off, or leave it alone. Turning on what is on changes nothing. A
history lists its events, the latest first.
-/

namespace Switches

variable {ε τ : Type*}

/-- What an event does to the switch. -/
inductive Move (τ : Type*) where
  | keep
  | on (t : τ)
  | off

variable (f : ε → Move τ)

/-- Since when the switch has been on, if it is. -/
def since : List ε → Option τ
  | [] => none
  | e :: es =>
    match f e with
    | .keep => since es
    | .on t => (since es).or (some t)
    | .off => none

/-- The last event that concerned the switch turned it on. -/
def LastOn (es : List ε) : Prop :=
  ∃ later e t earlier, es = later ++ e :: earlier ∧ f e = .on t ∧ ∀ e' ∈ later, f e' = .keep

/-- `t` belongs to the first event that turned the switch on since it was last turned off. -/
def OnSince (es : List ε) (t : τ) : Prop :=
  ∃ later e earlier, es = later ++ e :: earlier ∧ f e = .on t ∧ (∀ e' ∈ later, f e' ≠ .off) ∧
    ∀ mid e' t' rest, earlier = mid ++ e' :: rest → f e' = .on t' → ∃ u ∈ mid, f u = .off

variable {f} {e : ε} {es : List ε} {t : τ}

lemma since_keep (h : f e = .keep) : since f (e :: es) = since f es := by
  rw [since, h]

lemma since_on (h : f e = .on t) : since f (e :: es) = (since f es).or (some t) := by
  rw [since, h]

lemma since_off (h : f e = .off) : since f (e :: es) = none := by
  rw [since, h]

/-- The switch is off when each event that turned it on was followed by one that turned it off. -/
lemma since_eq_none_iff : since f es = none ↔
    ∀ later e t earlier, es = later ++ e :: earlier → f e = .on t → ∃ u ∈ later, f u = .off := by
  induction es with
  | nil => simp [since]
  | cons a es ih =>
    constructor
    · intro h later e t earlier hes hon
      cases later with
      | nil =>
        obtain ⟨rfl, rfl⟩ := List.cons.inj hes
        rw [since_on hon] at h
        cases hs : since f es <;> simp [hs] at h
      | cons b later =>
        obtain ⟨rfl, rfl⟩ := List.cons.inj hes
        cases ha : f a with
        | off => exact ⟨a, List.mem_cons_self, ha⟩
        | keep =>
          rw [since_keep ha] at h
          obtain ⟨u, hu, hoff⟩ := ih.1 h later e t earlier rfl hon
          exact ⟨u, List.mem_cons_of_mem _ hu, hoff⟩
        | on t' =>
          rw [since_on ha, Option.or_eq_none_iff] at h
          cases h.2
    · intro h
      cases ha : f a with
      | off => exact since_off ha
      | on t =>
        obtain ⟨u, hu, -⟩ := h [] a t es rfl ha
        cases hu
      | keep =>
        rw [since_keep ha, ih]
        intro later e t earlier hes hon
        obtain ⟨u, hu, hoff⟩ := h (a :: later) e t earlier (by rw [hes]; rfl) hon
        rcases List.mem_cons.1 hu with rfl | hu
        · rw [ha] at hoff
          cases hoff
        · exact ⟨u, hu, hoff⟩

theorem since_eq_some_iff : since f es = some t ↔ OnSince f es t := by
  induction es with
  | nil =>
    constructor
    · intro h
      cases h
    · rintro ⟨later, e, earlier, hes, -⟩
      simp at hes
  | cons a es ih =>
    constructor
    · intro h
      cases ha : f a with
      | off =>
        rw [since_off ha] at h
        cases h
      | keep =>
        rw [since_keep ha, ih] at h
        obtain ⟨later, e, earlier, rfl, hon, hlater, hearlier⟩ := h
        refine ⟨a :: later, e, earlier, rfl, hon, ?_, hearlier⟩
        simpa [ha] using hlater
      | on t' =>
        rw [since_on ha] at h
        cases hs : since f es with
        | none =>
          rw [hs, Option.none_or] at h
          cases h
          exact ⟨[], a, es, rfl, ha, by simp,
            fun mid e' t'' rest => since_eq_none_iff.1 hs mid e' t'' rest⟩
        | some t'' =>
          rw [hs, Option.some_or] at h
          obtain ⟨later, e, earlier, rfl, hon, hlater, hearlier⟩ := ih.1 (hs.trans h)
          refine ⟨a :: later, e, earlier, rfl, hon, ?_, hearlier⟩
          simpa [ha] using hlater
    · rintro ⟨later, e, earlier, hes, hon, hlater, hearlier⟩
      cases later with
      | nil =>
        obtain ⟨rfl, rfl⟩ := List.cons.inj hes
        rw [since_on hon, since_eq_none_iff.2 hearlier, Option.none_or]
      | cons b later =>
        obtain ⟨rfl, rfl⟩ := List.cons.inj hes
        obtain ⟨hoff, hlater⟩ := List.forall_mem_cons.1 hlater
        have h := ih.2 ⟨later, e, earlier, rfl, hon, hlater, hearlier⟩
        cases ha : f a with
        | off => exact absurd ha hoff
        | keep => rw [since_keep ha, h]
        | on t' => rw [since_on ha, h, Option.some_or]

/-- The switch is on when the last event that concerned it turned it on. -/
theorem since_isSome_iff : (∃ t, since f es = some t) ↔ LastOn f es := by
  induction es with
  | nil =>
    constructor
    · rintro ⟨t, h⟩
      cases h
    · rintro ⟨later, e, t, earlier, hes, -⟩
      simp at hes
  | cons a es ih =>
    cases ha : f a with
    | off =>
      constructor
      · rintro ⟨t, h⟩
        rw [since_off ha] at h
        cases h
      · rintro ⟨later, e, t, earlier, hes, hon, hlater⟩
        cases later with
        | nil =>
          obtain ⟨rfl, rfl⟩ := List.cons.inj hes
          rw [ha] at hon
          cases hon
        | cons b later =>
          obtain ⟨rfl, rfl⟩ := List.cons.inj hes
          have hkeep := hlater a List.mem_cons_self
          rw [ha] at hkeep
          cases hkeep
    | on t =>
      constructor
      · intro _
        exact ⟨[], a, t, es, rfl, ha, by simp⟩
      · intro _
        rw [since_on ha]
        cases since f es with
        | none => exact ⟨t, rfl⟩
        | some t' => exact ⟨t', rfl⟩
    | keep =>
      rw [since_keep ha, ih]
      constructor
      · rintro ⟨later, e, t, earlier, rfl, hon, hlater⟩
        exact ⟨a :: later, e, t, earlier, rfl, hon, List.forall_mem_cons.2 ⟨ha, hlater⟩⟩
      · rintro ⟨later, e, t, earlier, hes, hon, hlater⟩
        cases later with
        | nil =>
          obtain ⟨rfl, rfl⟩ := List.cons.inj hes
          rw [ha] at hon
          cases hon
        | cons b later =>
          obtain ⟨rfl, rfl⟩ := List.cons.inj hes
          exact ⟨later, e, t, earlier, rfl, hon,
            fun e' he' => hlater e' (List.mem_cons_of_mem _ he')⟩

end Switches
