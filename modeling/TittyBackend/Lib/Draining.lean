import TittyBackend.Lib.Interleaving

/-!
# Running one program to its end

A program tree has an end along every answer. If the world lets a program through at each of its
commands, a scheduler that takes no other step brings it there, and nobody else has moved.
-/

namespace Programs.System

variable {C : Type} {Ans : C → Type} {Op R W Ch : Type} {S : System C Ans Op R W Ch}
  {P : S.State → Action Op Ch → Prop} {J : S.State → Prop} {i : ℕ}

/-- From every state with `J`, program number `i` can go on, and `J` holds again after its
commands. -/
structure Drives (P : S.State → Action Op Ch → Prop) (i : ℕ) (J : S.State → Prop) : Prop where
  step : ∀ s op past c k, J s → s.threads[i]? = some ⟨op, past, .call c k, true⟩ →
    ∃ ch, S.enabled i c ch s.world = true ∧ P s (.step i ch) ∧
      ∀ s', s.next (.step i ch) = some s' → J s'
  respond : ∀ s op past r, J s → s.threads[i]? = some ⟨op, past, .ret r, true⟩ → P s (.respond i)

/-- A program that is let through comes to its end. -/
theorem Drives.toEnd (h : Drives P i J) {s : S.State} {op : Op} {past : Past C Ans}
    {p : Prog C Ans R} (hJ : J s) (ht : s.threads[i]? = some ⟨op, past, p, true⟩) :
    ∃ s₁ s' past r, Reach P s s₁ ∧ J s₁ ∧ s₁.threads[i]? = some ⟨op, past, .ret r, true⟩ ∧
      P s₁ (.respond i) ∧ s₁.next (.respond i) = some s' ∧
        s'.threads = s.threads.set i ⟨op, past, .ret r, false⟩ := by
  induction p generalizing s past with
  | ret r =>
    have hnext : s.next (.respond i) = some
        ⟨s.world, s.threads.set i ⟨op, past, .ret r, false⟩, .respond i r :: s.log⟩ := by
      simp only [State.next, ht]
    exact ⟨s, _, past, r, .refl, hJ, ht, h.respond s op past r hJ ht, hnext, rfl⟩
  | call c k ih =>
    obtain ⟨ch, hen, hP, hnextJ⟩ := h.step s op past c k hJ ht
    have hnext : s.next (.step i ch) = some
        ⟨(S.exec i c ch s.world).2,
          s.threads.set i ⟨op, ⟨c, (S.exec i c ch s.world).1⟩ :: past,
            k (S.exec i c ch s.world).1, true⟩,
          .exec i ⟨c, (S.exec i c ch s.world).1⟩ :: s.log⟩ := by
      simp only [State.next, ht, hen, if_true]
    have hi : i < s.threads.length := (List.getElem?_eq_some_iff.mp ht).1
    obtain ⟨s₁, s', past', r, hr, hJ₁, ht₁, hP₁, hn₁, hs'⟩ :=
      ih (S.exec i c ch s.world).1 (hnextJ _ hnext) (List.getElem?_set_self hi)
    refine ⟨s₁, s', past', r, (Reach.refl.step hP hnext).trans hr, hJ₁, ht₁, hP₁, hn₁, ?_⟩
    rw [hs', List.set_set]

end Programs.System
