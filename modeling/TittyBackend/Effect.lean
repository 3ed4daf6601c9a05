import TittyBackend.Script

/-!
# What a command does to the world

Six things can happen when a command is executed. All invariants of interleaved operations are
proved by cases on them.
-/

namespace TittyBackend

open Numerals Programs Programs.System

abbrev Log := List (Event Command Command.Ans Op Response)

/-- An exchange that leaves the database, the write lock and the drawn UUIDs as they are. -/
def Quiet : Exchange Command Command.Ans → Prop
  | ⟨.execute _, .ok _⟩ | ⟨.executeIn _, .ok _⟩ | ⟨.commit, _⟩ | ⟨.rollback, _⟩
  | ⟨.newUuid, _⟩ => False
  | _ => True

/-- The answer to operation `i` is what the database or the clock says. -/
def Truthful (D : Deployment) (i : ℕ) (ch : Choice) (w : World) :
    Exchange Command Command.Ans → Prop
  | ⟨.select q, .ok a⟩ => a = q.eval D ch.reading w.db
  | ⟨.selectIn q, .ok a⟩ => a = q.eval D ch.reading (w.view i)
  | ⟨.now, t⟩ => t = ch.reading
  | _ => True

inductive Effect (D : Deployment) (i : ℕ) (ch : Choice) (w : World) :
    Exchange Command Command.Ans → World → Prop
  | quiet {e : Exchange Command Command.Ans} (l : RateLimiter) (hq : Quiet e)
      (ht : Truthful D i ch w e) : Effect D i ch w e { w.tick ch with limiter := l }
  | write {u : Write} {n : ℕ} {d : Db} (hu : u.apply D ch.reading w.db = .ok (n, d))
      (hw : w.writer = none) : Effect D i ch w ⟨.execute u, .ok n⟩ { w.tick ch with db := d }
  | hold {u : Write} {n : ℕ} {d : Db} (hu : u.apply D ch.reading (w.view i) = .ok (n, d))
      (hw : ∀ x ∈ w.writer, x.1 = i) :
      Effect D i ch w ⟨.executeIn u, .ok n⟩ { w.tick ch with writer := some (i, d) }
  | settle : Effect D i ch w ⟨.commit, .ok ()⟩ ((w.tick ch).settle i)
  | release {e : Exchange Command Command.Ans}
      (he : e = ⟨.rollback, ()⟩ ∨ ∃ x, e = ⟨.commit, .error x⟩) :
      Effect D i ch w e ((w.tick ch).release i)
  | draw (hu : ∀ x ∈ w.drawn, x.2 ≠ ch.uuid) :
      Effect D i ch w ⟨.newUuid, ch.uuid⟩ { w.tick ch with drawn := (i, ch.uuid) :: w.drawn }

variable {D : Deployment} {i : ℕ} {ch : Choice} {w w' : World}

/-- Every command that the world lets an operation issue has one of the effects. -/
theorem Command.effect (c : Command) (hen : c.enabled i ch w = true) :
    Effect D i ch w ⟨c, (c.exec D i ch w).1⟩ (c.exec D i ch w).2 := by
  simp only [Command.enabled, Bool.and_eq_true, decide_eq_true_eq] at hen
  cases c with
  | select q =>
    by_cases hf : ch.fails = true
    · simp only [exec, if_pos hf]
      exact .quiet w.limiter trivial trivial
    · simp only [exec, if_neg hf]
      exact .quiet w.limiter trivial rfl
  | execute u =>
    by_cases hf : ch.fails = true
    · simp only [exec, if_pos hf]
      exact .quiet w.limiter trivial trivial
    · simp only [hf, Bool.false_or, Option.isNone_iff_eq_none] at hen
      simp only [exec, if_neg hf]
      cases hu : u.apply D ch.reading w.db with
      | error e => exact .quiet w.limiter trivial trivial
      | ok r => exact .write hu hen.2
  | begin =>
    by_cases hf : ch.fails = true
    · simp only [exec, if_pos hf]
      exact .quiet w.limiter trivial trivial
    · simp only [exec, if_neg hf]
      exact .quiet w.limiter trivial trivial
  | selectIn q =>
    by_cases hf : ch.fails = true
    · simp only [exec, if_pos hf]
      exact .quiet w.limiter trivial trivial
    · simp only [exec, if_neg hf]
      exact .quiet w.limiter trivial rfl
  | executeIn u =>
    by_cases hf : ch.fails = true
    · simp only [exec, if_pos hf]
      exact .quiet w.limiter trivial trivial
    · simp only [hf, Bool.false_or, Option.all_eq_true, decide_eq_true_eq] at hen
      simp only [exec, if_neg hf]
      cases hu : u.apply D ch.reading (w.view i) with
      | error e => exact .quiet w.limiter trivial trivial
      | ok r => exact .hold hu hen.2
  | commit =>
    by_cases hf : ch.fails = true
    · simp only [exec, if_pos hf]
      exact .release (.inr ⟨_, rfl⟩)
    · simp only [exec, if_neg hf]
      exact .settle
  | rollback => exact .release (.inl rfl)
  | now => exact .quiet w.limiter trivial rfl
  | newUuid => exact .draw (by simpa using hen.2)
  | fillBytes => exact .quiet w.limiter trivial trivial
  | check key limit window => exact .quiet _ trivial trivial

lemma Command.clock_of_enabled {c : Command} (hen : c.enabled i ch w = true) :
    w.clock ≤ ch.reading := by
  simp only [Command.enabled, Bool.and_eq_true, decide_eq_true_eq] at hen
  exact hen.1.1

/-! ### The world between operations -/

lemma World.view_of_ne {d : Db} {j : ℕ} (h : w.writer = some (j, d)) (hij : j ≠ i) :
    w.view i = w.db := by
  simp [view, h, hij]

lemma World.view_of_writer {d : Db} (h : w.writer = some (i, d)) : w.view i = d := by
  simp [view, h]

lemma World.view_of_none (h : w.writer = none) : w.view i = w.db := by
  simp [view, h]

/-- An operation sees the database, or what it has held of it. -/
lemma World.view_cases (w : World) (i : ℕ) :
    w.view i = w.db ∨ ∃ d, w.writer = some (i, d) ∧ w.view i = d := by
  cases hw : w.writer with
  | none => exact .inl (view_of_none hw)
  | some x =>
    obtain ⟨j, d⟩ := x
    by_cases hij : j = i
    · subst hij
      exact .inr ⟨d, rfl, view_of_writer hw⟩
    · exact .inl (view_of_ne hw hij)

lemma Effect.clock {e : Exchange Command Command.Ans} (h : Effect D i ch w e w') :
    w'.clock = ch.reading := by
  cases h <;> rfl

lemma Effect.truthful {e : Exchange Command Command.Ans} (h : Effect D i ch w e w')
    (hq : Quiet e) : Truthful D i ch w e := by
  cases h with
  | quiet l _ ht => exact ht
  | write | hold | settle | draw => exact hq.elim
  | release he => rcases he with rfl | ⟨x, rfl⟩ <;> exact hq.elim

/-- Only a draw adds to the drawn UUIDs. -/
lemma Effect.drawn {e : Exchange Command Command.Ans} (h : Effect D i ch w e w') :
    (w'.drawn = w.drawn ∧ ∀ u, e ≠ ⟨.newUuid, u⟩) ∨
      e = ⟨.newUuid, ch.uuid⟩ ∧ w'.drawn = (i, ch.uuid) :: w.drawn ∧
        ∀ x ∈ w.drawn, x.2 ≠ ch.uuid := by
  cases h with
  | draw hu => exact .inr ⟨rfl, rfl, hu⟩
  | quiet l hq ht => exact .inl ⟨rfl, fun u hu => by subst hu; exact hq⟩
  | write | hold | settle => exact .inl ⟨rfl, fun u hu => by cases hu⟩
  | release he =>
    refine .inl ⟨rfl, fun u hu => ?_⟩
    rcases he with rfl | ⟨x, rfl⟩ <;> cases hu

/-- The lock is taken by a statement within a transaction and given back at its end. -/
lemma Effect.writer {e : Exchange Command Command.Ans} (h : Effect D i ch w e w') :
    w'.writer = w.writer ∨
      (∃ u n d, e = ⟨.executeIn u, .ok n⟩ ∧ u.apply D ch.reading (w.view i) = .ok (n, d) ∧
        (∀ x ∈ w.writer, x.1 = i) ∧ w'.writer = some (i, d)) ∨
      (e.1 = .commit ∨ e.1 = .rollback) ∧ w'.writer = w.writer.filter fun x => x.1 ≠ i := by
  cases h with
  | quiet | write | draw => exact .inl rfl
  | hold hu hw => exact .inr (.inl ⟨_, _, _, rfl, hu, hw, rfl⟩)
  | settle => exact .inr (.inr ⟨.inl rfl, rfl⟩)
  | release he =>
    refine .inr (.inr ⟨?_, rfl⟩)
    rcases he with rfl | ⟨x, rfl⟩
    · exact .inr rfl
    · exact .inl rfl

/-- The database changes by a write, or by a commit of what was held. -/
lemma Effect.db {e : Exchange Command Command.Ans} (h : Effect D i ch w e w') :
    w'.db = w.db ∨
      (∃ u n, e = ⟨.execute u, .ok n⟩ ∧ u.apply D ch.reading w.db = .ok (n, w'.db) ∧
        w.writer = none ∧ w'.writer = none) ∨
      ∃ d, e = ⟨.commit, .ok ()⟩ ∧ w.writer = some (i, d) ∧ w'.db = d ∧ w'.writer = none := by
  cases h with
  | quiet | hold | release | draw => exact .inl rfl
  | write hu hw => exact .inr (.inl ⟨_, _, rfl, hu, hw, hw⟩)
  | settle =>
    rcases w.view_cases i with hview | ⟨d, hw, hview⟩
    · exact .inl hview
    · refine .inr (.inr ⟨d, rfl, hw, hview, ?_⟩)
      simp [World.settle, World.release, World.tick, hw]

lemma Effect.execute {u : Write} {n : ℕ} (h : Effect D i ch w ⟨.execute u, .ok n⟩ w') :
    u.apply D ch.reading w.db = .ok (n, w'.db) := by
  generalize he : (⟨.execute u, .ok n⟩ : Exchange Command Command.Ans) = e at h
  cases h with
  | quiet l hq =>
    subst he
    exact hq.elim
  | write hu =>
    cases he
    exact hu
  | hold | settle | draw => cases he
  | release he' => rcases he' with rfl | ⟨x, rfl⟩ <;> cases he

lemma Effect.executeIn {u : Write} {n : ℕ} (h : Effect D i ch w ⟨.executeIn u, .ok n⟩ w') :
    u.apply D ch.reading (w.view i) = .ok (n, w'.view i) := by
  generalize he : (⟨.executeIn u, .ok n⟩ : Exchange Command Command.Ans) = e at h
  cases h with
  | quiet l hq =>
    subst he
    exact hq.elim
  | @hold u n d hu =>
    cases he
    have hview : World.view { w.tick ch with writer := some (i, d) } i = d :=
      World.view_of_writer rfl
    rw [hview, hu]
  | write | settle | draw => cases he
  | release he' => rcases he' with rfl | ⟨x, rfl⟩ <;> cases he

lemma Effect.commit (h : Effect D i ch w ⟨.commit, .ok ()⟩ w') : w'.db = w.view i := by
  generalize he : (⟨.commit, .ok ()⟩ : Exchange Command Command.Ans) = e at h
  cases h with
  | quiet l hq =>
    subst he
    exact hq.elim
  | settle => rfl
  | write | hold | draw => cases he
  | release he' => rcases he' with rfl | ⟨x, rfl⟩ <;> cases he

lemma Effect.quiet_same {e : Exchange Command Command.Ans} (h : Effect D i ch w e w')
    (hq : Quiet e) : w'.db = w.db ∧ w'.view i = w.view i := by
  cases h with
  | quiet => exact ⟨rfl, rfl⟩
  | write | hold | settle | draw => exact hq.elim
  | release he => rcases he with rfl | ⟨x, rfl⟩ <;> exact hq.elim

/-! ### Invariants of the service -/

/-- The state of the interleaved service. -/
abbrev Service (D : Deployment) := (service D).State

/-- The principle of `Reach.invariant`, with a command as its effect. -/
theorem service_invariant {P : Service D → Action Op Choice → Prop} {w₀ : World} {s : Service D}
    (h : Reach P ((service D).start w₀) s) (I : World → Log → Prop) (hstart : I w₀ [])
    (hcall : ∀ (s : Service D) i op, Reach P ((service D).start w₀) s → own i s.log = [] →
      I s.world s.log → I s.world (.call i op :: s.log))
    (hexec : ∀ (s : Service D) i op e ch w', Reach P ((service D).start w₀) s →
      .call i op ∈ s.log → Alive i s.log → op.Issues D (own i s.log) e.1 →
      s.world.clock ≤ ch.reading → P s (.step i ch) → Effect D i ch s.world e w' →
      I s.world s.log → I w' (.exec i e :: s.log))
    (hrespond : ∀ (s : Service D) i op r, Reach P ((service D).start w₀) s →
      .call i op ∈ s.log → op.Returns D (own i s.log) r → I s.world s.log →
      I s.world (.respond i r :: s.log))
    (hcrash : ∀ s : Service D, Reach P ((service D).start w₀) s → I s.world s.log →
      I s.world.reset (.crash :: s.log)) : I s.world s.log := by
  refine h.invariant (scripted D) I hstart hcall ?_ hrespond hcrash
  intro s i op c ch hr hc ha hi hen hP ih
  exact hexec s i op ⟨c, _⟩ ch _ hr hc ha hi (Command.clock_of_enabled hen) hP
    (Command.effect c hen) ih

end TittyBackend
