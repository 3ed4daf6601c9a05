import TittyBackend.Lib.Interleaving

/-!
# Operations that take effect at one instant

Some operations of a system act on an abstract object. Each takes effect at the step that leads it
to its answer, and nothing else changes the object. In the order in which they take effect the
answers are those of the object alone, one operation after the other, and this order keeps the
order of operations that do not overlap.
-/

open scoped List

namespace Programs

variable {C : Type} {Ans : C → Type} {Op R W Ch σ : Type}

/-- Operation number `i` takes effect, and is to answer `r`. -/
structure Taken (Op R : Type) where
  i : ℕ
  op : Op
  r : R

/-- One after the other, the latest first, operations take the object from `a₀` to a state.
`legal op r a a'` says that `op` may answer `r` in `a` and leave `a'`. -/
inductive Replays (legal : Op → R → σ → σ → Prop) (a₀ : σ) : List (Taken Op R) → σ → Prop
  | nil : Replays legal a₀ [] a₀
  | cons {l : List (Taken Op R)} {x : Taken Op R} {a a' : σ} (h : Replays legal a₀ l a)
      (hx : legal x.op x.r a a') : Replays legal a₀ (x :: l) a'

/-- The order `l`, the latest first, explains what a history shows of the operations on the object:
it has every one that has answered, with its answer, and no two that do not overlap the other way
around. -/
structure Linearizes (sel : Op → Prop) (h : List (Seen Op R)) (l : List (Taken Op R)) : Prop where
  called : ∀ x ∈ l, .call x.i x.op ∈ h ∧ sel x.op
  once : l.Pairwise fun x y => x.i ≠ y.i
  answered : ∀ i op r, .call i op ∈ h → sel op → .respond i r ∈ h → ⟨i, op, r⟩ ∈ l
  ordered : ∀ x ∈ l, ∀ y ∈ l, [.call y.i y.op, .respond x.i x.r] <+ h → [y, x] <+ l

/-- The history is one of an object that starts in `a₀`. -/
def Linearizable (sel : Op → Prop) (legal : Op → R → σ → σ → Prop) (a₀ : σ)
    (h : List (Seen Op R)) : Prop :=
  ∃ l a, Linearizes sel h l ∧ Replays legal a₀ l a

/-- Of two elements in order the first is the head, or both come later. -/
lemma pair_sublist_cons {α : Type} {a b c : α} {l : List α} :
    [a, b] <+ c :: l ↔ [a, b] <+ l ∨ a = c ∧ b ∈ l := by
  rw [List.sublist_cons_iff]
  refine or_congr_right ⟨?_, ?_⟩
  · rintro ⟨r, hr, hsub⟩
    cases hr
    exact ⟨rfl, List.singleton_sublist.mp hsub⟩
  · rintro ⟨rfl, hb⟩
    exact ⟨[b], rfl, List.singleton_sublist.mpr hb⟩

namespace Linearizes

variable {sel : Op → Prop} {h : List (Seen Op R)} {l : List (Taken Op R)}

/-- An operation takes effect after it was called and before it answers. -/
lemma taken (hl : Linearizes sel h l) {x : Taken Op R} (hcall : .call x.i x.op ∈ h)
    (hsel : sel x.op) (hnew : ∀ y ∈ l, x.i ≠ y.i) (hno : ∀ r, .respond x.i r ∉ h) :
    Linearizes sel h (x :: l) where
  called := List.forall_mem_cons.mpr ⟨⟨hcall, hsel⟩, hl.called⟩
  once := hl.once.cons hnew
  answered i op r hc hs hr := List.mem_cons_of_mem _ (hl.answered i op r hc hs hr)
  ordered a ha b hb hsub := by
    rcases List.mem_cons.mp ha with rfl | ha'
    · exact absurd (hsub.subset (List.mem_cons_of_mem _ List.mem_cons_self)) (hno _)
    · rcases List.mem_cons.mp hb with rfl | hb'
      · exact pair_sublist_cons.mpr (.inr ⟨rfl, ha'⟩)
      · exact pair_sublist_cons.mpr (.inl (hl.ordered a ha' b hb' hsub))

lemma call (hl : Linearizes sel h l) {i : ℕ} {op : Op} (hnew : ∀ y ∈ l, y.i ≠ i)
    (hno : ∀ r, .respond i r ∉ h) : Linearizes sel (.call i op :: h) l where
  called x hx := ⟨List.mem_cons_of_mem _ (hl.called x hx).1, (hl.called x hx).2⟩
  once := hl.once
  answered j op' r hc hs hr := by
    have hr' : .respond j r ∈ h := by simpa using hr
    rcases List.mem_cons.mp hc with heq | hc
    · cases heq
      exact absurd hr' (hno r)
    · exact hl.answered j op' r hc hs hr'
  ordered a ha b hb hsub := by
    rcases pair_sublist_cons.mp hsub with hsub | ⟨heq, -⟩
    · exact hl.ordered a ha b hb hsub
    · cases heq
      exact absurd rfl (hnew b hb)

/-- An operation answers what it has taken effect with. -/
lemma respond (hl : Linearizes sel h l) {i : ℕ} {r : R}
    (htaken : ∀ op, .call i op ∈ h → sel op → ⟨i, op, r⟩ ∈ l) :
    Linearizes sel (.respond i r :: h) l where
  called x hx := ⟨List.mem_cons_of_mem _ (hl.called x hx).1, (hl.called x hx).2⟩
  once := hl.once
  answered j op r' hc hs hr := by
    have hc' : .call j op ∈ h := by simpa using hc
    rcases List.mem_cons.mp hr with heq | hr
    · cases heq
      exact htaken op hc' hs
    · exact hl.answered j op r' hc' hs hr
  ordered a ha b hb hsub := by
    rcases pair_sublist_cons.mp hsub with hsub | ⟨heq, -⟩
    · exact hl.ordered a ha b hb hsub
    · cases heq

end Linearizes

namespace System

variable (S : System C Ans Op R W Ch)

/-- What it takes for the operations to take effect with their answer: `abs` is the object in the
world, and only a step that leads one of them to its answer changes it. -/
structure TakesEffect (P : S.State → Action Op Ch → Prop) (w₀ : W) (sel : Op → Prop)
    (legal : Op → R → σ → σ → Prop) (abs : W → σ) : Prop where
  call : ∀ (s : S.State) op r, Reach P (S.start w₀) s → sel op → S.program op = .ret r →
    legal op r (abs s.world) (abs s.world)
  answer : ∀ (s : S.State) i ch op past c k r, Reach P (S.start w₀) s → P s (.step i ch) →
    s.threads[i]? = some ⟨op, past, .call c k, true⟩ → S.enabled i c ch s.world = true → sel op →
    k (S.exec i c ch s.world).1 = .ret r →
      legal op r (abs s.world) (abs (S.exec i c ch s.world).2)
  work : ∀ (s : S.State) i ch op past c k, Reach P (S.start w₀) s → P s (.step i ch) →
    s.threads[i]? = some ⟨op, past, .call c k, true⟩ → S.enabled i c ch s.world = true →
    (sel op → ∃ c' k', k (S.exec i c ch s.world).1 = .call c' k') →
      abs (S.exec i c ch s.world).2 = abs s.world
  reset : ∀ w, abs (S.reset w) = abs w

variable {S} {P : S.State → Action Op Ch → Prop} {w₀ : W} {sel : Op → Prop}
  {legal : Op → R → σ → σ → Prop} {abs : W → σ} {s : S.State} {l : List (Taken Op R)}

/-- The order of the operations that have come to their answer. -/
structure Effects (sel : Op → Prop) (legal : Op → R → σ → σ → Prop) (abs : W → σ) (a₀ : σ)
    (s : S.State) (l : List (Taken Op R)) : Prop where
  linearizes : Linearizes sel (history s.log) l
  replays : Replays legal a₀ l (abs s.world)
  mem : ∀ x, x ∈ l ↔ ∃ t, s.threads[x.i]? = some t ∧ t.op = x.op ∧ sel t.op ∧ t.prog = .ret x.r

lemma not_mem_history_respond (h : Logged s) {i : ℕ} (hi : s.threads[i]? = none) (r : R) :
    .respond i r ∉ history s.log := by
  intro hr
  obtain ⟨t, ht, -⟩ := h.respond i r (mem_history.mp hr)
  rw [hi] at ht
  cases ht

/-- The operations that have come to their answer, one after the other as they have done so, explain
every run. -/
theorem TakesEffect.effects (hs : S.TakesEffect P w₀ sel legal abs) (h : Reach P (S.start w₀) s) :
    ∃ l, Effects sel legal abs (abs w₀) s l := by
  refine h.induct (fun s => ∃ l, Effects sel legal abs (abs w₀) s l)
    ⟨[], ⟨by simp, .nil, by simp [start, history], by simp⟩, .nil, by simp [start]⟩
    fun s a s' hr hP ⟨l, hl⟩ hst => ?_
  cases hst with
  | call op =>
    have hlast : s.threads[s.threads.length]? = none := by simp
    have hno := not_mem_history_respond hr.logged hlast
    have hnew : ∀ y ∈ l, y.i ≠ s.threads.length := by
      intro y hy heq
      obtain ⟨t, ht, -⟩ := (hl.mem y).mp hy
      rw [heq, hlast] at ht
      cases ht
    have hcalled : Linearizes sel (.call s.threads.length op :: history s.log) l :=
      hl.linearizes.call hnew hno
    by_cases heff : sel op ∧ ∃ r, S.program op = .ret r
    · obtain ⟨hsel, r, hret⟩ := heff
      refine ⟨⟨s.threads.length, op, r⟩ :: l, ?_, .cons hl.replays (hs.call s op r hr hsel hret),
        fun x => ?_⟩
      · exact hcalled.taken List.mem_cons_self hsel (fun y hy => (hnew y hy).symm)
          fun r => by simpa using hno r
      · rw [List.mem_cons, hl.mem]
        constructor
        · rintro (rfl | ⟨t, ht, hx⟩)
          · exact ⟨_, getElem?_snoc.mpr (.inr ⟨rfl, rfl⟩), rfl, hsel, hret⟩
          · exact ⟨t, getElem?_snoc.mpr (.inl ht), hx⟩
        · rintro ⟨t, ht, hx⟩
          rcases getElem?_snoc.mp ht with ht | ⟨hi, rfl⟩
          · exact .inr ⟨t, ht, hx⟩
          · obtain ⟨i, op', r'⟩ := x
            obtain ⟨rfl, -, hprog⟩ := hx
            obtain rfl : i = s.threads.length := hi
            obtain rfl : r = r' := Prog.ret.inj (hret.symm.trans hprog)
            exact .inl rfl
    · refine ⟨l, hcalled, hl.replays, fun x => (hl.mem x).trans ⟨?_, ?_⟩⟩
      · rintro ⟨t, ht, hx⟩
        exact ⟨t, getElem?_snoc.mpr (.inl ht), hx⟩
      · rintro ⟨t, ht, hx⟩
        rcases getElem?_snoc.mp ht with ht | ⟨-, rfl⟩
        · exact ⟨t, ht, hx⟩
        · exact absurd ⟨hx.2.1, _, hx.2.2⟩ heff
  | @step i ch op past c k ht hen =>
    have hcall : .call i op ∈ history s.log :=
      mem_history.mpr ((hr.logged.call i op).mpr ⟨_, ht, rfl⟩)
    have hno : ∀ r, .respond i r ∉ history s.log := by
      intro r hmem
      obtain ⟨t, ht', hlive, -⟩ := hr.logged.respond i r (mem_history.mp hmem)
      rw [ht] at ht'
      cases ht'
      cases hlive
    -- The operation is not in the order yet.
    have hnew : ∀ y ∈ l, i ≠ y.i := by
      rintro y hy rfl
      obtain ⟨t, ht', -, -, hprog⟩ := (hl.mem y).mp hy
      rw [ht] at ht'
      cases ht'
      cases hprog
    by_cases heff : sel op ∧ ∃ r, k (S.exec i c ch s.world).1 = .ret r
    · obtain ⟨hsel, r, hret⟩ := heff
      refine ⟨⟨i, op, r⟩ :: l, hl.linearizes.taken hcall hsel hnew hno,
        .cons hl.replays (hs.answer s i ch op past c k r hr hP ht hen hsel hret), fun x => ?_⟩
      rw [List.mem_cons, hl.mem]
      constructor
      · rintro (rfl | ⟨t, ht', hx⟩)
        · exact ⟨_, (getElem?_replaced ht).mpr (.inl ⟨rfl, rfl⟩), rfl, hsel, hret⟩
        · have hi : i ≠ x.i := hnew x ((hl.mem x).mpr ⟨t, ht', hx⟩)
          exact ⟨t, (getElem?_replaced ht).mpr (.inr ⟨hi, ht'⟩), hx⟩
      · rintro ⟨t, ht', hx⟩
        rcases (getElem?_replaced ht).mp ht' with ⟨hi, rfl⟩ | ⟨-, ht'⟩
        · obtain ⟨j, op', r'⟩ := x
          obtain ⟨rfl, -, hprog⟩ := hx
          obtain rfl : i = j := hi
          obtain rfl : r = r' := Prog.ret.inj (hret.symm.trans hprog)
          exact .inl rfl
        · exact .inr ⟨t, ht', hx⟩
    · have hwork := hs.work s i ch op past c k hr hP ht hen fun hsel => by
        cases hk : k (S.exec i c ch s.world).1 with
        | ret r => exact absurd ⟨hsel, r, hk⟩ heff
        | call c' k' => exact ⟨c', k', rfl⟩
      refine ⟨l, hl.linearizes, hwork ▸ hl.replays, fun x => (hl.mem x).trans ?_⟩
      refine exists_replaced ht ⟨fun hx => absurd ⟨hx.2.1, _, hx.2.2⟩ heff, fun hx => ?_⟩
      cases hx.2.2
  | @respond i op past r ht =>
    refine ⟨l, hl.linearizes.respond fun op' hop hsel => (hl.mem _).mpr ?_, hl.replays,
      fun x => (hl.mem x).trans (exists_replaced ht Iff.rfl)⟩
    obtain ⟨t, ht', rfl⟩ := (hr.logged.call i op').mp (mem_history.mp hop)
    rw [ht] at ht'
    cases ht'
    exact ⟨_, ht, rfl, hsel, rfl⟩
  | crash =>
    refine ⟨l, hl.linearizes, (hs.reset s.world).symm ▸ hl.replays, fun x => (hl.mem x).trans ?_⟩
    simp [List.getElem?_map]

/-- Every run is linearizable. -/
theorem TakesEffect.linearizable (hs : S.TakesEffect P w₀ sel legal abs)
    (h : Reach P (S.start w₀) s) : Linearizable sel legal (abs w₀) (history s.log) := by
  obtain ⟨l, hl⟩ := hs.effects h
  exact ⟨l, _, hl.linearizes, hl.replays⟩

end System

end Programs
