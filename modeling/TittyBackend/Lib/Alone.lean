import TittyBackend.Lib.Interleaving

/-!
# A program that runs alone

`Plays` runs one program to its end while no other issues a command; the choices of its steps are
listed. Such a run is a stretch of an interleaved one (`Plays.take`). With `alone` and `along` for
the commands, `Prog.Wp` computes what holds at its end: under any choices, or under those of a
sequence. A `Serial` run is one operation after the other, with restarts between them.
-/

namespace Programs

namespace System

variable {C : Type} {Ans : C → Type} {Op R W Ch α β : Type} (S : System C Ans Op R W Ch)

/-- Program number `i`, alone from `w` on and under these choices, returns `a` and leaves `w'`. -/
inductive Plays (i : ℕ) : Prog C Ans α → W → List Ch → α → W → Prop
  | ret (a : α) (w : W) : Plays i (.ret a) w [] a w
  | call {c : C} {k : Ans c → Prog C Ans α} {w w' : W} {ch : Ch} {chs : List Ch} {a : α}
      (hen : S.enabled i c ch w = true)
      (h : Plays i (k (S.exec i c ch w).1) (S.exec i c ch w).2 chs a w') :
      Plays i (.call c k) w (ch :: chs) a w'

variable {S} {i : ℕ}

lemma plays_ret {a b : α} {w w' : W} {chs : List Ch} :
    S.Plays i (.ret a) w chs b w' ↔ chs = [] ∧ b = a ∧ w' = w := by
  constructor
  · rintro ⟨⟩
    exact ⟨rfl, rfl, rfl⟩
  · rintro ⟨rfl, rfl, rfl⟩
    exact .ret _ _

lemma plays_call {c : C} {k : Ans c → Prog C Ans α} {w w' : W} {chs : List Ch} {a : α} :
    S.Plays i (.call c k) w chs a w' ↔ ∃ ch chs', chs = ch :: chs' ∧
      S.enabled i c ch w = true ∧
      S.Plays i (k (S.exec i c ch w).1) (S.exec i c ch w).2 chs' a w' := by
  constructor
  · rintro (_ | ⟨hen, h⟩)
    exact ⟨_, _, rfl, hen, h⟩
  · rintro ⟨ch, chs', rfl, hen, h⟩
    exact .call hen h

/-- The run of a program alone, if the choices let it run to its end. -/
def play (S : System C Ans Op R W Ch) (i : ℕ) : Prog C Ans α → W → List Ch → Option (α × W)
  | .ret a, w, [] => some (a, w)
  | .call c k, w, ch :: chs =>
    if S.enabled i c ch w then S.play i (k (S.exec i c ch w).1) (S.exec i c ch w).2 chs else none
  | .ret _, _, _ :: _ | .call _ _, _, [] => none

lemma plays_of_play {p : Prog C Ans α} {w w' : W} {chs : List Ch} {a : α}
    (h : S.play i p w chs = some (a, w')) : S.Plays i p w chs a w' := by
  induction p generalizing w chs with
  | ret b =>
    cases chs with
    | nil =>
      cases h
      exact .ret _ _
    | cons ch chs => cases h
  | call c k ih =>
    cases chs with
    | nil => cases h
    | cons ch chs =>
      rw [play] at h
      split_ifs at h with hen
      exact .call hen (ih _ h)

/-- A property of the world and the past that every command of a program alone keeps holds when
it has ended. -/
theorem Plays.invariant {φ : Past C Ans → C → Prop} {ψ : Past C Ans → α → Prop}
    {p : Prog C Ans α} {w w' : W} {chs : List Ch} {a : α} (h : S.Plays i p w chs a w')
    {past : Past C Ans} (hk : p.Keeps φ ψ past) (J : W → Past C Ans → Prop) (hJ : J w past)
    (hstep : ∀ w past c ch, J w past → φ past c → S.enabled i c ch w = true →
      J (S.exec i c ch w).2 (⟨c, (S.exec i c ch w).1⟩ :: past)) :
    ∃ past', J w' past' ∧ ψ past' a := by
  induction h generalizing past with
  | ret a w => exact ⟨past, hJ, hk⟩
  | call hen h ih => exact ih (hk.2 _) (hstep _ _ _ _ hJ hk.1 hen)

/-! ### Within a run of the system -/

lemma Plays.take_steps {p : Prog C Ans R} {w w' : W} {chs : List Ch} {r : R}
    (h : S.Plays i p w chs r w') {s : S.State} {op : Op} {past : Past C Ans}
    (hw : s.world = w) (ht : s.threads[i]? = some ⟨op, past, p, true⟩) :
    ∃ (es : Past C Ans) (s' : S.State), s.take (chs.map (.step i) ++ [.respond i]) = some s' ∧
      s'.world = w' ∧ s'.threads.length = s.threads.length ∧
      s'.log = .respond i r :: (es.map (.exec i) ++ s.log) := by
  induction h generalizing s past with
  | ret a w =>
    refine ⟨[], ⟨s.world, s.threads.set i ⟨op, past, .ret a, false⟩, .respond i a :: s.log⟩, ?_, hw,
      by simp, rfl⟩
    simp only [List.map_nil, List.nil_append, State.take, State.next, ht, Option.bind_some]
  | @call c k w w' ch chs a hen h ih =>
    subst hw
    have hn : s.next (.step i ch) = some
        { world := (S.exec i c ch s.world).2
          threads := s.threads.set i ⟨op, ⟨c, (S.exec i c ch s.world).1⟩ :: past,
            k (S.exec i c ch s.world).1, true⟩
          log := .exec i ⟨c, (S.exec i c ch s.world).1⟩ :: s.log } := by
      simp only [State.next, ht, hen, if_true]
    have hi : i < s.threads.length := (List.getElem?_eq_some_iff.mp ht).1
    obtain ⟨es, s', hs', hw', hlen, hlog⟩ := ih (s := ⟨_, _, _⟩) rfl (List.getElem?_set_self hi)
    refine ⟨es ++ [⟨c, (S.exec i c ch s.world).1⟩], s', ?_, hw', ?_, ?_⟩
    · rw [List.map_cons, List.cons_append, State.take, hn, Option.bind_some]
      exact hs'
    · simpa using hlen
    · simpa using hlog

/-- A program that runs alone is a stretch of a run of the system. -/
theorem Plays.take {s : S.State} {op : Op} {w' : W} {chs : List Ch} {r : R}
    (h : S.Plays s.threads.length (S.program op) s.world chs r w') :
    ∃ (es : Past C Ans) (s' : S.State),
      s.take (.call op :: (chs.map (.step s.threads.length) ++ [.respond s.threads.length])) =
        some s' ∧ s'.world = w' ∧ s'.threads.length = s.threads.length + 1 ∧
      s'.log = .respond s.threads.length r ::
        (es.map (.exec s.threads.length) ++ .call s.threads.length op :: s.log) := by
  have ht : (s.threads ++ [⟨op, [], S.program op, true⟩])[s.threads.length]? =
      some ⟨op, [], S.program op, true⟩ := by
    simp
  obtain ⟨es, s', hs', hw', hlen, hlog⟩ := h.take_steps
    (s := ⟨s.world, s.threads ++ [⟨op, [], S.program op, true⟩],
      .call s.threads.length op :: s.log⟩)
    rfl ht
  exact ⟨es, s', hs', hw', by simpa using hlen, hlog⟩

/-! ### What holds at the end -/

/-- A command of a program that runs alone; the choices made so far are listed. -/
def alone (S : System C Ans Op R W Ch) (i : ℕ) (c : C) (post : Ans c → W × List Ch → Prop)
    (s : W × List Ch) : Prop :=
  ∀ ch, S.enabled i c ch s.1 = true →
    post (S.exec i c ch s.1).1 ((S.exec i c ch s.1).2, s.2 ++ [ch])

lemma Plays.of_wp_append {p : Prog C Ans α} {w w' : W} {chs chs₀ : List Ch} {a : α}
    {Q : α → W × List Ch → Prop} (h : S.Plays i p w chs a w')
    (hp : p.Wp (S.alone i) Q (w, chs₀)) : Q a (w', chs₀ ++ chs) := by
  induction h generalizing chs₀ with
  | ret a w => simpa using hp
  | call hen h ih => simpa using ih (hp _ hen)

/-- What a program ensures holds when it has run alone. -/
theorem Plays.of_wp {p : Prog C Ans α} {w w' : W} {chs : List Ch} {a : α}
    {Q : α → W × List Ch → Prop} (h : S.Plays i p w chs a w')
    (hp : p.Wp (S.alone i) Q (w, [])) : Q a (w', chs) :=
  h.of_wp_append hp

/-- A command that is let through under the next choice of a sequence. -/
def along (S : System C Ans Op R W Ch) (f : ℕ → Ch) (i : ℕ) (c : C)
    (post : Ans c → W × ℕ → Prop) (s : W × ℕ) : Prop :=
  S.enabled i c (f s.2) s.1 = true ∧
    post (S.exec i c (f s.2) s.1).1 ((S.exec i c (f s.2) s.1).2, s.2 + 1)

/-- A program that gets through under a sequence of choices plays to its end under some first
part of it. -/
theorem plays_of_wp {f : ℕ → Ch} {p : Prog C Ans α} {w : W} {k : ℕ} {Q : α → W × ℕ → Prop}
    (hp : p.Wp (S.along f i) Q (w, k)) :
    ∃ n a w', S.Plays i p w ((List.range' k n).map f) a w' ∧ Q a (w', k + n) := by
  induction p generalizing w k with
  | ret a => exact ⟨0, a, w, .ret a w, hp⟩
  | call c q ih =>
    obtain ⟨hen, hp⟩ := hp
    obtain ⟨n, a, w', hplays, hQ⟩ := ih _ hp
    refine ⟨n + 1, a, w', .call hen hplays, ?_⟩
    rwa [Nat.add_right_comm, Nat.add_assoc] at hQ

/-! ### Side by side -/

/-- Two lists that agree as far as both go agree at their heads and from there on. -/
lemma agree_cons {a b : α} {l m : List α} (h : a :: l <+: b :: m ∨ b :: m <+: a :: l) :
    b = a ∧ (l <+: m ∨ m <+: l) := by
  rcases h with h | h
  · obtain ⟨heq, h⟩ := List.cons_prefix_cons.mp h
    exact ⟨heq.symm, .inl h⟩
  · obtain ⟨heq, h⟩ := List.cons_prefix_cons.mp h
    exact ⟨heq, .inr h⟩

/-- Two runs of one program from related worlds and under the same choices, as far as both go. If
it is blind to the difference of the answers in such worlds, it returns the same and leaves related
worlds. -/
theorem Plays.lockstep {φ : C → Prop} {agree : (c : C) → Ans c → Ans c → Prop} {j : ℕ}
    {rel : W → W → Prop} (hstep : ∀ c ch w₁ w₂, rel w₁ w₂ → φ c → S.enabled i c ch w₁ = true →
      S.enabled j c ch w₂ = true → agree c (S.exec i c ch w₁).1 (S.exec j c ch w₂).1 ∧
        rel (S.exec i c ch w₁).2 (S.exec j c ch w₂).2)
    {p : Prog C Ans α} (hp : p.Blind φ agree) {w₁ w₂ w₁' w₂' : W} {chs₁ chs₂ : List Ch} {a₁ a₂ : α}
    (h₁ : S.Plays i p w₁ chs₁ a₁ w₁') (h₂ : S.Plays j p w₂ chs₂ a₂ w₂')
    (hchs : chs₁ <+: chs₂ ∨ chs₂ <+: chs₁) (hrel : rel w₁ w₂) : a₂ = a₁ ∧ rel w₁' w₂' := by
  induction h₁ generalizing w₂ chs₂ with
  | ret a w =>
    obtain ⟨-, rfl, rfl⟩ := plays_ret.mp h₂
    exact ⟨rfl, hrel⟩
  | @call c k w w' ch chs a hen h ih =>
    obtain ⟨ch', chs', rfl, hen', h'⟩ := plays_call.mp h₂
    obtain ⟨rfl, hrest⟩ := agree_cons hchs
    obtain ⟨hφ, hblind, hk⟩ := hp
    obtain ⟨hagree, hrel⟩ := hstep c ch' w w₂ hrel hφ hen hen'
    rw [← hblind _ _ hagree] at h'
    exact ih (hk _) h' hrest hrel

/-! ### One operation after the other -/

/-- A turn of a sequential run: an operation, possibly after a restart. -/
structure Turn (Op R Ch : Type) where
  restarted : Bool
  op : Op
  choices : List Ch
  response : R

/-- The sequential runs from `w₀`: their turns, the latest first, and the world they leave. -/
inductive Serial (S : System C Ans Op R W Ch) (w₀ : W) : List (Turn Op R Ch) → W → Prop
  | start : Serial S w₀ [] w₀
  | turn {ts : List (Turn Op R Ch)} {w w' : W} {t : Turn Op R Ch} (h : Serial S w₀ ts w)
      (hp : S.Plays ts.length (S.program t.op) (if t.restarted then S.reset w else w) t.choices
        t.response w') : Serial S w₀ (t :: ts) w'

/-- The world that the turns of a sequential run leave, if they give these responses. -/
def replay [DecidableEq R] (S : System C Ans Op R W Ch) (w₀ : W) : List (Turn Op R Ch) → Option W
  | [] => some w₀
  | t :: ts => (S.replay w₀ ts).bind fun w =>
    (S.play ts.length (S.program t.op) (if t.restarted then S.reset w else w) t.choices).bind
      fun x => if x.1 = t.response then some x.2 else none

lemma serial_of_replay [DecidableEq R] {w₀ w : W} {ts : List (Turn Op R Ch)}
    (h : S.replay w₀ ts = some w) : Serial S w₀ ts w := by
  induction ts generalizing w with
  | nil =>
    cases h
    exact .start
  | cons t ts ih =>
    obtain ⟨w₁, hw₁, hx⟩ := Option.bind_eq_some_iff.mp h
    obtain ⟨⟨r, w₂⟩, hplay, hr⟩ := Option.bind_eq_some_iff.mp hx
    split_ifs at hr with hresp
    cases hr
    exact .turn (ih hw₁) (hresp ▸ plays_of_play hplay)

end System

end Programs
