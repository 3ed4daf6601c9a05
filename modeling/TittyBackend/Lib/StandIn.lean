import TittyBackend.Lib.Interleaving

/-!
# Operations that others stand in for

Some operations of a run are replaced by stand-ins, which do less. As long as the operations that
stay cannot tell the two worlds apart, they go on as before: there is a run with the stand-ins in
which they answer the same.
-/

namespace Programs

namespace System

variable {C : Type} {Ans : C → Type} {Op R W Ch : Type}

/-! ### Histories with stand-ins -/

section history

/-- Whether operation `i` is called in a history and stays. -/
def calledToStay (stays : Op → Bool) (i : ℕ) (h : List (Seen Op R)) : Bool := h.any fun
  | .call j op => decide (j = i) && stays op
  | .respond _ _ => false

/-- A history, the latest first, in which a stand-in that does not answer is called for every
operation that does not stay. -/
def withStandIns (stays : Op → Bool) (standIn : Op → Op) : List (Seen Op R) → List (Seen Op R)
  | [] => []
  | .call i op :: h => .call i (if stays op then op else standIn op) :: withStandIns stays standIn h
  | .respond i r :: h =>
    if calledToStay stays i h then .respond i r :: withStandIns stays standIn h
    else withStandIns stays standIn h

variable {stays : Op → Bool} {standIn : Op → Op} {i : ℕ} {l : List (Event C Ans Op R)}

lemma calledToStay_history :
    calledToStay stays i (history l) = true ↔ ∃ op, .call i op ∈ l ∧ stays op = true := by
  rw [calledToStay, List.any_eq_true]
  constructor
  · rintro ⟨(⟨j, op⟩ | ⟨j, r⟩), hx, hp⟩
    · simp only [Bool.and_eq_true, decide_eq_true_eq] at hp
      obtain ⟨rfl, hp⟩ := hp
      exact ⟨op, mem_history.mp hx, hp⟩
    · cases hp
  · rintro ⟨op, hop, hp⟩
    exact ⟨.call i op, mem_history.mpr hop, by simp [hp]⟩

/-- A stand-in is called. -/
lemma call_mem_withStandIns {h : List (Seen Op R)} {op : Op} (hop : .call i op ∈ h)
    (hp : stays op = false) : .call i (standIn op) ∈ withStandIns stays standIn h := by
  induction h with
  | nil => cases hop
  | cons x h ih =>
    rcases List.mem_cons.mp hop with rfl | htail
    · rw [withStandIns, hp]
      exact List.mem_cons_self
    · cases x with
      | call j op' => exact List.mem_cons_of_mem _ (ih htail)
      | respond j r =>
        rw [withStandIns]
        split_ifs
        · exact List.mem_cons_of_mem _ (ih htail)
        · exact ih htail

@[simp] lemma history_call (i : ℕ) (op : Op) (l : List (Event C Ans Op R)) :
    history (.call i op :: l) = .call i op :: history l := rfl

@[simp] lemma history_exec (i : ℕ) (e : Exchange C Ans) (l : List (Event C Ans Op R)) :
    history (.exec i e :: l) = history l := rfl

@[simp] lemma history_respond (i : ℕ) (r : R) (l : List (Event C Ans Op R)) :
    history (.respond i r :: l) = .respond i r :: history l := rfl

@[simp] lemma history_crash (l : List (Event C Ans Op R)) : history (.crash :: l) = history l := rfl

end history

/-! ### The two runs -/

variable (S : System C Ans Op R W Ch)

/-- What it takes for stand-ins to go unnoticed in the runs from `w₀`. `rel` relates the worlds with
the operations and with their stand-ins. A command of an operation that stays is answered alike in
both; a command of one that does not stay either makes no difference, or is its first and that of
its stand-in as well. -/
structure Unnoticed (P : S.State → Action Op Ch → Prop) (w₀ : W) (stays : Op → Bool)
    (standIn : Op → Op) (agree : (c : C) → Ans c → Ans c → Prop) (rel : W → W → Prop) : Prop where
  blind : ∀ op, stays op = true → (S.program op).Blind (fun _ => True) agree
  stay : ∀ (s : S.State) w' i ch op past c k, Reach P (S.start w₀) s → P s (.step i ch) →
    s.threads[i]? = some ⟨op, past, .call c k, true⟩ → stays op = true →
    S.enabled i c ch s.world = true → rel s.world w' → S.enabled i c ch w' = true ∧
      agree c (S.exec i c ch s.world).1 (S.exec i c ch w').1 ∧
        rel (S.exec i c ch s.world).2 (S.exec i c ch w').2
  stand : ∀ (s : S.State) w' i ch op past c k, Reach P (S.start w₀) s → P s (.step i ch) →
    s.threads[i]? = some ⟨op, past, .call c k, true⟩ → stays op = false →
    S.enabled i c ch s.world = true → rel s.world w' → rel (S.exec i c ch s.world).2 w' ∨
      past = [] ∧ ∃ k', S.program (standIn op) = .call c k' ∧ S.enabled i c ch w' = true ∧
        rel (S.exec i c ch s.world).2 (S.exec i c ch w').2
  crash : ∀ w w', rel w w' → rel (S.reset w) (S.reset w')

variable {S} {P : S.State → Action Op Ch → Prop} {w₀ w₀' : W} {stays : Op → Bool}
  {standIn : Op → Op} {agree : (c : C) → Ans c → Ans c → Prop} {rel : W → W → Prop}
  {s s' : S.State}

/-- The second state is the first one with stand-ins. A stand-in has not begun as long as the
operation has not that it stands in for. -/
structure StandsFor (stays : Op → Bool) (standIn : Op → Op) (rel : W → W → Prop)
    (s s' : S.State) : Prop where
  world : rel s.world s'.world
  length : s'.threads.length = s.threads.length
  staying : ∀ (i : ℕ) t, s.threads[i]? = some t → stays t.op = true →
    ∃ past, s'.threads[i]? = some { t with past }
  standing : ∀ (i : ℕ) t, s.threads[i]? = some t → stays t.op = false →
    ∃ t', s'.threads[i]? = some t' ∧ t'.op = standIn t.op ∧
      (t.past = [] → t.live = true → t' = ⟨standIn t.op, [], S.program (standIn t.op), true⟩)
  history : history s'.log = withStandIns stays standIn (history s.log)

/-- An operation that stays looks at nothing in which the two worlds differ. -/
lemma Unnoticed.blind_of_reach (hu : S.Unnoticed P w₀ stays standIn agree rel)
    (h : Reach P (S.start w₀) s) : ∀ (i : ℕ) t, s.threads[i]? = some t → stays t.op = true →
      t.prog.Blind (fun _ => True) agree := by
  refine h.induct (fun s => ∀ (i : ℕ) t, s.threads[i]? = some t → stays t.op = true →
    t.prog.Blind (fun _ => True) agree) (by simp [start]) fun s a s' _ _ ih hst i t ht hp => ?_
  cases hst with
  | call op =>
    rcases getElem?_snoc.mp ht with ht | ⟨-, rfl⟩
    · exact ih i t ht hp
    · exact hu.blind op hp
  | step htj hen =>
    rcases (getElem?_replaced htj).mp ht with ⟨rfl, rfl⟩ | ⟨-, ht⟩
    · exact (ih _ _ htj hp).2.2 _
    · exact ih i t ht hp
  | respond htj =>
    rcases (getElem?_replaced htj).mp ht with ⟨rfl, rfl⟩ | ⟨-, ht⟩
    · exact ih _ ⟨_, _, _, true⟩ htj hp
    · exact ih i t ht hp
  | crash =>
    obtain ⟨u, hu, rfl⟩ := by simpa using ht
    exact ih i u hu hp

/-! ### The run with the stand-ins -/

lemma State.next_step {i : ℕ} {ch : Ch} {op : Op} {past : Past C Ans} {c : C}
    {k : Ans c → Prog C Ans R} (ht : s.threads[i]? = some ⟨op, past, .call c k, true⟩)
    (hen : S.enabled i c ch s.world = true) : s.next (.step i ch) = some
      ⟨(S.exec i c ch s.world).2, s.threads.set i ⟨op, ⟨c, (S.exec i c ch s.world).1⟩ :: past,
        k (S.exec i c ch s.world).1, true⟩, .exec i ⟨c, (S.exec i c ch s.world).1⟩ :: s.log⟩ := by
  simp only [next, ht, hen, if_true]

lemma State.next_respond {i : ℕ} {op : Op} {past : Past C Ans} {r : R}
    (ht : s.threads[i]? = some ⟨op, past, .ret r, true⟩) : s.next (.respond i) = some
      ⟨s.world, s.threads.set i ⟨op, past, .ret r, false⟩, .respond i r :: s.log⟩ := by
  simp only [next, ht]

section next

variable (hs : StandsFor stays standIn rel s s')

include hs

lemma StandsFor.call (op : Op) : ∃ s₂ : S.State,
    s'.next (.call (if stays op then op else standIn op)) = some s₂ ∧
      StandsFor stays standIn rel
        ⟨s.world, s.threads ++ [⟨op, [], S.program op, true⟩], .call s.threads.length op :: s.log⟩
        s₂ := by
  refine ⟨_, rfl, hs.world, by simp [hs.length], fun i t ht hp => ?_, fun i t ht hp => ?_, ?_⟩
  · rcases getElem?_snoc.mp ht with ht | ⟨rfl, rfl⟩
    · obtain ⟨past, ht'⟩ := hs.staying i t ht hp
      exact ⟨past, getElem?_snoc.mpr (.inl ht')⟩
    · exact ⟨[], getElem?_snoc.mpr (.inr ⟨hs.length.symm, by simp only [hp, if_true]⟩)⟩
  · rcases getElem?_snoc.mp ht with ht | ⟨rfl, rfl⟩
    · obtain ⟨t', ht', h⟩ := hs.standing i t ht hp
      exact ⟨t', getElem?_snoc.mpr (.inl ht'), h⟩
    · exact ⟨_, getElem?_snoc.mpr (.inr ⟨hs.length.symm, rfl⟩), by simp [hp], by simp [hp]⟩
  · simp [withStandIns, hs.history, hs.length]

/-- A step of an operation that stays. -/
lemma StandsFor.step {i : ℕ} {ch : Ch} {op : Op} {past : Past C Ans} {c : C}
    {k : Ans c → Prog C Ans R} (ht : s.threads[i]? = some ⟨op, past, .call c k, true⟩)
    (hp : stays op = true) (hen : S.enabled i c ch s'.world = true)
    (hk : k (S.exec i c ch s.world).1 = k (S.exec i c ch s'.world).1)
    (hrel : rel (S.exec i c ch s.world).2 (S.exec i c ch s'.world).2) : ∃ s₂ : S.State,
      s'.next (.step i ch) = some s₂ ∧ StandsFor stays standIn rel
        ⟨(S.exec i c ch s.world).2, s.threads.set i ⟨op, ⟨c, (S.exec i c ch s.world).1⟩ :: past,
          k (S.exec i c ch s.world).1, true⟩, .exec i ⟨c, (S.exec i c ch s.world).1⟩ :: s.log⟩
        s₂ := by
  obtain ⟨past', ht'⟩ := hs.staying i _ ht hp
  refine ⟨_, State.next_step ht' hen, hrel, by simp [hs.length],
    fun j t htj hp' => ?_, fun j t htj hp' => ?_, ?_⟩
  · rcases (getElem?_replaced ht).mp htj with ⟨rfl, rfl⟩ | ⟨hij, htj⟩
    · exact ⟨⟨c, (S.exec i c ch s'.world).1⟩ :: past',
        (getElem?_replaced ht').mpr (.inl ⟨rfl, by simp only [hk]⟩)⟩
    · obtain ⟨past₂, htj'⟩ := hs.staying j t htj hp'
      exact ⟨past₂, (getElem?_replaced ht').mpr (.inr ⟨hij, htj'⟩)⟩
  · rcases (getElem?_replaced ht).mp htj with ⟨rfl, rfl⟩ | ⟨hij, htj⟩
    · exact absurd (hp.symm.trans hp') Bool.noConfusion
    · obtain ⟨t', htj', h⟩ := hs.standing j t htj hp'
      exact ⟨t', (getElem?_replaced ht').mpr (.inr ⟨hij, htj'⟩), h⟩
  · simp [hs.history]

/-- A step of an operation that makes no difference. -/
lemma StandsFor.skip {i : ℕ} {ch : Ch} {op : Op} {past : Past C Ans} {c : C}
    {k : Ans c → Prog C Ans R} (ht : s.threads[i]? = some ⟨op, past, .call c k, true⟩)
    (hp : stays op = false) (hrel : rel (S.exec i c ch s.world).2 s'.world) :
    StandsFor stays standIn rel
      ⟨(S.exec i c ch s.world).2, s.threads.set i ⟨op, ⟨c, (S.exec i c ch s.world).1⟩ :: past,
        k (S.exec i c ch s.world).1, true⟩, .exec i ⟨c, (S.exec i c ch s.world).1⟩ :: s.log⟩
      s' := by
  refine ⟨hrel, by simp [hs.length], fun j t htj hp' => ?_, fun j t htj hp' => ?_, ?_⟩
  · rcases (getElem?_replaced ht).mp htj with ⟨rfl, rfl⟩ | ⟨-, htj⟩
    · exact absurd (hp.symm.trans hp') Bool.noConfusion
    · exact hs.staying j t htj hp'
  · rcases (getElem?_replaced ht).mp htj with ⟨rfl, rfl⟩ | ⟨-, htj⟩
    · obtain ⟨t', ht', hop, -⟩ := hs.standing _ _ ht hp
      exact ⟨t', ht', hop, fun hnil => absurd hnil (List.cons_ne_nil _ _)⟩
    · exact hs.standing j t htj hp'
  · simp [hs.history]

/-- The first step of an operation, which is that of its stand-in as well. -/
lemma StandsFor.begin {i : ℕ} {ch : Ch} {op : Op} {c : C} {k : Ans c → Prog C Ans R}
    {k' : Ans c → Prog C Ans R} (ht : s.threads[i]? = some ⟨op, [], .call c k, true⟩)
    (hp : stays op = false) (hprog : S.program (standIn op) = .call c k')
    (hen : S.enabled i c ch s'.world = true)
    (hrel : rel (S.exec i c ch s.world).2 (S.exec i c ch s'.world).2) : ∃ s₂ : S.State,
      s'.next (.step i ch) = some s₂ ∧ StandsFor stays standIn rel
        ⟨(S.exec i c ch s.world).2, s.threads.set i ⟨op, [⟨c, (S.exec i c ch s.world).1⟩],
          k (S.exec i c ch s.world).1, true⟩, .exec i ⟨c, (S.exec i c ch s.world).1⟩ :: s.log⟩
        s₂ := by
  obtain ⟨t₀, ht', -, hfresh⟩ := hs.standing i _ ht hp
  obtain rfl := hfresh rfl rfl
  rw [hprog] at ht'
  refine ⟨_, State.next_step ht' hen, hrel, by simp [hs.length],
    fun j t htj hp' => ?_, fun j t htj hp' => ?_, ?_⟩
  · rcases (getElem?_replaced ht).mp htj with ⟨rfl, rfl⟩ | ⟨hij, htj⟩
    · exact absurd (hp.symm.trans hp') Bool.noConfusion
    · obtain ⟨past₂, htj'⟩ := hs.staying j t htj hp'
      exact ⟨past₂, (getElem?_replaced ht').mpr (.inr ⟨hij, htj'⟩)⟩
  · rcases (getElem?_replaced ht).mp htj with ⟨rfl, rfl⟩ | ⟨hij, htj⟩
    · exact ⟨_, (getElem?_replaced ht').mpr (.inl ⟨rfl, rfl⟩), rfl,
        fun hnil => absurd hnil (List.cons_ne_nil _ _)⟩
    · obtain ⟨t', htj', h⟩ := hs.standing j t htj hp'
      exact ⟨t', (getElem?_replaced ht').mpr (.inr ⟨hij, htj'⟩), h⟩
  · simp [hs.history]

/-- An answer of an operation that stays. -/
lemma StandsFor.respond (hl : Logged s) {i : ℕ} {op : Op} {past : Past C Ans} {r : R}
    (ht : s.threads[i]? = some ⟨op, past, .ret r, true⟩) (hp : stays op = true) :
    ∃ s₂ : S.State, s'.next (.respond i) = some s₂ ∧ StandsFor stays standIn rel
      ⟨s.world, s.threads.set i ⟨op, past, .ret r, false⟩, .respond i r :: s.log⟩ s₂ := by
  obtain ⟨past', ht'⟩ := hs.staying i _ ht hp
  refine ⟨_, State.next_respond ht', hs.world, by simp [hs.length],
    fun j t htj hp' => ?_, fun j t htj hp' => ?_, ?_⟩
  · rcases (getElem?_replaced ht).mp htj with ⟨rfl, rfl⟩ | ⟨hij, htj⟩
    · exact ⟨_, (getElem?_replaced ht').mpr (.inl ⟨rfl, rfl⟩)⟩
    · obtain ⟨past₂, htj'⟩ := hs.staying j t htj hp'
      exact ⟨past₂, (getElem?_replaced ht').mpr (.inr ⟨hij, htj'⟩)⟩
  · rcases (getElem?_replaced ht).mp htj with ⟨rfl, rfl⟩ | ⟨hij, htj⟩
    · exact absurd (hp.symm.trans hp') Bool.noConfusion
    · obtain ⟨t', htj', h⟩ := hs.standing j t htj hp'
      exact ⟨t', (getElem?_replaced ht').mpr (.inr ⟨hij, htj'⟩), h⟩
  · have hcall : calledToStay stays i (Programs.history s.log) = true :=
      calledToStay_history.mpr ⟨op, (hl.call i op).mpr ⟨_, ht, rfl⟩, hp⟩
    simp [withStandIns, hcall, hs.history]

/-- An answer of an operation that does not stay is left out. -/
lemma StandsFor.leaves (hl : Logged s) {i : ℕ} {op : Op} {past : Past C Ans} {r : R}
    (ht : s.threads[i]? = some ⟨op, past, .ret r, true⟩) (hp : stays op = false) :
    StandsFor stays standIn rel
      ⟨s.world, s.threads.set i ⟨op, past, .ret r, false⟩, .respond i r :: s.log⟩ s' := by
  refine ⟨hs.world, by simp [hs.length], fun j t htj hp' => ?_, fun j t htj hp' => ?_, ?_⟩
  · rcases (getElem?_replaced ht).mp htj with ⟨rfl, rfl⟩ | ⟨-, htj⟩
    · exact absurd (hp.symm.trans hp') Bool.noConfusion
    · exact hs.staying j t htj hp'
  · rcases (getElem?_replaced ht).mp htj with ⟨rfl, rfl⟩ | ⟨-, htj⟩
    · obtain ⟨t', ht', hop, -⟩ := hs.standing _ _ ht hp
      exact ⟨t', ht', hop, fun _ hlive => absurd hlive Bool.noConfusion⟩
    · exact hs.standing j t htj hp'
  · have hcall : calledToStay stays i (Programs.history s.log) = false := by
      rw [Bool.eq_false_iff, ne_eq, calledToStay_history]
      rintro ⟨op', hop, hp'⟩
      obtain rfl := hl.call_unique hop ((hl.call i op).mpr ⟨_, ht, rfl⟩)
      exact absurd (hp.symm.trans hp') Bool.noConfusion
    simp [withStandIns, hcall, hs.history]

lemma StandsFor.crash (hcrash : ∀ w w', rel w w' → rel (S.reset w) (S.reset w')) : ∃ s₂ : S.State,
    s'.next .crash = some s₂ ∧ StandsFor stays standIn rel
      ⟨S.reset s.world, s.threads.map fun t => { t with live := false }, .crash :: s.log⟩ s₂ := by
  refine ⟨_, rfl, hcrash _ _ hs.world, by simp [hs.length], fun i t ht hp => ?_,
    fun i t ht hp => ?_, by simp [hs.history]⟩
  · obtain ⟨u, hu, rfl⟩ := by simpa using ht
    obtain ⟨past, hu'⟩ := hs.staying i u hu hp
    exact ⟨past, by simp [hu']⟩
  · obtain ⟨u, hu, rfl⟩ := by simpa using ht
    obtain ⟨u', hu', hop, -⟩ := hs.standing i u hu hp
    exact ⟨{ u' with live := false }, by simp [hu'], hop,
      fun _ hlive => absurd hlive Bool.noConfusion⟩

end next

/-- Every run has a counterpart with stand-ins, in which the operations that stay answer the
same. -/
theorem Unnoticed.standsFor (hu : S.Unnoticed P w₀ stays standIn agree rel)
    (h : Reach P (S.start w₀) s) (h₀ : rel w₀ w₀') :
    ∃ s' : S.State, Reachable w₀' s' ∧ StandsFor stays standIn rel s s' := by
  refine h.induct (fun s => ∃ s' : S.State, Reachable w₀' s' ∧ StandsFor stays standIn rel s s')
    ⟨S.start w₀', .refl, h₀, rfl, by simp [start], by simp [start], rfl⟩
    fun s a s₁ hr hP ⟨s', hr', hs⟩ hst => ?_
  have taken {a : Action Op Ch} {s₁ : S.State} (hn : ∃ s₂ : S.State, s'.next a = some s₂ ∧
      StandsFor stays standIn rel s₁ s₂) :
      ∃ s₂ : S.State, Reachable w₀' s₂ ∧ StandsFor stays standIn rel s₁ s₂ := by
    obtain ⟨s₂, hn, hs₂⟩ := hn
    exact ⟨s₂, .step hr' trivial hn, hs₂⟩
  cases hst with
  | call op => exact taken (hs.call op)
  | @step i ch op past c k ht hen =>
    cases hp : stays op with
    | true =>
      obtain ⟨hen', hagree, hrel⟩ := hu.stay s _ i ch op past c k hr hP ht hp hen hs.world
      have hblind := hu.blind_of_reach hr i _ ht hp
      exact taken (hs.step ht hp hen' (hblind.2.1 _ _ hagree) hrel)
    | false =>
      rcases hu.stand s _ i ch op past c k hr hP ht hp hen hs.world with
        hrel | ⟨rfl, k', hprog, hen', hrel⟩
      · exact ⟨s', hr', hs.skip ht hp hrel⟩
      · exact taken (hs.begin ht hp hprog hen' hrel)
  | @respond i op past r ht =>
    cases hp : stays op with
    | true => exact taken (hs.respond hr.logged ht hp)
    | false => exact ⟨s', hr', hs.leaves hr.logged ht hp⟩
  | crash => exact taken (hs.crash hu.crash)

end System

end Programs
