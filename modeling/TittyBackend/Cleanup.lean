import TittyBackend.Endings
import TittyBackend.Failures

/-!
# The clean-up

Two sequential runs of the same operations, one of them with clean-ups in between, keep databases
that differ in expired requests only. Every reader sweeps such requests first or filters them out,
so all answers are the same, but for a cancellation that presents the ids of somebody else.
-/

namespace TittyBackend

open Numerals Programs Programs.System Resolver

variable {D : Deployment}

/-! ### Databases that differ in expired requests -/

/-- `d'` is `d` without some of the requests that have expired at `now`. -/
structure Swept (D : Deployment) (now : ℤ) (d d' : Db) : Prop where
  intact : Intact D now d d'
  subset : d'.chats.rows ⊆ d.chats.rows

/-- The queries that may find an expired request. -/
def Select.Finds : Select → Prop
  | .existingRequest .. | .lease .. | .owner .. => True
  | _ => False

/-- The writes that do not depend on a single request. -/
def Write.Sweeping : Write → Prop
  | .insertChat .. | .updateLease .. | .deleteChat .. => False
  | _ => True

section swept

variable {now now' : ℤ} {d d' e e' : Db} {n n' : ℕ} {u : Write}

lemma Intact.later (hmono : Monotone D.juliandayNow) (hle : now ≤ now') (h : Intact D now d d') :
    Intact D now' d d' := by
  refine ⟨h.accounts, h.challenges, h.blocks, ?_⟩
  have hfilter : ∀ rows : List ChatRecord, rows.filter (fun r => !r.Expired D now') =
      (rows.filter fun r => !r.Expired D now).filter fun r => !r.Expired D now' := by
    intro rows
    rw [List.filter_filter]
    refine List.filter_congr fun r _ => ?_
    by_cases hr : r.Expired D now = true
    · simp [ChatRecord.Expired.mono hmono hle hr]
    · simp [hr]
  rw [hfilter, h.chats, ← hfilter]

lemma Swept.refl (now : ℤ) (d : Db) : Swept D now d d := ⟨.refl now d, List.Subset.refl _⟩

lemma Swept.later (hmono : Monotone D.juliandayNow) (h : Swept D now d d') (hle : now ≤ now') :
    Swept D now' d d' := ⟨h.intact.later hmono hle, h.subset⟩

lemma Swept.accounts (h : Swept D now d d') : d'.accounts = d.accounts :=
  Relational.Table.ext h.intact.accounts

lemma Swept.challenges (h : Swept D now d d') : d'.challenges = d.challenges :=
  Relational.Table.ext h.intact.challenges

lemma Swept.blocks (h : Swept D now d d') : d'.blocks = d.blocks :=
  Relational.Table.ext h.intact.blocks

/-- A condition that no expired request satisfies selects the same requests. -/
lemma Swept.filter (h : Swept D now d d') {p : ChatRecord → Bool}
    (hp : ∀ r, p r = true → r.Expired D now = false) :
    d'.chats.rows.filter p = d.chats.rows.filter p := by
  have hfilter : ∀ rows : List ChatRecord,
      rows.filter p = (rows.filter fun r => !r.Expired D now).filter p := by
    intro rows
    rw [List.filter_filter]
    refine List.filter_congr fun r _ => ?_
    by_cases hr : p r = true
    · simp [hr, hp r hr]
    · simp [hr]
  rw [hfilter, h.intact.chats, ← hfilter]

/-- A request that is missing has expired. -/
lemma Swept.expired (h : Swept D now d d') {r : ChatRecord} (hr : r ∈ d.chats.rows)
    (hr' : r ∉ d'.chats.rows) : r.Expired D now = true := by
  by_contra hne
  have hmem : r ∈ d.chats.rows.filter fun r => !r.Expired D now :=
    List.mem_filter.mpr ⟨hr, by simp [hne]⟩
  rw [← h.intact.chats] at hmem
  exact hr' (List.mem_of_mem_filter hmem)

lemma Swept.eval (h : Swept D now d d') {q : Select} (hq : ¬ q.Finds) :
    q.eval D now d' = q.eval D now d := by
  cases q with
  | existingRequest | lease | owner => exact absurd trivial hq
  | activeCount sender =>
    simp only [Select.eval, List.countP_eq_length_filter]
    rw [h.filter fun r hr => ?_]
    exact ChatRecord.not_expired_of_active D (of_decide_eq_true hr).2
  | liveChatRequests account =>
    have hjoin : d'.joinSender = d.joinSender := by
      funext r
      simp only [Db.joinSender, Db.accountById, h.accounts]
    simp only [Select.eval, hjoin]
    rw [h.filter fun r hr => ?_]
    exact ChatRecord.not_expired_of_active D (of_decide_eq_true hr).2
  | blockedIdentities blocker =>
    have hjoin : d'.joinBlocked = d.joinBlocked := by
      funext b
      simp only [Db.joinBlocked, Db.accountById, h.accounts]
    simp only [Select.eval, hjoin, h.blocks]
  | _ => simp only [Select.eval, Db.accountById, Db.accountByIdentitty, h.accounts, h.challenges,
      h.blocks]

/-- A write succeeds on both or fails on both. -/
lemma Swept.outcome (h : Swept D now d d') (hu : u.Sweeping) :
    (u.apply D now d').map (fun _ => ()) = (u.apply D now d).map fun _ => () := by
  have hknown : ∀ accountId, d'.HasAccount accountId ↔ d.HasAccount accountId := fun accountId => by
    rw [Db.HasAccount, Db.HasAccount, h.accounts]
  cases u with
  | insertChat | updateLease | deleteChat => exact hu.elim
  | insertAccount r =>
    simp only [Write.apply, h.accounts]
    by_cases hf : d.accounts.Fresh r
    · rw [dif_pos hf, dif_pos hf]
      rfl
    · rw [dif_neg hf, dif_neg hf]
  | insertChallenge challengeId accountId challenge expiresAt =>
    simp only [Write.apply, h.challenges]
    by_cases hf : d.challenges.Fresh ⟨challengeId, accountId, challenge, expiresAt, none⟩
    · rw [dif_pos hf, dif_pos hf]
      by_cases ha : d.HasAccount accountId
      · rw [dif_pos ((hknown _).mpr ha), dif_pos ha]
        rfl
      · rw [dif_neg (mt (hknown _).mp ha), dif_neg ha]
    · rw [dif_neg hf, dif_neg hf]
  | insertBlock b =>
    simp only [Write.apply, h.blocks]
    by_cases hf : d.blocks.Fresh b
    · rw [dif_pos hf, dif_pos hf]
      by_cases ha : d.HasAccount b.blockerAccountId ∧ d.HasAccount b.blockedAccountId
      · rw [dif_pos ⟨(hknown _).mpr ha.1, (hknown _).mpr ha.2⟩, dif_pos ha]
        rfl
      · rw [dif_neg fun ha' => ha ⟨(hknown _).mp ha'.1, (hknown _).mp ha'.2⟩, dif_neg ha]
    · rw [dif_neg hf, dif_neg hf]
      rfl
  | _ => rfl

lemma Swept.apply (h : Swept D now d d') (hu : u.Sweeping) (he : u.apply D now d = .ok (n, e))
    (he' : u.apply D now d' = .ok (n', e')) : Swept D now e e' := by
  refine ⟨⟨?_, ?_, ?_, ?_⟩, ?_⟩
  · rw [Write.accounts_apply he', Write.accounts_apply he, h.intact.accounts]
  · rw [Write.challenges_apply he', Write.challenges_apply he, h.intact.challenges]
  · rw [Write.blocks_apply he', Write.blocks_apply he, h.intact.blocks]
  all_goals
    rw [Write.chats_apply he', Write.chats_apply he]
  · cases u with
    | insertChat | updateLease | deleteChat => exact hu.elim
    | removeExpiredChats | deleteChatsBetween =>
      simp only [Write.chatRows]
      rw [List.filter_comm, h.intact.chats, List.filter_comm]
    | _ => exact h.intact.chats
  · cases u with
    | insertChat | updateLease | deleteChat => exact hu.elim
    | removeExpiredChats | deleteChatsBetween =>
      exact fun r hr => List.mem_filter.mpr
        ⟨h.subset (List.mem_of_mem_filter hr), (List.mem_filter.mp hr).2⟩
    | _ => exact h.subset

/-- After a clean-up of both there is no difference. -/
lemma Swept.sweep (h : Swept D now d d')
    (he : Write.removeExpiredChats.apply D now d = .ok (n, e))
    (he' : Write.removeExpiredChats.apply D now d' = .ok (n', e')) : e' = e := by
  have hs := h.apply (u := .removeExpiredChats) trivial he he'
  refine Db.ext hs.accounts hs.challenges hs.blocks (Relational.Table.ext ?_)
  rw [Write.chats_apply he', Write.chats_apply he]
  exact h.intact.chats

end swept

/-! ### Commands in both worlds -/

/-- The commands that satisfy `φ` respect a relation between databases at an instant: on related
ones their answers agree, and they leave related ones. -/
structure Respects (D : Deployment) (rel : ℤ → Db → Db → Prop) (φ : Command → Prop)
    (agree : (c : Command) → c.Ans → c.Ans → Prop) : Prop where
  refl : ∀ c x, agree c x x
  later : ∀ {now now' d d'}, rel now d d' → now ≤ now' → rel now' d d'
  select : ∀ {now d d' q}, rel now d d' → φ (.select q) → q.eval D now d' = q.eval D now d
  selectIn : ∀ {now d d' q}, rel now d d' → φ (.selectIn q) → q.eval D now d' = q.eval D now d
  execute : ∀ {now d d' u}, rel now d d' → φ (.execute u) →
    (∃ e, u.apply D now d = .error e ∧ u.apply D now d' = .error e) ∨
      ∃ x x', u.apply D now d = .ok x ∧ u.apply D now d' = .ok x' ∧
        agree (.execute u) (.ok x.1) (.ok x'.1) ∧ rel now x.2 x'.2
  executeIn : ∀ {now d d' u}, rel now d d' → φ (.executeIn u) →
    (∃ e, u.apply D now d = .error e ∧ u.apply D now d' = .error e) ∨
      ∃ x x', u.apply D now d = .ok x ∧ u.apply D now d' = .ok x' ∧
        agree (.executeIn u) (.ok x.1) (.ok x'.1) ∧ rel now x.2 x'.2

/-- Two worlds between operations. The second may be ahead of the first. -/
structure Alike (rel : ℤ → Db → Db → Prop) (w₁ w₂ : World) : Prop where
  db : rel w₂.clock w₁.db w₂.db
  idle₁ : w₁.writer = none
  idle₂ : w₂.writer = none
  limiter : w₂.limiter = w₁.limiter

/-- In the middle of an operation, which has number `i` in `w₁` and `j` in `w₂`. -/
structure Near (rel : ℤ → Db → Db → Prop) (i j : ℕ) (w₁ w₂ : World) : Prop where
  db : rel w₂.clock w₁.db w₂.db
  view : rel w₂.clock (w₁.view i) (w₂.view j)
  own₁ : ∀ x ∈ w₁.writer, x.1 = i
  own₂ : ∀ x ∈ w₂.writer, x.1 = j
  limiter : w₂.limiter = w₁.limiter

section near

variable {rel : ℤ → Db → Db → Prop} {φ : Command → Prop}
  {agree : (c : Command) → c.Ans → c.Ans → Prop} {i j : ℕ} {w₁ w₂ : World} {ch : Choice}

lemma World.view_hold {w : World} {d : Db} :
    ({ w with writer := some (i, d) } : World).view i = d := World.view_of_writer rfl

lemma Alike.near (h : Alike rel w₁ w₂) (i j : ℕ) : Near rel i j w₁ w₂ where
  db := h.db
  view := by rw [World.view_of_none h.idle₁, World.view_of_none h.idle₂]; exact h.db
  own₁ x hx := by simp [h.idle₁] at hx
  own₂ x hx := by simp [h.idle₂] at hx
  limiter := h.limiter

lemma Near.alike (h : Near rel i j w₁ w₂) (h₁ : w₁.writer = none) (h₂ : w₂.writer = none) :
    Alike rel w₁ w₂ := ⟨h.db, h₁, h₂, h.limiter⟩

lemma Near.tick (hr : Respects D rel φ agree) (h : Near rel i j w₁ w₂)
    (hle : w₂.clock ≤ ch.reading) : Near rel i j (w₁.tick ch) (w₂.tick ch) where
  db := hr.later h.db hle
  view := hr.later h.view hle
  own₁ := h.own₁
  own₂ := h.own₂
  limiter := h.limiter

/-- The end of a transaction. -/
lemma Near.release (h : Near rel i j w₁ w₂) {d₁ d₂ : Db} (hd : rel w₂.clock d₁ d₂) :
    Near rel i j { w₁.release i with db := d₁ } { w₂.release j with db := d₂ } := by
  have h₁ : (w₁.release i).writer = none := Option.eq_none_iff_forall_not_mem.mpr fun x hx =>
    absurd (h.own₁ x (Option.mem_filter_iff.mp hx).1)
      (of_decide_eq_true (Option.mem_filter_iff.mp hx).2)
  have h₂ : (w₂.release j).writer = none := Option.eq_none_iff_forall_not_mem.mpr fun x hx =>
    absurd (h.own₂ x (Option.mem_filter_iff.mp hx).1)
      (of_decide_eq_true (Option.mem_filter_iff.mp hx).2)
  have halike : Alike rel { w₁.release i with db := d₁ } { w₂.release j with db := d₂ } :=
    ⟨hd, h₁, h₂, h.limiter⟩
  exact halike.near i j

/-- A command that respects the relation is answered alike in both worlds. -/
theorem Near.step (hr : Respects D rel φ agree) (c : Command) (ch : Choice) (w₁ w₂ : World)
    (h : Near rel i j w₁ w₂) (hc : φ c) (hen₁ : c.enabled i ch w₁ = true)
    (hen₂ : c.enabled j ch w₂ = true) :
    agree c (c.exec D i ch w₁).1 (c.exec D j ch w₂).1 ∧
      Near rel i j (c.exec D i ch w₁).2 (c.exec D j ch w₂).2 := by
  have ht := h.tick hr (Command.clock_of_enabled hen₂)
  cases c with
  | select q =>
    have heval : q.eval D ch.reading w₂.db = q.eval D ch.reading w₁.db := hr.select ht.db hc
    refine ⟨?_, ht⟩
    simp only [Command.exec, heval]
    exact hr.refl _ _
  | selectIn q =>
    have heval : q.eval D ch.reading (w₂.view j) = q.eval D ch.reading (w₁.view i) :=
      hr.selectIn ht.view hc
    refine ⟨?_, ht⟩
    simp only [Command.exec, heval]
    exact hr.refl _ _
  | execute u =>
    by_cases hf : ch.fails = true
    · simp only [Command.exec, if_pos hf]
      exact ⟨hr.refl _ _, ht⟩
    simp only [Command.enabled, hf, Bool.false_or, Bool.and_eq_true,
      Option.isNone_iff_eq_none] at hen₁ hen₂
    have hd : rel ch.reading w₁.db w₂.db := ht.db
    rcases hr.execute hd hc with ⟨e, hu₁, hu₂⟩ | ⟨⟨n, d₁⟩, ⟨m, d₂⟩, hu₁, hu₂, hagree, hd⟩
    · simp only [Command.exec, if_neg hf, hu₁, hu₂]
      exact ⟨hr.refl _ _, ht⟩
    · have halike : Alike rel { w₁.tick ch with db := d₁ } { w₂.tick ch with db := d₂ } :=
        ⟨hd, hen₁.2, hen₂.2, h.limiter⟩
      simp only [Command.exec, if_neg hf, hu₁, hu₂]
      exact ⟨hagree, halike.near i j⟩
  | executeIn u =>
    by_cases hf : ch.fails = true
    · simp only [Command.exec, if_pos hf]
      exact ⟨hr.refl _ _, ht⟩
    have hd : rel ch.reading (w₁.view i) (w₂.view j) := ht.view
    rcases hr.executeIn hd hc with ⟨e, hu₁, hu₂⟩ | ⟨⟨n, d₁⟩, ⟨m, d₂⟩, hu₁, hu₂, hagree, hd⟩
    · simp only [Command.exec, if_neg hf, hu₁, hu₂]
      exact ⟨hr.refl _ _, ht⟩
    · simp only [Command.exec, if_neg hf, hu₁, hu₂]
      refine ⟨hagree, ht.db, ?_, ?_, ?_, ht.limiter⟩
      · rw [World.view_hold, World.view_hold]
        exact hd
      · rintro x ⟨⟩
        rfl
      · rintro x ⟨⟩
        rfl
  | begin => exact ⟨hr.refl _ _, ht⟩
  | commit =>
    by_cases hf : ch.fails = true
    · simp only [Command.exec, if_pos hf]
      exact ⟨hr.refl _ _, ht.release ht.db⟩
    · simp only [Command.exec, if_neg hf]
      exact ⟨hr.refl _ _, ht.release ht.view⟩
  | rollback => exact ⟨hr.refl _ _, ht.release ht.db⟩
  | now => exact ⟨hr.refl _ _, ht⟩
  | newUuid => exact ⟨hr.refl _ _, ht.db, ht.view, ht.own₁, ht.own₂, ht.limiter⟩
  | fillBytes => exact ⟨hr.refl _ _, ht⟩
  | check key limit window =>
    simp only [Command.exec, h.limiter]
    exact ⟨hr.refl _ _, ht.db, ht.view, ht.own₁, ht.own₂, rfl⟩

/-- A whole operation that is blind to what the relation leaves open. -/
theorem Alike.plays (hr : Respects D rel φ agree) (h : Alike rel w₁ w₂) {p : Program Response}
    (hp : p.Blind φ agree) {chs₁ chs₂ : List Choice} {r₁ r₂ : Response} {w₁' w₂' : World}
    (h₁ : (service D).Plays i p w₁ chs₁ r₁ w₁') (h₂ : (service D).Plays j p w₂ chs₂ r₂ w₂')
    (hchs : chs₁ <+: chs₂ ∨ chs₂ <+: chs₁) (hidle₁ : w₁'.writer = none)
    (hidle₂ : w₂'.writer = none) : r₂ = r₁ ∧ Alike rel w₁' w₂' := by
  obtain ⟨heq, hnear⟩ := h₁.lockstep
    (fun c ch w₁ w₂ (h : Near rel i j w₁ w₂) hc hen₁ hen₂ =>
      Near.step hr c ch w₁ w₂ h hc hen₁ hen₂) hp h₂ hchs (h.near i j)
  exact ⟨heq, hnear.alike hidle₁ hidle₂⟩

end near

/-! ### Equal databases, and databases that differ in expired requests -/

/-- Every command respects equality. -/
lemma respects_eq (D : Deployment) :
    Respects D (fun _ d d' => d' = d) (fun _ => True) fun _ x y => x = y where
  refl _ _ := rfl
  later h _ := h
  select h _ := by rw [h]
  selectIn h _ := by rw [h]
  execute {now d d' u} h _ := by
    subst h
    cases hu : u.apply D now d' with
    | error e => exact .inl ⟨e, rfl, rfl⟩
    | ok x => exact .inr ⟨x, x, rfl, rfl, rfl, rfl⟩
  executeIn {now d d' u} h _ := by
    subst h
    cases hu : u.apply D now d' with
    | error e => exact .inl ⟨e, rfl, rfl⟩
    | ok x => exact .inr ⟨x, x, rfl, rfl, rfl, rfl⟩

/-- The commands that expired requests make no difference to. -/
def Command.Sweeping : Command → Prop
  | .select q | .selectIn q => ¬ q.Finds
  | .execute u => u.Sweeping
  | .executeIn u => ∃ usedAt challengeId, u = .useChallenge usedAt challengeId
  | _ => True

/-- The answers are the same but for the number of affected rows. -/
def SameAnswer : (c : Command) → c.Ans → c.Ans → Prop
  | .execute _, x, y => x.map (fun _ => ()) = y.map fun _ => ()
  | _, x, y => x = y

lemma respects_swept (hmono : Monotone D.juliandayNow) :
    Respects D (Swept D) Command.Sweeping SameAnswer where
  refl c x := by cases c <;> rfl
  later h hle := h.later hmono hle
  select h hq := h.eval hq
  selectIn h hq := h.eval hq
  execute {now d d' u} h hu := by
    have hout := h.outcome hu
    cases hu₁ : u.apply D now d with
    | error e =>
      cases hu₂ : u.apply D now d' with
      | error e' =>
        rw [hu₁, hu₂] at hout
        cases hout
        exact .inl ⟨e, rfl, rfl⟩
      | ok x => rw [hu₁, hu₂] at hout; cases hout
    | ok x =>
      cases hu₂ : u.apply D now d' with
      | error e => rw [hu₁, hu₂] at hout; cases hout
      | ok x' => exact .inr ⟨x, x', rfl, rfl, rfl, h.apply hu hu₁ hu₂⟩
  executeIn {now d d' u} h hu := by
    obtain ⟨usedAt, challengeId, rfl⟩ := hu
    have hs : (Write.useChallenge usedAt challengeId).Sweeping := trivial
    refine .inr ⟨_, _, rfl, rfl, ?_, h.apply hs rfl rfl⟩
    simp only [SameAnswer, h.challenges]

/-! ### Operations that expired requests make no difference to -/

/-- Whatever the resolver does, expired requests make no difference to it. -/
abbrev Careless {α : Type} (x : Resolver α) : Prop := x.run.Blind Command.Sweeping SameAnswer

section careless

variable {α β : Type}

lemma careless_pure (a : α) : Careless (pure a) := trivial

lemma careless_fail (e : ApiError) : Careless (fail e : Resolver α) := trivial

lemma careless_bind {x : Resolver α} {f : α → Resolver β} (hx : Careless x)
    (hf : ∀ a, Careless (f a)) : Careless (x >>= f) := by
  refine Prog.Blind.bind hx fun r => ?_
  cases r with
  | error e => trivial
  | ok a => exact hf a

lemma careless_map {x : Resolver α} (hx : Careless x) (g : α → β) : Careless (g <$> x) :=
  Prog.Blind.bind hx fun r => by cases r <;> trivial

lemma careless_refuse (c : Prop) [Decidable c] (e : ApiError) : Careless (refuse c e) := by
  rw [refuse]
  split_ifs <;> trivial

lemma careless_orFail (x : Option α) (e : ApiError) : Careless (orFail x e) := by
  cases x <;> trivial

lemma careless_lift (x : Except ApiError α) : Careless (lift x) := trivial

lemma careless_addSeconds (t n : ℤ) : Careless (addSeconds t n) := by
  rw [addSeconds]
  cases DateTime.addSeconds t n <;> trivial

lemma careless_fetch {q : Select} (hq : ¬ q.Finds) : Careless (fetch q) :=
  ⟨hq, fun _ _ h => by cases h; rfl, fun _ => trivial⟩

lemma careless_fetchIn {q : Select} (hq : ¬ q.Finds) : Careless (fetchIn q) :=
  ⟨hq, fun _ _ h => by cases h; rfl, fun _ => trivial⟩

lemma careless_executeIn (usedAt challengeId : Text) :
    Careless (executeIn (.useChallenge usedAt challengeId)) :=
  ⟨⟨usedAt, challengeId, rfl⟩, fun _ _ h => by cases h; rfl, fun _ => trivial⟩

/-- The number of affected rows is not looked at. -/
lemma careless_execute {u : Write} {f : Resolver β} (hu : u.Sweeping) (hf : Careless f) :
    Careless (Resolver.execute u >>= fun _ => f) := by
  refine ⟨hu, fun x y hxy => ?_, fun x => ?_⟩
  · cases x <;> cases y <;> first | rfl | cases hxy
  · cases x with
    | error e => trivial
    | ok n => exact hf

lemma careless_attempt {u : Write} {f : Except SqlError ℕ → Resolver β} (hu : u.Sweeping)
    (hcount : ∀ n m, f (.ok n) = f (.ok m)) (hf : ∀ x, Careless (f x)) :
    Careless (attempt u >>= f) := by
  refine ⟨hu, fun x y hxy => ?_, fun x => hf x⟩
  cases x with
  | error e =>
    cases y with
    | error e' => cases hxy; rfl
    | ok m => cases hxy
  | ok n =>
    cases y with
    | error e => cases hxy
    | ok m => exact congrArg ExceptT.run (hcount n m)

lemma careless_now : Careless now := ⟨trivial, fun _ _ h => by cases h; rfl, fun _ => trivial⟩

lemma careless_newUuid : Careless newUuid :=
  ⟨trivial, fun _ _ h => by cases h; rfl, fun _ => trivial⟩

lemma careless_fillBytes : Careless fillBytes :=
  ⟨trivial, fun _ _ h => by cases h; rfl, fun _ => trivial⟩

lemma careless_enforce (ctx : Context) (scope : Text) (limit : ℕ) :
    Careless (enforce ctx scope limit) :=
  ⟨trivial, fun x y h => by cases h; rfl, fun _ => trivial⟩

lemma careless_transaction {body : Resolver Unit} (hbody : Careless body) :
    Careless (transaction body) := by
  refine ⟨trivial, fun x y h => by cases h; rfl, fun x => ?_⟩
  cases x with
  | error e => trivial
  | ok _ =>
    refine Prog.Blind.bind hbody fun r => ?_
    cases r with
    | error e => exact ⟨trivial, fun _ _ h => by cases h; rfl, fun _ => trivial⟩
    | ok _ => exact ⟨trivial, fun _ _ h => by cases h; rfl, fun _ => trivial⟩

end careless

/-- The operations that look for a request. -/
def Op.Finds : Op → Prop
  | .sendLiveChatRequest .. | .renewLiveChatRequest .. | .cancelLiveChatRequest ..
  | .liveChatRequests .. => True
  | _ => False

lemma careless_findAccount (column value : Text) : Careless (findAccount column value) := by
  rw [findAccount]
  split_ifs
  · exact careless_bind (careless_fetch (by simp [Select.Finds])) fun _ => careless_lift _
  · exact careless_bind (careless_fetch (by simp [Select.Finds])) fun _ => careless_lift _
  · exact careless_fail _

lemma Op.careless {op : Op} (h : ¬ op.Finds) :
    (op.program D).Blind Command.Sweeping SameAnswer := by
  cases op with
  | sendLiveChatRequest | renewLiveChatRequest | cancelLiveChatRequest | liveChatRequests =>
    exact absurd trivial h
  | registerAccount ctx input =>
    refine careless_map (careless_bind (careless_enforce ..) fun _ => ?_) _
    refine careless_bind (careless_lift _) fun _ => ?_
    refine careless_bind (careless_orFail ..) fun _ => ?_
    refine careless_bind (careless_refuse ..) fun _ => ?_
    refine careless_bind (careless_refuse ..) fun _ => ?_
    refine careless_bind careless_now fun _ => ?_
    refine careless_attempt trivial (fun _ _ => rfl) fun x => ?_
    rcases x with (_ | _ | _) | n <;> trivial
  | requestChallenge ctx accountId =>
    refine careless_map (careless_bind (careless_enforce ..) fun _ => ?_) _
    refine careless_bind (careless_fetch (by simp [Select.Finds])) fun _ => ?_
    refine careless_bind (careless_refuse ..) fun _ => ?_
    refine careless_bind careless_newUuid fun _ => ?_
    refine careless_bind careless_fillBytes fun _ => ?_
    refine careless_bind careless_now fun _ => ?_
    refine careless_bind (careless_addSeconds ..) fun _ => ?_
    exact careless_execute trivial (careless_pure _)
  | authenticate ctx input =>
    refine careless_map (careless_bind (careless_enforce ..) fun _ => ?_) _
    refine careless_bind (careless_transaction ?_) fun _ => ?_
    · refine careless_bind (careless_fetchIn (by simp [Select.Finds])) fun _ => ?_
      refine careless_bind (careless_orFail ..) fun _ => ?_
      refine careless_bind (careless_orFail ..) fun _ => ?_
      refine careless_bind careless_now fun _ => ?_
      refine careless_bind (careless_refuse ..) fun _ => ?_
      refine careless_bind (careless_lift _) fun _ => ?_
      refine careless_bind careless_now fun _ => ?_
      exact careless_bind (careless_executeIn ..) fun _ => careless_refuse ..
    · refine careless_bind careless_now fun _ => ?_
      refine careless_bind (careless_addSeconds ..) fun _ => ?_
      exact careless_bind (careless_orFail ..) fun _ => careless_pure _
  | blockIdentity ctx input =>
    refine careless_map (careless_bind (careless_orFail ..) fun _ => ?_) _
    refine careless_bind (careless_lift _) fun _ => ?_
    refine careless_bind (careless_fetch (by simp [Select.Finds])) fun _ => ?_
    refine careless_bind (careless_orFail ..) fun _ => ?_
    refine careless_bind (careless_refuse ..) fun _ => ?_
    refine careless_bind careless_now fun _ => ?_
    refine careless_execute trivial (careless_execute trivial ?_)
    refine careless_bind (careless_fetch (by simp [Select.Finds])) fun _ => ?_
    refine careless_bind (careless_orFail ..) fun _ => ?_
    exact careless_bind (careless_lift _) fun _ => careless_pure _
  | unblockIdentity ctx input =>
    refine careless_map (careless_bind (careless_orFail ..) fun _ => ?_) _
    exact careless_execute trivial (careless_pure _)
  | isIdentittyAvailable value =>
    refine careless_map (careless_bind (careless_lift _) fun _ => ?_) _
    exact careless_bind (careless_fetch (by simp [Select.Finds])) fun _ => careless_pure _
  | account value =>
    exact careless_map (careless_bind (careless_lift _) fun _ => careless_findAccount ..) _
  | accountById accountId => exact careless_map (careless_findAccount ..) _
  | me ctx =>
    exact careless_map (careless_bind (careless_orFail ..) fun _ => careless_findAccount ..) _
  | blockedIdentities ctx =>
    refine careless_map (careless_bind (careless_orFail ..) fun _ => ?_) _
    exact careless_bind (careless_fetch (by simp [Select.Finds])) fun _ => careless_lift _
  | cleanupTick =>
    refine careless_map ?_ _
    exact careless_attempt (u := .removeExpiredChats) trivial (fun _ _ => rfl) fun _ =>
      careless_pure _
  | startup =>
    refine careless_map (careless_execute (u := .removeExpiredChallenges) trivial ?_) _
    exact careless_execute (u := .removeExpiredChats) trivial (careless_pure _)

/-! ### Operations that sweep first -/

/-- A program that sweeps and then goes on as `p`. -/
def sweepThen (p : Program Response) : Program Response :=
  .call (.execute .removeExpiredChats) fun
    | .ok _ => p
    | .error _ => .ret (.error (.api .internal))

/-- An operation that looks for a request either cancels one, or sweeps first if it issues any
command at all. -/
lemma Op.sweeps {op : Op} (h : op.Finds) : (∃ ctx input, op = .cancelLiveChatRequest ctx input) ∨
    (∃ r, op.program D = .ret r) ∨ ∃ p, op.program D = sweepThen p := by
  have hsweep : ∀ {α : Type} (f : α → Answer) (x : Resolver α),
      ∃ p, (f <$> (Resolver.execute .removeExpiredChats >>= fun _ => x) : Resolver Answer).run =
        sweepThen p := by
    intro α f x
    refine ⟨(f <$> x : Resolver Answer).run, ?_⟩
    refine congrArg (Prog.call _) (funext fun x => ?_)
    cases x <;> rfl
  cases op with
  | cancelLiveChatRequest ctx input => exact .inl ⟨ctx, input, rfl⟩
  | sendLiveChatRequest ctx input =>
    refine .inr ?_
    simp only [Op.program, Op.resolver, TittyBackend.sendLiveChatRequest, authenticated]
    cases ctx.account with
    | none => exact .inl ⟨_, rfl⟩
    | some sender =>
      cases decodePayload input.encryptedPayload with
      | error e => exact .inl ⟨_, rfl⟩
      | ok payload =>
        cases normaliseIdentitty input.recipientIdentitty with
        | error e => exact .inl ⟨_, rfl⟩
        | ok identitty => exact .inr (hsweep .submission _)
  | renewLiveChatRequest ctx input =>
    refine .inr ?_
    simp only [Op.program, Op.resolver, TittyBackend.renewLiveChatRequest, authenticated]
    cases ctx.account with
    | none => exact .inl ⟨_, rfl⟩
    | some sender => exact .inr (hsweep .lease _)
  | liveChatRequests ctx =>
    refine .inr ?_
    simp only [Op.program, Op.resolver, TittyBackend.liveChatRequests, authenticated]
    cases ctx.account with
    | none => exact .inl ⟨_, rfl⟩
    | some account => exact .inr (hsweep .requests _)
  | _ => exact h.elim

lemma swept_of_eq {now : ℤ} {d d' : Db} (h : d' = d) : Swept D now d d' := by
  rw [h]
  exact .refl now d

/-- After the clean-up the databases are the same. -/
lemma plays_sweepThen (hmono : Monotone D.juliandayNow) {p : Program Response} {i j : ℕ}
    {w₁ w₂ w₁' w₂' : World} {chs₁ chs₂ : List Choice} {r₁ r₂ : Response}
    (h : Alike (Swept D) w₁ w₂) (h₁ : (service D).Plays i (sweepThen p) w₁ chs₁ r₁ w₁')
    (h₂ : (service D).Plays j (sweepThen p) w₂ chs₂ r₂ w₂') (hchs : chs₁ <+: chs₂ ∨ chs₂ <+: chs₁)
    (hidle₁ : w₁'.writer = none) (hidle₂ : w₂'.writer = none) :
    r₂ = r₁ ∧ Alike (Swept D) w₁' w₂' := by
  obtain ⟨ch, chs₁, rfl, hen₁, h₁⟩ := plays_call.mp h₁
  obtain ⟨ch', chs₂, rfl, hen₂, h₂⟩ := plays_call.mp h₂
  obtain ⟨rfl, hrest⟩ := agree_cons hchs
  have hen : Command.enabled j (.execute .removeExpiredChats) ch' w₂ = true := hen₂
  have hle := Command.clock_of_enabled hen
  have hexec : ∀ k w, (service D).exec k (.execute .removeExpiredChats) ch' w =
      if ch'.fails then (.error .failed, w.tick ch')
      else (.ok _, { w.tick ch' with
        db := w.db.deleteChats (ChatRecord.Expired D ch'.reading) }) := fun _ _ => rfl
  rw [hexec] at h₁ h₂
  by_cases hf : ch'.fails = true
  · simp only [if_pos hf] at h₁ h₂
    obtain ⟨-, rfl, rfl⟩ := plays_ret.mp h₁
    obtain ⟨-, rfl, rfl⟩ := plays_ret.mp h₂
    exact ⟨rfl, h.db.later hmono hle, h.idle₁, h.idle₂, h.limiter⟩
  · simp only [if_neg hf] at h₁ h₂
    have hsame := (h.db.later hmono hle).sweep rfl rfl
    have halike : Alike (fun _ d d' => d' = d)
        { w₁.tick ch' with db := w₁.db.deleteChats (ChatRecord.Expired D ch'.reading) }
        { w₂.tick ch' with db := w₂.db.deleteChats (ChatRecord.Expired D ch'.reading) } :=
      ⟨hsame, h.idle₁, h.idle₂, h.limiter⟩
    obtain ⟨heq, hend⟩ := halike.plays (respects_eq D) (Prog.blind_eq p) h₁ h₂ hrest hidle₁ hidle₂
    exact ⟨heq, swept_of_eq hend.db, hidle₁, hidle₂, hend.limiter⟩

/-! ### Cancellations -/

section presented

variable {now : ℤ} {d d' : Db} {input : CancelLiveChatRequestInput} {r : ChatRecord}

lemma Db.presented_eq_some : d.presented input = some r ↔ r ∈ d.chats.rows ∧
    r.requestId = input.requestId.toText ∧ r.leaseId = input.leaseId.toText := by
  constructor
  · intro h
    have hp := List.find?_some h
    exact ⟨List.mem_of_find?_eq_some h, of_decide_eq_true hp⟩
  · rintro ⟨hr, hp⟩
    refine d.chats.find?_eq_some hr (decide_eq_true hp) fun r' h => .inl ?_
    exact (of_decide_eq_true h).1.trans hp.1.symm

lemma Swept.presented (h : Swept D now d d') (hr : d'.presented input = some r) :
    d.presented input = some r := by
  rw [Db.presented_eq_some] at hr ⊢
  exact ⟨h.subset hr.1, hr.2⟩

/-- A cancellation may delete a request that a clean-up has deleted before. -/
lemma Swept.delete (h : Swept D now d d') (hr : d'.presented input = none) {now' : ℤ} {n : ℕ}
    {e : Db} (hu : (Write.deleteChat input.requestId.toText input.leaseId.toText).apply D now' d =
      .ok (n, e)) : Swept D now e d' := by
  have hgone : ∀ r ∈ d.chats.rows, r.requestId = input.requestId.toText ∧
      r.leaseId = input.leaseId.toText → r ∉ d'.chats.rows := fun r _ hp hr' => by
    have hsome := Db.presented_eq_some.mpr ⟨hr', hp⟩
    rw [hr] at hsome
    cases hsome
  refine ⟨⟨?_, ?_, ?_, ?_⟩, fun r hr' => ?_⟩
  · rw [Write.accounts_apply hu, h.accounts]
    rfl
  · rw [Write.challenges_apply hu, h.challenges]
    rfl
  · rw [Write.blocks_apply hu, h.blocks]
    rfl
  · rw [h.intact.chats, Write.chats_apply hu, Write.chatRows, List.filter_filter]
    refine List.filter_congr fun r hr' => ?_
    by_cases hp : r.requestId = input.requestId.toText ∧ r.leaseId = input.leaseId.toText
    · simp [h.expired hr' (hgone r hr' hp)]
    · simp [hp]
  · rw [Write.chats_apply hu, Write.chatRows]
    refine List.mem_filter.mpr ⟨h.subset hr', decide_eq_true fun hp => ?_⟩
    exact hgone r (h.subset hr') hp hr'

lemma Swept.delete_both (h : Swept D now d d') {requestId leaseId : Text} {now₁ now₂ : ℤ}
    {n n' : ℕ} {e e' : Db} (hu : (Write.deleteChat requestId leaseId).apply D now₁ d = .ok (n, e))
    (hu' : (Write.deleteChat requestId leaseId).apply D now₂ d' = .ok (n', e')) :
    Swept D now e e' := by
  refine ⟨⟨?_, ?_, ?_, ?_⟩, fun r hr => ?_⟩
  · rw [Write.accounts_apply hu', Write.accounts_apply hu, h.accounts]
  · rw [Write.challenges_apply hu', Write.challenges_apply hu, h.challenges]
    rfl
  · rw [Write.blocks_apply hu', Write.blocks_apply hu, h.blocks]
  · rw [Write.chats_apply hu', Write.chats_apply hu, Write.chatRows, Write.chatRows,
      List.filter_comm, h.intact.chats, List.filter_comm]
  · rw [Write.chats_apply hu', Write.chatRows] at hr
    rw [Write.chats_apply hu, Write.chatRows]
    exact List.mem_filter.mpr ⟨h.subset (List.mem_of_mem_filter hr), (List.mem_filter.mp hr).2⟩

end presented

/-- The operation is a cancellation with the ids of somebody else's request. -/
def Op.CancelsForeign (d : Db) : Op → Prop
  | .cancelLiveChatRequest ctx input =>
    ∃ r, d.presented input = some r ∧ ctx.account ≠ some r.senderAccountId
  | _ => False

/-- The turn is a cancellation that failed because a statement did. -/
def CancelFails (t : ServiceTurn) : Prop :=
  (∃ ctx input, t.op = .cancelLiveChatRequest ctx input) ∧
    t.response = .error (.api .internal) ∧ ∃ ch ∈ t.choices, ch.fails = true

/-- Choices that agree do not differ in whether a statement fails. -/
lemma agree_absurd {p : Prop} {c₁ c₂ : Choice} {chs₁ chs₂ : List Choice} {b : Bool}
    (hchs : c₁ :: chs₁ <+: c₂ :: chs₂ ∨ c₂ :: chs₂ <+: c₁ :: chs₁) (h₁ : c₁.fails = b)
    (h₂ : c₂.fails = !b) : p := by
  obtain ⟨rfl, -⟩ := agree_cons hchs
  rw [h₁] at h₂
  exact absurd h₂.symm (Bool.not_ne_self b)

lemma plays_cancel (hmono : Monotone D.juliandayNow) {ctx : Context}
    {input : CancelLiveChatRequestInput} {i j : ℕ} {w₁ w₂ w₁' w₂' : World}
    {chs₁ chs₂ : List Choice} {r₁ r₂ : Response} {restarted : Bool} (h : Alike (Swept D) w₁ w₂)
    (h₁ : (service D).Plays i (Op.program D (.cancelLiveChatRequest ctx input)) w₁ chs₁ r₁ w₁')
    (h₂ : (service D).Plays j (Op.program D (.cancelLiveChatRequest ctx input)) w₂ chs₂ r₂ w₂')
    (hchs : chs₁ <+: chs₂ ∨ chs₂ <+: chs₁) : Alike (Swept D) w₁' w₂' ∧ (r₂ = r₁ ∨
      Op.CancelsForeign w₁.db (.cancelLiveChatRequest ctx input) ∨
      CancelFails ⟨restarted, .cancelLiveChatRequest ctx input, chs₁, r₁⟩) := by
  cases hacc : ctx.account with
  | none =>
    have hp : Op.program D (.cancelLiveChatRequest ctx input) =
        .ret (.error (.api .unauthorized)) := by
      simp only [Op.program, Op.resolver, cancelLiveChatRequest, authenticated, hacc]
      rfl
    rw [hp] at h₁ h₂
    obtain ⟨-, rfl, rfl⟩ := plays_ret.mp h₁
    obtain ⟨-, rfl, rfl⟩ := plays_ret.mp h₂
    exact ⟨h, .inl rfl⟩
  | some sender =>
    have hle := clock_of_plays h₂
    have s₁ := cancelStep_of_plays hacc h₁
    have s₂ := cancelStep_of_plays hacc h₂
    have hdb := h.db.later hmono hle
    cases s₂ with
    | failed hf₂ =>
      cases s₁ with
      | failed => exact ⟨⟨hdb, h.idle₁, h.idle₂, h.limiter⟩, .inl rfl⟩
      | absent hf | foreign hf | busy hf | deleted hf =>
        exact agree_absurd hchs hf hf₂
    | absent hf₂ hr₂ =>
      cases s₁ with
      | failed hf => exact agree_absurd hchs hf hf₂
      | absent => exact ⟨⟨hdb, h.idle₁, h.idle₂, h.limiter⟩, .inl rfl⟩
      | foreign hf hr hne =>
        refine ⟨⟨hdb, h.idle₁, h.idle₂, h.limiter⟩, .inr (.inl ⟨_, hr, fun heq => ?_⟩)⟩
        rw [hacc] at heq
        exact hne (Option.some.inj heq).symm
      | busy hf hr hs hf₁ =>
        refine ⟨⟨hdb, h.idle₁, h.idle₂, h.limiter⟩, .inr (.inr ⟨⟨ctx, input, rfl⟩, rfl, ?_⟩)⟩
        exact ⟨_, List.mem_cons_of_mem _ List.mem_cons_self, hf₁⟩
      | deleted hf hr hs hf₁ hu =>
        exact ⟨⟨hdb.delete hr₂ hu, h.idle₁, h.idle₂, h.limiter⟩, .inl rfl⟩
    | foreign hf₂ hr₂ hne =>
      have hr₁ := h.db.presented hr₂
      cases s₁ with
      | failed hf => exact agree_absurd hchs hf hf₂
      | absent hf hr => cases hr.symm.trans hr₁
      | foreign => exact ⟨⟨hdb, h.idle₁, h.idle₂, h.limiter⟩, .inl rfl⟩
      | busy hf hr hs | deleted hf hr hs =>
        obtain rfl := Option.some.inj (hr.symm.trans hr₁)
        exact absurd hs hne
    | busy hf₂ hr₂ hs₂ hf₃ =>
      have hr₁ := h.db.presented hr₂
      cases s₁ with
      | failed hf => exact agree_absurd hchs hf hf₂
      | absent hf hr => cases hr.symm.trans hr₁
      | foreign hf hr hne =>
        obtain rfl := Option.some.inj (hr.symm.trans hr₁)
        exact absurd hs₂ hne
      | busy => exact ⟨⟨hdb, h.idle₁, h.idle₂, h.limiter⟩, .inl rfl⟩
      | deleted hf hr hs hf₁ =>
        exact agree_absurd (agree_cons hchs).2 hf₁ hf₃
    | deleted hf₂ hr₂ hs₂ hf₃ hu₂ =>
      have hr₁ := h.db.presented hr₂
      cases s₁ with
      | failed hf => exact agree_absurd hchs hf hf₂
      | absent hf hr => cases hr.symm.trans hr₁
      | foreign hf hr hne =>
        obtain rfl := Option.some.inj (hr.symm.trans hr₁)
        exact absurd hs₂ hne
      | busy hf hr hs hf₁ =>
        exact agree_absurd (agree_cons hchs).2 hf₁ hf₃
      | deleted hf hr hs hf₁ hu =>
        exact ⟨⟨hdb.delete_both hu hu₂, h.idle₁, h.idle₂, h.limiter⟩, .inl rfl⟩

/-! ### Runs with and without clean-ups -/

/-- The same operation, under the same choices as far as both go. -/
structure SameTurn (t u : ServiceTurn) : Prop where
  op : u.op = t.op
  restarted : u.restarted = t.restarted
  choices : t.choices <+: u.choices ∨ u.choices <+: t.choices

/-- One operation in both runs. -/
theorem Alike.turn (hmono : Monotone D.juliandayNow) {t u : ServiceTurn} {i j : ℕ}
    {w₁ w₂ w₁' w₂' : World} (h : Alike (Swept D) w₁ w₂) (hsame : SameTurn t u)
    (h₁ : (service D).Plays i (t.op.program D) w₁ t.choices t.response w₁')
    (h₂ : (service D).Plays j (u.op.program D) w₂ u.choices u.response w₂') :
    Alike (Swept D) w₁' w₂' ∧
      (u.response = t.response ∨ t.op.CancelsForeign w₁.db ∨ CancelFails t) := by
  obtain ⟨hop, -, hchs⟩ := hsame
  rw [hop] at h₂
  have hidle₁ := writer_of_plays h₁ h.idle₁
  have hidle₂ := writer_of_plays h₂ h.idle₂
  by_cases hfinds : t.op.Finds
  · rcases Op.sweeps (D := D) hfinds with ⟨ctx, input, hc⟩ | ⟨r, hp⟩ | ⟨p, hp⟩
    · obtain ⟨restarted, op, chs, r⟩ := t
      obtain rfl : op = .cancelLiveChatRequest ctx input := hc
      exact plays_cancel hmono h h₁ h₂ hchs
    · rw [hp] at h₁ h₂
      obtain ⟨-, hr₁, rfl⟩ := plays_ret.mp h₁
      obtain ⟨-, hr₂, rfl⟩ := plays_ret.mp h₂
      exact ⟨h, .inl (hr₂.trans hr₁.symm)⟩
    · rw [hp] at h₁ h₂
      obtain ⟨hr, halike⟩ := plays_sweepThen hmono h h₁ h₂ hchs hidle₁ hidle₂
      exact ⟨halike, .inl hr⟩
  · obtain ⟨hr, halike⟩ := h.plays (respects_swept hmono) (Op.careless hfinds) h₁ h₂ hchs
      hidle₁ hidle₂
    exact ⟨halike, .inl hr⟩

lemma Alike.reset {w₁ w₂ : World} (h : Alike (Swept D) w₁ w₂) (restarted : Bool) :
    Alike (Swept D) (if restarted then w₁.reset else w₁) (if restarted then w₂.reset else w₂) := by
  split_ifs
  · exact ⟨h.db, rfl, rfl, rfl⟩
  · exact h

/-- A clean-up in the second run. -/
lemma Alike.sweep (hmono : Monotone D.juliandayNow) {j : ℕ} {w₁ w₂ w₂' : World}
    {chs : List Choice} {r : Response} (h : Alike (Swept D) w₁ w₂)
    (hp : (service D).Plays j (Op.program D .cleanupTick) w₂ chs r w₂') :
    Alike (Swept D) w₁ w₂' := by
  have hle := clock_of_plays hp
  have hidle := writer_of_plays hp h.idle₂
  obtain ⟨ch, chs', rfl, hen, hp⟩ := plays_call.mp hp
  have hexec : (service D).exec j (.execute .removeExpiredChats) ch w₂ =
      if ch.fails then (.error .failed, w₂.tick ch)
      else (.ok _, { w₂.tick ch with
        db := w₂.db.deleteChats (ChatRecord.Expired D ch.reading) }) := rfl
  rw [hexec] at hp
  by_cases hf : ch.fails = true
  · simp only [if_pos hf] at hp
    obtain ⟨-, -, rfl⟩ := plays_ret.mp hp
    exact ⟨h.db.later hmono hle, h.idle₁, hidle, h.limiter⟩
  · simp only [if_neg hf] at hp
    obtain ⟨-, -, rfl⟩ := plays_ret.mp hp
    refine ⟨⟨?_, ?_⟩, h.idle₁, hidle, h.limiter⟩
    · exact (h.db.later hmono hle).intact.sweep hmono le_rfl (n := _) rfl
    · exact fun r hr => h.db.subset (List.mem_of_mem_filter hr)

/-- A stored request that has not expired. -/
def Db.Live (D : Deployment) (now : ℤ) (d : Db) (r : ChatRecord) : Prop :=
  r ∈ d.chats.rows ∧ r.Expired D now = false

/-- What the answer of a send stems from. -/
structure SendAnswer (D : Deployment) (now : ℤ) (d : Db) (sender : Text) (clientRequestId : Uuid)
    (r : Response) (chs : List Choice) : Prop where
  submission : ∀ x, r = .ok (.submission x) → (∃ ch ∈ chs, x.requestId = ch.uuid) ∨
    ∃ row, d.Live D now row ∧ row.senderAccountId = sender ∧
      row.clientRequestId = clientRequestId.toText ∧ Uuid.parse row.requestId = some x.requestId
  limit : r = .error (.api .activeRequestLimit) →
    25 ≤ d.chats.rows.countP fun row => row.senderAccountId = sender ∧ row.Expired D now = false
  internal : r = .error (.api .internal) → (∃ ch ∈ chs, ch.fails = true) ∨
    ∃ row, d.Live D now row ∧
      (row.senderAccountId = sender ∧ row.clientRequestId = clientRequestId.toText ∨
        ∃ ch ∈ chs, row.requestId = ch.uuid.toText ∨ row.leaseId = ch.uuid.toText)

section send

variable {w : World} {now : ℤ} {sender : Text} {clientRequestId : Uuid} {chs : List Choice}

lemma SendAnswer.fails (h : ∃ ch ∈ chs, ch.fails = true) :
    SendAnswer D now w.db sender clientRequestId (.error (.api .internal)) chs where
  submission := by rintro x ⟨⟩
  limit := by rintro ⟨⟩
  internal _ := .inl h

lemma SendAnswer.clash {row : ChatRecord} (hrow : w.db.Live D now row)
    (h : row.senderAccountId = sender ∧ row.clientRequestId = clientRequestId.toText ∨
      ∃ ch ∈ chs, row.requestId = ch.uuid.toText ∨ row.leaseId = ch.uuid.toText) :
    SendAnswer D now w.db sender clientRequestId (.error (.api .internal)) chs where
  submission := by rintro x ⟨⟩
  limit := by rintro ⟨⟩
  internal _ := .inr ⟨row, hrow, h⟩

lemma SendAnswer.refused {e : Failure} (hlimit : e ≠ .api .activeRequestLimit)
    (hinternal : e ≠ .api .internal) :
    SendAnswer D now w.db sender clientRequestId (.error e) chs where
  submission := by rintro x ⟨⟩
  limit h := absurd (Except.error.inj h) hlimit
  internal h := absurd (Except.error.inj h) hinternal

lemma SendAnswer.drawn {x : LiveChatRequestSubmission} (h : ∃ ch ∈ chs, x.requestId = ch.uuid) :
    SendAnswer D now w.db sender clientRequestId (.ok (.submission x)) chs where
  submission := by
    rintro _ ⟨⟩
    exact .inl h
  limit := by rintro ⟨⟩
  internal := by rintro ⟨⟩

/-- The part of a send after the look-up, on a database in which every request is live. -/
lemma SubmitStep.answer {i : ℕ} {w₁ : World} {cs : List Choice} {publicKey payload : List UInt8}
    {identitty : Text} {r : Response} {x : World × List Choice}
    (h : SubmitStep D i w₁ cs sender publicKey payload identitty clientRequestId r x)
    (hsub : w₁.db.chats.rows.Sublist w.db.chats.rows)
    (hlive : ∀ row ∈ w₁.db.chats.rows, w.db.Live D now row) :
    SendAnswer D now w.db sender clientRequestId r x.2 := by
  cases h with
  | failed _ hf => exact .fails ⟨_, by simp, hf⟩
  | @full c₀ _ hcount =>
    have hactive : 25 ≤ w₁.db.chats.rows.countP fun r =>
      r.senderAccountId = sender ∧ r.Active D c₀.reading := hcount
    have hle : w₁.db.chats.rows.countP
          (fun r => r.senderAccountId = sender ∧ r.Active D c₀.reading) ≤
        w₁.db.chats.rows.countP fun r => r.senderAccountId = sender ∧ r.Expired D now = false :=
      List.countP_mono_left fun r hr h => by
        simp only [decide_eq_true_eq] at h ⊢
        exact ⟨h.1, (hlive r hr).2⟩
    exact ⟨by rintro x ⟨⟩, fun _ => (hactive.trans hle).trans hsub.countP_le, by rintro ⟨⟩⟩
  | panic => exact .refused (by simp) (by simp)
  | @hidden c₀ c₁ c₂ c₃ => exact .drawn ⟨c₂, by simp, rfl⟩
  | @clash c₀ c₁ c₂ c₃ cs lease hard w₂ row _ hrow hid =>
    refine .clash (hlive row hrow) (.inr ?_)
    rcases hid with hid | hid
    · exact ⟨c₂, by simp, .inl hid⟩
    · exact ⟨c₃, by simp, .inr hid⟩
  | @stored c₀ c₁ c₂ c₃ => exact .drawn ⟨c₂, by simp, rfl⟩

end send

namespace Known

/-- Ada sends Bob a request at the instant `t` and draws `n` for its id. -/
def sendTurn (t : ℤ) (n : ℕ) : ServiceTurn where
  restarted := false
  op := .sendLiveChatRequest (session ada) ⟨"bob".toList, ⟨7⟩, "AA==".toList⟩
  choices := [fine t ⟨0⟩, fine t ⟨0⟩, fine t ⟨0⟩, fine t ⟨0⟩, fine t ⟨0⟩,
    fine t ⟨.ofNat 128 n⟩, fine t ⟨.ofNat 128 (n + 1)⟩, fine t ⟨0⟩, fine t ⟨0⟩, fine t ⟨0⟩]
  response := .ok (.submission
    ⟨⟨.ofNat 128 n⟩, true, ⟨.ofNat 128 (n + 1)⟩, t + DateTime.seconds 90⟩)

end Known

end TittyBackend
