import TittyBackend.Effect

/-!
# Where every row comes from

From the empty database on, every row was stored by an operation in the log, with the values that
its script gives it, and every UUID in it was drawn by that operation. The write lock is held by
a login between its update and its commit.
-/

namespace TittyBackend

open Numerals Programs Programs.System

variable (D : Deployment)

/-! ### Stored by an operation of the log -/

def RegisteredIn (l : Log) (r : AccountRow) : Prop :=
  ∃ j ctx input t, .call j (.registerAccount ctx input) ∈ l ∧ Registers D input r t ∧
    .exec j ⟨.now, t⟩ ∈ l ∧ .exec j ⟨.execute (.insertAccount r), .ok 1⟩ ∈ l

/-- Operation `j` requested the challenge `u` for the account and stored it with these bytes,
valid until `e`. -/
structure IssuedIn (l : Log) (j : ℕ) (accountId : Text) (u : Uuid) (bytes : Bytes) (e : ℤ) :
    Prop where
  call : ∃ ctx, .call j (.requestChallenge ctx accountId) ∈ l
  draw : .exec j ⟨.newUuid, u⟩ ∈ l
  fill : .exec j ⟨.fillBytes, bytes⟩ ∈ l
  ends : ∃ t, .exec j ⟨.now, t⟩ ∈ l ∧ DateTime.addSeconds t D.challengeTtlSeconds = some e
  insert : .exec j ⟨.execute
    (.insertChallenge u.toText accountId bytes.toList (toRfc3339 e)), .ok 1⟩ ∈ l

/-- Operation `j` stored the request `r`, with its ids drawn and its clock read at `t`. -/
structure SentIn (l : Log) (r : ChatRecord) (j : ℕ) (requestId leaseId : Uuid) (t : ℤ) : Prop where
  script : ∃ ctx input identitty, .call j (.sendLiveChatRequest ctx input) ∈ l ∧
    Sending ctx input r requestId leaseId t identitty
  key : .exec j ⟨.select (.publicKey r.senderAccountId), .ok (some r.senderPublicKey)⟩ ∈ l
  drawRequest : .exec j ⟨.newUuid, requestId⟩ ∈ l
  drawLease : .exec j ⟨.newUuid, leaseId⟩ ∈ l
  read : .exec j ⟨.now, t⟩ ∈ l
  insert : .exec j ⟨.execute (.insertChat r), .ok 1⟩ ∈ l

def BlockedIn (l : Log) (b : BlockRecord) : Prop :=
  ∃ j ctx input identitty target t, .call j (.blockIdentity ctx input) ∈ l ∧
    Blocking ctx input b.blockerAccountId identitty target ∧
    b = ⟨b.blockerAccountId, target.accountId, toRfc3339 t⟩ ∧ .exec j ⟨.now, t⟩ ∈ l

section mono

variable {D} {l l' : Log} (hl : l ⊆ l')

include hl

lemma RegisteredIn.mono {r : AccountRow} (h : RegisteredIn D l r) : RegisteredIn D l' r := by
  obtain ⟨j, ctx, input, t, hc, hr, ht, hi⟩ := h
  exact ⟨j, ctx, input, t, hl hc, hr, hl ht, hl hi⟩

lemma IssuedIn.mono {j : ℕ} {accountId : Text} {u : Uuid} {bytes : Bytes} {e : ℤ}
    (h : IssuedIn D l j accountId u bytes e) : IssuedIn D l' j accountId u bytes e where
  call := h.call.imp fun _ hc => hl hc
  draw := hl h.draw
  fill := hl h.fill
  ends := h.ends.imp fun _ ht => ⟨hl ht.1, ht.2⟩
  insert := hl h.insert

lemma SentIn.mono {r : ChatRecord} {j : ℕ} {requestId leaseId : Uuid} {t : ℤ}
    (h : SentIn l r j requestId leaseId t) : SentIn l' r j requestId leaseId t where
  script := by
    obtain ⟨ctx, input, identitty, hc, hs⟩ := h.script
    exact ⟨ctx, input, identitty, hl hc, hs⟩
  key := hl h.key
  drawRequest := hl h.drawRequest
  drawLease := hl h.drawLease
  read := hl h.read
  insert := hl h.insert

lemma BlockedIn.mono {b : BlockRecord} (h : BlockedIn l b) : BlockedIn l' b := by
  obtain ⟨j, ctx, input, identitty, target, t, hc, hb, he, ht⟩ := h
  exact ⟨j, ctx, input, identitty, target, t, hl hc, hb, he, hl ht⟩

end mono

/-! ### UUIDs -/

structure Drawing (w : World) (l : Log) : Prop where
  logged : ∀ i u, (i, u) ∈ w.drawn ↔ .exec i ⟨.newUuid, u⟩ ∈ l
  distinct : w.drawn.Pairwise fun x y => x.2 ≠ y.2

variable {D} {P : Service D → Action Op Choice → Prop} {d₀ : Db} {t₀ : ℤ} {s : Service D}

theorem drawing (h : Reach P ((service D).start (World.init d₀ t₀)) s) :
    Drawing s.world s.log := by
  refine service_invariant h Drawing ⟨by simp [World.init], .nil⟩ ?_ ?_ ?_ ?_
  · exact fun s i op _ _ ih => ⟨by simpa using ih.logged, ih.distinct⟩
  · intro s i op e ch w' _ _ _ _ _ _ heff ih
    rcases heff.drawn with ⟨hd, hne⟩ | ⟨rfl, hd, hu⟩
    · have hne' : ∀ j u, (.exec i e : Event Command Command.Ans Op Response) ≠
          .exec j ⟨.newUuid, u⟩ := fun j u h => hne u (by cases h; rfl)
      refine ⟨fun j u => ?_, hd ▸ ih.distinct⟩
      rw [hd, ih.logged, List.mem_cons, or_iff_right (hne' j u).symm]
    · refine ⟨fun j u => ?_, hd ▸ ih.distinct.cons fun x hx => (hu x hx).symm⟩
      simp only [hd, List.mem_cons, Prod.mk.injEq, ih.logged, Event.exec.injEq, Sigma.mk.injEq,
        heq_eq_eq, true_and]
  · exact fun s i op r _ _ _ ih => ⟨by simpa using ih.logged, ih.distinct⟩
  · exact fun s _ ih => ⟨by simpa [World.reset] using ih.logged, ih.distinct⟩

/-- A UUID is drawn by one operation. -/
lemma Drawing.unique {w : World} {l : Log} (h : Drawing w l) {i j : ℕ} {u : Uuid}
    (hi : .exec i ⟨.newUuid, u⟩ ∈ l) (hj : .exec j ⟨.newUuid, u⟩ ∈ l) : i = j := by
  have hsymm : Std.Symm fun x y : ℕ × Uuid => x.2 ≠ y.2 := ⟨fun _ _ h => h.symm⟩
  by_contra hij
  exact h.distinct.forall ((h.logged i u).mpr hi) ((h.logged j u).mpr hj) (by simp [hij]) rfl

/-! ### The write lock -/

/-- The lock is held by a login that has made its update and has not ended its transaction. -/
structure Locking (D : Deployment) (w : World) (l : Log) : Prop where
  lock : ∀ i d, w.writer = some (i, d) → ∃ usedAt challengeId n t,
    (Write.useChallenge usedAt challengeId).apply D t w.db = .ok (n, d) ∧
      ⟨.executeIn (.useChallenge usedAt challengeId), .ok n⟩ ∈ own i l
  held : ∀ i u n rest, Alive i l → own i l = ⟨.executeIn u, .ok n⟩ :: rest →
    ∃ d, w.writer = some (i, d)

lemma own_exec_self (i : ℕ) (e : Exchange Command Command.Ans) (l : Log) :
    own i (.exec i e :: l) = e :: own i l := if_pos rfl

lemma own_exec_of_ne {i j : ℕ} (h : j ≠ i) (e : Exchange Command Command.Ans) (l : Log) :
    own i (.exec j e :: l) = own i l := if_neg h

lemma own_subset (i j : ℕ) (e : Exchange Command Command.Ans) (l : Log) :
    own i l ⊆ own i (.exec j e :: l) := by
  by_cases h : j = i
  · subst h
    rw [own_exec_self]
    exact List.subset_cons_self _ _
  · rw [own_exec_of_ne h]
    exact List.Subset.refl _

/-- An exchange other than a statement within a transaction, and an end of one, keeps the lock. -/
lemma Locking.step {w w' : World} {l : Log} {i : ℕ} {e : Exchange Command Command.Ans}
    (h : Locking D w l) (hdb : w'.db = w.db) (hwr : w'.writer = w.writer)
    (he : ∀ u n, e ≠ ⟨.executeIn u, .ok n⟩) : Locking D w' (.exec i e :: l) := by
  refine ⟨fun j d hj => ?_, fun j u n rest ha hj => ?_⟩
  · obtain ⟨usedAt, challengeId, n, t, hu, hm⟩ := h.lock j d (hwr ▸ hj)
    exact ⟨usedAt, challengeId, n, t, hdb ▸ hu, own_subset _ _ _ _ hm⟩
  · by_cases hij : i = j
    · subst hij
      rw [own_exec_self] at hj
      exact absurd (List.cons.inj hj).1 (he u n)
    · rw [own_exec_of_ne hij] at hj
      exact hwr ▸ h.held j u n rest ha hj

theorem locking (h : Reach P ((service D).start (World.init d₀ t₀)) s) :
    Locking D s.world s.log := by
  refine service_invariant h (Locking D) ⟨by simp [World.init], fun i u n rest ha => ha.elim⟩
    ?_ ?_ ?_ ?_
  · refine fun s i op _ hi ih => ⟨ih.lock, fun j u n rest ha hj => ?_⟩
    rcases ha with rfl | ha
    · simp [own, hi] at hj
    · exact ih.held j u n rest ha hj
  · intro s i op e ch w' _ _ halive hissues _ _ heff ih
    cases heff with
    | quiet l hq ht => exact ih.step rfl rfl fun u n he => by subst he; exact hq
    | draw hu => exact ih.step rfl rfl fun u n he => by cases he
    | write hu hw =>
      refine ⟨by simp [World.tick, hw], fun j u n rest ha hj => ?_⟩
      by_cases hij : i = j
      · subst hij
        simp [own_exec_self] at hj
      · rw [own_exec_of_ne hij] at hj
        obtain ⟨d, hd⟩ := ih.held j u n rest ha hj
        simp [hw] at hd
    | @hold u n d hu hw =>
      obtain ⟨ctx, input, row, t, t', -, -, hcmd, hpast⟩ := hissues
      have hnone : s.world.writer = none := by
        rw [Option.eq_none_iff_forall_ne_some]
        rintro ⟨j, d'⟩ hj
        obtain rfl : j = i := hw _ hj
        obtain ⟨_, _, _, _, -, hm⟩ := ih.lock j d' hj
        simp [hpast, loginPast] at hm
      rw [World.view_of_none hnone] at hu
      refine ⟨fun j d' hj => ?_, fun j u' n' rest ha hj => ?_⟩
      · simp only [Option.some.injEq, Prod.mk.injEq] at hj
        obtain ⟨rfl, rfl⟩ := hj
        subst hcmd
        exact ⟨_, _, n, _, hu, by rw [own_exec_self]; exact List.mem_cons_self⟩
      · by_cases hij : i = j
        · exact ⟨d, by rw [hij]⟩
        · rw [own_exec_of_ne hij] at hj
          obtain ⟨d', hd'⟩ := ih.held j u' n' rest ha hj
          simp [hnone] at hd'
    | settle =>
      obtain ⟨ctx, input, row, t, t', -, -, hpast⟩ := hissues
      obtain ⟨d, hd⟩ := ih.held i _ _ _ halive hpast
      refine ⟨by simp [World.settle, World.release, World.tick, hd], fun j u n rest ha hj => ?_⟩
      by_cases hij : i = j
      · subst hij
        simp [own_exec_self] at hj
      · rw [own_exec_of_ne hij] at hj
        obtain ⟨d', hd'⟩ := ih.held j u n rest ha hj
        simp [hd, hij] at hd'
    | release he =>
      have hne : ∀ u n, e ≠ ⟨.executeIn u, .ok n⟩ := by
        rcases he with rfl | ⟨x, rfl⟩ <;> simp
      refine ⟨fun j d hj => ?_, fun j u n rest ha hj => ?_⟩
      · have hw : s.world.writer = some (j, d) := by
          simp only [World.release, World.tick, Option.filter_eq_some_iff] at hj
          exact hj.1
        obtain ⟨usedAt, challengeId, n, t, hu, hm⟩ := ih.lock j d hw
        exact ⟨usedAt, challengeId, n, t, hu, own_subset _ _ _ _ hm⟩
      · by_cases hij : i = j
        · subst hij
          rw [own_exec_self] at hj
          exact absurd (List.cons.inj hj).1 (hne u n)
        · rw [own_exec_of_ne hij] at hj
          obtain ⟨d, hd⟩ := ih.held j u n rest ha hj
          exact ⟨d, by simp [World.release, World.tick, hd, Ne.symm hij]⟩
  · exact fun s i op r _ _ _ ih => ⟨ih.lock, ih.held⟩
  · exact fun s _ ih => ⟨by simp [World.reset], fun i u n rest ha => ha.elim⟩

/-- A login that commits has made one update. -/
lemma update_unique {ctx : Context} {input : AuthenticateInput} {row : ChallengeRow} {t t' : ℤ}
    {u : Write} {n : ℕ} (h : ⟨.executeIn u, .ok n⟩ ∈
      (⟨.executeIn (loginUpdate input t'), .ok 1⟩ :: loginPast ctx input row t t' :
        Past Command Command.Ans)) :
    u = loginUpdate input t' ∧ n = 1 := by
  rcases List.mem_cons.mp h with h | h
  · cases h
    exact ⟨rfl, rfl⟩
  · simp [loginPast] at h

/-- A commit takes effect as the update of its login would at that moment. -/
lemma Locking.commit {w : World} {l : Log} {i : ℕ} {op : Op} (h : Locking D w l)
    (ha : Alive i l) (hi : op.Issues D (own i l) .commit) :
    ∃ ctx input row t t' τ d, op = .authenticate ctx input ∧ Admits D input row t ∧
      own i l = ⟨.executeIn (loginUpdate input t'), .ok 1⟩ :: loginPast ctx input row t t' ∧
      w.writer = some (i, d) ∧ (loginUpdate input t').apply D τ w.db = .ok (1, d) := by
  obtain ⟨ctx, input, row, t, t', hop, hadm, hpast⟩ := hi
  obtain ⟨d, hd⟩ := h.held i _ _ _ ha hpast
  obtain ⟨usedAt, challengeId, n, τ, hu, hm⟩ := h.lock i d hd
  obtain ⟨hlogin, hn⟩ := update_unique (hpast ▸ hm)
  rw [hlogin, hn] at hu
  exact ⟨ctx, input, row, t, t', τ, d, hop, hadm, hpast, hd, hu⟩

/-- The database changes by a write on the pool, or by the update of a login that commits. -/
lemma Locking.change {w w' : World} {l : Log} {i : ℕ} {op : Op} {ch : Choice}
    {e : Exchange Command Command.Ans} (h : Locking D w l) (ha : Alive i l)
    (hi : op.Issues D (own i l) e.1) (heff : Effect D i ch w e w') :
    w'.db = w.db ∨
      (∃ u n, e = ⟨.execute u, .ok n⟩ ∧ u.apply D ch.reading w.db = .ok (n, w'.db)) ∨
      ∃ ctx input row t t' τ, e = ⟨.commit, .ok ()⟩ ∧ op = .authenticate ctx input ∧
        own i l = ⟨.executeIn (loginUpdate input t'), .ok 1⟩ :: loginPast ctx input row t t' ∧
        (loginUpdate input t').apply D τ w.db = .ok (1, w'.db) := by
  rcases heff.db with hdb | ⟨u, n, he, hu, -⟩ | ⟨d, rfl, hd, hdb, -⟩
  · exact .inl hdb
  · exact .inr (.inl ⟨u, n, he, hu⟩)
  · obtain ⟨ctx, input, row, t, t', τ, d', hop, -, hpast, hd', hu⟩ := h.commit ha hi
    have hdd : d = d' := by simpa [hd] using hd'
    exact .inr (.inr ⟨ctx, input, row, t, t', τ, rfl, hop, hpast, by rw [hu, hdb, hdd]⟩)

/-! ### Rows -/

/-- Every row was stored by an operation of the log. -/
structure Provenance (D : Deployment) (d : Db) (l : Log) : Prop where
  accounts : ∀ r ∈ d.accounts.rows, RegisteredIn D l r
  challenges : ∀ c ∈ d.challenges.rows, ∃ j u bytes e, IssuedIn D l j c.accountId u bytes e ∧
    c.challengeId = u.toText ∧ c.challenge = bytes.toList ∧ c.expiresAt = toRfc3339 e
  chats : ∀ r ∈ d.chats.rows, ∃ r₀ j requestId leaseId t, SentIn l r₀ j requestId leaseId t ∧
    r = { r₀ with leaseExpiresAt := r.leaseExpiresAt }
  blocks : ∀ b ∈ d.blocks.rows, BlockedIn l b

lemma Provenance.mono {d : Db} {l l' : Log} (h : Provenance D d l) (hl : l ⊆ l') :
    Provenance D d l' where
  accounts r hr := (h.accounts r hr).mono hl
  challenges c hc := by
    obtain ⟨j, u, bytes, e, hi, hc⟩ := h.challenges c hc
    exact ⟨j, u, bytes, e, hi.mono hl, hc⟩
  chats r hr := by
    obtain ⟨r₀, j, requestId, leaseId, t, hs, hr⟩ := h.chats r hr
    exact ⟨r₀, j, requestId, leaseId, t, hs.mono hl, hr⟩
  blocks b hb := (h.blocks b hb).mono hl

/-- What a write on the pool stores was stored by an operation of the log. -/
lemma Provenance.write {d d' : Db} {l : Log} {i : ℕ} {op : Op} {u : Write} {n : ℕ} {τ : ℤ}
    (h : Provenance D d l) (hc : .call i op ∈ l) (hi : op.Issues D (own i l) (.execute u))
    (hu : u.apply D τ d = .ok (n, d')) :
    Provenance D d' (.exec i ⟨.execute u, .ok n⟩ :: l) := by
  have hl : l ⊆ .exec i ⟨.execute u, .ok n⟩ :: l := List.subset_cons_self _ _
  have hown : ∀ e, e ∈ own i l → .exec i e ∈ Event.exec i ⟨.execute u, .ok n⟩ :: l :=
    fun e he => hl (mem_own.mp he)
  refine ⟨fun r hr => ?_, fun c hc' => ?_, fun r hr => ?_, fun b hb => ?_⟩
  · rw [Write.accounts_apply hu, Write.mem_accountRows] at hr
    rcases hr with hr | rfl
    · exact (h.accounts r hr).mono hl
    · obtain ⟨ctx, input, t, rfl, hr, hpast⟩ := hi
      obtain rfl := Write.affected_of_inserts hu trivial
      exact ⟨i, ctx, input, t, hl hc, hr, hown _ (by simp [hpast]), List.mem_cons_self⟩
  · rw [Write.challenges_apply hu] at hc'
    rcases Write.mem_challengeRows hc' with ⟨c₀, hc₀, hc', -⟩ | rfl
    · rw [hc']
      obtain ⟨j, u', bytes, e, hissued, hrow⟩ := h.challenges c₀ hc₀
      exact ⟨j, u', bytes, e, hissued.mono hl, hrow⟩
    · obtain ⟨ctx, u', bytes, t, e, rfl, hid, hbytes, he, htext, hpast⟩ := hi
      obtain rfl := Write.affected_of_inserts hu trivial
      refine ⟨i, u', bytes, e, ⟨⟨ctx, hl hc⟩, hown _ ?_, hown _ ?_, ⟨t, hown _ ?_, he⟩, ?_⟩,
        hid, hbytes, htext⟩
      · simp [hpast, challengePast]
      · simp [hpast, challengePast]
      · simp [hpast, challengePast]
      · rw [← hid, ← hbytes, ← htext]
        exact List.mem_cons_self
  · rw [Write.chats_apply hu] at hr
    rcases Write.mem_chatRows hr with ⟨r₀, hr₀, hr, -⟩ | rfl
    · obtain ⟨r₁, j, requestId, leaseId, t, hs, hr₁⟩ := h.chats r₀ hr₀
      refine ⟨r₁, j, requestId, leaseId, t, hs.mono hl, ?_⟩
      rw [hr, hr₁]
    · obtain ⟨ctx, input, requestId, leaseId, t, identitty, m, m', rfl, hs, -, hpast⟩ := hi
      obtain rfl := Write.affected_of_inserts hu trivial
      refine ⟨r, i, requestId, leaseId, t, ⟨⟨ctx, input, identitty, hl hc, hs⟩, hown _ ?_,
        hown _ ?_, hown _ ?_, hown _ ?_, List.mem_cons_self⟩, rfl⟩
      all_goals simp [hpast, sendPast]
  · rw [Write.blocks_apply hu] at hb
    rcases Write.mem_blockRows hb with hb | rfl
    · exact (h.blocks b hb).mono hl
    · obtain ⟨ctx, input, identitty, target, t, rfl, hblock, hb, hpast⟩ := hi
      exact ⟨i, ctx, input, identitty, target, t, hl hc, hblock, hb,
        hown _ (by simp [hpast, blockPast])⟩

/-- Marking a challenge as used stores nothing. -/
lemma Provenance.login {d d' : Db} {l : Log} {input : AuthenticateInput} {t' τ : ℤ} {n : ℕ}
    (h : Provenance D d l) (hu : (loginUpdate input t').apply D τ d = .ok (n, d')) :
    Provenance D d' l := by
  rw [loginUpdate] at hu
  refine ⟨fun r hr => ?_, fun c hc => ?_, fun r hr => ?_, fun b hb => ?_⟩
  · rw [Write.accounts_apply hu] at hr
    exact h.accounts r hr
  · rw [Write.challenges_apply hu] at hc
    rcases Write.mem_challengeRows hc with ⟨c₀, hc₀, hc, -⟩ | hc
    · rw [hc]
      exact h.challenges c₀ hc₀
    · cases hc
  · rw [Write.chats_apply hu] at hr
    exact h.chats r hr
  · rw [Write.blocks_apply hu] at hb
    exact h.blocks b hb

theorem provenance (h : Reach P ((service D).start (World.init .empty t₀)) s) :
    Provenance D s.world.db s.log := by
  refine service_invariant h (fun w l => Provenance D w.db l)
    ⟨by simp [World.init, Db.empty], by simp [World.init, Db.empty], by simp [World.init, Db.empty],
      by simp [World.init, Db.empty]⟩ ?_ ?_ ?_ ?_
  · exact fun s i op _ _ ih => ih.mono (List.subset_cons_self _ _)
  · intro s i op e ch w' hr hc ha hi _ _ heff ih
    rcases (locking hr).change ha hi heff with hdb | ⟨u, n, rfl, hu⟩ |
      ⟨_, _, _, _, _, _, rfl, _, _, hu⟩
    · exact hdb ▸ ih.mono (List.subset_cons_self _ _)
    · exact ih.write hc hi hu
    · exact (ih.login hu).mono (List.subset_cons_self _ _)
  · exact fun s i op r _ _ _ ih => ih.mono (List.subset_cons_self _ _)
  · exact fun s _ ih => ih.mono (List.subset_cons_self _ _)

/-- A registered account stays. -/
theorem account_stays (h : Reach P ((service D).start (World.init d₀ t₀)) s) {j : ℕ}
    {r : AccountRow} {n : ℕ} (hr : .exec j ⟨.execute (.insertAccount r), .ok n⟩ ∈ s.log) :
    r ∈ s.world.db.accounts.rows := by
  have hinv := service_invariant h (fun w l => ∀ j r n,
    .exec j ⟨.execute (.insertAccount r), .ok n⟩ ∈ l → r ∈ w.db.accounts.rows) (by simp)
    ?_ ?_ ?_ ?_
  · exact hinv j r n hr
  · exact fun s i op _ _ ih j r n hr => ih j r n (by simpa using hr)
  · intro s i op e ch w' hreach _ ha hi _ _ heff ih j r n hr
    rcases List.mem_cons.mp hr with hr | hr
    · cases hr
      cases heff with
      | quiet l hq ht => exact hq.elim
      | write hu hw =>
        rw [Write.accounts_apply hu, Write.mem_accountRows]
        exact .inr rfl
      | release he => rcases he with he | ⟨x, he⟩ <;> cases he
    · have hold := ih j r n hr
      rcases (locking hreach).change ha hi heff with hdb | ⟨u, n', -, hu⟩ |
        ⟨_, _, _, _, _, _, -, -, -, hu⟩
      · exact hdb ▸ hold
      · rw [Write.accounts_apply hu, Write.mem_accountRows]
        exact .inl hold
      · rw [loginUpdate] at hu
        rw [Write.accounts_apply hu, Write.mem_accountRows]
        exact .inl hold
  · exact fun s i op r _ _ _ ih j r' n hr => ih j r' n (by simpa using hr)
  · exact fun s _ ih j r n hr => ih j r n (by simpa using hr)

/-! ### Readings -/

/-- An exchange of the log took effect in a state of the run, in which its operation had not
ended. -/
theorem exec_of_log {w₀ : World} (h : Reach P ((service D).start w₀) s) {i : ℕ}
    {e : Exchange Command Command.Ans} {post pre : Log} (hlog : s.log = post ++ .exec i e :: pre) :
    ∃ (s₁ s₂ : Service D) (ch : Choice),
      Reach P ((service D).start w₀) s₁ ∧ s₁.log = pre ∧ s₁.Running i ∧ P s₁ (.step i ch) ∧
        s₁.next (.step i ch) = some s₂ ∧ s₂.log = .exec i e :: pre ∧
        s₁.world.clock ≤ ch.reading ∧ Effect D i ch s₁.world e s₂.world ∧ Reach P s₁ s := by
  obtain ⟨s₁, a, s₂, h₁, rfl, hP, hn, hl₂, h₂⟩ := h.rewind hlog (by simp [start])
  cases State.steps_of_next hn with
  | call op => cases hl₂
  | crash => cases hl₂
  | respond ht => cases hl₂
  | @step i' ch op past c k ht hen =>
    simp only [List.cons.injEq, Event.exec.injEq, and_true] at hl₂
    obtain ⟨rfl, rfl⟩ := hl₂
    exact ⟨s₁, _, ch, h₁, rfl, ⟨_, ht, rfl⟩, hP, hn, rfl, Command.clock_of_enabled hen,
      Command.effect c hen, h₂⟩

/-- The answer in the log is the one that the world gave. -/
lemma answer_of_next {i j : ℕ} {ch : Choice} {c : Command} {x : c.Ans} {s' : Service D}
    (hn : s.next (.step i ch) = some s') (hlog : s'.log = .exec j ⟨c, x⟩ :: s.log) :
    x = (c.exec D i ch s.world).1 := by
  cases State.steps_of_next hn with
  | step ht hen =>
    cases (List.cons.inj hlog).1
    rfl

/-- The reading of the clock at an action, if it has one, satisfies `Q`. -/
def Reading (Q : ℤ → Prop) : Action Op Choice → Prop
  | .step _ ch => Q ch.reading
  | .call _ | .respond _ | .crash => True

instance (Q : ℤ → Prop) [DecidablePred Q] (a : Action Op Choice) : Decidable (Reading Q a) :=
  match a with
  | .step _ ch => inferInstanceAs (Decidable (Q ch.reading))
  | .call _ | .respond _ | .crash => inferInstanceAs (Decidable True)

/-- The condition on a run that every reading of its clock satisfies `Q`. -/
def Readings (Q : ℤ → Prop) (_ : Service D) (a : Action Op Choice) : Prop := Reading Q a

lemma reading_of_now {Q : ℤ → Prop} {w₀ : World} (h : Reach (Readings Q) ((service D).start w₀) s)
    {i : ℕ} {t : ℤ} (ht : .exec i ⟨.now, t⟩ ∈ s.log) : Q t := by
  obtain ⟨post, pre, hlog⟩ := List.append_of_mem ht
  obtain ⟨s₁, _, ch, -, -, -, hP, -, -, -, heff, -⟩ := exec_of_log h hlog
  obtain rfl : t = ch.reading := heff.truthful trivial
  exact hP

/-- No reading of the log is ahead of the clock. -/
lemma reading_le_clock (h : Reach P ((service D).start (World.init d₀ t₀)) s) {j : ℕ} {t : ℤ}
    (ht : .exec j ⟨.now, t⟩ ∈ s.log) : t ≤ s.world.clock := by
  have hinv := service_invariant h (fun w l => ∀ j t, .exec j ⟨.now, t⟩ ∈ l → t ≤ w.clock) (by simp)
    ?_ ?_ ?_ ?_
  · exact hinv j t ht
  · exact fun s i op _ _ ih j t ht => ih j t (by simpa using ht)
  · intro s i op e ch w' _ _ _ _ hle _ heff ih j t ht
    rw [heff.clock]
    rcases List.mem_cons.mp ht with ht | ht
    · cases ht
      exact (heff.truthful trivial).le
    · exact (ih j t ht).trans hle
  · exact fun s i op r _ _ _ ih j t ht => ih j t (by simpa using ht)
  · exact fun s _ ih j t ht => ih j t (by simpa using ht)

theorem effect_of_log {w₀ : World} (h : Reach P ((service D).start w₀) s) {i : ℕ}
    {e : Exchange Command Command.Ans} (he : .exec i e ∈ s.log) :
    ∃ (s₁ : Service D) (ch : Choice) (w' : World), Reach P ((service D).start w₀) s₁ ∧
      Effect D i ch s₁.world e w' ∧ s₁.log ⊆ s.log := by
  obtain ⟨post, pre, hlog⟩ := List.append_of_mem he
  obtain ⟨s₁, s₂, ch, h₁, rfl, -, -, -, -, -, heff, -⟩ := exec_of_log h hlog
  refine ⟨s₁, ch, _, h₁, heff, ?_⟩
  rw [hlog]
  exact List.Subset.trans (List.subset_cons_self _ _) (List.subset_append_right _ _)

/-! ### Requests -/

/-- An operation that inserts a request has not inserted one before. -/
lemma no_insert_before (h : Reach P ((service D).start (World.init d₀ t₀)) s) {post pre : Log}
    {j n : ℕ} {r : ChatRecord}
    (hlog : s.log = post ++ .exec j ⟨.execute (.insertChat r), .ok n⟩ :: pre)
    (r' : ChatRecord) (m : ℕ) : .exec j ⟨.execute (.insertChat r'), .ok m⟩ ∉ pre := by
  intro hm
  obtain ⟨op, -, hissues⟩ := h.log_exec (scripted D) hlog
  obtain ⟨ctx, input, requestId, leaseId, t, identitty, m, m', -, -, -, hpast⟩ := hissues
  have hown := mem_own.mpr hm
  simp [hpast, sendPast] at hown

/-- An operation inserts one request. -/
lemma insertChat_unique (h : Reach P ((service D).start (World.init d₀ t₀)) s) {j n n' : ℕ}
    {r r' : ChatRecord} (hr : .exec j ⟨.execute (.insertChat r), .ok n⟩ ∈ s.log)
    (hr' : .exec j ⟨.execute (.insertChat r'), .ok n'⟩ ∈ s.log) : r = r' := by
  obtain ⟨post, pre, hlog⟩ := List.append_of_mem hr
  have hmem := hr'
  rw [hlog, List.mem_append, List.mem_cons] at hmem
  rcases hmem with hpost | heq | hpre
  · obtain ⟨a, b, rfl⟩ := List.append_of_mem hpost
    have hno := no_insert_before h (hlog.trans (List.append_assoc a _ _)) r n
    exact absurd (List.mem_append_right _ List.mem_cons_self) hno
  · cases heq
    rfl
  · exact absurd hpre (no_insert_before h hlog r' n')

/-- The ids that an operation inserts were drawn by it. -/
lemma drawn_of_insert (h : Reach P ((service D).start (World.init d₀ t₀)) s) {j n : ℕ}
    {r : ChatRecord} (hr : .exec j ⟨.execute (.insertChat r), .ok n⟩ ∈ s.log) :
    ∃ u v, r.requestId = u.toText ∧ r.leaseId = v.toText ∧ .exec j ⟨.newUuid, u⟩ ∈ s.log ∧
      .exec j ⟨.newUuid, v⟩ ∈ s.log := by
  obtain ⟨post, pre, hlog⟩ := List.append_of_mem hr
  obtain ⟨op, -, ctx, input, u, v, t, identitty, m, m', -, hs, -, hpast⟩ :=
    h.log_exec (scripted D) hlog
  have hown : ∀ e, e ∈ own j pre → .exec j e ∈ s.log := fun e he => by
    rw [hlog]
    exact List.mem_append_right _ (List.mem_cons_of_mem _ (mem_own.mp he))
  exact ⟨u, v, hs.requestId, hs.leaseId, hown _ (by simp [hpast, sendPast]),
    hown _ (by simp [hpast, sendPast])⟩

/-- A request id is inserted once. -/
lemma insert_once (h : Reach P ((service D).start (World.init d₀ t₀)) s) {post pre : Log}
    {j k n m : ℕ} {r r' : ChatRecord}
    (hlog : s.log = post ++ .exec k ⟨.execute (.insertChat r), .ok n⟩ :: pre)
    (hj : .exec j ⟨.execute (.insertChat r'), .ok m⟩ ∈ post) : r'.requestId ≠ r.requestId := by
  intro hid
  have hk : .exec k ⟨.execute (.insertChat r), .ok n⟩ ∈ s.log := by simp [hlog]
  have hj' : .exec j ⟨.execute (.insertChat r'), .ok m⟩ ∈ s.log := by simp [hlog, hj]
  obtain ⟨u, -, hu, -, hdraw, -⟩ := drawn_of_insert h hk
  obtain ⟨u', -, hu', -, hdraw', -⟩ := drawn_of_insert h hj'
  obtain rfl : u' = u := Uuid.toText_inj.mp (hu'.symm.trans (hid.trans hu))
  obtain rfl := (drawing h).unique hdraw hdraw'
  obtain ⟨a, b, rfl⟩ := List.append_of_mem hj
  have hno := no_insert_before h (hlog.trans (List.append_assoc a _ _)) r n
  exact hno (List.mem_append_right _ List.mem_cons_self)

/-- A row that had the request id earlier in the run is the same request, up to the end of its
lease. -/
theorem same_request {s₁ : Service D} (h : Reach P ((service D).start (World.init .empty t₀)) s)
    (h₁ : Reach P ((service D).start (World.init .empty t₀)) s₁) (hl : s₁.log ⊆ s.log)
    {r r₁ : ChatRecord} (hr : r ∈ s.world.db.chats.rows) (hr₁ : r₁ ∈ s₁.world.db.chats.rows)
    (hid : r.requestId = r₁.requestId) :
    r = { r₁ with leaseExpiresAt := r.leaseExpiresAt } := by
  obtain ⟨r₀, j, u, leaseId, t, hs, hr₀⟩ := (provenance h).chats r hr
  obtain ⟨r₀', j', u', leaseId', t', hs', hr₀'⟩ := (provenance h₁).chats r₁ hr₁
  obtain ⟨_, _, _, -, hsending⟩ := hs.script
  obtain ⟨_, _, _, -, hsending'⟩ := hs'.script
  have hu : u = u' := by
    rw [hr₀, hr₀'] at hid
    exact Uuid.toText_inj.mp (hsending.requestId.symm.trans (hid.trans hsending'.requestId))
  obtain rfl := (drawing h).unique hs.drawRequest (hu ▸ hl hs'.drawRequest)
  obtain rfl := insertChat_unique h hs.insert (hl hs'.insert)
  rw [hr₀, hr₀']

/-! ### What a step does to the tables -/

/-- The inversion of a step of the service: an operation is called, answers or dies, or it issues
a command of its script. -/
theorem service_step (h : Reach P ((service D).start (World.init d₀ t₀)) s) {s' : Service D}
    {a : Action Op Choice} (hn : s.next a = some s') :
    (s'.world.db = s.world.db ∧ s'.world.clock = s.world.clock ∧
      ∃ x, s'.log = x :: s.log ∧ ∀ i e, x ≠ .exec i e) ∨
    ∃ i ch e op, a = .step i ch ∧ s'.log = .exec i e :: s.log ∧ .call i op ∈ s.log ∧
      Alive i s.log ∧ op.Issues D (own i s.log) e.1 ∧ s.world.clock ≤ ch.reading ∧
      Effect D i ch s.world e s'.world := by
  cases State.steps_of_next hn with
  | call op => exact .inl ⟨rfl, rfl, _, rfl, fun i e he => by cases he⟩
  | respond ht => exact .inl ⟨rfl, rfl, _, rfl, fun i e he => by cases he⟩
  | crash => exact .inl ⟨rfl, rfl, _, rfl, fun i e he => by cases he⟩
  | @step i ch op past c k ht hen =>
    have hpast : past = own i s.log := h.logged.past _ _ ht
    exact .inr ⟨i, ch, _, op, rfl, rfl, (h.logged.call _ _).mpr ⟨_, ht, rfl⟩,
      h.logged.alive _ _ ht rfl, hpast ▸ (h.keeps (scripted D) _ _ ht).1,
      Command.clock_of_enabled hen, Command.effect c hen⟩

/-- The database changes by a write on the pool that an operation issues, or by the update of a
login that commits. -/
theorem step_db (h : Reach P ((service D).start (World.init d₀ t₀)) s) {s' : Service D}
    {a : Action Op Choice} (hn : s.next a = some s') :
    s'.world.db = s.world.db ∨
      (∃ i ch op u n, a = .step i ch ∧ .call i op ∈ s.log ∧ op.Issues D (own i s.log) (.execute u) ∧
        u.apply D ch.reading s.world.db = .ok (n, s'.world.db) ∧
        s'.log = .exec i ⟨.execute u, .ok n⟩ :: s.log) ∨
      ∃ i ch ctx input t' τ, a = .step i ch ∧ .call i (.authenticate ctx input) ∈ s.log ∧
        (loginUpdate input t').apply D τ s.world.db = .ok (1, s'.world.db) := by
  rcases service_step h hn with ⟨hdb, -⟩ | ⟨i, ch, e, op, rfl, hlog, hcall, ha, hi, -, heff⟩
  · exact .inl hdb
  · rcases (locking h).change ha hi heff with hdb | ⟨u, n, rfl, hu⟩ |
      ⟨ctx, input, _, _, t', τ, -, rfl, -, hu⟩
    · exact .inl hdb
    · exact .inr (.inl ⟨i, ch, op, u, n, rfl, hcall, hi, hu, hlog⟩)
    · exact .inr (.inr ⟨i, ch, ctx, input, t', τ, rfl, hcall, hu⟩)

/-- Accounts are only added. -/
theorem accounts_grow {s₁ : Service D} (h₁ : Reach P ((service D).start (World.init d₀ t₀)) s₁)
    (h : Reach P s₁ s) : s₁.world.db.accounts.rows <+: s.world.db.accounts.rows := by
  induction h with
  | refl => exact List.prefix_rfl
  | @step s₂ s₃ a h₂ hP hn ih =>
    refine ih.trans ?_
    rcases step_db (h₁.trans h₂) hn with hdb | ⟨_, _, _, u, _, -, -, -, hu, -⟩ |
      ⟨_, _, _, _, _, _, -, -, hu⟩
    · exact hdb ▸ List.prefix_rfl
    · rw [Write.accounts_apply hu]
      cases u
      case insertAccount r => exact List.prefix_append _ _
      all_goals exact List.prefix_rfl
    · rw [loginUpdate] at hu
      rw [Write.accounts_apply hu]
      exact List.prefix_rfl

/-- A request in the table was there at an earlier state of the run, or has been inserted since. -/
theorem row_earlier {s₁ : Service D} (h₁ : Reach P ((service D).start (World.init d₀ t₀)) s₁)
    (h : Reach P s₁ s) {r : ChatRecord} (hr : r ∈ s.world.db.chats.rows) :
    (∃ r₁ ∈ s₁.world.db.chats.rows, r = { r₁ with leaseExpiresAt := r.leaseExpiresAt }) ∨
      ∃ post k r₀ n, s.log = post ++ s₁.log ∧
        .exec k ⟨.execute (.insertChat r₀), .ok n⟩ ∈ post ∧
          r = { r₀ with leaseExpiresAt := r.leaseExpiresAt } := by
  induction h generalizing r with
  | refl => exact .inl ⟨r, hr, rfl⟩
  | @step s₂ s₃ a h₂ hP hn ih =>
    obtain ⟨x, hx⟩ := (State.steps_of_next hn).log_eq
    have hold : ∀ r₂ ∈ s₂.world.db.chats.rows, r = { r₂ with leaseExpiresAt := r.leaseExpiresAt } →
        (∃ r₁ ∈ s₁.world.db.chats.rows, r = { r₁ with leaseExpiresAt := r.leaseExpiresAt }) ∨
          ∃ post k r₀ n, s₃.log = post ++ s₁.log ∧
            .exec k ⟨.execute (.insertChat r₀), .ok n⟩ ∈ post ∧
              r = { r₀ with leaseExpiresAt := r.leaseExpiresAt } := by
      intro r₂ hr₂ heq
      rcases ih hr₂ with ⟨r₁, hr₁, heq₁⟩ | ⟨post, k, r₀, n, hlog, hins, heq₁⟩
      · exact .inl ⟨r₁, hr₁, by rw [heq, heq₁]⟩
      · refine .inr ⟨x :: post, k, r₀, n, ?_, List.mem_cons_of_mem _ hins, by rw [heq, heq₁]⟩
        rw [hx, hlog, List.cons_append]
    rcases step_db (h₁.trans h₂) hn with hdb | ⟨i, ch, op, u, n, -, -, -, hu, hlog⟩ |
      ⟨_, _, _, _, _, _, -, -, hu⟩
    · exact hold r (hdb ▸ hr) rfl
    · rw [Write.chats_apply hu] at hr
      rcases Write.mem_chatRows hr with ⟨r₂, hr₂, heq, -⟩ | rfl
      · exact hold r₂ hr₂ heq
      · obtain ⟨post, hpost⟩ := h₂.log_suffix
        refine .inr ⟨.exec i ⟨.execute (.insertChat r), .ok n⟩ :: post, i, r, n, ?_,
          List.mem_cons_self, rfl⟩
        rw [hlog, ← hpost, List.cons_append]
    · rw [loginUpdate] at hu
      rw [Write.chats_apply hu] at hr
      exact hold r hr rfl

/-- What a name leads to stays. -/
lemma Db.accountByIdentitty_of_prefix {d d' : Db} {name : Text} {a : AccountRow}
    (h : d.accounts.rows <+: d'.accounts.rows) (ha : d.accountByIdentitty name = some a) :
    d'.accountByIdentitty name = some a := by
  obtain ⟨rows, hrows⟩ := h
  rw [accountByIdentitty] at ha
  rw [accountByIdentitty, ← hrows, List.find?_append, ha, Option.some_or]

/-- Whether an event inserts a request. -/
def Known.inserts : Event Command Command.Ans Op Response → Bool
  | .exec _ ⟨.execute (.insertChat _), _⟩ => true
  | _ => false

end TittyBackend
