import TittyBackend.Data.TextOrder
import TittyBackend.Provenance

/-!
# Sessions

Every session is justified by a challenge that was requested for its account, and no challenge
justifies two sessions.
-/

namespace TittyBackend

open Numerals Programs Programs.System

variable {D : Deployment} {P : Service D → Action Op Choice → Prop} {t₀ : ℤ} {s : Service D}

/-! ### What a login reads -/

/-- Within its transaction a login sees the committed accounts, and no unused challenge that is
not committed. -/
lemma Locking.view {w : World} {l : Log} (h : Locking D w l) (i : ℕ) :
    (w.view i).accounts.rows = w.db.accounts.rows ∧
      ∀ c ∈ (w.view i).challenges.rows, c.usedAt = none → c ∈ w.db.challenges.rows := by
  rcases w.view_cases i with hview | ⟨d, hw, hview⟩
  · exact hview ▸ ⟨rfl, fun c hc _ => hc⟩
  · obtain ⟨usedAt, challengeId, n, t, hu, -⟩ := h.lock i d hw
    rw [hview]
    refine ⟨Write.accounts_apply hu, fun c hc hused => ?_⟩
    rw [Write.challenges_apply hu] at hc
    rcases Write.mem_challengeRows hc with ⟨c₀, hc₀, hc, hused₀⟩ | hc
    · have heq : c = c₀ := by rw [hc, hused, ← hused₀ hused]
      exact heq ▸ hc₀
    · cases hc

/-- The challenge that a login reads was requested for its account. -/
theorem challenge_read (h : Reach P ((service D).start (World.init .empty t₀)) s) {i : ℕ}
    {input : AuthenticateInput} {row : ChallengeRow}
    (hr : .exec i ⟨.selectIn (.challenge input.challengeId.toText input.accountId),
      .ok (some row)⟩ ∈ s.log) :
    ∃ j bytes e account, IssuedIn D s.log j input.accountId input.challengeId bytes e ∧
      RegisteredIn D s.log account ∧ account ∈ s.world.db.accounts.rows ∧
      account.accountId = input.accountId ∧ row.publicKey = account.publicKey ∧
      row.challenge = bytes.toList ∧ row.expiresAt = toRfc3339 e := by
  obtain ⟨s₁, ch, w', h₁, heff, hl⟩ := effect_of_log h hr
  have hans : some row = Select.eval D ch.reading (s₁.world.view i)
      (.challenge input.challengeId.toText input.accountId) := heff.truthful trivial
  obtain ⟨hacc, hch⟩ := (locking h₁).view i
  obtain ⟨c, hc, hrow⟩ := Option.bind_eq_some_iff.mp hans.symm
  obtain ⟨a, ha, rfl⟩ := Option.map_eq_some_iff.mp hrow
  have hkey := List.find?_some hc
  simp only [decide_eq_true_eq] at hkey
  have hmem := hch c (List.mem_of_find?_eq_some hc) hkey.2.2
  have hid := List.find?_some ha
  simp only [decide_eq_true_eq] at hid
  have hreg := (provenance h₁).accounts a (hacc ▸ List.mem_of_find?_eq_some ha)
  obtain ⟨j, u, bytes, e, hissued, hu, hbytes, he⟩ := (provenance h₁).challenges c hmem
  obtain rfl : u = input.challengeId := Uuid.toText_inj.mp (hu.symm.trans hkey.1)
  have hstays : a ∈ s.world.db.accounts.rows := by
    obtain ⟨k, _, _, _, -, -, -, hins⟩ := hreg
    exact account_stays h (hl hins)
  refine ⟨j, bytes, e, a, ?_, hreg.mono hl, hstays, hid.trans hkey.2.1, rfl, hbytes, he⟩
  exact hkey.2.1 ▸ hissued.mono hl

/-! ### Justification -/

/-- The challenge of operation `j` justifies the session of operation `i`: it was requested for
the same account with the id that is presented, the signature verifies over its bytes under the
registered key, and the clock was read before its end. -/
structure Justification (D : Deployment) (l : Log) (i : ℕ) (input : AuthenticateInput) (j : ℕ)
    (bytes : Bytes) (expiresAt checkedAt : ℤ) (account : AccountRow) : Prop where
  issued : IssuedIn D l j input.accountId input.challengeId bytes expiresAt
  registered : RegisteredIn D l account
  accountId : account.accountId = input.accountId
  verifies : Verifies D account.publicKey bytes.toList input.signature
  checked : .exec i ⟨.now, checkedAt⟩ ∈ l
  valid : checkedAt < expiresAt

lemma justified_of_past (h : Reach P ((service D).start (World.init .empty t₀)) s) {i : ℕ}
    {ctx : Context} {input : AuthenticateInput} {row : ChallengeRow} {t t' : ℤ}
    (hadm : Admits D input row t) (hpast : loginPast ctx input row t t' ⊆ own i s.log) :
    ∃ j bytes e account, Justification D s.log i input j bytes e t account := by
  obtain ⟨⟨e', he', hlt⟩, hv⟩ := hadm
  have hread : ⟨.selectIn (.challenge input.challengeId.toText input.accountId),
      .ok (some row)⟩ ∈ own i s.log := hpast (by simp [loginPast])
  have hchecked : ⟨.now, t⟩ ∈ own i s.log := hpast (by simp [loginPast])
  obtain ⟨j, bytes, e, a, hissued, hreg, -, hid, hkey, hbytes, he⟩ :=
    challenge_read h (mem_own.mp hread)
  obtain rfl : e' = e := eq_of_parse (he ▸ he')
  exact ⟨j, bytes, e', a, hissued, hreg, hid, hkey ▸ hbytes ▸ hv, mem_own.mp hchecked, hlt⟩

/-! ### Single use -/

/-- Operation `i` has committed its use of the challenge `u`. -/
def SpentBy (l : Log) (i : ℕ) (u : Uuid) : Prop :=
  .exec i ⟨.commit, .ok ()⟩ ∈ l ∧
    ∃ ctx input, .call i (.authenticate ctx input) ∈ l ∧ input.challengeId = u

/-- A spent challenge was issued, is not unused in the database, and was spent by one operation. -/
structure SingleUse (D : Deployment) (w : World) (l : Log) : Prop where
  issued : ∀ i u, SpentBy l i u → ∃ j accountId bytes e, IssuedIn D l j accountId u bytes e
  used : ∀ i u, SpentBy l i u → ∀ c ∈ w.db.challenges.rows, c.challengeId = u.toText →
    c.usedAt ≠ none
  unique : ∀ i i' u, SpentBy l i u → SpentBy l i' u → i = i'

/-- An event that is neither a login's call nor a commit spends nothing. -/
lemma SpentBy.of_cons {l : Log} {i : ℕ} {u : Uuid} {x : Event Command Command.Ans Op Response}
    (h : SpentBy (x :: l) i u) (hcommit : .exec i ⟨.commit, .ok ()⟩ ≠ x)
    (hcall : ∀ ctx input, .call i (.authenticate ctx input) ≠ x) : SpentBy l i u := by
  obtain ⟨hc, ctx, input, ha, hu⟩ := h
  exact ⟨List.mem_of_ne_of_mem hcommit hc, ctx, input, List.mem_of_ne_of_mem (hcall _ _) ha, hu⟩

lemma SingleUse.of_spent {w : World} {l l' : Log} (h : SingleUse D w l) (hl : l ⊆ l')
    (hs : ∀ i u, SpentBy l' i u → SpentBy l i u) : SingleUse D w l' where
  issued i u hi := by
    obtain ⟨j, accountId, bytes, e, hissued⟩ := h.issued i u (hs i u hi)
    exact ⟨j, accountId, bytes, e, hissued.mono hl⟩
  used i u hi := h.used i u (hs i u hi)
  unique i i' u hi hi' := h.unique i i' u (hs i u hi) (hs i' u hi')

/-- A challenge that was issued is not stored again. -/
lemma not_issued_again (h : Reach P ((service D).start (World.init .empty t₀)) s) {i j : ℕ}
    {op : Op} {u : Uuid} {accountId accountId' : Text} {bytes : Bytes} {e : ℤ}
    {challenge : List UInt8} {expiresAt : Text} (hissued : IssuedIn D s.log j accountId u bytes e)
    (hi : op.Issues D (own i s.log)
      (.execute (.insertChallenge u.toText accountId' challenge expiresAt))) : False := by
  obtain ⟨ctx, v, bytes', t, e', -, hv, -, -, -, hpast⟩ := hi
  obtain rfl := Uuid.toText_inj.mp hv
  have hdraw : .exec i ⟨.newUuid, u⟩ ∈ s.log := by
    refine mem_own.mp ?_
    simp [hpast, challengePast]
  obtain rfl := (drawing h).unique hdraw hissued.draw
  have hins := mem_own.mpr hissued.insert
  simp [hpast, challengePast] at hins

/-- The commit of a login spends a challenge that was not spent before. -/
lemma SingleUse.commit {i : ℕ} {ctx : Context} {input : AuthenticateInput} {row : ChallengeRow}
    {t t' τ : ℤ} {d : Db} {w' : World} (ih : SingleUse D s.world s.log)
    (h : Reach P ((service D).start (World.init .empty t₀)) s)
    (hc : .call i (.authenticate ctx input) ∈ s.log) (hadm : Admits D input row t)
    (hpast : own i s.log = ⟨.executeIn (loginUpdate input t'), .ok 1⟩ ::
      loginPast ctx input row t t')
    (hu : (loginUpdate input t').apply D τ s.world.db = .ok (1, d)) (hdb : w'.db = d) :
    SingleUse D w' (.exec i ⟨.commit, .ok ()⟩ :: s.log) := by
  have hspent : ∀ j u, SpentBy (.exec i ⟨.commit, .ok ()⟩ :: s.log) j u →
      j = i ∧ u = input.challengeId ∨ SpentBy s.log j u := by
    intro j u hj
    by_cases hij : j = i
    · obtain ⟨-, ctx', input', hcall, rfl⟩ := hj
      subst hij
      have hop := h.logged.call_unique hc (List.mem_of_ne_of_mem (by simp) hcall)
      cases hop
      exact .inl ⟨rfl, rfl⟩
    · exact .inr (hj.of_cons (by simp [hij]) (by simp))
  have hunspent : ∀ j, ¬ SpentBy s.log j input.challengeId := by
    intro j hj
    obtain ⟨c, hmem, hid, hused⟩ := Write.unused_of_useChallenge hu
    exact ih.used j _ hj c hmem hid hused
  have hl : s.log ⊆ .exec i ⟨.commit, .ok ()⟩ :: s.log := List.subset_cons_self _ _
  refine ⟨fun j u hj => ?_, fun j u hj c hmem hid => ?_, fun j j' u hj hj' => ?_⟩
  · rcases hspent j u hj with ⟨rfl, rfl⟩ | hj
    · obtain ⟨k, bytes, e, a, hjust⟩ :=
        justified_of_past h hadm (hpast ▸ List.subset_cons_self _ _)
      exact ⟨k, _, bytes, e, hjust.issued.mono hl⟩
    · obtain ⟨k, accountId, bytes, e, hissued⟩ := ih.issued j u hj
      exact ⟨k, accountId, bytes, e, hissued.mono hl⟩
  · rw [hdb] at hmem
    rcases hspent j u hj with ⟨rfl, rfl⟩ | hj
    · exact Write.used_of_useChallenge hu hmem hid
    · rw [loginUpdate] at hu
      rw [Write.challenges_apply hu] at hmem
      rcases Write.mem_challengeRows hmem with ⟨c₀, hc₀, heq, hused⟩ | heq
      · rw [heq] at hid
        exact fun hnone => ih.used j u hj c₀ hc₀ hid (hused hnone)
      · cases heq
  · rcases hspent j u hj with ⟨rfl, rfl⟩ | hold
    · rcases hspent j' _ hj' with ⟨rfl, -⟩ | hold'
      · rfl
      · exact absurd hold' (hunspent j')
    · rcases hspent j' u hj' with ⟨rfl, rfl⟩ | hold'
      · exact absurd hold (hunspent j)
      · exact ih.unique j j' u hold hold'

theorem singleUse (h : Reach P ((service D).start (World.init .empty t₀)) s) :
    SingleUse D s.world s.log := by
  refine service_invariant h (SingleUse D) ⟨?_, ?_, ?_⟩ ?_ ?_ ?_ ?_
  iterate 3 simp [SpentBy]
  · intro s i op _ hi ih
    refine ih.of_spent (List.subset_cons_self _ _) fun j u hj => ?_
    have hc : .exec j ⟨.commit, .ok ()⟩ ∈ s.log := List.mem_of_ne_of_mem (by simp) hj.1
    refine hj.of_cons (by simp) fun ctx input hcall => ?_
    cases hcall
    have hmem := mem_own.mpr hc
    simp [hi] at hmem
  · intro s i op e ch w' hr hc ha hi _ _ heff ih
    by_cases he : e = ⟨.commit, .ok ()⟩
    · subst he
      obtain ⟨ctx, input, row, t, t', τ, d, rfl, hadm, hpast, hw, hu⟩ := (locking hr).commit ha hi
      have hdb : w'.db = d := by
        cases heff with
        | quiet l hq ht => exact hq.elim
        | settle => exact World.view_of_writer hw
        | release he => rcases he with he | ⟨x, he⟩ <;> cases he
      exact ih.commit hr hc hadm hpast hu hdb
    · have hold := ih.of_spent (List.subset_cons_self (.exec i e) _) fun j u hj =>
        hj.of_cons (fun h => he (by cases h; rfl)) (by simp)
      refine ⟨hold.issued, fun j u hj c hc' hid => ?_, hold.unique⟩
      rcases (locking hr).change ha hi heff with hdb | ⟨v, n, rfl, hu⟩ |
        ⟨_, _, _, _, _, _, rfl, -⟩
      · exact hold.used j u hj c (hdb ▸ hc') hid
      · rw [Write.challenges_apply hu] at hc'
        rcases Write.mem_challengeRows hc' with ⟨c₀, hc₀, heq, hused⟩ | rfl
        · rw [heq] at hid
          exact fun hnone => hold.used j u hj c₀ hc₀ hid (hused hnone)
        · obtain ⟨k, accountId, bytes, x, hissued⟩ := ih.issued j u
            (hj.of_cons (by simp) (by simp))
          exact (not_issued_again hr hissued (hid ▸ hi)).elim
      · exact absurd rfl he
  · exact fun s i op r _ _ _ ih =>
      ih.of_spent (List.subset_cons_self _ _) fun j u hj => hj.of_cons (by simp) (by simp)
  · exact fun s _ ih => by
      have hs := ih.of_spent (List.subset_cons_self .crash _) fun j u hj =>
        hj.of_cons (by simp) (by simp)
      exact ⟨hs.issued, hs.used, hs.unique⟩

/-! ### Sessions are sound -/

/-- All that a login has seen when it answers with a session. -/
lemma session_past (h : Reach P ((service D).start (World.init .empty t₀)) s) {i : ℕ}
    {x : AuthenticationSession} {post pre : Log}
    (hlog : s.log = post ++ .respond i (.ok (.session x)) :: pre) :
    ∃ ctx input row t t' t'', .call i (.authenticate ctx input) ∈ pre ∧ Admits D input row t ∧
      D.encode (sessionClaims D input.accountId t'' x.expiresAt) D.jwtSecret = some x.token ∧
      own i pre = ⟨.now, t''⟩ :: ⟨.commit, .ok ()⟩ :: ⟨.executeIn (loginUpdate input t'), .ok 1⟩ ::
        loginPast ctx input row t t' := by
  obtain ⟨op, hc, hret⟩ := h.log_respond (scripted D) hlog
  obtain ⟨ctx, input, row, t, t', t'', rfl, hadm, -, htoken, hpast⟩ := hret
  exact ⟨ctx, input, row, t, t', t'', hc, hadm, htoken, hpast⟩

lemma spent_of_session (h : Reach P ((service D).start (World.init .empty t₀)) s) {i : ℕ}
    {x : AuthenticationSession} {ctx : Context} {input : AuthenticateInput}
    (hx : .respond i (.ok (.session x)) ∈ s.log) (hc : .call i (.authenticate ctx input) ∈ s.log) :
    SpentBy s.log i input.challengeId := by
  obtain ⟨post, pre, hlog⟩ := List.append_of_mem hx
  obtain ⟨_, _, _, _, _, _, -, -, -, hpast⟩ := session_past h hlog
  have hcommit : .exec i ⟨.commit, .ok ()⟩ ∈ pre := mem_own.mp (by simp [hpast])
  refine ⟨?_, ctx, input, hc, rfl⟩
  rw [hlog]
  exact List.mem_append_right _ (List.mem_cons_of_mem _ hcommit)

/-- Every session is justified by what happened before it, and no challenge id justifies two. -/
theorem session_sound (h : (service D).Reachable (World.init .empty t₀) s) :
    (∀ post pre i x, s.log = post ++ .respond i (.ok (.session x)) :: pre →
      ∃ ctx input t, .call i (.authenticate ctx input) ∈ pre ∧
        D.encode (sessionClaims D input.accountId t x.expiresAt) D.jwtSecret = some x.token ∧
        ∃ j bytes expiresAt checkedAt account,
          Justification D pre i input j bytes expiresAt checkedAt account) ∧
    ∀ i i' x x' ctx ctx' input input',
      .respond i (.ok (.session x)) ∈ s.log → .call i (.authenticate ctx input) ∈ s.log →
      .respond i' (.ok (.session x')) ∈ s.log → .call i' (.authenticate ctx' input') ∈ s.log →
      input.challengeId = input'.challengeId → i = i' := by
  refine ⟨fun post pre i x hlog => ?_, fun i i' x x' ctx ctx' input input' hx hc hx' hc' hid => ?_⟩
  · obtain ⟨ctx, input, row, t, t', t'', hc, hadm, htoken, hpast⟩ := session_past h hlog
    obtain ⟨s₁, a, s₂, h₁, rfl, -⟩ := h.rewind hlog (by simp [start])
    have hsub : loginPast ctx input row t t' ⊆ own i s₁.log := by
      rw [hpast]
      exact fun y hy => List.mem_cons_of_mem _ (List.mem_cons_of_mem _ (List.mem_cons_of_mem _ hy))
    obtain ⟨j, bytes, e, account, hjust⟩ := justified_of_past h₁ hadm hsub
    exact ⟨ctx, input, t'', hc, htoken, j, bytes, e, t, account, hjust⟩
  · have hspent := spent_of_session h hx hc
    have hspent' := spent_of_session h hx' hc'
    exact (singleUse h).unique i i' _ hspent (hid ▸ hspent')

namespace Known

/-- Ada registers, requests a challenge and logs in with it. -/
def loginRun : List (Action Op Choice) :=
  whole (register "ada".toList ada adaKey) 0 3 newYear ⟨1⟩ ++
    whole (.requestChallenge ⟨"192.0.2.7".toList, none⟩ ada) 1 6 newYear ⟨1⟩ ++
    whole (.authenticate ⟨"192.0.2.7".toList, none⟩ ⟨ada, ⟨1⟩, signature⟩) 2 8 newYear ⟨1⟩

lemma loginRun_answers :
    (((service deployment).start (World.init .empty newYear)).take loginRun).map
      (fun s => (history s.log).head?) =
      some (some (.respond 2 (.ok (.session ⟨token, 1767229200000000000⟩)))) := by
  decide +kernel

end Known

theorem session_sound_login : ∃ (s : Service Known.deployment) (post pre : Log),
    s.log = post ++ .respond 2 (.ok (.session ⟨Known.token, 1767229200000000000⟩)) :: pre ∧
      ∃ input j bytes expiresAt checkedAt account,
        Justification Known.deployment pre 2 input j bytes expiresAt checkedAt account := by
  obtain ⟨s, hs, hans⟩ := Option.map_eq_some_iff.mp Known.loginRun_answers
  obtain ⟨post, pre, hlog⟩ :=
    List.append_of_mem (mem_history.mp (List.mem_of_head? hans))
  obtain ⟨ctx, input, t, -, -, hjust⟩ :=
    (session_sound (reachable_of_take hs)).1 post pre 2 _ hlog
  exact ⟨s, post, pre, hlog, input, hjust⟩

/-! ### The clean-up of challenges -/

/-- `e` is at or before `t`, to the second. -/
def Due (t e : ℤ) : Prop := e / DateTime.nanosPerSecond ≤ t / DateTime.nanosPerSecond

instance (t e : ℤ) : Decidable (Due t e) := inferInstanceAs (Decidable (_ ≤ _))

/-- The challenge is used, or has expired at `t`. -/
def ChallengeRecord.Over (t : ℤ) (c : ChallengeRecord) : Prop :=
  c.usedAt ≠ none ∨ ∃ e, c.expiresAt = toRfc3339 e ∧ Due t e

/-- What stays is unused and compares as later than `CURRENT_TIMESTAMP`. -/
lemma mem_removeExpiredChallenges {t : ℤ} {d d' : Db} {n : ℕ}
    (hu : Write.removeExpiredChallenges.apply D t d = .ok (n, d')) {c : ChallengeRecord} :
    c ∈ d'.challenges.rows ↔
      c ∈ d.challenges.rows ∧ c.usedAt = none ∧ currentTimestamp t < c.expiresAt := by
  rw [Write.challenges_apply hu, Write.challengeRows, List.mem_filter]
  refine and_congr_right fun _ => ?_
  simp only [decide_eq_true_eq, not_or, not_le, ne_eq, not_not]
  exact and_comm

/-- The clean-up at `t` leaves neither used nor expired challenges exactly when no unused challenge
has expired on the day of `t`. -/
theorem challenges_cleaned_iff (h : Reach P ((service D).start (World.init .empty t₀)) s) {t : ℤ}
    (ht : InEra t) {n : ℕ} {d : Db}
    (hu : Write.removeExpiredChallenges.apply D t s.world.db = .ok (n, d)) :
    (∀ c ∈ s.world.db.challenges.rows, ∃ e, c.expiresAt = toRfc3339 e) ∧
      ((∀ c ∈ d.challenges.rows, ¬ c.Over t) ↔
        ∀ c ∈ s.world.db.challenges.rows, c.usedAt = none → ∀ e, c.expiresAt = toRfc3339 e →
          Due t e → e / DateTime.nanosPerDay ≠ t / DateTime.nanosPerDay) := by
  refine ⟨fun c hc => ?_, fun hclean c hc hunused e he hdue hday => ?_, fun hno c hc hover => ?_⟩
  · obtain ⟨-, -, -, e, -, -, -, he⟩ := (provenance h).challenges c hc
    exact ⟨e, he⟩
  · have hlt : currentTimestamp t < c.expiresAt := he ▸ currentTimestamp_lt_of_day hday
    exact hclean c ((mem_removeExpiredChallenges hu).mpr ⟨hc, hunused, hlt⟩) (.inr ⟨e, he, hdue⟩)
  · obtain ⟨hc, hunused, hlt⟩ := (mem_removeExpiredChallenges hu).mp hc
    rcases hover with hused | ⟨e, he, hdue⟩
    · exact hused hunused
    · have hne := hno c hc hunused e he hdue
      have hday : e / DateTime.nanosPerDay < t / DateTime.nanosPerDay := by
        simp only [Due, DateTime.nanosPerSecond] at hdue
        simp only [DateTime.nanosPerDay] at hne ⊢
        omega
      rw [he] at hlt
      exact absurd (toRfc3339_lt_currentTimestamp ht hday) hlt.asymm

namespace Known

/-- Ada registers and requests a challenge, which expires three minutes later. -/
def challengeRun : List (Action Op Choice) :=
  whole (register "ada".toList ada adaKey) 0 3 newYear ⟨1⟩ ++
    whole (.requestChallenge ⟨"192.0.2.7".toList, none⟩ ada) 1 6 newYear ⟨1⟩

/-- Noon of that day. -/
def noon : ℤ := newYear + DateTime.seconds 43200

def nextDay : ℤ := newYear + DateTime.seconds 86400

lemma challengeRun_rows :
    (((service deployment).start (World.init .empty newYear)).take challengeRun).map
      (fun s => s.world.db.challenges.rows.map fun c => (c.expiresAt, c.usedAt)) =
      some [(toRfc3339 (newYear + DateTime.seconds 180), none)] := by
  decide +kernel

end Known

open Known in
/-- A challenge that expired at three past midnight is still there after a clean-up at noon. -/
theorem challenges_not_cleaned : ∃ (s : Service deployment) (n : ℕ) (d : Db),
    Reach (fun _ _ => True) ((service deployment).start (World.init .empty newYear)) s ∧
      Write.removeExpiredChallenges.apply deployment noon s.world.db = .ok (n, d) ∧
        ¬ ∀ c ∈ d.challenges.rows, ¬ c.Over noon := by
  obtain ⟨s, hs, hrows⟩ := Option.map_eq_some_iff.mp challengeRun_rows
  obtain ⟨c, hc, hrow⟩ := List.mem_map.mp (hrows ▸ List.mem_singleton_self _)
  obtain ⟨he, hunused⟩ := Prod.mk.inj hrow
  obtain ⟨n, d, hu⟩ : ∃ n d,
      Write.removeExpiredChallenges.apply deployment noon s.world.db = .ok (n, d) := ⟨_, _, rfl⟩
  refine ⟨s, n, d, reachable_of_take hs, hu, fun hclean => ?_⟩
  have hlt : currentTimestamp noon < c.expiresAt := he ▸ currentTimestamp_lt_of_day (by decide)
  exact hclean c ((mem_removeExpiredChallenges hu).mpr ⟨hc, hunused, hlt⟩)
    (.inr ⟨_, he, by decide⟩)

open Known in
/-- It is gone after one on the next day. -/
theorem challenges_cleaned_next_day : ∃ (s : Service deployment) (n : ℕ) (d : Db),
    Write.removeExpiredChallenges.apply deployment nextDay s.world.db = .ok (n, d) ∧
      ∀ c ∈ d.challenges.rows, ¬ c.Over nextDay := by
  obtain ⟨s, hs, hrows⟩ := Option.map_eq_some_iff.mp challengeRun_rows
  refine ⟨s, _, _, rfl, ?_⟩
  refine (challenges_cleaned_iff (reachable_of_take hs) (by decide) rfl).2.mpr ?_
  intro c hc _ e he _
  have hmem := List.mem_map_of_mem (f := fun c : ChallengeRecord => (c.expiresAt, c.usedAt)) hc
  rw [hrows, List.mem_singleton] at hmem
  have htext : toRfc3339 (newYear + DateTime.seconds 180) = toRfc3339 e :=
    (congrArg Prod.fst hmem).symm.trans he
  have hparse := parse_toRfc3339 (t := newYear + DateTime.seconds 180) (by decide)
  rw [htext] at hparse
  rw [← eq_of_parse hparse]
  decide

end TittyBackend
