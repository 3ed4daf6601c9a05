import TittyBackend.Arrival
import TittyBackend.Login
import TittyBackend.Redemption

/-!
# Logins that succeed

Whatever runs at the same time, and however often the service has restarted, a login with a right
signature over a challenge that has not ended is let in, unless the limiter or the storage refuses
it or another login has spent the challenge.
-/

namespace TittyBackend

open Numerals Programs Programs.System Resolver
open DateTime (seconds)

variable {D : Deployment} {P : Service D → Action Op Choice → Prop} {d₀ : Db} {t₀ : ℤ}
  {s : Service D} {ctx : Context} {input : AuthenticateInput}

/-! ### The promise -/

/-- A statement of a transaction that has failed. -/
def Broken : Exchange Command Command.Ans → Prop
  | ⟨.begin, .error _⟩ | ⟨.selectIn _, .error _⟩ | ⟨.executeIn _, .error _⟩
  | ⟨.commit, .error _⟩ => True
  | _ => False

/-- How the login `i` with a right signature over the challenge `u` ends. -/
inductive Admitted (l : Log) (i : ℕ) (ctx : Context) (u : Uuid) : Response → Prop
  | session (x : AuthenticationSession) : Admitted l i ctx u (.ok (.session x))
  | limited (hcheck : .exec i
      ⟨.check (ctx.clientKey ++ ':' :: "authenticate".toList) 10 minute, false⟩ ∈ l) :
      Admitted l i ctx u (.error (.api .rateLimited))
  | broken {e : Exchange Command Command.Ans} (he : Broken e) (hlog : .exec i e ∈ l) :
      Admitted l i ctx u (.error (.api .internal))
  | spent {j : ℕ} (hne : j ≠ i) (hspent : SpentBy l j u) :
      Admitted l i ctx u (.error (.api .invalidChallenge))

/-- A login as the account `a` with a right signature over the challenge `x`. -/
structure Signs (D : Deployment) (a : AccountIdentity) (x : AuthenticationChallenge)
    (input : AuthenticateInput) : Prop where
  accountId : input.accountId = a.accountId
  challengeId : input.challengeId = x.challengeId
  verifies : ∃ key bytes, Base64.decode a.publicKey = some key ∧
    Base64.decode x.challenge = some bytes ∧ Verifies D key bytes input.signature

/-! ### How a login ends -/

lemma verifySignature_error {publicKey challenge : List UInt8} {signature : Text} {e : ApiError}
    (h : verifySignature D publicKey challenge signature = .error e) :
    e = .authenticationFailed := by
  rw [verifySignature] at h
  cases hsig : Base64.decode signature with
  | none =>
    rw [hsig] at h
    split_ifs at h <;> cases h <;> rfl
  | some bytes =>
    rw [hsig] at h
    dsimp only at h
    split_ifs at h <;> cases h <;> rfl

/-- What the transaction of a login has seen when it fails. -/
inductive Declines (D : Deployment) (input : AuthenticateInput)
    (past : Past Command Command.Ans) : Failure → Prop
  | broken {e : Exchange Command Command.Ans} (he : Broken e) (hpast : e ∈ past) :
      Declines D input past (.api .internal)
  | absent {before : Past Command Command.Ans}
      (hpast : ⟨.selectIn (.challenge input.challengeId.toText input.accountId), .ok none⟩ ::
        before <:+ past)
      (hbefore : ∀ u n, ⟨.executeIn u, .ok n⟩ ∉ before) :
      Declines D input past (.api .invalidChallenge)
  /-- The end of the challenge cannot be read or has come, or the signature is wrong. -/
  | refused {before : Past Command Command.Ans} {row : ChallengeRow} {e : Failure}
      (hpast : ⟨.selectIn (.challenge input.challengeId.toText input.accountId), .ok (some row)⟩ ::
        before <:+ past)
      (hbefore : ∀ u n, ⟨.executeIn u, .ok n⟩ ∉ before)
      (hrow : ∀ expiresAt, parseFromRfc3339 row.expiresAt = some expiresAt →
        (∃ t, expiresAt ≤ t ∧ ⟨.now, t⟩ ∈ past) ∨
          ¬ Verifies D row.publicKey row.challenge input.signature)
      (he : e = .api .invalidChallenge ∨ e = .api .authenticationFailed) : Declines D input past e
  /-- The update has not marked the challenge. -/
  | stale {before : Past Command Command.Ans} {t' : ℤ} {n : ℕ} (hn : n ≠ 1)
      (hpast : ⟨.executeIn (loginUpdate input t'), .ok n⟩ :: before <:+ past)
      (hbefore : ∀ u n, ⟨.executeIn u, .ok n⟩ ∉ before) :
      Declines D input past (.api .invalidChallenge)

lemma Declines.cons {past : Past Command Command.Ans} {e : Failure} (h : Declines D input past e)
    (x : Exchange Command Command.Ans) : Declines D input (x :: past) e := by
  have hx : past <:+ x :: past := List.suffix_cons x past
  cases h with
  | broken he hpast => exact .broken he (List.mem_cons_of_mem _ hpast)
  | absent hpast hbefore => exact .absent (hpast.trans hx) hbefore
  | refused hpast hbefore hrow he =>
    refine .refused (hpast.trans hx) hbefore (fun expiresAt he => ?_) he
    exact (hrow expiresAt he).imp_left fun ⟨t, hle, ht⟩ => ⟨t, hle, List.mem_cons_of_mem _ ht⟩
  | stale hn hpast hbefore => exact .stale hn (hpast.trans hx) hbefore

/-- What a login has seen when it ends. -/
inductive LoginEnds (D : Deployment) (ctx : Context) (input : AuthenticateInput)
    (past : Past Command Command.Ans) : Response → Prop
  | session (x : AuthenticationSession) : LoginEnds D ctx input past (.ok (.session x))
  | limited (hpast : ⟨.check (ctx.clientKey ++ ':' :: "authenticate".toList) 10 minute, false⟩ ∈
      past) : LoginEnds D ctx input past (.error (.api .rateLimited))
  | declined {e : Failure} (he : Declines D input past e) : LoginEnds D ctx input past (.error e)
  /-- No session can be issued. -/
  | unissued {t : ℤ} {r : Response} (ht : ⟨.now, t⟩ ∈ past)
      (hno : ∀ e token, DateTime.addSeconds t D.sessionTtlSeconds = some e →
        D.encode (sessionClaims D input.accountId t e) D.jwtSecret ≠ some token) :
      LoginEnds D ctx input past r

lemma consumeChallenge_declines {past : Past Command Command.Ans}
    (hpast : ∀ u n, ⟨.executeIn u, .ok n⟩ ∉ past) :
    (consumeChallenge D input).run.Keeps (fun _ _ => True)
      (fun past r => ∀ e, r = .error e → Declines D input past e) past := by
  simp only [consumeChallenge, wp_bind, keeps_fetchIn (.challenge _ _), wp_orFail, wp_refuse,
    wp_lift, keeps_now, keeps_executeIn, true_and]
  refine ⟨fun found => ⟨?_, ?_⟩, ?_⟩
  · rintro row rfl
    refine ⟨fun expiresAt he t => ⟨?_, fun _ => ⟨fun _ hv t' => ⟨fun n => ⟨?_, ?_⟩, ?_⟩, ?_⟩⟩, ?_⟩
    · rintro hle _ ⟨⟩
      refine .refused (List.suffix_cons _ _) hpast (fun e he' => ?_) (.inl rfl)
      exact .inl ⟨t, Option.some.inj (he.symm.trans he') ▸ hle, List.mem_cons_self⟩
    · rintro hn _ ⟨⟩
      exact .stale hn List.suffix_rfl (by simp [hpast])
    · rintro _ _ ⟨⟩
    · rintro e _ ⟨⟩
      exact .broken (e := ⟨.executeIn _, .error e⟩) trivial List.mem_cons_self
    · rintro e hv _ ⟨⟩
      refine .refused (List.suffix_cons _ _) hpast (fun _ _ => .inr fun hverifies => ?_) (.inr ?_)
      · rw [(verifySignature_eq_ok (u := ())).mpr hverifies] at hv
        cases hv
      · rw [verifySignature_error hv]
    · rintro hnone _ ⟨⟩
      exact .refused List.suffix_rfl hpast (by simp [hnone]) (.inl rfl)
  · rintro rfl _ ⟨⟩
    exact .absent List.suffix_rfl hpast
  · rintro e _ ⟨⟩
    exact .broken (e := ⟨.selectIn _, .error e⟩) trivial List.mem_cons_self

lemma issueSession_ends {past : Past Command Command.Ans} :
    (issueSession D input.accountId).run.Keeps (fun _ _ => True)
      (fun past r => LoginEnds D ctx input past (r.map .session)) past := by
  simp only [issueSession, wp_bind, keeps_now, wp_addSeconds, wp_orFail, wp_pure, true_and,
    Except.map]
  refine fun t => ⟨fun e he => ⟨fun token htoken => .session _, fun hnone => ?_⟩, fun hnone => ?_⟩
  · refine .unissued List.mem_cons_self fun e' token he' htoken => ?_
    obtain rfl := Option.some.inj (he.symm.trans he')
    rw [hnone] at htoken
    cases htoken
  · refine .unissued List.mem_cons_self fun e token he => ?_
    rw [hnone] at he
    cases he

lemma authenticate_loginEnds (ctx : Context) (input : AuthenticateInput) :
    (Op.program D (.authenticate ctx input)).Keeps (fun _ _ => True)
      (LoginEnds D ctx input) [] := by
  simp only [Op.program, Op.resolver, authenticate, wp_map, wp_bind, keeps_enforce,
    keeps_transaction, true_and]
  refine ⟨⟨fun u => ?_, fun e => ?_⟩, .limited List.mem_cons_self⟩
  · refine (consumeChallenge_declines (by simp)).mono (fun _ _ h => h) fun past r hr => ?_
    cases r with
    | error e => exact fun _ => .declined ((hr e rfl).cons _)
    | ok _ =>
      refine ⟨fun u => issueSession_ends, fun e => .declined (.broken ?_ List.mem_cons_self)⟩
      trivial
  · exact .declined (.broken (e := ⟨.begin, .error e⟩) trivial List.mem_cons_self)

theorem loginEnds (op : Op) : (op.program D).Keeps (fun _ _ => True)
    (fun past r => ∀ ctx input, op = .authenticate ctx input → LoginEnds D ctx input past r)
    [] := by
  by_cases hop : ∃ ctx input, op = .authenticate ctx input
  · obtain ⟨ctx, input, rfl⟩ := hop
    refine (authenticate_loginEnds ctx input).mono (fun _ _ h => h) fun past r hr => ?_
    rintro _ _ ⟨⟩
    exact hr
  · exact Prog.keeps_of_forall _ (fun _ _ => trivial) fun _ _ ctx input heq =>
      absurd ⟨ctx, input, heq⟩ hop

/-! ### A challenge stays until it is spent -/

/-- An answer with a challenge comes from a challenge request that has stored it. -/
def Op.Stores (op : Op) (past : Past Command Command.Ans) (r : Response) : Prop :=
  ∀ x, r = .ok (.challenge x) → ∃ ctx accountId, op = .requestChallenge ctx accountId ∧
    ∃ (bytes : Bytes) (n : ℕ), x.challenge = Base64.encode bytes.toList ∧
      ⟨.execute (.insertChallenge x.challengeId.toText accountId bytes.toList
        (toRfc3339 x.expiresAt)), .ok n⟩ ∈ past

lemma stores (op : Op) : (op.program D).Keeps (fun _ _ => True) op.Stores [] := by
  have hno : ∀ {α : Type} (f : α → Answer) (x : Resolver α), (∀ a y, f a ≠ .challenge y) →
      (f <$> x).run.Keeps (fun _ _ => True) op.Stores [] := by
    intro α f x hf
    refine (wp_map _ _).mpr (Prog.keeps_of_forall _ (fun _ _ => trivial) fun past r y hy => ?_)
    cases r with
    | error e => cases hy
    | ok a => exact absurd (Except.ok.inj hy) (hf a y)
  cases op with
  | requestChallenge ctx accountId =>
    simp only [Op.program, Op.resolver, requestChallenge, wp_map, wp_bind, keeps_enforce,
      wp_refuse, keeps_fetch (.accountExists _), keeps_newUuid, keeps_fillBytes, keeps_now,
      wp_addSeconds, keeps_execute, Except.map, wp_pure, true_and, Op.Stores, reduceCtorEq,
      IsEmpty.forall_iff, implies_true, and_true]
    rintro found - u bytes t e - n x ⟨⟩
    exact ⟨ctx, accountId, rfl, bytes, n, rfl, List.mem_cons_self⟩
  | _ => exact hno _ _ fun _ _ => by simp

lemma SpentBy.mono {l l' : Log} {i : ℕ} {u : Uuid} (h : SpentBy l i u) (hl : l ⊆ l') :
    SpentBy l' i u := by
  obtain ⟨hc, ctx, input, ha, hu⟩ := h
  exact ⟨hl hc, ctx, input, hl ha, hu⟩

/-- The challenge is unused in the database, or a login has spent it. -/
def Redeemable (w : World) (l : Log) (u : Uuid) (r : ChallengeRecord) : Prop :=
  r ∈ w.db.challenges.rows ∨ ∃ i, SpentBy l i u

/-- Before its end a challenge that was stored is unused or spent, also after a restart. -/
theorem redeemable_of_insert (h : Reach (Readings InEra) ((service D).start (World.init d₀ t₀)) s)
    {j n : ℕ} {u : Uuid} {accountId : Text} {bytes : Bytes} {e : ℤ} (he : InEra e)
    (hins : .exec j ⟨.execute (.insertChallenge u.toText accountId bytes.toList (toRfc3339 e)),
      .ok n⟩ ∈ s.log) (hlt : s.world.clock < e) :
    Redeemable s.world s.log u (challengeRecord u accountId bytes e) := by
  have hinv := service_invariant h (fun w l => ∀ j n, .exec j ⟨.execute
    (.insertChallenge u.toText accountId bytes.toList (toRfc3339 e)), .ok n⟩ ∈ l → w.clock < e →
      Redeemable w l u (challengeRecord u accountId bytes e)) (by simp) ?_ ?_ ?_ ?_
  · exact hinv j n hins hlt
  · intro s i op _ _ ih j n hins hlt
    exact (ih j n (by simpa using hins) hlt).imp_right fun ⟨i, hi⟩ =>
      ⟨i, hi.mono (List.subset_cons_self _ _)⟩
  · intro s i op x ch w' hr hc ha hi hle hP heff ih j n hins hlt
    rw [heff.clock] at hlt
    have hera : InEra ch.reading := hP
    rcases List.mem_cons.mp hins with hx | hins
    · cases hx
      refine .inl ?_
      rw [Write.challenges_apply heff.execute]
      exact List.mem_append_right _ List.mem_cons_self
    · rcases ih j n hins (hle.trans_lt hlt) with hrow | ⟨k, hk⟩
      swap
      · exact .inr ⟨k, hk.mono (List.subset_cons_self _ _)⟩
      rcases (locking hr).change ha hi heff with hdb | ⟨v, n, rfl, hu⟩ |
        ⟨ctx, input, row, t, t', τ, rfl, rfl, -, hu⟩
      · exact .inl (hdb ▸ hrow)
      · refine .inl (challenge_kept he hera hlt.le hu ?_ hrow)
        rintro usedAt rfl
        exact hi
      · by_cases hid : input.challengeId = u
        · exact .inr ⟨i, List.mem_cons_self, ctx, input, List.mem_cons_of_mem _ hc, hid⟩
        · have hu' : (loginUpdate input t').apply D ch.reading s.world.db = .ok (1, w'.db) := hu
          refine .inl (challenge_kept he hera hlt.le hu' (fun usedAt heq => hid ?_) hrow)
          rw [loginUpdate, Write.useChallenge.injEq] at heq
          exact Uuid.toText_inj.mp heq.2
  · intro s i op r _ _ _ ih j n hins hlt
    exact (ih j n (by simpa using hins) hlt).imp_right fun ⟨i, hi⟩ =>
      ⟨i, hi.mono (List.subset_cons_self _ _)⟩
  · intro s _ ih j n hins hlt
    exact (ih j n (by simpa using hins) hlt).imp_right fun ⟨i, hi⟩ =>
      ⟨i, hi.mono (List.subset_cons_self _ _)⟩

/-! ### What a login meets -/

/-- An exchange of an operation took effect in a state after its call, in which the operation had
seen what it had seen before. -/
lemma effect_of_suffix (h : Reach P ((service D).start (World.init d₀ t₀)) s) {i : ℕ} {r : Response}
    {op : Op} {post mid pre : Log}
    (hlog : s.log = post ++ .respond i r :: (mid ++ .call i op :: pre))
    {e : Exchange Command Command.Ans} {before : Past Command Command.Ans}
    (hown : e :: before <:+ own i (mid ++ .call i op :: pre)) :
    ∃ (s₁ s₂ : Service D) (ch : Choice), Reach P ((service D).start (World.init d₀ t₀)) s₁ ∧
      Reach P s₁ s ∧ pre ⊆ s₁.log ∧ own i s₁.log = before ∧
        Effect D i ch s₁.world e s₂.world := by
  have hlog' : s.log = (post ++ .respond i r :: mid) ++ .call i op :: pre := by simp [hlog]
  rw [own_append, own, h.before_call hlog', List.append_nil] at hown
  obtain ⟨a, ha⟩ := hown
  obtain ⟨p, q, rfl, hq⟩ := own_eq_append ha.symm
  have hexec : s.log = (post ++ .respond i r :: p) ++ .exec i e :: (q ++ .call i op :: pre) := by
    simp [hlog]
  obtain ⟨s₁, s₂, ch, h₁, hl₁, -, -, -, -, -, heff, hrest⟩ := exec_of_log h hexec
  refine ⟨s₁, s₂, ch, h₁, hrest, ?_, ?_, heff⟩
  · rw [hl₁]
    exact fun x hx => List.mem_append_right _ (List.mem_cons_of_mem _ hx)
  · rw [hl₁, own_append, own, h.before_call hlog', List.append_nil, hq]

/-- Only a login that has made its update commits. -/
lemma update_of_commit (h : Reach P ((service D).start (World.init d₀ t₀)) s) {i : ℕ}
    {x : Except SqlError Unit} (hc : .exec i ⟨.commit, x⟩ ∈ s.log) :
    ∃ u n, ⟨.executeIn u, .ok n⟩ ∈ own i s.log := by
  obtain ⟨post, pre, hlog⟩ := List.append_of_mem hc
  obtain ⟨op, -, ctx, input, row, t, t', -, -, hpast⟩ := h.log_exec (scripted D) hlog
  refine ⟨loginUpdate input t', 1, ?_⟩
  rw [hlog, own_append]
  refine List.mem_append_right _ ?_
  rw [own_exec_self, hpast]
  exact List.mem_cons_of_mem _ List.mem_cons_self

/-- A login that has not made its update finds the challenge, unless another login has spent it. -/
lemma found_or_spent (h : Reach (Readings InEra) ((service D).start (World.init d₀ t₀)) s)
    {i j n : ℕ} {u : Uuid} {accountId : Text} {bytes : Bytes} {e : ℤ} (he : InEra e)
    (hins : .exec j ⟨.execute (.insertChallenge u.toText accountId bytes.toList (toRfc3339 e)),
      .ok n⟩ ∈ s.log) (hlt : s.world.clock < e)
    (hown : ∀ u n, ⟨.executeIn u, .ok n⟩ ∉ own i s.log) :
    s.world.view i = s.world.db ∧
        challengeRecord u accountId bytes e ∈ s.world.db.challenges.rows ∨
      ∃ k, k ≠ i ∧ SpentBy s.log k u := by
  rcases redeemable_of_insert h he hins hlt with hrow | ⟨k, hk⟩
  · rcases s.world.view_cases i with hview | ⟨d, hw, -⟩
    · exact .inl ⟨hview, hrow⟩
    · obtain ⟨usedAt, challengeId, m, t, -, hm⟩ := (locking h).lock i d hw
      exact absurd hm (hown _ _)
  · refine .inr ⟨k, ?_, hk⟩
    rintro rfl
    obtain ⟨v, m, hm⟩ := update_of_commit h hk.1
    exact hown v m hm

/-- A challenge that a login reads is not spent. -/
lemma not_spent_of_read (h : Reach P ((service D).start (World.init .empty t₀)) s) {i k : ℕ}
    {u : Uuid} {accountId : Text} {now : ℤ} {row : ChallengeRow}
    (hrow : some row = Select.eval D now (s.world.view i) (.challenge u.toText accountId)) :
    ¬ SpentBy s.log k u := by
  intro hk
  obtain ⟨c, hc, -⟩ := Option.bind_eq_some_iff.mp hrow.symm
  have hkey := List.find?_some hc
  simp only [decide_eq_true_eq] at hkey
  have hmem := ((locking h).view i).2 c (List.mem_of_find?_eq_some hc) hkey.2.2
  exact (singleUse h).used k u hk c hmem hkey.1 hkey.2.2

section admitted

variable {i j k : ℕ} {ctx' : Context} {r : Response} {x : AuthenticationChallenge}
  {a : AccountIdentity} {post mid pre : Log}

/-- A challenge that was answered was stored with its bytes and its end. -/
lemma insert_of_challenge (h : Reach P ((service D).start (World.init d₀ t₀)) s)
    (hx : .respond j (.ok (.challenge x)) ∈ s.log) :
    ∃ ctx accountId, .call j (.requestChallenge ctx accountId) ∈ s.log ∧
      ∃ (b : Bytes) (n : ℕ), x.challenge = Base64.encode b.toList ∧ .exec j ⟨.execute
        (.insertChallenge x.challengeId.toText accountId b.toList (toRfc3339 x.expiresAt)), .ok n⟩ ∈
          s.log := by
  obtain ⟨post, pre, hlog⟩ := List.append_of_mem hx
  have hsub : pre ⊆ s.log := by
    rw [hlog]
    exact fun e he => List.mem_append_right _ (List.mem_cons_of_mem _ he)
  obtain ⟨op, hc, hret⟩ := h.log_respond stores hlog
  obtain ⟨ctx, accountId, rfl, b, n, hb, hins⟩ := hret x rfl
  exact ⟨ctx, accountId, hsub hc, b, n, hb, hsub (mem_own.mp hins)⟩

/-- A login that has not made its update finds the challenge as it was given to the client, and can
mark it, unless another login has spent it. -/
lemma meets (h : Reach (Readings InEra) ((service D).start (World.init d₀ t₀)) s)
    (hx : .respond j (.ok (.challenge x)) ∈ s.log)
    (hj : ∀ ctx accountId, .call j (.requestChallenge ctx accountId) ∈ s.log →
      accountId = a.accountId)
    (ha : .respond k (.ok (.identity a)) ∈ s.log) (hs : Signs D a x input) (he : InEra x.expiresAt)
    (hlt : s.world.clock < x.expiresAt) (hown : ∀ u n, ⟨.executeIn u, .ok n⟩ ∉ own i s.log) :
    (∃ (row : ChallengeRow), Verifies D row.publicKey row.challenge input.signature ∧
      parseFromRfc3339 row.expiresAt = some x.expiresAt ∧
      (∀ now, Select.eval D now (s.world.view i)
        (.challenge input.challengeId.toText input.accountId) = some row) ∧
      ∀ now t, ∃ d', (loginUpdate input t).apply D now (s.world.view i) = .ok (1, d')) ∨
      ∃ k, k ≠ i ∧ SpentBy s.log k input.challengeId := by
  obtain ⟨ctx, accountId, hc, b, n, hb, hins⟩ := insert_of_challenge h hx
  obtain rfl := hj ctx accountId hc
  obtain ⟨key, bytes, hkey, hbytes, hverifies⟩ := hs.verifies
  obtain rfl : b.toList = bytes := by
    rw [hb, Base64.decode_encode] at hbytes
    exact Option.some.inj hbytes
  obtain ⟨_, _, account, _, -, -, -, hrow⟩ := row_of_identity h ha
  obtain rfl : account.publicKey = key := by
    obtain ⟨_, -, hidentity⟩ := AccountRow.toIdentity_eq_ok.mp hrow.toIdentity
    rw [hidentity, Base64.decode_encode] at hkey
    exact Option.some.inj hkey
  rw [hs.challengeId]
  refine (found_or_spent h he hins hlt hown).imp_left fun ⟨hview, hstored⟩ => ?_
  rw [hview]
  refine ⟨⟨b.toList, toRfc3339 x.expiresAt, account.publicKey⟩, hverifies, parse_toRfc3339 he,
    fun now => ?_, fun now t => ?_⟩
  · rw [hs.accountId]
    exact eval_challenge hstored hrow.stored hrow.accountId
  · rw [loginUpdate, hs.challengeId]
    exact apply_useChallenge hstored

/-- Whatever runs at the same time, a login with a right signature over a challenge that has not
ended answers a session, unless the limiter or the storage refuses it or another login has spent the
challenge. -/
theorem login_admitted (hsess : IssuesSessions D)
    (h : Reach (Readings InEra) ((service D).start (World.init .empty t₀)) s)
    (hlog : s.log = post ++ .respond i r :: (mid ++ .call i (.authenticate ctx input) :: pre))
    (hx : .respond j (.ok (.challenge x)) ∈ pre)
    (hj : .call j (.requestChallenge ctx' a.accountId) ∈ pre)
    (ha : .respond k (.ok (.identity a)) ∈ pre) (hs : Signs D a x input) (he : InEra x.expiresAt)
    (hlt : s.world.clock < x.expiresAt) : Admitted s.log i ctx input.challengeId r := by
  have hrest : mid ++ .call i (.authenticate ctx input) :: pre ⊆ s.log := by
    rw [hlog]
    exact fun e hmem => List.mem_append_right _ (List.mem_cons_of_mem _ hmem)
  have hpre : pre ⊆ s.log := fun e hmem =>
    hrest (List.mem_append_right _ (List.mem_cons_of_mem _ hmem))
  have hexec : ∀ e ∈ own i (mid ++ .call i (.authenticate ctx input) :: pre), .exec i e ∈ s.log :=
    fun e hmem => hrest (mem_own.mp hmem)
  have hcall : .call i (.authenticate ctx input) ∈ s.log :=
    hrest (List.mem_append_right _ List.mem_cons_self)
  -- What the login meets at one of its exchanges, if it has not made its update before.
  have hmeets : ∀ {e : Exchange Command Command.Ans} {before : Past Command Command.Ans},
      e :: before <:+ own i (mid ++ .call i (.authenticate ctx input) :: pre) →
      (∀ u n, ⟨.executeIn u, .ok n⟩ ∉ before) → ∃ (s₁ s₂ : Service D) (ch : Choice),
        Reach (Readings InEra) ((service D).start (World.init .empty t₀)) s₁ ∧ s₁.log ⊆ s.log ∧
          Effect D i ch s₁.world e s₂.world ∧
          ((∃ (row : ChallengeRow), Verifies D row.publicKey row.challenge input.signature ∧
            parseFromRfc3339 row.expiresAt = some x.expiresAt ∧
            (∀ now, Select.eval D now (s₁.world.view i)
              (.challenge input.challengeId.toText input.accountId) = some row) ∧
            ∀ now t, ∃ d', (loginUpdate input t).apply D now (s₁.world.view i) = .ok (1, d')) ∨
            ∃ k, k ≠ i ∧ SpentBy s₁.log k input.challengeId) := by
    intro e before hown hbefore
    obtain ⟨s₁, s₂, ch, h₁, h₂, hsub, hpast, heff⟩ := effect_of_suffix h hlog hown
    have hl : s₁.log ⊆ s.log := h₂.log_suffix.subset
    refine ⟨s₁, s₂, ch, h₁, hl, heff, meets h₁ (hsub hx) (fun ctx accountId hc => ?_) (hsub ha) hs
      he ((clock_le h₁ h₂).trans_lt hlt) (hpast ▸ hbefore)⟩
    cases h.logged.call_unique (hl hc) (hpre hj)
    rfl
  obtain ⟨op, hop, hends⟩ := h.log_respond loginEnds hlog
  cases h.logged.call_unique (hrest hop) hcall
  cases hends ctx input rfl with
  | session y => exact .session y
  | limited hpast => exact .limited (hexec _ hpast)
  | unissued ht hno =>
    obtain ⟨e, token, hexp, htoken⟩ := hsess input.accountId _ (reading_of_now h (hexec _ ht))
    exact absurd htoken (hno e token hexp)
  | declined hdeclines =>
    cases hdeclines with
    | broken he hpast => exact .broken he (hexec _ hpast)
    | absent hpast hbefore =>
      obtain ⟨s₁, s₂, ch, h₁, hl, heff, ⟨row, -, -, hread, -⟩ | ⟨k, hne, hk⟩⟩ :=
        hmeets hpast hbefore
      · have hans : none = Select.eval D ch.reading (s₁.world.view i) (.challenge _ _) :=
          heff.truthful trivial
        rw [hread] at hans
        cases hans
      · exact .spent hne (hk.mono hl)
    | @refused before row _ hpast hbefore hrow _ =>
      obtain ⟨s₁, s₂, ch, h₁, hl, heff, hmet⟩ := hmeets hpast hbefore
      have hans : some row = Select.eval D ch.reading (s₁.world.view i) (.challenge _ _) :=
        heff.truthful trivial
      rcases hmet with ⟨row', hverifies, hparse, hread, -⟩ | ⟨k, -, hk⟩
      · rw [hread, Option.some.injEq] at hans
        subst hans
        rcases hrow _ hparse with ⟨t, hle, ht⟩ | hno
        · exact absurd (reading_le_clock h (hexec _ ht)) (not_le.mpr (hlt.trans_le hle))
        · exact absurd hverifies hno
      · exact absurd hk (not_spent_of_read h₁ hans)
    | stale hn hpast hbefore =>
      obtain ⟨s₁, s₂, ch, h₁, hl, heff, ⟨row, -, -, -, hupdate⟩ | ⟨k, hne, hk⟩⟩ :=
        hmeets hpast hbefore
      · obtain ⟨d, hd⟩ := hupdate ch.reading _
        exact absurd (Prod.mk.inj (Except.ok.inj (heff.executeIn.symm.trans hd))).1 hn
      · exact .spent hne (hk.mono hl)

end admitted

namespace Known

/-- Ada registers and asks for a challenge, the service restarts, and of two logins with a right
signature the one that has begun its transaction first reads the challenge when it is spent. -/
def admission : List (Action Op Choice) :=
  whole (register "ada".toList ada adaKey) 0 3 newYear ⟨0⟩ ++ whole ask 1 6 newYear ⟨1⟩ ++
    .crash :: whole .startup 2 2 newYear ⟨0⟩ ++ .call (login signature) ::
      List.replicate 2 (.step 3 (fine newYear ⟨0⟩)) ++ whole (login signature) 4 8 newYear ⟨0⟩ ++
        List.replicate 2 (.step 3 (fine newYear ⟨0⟩)) ++ [.respond 3]

/-- What was seen before the logins. -/
def beforeLogins : List (Seen Op Response) :=
  [.respond 2 (.ok .done), .call 2 .startup, .respond 1 (.ok (.challenge given)), .call 1 ask,
    .respond 0 (.ok (.identity adaIdentity)), .call 0 (register "ada".toList ada adaKey)]

lemma admission_history : (((service issuing).start (World.init .empty newYear)).take
    admission).map (fun s => (history s.log, s.world.clock)) =
      some (.respond 3 (.error (.api .invalidChallenge)) ::
        .respond 4 (.ok (.session ⟨token, newYear + seconds 3600⟩)) :: .call 4 (login signature) ::
          .call 3 (login signature) :: beforeLogins, newYear) := by
  decide +kernel

lemma admission_signs :
    Signs issuing adaIdentity given ⟨ada, ⟨1⟩, signature⟩ where
  accountId := rfl
  challengeId := rfl
  verifies := ⟨adaKey, challenge.toList, Base64.decode_encode _, Base64.decode_encode _,
    (verifySignature_eq_ok (u := ())).mp (by decide +kernel)⟩

end Known

open Known in
theorem login_admitted_race : ∃ s : Service issuing,
    (service issuing).Reachable (World.init .empty newYear) s ∧
      Admitted s.log 3 ⟨"192.0.2.7".toList, none⟩ ⟨1⟩ (.error (.api .invalidChallenge)) := by
  obtain ⟨s, hs, hans⟩ := Option.map_eq_some_iff.mp admission_history
  obtain ⟨hhistory, hclock⟩ := Prod.mk.inj hans
  have hera : ∀ a ∈ admission, Reading InEra a := by decide
  have h : Reach (Readings InEra) ((service issuing).start (World.init .empty newYear)) s :=
    Reach.refl.take (fun a ha _ => hera a ha) hs
  have hsplit : history s.log = [] ++ .respond 3 (.error (.api .invalidChallenge)) ::
      ([.respond 4 (.ok (.session ⟨token, newYear + seconds 3600⟩)), .call 4 (login signature)] ++
        .call 3 (login signature) :: beforeLogins) := hhistory
  obtain ⟨post, q, hlog, -, hq⟩ := history_split hsplit
  obtain ⟨mid, pre, rfl, -, hpre⟩ := history_split hq
  have hmem : ∀ x ∈ beforeLogins, x.event ∈ pre := fun x hx => mem_history.mp (hpre ▸ hx)
  have hx : .respond 1 (.ok (.challenge given)) ∈ pre :=
    hmem (.respond 1 (.ok (.challenge given))) (by simp [beforeLogins])
  have hj : .call 1 (.requestChallenge ⟨"192.0.2.7".toList, none⟩ adaIdentity.accountId) ∈ pre :=
    hmem (.call 1 ask) (by simp [beforeLogins])
  have ha : .respond 0 (.ok (.identity adaIdentity)) ∈ pre :=
    hmem (.respond 0 (.ok (.identity adaIdentity))) (by simp [beforeLogins])
  exact ⟨s, h.reachable, login_admitted issuing_issues h hlog hx hj ha admission_signs (by decide)
    (hclock ▸ by decide)⟩

end TittyBackend
