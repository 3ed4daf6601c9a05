import TittyBackend.Sequential

/-!
# Challenges stay redeemable

In a sequential run nothing takes an issued challenge away before its end but a login with it:
neither failed logins, nor other challenges, nor the clean-up of a restart.
-/

namespace TittyBackend

open Numerals Programs Programs.System Resolver

variable {D : Deployment}

/-- `issue_session` succeeds for every account at every instant before the year 10000. -/
def IssuesSessions (D : Deployment) : Prop :=
  ∀ accountId t, InEra t → ∃ e token, DateTime.addSeconds t D.sessionTtlSeconds = some e ∧
    D.encode (sessionClaims D accountId t e) D.jwtSecret = some token

/-- The operation is a login with the challenge `u`. -/
def Op.Redeems (op : Op) (u : Uuid) : Prop :=
  ∃ ctx input, op = .authenticate ctx input ∧ input.challengeId = u

/-- The row of an unused challenge. -/
def challengeRecord (u : Uuid) (accountId : Text) (bytes : Bytes) (e : ℤ) : ChallengeRecord :=
  ⟨u.toText, accountId, bytes.toList, toRfc3339 e, none⟩

/-! ### What a write leaves of an unused challenge -/

/-- Only the login with a challenge, and a clean-up at or after its end, take it away. -/
lemma challenge_kept {u : Uuid} {accountId : Text} {bytes : Bytes} {e now : ℤ} {d d' : Db}
    {w : Write} {n : ℕ} (he : InEra e) (hnow : InEra now) (hle : now ≤ e)
    (hu : w.apply D now d = .ok (n, d')) (huse : ∀ usedAt, w ≠ .useChallenge usedAt u.toText)
    (h : challengeRecord u accountId bytes e ∈ d.challenges.rows) :
    challengeRecord u accountId bytes e ∈ d'.challenges.rows := by
  rw [Write.challenges_apply hu]
  cases w with
  | insertChallenge => exact List.mem_append_left _ h
  | useChallenge usedAt challengeId =>
    refine List.mem_map.mpr ⟨_, h, if_neg fun hp => huse usedAt ?_⟩
    rw [← hp.1]
    rfl
  | removeExpiredChallenges =>
    refine List.mem_filter.mpr ⟨h, ?_⟩
    have hlt : currentTimestamp now < toRfc3339 e := currentTimestamp_lt hnow he hle
    simp [challengeRecord, hlt]
  | _ => exact h

/-! ### One operation alone -/

/-- The challenge is unused in the database and in all that an operation holds, unless the
operation is a login with it. -/
def Unused (op : Op) (u : Uuid) (r : ChallengeRecord) (w : World) : Prop :=
  r ∈ w.db.challenges.rows ∧ ∀ x ∈ w.writer, r ∈ x.2.challenges.rows ∨ op.Redeems u

/-- While the clock is before its end, a challenge is unused, or the operation is a login with it
that has committed. -/
structure Unspent (op : Op) (u : Uuid) (accountId : Text) (bytes : Bytes) (t₀ e : ℤ) (w : World)
    (past : Past Command Command.Ans) : Prop where
  clock : t₀ ≤ w.clock
  unspent : w.clock < e → Unused op u (challengeRecord u accountId bytes e) w ∨
    ⟨.commit, .ok ()⟩ ∈ past ∧ op.Redeems u

lemma Unused.view {op : Op} {u : Uuid} {r : ChallengeRecord} {w : World} (h : Unused op u r w)
    (i : ℕ) : r ∈ (w.view i).challenges.rows ∨ op.Redeems u := by
  rcases w.view_cases i with hview | ⟨d, hw, hview⟩
  · exact .inl (hview ▸ h.1)
  · exact hview ▸ h.2 _ hw

lemma Unspent.step {op : Op} {u : Uuid} {accountId : Text} {bytes : Bytes} {t₀ e : ℤ} {w : World}
    {past : Past Command Command.Ans} {c : Command} {i : ℕ} {ch : Choice} (ht₀ : InEra t₀)
    (he : InEra e) (h : Unspent op u accountId bytes t₀ e w past) (hi : op.Issues D past c)
    (hen : c.enabled i ch w = true) :
    Unspent op u accountId bytes t₀ e (c.exec D i ch w).2 (⟨c, (c.exec D i ch w).1⟩ :: past) := by
  have heff := Command.effect (D := D) c hen
  have hle := Command.clock_of_enabled hen
  have hclock := heff.clock
  refine ⟨hclock ▸ h.clock.trans hle, fun hlt => ?_⟩
  rw [hclock] at hlt
  have hera : InEra ch.reading := ht₀.between he (h.clock.trans hle) hlt.le
  rcases h.unspent (hle.trans_lt hlt) with hun | ⟨hc, hred⟩
  swap
  · exact .inr ⟨List.mem_cons_of_mem _ hc, hred⟩
  generalize hx : (⟨c, (c.exec D i ch w).1⟩ : Exchange Command Command.Ans) = x at heff ⊢
  generalize (c.exec D i ch w).2 = w' at heff ⊢
  have hfilter : ∀ x ∈ w.writer.filter fun x => x.1 ≠ i,
      challengeRecord u accountId bytes e ∈ x.2.challenges.rows ∨ op.Redeems u :=
    fun x hx => hun.2 x (Option.mem_filter_iff.mp hx).1
  cases heff with
  | quiet | draw => exact .inl hun
  | write hu hw =>
    obtain ⟨rfl, -⟩ := Sigma.mk.inj hx
    refine .inl ⟨challenge_kept he hera hlt.le hu ?_ hun.1, by simp [World.tick, hw]⟩
    rintro usedAt rfl
    exact hi
  | @hold v n d hu hw =>
    obtain ⟨rfl, -⟩ := Sigma.mk.inj hx
    obtain ⟨ctx, input, row, t, t', hop, -, rfl, -⟩ := hi
    refine .inl ⟨hun.1, fun x hx => ?_⟩
    obtain rfl := Option.some.inj hx
    by_cases hid : input.challengeId = u
    · exact .inr ⟨ctx, input, hop, hid⟩
    · refine (hun.view i).imp_left (challenge_kept he hera hlt.le hu fun usedAt heq => hid ?_)
      rw [loginUpdate, Write.useChallenge.injEq] at heq
      exact Uuid.toText_inj.mp heq.2
  | settle =>
    rcases hun.view i with hrow | hred
    · exact .inl ⟨hrow, hfilter⟩
    · exact .inr ⟨List.mem_cons_self, hred⟩
  | release he => exact .inl ⟨hun.1, hfilter⟩

/-- Whatever an operation alone does before the end of an unused challenge, the challenge stays
unused, unless the operation is a login with it and answers a session. -/
theorem unused_of_plays (hsess : IssuesSessions D) {op : Op} {w w' : World} {i : ℕ}
    {chs : List Choice} {r : Response} {u : Uuid} {accountId : Text} {bytes : Bytes} {t₀ e : ℤ}
    (ht₀ : InEra t₀) (he : InEra e) (h : (service D).Plays i (op.program D) w chs r w')
    (hw : w.writer = none) (hclock : t₀ ≤ w.clock)
    (hrow : challengeRecord u accountId bytes e ∈ w.db.challenges.rows) (hlt : w'.clock < e)
    (hno : op.Redeems u → ∀ x, r ≠ .ok (.session x)) :
    t₀ ≤ w'.clock ∧ challengeRecord u accountId bytes e ∈ w'.db.challenges.rows := by
  obtain ⟨past, ⟨hun, hlone⟩, -, -, hred⟩ := h.invariant ((scripted D op).and (Op.ends op))
    (fun w past => Unspent op u accountId bytes t₀ e w past ∧ Lone i w past)
    ⟨⟨hclock, fun _ => .inl ⟨hrow, by simp [hw]⟩⟩, by simp [hw], by simp⟩
    fun w past c ch hJ hφ hen => ⟨hJ.1.step ht₀ he hφ.1 hen, hJ.2.step hφ.2 hen⟩
  refine ⟨hun.clock, ?_⟩
  rcases hun.unspent hlt with hun' | ⟨hc, ctx, input, rfl, hid⟩
  · exact hun'.1
  · obtain ⟨t, rest, hpast, hr⟩ := hred ctx input rfl hc
    obtain rfl := hlone.clock t rest hpast
    obtain ⟨e', token, hexp, htoken⟩ := hsess input.accountId w'.clock
      (ht₀.between he hun.clock hlt.le)
    obtain ⟨x, rfl⟩ := hr e' token hexp htoken
    exact absurd rfl (hno ⟨ctx, input, rfl, hid⟩ x)

/-! ### Sequential runs -/

/-- A challenge that was returned is stored with its bytes and its end. -/
lemma stored_of_plays {ctx : Context} {accountId : Text} {x : AuthenticationChallenge}
    {w w' : World} {i : ℕ} {chs : List Choice}
    (h : (service D).Plays i (Op.program D (.requestChallenge ctx accountId)) w chs
      (.ok (.challenge x)) w') : ∃ bytes : Bytes, x.challenge = Base64.encode bytes.toList ∧
        challengeRecord x.challengeId accountId bytes x.expiresAt ∈ w'.db.challenges.rows := by
  have hk : (Op.program D (.requestChallenge ctx accountId)).Keeps (fun _ _ => True)
      (fun past r => ∀ x, r = .ok (.challenge x) → ∃ (bytes : Bytes) (n : ℕ) (rest : _),
        x.challenge = Base64.encode bytes.toList ∧
        past = ⟨.execute (.insertChallenge x.challengeId.toText accountId bytes.toList
          (toRfc3339 x.expiresAt)), .ok n⟩ :: rest) [] := by
    simp only [Op.program, Op.resolver, requestChallenge, wp_map, wp_bind, keeps_enforce,
      wp_refuse, keeps_fetch (.accountExists _), keeps_newUuid, keeps_fillBytes, keeps_now,
      wp_addSeconds, keeps_execute, Except.map, wp_pure]
    simp
    exact fun _ bytes _ _ _ => ⟨bytes, rfl, rfl⟩
  obtain ⟨past, hJ, hψ⟩ := h.invariant hk (fun w past => ∀ v n rest,
    past = ⟨.execute v, .ok n⟩ :: rest → ∃ now d, v.apply D now d = .ok (n, w.db))
    (by simp) fun w past c ch _ _ hen v n rest hpast => by
      have heff : Effect D i ch w ⟨c, ((service D).exec i c ch w).1⟩
        ((service D).exec i c ch w).2 := Command.effect c hen
      rw [(List.cons.inj hpast).1] at heff
      exact ⟨ch.reading, w.db, heff.execute⟩
  obtain ⟨bytes, n, rest, hx, rfl⟩ := hψ x rfl
  obtain ⟨now, d, hu⟩ := hJ _ _ _ rfl
  refine ⟨bytes, hx, ?_⟩
  rw [Write.challenges_apply hu]
  exact List.mem_append_right _ List.mem_cons_self

/-- In a sequential run a challenge stays unused before its end as long as no login with it has
answered a session. -/
theorem unused_of_serial (hsess : IssuesSessions D) {d₀ : Db} {t₀ : ℤ}
    {later earlier : List ServiceTurn}
    {restarted : Bool} {ctx : Context} {accountId : Text} {chs : List Choice}
    {x : AuthenticationChallenge} {w : World} (ht₀ : InEra t₀) (he : InEra x.expiresAt)
    (h : (service D).Serial (World.init d₀ t₀)
      (later ++ ⟨restarted, .requestChallenge ctx accountId, chs, .ok (.challenge x)⟩ :: earlier) w)
    (hno : ∀ t ∈ later, t.op.Redeems x.challengeId → ∀ y, t.response ≠ .ok (.session y))
    (hlt : w.clock < x.expiresAt) :
    ∃ bytes : Bytes, x.challenge = Base64.encode bytes.toList ∧
      challengeRecord x.challengeId accountId bytes x.expiresAt ∈ w.db.challenges.rows := by
  induction later generalizing w with
  | nil =>
    obtain _ | ⟨h, hp⟩ := h
    exact stored_of_plays hp
  | cons t later ih =>
    obtain _ | ⟨h, hp⟩ := h
    have hidle := idle_of_serial h
    have hle := clock_of_plays hp
    rename_i w₁
    generalize hw₂ : (if t.restarted = true then (service D).reset w₁ else w₁) = w₂ at hp hle
    have hsame : w₂.db = w₁.db ∧ w₂.writer = none ∧ w₂.clock = w₁.clock := by
      subst hw₂
      split_ifs
      · exact ⟨rfl, rfl, rfl⟩
      · exact ⟨rfl, hidle.1, rfl⟩
    obtain ⟨hdb, hwriter, hclock⟩ := hsame
    obtain ⟨bytes, hx, hrow⟩ := ih h (fun t ht => hno t (List.mem_cons_of_mem _ ht))
      (hclock ▸ hle.trans_lt hlt)
    exact ⟨bytes, hx, (unused_of_plays hsess ht₀ he hp hwriter (hclock ▸ hidle.2) (hdb ▸ hrow) hlt
      (hno t List.mem_cons_self)).2⟩

/-! ### The login -/

/-- What a login reads of an unused challenge. -/
lemma eval_challenge {d : Db} {u : Uuid} {accountId : Text} {bytes : Bytes} {e now : ℤ}
    {account : AccountRow} (hrow : challengeRecord u accountId bytes e ∈ d.challenges.rows)
    (haccount : account ∈ d.accounts.rows) (hid : account.accountId = accountId) :
    Select.eval D now d (.challenge u.toText accountId) =
      some ⟨bytes.toList, toRfc3339 e, account.publicKey⟩ := by
  have hfind : d.accountById accountId = some account :=
    d.accounts.find?_eq_some haccount (decide_eq_true hid) fun b hb =>
      .inl ((of_decide_eq_true hb).trans hid.symm)
  have hch := d.challenges.find?_eq_some (p := fun c => c.challengeId = u.toText ∧
    c.accountId = accountId ∧ c.usedAt = none) hrow (by simp [challengeRecord]) fun b hb =>
      (of_decide_eq_true hb).1
  simp only [Select.eval, hch, Option.bind_some]
  simp [challengeRecord, hfind]

/-- Marking an unused challenge affects one row. -/
lemma apply_useChallenge {d : Db} {u : Uuid} {accountId usedAt : Text} {bytes : Bytes} {e now : ℤ}
    (hrow : challengeRecord u accountId bytes e ∈ d.challenges.rows) :
    ∃ d', (Write.useChallenge usedAt u.toText).apply D now d = .ok (1, d') := by
  have hone := d.challenges.countP_eq_one (p := fun c => c.challengeId = u.toText ∧ c.usedAt = none)
    hrow (by simp [challengeRecord]) fun b hb => (of_decide_eq_true hb).1
  exact ⟨_, congrArg (fun n => Except.ok (n, _)) hone⟩

section login

variable {f : ℕ → Choice} {i k : ℕ} {d : Db} {w : World} {u : Uuid} {accountId signature : Text}
  {bytes : Bytes} {e : ℤ} {account : AccountRow}

/-- The transaction of a login with an unused challenge comes to its update. -/
lemma along_consumeChallenge (hf : Steady f) (hw : Before f k d none w)
    (hrow : challengeRecord u accountId bytes e ∈ d.challenges.rows)
    (haccount : account ∈ d.accounts.rows) (hid : account.accountId = accountId)
    (hsig : Verifies D account.publicKey bytes.toList signature) (he : InEra e)
    (hlt : ∀ k, (f k).reading < e) {Q : Except Failure Unit → World × ℕ → Prop}
    (hQ : ∀ w' k' d', Before f k' d (some (i, d')) w' → Q (.ok ()) (w', k')) :
    (consumeChallenge D ⟨accountId, u, signature⟩).run.Wp ((service D).along f i) Q (w, k) := by
  rw [consumeChallenge, wp_bind]
  refine along_fetchIn hf hw fun w hw => ?_
  rw [eval_challenge hrow haccount hid]
  dsimp only
  rw [orFail_some, wp_pure_bind, parse_toRfc3339 he, orFail_some, wp_pure_bind, wp_bind]
  refine along_now hf hw (hw.enabled i .now (by simp)) fun w hw => ?_
  dsimp only
  rw [refuse_of_not (not_le.mpr (hlt _)), wp_pure_bind,
    (verifySignature_eq_ok (u := ())).mpr hsig, lift_ok,
    wp_pure_bind, wp_bind]
  refine along_now hf hw (hw.enabled i .now (by simp)) fun w hw => ?_
  dsimp only
  rw [wp_bind]
  obtain ⟨d', hu⟩ := apply_useChallenge (D := D) hrow
  refine along_executeIn hf hw hu fun w hw => ?_
  dsimp only
  rw [refuse_of_not (by simp)]
  exact hQ w _ d' hw

/-- A login with an unused challenge answers a session. -/
lemma along_authenticate (hsess : IssuesSessions D) (hf : Steady f) (hw : Before f k d none w)
    (hrow : challengeRecord u accountId bytes e ∈ d.challenges.rows)
    (haccount : account ∈ d.accounts.rows) (hid : account.accountId = accountId)
    (hsig : Verifies D account.publicKey bytes.toList signature) (he : InEra e)
    (hera : ∀ k, InEra (f k).reading) (hlt : ∀ k, (f k).reading < e) {ctx : Context}
    (hadmitted : (w.limiter.check (f k).instant (ctx.clientKey ++ ':' :: "authenticate".toList) 10
      minute).1 = true) :
    (authenticate D ctx ⟨accountId, u, signature⟩).run.Wp ((service D).along f i)
      (fun r _ => ∃ y, r = .ok y) (w, k) := by
  rw [authenticate, wp_bind]
  refine along_enforce hf hw hadmitted fun w hw => ?_
  dsimp only
  rw [wp_bind]
  refine along_transaction hf hw fun w hw => ?_
  refine along_consumeChallenge hf hw hrow haccount hid hsig he hlt fun w k d' hw => ?_
  refine ⟨d', rfl, hw, fun w hw => ?_⟩
  dsimp only
  rw [issueSession, wp_bind]
  refine along_now hf hw (hw.enabled i .now (by simp)) fun w hw => ?_
  dsimp only
  obtain ⟨exp, token, hexp, htoken⟩ := hsess accountId _ (hera (k + 1))
  rw [addSeconds_of_eq_some hexp, wp_pure_bind, htoken, orFail_some, wp_pure_bind]
  exact ⟨_, rfl⟩

end login

theorem challenge_redeemable (hsess : IssuesSessions D) {d₀ : Db} {t₀ : ℤ}
    {later earlier : List ServiceTurn}
    {restarted : Bool} {ctx : Context} {accountId : Text} {chs : List Choice}
    {x : AuthenticationChallenge} {w : World} (ht₀ : InEra t₀) (he : InEra x.expiresAt)
    (h : (service D).Serial (World.init d₀ t₀)
      (later ++ ⟨restarted, .requestChallenge ctx accountId, chs, .ok (.challenge x)⟩ :: earlier) w)
    (hno : ∀ t ∈ later, t.op.Redeems x.challengeId → ∀ y, t.response ≠ .ok (.session y))
    {ctx' : Context} {signature : Text} {bytes : List UInt8} {account : AccountRow} {i : ℕ}
    (haccount : account ∈ w.db.accounts.rows) (hid : account.accountId = accountId)
    (hbytes : Base64.decode x.challenge = some bytes)
    (hsig : Verifies D account.publicKey bytes signature)
    {f : ℕ → Choice} (hf : Steady f) (hnext : w.clock ≤ (f 0).reading ∧ w.instant ≤ (f 0).instant)
    (hlt : ∀ k, (f k).reading < x.expiresAt)
    (hadmitted : (w.limiter.check (f 0).instant (ctx'.clientKey ++ ':' :: "authenticate".toList) 10
      minute).1 = true) :
    ∃ n y w', (service D).Plays i
      (Op.program D (.authenticate ctx' ⟨accountId, x.challengeId, signature⟩)) w
      ((List.range n).map f) (.ok (.session y)) w' := by
  obtain ⟨bytes', hx, hrow⟩ := unused_of_serial hsess ht₀ he h hno (hnext.1.trans_lt (hlt 0))
  obtain ⟨hidle, hclock⟩ := idle_of_serial h
  have hw : Before f 0 w.db none w := ⟨rfl, hidle, hnext.1, hnext.2⟩
  suffices hp : (Op.program D (.authenticate ctx' ⟨accountId, x.challengeId, signature⟩)).Wp
      ((service D).along f i) (fun r _ => ∃ y, r = .ok (.session y)) (w, 0) by
    obtain ⟨n, r, w', hplays, y, rfl⟩ := plays_of_wp hp
    exact ⟨n, y, w', by simpa [List.range_eq_range'] using hplays⟩
  have hera : ∀ k, InEra (f k).reading := fun k => ht₀.between he
    (hclock.trans (hnext.1.trans (hf.reading k.zero_le))) (hlt k).le
  obtain rfl : bytes = bytes'.toList :=
    Option.some.inj (hbytes.symm.trans (hx ▸ Base64.decode_encode _))
  refine wp_map _ _ |>.mpr ((along_authenticate hsess hf hw hrow haccount hid hsig he hera hlt
    hadmitted).mono ?_ fun c s post post' hpost hc => ⟨hc.1, hpost _ _ hc.2⟩)
  rintro _ _ ⟨y, rfl⟩
  exact ⟨y, rfl⟩

namespace Known

/-- The service with an encoder that never fails. -/
def issuing : Deployment :=
  { deployment with encode := fun x secret => some ((deployment.encode x secret).getD []) }

lemma issuing_issues : IssuesSessions issuing := by
  intro accountId t ht
  refine ⟨t + DateTime.seconds 3600, _, if_pos ?_, rfl⟩
  have httl : issuing.sessionTtlSeconds = 3600 := rfl
  simp only [httl, InEra, DateTime.InRange, DateTime.seconds, DateTime.nanosPerSecond] at ht ⊢
  omega

/-- The challenge that Ada is given at the new year. -/
def given : AuthenticationChallenge :=
  ⟨⟨1⟩, Base64.encode challenge.toList, newYear + DateTime.seconds 180⟩

def ask : Op := .requestChallenge ⟨"192.0.2.7".toList, none⟩ ada

def login (signature : Text) : Op :=
  .authenticate ⟨"192.0.2.7".toList, none⟩ ⟨ada, ⟨1⟩, signature⟩

/-- Ada asks for a challenge, the service restarts, and a login with a wrong signature fails. -/
lemma asked : ((service issuing).play 0 (ask.program issuing) (World.init couple newYear)
    (List.replicate 6 (fine newYear ⟨1⟩))).bind (fun x =>
      ((service issuing).play 1 ((login "AA==".toList).program issuing) x.2.reset
        (List.replicate 5 (fine newYear ⟨1⟩))).map fun y =>
          (x.1, y.1, decide (adaRow ∈ y.2.db.accounts.rows), y.2.clock, y.2.instant,
            (y.2.limiter.check 0 ("192.0.2.7".toList ++ ':' :: "authenticate".toList) 10
              minute).1)) =
    some (.ok (.challenge given), .error (.api .authenticationFailed), true, newYear, 0, true) := by
  decide +kernel

/-- The two turns, the latest first. -/
def askedTurns : List ServiceTurn :=
  [⟨true, login "AA==".toList, List.replicate 5 (fine newYear ⟨1⟩),
    .error (.api .authenticationFailed)⟩] ++
    ⟨false, ask, List.replicate 6 (fine newYear ⟨1⟩), .ok (.challenge given)⟩ :: []

end Known

open Known in
theorem challenge_redeemable_restart : ∃ w n y w',
    (service issuing).Serial (World.init couple newYear) askedTurns w ∧
      (service issuing).Plays 2 ((login signature).program issuing) w
        ((List.range n).map fun _ => fine newYear ⟨1⟩) (.ok (.session y)) w' := by
  obtain ⟨⟨r, w₁⟩, hask, hx⟩ := Option.bind_eq_some_iff.mp asked
  obtain ⟨⟨r', w⟩, hlogin, hx⟩ := Option.map_eq_some_iff.mp hx
  simp only [Prod.mk.injEq, decide_eq_true_eq] at hx
  obtain ⟨rfl, rfl, haccount, hclock, hinstant, hadmitted⟩ := hx
  have hserial : (service issuing).Serial (World.init couple newYear) askedTurns w :=
    .turn (.turn .start (plays_of_play hask)) (plays_of_play hlogin)
  have hverifies : Verifies issuing adaKey challenge.toList signature :=
    (verifySignature_eq_ok (u := ())).mp (by decide +kernel)
  obtain ⟨n, y, w', hplays⟩ : ∃ n y w', (service issuing).Plays 2
      ((login signature).program issuing) w ((List.range n).map fun _ => fine newYear ⟨1⟩)
      (.ok (.session y)) w' :=
    challenge_redeemable issuing_issues (by decide) (by decide) hserial (by simp) haccount rfl
      (Base64.decode_encode _) hverifies ⟨fun _ => rfl, monotone_const, monotone_const⟩
      ⟨hclock.le, hinstant.le⟩ (fun _ => by decide) hadmitted
  exact ⟨w, n, y, w', hserial, hplays⟩

end TittyBackend
