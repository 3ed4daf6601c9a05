import TittyBackend.Service

/-!
# What an operation has seen when it writes and when it answers

`Op.Issues` gives, for each command that changes something, the operations that issue it and all
they have been answered before; `Op.Returns` does so for each answer. Everything that is proved
about interleaved operations goes back to these two, and to what a command does to the world.
-/

namespace TittyBackend

open Numerals Programs Resolver

variable (D : Deployment)

/-! ### The scripts -/

/-- A registration that stores `r`, its clock read at `t`. -/
structure Registers (input : RegisterAccountInput) (r : AccountRow) (t : ℤ) : Prop where
  name : normaliseIdentitty input.identitty = .ok r.identitty
  key : Base64.decode input.publicKey = some r.publicKey
  key_length : r.publicKey.length = 32
  accountId : r.accountId = fromPublicKey D.sha256 r.publicKey
  accountId_input : r.accountId = input.accountId
  createdAt : r.createdAt = toRfc3339 t

/-- What a challenge request has seen when it stores its challenge. -/
def challengePast (ctx : Context) (accountId : Text) (u : Uuid) (bytes : Bytes) (t : ℤ) :
    Past Command Command.Ans :=
  [⟨.now, t⟩, ⟨.fillBytes, bytes⟩, ⟨.newUuid, u⟩, ⟨.select (.accountExists accountId), .ok true⟩,
    ⟨.check (ctx.clientKey ++ ':' :: "challenge".toList) 10 minute, true⟩]

/-- What a login has seen when it marks its challenge as used: the challenge `row`, and a reading
`t` of the clock. -/
def loginPast (ctx : Context) (input : AuthenticateInput) (row : ChallengeRow) (t t' : ℤ) :
    Past Command Command.Ans :=
  [⟨.now, t'⟩, ⟨.now, t⟩,
    ⟨.selectIn (.challenge input.challengeId.toText input.accountId), .ok (some row)⟩,
    ⟨.begin, .ok ()⟩, ⟨.check (ctx.clientKey ++ ':' :: "authenticate".toList) 10 minute, true⟩]

/-- The challenge `row` allows the login at `t`. -/
def Admits (input : AuthenticateInput) (row : ChallengeRow) (t : ℤ) : Prop :=
  (∃ e, parseFromRfc3339 row.expiresAt = some e ∧ t < e) ∧
    Verifies D row.publicKey row.challenge input.signature

/-- The statement that marks the challenge of a login as used. -/
def loginUpdate (input : AuthenticateInput) (t' : ℤ) : Write :=
  .useChallenge (toRfc3339 t') input.challengeId.toText

/-- What a send has learnt when it inserts its request. -/
structure Sending (ctx : Context) (input : SendLiveChatRequestInput) (r : ChatRecord)
    (requestId leaseId : Uuid) (t : ℤ) (identitty : Text) : Prop where
  sender : ctx.account = some r.senderAccountId
  payload : decodePayload input.encryptedPayload = .ok r.encryptedPayload
  recipient : normaliseIdentitty input.recipientIdentitty = .ok identitty
  clientRequestId : r.clientRequestId = input.clientRequestId.toText
  requestId : r.requestId = requestId.toText
  leaseId : r.leaseId = leaseId.toText
  createdAt : r.createdAt = toRfc3339 t
  leaseExpiresAt : r.leaseExpiresAt = toRfc3339 (t + DateTime.seconds 90)
  hardExpiresAt : r.hardExpiresAt = toRfc3339 (t + DateTime.seconds (15 * 60))
  distinct : r.recipientAccountId ≠ r.senderAccountId

/-- What a send has seen when it inserts its request `r`. -/
def sendPast (r : ChatRecord) (requestId leaseId : Uuid) (t : ℤ) (identitty : Text) (n m : ℕ) :
    Past Command Command.Ans :=
  [⟨.select (.blockExists r.recipientAccountId r.senderAccountId), .ok false⟩,
    ⟨.select (.recipient identitty), .ok (some r.recipientAccountId)⟩,
    ⟨.newUuid, leaseId⟩, ⟨.newUuid, requestId⟩, ⟨.now, t⟩,
    ⟨.select (.activeCount r.senderAccountId), .ok n⟩,
    ⟨.select (.existingRequest r.senderAccountId r.clientRequestId), .ok none⟩,
    ⟨.select (.publicKey r.senderAccountId), .ok (some r.senderPublicKey)⟩,
    ⟨.execute .removeExpiredChats, .ok m⟩]

/-- What a renewal has seen when it sets the end of the lease. -/
def renewPast (sender : Text) (input : RenewLiveChatRequestInput) (row : LeaseRow) (t : ℤ)
    (m : ℕ) : Past Command Command.Ans :=
  [⟨.now, t⟩,
    ⟨.select (.lease input.requestId.toText input.leaseId.toText sender), .ok (some row)⟩,
    ⟨.execute .removeExpiredChats, .ok m⟩]

/-- What a block has seen when it inserts its row. -/
def blockPast (identitty : Text) (target : BlockTargetRow) (t : ℤ) : Past Command Command.Ans :=
  [⟨.now, t⟩, ⟨.select (.blockTarget identitty), .ok (some target)⟩]

/-- A block of `target`, found under the name in the input. -/
structure Blocking (ctx : Context) (input : BlockIdentityInput) (blocker identitty : Text)
    (target : BlockTargetRow) : Prop where
  account : ctx.account = some blocker
  name : normaliseIdentitty input.identitty = .ok identitty
  distinct : target.accountId ≠ blocker

/-! ### Commands -/

/-- The operations that issue a command, and all they have seen before. -/
def Op.Issues (op : Op) (past : Past Command Command.Ans) : Command → Prop
  | .execute (.insertAccount r) => ∃ ctx input t, op = .registerAccount ctx input ∧
      Registers D input r t ∧
      past = [⟨.now, t⟩, ⟨.check (ctx.clientKey ++ ':' :: "register".toList) 5 minute, true⟩]
  | .execute (.insertChallenge challengeId accountId challenge expiresAt) => ∃ ctx u bytes t e,
      op = .requestChallenge ctx accountId ∧ challengeId = u.toText ∧
      challenge = List.Vector.toList bytes ∧
      DateTime.addSeconds t D.challengeTtlSeconds = some e ∧ expiresAt = toRfc3339 e ∧
      past = challengePast ctx accountId u bytes t
  | .executeIn u => ∃ ctx input row t t', op = .authenticate ctx input ∧ Admits D input row t ∧
      u = loginUpdate input t' ∧ past = loginPast ctx input row t t'
  | .commit => ∃ ctx input row t t', op = .authenticate ctx input ∧ Admits D input row t ∧
      past = ⟨.executeIn (loginUpdate input t'), .ok 1⟩ :: loginPast ctx input row t t'
  | .execute (.useChallenge ..) => False
  | .execute .removeExpiredChallenges => op = .startup ∧ past = []
  | .execute (.insertChat r) => ∃ ctx input requestId leaseId t identitty n m,
      op = .sendLiveChatRequest ctx input ∧ Sending ctx input r requestId leaseId t identitty ∧
      n < 25 ∧ past = sendPast r requestId leaseId t identitty n m
  | .execute (.updateLease leaseExpiresAt requestId) => ∃ ctx sender input row hard t m,
      op = .renewLiveChatRequest ctx input ∧ ctx.account = some sender ∧
      requestId = input.requestId.toText ∧ parseFromRfc3339 row.hardExpiresAt = some hard ∧
      leaseExpiresAt = toRfc3339 (min (t + DateTime.seconds 90) hard) ∧
      past = renewPast sender input row t m
  | .execute (.deleteChat requestId leaseId) => ∃ ctx sender input,
      op = .cancelLiveChatRequest ctx input ∧ ctx.account = some sender ∧
      requestId = input.requestId.toText ∧ leaseId = input.leaseId.toText ∧
      past = [⟨.select (.owner requestId leaseId), .ok (some sender)⟩]
  | .execute (.insertBlock r) => ∃ ctx input identitty target t,
      op = .blockIdentity ctx input ∧ Blocking ctx input r.blockerAccountId identitty target ∧
      r = ⟨r.blockerAccountId, target.accountId, toRfc3339 t⟩ ∧ past = blockPast identitty target t
  | .execute (.deleteChatsBetween sender recipient) => ∃ ctx input identitty target t n,
      op = .blockIdentity ctx input ∧ Blocking ctx input recipient identitty target ∧
      sender = target.accountId ∧
      past = ⟨.execute (.insertBlock ⟨recipient, target.accountId, toRfc3339 t⟩), .ok n⟩ ::
        blockPast identitty target t
  | .execute (.deleteBlock blocker blocked) => ∃ ctx, op = .unblockIdentity ctx ⟨blocked⟩ ∧
      ctx.account = some blocker ∧ past = []
  | _ => True

section issues

variable {D} {op : Op} {past : Past Command Command.Ans}

@[simp] lemma issues_select (q : Select) : op.Issues D past (.select q) := trivial
@[simp] lemma issues_selectIn (q : Select) : op.Issues D past (.selectIn q) := trivial
@[simp] lemma issues_begin : op.Issues D past .begin := trivial
@[simp] lemma issues_rollback : op.Issues D past .rollback := trivial
@[simp] lemma issues_now : op.Issues D past .now := trivial
@[simp] lemma issues_newUuid : op.Issues D past .newUuid := trivial
@[simp] lemma issues_fillBytes : op.Issues D past .fillBytes := trivial
@[simp] lemma issues_check (key : Text) (limit window : ℕ) :
    op.Issues D past (.check key limit window) := trivial
@[simp] lemma issues_removeExpiredChats : op.Issues D past (.execute .removeExpiredChats) := trivial

end issues

/-! ### Answers -/

/-- All that an operation has seen when it gives an answer. -/
def Op.Returns (op : Op) (past : Past Command Command.Ans) : Response → Prop
  | .ok (.identity x) => ∃ ctx input r t n, op = .registerAccount ctx input ∧
      Registers D input r t ∧ x = ⟨r.accountId, r.identitty, Base64.encode r.publicKey, t⟩ ∧
      past = [⟨.execute (.insertAccount r), .ok n⟩, ⟨.now, t⟩,
        ⟨.check (ctx.clientKey ++ ':' :: "register".toList) 5 minute, true⟩]
  | .ok (.session x) => ∃ ctx input row t t' t'', op = .authenticate ctx input ∧
      Admits D input row t ∧ DateTime.addSeconds t'' D.sessionTtlSeconds = some x.expiresAt ∧
      D.encode (sessionClaims D input.accountId t'' x.expiresAt) D.jwtSecret = some x.token ∧
      past = ⟨.now, t''⟩ :: ⟨.commit, .ok ()⟩ :: ⟨.executeIn (loginUpdate input t'), .ok 1⟩ ::
        loginPast ctx input row t t'
  | .ok (.blocked x) => ∃ ctx input blocker identitty target t n m ts,
      op = .blockIdentity ctx input ∧ Blocking ctx input blocker identitty target ∧
      x.accountId = target.accountId ∧ x.identitty = target.identitty ∧
      parseFromRfc3339 ts = some x.blockedAt ∧
      past = ⟨.select (.blockCreatedAt blocker target.accountId), .ok (some ts)⟩ ::
        ⟨.execute (.deleteChatsBetween target.accountId blocker), .ok n⟩ ::
        ⟨.execute (.insertBlock ⟨blocker, target.accountId, toRfc3339 t⟩), .ok m⟩ ::
        blockPast identitty target t
  | .ok (.requests x) => ∃ ctx account rows n, op = .liveChatRequests ctx ∧
      ctx.account = some account ∧ rows.mapM LiveChatRequestRow.intoModel = .ok x ∧
      past =
        [⟨.select (.liveChatRequests account), .ok rows⟩, ⟨.execute .removeExpiredChats, .ok n⟩]
  | _ => True

@[simp] lemma returns_error {op : Op} {past : Past Command Command.Ans} (e : Failure) :
    op.Returns D past (.error e) := trivial

/-! ### Every operation keeps to its script -/

/-- The operation keeps to its script. -/
def Op.Scripted (op : Op) : Prop := (op.program D).Keeps (op.Issues D) (op.Returns D) []

lemma registerAccount_scripted (ctx : Context) (input : RegisterAccountInput) :
    Op.Scripted D (.registerAccount ctx input) := by
  simp only [Op.Scripted, Op.program, Op.resolver, registerAccount, wp_map, wp_bind,
    keeps_enforce, wp_lift, wp_orFail, wp_refuse, keeps_now, keeps_attempt,
    issues_check, issues_now, Except.map, returns_error, implies_true, and_true, true_and]
  intro name hname key hkey hlen hid t
  have hr : Registers D input ⟨input.accountId, name, key, toRfc3339 t⟩ t :=
    ⟨hname, hkey, not_not.mp hlen, (not_not.mp hid).symm, rfl, rfl⟩
  refine ⟨⟨ctx, input, t, rfl, hr, rfl⟩, fun x => ?_⟩
  rcases x with (_ | _ | _) | n
  case ok => exact ⟨ctx, input, _, t, n, rfl, hr, rfl, rfl⟩
  all_goals exact trivial

lemma requestChallenge_scripted (ctx : Context) (accountId : Text) :
    Op.Scripted D (.requestChallenge ctx accountId) := by
  simp only [Op.Scripted, Op.program, Op.resolver, requestChallenge, wp_map, wp_bind,
    keeps_enforce, wp_refuse, keeps_fetch (.accountExists _), keeps_newUuid, keeps_fillBytes,
    keeps_now, wp_addSeconds, keeps_execute, issues_check, issues_select, issues_newUuid,
    issues_fillBytes, issues_now, Except.map, wp_pure, returns_error, implies_true, and_true,
    true_and]
  intro found hfound u bytes t e he
  obtain rfl : found = true := by simpa using hfound
  exact ⟨⟨ctx, u, bytes, t, e, rfl, rfl, rfl, he, rfl, rfl⟩, fun _ => trivial⟩

lemma authenticate_scripted (ctx : Context) (input : AuthenticateInput) :
    Op.Scripted D (.authenticate ctx input) := by
  simp only [Op.Scripted, Op.program, Op.resolver, authenticate, consumeChallenge, issueSession,
    wp_map, wp_bind, keeps_enforce, keeps_transaction, keeps_fetchIn (.challenge _ _),
    wp_orFail, wp_refuse, wp_lift, keeps_now, keeps_executeIn, wp_addSeconds,
    issues_check, issues_begin, issues_rollback, issues_selectIn, issues_now, Except.map,
    wp_pure, returns_error, implies_true, and_true, true_and]
  rintro ⟨⟩ found row rfl e he t hlt ⟨⟩ hv t'
  have ha : Admits D input row t := ⟨⟨e, he, not_le.mp hlt⟩, verifySignature_eq_ok.mp hv⟩
  refine ⟨⟨ctx, input, row, t, t', rfl, ha, rfl, rfl⟩, fun n hn => ?_⟩
  obtain rfl : n = 1 := not_not.mp hn
  refine ⟨⟨ctx, input, row, t, t', rfl, ha, rfl⟩, fun _ t'' _ hexp _ htoken => ?_⟩
  exact ⟨ctx, input, row, t, t', t'', rfl, ha, hexp, htoken, rfl⟩

lemma sendLiveChatRequest_scripted (ctx : Context) (input : SendLiveChatRequestInput) :
    Op.Scripted D (.sendLiveChatRequest ctx input) := by
  simp only [Op.Scripted, Op.program, Op.resolver, sendLiveChatRequest, authenticated, wp_map,
    wp_bind, wp_orFail, wp_lift, keeps_execute, keeps_fetch (.publicKey _),
    keeps_fetch (.existingRequest _ _), issues_removeExpiredChats, issues_select, Except.map,
    returns_error, implies_true, and_true, true_and]
  rintro sender hsender payload hpayload name hname m key publicKey rfl existing
  cases existing with
  | some row =>
    simp only [wp_lift]
    exact ⟨fun _ _ => trivial, fun _ _ => trivial⟩
  | none =>
    simp only [submitRequest, wp_bind, keeps_fetch (.activeCount _), wp_refuse, keeps_now,
      wp_addSeconds, keeps_newUuid, keeps_fetch (.recipient _), issues_select, issues_now,
      issues_newUuid, returns_error, implies_true, and_true, true_and]
    intro n hn t lease hlease hard hhard requestId leaseId recipient
    rw [insertUnlessHidden.eq_def]
    cases recipient with
    | none => trivial
    | some recipient =>
      simp only [wp_bind, keeps_fetch (.blockExists _ _), issues_select, implies_true, and_true,
        true_and]
      intro blocked
      split_ifs with hb
      · simp only [wp_bind, keeps_execute, wp_pure, implies_true, and_true]
        obtain ⟨rfl, hne⟩ := hb
        obtain rfl := DateTime.addSeconds_eq_some hlease
        obtain rfl := DateTime.addSeconds_eq_some hhard
        exact ⟨⟨ctx, input, requestId, leaseId, t, name, n, m, rfl,
          ⟨hsender, hpayload, hname, rfl, rfl, rfl, rfl, rfl, rfl, hne⟩, not_le.mp hn, rfl⟩,
          fun _ => trivial⟩
      · trivial

lemma renewLiveChatRequest_scripted (ctx : Context) (input : RenewLiveChatRequestInput) :
    Op.Scripted D (.renewLiveChatRequest ctx input) := by
  simp only [Op.Scripted, Op.program, Op.resolver, renewLiveChatRequest, authenticated, wp_map,
    wp_bind, wp_orFail, wp_lift, keeps_execute, keeps_fetch (.lease _ _ _), keeps_now,
    wp_addSeconds, issues_removeExpiredChats, issues_select, issues_now, Except.map, wp_pure,
    returns_error, implies_true, and_true, true_and]
  rintro sender hsender m found row rfl hard hhard t lease hlease
  obtain rfl := DateTime.addSeconds_eq_some hlease
  exact ⟨⟨ctx, sender, input, row, hard, t, m, rfl, hsender, rfl, parseDatetime_eq_ok.mp hhard,
    rfl, rfl⟩,
    fun _ => trivial⟩

lemma cancelLiveChatRequest_scripted (ctx : Context) (input : CancelLiveChatRequestInput) :
    Op.Scripted D (.cancelLiveChatRequest ctx input) := by
  simp only [Op.Scripted, Op.program, Op.resolver, cancelLiveChatRequest, authenticated, wp_map,
    wp_bind, wp_orFail, keeps_fetch (.owner _ _), issues_select, Except.map, returns_error,
    implies_true, and_true, true_and]
  intro sender hsender owner
  cases owner with
  | none => trivial
  | some owner =>
    simp only [wp_bind, wp_refuse, keeps_execute, wp_pure, returns_error, implies_true,
      and_true, true_and]
    intro howner
    obtain rfl := not_not.mp howner
    exact ⟨⟨ctx, owner, input, rfl, hsender, rfl, rfl, rfl⟩, fun _ => trivial⟩

lemma blockIdentity_scripted (ctx : Context) (input : BlockIdentityInput) :
    Op.Scripted D (.blockIdentity ctx input) := by
  simp only [Op.Scripted, Op.program, Op.resolver, blockIdentity, authenticated, wp_map,
    wp_bind, wp_orFail, wp_lift, wp_refuse, keeps_now, keeps_execute,
    keeps_fetch (.blockTarget _), keeps_fetch (.blockCreatedAt _ _), issues_select, issues_now,
    Except.map, wp_pure, returns_error, implies_true, and_true, true_and]
  rintro blocker hblocker name hname found target rfl hne t
  have hb : Blocking ctx input blocker name target := ⟨hblocker, hname, hne⟩
  refine ⟨⟨ctx, input, name, target, t, rfl, hb, rfl, rfl⟩, fun n => ?_⟩
  refine ⟨⟨ctx, input, name, target, t, n, rfl, hb, rfl, rfl⟩, fun m stored ts hts at_ hat => ?_⟩
  subst hts
  exact ⟨ctx, input, blocker, name, target, t, m, n, ts, rfl, hb, rfl, rfl,
    parseDatetime_eq_ok.mp hat, rfl⟩

lemma unblockIdentity_scripted (ctx : Context) (input : UnblockIdentityInput) :
    Op.Scripted D (.unblockIdentity ctx input) := by
  simp only [Op.Scripted, Op.program, Op.resolver, unblockIdentity, authenticated, wp_map,
    wp_bind, wp_orFail, keeps_execute, Except.map, wp_pure, returns_error, implies_true,
    and_true]
  exact fun blocker hblocker => ⟨⟨ctx, rfl, hblocker, rfl⟩, fun _ => trivial⟩

lemma liveChatRequests_scripted (ctx : Context) : Op.Scripted D (.liveChatRequests ctx) := by
  simp only [Op.Scripted, Op.program, Op.resolver, liveChatRequests, authenticated, wp_map,
    wp_bind, wp_orFail, keeps_execute, keeps_fetch (.liveChatRequests _), wp_lift,
    issues_select, issues_removeExpiredChats, Except.map, returns_error, implies_true, and_true,
    true_and]
  exact fun account haccount n rows x hx => ⟨ctx, account, rows, n, rfl, haccount, hx, rfl⟩

lemma findAccount_keeps {φ : Past Command Command.Ans → Command → Prop}
    {ψ : Past Command Command.Ans → Except Failure (Option AccountIdentity) → Prop}
    {h : Past Command Command.Ans} (column value : Text) (hφ : ∀ h q, φ h (.select q))
    (hψ : ∀ h r, ψ h r) : (findAccount column value).run.Keeps φ ψ h := by
  rw [findAccount]
  split_ifs
  · simp only [wp_bind, keeps_fetch (.accountByIdentitty _), wp_lift, hφ, hψ, implies_true,
      and_true]
  · simp only [wp_bind, keeps_fetch (.accountById _), wp_lift, hφ, hψ, implies_true,
      and_true]
  · exact hψ _ _

theorem scripted (op : Op) : op.Scripted D := by
  cases op with
  | registerAccount ctx input => exact registerAccount_scripted D ctx input
  | requestChallenge ctx accountId => exact requestChallenge_scripted D ctx accountId
  | authenticate ctx input => exact authenticate_scripted D ctx input
  | sendLiveChatRequest ctx input => exact sendLiveChatRequest_scripted D ctx input
  | renewLiveChatRequest ctx input => exact renewLiveChatRequest_scripted D ctx input
  | cancelLiveChatRequest ctx input => exact cancelLiveChatRequest_scripted D ctx input
  | blockIdentity ctx input => exact blockIdentity_scripted D ctx input
  | unblockIdentity ctx input => exact unblockIdentity_scripted D ctx input
  | liveChatRequests ctx => exact liveChatRequests_scripted D ctx
  | isIdentittyAvailable value =>
    simp only [Op.Scripted, Op.program, Op.resolver, isIdentittyAvailable, wp_map, wp_bind,
      wp_lift, keeps_fetch (.identittyExists _), issues_select, Except.map, wp_pure,
      returns_error, implies_true, and_true, true_and]
    exact fun _ _ _ => trivial
  | account value =>
    simp only [Op.Scripted, Op.program, Op.resolver, account, wp_map, wp_bind, wp_lift,
      Except.map, returns_error, implies_true, and_true]
    exact fun name _ => findAccount_keeps _ _ (fun _ _ => trivial) fun _ r => by cases r <;> trivial
  | accountById accountId =>
    simp only [Op.Scripted, Op.program, Op.resolver, accountById, wp_map]
    exact findAccount_keeps _ _ (fun _ _ => trivial) fun _ r => by cases r <;> trivial
  | me ctx =>
    simp only [Op.Scripted, Op.program, Op.resolver, me, authenticated, wp_map, wp_bind,
      wp_orFail, Except.map, returns_error, implies_true, and_true]
    exact fun name _ => findAccount_keeps _ _ (fun _ _ => trivial) fun _ r => by cases r <;> trivial
  | blockedIdentities ctx =>
    simp only [Op.Scripted, Op.program, Op.resolver, blockedIdentities, authenticated, wp_map,
      wp_bind, wp_orFail, wp_lift, keeps_fetch (.blockedIdentities _), issues_select,
      Except.map, returns_error, implies_true, and_true, true_and]
    exact fun _ _ _ _ _ => trivial
  | cleanupTick =>
    simp only [Op.Scripted, Op.program, Op.resolver, cleanupTick, wp_map, wp_bind,
      keeps_attempt, issues_removeExpiredChats, wp_pure, Except.map, true_and]
    exact fun _ => trivial
  | startup =>
    simp only [Op.Scripted, Op.program, Op.resolver, startup, wp_map, wp_bind, keeps_execute,
      issues_removeExpiredChats, wp_pure, Except.map, returns_error, implies_true, and_true,
      true_and]
    exact ⟨⟨rfl, rfl⟩, fun _ _ => trivial⟩

end TittyBackend
