import TittyBackend.Admission

/-!
# Why the service fails

Whatever runs at the same time, the service never panics, and an internal error has one of four
causes outside of the operation that answers it: the storage, an overlapping send of the same
request, an overlapping unblock, or a caller without an account.
-/

namespace TittyBackend

open Numerals Programs Programs.System Resolver
open DateTime (seconds)

variable {D : Deployment} {P : Service D → Action Op Choice → Prop} {d₀ : Db} {t₀ : ℤ}
  {s : Service D}

/-! ### What an operation has seen when it fails -/

/-- A query that has answered what cannot be shown. -/
def Garbled : Exchange Command Command.Ans → Prop
  | ⟨.select (.existingRequest _ _), .ok (some row)⟩ => ∀ x, row.intoSubmission ≠ .ok x
  | ⟨.select (.lease _ _ _), .ok (some row)⟩ => ∀ t, parseDatetime row.hardExpiresAt ≠ .ok t
  | ⟨.select (.blockCreatedAt _ _), .ok (some ts)⟩ => ∀ t, parseDatetime ts ≠ .ok t
  | ⟨.select (.accountByIdentitty _), .ok (some row)⟩
  | ⟨.select (.accountById _), .ok (some row)⟩ => ∀ x, row.toIdentity ≠ .ok x
  | ⟨.select (.blockedIdentities _), .ok rows⟩ => ∃ row ∈ rows, ∀ x, row.intoModel ≠ .ok x
  | ⟨.select (.liveChatRequests _), .ok rows⟩ => ∃ row ∈ rows, ∀ x, row.intoModel ≠ .ok x
  | _ => False

/-- What an operation has seen when it fails. -/
inductive Faults (D : Deployment) (past : Past Command Command.Ans) : Failure → Prop
  | refused {e : ApiError} (he : e ≠ .internal) : Faults D past (.api e)
  | broken {x : Exchange Command Command.Ans} (hx : Broken x) (hpast : x ∈ past) :
      Faults D past (.api .internal)
  | select {q : Select} {e : SqlError} (hpast : ⟨.select q, .error e⟩ ∈ past) :
      Faults D past (.api .internal)
  | execute {u : Write} {e : SqlError} (hpast : ⟨.execute u, .error e⟩ ∈ past)
      (hu : ∀ r, u = .insertAccount r → e ≠ .unique) : Faults D past (.api .internal)
  | garbled {x : Exchange Command Command.Ans} {f : Failure} (hx : Garbled x) (hpast : x ∈ past) :
      Faults D past f
  /-- The row of a block is not there any more. -/
  | vanished {blocker blocked text : Text} {n m : ℕ} {rest : Past Command Command.Ans}
      (hpast : past = ⟨.select (.blockCreatedAt blocker blocked), .ok none⟩ ::
        ⟨.execute (.deleteChatsBetween blocked blocker), .ok m⟩ ::
          ⟨.execute (.insertBlock ⟨blocker, blocked, text⟩), .ok n⟩ :: rest) :
      Faults D past (.api .internal)
  /-- A sum with an instant that was read is out of range. -/
  | late {t n : ℤ} {f : Failure} (ht : ⟨.now, t⟩ ∈ past)
      (hn : n = 90 ∨ n = 15 * 60 ∨ n = D.challengeTtlSeconds)
      (hnone : DateTime.addSeconds t n = none) : Faults D past f
  /-- No session can be issued. -/
  | unissued {t : ℤ} {accountId : Text} {f : Failure} (ht : ⟨.now, t⟩ ∈ past)
      (hno : ∀ e token, DateTime.addSeconds t D.sessionTtlSeconds = some e →
        D.encode (sessionClaims D accountId t e) D.jwtSecret ≠ some token) : Faults D past f

section ends

variable {past : Past Command Command.Ans}

@[simp] lemma faults_api {e : ApiError} (he : e ≠ .internal) : Faults D past (.api e) := .refused he

@[simp] lemma faults_execute {u : Write} (e : SqlError) (hu : ∀ r, u ≠ .insertAccount r) :
    Faults D (⟨.execute u, .error e⟩ :: past) (.api .internal) :=
  .execute List.mem_cons_self fun r h => absurd h (hu r)

lemma faults_normaliseIdentitty {value : Text} {e : ApiError}
    (h : normaliseIdentitty value = .error e) : Faults D past (.api e) := by
  obtain rfl := normaliseIdentitty_error h
  exact .refused (by simp)

/-- An operation that fails has seen why. -/
def EndsWell (D : Deployment) {α : Type} (past : Past Command Command.Ans) :
    Except Failure α → Prop
  | .ok _ => True
  | .error f => Faults D past f

variable {α : Type}

@[simp] lemma endsWell_ok (a : α) : EndsWell D past (.ok a) := trivial

@[simp] lemma endsWell_error {f : Failure} :
    EndsWell (α := α) D past (.error f) ↔ Faults D past f := Iff.rfl

end ends

/-- `collect` of results of which one is not there. -/
lemma exists_of_mapM_error {α β ε : Type} {f : α → Except ε β} {rows : List α} {e : ε}
    (h : rows.mapM f = .error e) : ∃ a ∈ rows, ∀ b, f a ≠ .ok b := by
  induction rows generalizing e with
  | nil => cases h
  | cons a rows ih =>
    rw [List.mapM_cons] at h
    cases ha : f a with
    | error e' => exact ⟨a, List.mem_cons_self, fun b => by simp [ha]⟩
    | ok b =>
      cases hrows : rows.mapM f with
      | error e' =>
        obtain ⟨a', ha', hbad⟩ := ih hrows
        exact ⟨a', List.mem_cons_of_mem _ ha', hbad⟩
      | ok bs =>
        rw [ha, hrows] at h
        cases h

lemma registerAccount_endsWell (ctx : Context) (input : RegisterAccountInput) :
    (Op.program D (.registerAccount ctx input)).Keeps (fun _ _ => True) (EndsWell D) [] := by
  simp only [Op.program, Op.resolver, registerAccount, wp_map, wp_bind, keeps_enforce,
    wp_lift, wp_orFail, wp_refuse, keeps_now, keeps_attempt, Except.map, true_and]
  simp
  refine ⟨fun name _ key _ _ _ t x => ?_, fun e he => faults_normaliseIdentitty he⟩
  rcases x with (_ | _ | _) | n
  case ok => exact trivial
  · exact .refused (by simp)
  all_goals exact .execute List.mem_cons_self (by simp)

lemma requestChallenge_endsWell (ctx : Context) (accountId : Text) :
    (Op.program D (.requestChallenge ctx accountId)).Keeps (fun _ _ => True) (EndsWell D) [] := by
  simp only [Op.program, Op.resolver, requestChallenge, wp_map, wp_bind, keeps_enforce,
    wp_refuse, keeps_fetch (.accountExists _), keeps_newUuid, keeps_fillBytes, keeps_now,
    wp_addSeconds, keeps_execute, Except.map, wp_pure, true_and]
  simp
  exact ⟨fun _ _ t hnone => .late List.mem_cons_self (.inr (.inr rfl)) hnone,
    fun e => Faults.select List.mem_cons_self⟩

lemma authenticate_endsWell (ctx : Context) (input : AuthenticateInput) :
    (Op.program D (.authenticate ctx input)).Keeps (fun _ _ => True) (EndsWell D) [] := by
  refine (authenticate_loginEnds ctx input).mono (fun _ _ h => h) fun past r hends => ?_
  cases hends with
  | session => trivial
  | limited => exact .refused (by simp)
  | declined he =>
    cases he with
    | broken he hpast => exact .broken he hpast
    | absent | stale => exact .refused (by simp)
    | refused _ _ _ he => rcases he with rfl | rfl <;> exact .refused (by simp)
  | @unissued t r ht hno =>
    cases r with
    | error f => exact .unissued ht hno
    | ok x => trivial

lemma submitRequest_endsWell {sender name : Text} {key payload : List UInt8} {c : Uuid}
    {past : Past Command Command.Ans} :
    (submitRequest sender key payload name c).run.Keeps (fun _ _ => True) (EndsWell D) past := by
  simp only [submitRequest, wp_bind, keeps_fetch (.activeCount _), wp_refuse, keeps_now,
    wp_addSeconds, keeps_newUuid, keeps_fetch (.recipient _), wp_pure, true_and]
  simp
  refine ⟨fun m _ t => ⟨fun lease _ => ⟨fun hard _ u v => ?_, fun hnone => ?_⟩, fun hnone => ?_⟩,
    fun _ => Faults.select List.mem_cons_self⟩
  · refine ⟨fun recipient => ?_, fun _ => Faults.select List.mem_cons_self⟩
    rw [insertUnlessHidden.eq_def]
    cases recipient with
    | none => trivial
    | some recipient =>
      simp only [wp_bind, keeps_fetch (.blockExists _ _), true_and]
      refine ⟨fun blocked => ?_, fun _ => Faults.select List.mem_cons_self⟩
      split_ifs
      · simp
      · trivial
  · exact .late List.mem_cons_self (.inr (.inl rfl)) hnone
  · exact .late List.mem_cons_self (.inl rfl) hnone

lemma sendLiveChatRequest_endsWell (ctx : Context) (input : SendLiveChatRequestInput) :
    (Op.program D (.sendLiveChatRequest ctx input)).Keeps (fun _ _ => True) (EndsWell D) [] := by
  simp only [Op.program, Op.resolver, sendLiveChatRequest, authenticated, wp_map, wp_bind,
    wp_orFail, wp_lift, keeps_execute, keeps_fetch (.publicKey _),
    keeps_fetch (.existingRequest _ _), Except.map, true_and]
  simp
  refine fun sender _ => ⟨fun payload _ => ⟨fun name _ n => ⟨?_, fun e => ?_⟩, fun e he => ?_⟩,
    fun e he => ?_⟩
  · rintro found key -
    refine ⟨fun existing => ?_, fun e => .select List.mem_cons_self⟩
    cases existing with
    | some row =>
      simp only [wp_lift]
      refine ⟨fun x _ => trivial, fun e he => .garbled ?_ List.mem_cons_self⟩
      intro x hx
      rw [he] at hx
      cases hx
    | none =>
      refine (submitRequest_endsWell (D := D)).mono (fun _ _ h => h) fun past r hr => ?_
      cases r with
      | error f => exact hr
      | ok x => trivial
  · exact .select List.mem_cons_self
  · exact faults_normaliseIdentitty he
  · obtain rfl := decodePayload_error he
    exact .refused (by simp)

lemma renewLiveChatRequest_endsWell (ctx : Context) (input : RenewLiveChatRequestInput) :
    (Op.program D (.renewLiveChatRequest ctx input)).Keeps (fun _ _ => True) (EndsWell D) [] := by
  simp only [Op.program, Op.resolver, renewLiveChatRequest, authenticated, wp_map, wp_bind,
    wp_orFail, wp_lift, keeps_execute, keeps_fetch (.lease _ _ _), keeps_now,
    wp_addSeconds, Except.map, wp_pure, true_and]
  simp
  refine fun sender _ n => ⟨?_, fun e => .select List.mem_cons_self⟩
  rintro found row rfl
  refine ⟨fun hard _ t hnone => .late List.mem_cons_self (.inl rfl) hnone, fun e he => ?_⟩
  refine .garbled ?_ List.mem_cons_self
  intro t ht
  rw [he] at ht
  cases ht

lemma cancelLiveChatRequest_endsWell (ctx : Context) (input : CancelLiveChatRequestInput) :
    (Op.program D (.cancelLiveChatRequest ctx input)).Keeps (fun _ _ => True) (EndsWell D) [] := by
  simp only [Op.program, Op.resolver, cancelLiveChatRequest, authenticated, wp_map, wp_bind,
    wp_orFail, keeps_fetch (.owner _ _), Except.map, true_and]
  simp
  refine fun sender _ => ⟨fun owner => ?_, fun e => .select List.mem_cons_self⟩
  cases owner with
  | none => trivial
  | some owner => simp

lemma blockIdentity_endsWell (ctx : Context) (input : BlockIdentityInput) :
    (Op.program D (.blockIdentity ctx input)).Keeps (fun _ _ => True) (EndsWell D) [] := by
  simp only [Op.program, Op.resolver, blockIdentity, authenticated, wp_map,
    wp_bind, wp_orFail, wp_lift, wp_refuse, keeps_now, keeps_execute,
    keeps_fetch (.blockTarget _), keeps_fetch (.blockCreatedAt _ _), Except.map, wp_pure, true_and]
  simp
  refine fun blocker _ => ⟨fun name _ => ⟨?_, fun e => .select List.mem_cons_self⟩,
    fun e he => faults_normaliseIdentitty he⟩
  rintro found target - - t n m
  refine ⟨fun stored => ⟨?_, ?_⟩, fun e => .select List.mem_cons_self⟩
  · rintro text rfl e he
    refine .garbled ?_ List.mem_cons_self
    intro t ht
    rw [he] at ht
    cases ht
  · rintro rfl
    exact .vanished rfl

lemma liveChatRequests_endsWell (ctx : Context) :
    (Op.program D (.liveChatRequests ctx)).Keeps (fun _ _ => True) (EndsWell D) [] := by
  simp only [Op.program, Op.resolver, liveChatRequests, authenticated, wp_map,
    wp_bind, wp_orFail, keeps_execute, keeps_fetch (.liveChatRequests _), wp_lift, Except.map,
    true_and]
  simp
  refine fun account _ n => ⟨fun rows e he => ?_, fun e => .select List.mem_cons_self⟩
  exact .garbled (x := ⟨.select (.liveChatRequests account), .ok rows⟩) (exists_of_mapM_error he)
    List.mem_cons_self

lemma blockedIdentities_endsWell (ctx : Context) :
    (Op.program D (.blockedIdentities ctx)).Keeps (fun _ _ => True) (EndsWell D) [] := by
  simp only [Op.program, Op.resolver, blockedIdentities, authenticated, wp_map,
    wp_bind, wp_orFail, keeps_fetch (.blockedIdentities _), wp_lift, Except.map, true_and]
  simp
  refine fun account _ => ⟨fun rows e he => ?_, fun e => .select List.mem_cons_self⟩
  exact .garbled (x := ⟨.select (.blockedIdentities account), .ok rows⟩) (exists_of_mapM_error he)
    List.mem_cons_self

lemma findAccount_endsWell {past : Past Command Command.Ans} {column value : Text}
    (hcolumn : column = "identitty".toList ∨ column = "account_id".toList) :
    (findAccount column value).run.Keeps (fun _ _ => True) (EndsWell D) past := by
  have hmapM : ∀ (row : Option AccountRow) (e : ApiError),
      row.mapM AccountRow.toIdentity = .error e →
        ∃ a, row = some a ∧ ∀ x, a.toIdentity ≠ .ok x := by
    intro row e he
    cases row with
    | none => cases he
    | some a =>
      refine ⟨a, rfl, fun x hx => ?_⟩
      rw [Option.mapM_some, hx] at he
      cases he
  rw [findAccount]
  split_ifs with hname hid
  · simp only [wp_bind, keeps_fetch (.accountByIdentitty _), wp_lift, true_and]
    refine ⟨fun row => ⟨fun x _ => trivial, fun e he => ?_⟩, fun e => .select List.mem_cons_self⟩
    obtain ⟨a, rfl, hbad⟩ := hmapM row e he
    exact .garbled (x := ⟨.select (.accountByIdentitty value), .ok (some a)⟩) hbad
      List.mem_cons_self
  · simp only [wp_bind, keeps_fetch (.accountById _), wp_lift, true_and]
    refine ⟨fun row => ⟨fun x _ => trivial, fun e he => ?_⟩, fun e => .select List.mem_cons_self⟩
    obtain ⟨a, rfl, hbad⟩ := hmapM row e he
    exact .garbled (x := ⟨.select (.accountById value), .ok (some a)⟩) hbad List.mem_cons_self
  · rcases hcolumn with h | h
    · exact absurd h hname
    · exact absurd h hid

/-- Every operation that fails has seen why. -/
theorem endsWell (op : Op) : (op.program D).Keeps (fun _ _ => True) (EndsWell D) [] := by
  have hmap : ∀ {past : Past Command Command.Ans} (r : Except Failure (Option AccountIdentity)),
      EndsWell D past r → EndsWell D past (r.map Answer.identity?) := by
    intro past r hr
    cases r with
    | error f => exact hr
    | ok x => trivial
  cases op with
  | registerAccount ctx input => exact registerAccount_endsWell ctx input
  | requestChallenge ctx accountId => exact requestChallenge_endsWell ctx accountId
  | authenticate ctx input => exact authenticate_endsWell ctx input
  | sendLiveChatRequest ctx input => exact sendLiveChatRequest_endsWell ctx input
  | renewLiveChatRequest ctx input => exact renewLiveChatRequest_endsWell ctx input
  | cancelLiveChatRequest ctx input => exact cancelLiveChatRequest_endsWell ctx input
  | blockIdentity ctx input => exact blockIdentity_endsWell ctx input
  | blockedIdentities ctx => exact blockedIdentities_endsWell ctx
  | liveChatRequests ctx => exact liveChatRequests_endsWell ctx
  | unblockIdentity ctx input =>
    simp only [Op.program, Op.resolver, unblockIdentity, authenticated, wp_map, wp_bind,
      wp_orFail, keeps_execute, Except.map, wp_pure, true_and]
    simp
  | isIdentittyAvailable value =>
    simp only [Op.program, Op.resolver, isIdentittyAvailable, wp_map, wp_bind, wp_lift,
      keeps_fetch (.identittyExists _), Except.map, wp_pure, true_and]
    exact ⟨fun name _ => ⟨fun _ => trivial, fun e => .select List.mem_cons_self⟩,
      fun e he => faults_normaliseIdentitty he⟩
  | account value =>
    simp only [Op.program, Op.resolver, account, wp_map, wp_bind, wp_lift]
    refine ⟨fun name _ => ?_, fun e he => faults_normaliseIdentitty he⟩
    exact (findAccount_endsWell (.inl rfl)).mono (fun _ _ h => h) fun _ _ => hmap _
  | accountById accountId =>
    simp only [Op.program, Op.resolver, accountById, wp_map]
    exact (findAccount_endsWell (.inr rfl)).mono (fun _ _ h => h) fun _ _ => hmap _
  | me ctx =>
    simp only [Op.program, Op.resolver, me, authenticated, wp_map, wp_bind, wp_orFail]
    refine ⟨fun name _ => ?_, fun _ => .refused (by simp)⟩
    exact (findAccount_endsWell (.inr rfl)).mono (fun _ _ h => h) fun _ _ => hmap _
  | cleanupTick =>
    simp only [Op.program, Op.resolver, cleanupTick, wp_map, wp_bind, keeps_attempt, wp_pure,
      Except.map, true_and]
    exact fun _ => trivial
  | startup =>
    simp only [Op.program, Op.resolver, startup, wp_map, wp_bind, keeps_execute, wp_pure,
      Except.map, true_and]
    simp

/-! ### What was stored can be shown -/

lemma BlockedIdentityRow.intoModel_eq_ok (row : BlockedIdentityRow) {t : ℤ}
    (h : parseFromRfc3339 row.createdAt = some t) : ∃ x, row.intoModel = .ok x := by
  simp only [intoModel, parseDatetime, h]
  exact ⟨_, rfl⟩

/-- The time of a block can be read. -/
lemma parse_of_block (h : Reach (Readings InEra) ((service D).start (World.init .empty t₀)) s)
    {b : BlockRecord} (hb : b ∈ s.world.db.blocks.rows) :
    ∃ t, parseFromRfc3339 b.createdAt = some t := by
  obtain ⟨j, _, _, _, _, t, -, -, heq, hnow⟩ := (provenance h).blocks b hb
  refine ⟨t, ?_⟩
  rw [heq, parse_toRfc3339 (reading_of_now h hnow)]

/-- Whatever a query answers can be shown. -/
theorem not_garbled (h : Reach (Readings Early) ((service D).start (World.init .empty t₀)) s)
    {i : ℕ} {x : Exchange Command Command.Ans} (hx : .exec i x ∈ s.log) : ¬ Garbled x := by
  obtain ⟨s₁, ch, w', h₁, heff, -⟩ := effect_of_log h hx
  have hera := inEra_of_early h₁
  have hsound : ∀ r ∈ s₁.world.db.chats.rows, r.Sound s₁.world.db s₁.world.clock := fun r hr => by
    obtain ⟨c, e, ht⟩ := timed h₁ r hr
    exact sound_of_timed h₁ hr ht
  have htrue : Quiet x → Truthful D i ch s₁.world x := heff.truthful
  obtain ⟨c, a⟩ := x
  cases c with
  | select q =>
    cases a with
    | error e => cases q <;> exact id
    | ok a =>
      have ha : a = q.eval D ch.reading s₁.world.db := htrue trivial
      cases q with
      | existingRequest sender clientRequestId =>
        cases a with
        | none => exact id
        | some row =>
          obtain ⟨r, hr, rfl⟩ := Option.map_eq_some_iff.mp ha.symm
          obtain ⟨y, hy⟩ := (hsound r (List.mem_of_find?_eq_some hr)).intoSubmission
          exact fun hbad => hbad y hy
      | lease requestId leaseId sender =>
        cases a with
        | none => exact id
        | some row =>
          obtain ⟨r, hr, rfl⟩ := Option.map_eq_some_iff.mp ha.symm
          obtain ⟨t, ht⟩ := (hsound r (List.mem_of_find?_eq_some hr)).renewal
          exact fun hbad => hbad t ht
      | blockCreatedAt blocker blocked =>
        cases a with
        | none => exact id
        | some text =>
          obtain ⟨b, hb, rfl⟩ := Option.map_eq_some_iff.mp ha.symm
          obtain ⟨t, ht⟩ := parse_of_block hera (List.mem_of_find?_eq_some hb)
          exact fun hbad => hbad t (parseDatetime_eq_ok.mpr ht)
      | accountByIdentitty name =>
        cases a with
        | none => exact id
        | some row =>
          obtain ⟨y, hy⟩ := (presentable hera row (List.mem_of_find?_eq_some ha.symm)).shown
          exact fun hbad => hbad y hy
      | accountById accountId =>
        cases a with
        | none => exact id
        | some row =>
          obtain ⟨y, hy⟩ := (presentable hera row (List.mem_of_find?_eq_some ha.symm)).shown
          exact fun hbad => hbad y hy
      | blockedIdentities blocker =>
        rintro ⟨row, hrow, hbad⟩
        rw [ha, Select.eval, (List.perm_insertionSort _ _).mem_iff, List.mem_filterMap] at hrow
        obtain ⟨b, hb, hjoin⟩ := hrow
        obtain ⟨_, -, rfl⟩ := Option.map_eq_some_iff.mp hjoin
        obtain ⟨t, ht⟩ := parse_of_block hera (List.mem_of_mem_filter hb)
        obtain ⟨y, hy⟩ := BlockedIdentityRow.intoModel_eq_ok ⟨_, _, b.createdAt⟩ ht
        exact hbad y hy
      | liveChatRequests account =>
        rintro ⟨row, hrow, hbad⟩
        rw [ha] at hrow
        obtain ⟨r, hr, -, -, hjoin⟩ := Select.mem_liveChatRequests D hrow
        obtain ⟨_, -, rfl⟩ := Option.map_eq_some_iff.mp hjoin
        obtain ⟨y, hy⟩ := (hsound r hr).intoModel _
        exact hbad y hy
      | _ => exact id
  | _ => exact id

/-! ### What makes a statement fail -/

/-- The storage has failed the statement. -/
def Unavailable : Exchange Command Command.Ans → Prop
  | ⟨.select _, .error e⟩ | ⟨.execute _, .error e⟩ | ⟨.begin, .error e⟩ | ⟨.selectIn _, .error e⟩
  | ⟨.executeIn _, .error e⟩ | ⟨.commit, .error e⟩ => e = .failed
  | _ => False

/-- A statement that fails was failed by the storage, or it is a write that the database refuses. -/
lemma unavailable_or_refused (h : Reach P ((service D).start (World.init d₀ t₀)) s) {i : ℕ}
    {x : Exchange Command Command.Ans} {post pre : Log} (hlog : s.log = post ++ .exec i x :: pre)
    (hx : Broken x ∨ (∃ q e, x = ⟨.select q, .error e⟩) ∨ ∃ u e, x = ⟨.execute u, .error e⟩) :
    Unavailable x ∨ ∃ (u : Write) (e : SqlError) (s₁ : Service D) (now : ℤ),
      x = ⟨.execute u, .error e⟩ ∧ Reach P ((service D).start (World.init d₀ t₀)) s₁ ∧
        s₁.log = pre ∧ Reach P s₁ s ∧ u.apply D now s₁.world.db = .error e := by
  obtain ⟨s₁, s₂, ch, h₁, rfl, -, -, hn, hl₂, -, -, hrest⟩ := exec_of_log h hlog
  obtain ⟨op, -, hissues⟩ := h.log_exec (scripted D) hlog
  obtain ⟨c, a⟩ := x
  have ha : a = (c.exec D i ch s₁.world).1 := answer_of_next hn hl₂
  cases c with
  | select q =>
    rw [Command.exec] at ha
    split_ifs at ha
    · exact .inl (ha ▸ rfl)
    · subst ha
      simp [Broken] at hx
  | execute u =>
    rw [Command.exec] at ha
    split_ifs at ha
    · exact .inl (ha ▸ rfl)
    · cases hu : u.apply D ch.reading s₁.world.db with
      | ok r =>
        rw [hu] at ha
        subst ha
        simp [Broken] at hx
      | error e =>
        rw [hu] at ha
        exact .inr ⟨u, e, s₁, ch.reading, by rw [ha], h₁, rfl, hrest, hu⟩
  | begin =>
    rw [Command.exec] at ha
    split_ifs at ha
    · exact .inl (ha ▸ rfl)
    · subst ha
      simp [Broken] at hx
  | selectIn q =>
    rw [Command.exec] at ha
    split_ifs at ha
    · exact .inl (ha ▸ rfl)
    · subst ha
      simp [Broken] at hx
  | executeIn u =>
    obtain ⟨ctx, input, row, t, t', -, -, rfl, -⟩ := hissues
    rw [Command.exec] at ha
    split_ifs at ha
    · exact .inl (ha ▸ rfl)
    · have hok : a = .ok _ := ha
      subst hok
      simp [Broken] at hx
  | commit =>
    rw [Command.exec] at ha
    split_ifs at ha
    · exact .inl (ha ▸ rfl)
    · subst ha
      simp [Broken] at hx
  | _ => simp [Broken] at hx

/-! ### Writes that the database refuses -/

/-- What a query has answered was so in an earlier state, and accounts are only added since. -/
lemma read_earlier (h : Reach P ((service D).start (World.init d₀ t₀)) s) {i : ℕ} {q : Select}
    {y : q.Ans} (hq : ⟨.select q, .ok y⟩ ∈ own i s.log) :
    ∃ (d : Db) (now : ℤ), y = q.eval D now d ∧
      d.accounts.rows ⊆ s.world.db.accounts.rows := by
  obtain ⟨post, pre, hlog⟩ := List.append_of_mem (mem_own.mp hq)
  obtain ⟨s₁, _, ch, h₁, -, -, -, -, -, -, heff, hrest⟩ := exec_of_log h hlog
  exact ⟨s₁.world.db, ch.reading, heff.truthful trivial, (accounts_grow h₁ hrest).subset⟩

/-- A challenge is not refused: its id is new, and its account has been found. -/
lemma insertChallenge_ok (h : Reach P ((service D).start (World.init .empty t₀)) s) {i : ℕ}
    {op : Op} {challengeId accountId expiresAt : Text} {challenge : List UInt8} {now : ℤ}
    {e : SqlError} (hi : op.Issues D (own i s.log)
      (.execute (.insertChallenge challengeId accountId challenge expiresAt)))
    (hu : (Write.insertChallenge challengeId accountId challenge expiresAt).apply D now
      s.world.db = .error e) : False := by
  have hissues := hi
  obtain ⟨ctx, u, bytes, t, e', -, hid, -, -, -, hpast⟩ := hi
  simp only [Write.apply] at hu
  split_ifs at hu with hf ha
  · have hread : ⟨.select (.accountExists accountId), .ok true⟩ ∈ own i s.log := by
      simp [hpast, challengePast]
    obtain ⟨d, _, htrue, hsub⟩ := read_earlier h hread
    obtain ⟨a, ha', hacc⟩ := List.any_eq_true.mp htrue.symm
    exact ha ⟨a, hsub ha', of_decide_eq_true hacc⟩
  · simp only [Relational.Table.Fresh, not_forall, not_not] at hf
    obtain ⟨c, hc, hclash⟩ := hf
    obtain ⟨j, v, bytes', e', hissued, hv, -⟩ := (provenance h).challenges c hc
    have hsame : challengeId = v.toText := hclash.symm.trans hv
    rw [hsame] at hissues
    exact not_issued_again h hissued hissues

/-- A request is refused only if its sender has stored one under the same client request id. -/
lemma insertChat_refused (h : Reach P ((service D).start (World.init .empty t₀)) s) {i : ℕ}
    {op : Op} {r : ChatRecord} {now : ℤ} {e : SqlError}
    (hi : op.Issues D (own i s.log) (.execute (.insertChat r)))
    (hu : (Write.insertChat r).apply D now s.world.db = .error e) :
    ∃ row ∈ s.world.db.chats.rows, row.senderAccountId = r.senderAccountId ∧
      row.clientRequestId = r.clientRequestId := by
  obtain ⟨ctx, input, u, v, t, name, n, m, -, hs, -, hpast⟩ := hi
  have hmem : ∀ x ∈ sendPast r u v t name n m, x ∈ own i s.log := fun x hx => hpast ▸ hx
  have hsender : s.world.db.HasAccount r.senderAccountId := by
    obtain ⟨a, ha, hid, -⟩ := sender_of_read h
      (mem_own.mp (hmem ⟨.select (.publicKey r.senderAccountId), .ok (some r.senderPublicKey)⟩
        (by simp [sendPast])))
    exact ⟨a, ha, hid⟩
  have hrecipient : s.world.db.HasAccount r.recipientAccountId := by
    obtain ⟨d, _, hread, hsub⟩ := read_earlier h
      (hmem ⟨.select (.recipient name), .ok (some r.recipientAccountId)⟩ (by simp [sendPast]))
    obtain ⟨a, ha, hid⟩ := Option.map_eq_some_iff.mp hread.symm
    exact ⟨a, hsub (List.mem_of_find?_eq_some ha), hid⟩
  have hno : ∀ r' k, .exec i ⟨.execute (.insertChat r'), .ok k⟩ ∉ s.log := by
    intro r' k hins
    have hown := mem_own.mpr hins
    simp [hpast, sendPast] at hown
  obtain ⟨-, row, hrow, hclash⟩ := Write.clash_of_insertChat hu hsender hrecipient
  refine ⟨row, hrow, ?_⟩
  rcases hclash with hsame | hsame | hsame
  · have hdraw := mem_own.mp (hmem ⟨.newUuid, u⟩ (by simp [sendPast]))
    exact absurd (hsame.trans hs.requestId) (Intent.ids_fresh h h .refl hdraw hno hrow).1
  · have hdraw := mem_own.mp (hmem ⟨.newUuid, v⟩ (by simp [sendPast]))
    exact absurd (hsame.trans hs.leaseId) (Intent.ids_fresh h h .refl hdraw hno hrow).2
  · exact hsame

/-- A block is refused only if its blocker has no account. -/
lemma insertBlock_refused (h : Reach P ((service D).start (World.init d₀ t₀)) s) {i : ℕ}
    {op : Op} {b : BlockRecord} {now : ℤ} {e : SqlError}
    (hi : op.Issues D (own i s.log) (.execute (.insertBlock b)))
    (hu : (Write.insertBlock b).apply D now s.world.db = .error e) :
    ¬ s.world.db.HasAccount b.blockerAccountId := by
  obtain ⟨ctx, input, name, target, t, -, hb, heq, hpast⟩ := hi
  have hread : ⟨.select (.blockTarget name), .ok (some target)⟩ ∈ own i s.log := by
    simp [hpast, blockPast]
  obtain ⟨d, _, hfound, hsub⟩ := read_earlier h hread
  obtain ⟨a, ha, hid⟩ := Option.map_eq_some_iff.mp hfound.symm
  intro hblocker
  simp only [Write.apply] at hu
  split_ifs at hu with hf hacc
  refine hacc ⟨hblocker, a, hsub (List.mem_of_find?_eq_some ha), ?_⟩
  rw [heq, ← hid]

/-- The writes that the database can refuse. -/
lemma refused_cases (h : Reach P ((service D).start (World.init .empty t₀)) s) {i : ℕ} {op : Op}
    {u : Write} {now : ℤ} {e : SqlError} (hi : op.Issues D (own i s.log) (.execute u))
    (hu : u.apply D now s.world.db = .error e) :
    (∃ r, u = .insertAccount r ∧ e = .unique) ∨
      (∃ r row, u = .insertChat r ∧ row ∈ s.world.db.chats.rows ∧
        row.senderAccountId = r.senderAccountId ∧ row.clientRequestId = r.clientRequestId) ∨
      ∃ b, u = .insertBlock b ∧ ¬ s.world.db.HasAccount b.blockerAccountId := by
  cases u with
  | insertAccount r =>
    simp only [Write.apply] at hu
    split_ifs at hu
    exact .inl ⟨r, rfl, (Except.error.inj hu).symm⟩
  | insertChallenge => exact (insertChallenge_ok h hi hu).elim
  | insertChat r =>
    obtain ⟨row, hrow, hsame⟩ := insertChat_refused h hi hu
    exact .inr (.inl ⟨r, row, rfl, hrow, hsame⟩)
  | insertBlock b => exact .inr (.inr ⟨b, rfl, insertBlock_refused h hi hu⟩)
  | _ => cases hu

/-! ### The causes -/

/-- Why operation `i` can fail. -/
inductive Cause (l : Log) (i : ℕ) (op : Op) : Prop
  | storage {x : Exchange Command Command.Ans} (hx : Unavailable x) (hlog : .exec i x ∈ l) :
      Cause l i op
  /-- While it ran, the sender stored a request under the same client request id. -/
  | retried {ctx ctx' : Context} {input input' : SendLiveChatRequestInput} {j n : ℕ}
      {r : ChatRecord} {post pre : Log} (hop : op = .sendLiveChatRequest ctx input) (hne : j ≠ i)
      (hlog : l = post ++ .exec j ⟨.execute (.insertChat r), .ok n⟩ :: pre)
      (hcall : .call i op ∈ pre) (hj : .call j (.sendLiveChatRequest ctx' input') ∈ pre)
      (haccount : ctx'.account = ctx.account)
      (hid : input'.clientRequestId = input.clientRequestId) : Cause l i op
  /-- While it ran, the blocker removed the block. -/
  | unblocked {ctx ctx' : Context} {input : BlockIdentityInput} {j n : ℕ} {blocker : Text}
      {name : Text} {target : BlockTargetRow} {post pre : Log}
      (hop : op = .blockIdentity ctx input)
      (hread : .exec i ⟨.select (.blockTarget name), .ok (some target)⟩ ∈ l)
      (hlog : l = post ++ .exec j ⟨.execute (.deleteBlock blocker target.accountId), .ok n⟩ :: pre)
      (hcall : .call i op ∈ pre) (hj : .call j (.unblockIdentity ctx' ⟨target.accountId⟩) ∈ pre)
      (haccount : ctx.account = some blocker) (haccount' : ctx'.account = some blocker) :
      Cause l i op
  /-- When it was called, nobody had registered the account of the blocker. -/
  | stranger {ctx : Context} {input : BlockIdentityInput} {blocker : Text} {post pre : Log}
      (hop : op = .blockIdentity ctx input) (haccount : ctx.account = some blocker)
      (hlog : l = post ++ .call i op :: pre)
      (hno : ∀ j r n, .exec j ⟨.execute (.insertAccount r), .ok n⟩ ∈ pre →
        r.accountId ≠ blocker) : Cause l i op

/-- A request that a send meets and has not found was stored by another send since. -/
lemma retried_of_row (h : Reach P ((service D).start (World.init .empty t₀)) s) {i : ℕ} {op : Op}
    {r row : ChatRecord} (hcall : .call i op ∈ s.log)
    (hi : op.Issues D (own i s.log) (.execute (.insertChat r)))
    (hrow : row ∈ s.world.db.chats.rows) (hsender : row.senderAccountId = r.senderAccountId)
    (hclient : row.clientRequestId = r.clientRequestId) {l post : Log} (hl : l = post ++ s.log) :
    Cause l i op := by
  obtain ⟨ctx, input, u, v, t, name, n, m, rfl, hs, -, hpast⟩ := hi
  have hread : .exec i ⟨.select (.existingRequest r.senderAccountId r.clientRequestId), .ok none⟩ ∈
      s.log := mem_own.mp (by simp [hpast, sendPast])
  obtain ⟨a, b, hlog⟩ := List.append_of_mem hread
  obtain ⟨s₀, _, ch, h₀, rfl, -, -, -, -, -, heff, hrest⟩ := exec_of_log h hlog
  have hnone : none = Select.eval D ch.reading s₀.world.db
      (.existingRequest r.senderAccountId r.clientRequestId) := heff.truthful trivial
  rw [Select.eval, eq_comm, Option.map_eq_none_iff, List.find?_eq_none] at hnone
  rcases row_earlier h₀ hrest hrow with ⟨r₁, hr₁, heq⟩ | ⟨p, j, r₀, k, hl₀, hins, heq⟩
  · refine absurd ?_ (hnone r₁ hr₁)
    rw [heq] at hsender hclient
    simp only [decide_eq_true_eq]
    exact ⟨hsender, hclient⟩
  · obtain ⟨p₁, p₂, rfl⟩ := List.append_of_mem hins
    have hlog₀ : s.log = p₁ ++ .exec j ⟨.execute (.insertChat r₀), .ok k⟩ :: (p₂ ++ s₀.log) := by
      simp [hl₀]
    obtain ⟨op', hj, ctx', input', u', v', t', name', n', m', rfl, hs', -⟩ :=
      h.log_exec (scripted D) hlog₀
    obtain ⟨op₀, hcall₀, -⟩ := h.log_exec (scripted D) hlog
    have hsub : s₀.log ⊆ s.log := hrest.log_suffix.subset
    obtain rfl := h.logged.call_unique (hsub hcall₀) hcall
    have hkey : r₀.senderAccountId = r.senderAccountId ∧
        r₀.clientRequestId = r.clientRequestId := by
      rw [heq] at hsender hclient
      exact ⟨hsender, hclient⟩
    have hne : j ≠ i := by
      rintro rfl
      have hown : ⟨.execute (.insertChat r₀), .ok k⟩ ∈ own j s.log :=
        mem_own.mpr (by simp [hlog₀])
      simp [hpast, sendPast] at hown
    have hwhole : l =
        (post ++ p₁) ++ .exec j ⟨.execute (.insertChat r₀), .ok k⟩ :: (p₂ ++ s₀.log) := by
      rw [hl, hlog₀, List.append_assoc]
    exact .retried rfl hne hwhole (List.mem_append_right _ hcall₀) hj
      (by rw [hs'.sender, hs.sender, hkey.1])
      (Uuid.toText_inj.mp (hs'.clientRequestId.symm.trans (hkey.2.trans hs.clientRequestId)))

/-- A block in the table stays until it is removed by an unblock. -/
lemma block_stays {s₁ : Service D} (h₁ : Reach P ((service D).start (World.init d₀ t₀)) s₁)
    (h : Reach P s₁ s) {blocker blocked : Text} (hb : ∃ b ∈ s₁.world.db.blocks.rows,
      b.blockerAccountId = blocker ∧ b.blockedAccountId = blocked) :
    (∃ b ∈ s.world.db.blocks.rows, b.blockerAccountId = blocker ∧ b.blockedAccountId = blocked) ∨
      ∃ post j n, s.log = post ++ s₁.log ∧
        .exec j ⟨.execute (.deleteBlock blocker blocked), .ok n⟩ ∈ post := by
  induction h with
  | refl => exact .inl hb
  | @step s₂ s₃ a h₂ hP hn ih =>
    obtain ⟨x, hx⟩ := (State.steps_of_next hn).log_eq
    rcases ih with ⟨b, hb, hkey⟩ | ⟨post, j, n, hlog, hdel⟩
    swap
    · refine .inr ⟨x :: post, j, n, ?_, List.mem_cons_of_mem _ hdel⟩
      rw [hx, hlog, List.cons_append]
    rcases step_db (h₁.trans h₂) hn with hdb | ⟨i, ch, op, u, n, -, -, -, hu, hlog⟩ |
      ⟨_, _, _, _, _, _, -, -, hu⟩
    · exact .inl ⟨b, hdb ▸ hb, hkey⟩
    · by_cases hdel : u = .deleteBlock blocker blocked
      · subst hdel
        obtain ⟨post, hpost⟩ := h₂.log_suffix
        refine .inr ⟨.exec i ⟨.execute (.deleteBlock blocker blocked), .ok n⟩ :: post, i, n, ?_,
          List.mem_cons_self⟩
        rw [hlog, ← hpost, List.cons_append]
      · refine .inl ⟨b, ?_, hkey⟩
        rw [Write.blocks_apply hu]
        cases u with
        | insertBlock r =>
          rw [Write.blockRows]
          split_ifs
          · exact List.mem_append_left _ hb
          · exact hb
        | deleteBlock blocker' blocked' =>
          refine List.mem_filter.mpr ⟨hb, decide_eq_true fun hsame => hdel ?_⟩
          rw [← hsame.1, ← hsame.2, hkey.1, hkey.2]
        | _ => exact hb
    · rw [loginUpdate] at hu
      refine .inl ⟨b, ?_, hkey⟩
      rw [Write.blocks_apply hu]
      exact hb

/-- What a block leaves in the table. -/
lemma stored_of_insertBlock {b : BlockRecord} {now : ℤ} {d d' : Db} {n : ℕ}
    (hu : (Write.insertBlock b).apply D now d = .ok (n, d')) : ∃ c ∈ d'.blocks.rows,
      c.blockerAccountId = b.blockerAccountId ∧ c.blockedAccountId = b.blockedAccountId := by
  rw [Write.blocks_apply hu, Write.blockRows]
  split_ifs with hfresh
  · exact ⟨b, List.mem_append_right _ List.mem_cons_self, rfl, rfl⟩
  · simp only [not_forall, not_not] at hfresh
    obtain ⟨c, hc, hclash⟩ := hfresh
    exact ⟨c, hc, hclash⟩

/-- A block whose row is gone was overtaken by an unblock. -/
lemma unblocked_of_vanished (h : Reach P ((service D).start (World.init d₀ t₀)) s) {i : ℕ} {op : Op}
    (hcall : .call i op ∈ s.log) {blocker blocked text : Text} {n m : ℕ}
    {rest : Past Command Command.Ans}
    (hown : own i s.log = ⟨.select (.blockCreatedAt blocker blocked), .ok none⟩ ::
      ⟨.execute (.deleteChatsBetween blocked blocker), .ok m⟩ ::
        ⟨.execute (.insertBlock ⟨blocker, blocked, text⟩), .ok n⟩ :: rest)
    {l post : Log} (hl : l = post ++ s.log) : Cause l i op := by
  obtain ⟨p, q, hlog, hq⟩ := own_eq_cons hown
  obtain ⟨s₃, _, ch, h₃, rfl, -, -, -, -, -, heff, hrest⟩ := exec_of_log h hlog
  have hnone : none = Select.eval D ch.reading s₃.world.db (.blockCreatedAt blocker blocked) :=
    heff.truthful trivial
  rw [Select.eval, eq_comm, Option.map_eq_none_iff, List.find?_eq_none] at hnone
  obtain ⟨p₁, q₁, hlog₁, hq₁⟩ := own_eq_cons hq
  obtain ⟨p₂, q₂, rfl, -⟩ := own_eq_cons hq₁
  have hins : s₃.log = (p₁ ++ .exec i ⟨.execute (.deleteChatsBetween blocked blocker), .ok m⟩ ::
      p₂) ++ .exec i ⟨.execute (.insertBlock ⟨blocker, blocked, text⟩), .ok n⟩ :: q₂ := by
    simp [hlog₁]
  obtain ⟨op', hop', ctx, input, name, target, t, rfl, hblock, heq, hpast⟩ :=
    h₃.log_exec (scripted D) hins
  obtain ⟨s₁, s₂, _, h₁, h₁₂, h₂₃, -, hlog₂, heff₂⟩ := effect_of_exec h₃ hins
  have hop₂ : .call i (.blockIdentity ctx input) ∈ s₂.log := hlog₂ ▸ List.mem_cons_of_mem _ hop'
  have hsub₂ : s₂.log ⊆ s.log := fun x hx =>
    hrest.log_suffix.subset (h₂₃.log_suffix.subset hx)
  obtain rfl := h.logged.call_unique (hsub₂ hop₂) hcall
  obtain rfl : target.accountId = blocked := (congrArg BlockRecord.blockedAccountId heq).symm
  rcases block_stays (h₁.trans h₁₂) h₂₃ (stored_of_insertBlock heff₂.execute) with
    ⟨b, hb, hkey⟩ | ⟨post', j, k, hlog₃, hdel⟩
  · refine absurd ?_ (hnone b hb)
    simp only [decide_eq_true_eq]
    exact hkey
  · obtain ⟨a, c, rfl⟩ := List.append_of_mem hdel
    have hlog_del : s₃.log = a ++ .exec j
        ⟨.execute (.deleteBlock blocker target.accountId), .ok k⟩ :: (c ++ s₂.log) := by
      simp [hlog₃]
    obtain ⟨op', hj, ctx', rfl, haccount', -⟩ := h₃.log_exec (scripted D) hlog_del
    have hwhole : l = (post ++ p ++ .exec i
        ⟨.select (.blockCreatedAt blocker target.accountId), .ok none⟩ :: a) ++
          .exec j ⟨.execute (.deleteBlock blocker target.accountId), .ok k⟩ :: (c ++ s₂.log) := by
      rw [hl, hlog, hlog_del]
      simp
    have hread : .exec i ⟨.select (.blockTarget name), .ok (some target)⟩ ∈ l := by
      rw [hl, hlog, hins]
      have hmem : .exec i ⟨.select (.blockTarget name), .ok (some target)⟩ ∈ q₂ :=
        mem_own.mp (by simp [hpast, blockPast])
      simp [hmem]
    exact .unblocked rfl hread hwhole (List.mem_append_right _ hop₂) hj hblock.account haccount'

/-- A write that the database has refused, other than that of an account, has a cause. -/
lemma cause_of_refused (h : Reach P ((service D).start (World.init .empty t₀)) s) {i : ℕ} {op : Op}
    (hcall : .call i op ∈ s.log) {u : Write} {now : ℤ} {e : SqlError}
    (hi : op.Issues D (own i s.log) (.execute u)) (hu : u.apply D now s.world.db = .error e)
    (hne : ∀ r, u = .insertAccount r → e ≠ .unique) {l post : Log} (hl : l = post ++ s.log) :
    Cause l i op := by
  rcases refused_cases h hi hu with ⟨r, rfl, rfl⟩ | ⟨r, row, rfl, hrow, hsender, hclient⟩ |
    ⟨b, rfl, hno⟩
  · exact absurd rfl (hne r rfl)
  · exact retried_of_row h hcall hi hrow hsender hclient hl
  · obtain ⟨ctx, input, name, target, t, rfl, hb, -, -⟩ := hi
    obtain ⟨a, c, hlog⟩ := List.append_of_mem hcall
    have hwhole : l = (post ++ a) ++ .call i (.blockIdentity ctx input) :: c := by
      rw [hl, hlog, List.append_assoc]
    refine .stranger rfl hb.account hwhole fun j r n hr hid => hno ⟨r, ?_, hid⟩
    refine account_stays h (j := j) (n := n) ?_
    rw [hlog]
    exact List.mem_append_right _ (List.mem_cons_of_mem _ hr)

/-- Within its years the clock can be added to. -/
lemma not_late (httl : ∀ t, Early t → ∃ e, DateTime.addSeconds t D.challengeTtlSeconds = some e)
    {t n : ℤ} (ht : Early t) (hn : n = 90 ∨ n = 15 * 60 ∨ n = D.challengeTtlSeconds) :
    DateTime.addSeconds t n ≠ none := by
  have hsec := seconds_le
  have hpos : (0 : ℤ) ≤ seconds 90 := by decide
  rcases hn with rfl | rfl | rfl
  · rw [addSeconds_of_inEra (ht.1.between ht.2 (by omega) (by omega))]
    simp
  · rw [addSeconds_of_inEra ht.2]
    simp
  · obtain ⟨e, he⟩ := httl t ht
    simp [he]

/-- Whatever runs at the same time, no operation panics, and one that answers an internal error has
met a cause of it. -/
theorem failure_caused (hsess : IssuesSessions D)
    (httl : ∀ t, Early t → ∃ e, DateTime.addSeconds t D.challengeTtlSeconds = some e)
    (h : Reach (Readings Early) ((service D).start (World.init .empty t₀)) s) {i : ℕ} {op : Op}
    {f : Failure} (hcall : .call i op ∈ s.log) (hr : .respond i (.error f) ∈ s.log) :
    f ≠ .panic ∧ (f = .api .internal → Cause s.log i op) := by
  obtain ⟨post, pre, hlog⟩ := List.append_of_mem hr
  have hpre : pre ⊆ s.log := by
    rw [hlog]
    exact fun e he => List.mem_append_right _ (List.mem_cons_of_mem _ he)
  obtain ⟨op', hop', hends⟩ := h.log_respond endsWell hlog
  obtain rfl := h.logged.call_unique (hpre hop') hcall
  -- A statement that failed has a cause, unless it is that of an account.
  have hfailed : ∀ x, x ∈ own i pre →
      (Broken x ∨ (∃ q e, x = ⟨.select q, .error e⟩) ∨ ∃ u e, x = ⟨.execute u, .error e⟩) →
      (∀ r, x ≠ ⟨.execute (.insertAccount r), .error .unique⟩) → Cause s.log i op' := by
    intro x hx hbad hne
    obtain ⟨a, b, hlogx⟩ := List.append_of_mem (hpre (mem_own.mp hx))
    rcases unavailable_or_refused h hlogx hbad with hun | ⟨u, e, s₁, now, rfl, h₁, rfl, -, hu⟩
    · exact .storage hun (hpre (mem_own.mp hx))
    · obtain ⟨op₁, hop₁, hi⟩ := h.log_exec (scripted D) hlogx
      have hsub : s₁.log ⊆ s.log := by
        rw [hlogx]
        exact fun e he => List.mem_append_right _ (List.mem_cons_of_mem _ he)
      obtain rfl := h.logged.call_unique (hsub hop₁) hcall
      have hl : s.log = (a ++ [.exec i ⟨.execute u, .error e⟩]) ++ s₁.log := by simp [hlogx]
      refine cause_of_refused h₁ hop₁ hi hu ?_ hl
      rintro r rfl rfl
      exact hne r rfl
  cases hends with
  | refused he => exact ⟨by simp, fun h => absurd (Failure.api.inj h) he⟩
  | broken hx hpast =>
    refine ⟨by simp, fun _ => hfailed _ hpast (.inl hx) ?_⟩
    rintro r rfl
    exact hx
  | select hpast =>
    exact ⟨by simp, fun _ => hfailed _ hpast (.inr (.inl ⟨_, _, rfl⟩)) fun r hx => by cases hx⟩
  | execute hpast hu =>
    refine ⟨by simp, fun _ => hfailed _ hpast (.inr (.inr ⟨_, _, rfl⟩)) fun r hx => ?_⟩
    cases hx
    exact hu r rfl rfl
  | garbled hx hpast => exact absurd hx (not_garbled h (hpre (mem_own.mp hpast)))
  | vanished hpast =>
    obtain ⟨s₁, _, _, h₁, rfl, -⟩ := h.rewind hlog (by simp [start])
    have hl : s.log = (post ++ [.respond i (.error (.api .internal))]) ++ s₁.log := by simp [hlog]
    exact ⟨by simp, fun _ => unblocked_of_vanished h₁ hop' hpast hl⟩
  | late ht hn hnone =>
    exact absurd hnone (not_late httl (reading_of_now h (hpre (mem_own.mp ht))) hn)
  | unissued ht hno =>
    obtain ⟨e, token, he, htoken⟩ := hsess _ _ (reading_of_now h (hpre (mem_own.mp ht))).1
    exact absurd htoken (hno e token he)

namespace Known

lemma issuing_inTime (t : ℤ) (ht : Early t) :
    ∃ e, DateTime.addSeconds t issuing.challengeTtlSeconds = some e := by
  have hpos : (0 : ℤ) ≤ seconds issuing.challengeTtlSeconds := by decide
  have hle : seconds issuing.challengeTtlSeconds ≤ seconds (15 * 60) := by decide
  exact ⟨_, addSeconds_of_inEra (ht.1.between ht.2 (by omega) (by omega))⟩

lemma overlap_fails : (((service issuing).start (World.init .empty newYear)).take
    (overlap ++ [.respond 3])).map (fun s => (decide (.call 3 sendHello ∈ history s.log),
      (history s.log).head?)) = some (true, some (.respond 3 (.error (.api .internal)))) := by
  decide +kernel

end Known

open Known in
theorem failure_caused_overlap : ∃ s : Service issuing,
    (service issuing).Reachable (World.init .empty newYear) s ∧
      .respond 3 (.error (.api .internal)) ∈ s.log ∧ Cause s.log 3 sendHello := by
  obtain ⟨s, hs, hans⟩ := Option.map_eq_some_iff.mp overlap_fails
  obtain ⟨hcall, hhead⟩ := Prod.mk.inj hans
  have hearly : ∀ a ∈ overlap ++ [.respond 3], Reading Early a := by decide +kernel
  have h : Reach (Readings Early) ((service issuing).start (World.init .empty newYear)) s :=
    Reach.refl.take (fun a ha _ => hearly a ha) hs
  have hr : .respond 3 (.error (.api .internal)) ∈ s.log :=
    mem_history.mp (List.mem_of_head? hhead)
  exact ⟨s, h.reachable, hr, (failure_caused issuing_issues issuing_inTime h
    (mem_history.mp (of_decide_eq_true hcall)) hr).2 rfl⟩

end TittyBackend
