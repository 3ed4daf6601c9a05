import TittyBackend.Sequential

/-!
# Errors and the database

Any statement of a mutation may fail. A mutation that runs alone and returns an error has left the
database as it was, apart from expired requests, unless it is a block that was cut between its
statements.
-/

namespace TittyBackend

open Numerals Programs Programs.System Resolver

variable {D : Deployment}

/-! ### Nothing lost, nothing added -/

/-- The two databases are the same, apart from requests that have expired at `now`. -/
structure Intact (D : Deployment) (now : ℤ) (d d' : Db) : Prop where
  accounts : d'.accounts.rows = d.accounts.rows
  challenges : d'.challenges.rows = d.challenges.rows
  blocks : d'.blocks.rows = d.blocks.rows
  chats : d'.chats.rows.filter (fun r => !r.Expired D now) =
    d.chats.rows.filter fun r => !r.Expired D now

def Op.Mutation : Op → Prop
  | .registerAccount .. | .requestChallenge .. | .authenticate .. | .sendLiveChatRequest ..
  | .renewLiveChatRequest .. | .cancelLiveChatRequest .. | .blockIdentity ..
  | .unblockIdentity .. => True
  | _ => False

/-- The token of a session could not be encoded at `now`. -/
def Unencodable (D : Deployment) (input : AuthenticateInput) (now : ℤ) : Prop :=
  ∃ e, DateTime.addSeconds now D.sessionTtlSeconds = some e ∧
    D.encode (sessionClaims D input.accountId now e) D.jwtSecret = none

/-- A login has committed the use of its challenge in the database `d`, which `w'` shows, and its
token could not be encoded then. -/
def TokenFailure (D : Deployment) (d : Db) (w' : World) : Op → Prop
  | .authenticate _ input => (∃ t t', (loginUpdate input t').apply D t d = .ok (1, w'.db)) ∧
      Unencodable D input w'.clock
  | _ => False

/-- Requests stay expired as time passes. -/
lemma ChatRecord.Expired.mono (hmono : Monotone D.juliandayNow) {now now' : ℤ} (hle : now ≤ now')
    {r : ChatRecord} (h : r.Expired D now = true) : r.Expired D now' = true := by
  have hnow := hmono hle
  simp only [ChatRecord.Expired, Passed, Bool.or_eq_true, Option.any_eq_true,
    decide_eq_true_eq] at h ⊢
  rcases h with ⟨j, hj, hle⟩ | ⟨j, hj, hle⟩
  · exact .inl ⟨j, hj, hle.trans hnow⟩
  · exact .inr ⟨j, hj, hle.trans hnow⟩

lemma Intact.refl (now : ℤ) (d : Db) : Intact D now d d := ⟨rfl, rfl, rfl, rfl⟩

/-- A clean-up that has run before leaves the database intact. -/
lemma Intact.sweep (hmono : Monotone D.juliandayNow) {now now' : ℤ} (hle : now ≤ now')
    {d d' d'' : Db} {n : ℕ} (h : Intact D now' d d')
    (hu : Write.removeExpiredChats.apply D now d' = .ok (n, d'')) : Intact D now' d d'' where
  accounts := (Write.accounts_apply hu).trans h.accounts
  challenges := (Write.challenges_apply hu).trans h.challenges
  blocks := (Write.blocks_apply hu).trans h.blocks
  chats := by
    rw [Write.chats_apply hu, Write.chatRows, List.filter_filter, ← h.chats]
    refine List.filter_congr fun r _ => ?_
    by_cases hr : r.Expired D now = true
    · simp [hr, ChatRecord.Expired.mono hmono hle hr]
    · simp [hr]

/-! ### Errors that change nothing -/

/-- An exchange that writes nothing but a clean-up. -/
def Benign : Exchange Command Command.Ans → Prop
  | ⟨.execute u, .ok _⟩ => u = .removeExpiredChats
  | ⟨.commit, .ok _⟩ => False
  | _ => True

def Harmless (past : Past Command Command.Ans) : Prop := ∀ e ∈ past, Benign e

/-- An operation that has updated its challenge and committed, and has then read the clock. -/
def CommittedPast (u : Write) (t : ℤ) (past : Past Command Command.Ans) : Prop :=
  ∃ before, past = ⟨.now, t⟩ :: ⟨.commit, .ok ()⟩ :: ⟨.executeIn u, .ok 1⟩ :: before ∧
    ∀ e ∈ before, Quiet e

/-- What has happened when an operation returns an error: nothing was written, or the operation is
a login that could not encode its token, or it is a block. -/
def Op.Fails (D : Deployment) (op : Op) (past : Past Command Command.Ans) : Response → Prop
  | .error (.api _) => Harmless past ∨
      (∃ ctx input t t', op = .authenticate ctx input ∧
        CommittedPast (loginUpdate input t') t past ∧ Unencodable D input t) ∨
      ∃ ctx input, op = .blockIdentity ctx input
  | _ => True

theorem mutation_fails {op : Op} (h : op.Mutation) :
    (op.program D).Keeps (fun _ _ => True) (op.Fails D) [] := by
  cases op with
  | registerAccount ctx input =>
    simp only [Op.program, Op.resolver, registerAccount, wp_map, wp_bind, keeps_enforce,
      wp_lift, wp_orFail, wp_refuse, keeps_now, keeps_attempt, Except.map, true_and]
    simp [Op.Fails, Harmless, Benign]
    rintro name - key - - - t ((_ | _ | _) | n)
    case ok => trivial
    all_goals simp
  | requestChallenge ctx accountId =>
    simp only [Op.program, Op.resolver, requestChallenge, wp_map, wp_bind,
      keeps_enforce, wp_refuse, keeps_fetch (.accountExists _), keeps_newUuid, keeps_fillBytes,
      keeps_now, wp_addSeconds, keeps_execute, Except.map, wp_pure, true_and]
    simp [Op.Fails, Harmless, Benign]
  | authenticate ctx input =>
    simp only [Op.program, Op.resolver, authenticate, consumeChallenge, issueSession, wp_map,
      wp_bind, keeps_enforce, keeps_transaction, keeps_fetchIn (.challenge _ _), wp_orFail,
      wp_refuse, wp_lift, keeps_now, keeps_executeIn, wp_addSeconds, Except.map,
      wp_pure, true_and]
    simp [Op.Fails, Harmless, Benign]
    rintro - _ row - e - t - - - t' - t'' e' he htoken
    refine ⟨t'', ⟨t', _, rfl, ?_⟩, e', he, htoken⟩
    simp [Quiet]
  | sendLiveChatRequest ctx input =>
    simp only [Op.program, Op.resolver, sendLiveChatRequest, authenticated, wp_map, wp_bind,
      wp_orFail, wp_lift, keeps_execute, keeps_fetch (.publicKey _),
      keeps_fetch (.existingRequest _ _), Except.map, true_and]
    simp [Op.Fails, Harmless, Benign]
    rintro sender - payload - name - m _ publicKey rfl existing
    cases existing with
    | some row => simp
    | none =>
      simp only [submitRequest, wp_bind, keeps_fetch (.activeCount _), wp_refuse, keeps_now,
        wp_addSeconds, keeps_newUuid, keeps_fetch (.recipient _), true_and]
      simp
      rintro n - t lease - hard - requestId leaseId recipient
      rw [insertUnlessHidden.eq_def]
      cases recipient with
      | none => trivial
      | some recipient =>
        simp only [wp_bind, keeps_fetch (.blockExists _ _), true_and]
        refine ⟨fun blocked => ?_, fun e => by simp⟩
        split_ifs
        · simp
        · trivial
  | renewLiveChatRequest ctx input =>
    simp only [Op.program, Op.resolver, renewLiveChatRequest, authenticated, wp_map, wp_bind,
      wp_orFail, wp_lift, keeps_execute, keeps_fetch (.lease _ _ _), keeps_now,
      wp_addSeconds, Except.map, wp_pure, true_and]
    simp [Op.Fails, Harmless, Benign]
  | cancelLiveChatRequest ctx input =>
    simp only [Op.program, Op.resolver, cancelLiveChatRequest, authenticated, wp_map, wp_bind,
      wp_orFail, keeps_fetch (.owner _ _), Except.map, true_and]
    simp [Op.Fails, Harmless, Benign]
    rintro sender - (_ | owner)
    · trivial
    · simp
  | blockIdentity ctx input =>
    refine Prog.keeps_of_forall _ (fun _ _ => trivial) fun past r => ?_
    rcases r with (e | _) | x
    · exact .inr (.inr ⟨ctx, input, rfl⟩)
    · trivial
    · trivial
  | unblockIdentity ctx input =>
    simp only [Op.program, Op.resolver, unblockIdentity, authenticated, wp_map, wp_bind,
      wp_orFail, keeps_execute, Except.map, wp_pure, true_and]
    simp [Op.Fails, Harmless, Benign]
  | _ => exact h.elim

/-- What an operation that runs alone has done to the world `w₀`, given what it has seen. -/
structure Untouched (D : Deployment) (i : ℕ) (w₀ w : World) (past : Past Command Command.Ans) :
    Prop where
  intact : Harmless past → ∀ now, w.clock ≤ now → Intact D now w₀.db w.db
  clock : ∀ t before, past = ⟨.now, t⟩ :: before → t = w.clock
  view : (∀ e ∈ past, Quiet e) → w.view i = w₀.view i
  update : ∀ u n before, past = ⟨.executeIn u, .ok n⟩ :: before → (∀ e ∈ before, Quiet e) →
    ∃ t, u.apply D t (w₀.view i) = .ok (n, w.view i)
  commit : ∀ u n after before,
    past = after ++ ⟨.commit, .ok ()⟩ :: ⟨.executeIn u, .ok n⟩ :: before →
    (∀ e ∈ after, Quiet e) → (∀ e ∈ before, Quiet e) → ∃ t, u.apply D t (w₀.view i) = .ok (n, w.db)

lemma Untouched.init (D : Deployment) (i : ℕ) (w : World) : Untouched D i w w [] where
  intact _ now _ := .refl now w.db
  clock _ _ h := by cases h
  view _ := rfl
  update _ _ _ h := by cases h
  commit _ _ after _ h := by cases after <;> cases h

lemma Untouched.step (hmono : Monotone D.juliandayNow) {w₀ w : World} {i : ℕ}
    {past : Past Command Command.Ans} {c : Command} {ch : Choice} (h : Untouched D i w₀ w past)
    (hen : c.enabled i ch w = true) :
    Untouched D i w₀ (c.exec D i ch w).2 (⟨c, (c.exec D i ch w).1⟩ :: past) := by
  have heff := Command.effect (D := D) c hen
  have hclock := heff.clock
  have hle := Command.clock_of_enabled hen
  refine ⟨fun hharm now hnow => ?_, fun t before hpast => ?_, fun hq => ?_,
    fun u n before hpast hq => ?_, fun u n after before hpast hq hq' => ?_⟩
  · obtain ⟨hbenign, hharm⟩ := List.forall_mem_cons.mp hharm
    rw [hclock] at hnow
    have ih := h.intact hharm now (hle.trans hnow)
    rcases heff.db with hdb | ⟨u, n, he, hu, -⟩ | ⟨d, he, -⟩
    · rwa [hdb]
    · rw [he] at hbenign
      obtain rfl : u = .removeExpiredChats := hbenign
      exact ih.sweep hmono hnow hu
    · rw [he] at hbenign
      exact hbenign.elim
  · obtain ⟨he, -⟩ := List.cons.inj hpast
    have ht : Truthful D i ch w ⟨.now, t⟩ := he ▸ heff.truthful (he ▸ trivial)
    rw [hclock]
    exact ht
  · obtain ⟨hlast, hq⟩ := List.forall_mem_cons.mp hq
    rw [(heff.quiet_same hlast).2, h.view hq]
  · obtain ⟨he, rfl⟩ := List.cons.inj hpast
    rw [he] at heff
    exact ⟨ch.reading, h.view hq ▸ heff.executeIn⟩
  · cases after with
    | nil =>
      obtain ⟨he, rfl⟩ := List.cons.inj hpast
      rw [he] at heff
      rw [heff.commit]
      exact h.update u n before rfl hq'
    | cons e after =>
      obtain ⟨rfl, rfl⟩ := List.cons.inj hpast
      obtain ⟨hlast, hq⟩ := List.forall_mem_cons.mp hq
      rw [(heff.quiet_same hlast).1]
      exact h.commit u n after before rfl hq hq'

/-- Every mutation but a block leaves the database intact when it returns an error. -/
theorem intact_of_error (hmono : Monotone D.juliandayNow) {op : Op} {w w' : World} {i : ℕ}
    {chs : List Choice} {e : ApiError} (hop : op.Mutation)
    (hblock : ∀ ctx input, op ≠ .blockIdentity ctx input)
    (h : (service D).Plays i (op.program D) w chs (.error (.api e)) w') :
    Intact D w'.clock w.db w'.db ∨ TokenFailure D (w.view i) w' op := by
  obtain ⟨past, hJ, hψ⟩ := h.invariant (mutation_fails (D := D) hop) (Untouched D i w)
    (.init D i w) fun w₁ past c ch hJ _ hen => hJ.step hmono hen
  rcases hψ with hharm | ⟨ctx, input, t, t', rfl, ⟨before, rfl, hq⟩, htoken⟩ | ⟨ctx, input, rfl⟩
  · exact .inl (hJ.intact hharm _ le_rfl)
  · obtain ⟨t₁, hu⟩ := hJ.commit (loginUpdate input t') 1 [⟨.now, t⟩] before rfl
      (fun e he => by rw [List.mem_singleton.mp he]; trivial) hq
    exact .inr ⟨⟨t₁, t', hu⟩, hJ.clock t _ rfl ▸ htoken⟩
  · exact absurd rfl (hblock ctx input)

/-! ### A block that is cut -/

/-- What the last statement of a block reads, if its INSERT ran at `t`. -/
def Db.blockTime (d : Db) (blocker blocked : Text) (t : ℤ) : Text :=
  ((d.blocks.rows.find? fun b =>
    b.blockerAccountId = blocker ∧ b.blockedAccountId = blocked).map BlockRecord.createdAt).getD
      (toRfc3339 t)

/-- In a block under the choices `c₀`, `c₁`, `c₂` and more, the INSERT runs. -/
structure BlockInserts (d : Db) (ctx : Context) (input : BlockIdentityInput) (blocker name : Text)
    (target : AccountRow) (c₀ c₂ : Choice) : Prop where
  account : ctx.account = some blocker
  normalised : normaliseIdentitty input.identitty = .ok name
  exists_target : d.accountByIdentitty name = some target
  distinct : target.accountId ≠ blocker
  known : d.HasAccount blocker
  found : c₀.fails = false
  inserted : c₂.fails = false

/-- The choices cut a block after it has changed something: its INSERT adds a row or its DELETE
removes an unexpired request, and then a statement fails or the stored time is no RFC 3339. -/
def CutBlock (D : Deployment) (d : Db) (now : ℤ) (op : Op) (chs : List Choice) : Prop :=
  ∃ ctx input blocker name target c₀ c₁ c₂ c₃ rest, op = .blockIdentity ctx input ∧
    chs = c₀ :: c₁ :: c₂ :: c₃ :: rest ∧ BlockInserts d ctx input blocker name target c₀ c₂ ∧
    ((∀ b ∈ d.blocks.rows, ¬ (b.blockerAccountId = blocker ∧
        b.blockedAccountId = target.accountId)) ∨
      c₃.fails = false ∧ ∃ r ∈ d.chats.rows, r.senderAccountId = target.accountId ∧
        r.recipientAccountId = blocker ∧ r.Expired D now = false) ∧
    (c₃.fails = true ∨ (∃ c ∈ rest, c.fails = true) ∨
      parseFromRfc3339 (d.blockTime blocker target.accountId c₁.reading) = none)

/-- How a block alone ends: before its INSERT has run, between its INSERT and its DELETE, or after
its DELETE. -/
inductive BlockEnd (D : Deployment) (ctx : Context) (input : BlockIdentityInput) (d : Db) :
    Response → World × List Choice → Prop
  | early {r : Response} {w : World} {chs : List Choice} (hdb : w.db = d)
      (hlen : chs.length < 4) : BlockEnd D ctx input d r (w, chs)
  | inserted {blocker name : Text} {target : AccountRow} {c₀ c₁ c₂ c₃ : Choice} {n : ℕ} {w : World}
      (h : BlockInserts d ctx input blocker name target c₀ c₂)
      (hu : (Write.insertBlock ⟨blocker, target.accountId, toRfc3339 c₁.reading⟩).apply D
        c₂.reading d = .ok (n, w.db)) (hc : c₃.fails = true) :
      BlockEnd D ctx input d (.error (.api .internal)) (w, [c₀, c₁, c₂, c₃])
  | deleted {blocker name : Text} {target : AccountRow} {c₀ c₁ c₂ c₃ c₄ : Choice} {n m : ℕ}
      {d₁ : Db} {r : Response} {w : World}
      (h : BlockInserts d ctx input blocker name target c₀ c₂)
      (hu : (Write.insertBlock ⟨blocker, target.accountId, toRfc3339 c₁.reading⟩).apply D
        c₂.reading d = .ok (n, d₁)) (hc : c₃.fails = false)
      (hd : (Write.deleteChatsBetween target.accountId blocker).apply D c₃.reading d₁ =
        .ok (m, w.db))
      (hr : (∃ e, r = .error (.api e)) ↔ c₄.fails = true ∨
        parseFromRfc3339 (d.blockTime blocker target.accountId c₁.reading) = none) :
      BlockEnd D ctx input d r (w, [c₀, c₁, c₂, c₃, c₄])

/-- The INSERT of a block runs only for a blocker with an account. -/
lemma known_of_insertBlock {r : BlockRecord} {now : ℤ} {d d' : Db} {n : ℕ}
    (h : (Write.insertBlock r).apply D now d = .ok (n, d')) : d.HasAccount r.blockerAccountId := by
  simp only [Write.apply] at h
  split_ifs at h with hf ha
  · exact ha.1
  · obtain ⟨b, hb, hclash⟩ : ∃ b ∈ d.blocks.rows, b.Clash r := by
      by_contra hno
      exact hf fun b hb hclash => hno ⟨b, hb, hclash⟩
    exact hclash.1 ▸ (d.block_accounts b hb).1

/-- After the INSERT the stored time is there to be read. -/
lemma blockTime_of_insertBlock {blocker blocked : Text} {t now : ℤ} {d d' : Db} {n : ℕ}
    (h : (Write.insertBlock ⟨blocker, blocked, toRfc3339 t⟩).apply D now d = .ok (n, d'))
    (now' : ℤ) :
    Select.eval D now' d' (.blockCreatedAt blocker blocked) =
      some (d.blockTime blocker blocked t) := by
  simp only [Select.eval, Db.blockTime, Write.blocks_apply h, Write.blockRows]
  split_ifs with hf
  · have hnone : d.blocks.rows.find? (fun b =>
        b.blockerAccountId = blocker ∧ b.blockedAccountId = blocked) = none :=
      List.find?_eq_none.mpr fun b hb hp => hf b hb (of_decide_eq_true hp)
    rw [List.find?_append, hnone]
    simp
  · obtain ⟨b, hb, hclash⟩ : ∃ b ∈ d.blocks.rows, b.Clash ⟨blocker, blocked, toRfc3339 t⟩ := by
      by_contra hno
      exact hf fun b hb hclash => hno ⟨b, hb, hclash⟩
    have hfind : (d.blocks.rows.find? fun b =>
        b.blockerAccountId = blocker ∧ b.blockedAccountId = blocked).isSome :=
      List.find?_isSome.mpr ⟨b, hb, decide_eq_true hclash⟩
    obtain ⟨b', hb'⟩ := Option.isSome_iff_exists.mp hfind
    rw [hb', Option.map_some, Option.getD_some]

lemma blockIdentity_plays {ctx : Context} {input : BlockIdentityInput} {w w' : World} {i : ℕ}
    {chs : List Choice} {r : Response}
    (h : (service D).Plays i (Op.program D (.blockIdentity ctx input)) w chs r w') :
    BlockEnd D ctx input w.db r (w', chs) := by
  refine h.of_wp (Q := BlockEnd D ctx input w.db) ?_
  simp only [Op.program, Op.resolver, blockIdentity, authenticated, wp_map, wp_bind, wp_orFail,
    wp_lift, wp_refuse, alone_now, alone_execute, alone_fetch (.blockTarget _),
    alone_fetch (.blockCreatedAt _ _), wp_pure, World.db_tick, World.db_put, Except.map,
    List.nil_append, List.cons_append]
  have early {r w₁} {chs : List Choice} (hw : w₁.db = w.db) (hlen : chs.length < 4) :
    BlockEnd D ctx input w.db r (w₁, chs) := .early hw hlen
  refine ⟨fun blocker hacc => ⟨fun name hname c₀ _ => ⟨fun _ => early rfl (by simp), fun hf₀ => ?_⟩,
    fun _ _ => early rfl (by simp)⟩, fun _ => early rfl (by simp)⟩
  refine ⟨fun target htarget => ⟨fun _ => early rfl (by simp), fun hne c₁ _ c₂ _ => ?_⟩,
    fun _ => early rfl (by simp)⟩
  refine ⟨fun _ => early rfl (by simp), fun hf₂ => ⟨fun _ _ => early rfl (by simp), ?_⟩⟩
  intro n d₁ hu c₃ _
  obtain ⟨row, hrow, rfl⟩ := Option.map_eq_some_iff.mp htarget
  have hins : BlockInserts w.db ctx input blocker name row c₀ c₂ :=
    ⟨hacc, hname, hrow, hne, known_of_insertBlock hu, hf₀, hf₂⟩
  refine ⟨.inserted hins hu, fun hf₃ => ⟨fun e he => ?_, fun m d₂ hd c₄ _ => ?_⟩⟩
  · cases he
  · refine ⟨fun hf₄ => .deleted hins hu hf₃ hd (by simp [hf₄]), fun hf₄ => ?_⟩
    have hstored : Select.eval D c₄.reading d₂ (.blockCreatedAt blocker row.accountId) =
        some (w.db.blockTime blocker row.accountId c₁.reading) := by
      rw [← blockTime_of_insertBlock hu c₄.reading]
      simp only [Select.eval, Write.blocks_apply hd, Write.blockRows]
    rw [hstored]
    refine ⟨?_, fun h => by cases h⟩
    rintro _ ⟨⟩
    refine ⟨fun at_ hat => .deleted hins hu hf₃ hd ?_, fun e he => .deleted hins hu hf₃ hd ?_⟩
    · simp [hf₄, parseDatetime_eq_ok.mp hat]
    · rw [parseDatetime] at he
      split at he
      · cases he
      · simp [*]

/-! ### When an error leaves the database intact -/

lemma filter_eq_iff {α : Type} {p q : α → Bool} {l : List α} :
    (l.filter p).filter q = l.filter q ↔ ∀ a ∈ l, q a = true → p a = true := by
  rw [List.filter_filter]
  constructor
  · intro h a ha hq
    have hmem : a ∈ l.filter q := List.mem_filter.mpr ⟨ha, hq⟩
    rw [← h] at hmem
    simpa [hq] using (List.mem_filter.mp hmem).2
  · intro h
    refine List.filter_congr fun a ha => ?_
    cases hq : q a
    · simp
    · simp [h a ha hq]

/-- A block leaves the database intact if its INSERT adds no row and its DELETE takes no unexpired
request. -/
lemma intact_iff {t : ℤ} {d d' : Db} {b : BlockRecord} {p : ChatRecord → Bool}
    (haccounts : d'.accounts.rows = d.accounts.rows)
    (hchallenges : d'.challenges.rows = d.challenges.rows)
    (hblocks : d'.blocks.rows = (Write.insertBlock b).blockRows d.blocks.rows)
    (hchats : d'.chats.rows = d.chats.rows.filter p) :
    Intact D t d d' ↔ ¬ ((∀ a ∈ d.blocks.rows, ¬ a.Clash b) ∨
      ∃ r ∈ d.chats.rows, p r = false ∧ r.Expired D t = false) := by
  have hrows : d'.blocks.rows = d.blocks.rows ↔ ¬ ∀ a ∈ d.blocks.rows, ¬ a.Clash b := by
    rw [hblocks, Write.blockRows]
    split_ifs with hf
    · simpa using hf
    · simpa using hf
  have hkept : (d'.chats.rows.filter fun r => !r.Expired D t) =
      (d.chats.rows.filter fun r => !r.Expired D t) ↔
        ¬ ∃ r ∈ d.chats.rows, p r = false ∧ r.Expired D t = false := by
    rw [hchats, filter_eq_iff]
    simp only [not_exists, not_and, Bool.not_eq_false, Bool.not_eq_true']
    exact forall₂_congr fun r _ => ⟨fun h hp => by
      by_contra hne
      simp [h (by simpa using hne)] at hp, fun h he => by
      by_contra hne
      simp [h (by simpa using hne)] at he⟩
  rw [not_or, ← hrows, ← hkept]
  exact ⟨fun h => ⟨h.blocks, h.chats⟩, fun h => ⟨haccounts, hchallenges, h.1, h.2⟩⟩

/-- Whether the choices cut a block whose INSERT runs. -/
lemma BlockInserts.cutBlock_iff {d : Db} {ctx : Context} {input : BlockIdentityInput}
    {blocker name : Text} {target : AccountRow} {c₀ c₁ c₂ c₃ : Choice} {rest : List Choice}
    {now : ℤ} (h : BlockInserts d ctx input blocker name target c₀ c₂) :
    CutBlock D d now (.blockIdentity ctx input) (c₀ :: c₁ :: c₂ :: c₃ :: rest) ↔
      ((∀ b ∈ d.blocks.rows, ¬ (b.blockerAccountId = blocker ∧
          b.blockedAccountId = target.accountId)) ∨
        c₃.fails = false ∧ ∃ r ∈ d.chats.rows, r.senderAccountId = target.accountId ∧
          r.recipientAccountId = blocker ∧ r.Expired D now = false) ∧
      (c₃.fails = true ∨ (∃ c ∈ rest, c.fails = true) ∨
        parseFromRfc3339 (d.blockTime blocker target.accountId c₁.reading) = none) := by
  constructor
  · rintro ⟨_, _, blocker', name', target', _, _, _, _, _, ⟨⟩, ⟨⟩, h', hcut⟩
    obtain rfl := Option.some.inj (h.account.symm.trans h'.account)
    obtain rfl := Except.ok.inj (h.normalised.symm.trans h'.normalised)
    obtain rfl := Option.some.inj (h.exists_target.symm.trans h'.exists_target)
    exact hcut
  · exact fun hcut => ⟨ctx, input, blocker, name, target, c₀, c₁, c₂, c₃, rest, rfl, rfl, h, hcut⟩

/-- Errors leave the database intact exactly when the choices do not cut a block. -/
theorem errors_leave_intact (hmono : Monotone D.juliandayNow) {op : Op} {w w' : World} {i : ℕ}
    {chs : List Choice} {r : Response} (hop : op.Mutation)
    (h : (service D).Plays i (op.program D) w chs r w') :
    ((∃ e, r = .error (.api e)) → Intact D w'.clock w.db w'.db ∨
      TokenFailure D (w.view i) w' op) ↔ ¬ CutBlock D w.db w'.clock op chs := by
  by_cases hblock : ∃ ctx input, op = .blockIdentity ctx input
  swap
  · refine iff_of_true ?_ ?_
    · rintro ⟨e, rfl⟩
      exact intact_of_error hmono hop (fun ctx input heq => hblock ⟨ctx, input, heq⟩) h
    · rintro ⟨ctx, input, _, _, _, _, _, _, _, _, heq, _⟩
      exact hblock ⟨ctx, input, heq⟩
  · obtain ⟨ctx, input, rfl⟩ := hblock
    have hno : ¬ TokenFailure D (w.view i) w' (.blockIdentity ctx input) := id
    simp only [hno, or_false]
    cases blockIdentity_plays h with
    | early hdb hlen =>
      refine iff_of_true (fun _ => hdb ▸ .refl _ _) ?_
      rintro ⟨_, _, _, _, _, c₀, c₁, c₂, c₃, rest, -, rfl, -⟩
      simp only [List.length_cons] at hlen
      omega
    | @inserted blocker name target c₀ c₁ c₂ c₃ n w' hins hu hc =>
      have hintact := intact_iff (D := D) (t := w'.clock) (p := fun _ => true)
        (Write.accounts_apply hu) (Write.challenges_apply hu) (Write.blocks_apply hu)
        ((Write.chats_apply hu).trans (List.filter_eq_self.mpr fun _ _ => rfl).symm)
      rw [hins.cutBlock_iff, hintact]
      simp [hc, BlockRecord.Clash]
    | @deleted blocker name target c₀ c₁ c₂ c₃ c₄ n m d₁ r w' hins hu hc hd hr =>
      have hintact := intact_iff (D := D) (t := w'.clock)
        ((Write.accounts_apply hd).trans (Write.accounts_apply hu))
        ((Write.challenges_apply hd).trans (Write.challenges_apply hu))
        ((Write.blocks_apply hd).trans (Write.blocks_apply hu))
        ((Write.chats_apply hd).trans (congrArg _ (Write.chats_apply hu)))
      have herr : (∃ e, r = .error (.api e)) ↔ c₃.fails = true ∨ (∃ c ∈ [c₄], c.fails = true) ∨
          parseFromRfc3339 (w.db.blockTime blocker target.accountId c₁.reading) = none := by
        simp [hc, hr]
      rw [hins.cutBlock_iff, hintact, ← herr]
      simp only [hc, true_and, BlockRecord.Clash, decide_eq_false_iff_not, not_not, and_assoc]
      exact ⟨fun h hcut => h hcut.2 hcut.1, fun h he hchange => h ⟨hchange, he⟩⟩

namespace Known

/-- Ada blocks Bob. -/
def block : Op := .blockIdentity (session ada) ⟨"bob".toList⟩

def failing : Choice := { fine newYear ⟨0⟩ with fails := true }

lemma block_cut : ((service deployment).play 0 (block.program deployment)
    (World.init couple newYear) [fine newYear ⟨0⟩, fine newYear ⟨0⟩, fine newYear ⟨0⟩, failing]).map
      (fun x => (x.1, x.2.db.blocks.rows.length)) = some (.error (.api .internal), 1) := by
  decide +kernel

lemma block_busy : ((service deployment).play 0 (block.program deployment)
    (World.init couple newYear) [fine newYear ⟨0⟩, fine newYear ⟨0⟩, failing]).map
      (fun x => x.1) = some (.error (.api .internal)) := by
  decide +kernel

end Known

theorem errors_leave_intact_not : ¬ ∀ (op : Op) (w w' : World) (i : ℕ) (chs : List Choice)
    (e : ApiError), op.Mutation →
      (service Known.deployment).Plays i (op.program Known.deployment) w chs (.error (.api e)) w' →
        Intact Known.deployment w'.clock w.db w'.db ∨
          TokenFailure Known.deployment (w.view i) w' op := by
  intro h
  obtain ⟨⟨r, w'⟩, hplay, hx⟩ := Option.map_eq_some_iff.mp Known.block_cut
  obtain ⟨rfl, hlen⟩ := Prod.mk.inj hx
  rcases h Known.block _ _ _ _ _ trivial (plays_of_play hplay) with hintact | htoken
  · have hblocks : w'.db.blocks.rows = [] := hintact.blocks
    rw [hblocks] at hlen
    cases hlen
  · exact htoken

theorem errors_leave_intact_busy : ∃ w' : World,
    (service Known.deployment).Plays 0 (Known.block.program Known.deployment)
      (World.init Known.couple Known.newYear)
      [Known.fine Known.newYear ⟨0⟩, Known.fine Known.newYear ⟨0⟩, Known.failing]
      (.error (.api .internal)) w' ∧
    (Intact Known.deployment w'.clock Known.couple w'.db ∨
      TokenFailure Known.deployment Known.couple w' Known.block) := by
  obtain ⟨⟨r, w'⟩, hplay, rfl⟩ := Option.map_eq_some_iff.mp Known.block_busy
  have hplays := plays_of_play hplay
  have hmutation : Known.block.Mutation := trivial
  refine ⟨w', hplays,
    (errors_leave_intact Known.juliandayNow_mono hmutation hplays).mpr ?_ ⟨_, rfl⟩⟩
  rintro ⟨_, _, _, _, _, c₀, c₁, c₂, c₃, rest, -, hchs, -⟩
  have hlen := congrArg List.length hchs
  simp at hlen

end TittyBackend
