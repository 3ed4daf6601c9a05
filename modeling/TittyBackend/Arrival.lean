import TittyBackend.Authority
import TittyBackend.Cancellation
import TittyBackend.Delivery
import TittyBackend.Directory

/-!
# Requests that arrive

Whatever runs at the same time, a request that was sent to somebody who had registered is listed as
long as its first lease lasts, unless its sender cancels it or its recipient blocks the sender.
-/

namespace TittyBackend

open Numerals Programs Programs.System Resolver
open DateTime (seconds)

variable {D : Deployment} {P : Service D → Action Op Choice → Prop} {d₀ : Db} {t₀ : ℤ}
  {s : Service D} {ctx : Context} {input : SendLiveChatRequestInput}
  {sender recipient : AccountIdentity}

/-! ### The promise -/

/-- Operation `i` sends a request from `sender` to `recipient`, the only one under its client
request id, and in the history nobody cancels it and the recipient does not block the sender. -/
structure Unhindered (h : List (Seen Op Response)) (i : ℕ) (ctx : Context)
    (input : SendLiveChatRequestInput) (sender recipient : AccountIdentity) : Prop where
  account : ctx.account = some sender.accountId
  name : normaliseIdentitty input.recipientIdentitty = .ok recipient.identitty
  distinct : recipient.accountId ≠ sender.accountId
  once : ∀ j ctx' input', .call j (.sendLiveChatRequest ctx' input') ∈ h →
    ctx'.account = some sender.accountId → input'.clientRequestId = input.clientRequestId → j = i
  unblocked : ∀ j ctx' input', .call j (.blockIdentity ctx' input') ∈ h →
    ctx'.account = some recipient.accountId →
      normaliseIdentitty input'.identitty ≠ .ok sender.identitty
  kept : ∀ j ctx' x, .respond i (.ok (.submission x)) ∈ h → ctx'.account = some sender.accountId →
    .call j (.cancelLiveChatRequest ctx' ⟨x.requestId, x.leaseId⟩) ∉ h

/-- What a listing shows of a request that was answered with `x`. -/
structure ShowsRequest (sender : AccountIdentity) (input : SendLiveChatRequestInput)
    (x : LiveChatRequestSubmission) (z : LiveChatRequest) : Prop where
  requestId : z.requestId = x.requestId
  senderAccountId : z.senderAccountId = sender.accountId
  senderIdentitty : z.senderIdentitty = sender.identitty
  senderPublicKey : z.senderPublicKey = sender.publicKey
  payload : ∃ payload, decodePayload input.encryptedPayload = .ok payload ∧
    z.encryptedPayload = Base64.encode payload
  createdAt : x.leaseExpiresAt = z.createdAt + seconds 90
  expiresAt : x.leaseExpiresAt ≤ z.expiresAt ∧ z.expiresAt ≤ z.createdAt + seconds (15 * 60)

/-- A listing of the recipient that starts after an unhindered send has answered shows the request,
exactly once, if its first lease still lasts when the listing has answered. -/
def Arrives (lasts : ℤ → Bool) (h : List (Seen Op Response)) : Prop :=
  ∀ l₄ l₃ l₂ l₁ l₀ i k ctx ctx' input sender recipient x zs,
    h = l₄ ++ .respond k (.ok (.requests zs)) :: (l₃ ++ .call k (.liveChatRequests ctx') ::
      (l₂ ++ .respond i (.ok (.submission x)) ::
        (l₁ ++ .call i (.sendLiveChatRequest ctx input) :: l₀))) →
    (∃ j, .respond j (.ok (.identity sender)) ∈ l₀) →
    (∃ j, .respond j (.ok (.identity recipient)) ∈ l₀) →
    Unhindered h i ctx input sender recipient → ctx'.account = some recipient.accountId →
    lasts x.leaseExpiresAt = true →
      (∃ z ∈ zs, ShowsRequest sender input x z) ∧
        (zs.map LiveChatRequest.requestId).count x.requestId = 1

/-! ### How a send comes to be accepted -/

/-- What a send has seen when it answers `x`. -/
inductive Accepts (ctx : Context) (input : SendLiveChatRequestInput)
    (past : Past Command Command.Ans) (x : LiveChatRequestSubmission) : Prop
  | found {sender : Text} {row : ExistingRequestRow} (hs : ctx.account = some sender)
      (hread : ⟨.select (.existingRequest sender input.clientRequestId.toText), .ok (some row)⟩ ∈
        past)
      (hno : ∀ r n, ⟨.execute (.insertChat r), .ok n⟩ ∉ past)
  | nobody {name : Text} (hname : normaliseIdentitty input.recipientIdentitty = .ok name)
      (hread : ⟨.select (.recipient name), .ok none⟩ ∈ past)
  | hidden {sender name recipient : Text} {blocked : Bool} (hs : ctx.account = some sender)
      (hname : normaliseIdentitty input.recipientIdentitty = .ok name)
      (hread : ⟨.select (.recipient name), .ok (some recipient)⟩ ∈ past)
      (hblock : ⟨.select (.blockExists recipient sender), .ok blocked⟩ ∈ past)
      (hb : ¬ (blocked = false ∧ recipient ≠ sender))
  | inserted {r : ChatRecord} {u v : Uuid} {t : ℤ} {name : Text} {n m k : ℕ}
      (hs : Sending ctx input r u v t name) (hx : x = ⟨u, true, v, t + seconds 90⟩)
      (hpast : past = ⟨.execute (.insertChat r), .ok k⟩ :: sendPast r u v t name n m)

lemma submitRequest_accepts {sender name : Text} {key payload : List UInt8} {n : ℕ}
    (hs : ctx.account = some sender) (hpayload : decodePayload input.encryptedPayload = .ok payload)
    (hname : normaliseIdentitty input.recipientIdentitty = .ok name) :
    (submitRequest sender key payload name input.clientRequestId).run.Keeps (fun _ _ => True)
      (fun past r => ∀ x, r = .ok x → Accepts ctx input past x)
      (lookedUp sender input.clientRequestId key n) := by
  simp only [submitRequest, wp_bind, keeps_fetch (.activeCount _), wp_refuse, keeps_now,
    wp_addSeconds, keeps_newUuid, keeps_fetch (.recipient _), wp_pure, true_and, reduceCtorEq,
    IsEmpty.forall_iff, implies_true, and_true]
  intro m _ t lease hlease hard hhard u v recipient
  obtain rfl := DateTime.addSeconds_eq_some hlease
  obtain rfl := DateTime.addSeconds_eq_some hhard
  rw [insertUnlessHidden.eq_def]
  cases recipient with
  | none => exact fun x _ => .nobody hname List.mem_cons_self
  | some recipient =>
    simp only [wp_bind, keeps_fetch (.blockExists _ _), true_and, implies_true, and_true]
    intro blocked
    split_ifs with hb
    · obtain ⟨rfl, hne⟩ := hb
      simp only [wp_bind, keeps_execute, wp_pure, true_and, implies_true, and_true]
      have hsending : Sending ctx input ⟨u.toText, v.toText, input.clientRequestId.toText, sender,
          recipient, key, payload, toRfc3339 t, toRfc3339 (t + seconds 90),
          toRfc3339 (t + seconds (15 * 60))⟩ u v t name :=
        ⟨hs, hpayload, hname, rfl, rfl, rfl, rfl, rfl, rfl, hne⟩
      rintro k x hx
      exact .inserted hsending (Except.ok.inj hx).symm rfl
    · exact fun x _ => .hidden hs hname (by simp) List.mem_cons_self hb

theorem accepts (op : Op) : (op.program D).Keeps (fun _ _ => True)
    (fun past r => ∀ ctx input x, op = .sendLiveChatRequest ctx input →
      r = .ok (.submission x) → Accepts ctx input past x) [] := by
  by_cases hop : ∃ ctx input, op = .sendLiveChatRequest ctx input
  · obtain ⟨ctx, input, rfl⟩ := hop
    simp only [Op.program, Op.resolver, sendLiveChatRequest, authenticated, wp_map, wp_bind,
      wp_orFail, wp_lift, keeps_execute, keeps_fetch (.publicKey _),
      keeps_fetch (.existingRequest _ _), Except.map, true_and, reduceCtorEq, IsEmpty.forall_iff,
      implies_true, and_true]
    rintro sender hs payload hpayload name hname n key publicKey rfl existing
    cases existing with
    | some row =>
      simp only [wp_lift]
      refine ⟨?_, by simp⟩
      rintro y - _ _ x ⟨⟩ -
      exact .found hs List.mem_cons_self (by simp)
    | none =>
      refine (submitRequest_accepts hs hpayload hname).mono (fun _ _ h => h) fun past r hr => ?_
      rintro _ _ x ⟨⟩ hx
      cases r with
      | error e => cases hx
      | ok y =>
        cases hx
        exact hr _ rfl
  · exact Prog.keeps_of_forall _ (fun _ _ => trivial) fun _ _ ctx input _ heq =>
      absurd ⟨ctx, input, heq⟩ hop

/-! ### Whom a name leads to -/

lemma RowOf.grow {x : AccountIdentity} {d d' : Db} {r : AccountRow} (h : RowOf x d r)
    (hd : d.accounts.rows <+: d'.accounts.rows) : RowOf x d' r :=
  { h with stored := hd.subset h.stored }

/-- An identity is that of the one account with its id. -/
lemma RowOf.unique {x : AccountIdentity} {d : Db} {r a : AccountRow} (h : RowOf x d r)
    (ha : a ∈ d.accounts.rows) (hid : a.accountId = x.accountId) : a = r :=
  d.accounts.eq_of_clash ha h.stored (.inl (hid.trans h.accountId.symm))

/-- What is early is in the era. -/
lemma inEra_of_early {w₀ : World} (h : Reach (Readings Early) ((service D).start w₀) s) :
    Reach (Readings InEra) ((service D).start w₀) s :=
  h.mono fun s a ha => by
    cases a with
    | step i ch => exact ha.1
    | call op => trivial
    | respond i => trivial
    | crash => trivial

/-- A registration that has answered has stored its row. -/
lemma row_of_registered (h : Reach (Readings Early) ((service D).start (World.init d₀ t₀)) s)
    {j : ℕ} {x : AccountIdentity} (hx : .respond j (.ok (.identity x)) ∈ s.log) :
    ∃ r, RowOf x s.world.db r := by
  obtain ⟨_, _, r, _, -, -, -, hr⟩ := row_of_identity (inEra_of_early h) hx
  exact ⟨r, hr⟩

/-- A block that has found the account of `x` was called with the name of `x`. -/
lemma name_of_blocking (h : Reach P ((service D).start (World.init .empty t₀)) s) {i : ℕ}
    {input : BlockIdentityInput} {blocker identitty : Text} {target : BlockTargetRow}
    (hb : Blocking ctx input blocker identitty target)
    (hq : ⟨.select (.blockTarget identitty), .ok (some target)⟩ ∈ own i s.log)
    {x : AccountIdentity} {r : AccountRow} (hr : RowOf x s.world.db r)
    (htarget : target.accountId = x.accountId) :
    normaliseIdentitty input.identitty = .ok x.identitty := by
  obtain ⟨name, a, hname, ha, hid⟩ := blocks_of_target h hb hq
  rw [Db.accountByIdentitty] at ha
  have hmem := List.mem_of_find?_eq_some ha
  obtain rfl := hr.unique hmem (hid.trans htarget)
  have hnocase : nocase a.identitty name := by simpa using List.find?_some ha
  have heq : a.identitty = name :=
    (nocase_iff ((wellFormed h).name a hmem) (normaliseIdentitty_idem hname)).mp hnocase
  rw [hname, ← heq, hr.identitty]

/-- A block in the table was stored by a call that has found the account it blocks. -/
theorem blockIdentity_of_row (h : Reach P ((service D).start (World.init .empty t₀)) s)
    {b : BlockRecord} (hb : b ∈ s.world.db.blocks.rows) :
    ∃ i ctx input identitty target, .call i (.blockIdentity ctx input) ∈ s.log ∧
      Blocking ctx input b.blockerAccountId identitty target ∧
      target.accountId = b.blockedAccountId ∧
      ⟨.select (.blockTarget identitty), .ok (some target)⟩ ∈ own i s.log := by
  have hinv := service_invariant h (fun w l => ∀ b ∈ w.db.blocks.rows,
    ∃ i ctx input identitty target, .call i (.blockIdentity ctx input) ∈ l ∧
      Blocking ctx input b.blockerAccountId identitty target ∧
      target.accountId = b.blockedAccountId ∧
      ⟨.select (.blockTarget identitty), .ok (some target)⟩ ∈ own i l)
    (by simp [World.init, Db.empty]) ?_ ?_ ?_ ?_
  · exact hinv b hb
  · intro s i op _ _ ih b hb
    obtain ⟨j, ctx, input, identitty, target, hc, hrest⟩ := ih b hb
    exact ⟨j, ctx, input, identitty, target, List.mem_cons_of_mem _ hc, hrest⟩
  · intro s i op e ch w' hreach hcall ha hi _ _ heff ih b hb
    have hold (hb : b ∈ s.world.db.blocks.rows) : ∃ i₁ ctx input identitty target,
        .call i₁ (.blockIdentity ctx input) ∈ Event.exec i e :: s.log ∧
        Blocking ctx input b.blockerAccountId identitty target ∧
        target.accountId = b.blockedAccountId ∧
        ⟨.select (.blockTarget identitty), .ok (some target)⟩ ∈
          own i₁ (Event.exec i e :: s.log) := by
      obtain ⟨j, ctx, input, identitty, target, hc, hblock, hid, hq⟩ := ih b hb
      exact ⟨j, ctx, input, identitty, target, List.mem_cons_of_mem _ hc, hblock, hid,
        own_subset _ _ _ _ hq⟩
    rcases (locking hreach).change ha hi heff with hdb | ⟨u, n, rfl, hu⟩ |
      ⟨_, _, _, _, _, _, -, -, -, hu⟩
    · exact hold (hdb ▸ hb)
    · rw [Write.blocks_apply hu] at hb
      rcases Write.mem_blockRows hb with hb | rfl
      · exact hold hb
      · obtain ⟨ctx, input, identitty, target, t, rfl, hblock, heq, hpast⟩ := hi
        refine ⟨i, ctx, input, identitty, target, List.mem_cons_of_mem _ hcall, hblock, ?_,
          own_subset _ _ _ _ ?_⟩
        · rw [heq]
        · simp [hpast, blockPast]
    · rw [loginUpdate] at hu
      rw [Write.blocks_apply hu] at hb
      exact hold hb
  · intro s i op r _ _ _ ih b hb
    obtain ⟨j, ctx, input, identitty, target, hc, hrest⟩ := ih b hb
    exact ⟨j, ctx, input, identitty, target, List.mem_cons_of_mem _ hc, hrest⟩
  · intro s _ ih b hb
    obtain ⟨j, ctx, input, identitty, target, hc, hrest⟩ := ih b hb
    exact ⟨j, ctx, input, identitty, target, List.mem_cons_of_mem _ hc, hrest⟩

/-! ### A request stays -/

/-- The row is that of the request of `sender` to `recipient` that was answered with `x`. -/
structure RowOfRequest (sender recipient : AccountIdentity) (input : SendLiveChatRequestInput)
    (x : LiveChatRequestSubmission) (r : ChatRecord) : Prop where
  requestId : r.requestId = x.requestId.toText
  leaseId : r.leaseId = x.leaseId.toText
  senderAccountId : r.senderAccountId = sender.accountId
  recipientAccountId : r.recipientAccountId = recipient.accountId
  senderPublicKey : Base64.encode r.senderPublicKey = sender.publicKey
  payload : decodePayload input.encryptedPayload = .ok r.encryptedPayload
  createdAt : ∃ t, Early t ∧ r.createdAt = toRfc3339 t ∧ x.leaseExpiresAt = t + seconds 90

section stays

variable {x : LiveChatRequestSubmission} {r r' : ChatRecord}

lemma RowOfRequest.of_eq (h : RowOfRequest sender recipient input x r)
    (heq : r' = { r with leaseExpiresAt := r'.leaseExpiresAt }) :
    RowOfRequest sender recipient input x r' := by
  rw [heq]
  exact ⟨h.requestId, h.leaseId, h.senderAccountId, h.recipientAccountId, h.senderPublicKey,
    h.payload, h.createdAt⟩

/-- While its first lease lasts a request is active, whatever renewals have made of the lease. -/
lemma RowOfRequest.active (hD : Chronological D)
    (h : Reach (Readings Early) ((service D).start (World.init .empty t₀)) s)
    (hx : RowOfRequest sender recipient input x r) (hr : r ∈ s.world.db.chats.rows) {now : ℤ}
    (hlasts : sqlAfter D now x.leaseExpiresAt = true) : r.Active D now = true := by
  obtain ⟨c, e, ht⟩ := timed h r hr
  obtain ⟨t, ht₀, hcreated, hlease⟩ := hx.createdAt
  have hct : c = t := by
    refine eq_of_parse ?_
    rw [← hcreated, ht.createdAt, parse_toRfc3339 ht.early.1]
  subst hct
  have hpos : (0 : ℤ) ≤ seconds 90 := by decide
  have hsec := seconds_le
  have hfirst : InEra (c + seconds 90) :=
    ht.early.1.between ht.early.2 (by omega) (by omega)
  have hend : InEra e := ht.early.1.between ht.early.2 (by have := ht.least; omega) ht.most
  rw [hlease] at hlasts
  simp only [ChatRecord.Active, Bool.and_eq_true, ht.leaseExpiresAt, ht.hardExpiresAt]
  exact ⟨sqlAfter.mono hD hfirst hend ht.least hlasts,
    sqlAfter.mono hD hfirst ht.early.2 (by omega) hlasts⟩

/-- What a write on the pool leaves of a request: it is deleted by a cancel of its sender, or by a
block of its recipient, or it stays. -/
lemma RowOfRequest.write (hD : Chronological D)
    (h : Reach (Readings Early) ((service D).start (World.init .empty t₀)) s)
    (hx : RowOfRequest sender recipient input x r) (hr : r ∈ s.world.db.chats.rows) {i n : ℕ}
    {op : Op} {u : Write} {now : ℤ} {d : Db} (hcall : .call i op ∈ s.log)
    (hi : op.Issues D (own i s.log) (.execute u)) (hu : u.apply D now s.world.db = .ok (n, d))
    (hlasts : sqlAfter D now x.leaseExpiresAt = true) {a : AccountRow}
    (ha : RowOf sender s.world.db a) :
    (∃ r' ∈ d.chats.rows, RowOfRequest sender recipient input x r') ∨
      (∃ ctx', ctx'.account = some sender.accountId ∧
        .call i (.cancelLiveChatRequest ctx' ⟨x.requestId, x.leaseId⟩) ∈ s.log) ∨
      ∃ ctx' input', ctx'.account = some recipient.accountId ∧
        normaliseIdentitty input'.identitty = .ok sender.identitty ∧
          .call i (.blockIdentity ctx' input') ∈ s.log := by
  rw [Write.chats_apply hu]
  cases u with
  | insertChat r₀ => exact .inl ⟨r, List.mem_append_left _ hr, hx⟩
  | updateLease leaseExpiresAt requestId =>
    refine .inl ⟨_, List.mem_map_of_mem hr, hx.of_eq ?_⟩
    split_ifs <;> rfl
  | removeExpiredChats =>
    have hactive := hx.active hD h hr hlasts
    exact .inl ⟨r, List.mem_filter.mpr
      ⟨hr, by simp [ChatRecord.not_expired_of_active D hactive]⟩, hx⟩
  | deleteChat requestId leaseId =>
    by_cases hids : r.requestId = requestId ∧ r.leaseId = leaseId
    · obtain ⟨ctx', sender', input', rfl, hs, hreq, hlease, hpast⟩ := hi
      have hsender := sender_of_owner h (by rw [hpast]; exact List.mem_cons_self) hr hids.1
      obtain rfl : sender' = sender.accountId := hsender.symm.trans hx.senderAccountId
      refine .inr (.inl ⟨ctx', hs, ?_⟩)
      obtain ⟨u, v⟩ := input'
      obtain rfl : u = x.requestId :=
        Uuid.toText_inj.mp (hreq.symm.trans (hids.1.symm.trans hx.requestId))
      obtain rfl : v = x.leaseId :=
        Uuid.toText_inj.mp (hlease.symm.trans (hids.2.symm.trans hx.leaseId))
      exact hcall
    · exact .inl ⟨r, List.mem_filter.mpr ⟨hr, decide_eq_true hids⟩, hx⟩
  | deleteChatsBetween sender' recipient' =>
    by_cases hpair : r.senderAccountId = sender' ∧ r.recipientAccountId = recipient'
    · obtain ⟨ctx', input', identitty, target, t, m, rfl, hb, rfl, hpast⟩ := hi
      have hrecipient : recipient' = recipient.accountId :=
        hpair.2.symm.trans hx.recipientAccountId
      have hread : ⟨.select (.blockTarget identitty), .ok (some target)⟩ ∈ own i s.log := by
        simp [hpast, blockPast]
      have hname := name_of_blocking h hb hread ha (hpair.1.symm.trans hx.senderAccountId)
      exact .inr (.inr ⟨ctx', input', hrecipient ▸ hb.account, hname, hcall⟩)
    · exact .inl ⟨r, List.mem_filter.mpr ⟨hr, decide_eq_true hpair⟩, hx⟩
  | _ => exact .inl ⟨r, hr, hx⟩

/-- An unhindered request stays while its first lease lasts. -/
theorem RowOfRequest.stays (hD : Chronological D) {i : ℕ} {l : Log}
    (hun : Unhindered (history l) i ctx input sender recipient)
    (hx : .respond i (.ok (.submission x)) ∈ history l) {s₁ : Service D}
    (h₁ : Reach (Readings Early) ((service D).start (World.init .empty t₀)) s₁)
    {a : AccountRow} (ha : RowOf sender s₁.world.db a) (hr : r ∈ s₁.world.db.chats.rows)
    (hrow : RowOfRequest sender recipient input x r) (h : Reach (Readings Early) s₁ s)
    (hl : s.log ⊆ l) (hlasts : sqlAfter D s.world.clock x.leaseExpiresAt = true) :
    ∃ r' ∈ s.world.db.chats.rows, RowOfRequest sender recipient input x r' := by
  induction h with
  | refl => exact ⟨r, hr, hrow⟩
  | @step s₂ s₃ act h₂ hP hn ih =>
    obtain ⟨e, he⟩ := (State.steps_of_next hn).log_eq
    have hl₂ : s₂.log ⊆ l := List.Subset.trans (he ▸ List.subset_cons_self _ _) hl
    have hmem {z : Seen Op Response} (hz : z.event ∈ s₂.log) : z ∈ history l :=
      mem_history.mpr (hl₂ hz)
    have hreach := h₁.trans h₂
    have hsame (hdb : s₃.world.db.chats.rows = s₂.world.db.chats.rows)
        (hclock : s₂.world.clock ≤ s₃.world.clock) : ∃ r' ∈ s₃.world.db.chats.rows,
          RowOfRequest sender recipient input x r' :=
      hdb ▸ ih hl₂ (sqlAfter.anti hD hclock hlasts)
    rcases service_step hreach hn with ⟨hdb, hclock, -⟩ |
      ⟨j, ch, e, op, rfl, hlog, hcall, halive, hi, hle, heff⟩
    · exact hsame (by rw [hdb]) hclock.ge
    · have hclock : s₂.world.clock ≤ s₃.world.clock := heff.clock ▸ hle
      rcases (locking hreach).change halive hi heff with hdb | ⟨u, n, rfl, hu⟩ |
        ⟨_, _, _, _, _, _, -, -, -, hu⟩
      · exact hsame (by rw [hdb]) hclock
      · obtain ⟨r₂, hr₂, hrow₂⟩ := ih hl₂ (sqlAfter.anti hD hclock hlasts)
        have hgrow := ha.grow (accounts_grow h₁ h₂)
        rw [heff.clock] at hlasts
        rcases hrow₂.write hD hreach hr₂ hcall hi hu hlasts hgrow with hstays |
          ⟨ctx', hs, hcancel⟩ | ⟨ctx', input', hs, hname, hblock⟩
        · exact hstays
        · exact absurd (hmem (z := .call j _) hcancel) (hun.kept j ctx' x hx hs)
        · exact absurd hname (hun.unblocked j ctx' input' (hmem (z := .call j _) hblock) hs)
      · exact hsame (Write.chats_apply hu) hclock

end stays

/-! ### An accepted send has stored its request -/

section sent

variable {i : ℕ} {x : LiveChatRequestSubmission} {post mid pre l : Log}

/-- What an operation has read since its call is what the database said at a state since then. -/
lemma read_since_call (h : Reach P ((service D).start (World.init d₀ t₀)) s) {r : Response}
    {op : Op} (hlog : s.log = post ++ .respond i r :: (mid ++ .call i op :: pre)) {q : Select}
    {y : q.Ans}
    (hq : ⟨.select q, .ok y⟩ ∈ own i (mid ++ .call i op :: pre)) :
    ∃ (s₁ : Service D) (now : ℤ), Reach P ((service D).start (World.init d₀ t₀)) s₁ ∧
      Reach P s₁ s ∧ pre ⊆ s₁.log ∧ y = q.eval D now s₁.world.db := by
  obtain ⟨s₁, s₂, ch, h₁, h₂, h₃, ⟨c, hc⟩, heff⟩ := effect_since_call h hlog hq
  refine ⟨s₁, ch.reading, h₁, h₂.trans h₃, ?_, heff.truthful trivial⟩
  rw [hc]
  exact fun e he => List.mem_append_right _ (List.mem_cons_of_mem _ he)

/-- A send that comes after the registration of its recipient finds the recipient. -/
lemma recipient_of_read (h : Reach (Readings Early) ((service D).start (World.init d₀ t₀)) s)
    {r : Response} {op : Op}
    (hlog : s.log = post ++ .respond i r :: (mid ++ .call i op :: pre)) {j : ℕ}
    (hj : .respond j (.ok (.identity recipient)) ∈ pre) {found : Option Text}
    (hq : ⟨.select (.recipient recipient.identitty), .ok found⟩ ∈
      own i (mid ++ .call i op :: pre)) : found = some recipient.accountId := by
  obtain ⟨s₁, now, h₁, -, hpre, rfl⟩ := read_since_call h hlog hq
  obtain ⟨b, hb⟩ := row_of_registered h₁ (hpre hj)
  rw [Select.eval, hb.byIdentitty, Option.map_some, hb.accountId]

/-- A recipient who never blocks the sender has no block of the sender. -/
lemma blocked_of_read (h : Reach (Readings Early) ((service D).start (World.init .empty t₀)) s)
    {r : Response} {op : Op}
    (hlog : s.log = post ++ .respond i r :: (mid ++ .call i op :: pre)) {j : ℕ}
    (hj : .respond j (.ok (.identity sender)) ∈ pre) (hl : s.log ⊆ l)
    (hun : Unhindered (history l) i ctx input sender recipient) {blocked : Bool}
    (hq : ⟨.select (.blockExists recipient.accountId sender.accountId), .ok blocked⟩ ∈
      own i (mid ++ .call i op :: pre)) : blocked = false := by
  obtain ⟨s₁, now, h₁, h₂, hpre, rfl⟩ := read_since_call h hlog hq
  rw [← Bool.not_eq_true]
  intro hany
  obtain ⟨b, hb, hpair⟩ := List.any_eq_true.mp hany
  simp only [decide_eq_true_eq] at hpair
  obtain ⟨k, ctx', input', identitty, target, hcall, hblock, htarget, hread⟩ :=
    blockIdentity_of_row h₁ hb
  obtain ⟨a, ha⟩ := row_of_registered h₁ (hpre hj)
  refine hun.unblocked k ctx' input' (mem_history.mpr (hl (h₂.log_suffix.subset hcall))) ?_
    (name_of_blocking h₁ hblock hread ha (htarget.trans hpair.2))
  rw [hblock.account, hpair.1]

/-- The send with its client request id that has stored a request is this one. -/
lemma not_found (h : Reach (Readings Early) ((service D).start (World.init .empty t₀)) s)
    {r : Response} {op : Op}
    (hlog : s.log = post ++ .respond i r :: (mid ++ .call i op :: pre)) (hl : s.log ⊆ l)
    (hun : Unhindered (history l) i ctx input sender recipient) {row : ExistingRequestRow}
    (hno : ∀ r n, ⟨.execute (.insertChat r), .ok n⟩ ∉ own i (mid ++ .call i op :: pre))
    (hq : ⟨.select (.existingRequest sender.accountId input.clientRequestId.toText),
      .ok (some row)⟩ ∈ own i (mid ++ .call i op :: pre)) : False := by
  obtain ⟨s₁, now, h₁, h₂, -, hrow⟩ := read_since_call h hlog hq
  obtain ⟨r₁, hr₁, -⟩ := Option.map_eq_some_iff.mp hrow.symm
  have hkey := List.find?_some hr₁
  simp only [decide_eq_true_eq] at hkey
  obtain ⟨a, b, k, r₀, hlog₁, heq⟩ := insert_of_row h₁ (List.mem_of_find?_eq_some hr₁)
  obtain ⟨op', hcall, ctx', input', u, v, t, name, n, m, rfl, hs, -⟩ :=
    h₁.log_exec (scripted D) hlog₁
  have hsub : s₁.log ⊆ s.log := h₂.log_suffix.subset
  have hcall' : .call k (.sendLiveChatRequest ctx' input') ∈ s₁.log := by
    rw [hlog₁]
    exact List.mem_append_right _ (List.mem_cons_of_mem _ hcall)
  rw [heq] at hkey
  -- It was stored by a send of the sender with the same client request id.
  obtain rfl := hun.once k ctx' input' (mem_history.mpr (hl (hsub hcall')))
    (hs.sender.trans (congrArg some hkey.1))
    (Uuid.toText_inj.mp (hs.clientRequestId.symm.trans hkey.2))
  have hins : .exec k ⟨.execute (.insertChat r₀), .ok 1⟩ ∈ s.log := hsub (by simp [hlog₁])
  rw [← mem_own, h.own_of_respond hlog] at hins
  exact hno r₀ 1 hins

/-- An unhindered send that has been accepted has stored its request. -/
theorem stored_of_accepted
    (h : Reach (Readings Early) ((service D).start (World.init .empty t₀)) s)
    (hlog : s.log = post ++ .respond i (.ok (.submission x)) ::
      (mid ++ .call i (.sendLiveChatRequest ctx input) :: pre))
    {j j' : ℕ} (hj : .respond j (.ok (.identity sender)) ∈ pre)
    (hj' : .respond j' (.ok (.identity recipient)) ∈ pre) (hl : s.log ⊆ l)
    (hun : Unhindered (history l) i ctx input sender recipient) :
    ∃ (s₁ : Service D) (r : ChatRecord) (a : AccountRow),
      Reach (Readings Early) ((service D).start (World.init .empty t₀)) s₁ ∧
        Reach (Readings Early) s₁ s ∧ r ∈ s₁.world.db.chats.rows ∧
          RowOfRequest sender recipient input x r ∧ RowOf sender s₁.world.db a := by
  obtain ⟨op, hop, haccepts⟩ := h.log_respond accepts hlog
  have hsub : mid ++ .call i (.sendLiveChatRequest ctx input) :: pre ⊆ s.log := by
    rw [hlog]
    exact fun e he => List.mem_append_right _ (List.mem_cons_of_mem _ he)
  obtain rfl : op = .sendLiveChatRequest ctx input :=
    h.logged.call_unique (hsub hop) (hsub (List.mem_append_right _ List.mem_cons_self))
  cases haccepts ctx input x rfl rfl with
  | found hs hread hno =>
    obtain rfl := Option.some.inj (hs.symm.trans hun.account)
    exact (not_found h hlog hl hun hno hread).elim
  | nobody hname hread =>
    obtain rfl := Except.ok.inj (hname.symm.trans hun.name)
    cases recipient_of_read h hlog hj' hread
  | hidden hs hname hread hblock hb =>
    obtain rfl := Option.some.inj (hs.symm.trans hun.account)
    obtain rfl := Except.ok.inj (hname.symm.trans hun.name)
    obtain rfl := Option.some.inj (recipient_of_read h hlog hj' hread)
    exact absurd ⟨blocked_of_read h hlog hj hl hun hblock, hun.distinct⟩ hb
  | @inserted r u v t name n m k hs hx hpast =>
    have hins : ⟨.execute (.insertChat r), .ok k⟩ ∈
        own i (mid ++ .call i (.sendLiveChatRequest ctx input) :: pre) := by
      simp [hpast]
    have hrecipient : ⟨.select (.recipient name), .ok (some r.recipientAccountId)⟩ ∈
        own i (mid ++ .call i (.sendLiveChatRequest ctx input) :: pre) := by
      simp [hpast, sendPast]
    have hkey : ⟨.select (.publicKey r.senderAccountId), .ok (some r.senderPublicKey)⟩ ∈
        own i (mid ++ .call i (.sendLiveChatRequest ctx input) :: pre) := by
      simp [hpast, sendPast]
    have hnow : ⟨.now, t⟩ ∈ own i (mid ++ .call i (.sendLiveChatRequest ctx input) :: pre) := by
      simp [hpast, sendPast]
    obtain ⟨s₁, s₂, ch, h₁, h₁₂, h₂, ⟨c, hc⟩, heff⟩ := effect_since_call h hlog hins
    have hpre : pre ⊆ s₂.log := fun e he => h₁₂.log_suffix.subset (by
      rw [hc]
      exact List.mem_append_right _ (List.mem_cons_of_mem _ he))
    have hr : r ∈ s₂.world.db.chats.rows := by
      rw [Write.chats_apply heff.execute]
      exact List.mem_append_right _ List.mem_cons_self
    obtain ⟨a, ha⟩ := row_of_registered (h₁.trans h₁₂) (hpre hj)
    obtain rfl := Except.ok.inj (hs.recipient.symm.trans hun.name)
    have hsender : r.senderAccountId = sender.accountId :=
      Option.some.inj (hs.sender.symm.trans hun.account)
    refine ⟨s₂, r, a, h₁.trans h₁₂, h₂, hr, ⟨?_, ?_, hsender, ?_, ?_, hs.payload, t, ?_,
      hs.createdAt, ?_⟩, ha⟩
    · rw [hs.requestId, hx]
    · rw [hs.leaseId, hx]
    · exact Option.some.inj (recipient_of_read h hlog hj' hrecipient)
    · obtain ⟨a', ha', hid, hkey⟩ := sender_of_read h (hsub (mem_own.mp hkey))
      have hgrow := ha.grow (accounts_grow (h₁.trans h₁₂) h₂)
      obtain rfl := hgrow.unique ha' (hid.trans hsender)
      obtain ⟨_, -, hidentity⟩ := AccountRow.toIdentity_eq_ok.mp ha.toIdentity
      rw [hidentity, hkey]
    · exact reading_of_now h (hsub (mem_own.mp hnow))
    · rw [hx]

end sent

/-! ### A listing shows it -/

lemma clock_le {s₁ : Service D} (h₁ : Reach P ((service D).start (World.init d₀ t₀)) s₁)
    (h : Reach P s₁ s) : s₁.world.clock ≤ s.world.clock := by
  induction h with
  | refl => exact le_rfl
  | step h₂ hP hn ih =>
    rcases service_step (h₁.trans h₂) hn with ⟨-, hclock, -⟩ |
      ⟨_, _, _, _, -, -, -, -, -, hle, heff⟩
    · exact ih.trans hclock.ge
    · exact ih.trans (heff.clock ▸ hle)

/-- What a listing answers is what the database said of the account since its call. -/
lemma rows_of_listing (h : Reach P ((service D).start (World.init d₀ t₀)) s) {k : ℕ}
    {account : Text} {zs : List LiveChatRequest} {post mid pre : Log}
    (hacc : ctx.account = some account) (hlog : s.log = post ++ .respond k (.ok (.requests zs)) ::
      (mid ++ .call k (.liveChatRequests ctx) :: pre)) :
    ∃ (s₁ : Service D) (now : ℤ), Reach P ((service D).start (World.init d₀ t₀)) s₁ ∧
      Reach P s₁ s ∧ (∃ c, s₁.log = c ++ .call k (.liveChatRequests ctx) :: pre) ∧
      s₁.world.clock ≤ now ∧ now ≤ s.world.clock ∧
        List.Forall₂ (fun row z => row.intoModel = .ok z)
          (Select.eval D now s₁.world.db (.liveChatRequests account)) zs := by
  obtain ⟨op, hop, ctx', account', rows, n, rfl, hacc', hzs, hpast⟩ :=
    h.log_respond (scripted D) hlog
  have hsub : mid ++ .call k (.liveChatRequests ctx) :: pre ⊆ s.log := by
    rw [hlog]
    exact fun e he => List.mem_append_right _ (List.mem_cons_of_mem _ he)
  cases h.logged.call_unique (hsub hop) (hsub (List.mem_append_right _ List.mem_cons_self))
  obtain rfl := Option.some.inj (hacc'.symm.trans hacc)
  obtain ⟨s₁, s₂, ch, h₁, h₁₂, h₂, hc, heff⟩ :=
    effect_since_call h hlog (hpast ▸ List.mem_cons_self)
  obtain rfl : rows = _ := heff.truthful trivial
  refine ⟨s₁, ch.reading, h₁, h₁₂.trans h₂, hc, ?_, ?_, forall₂_of_mapM hzs⟩
  · exact heff.clock ▸ clock_le h₁ h₁₂
  · exact heff.clock ▸ clock_le (h₁.trans h₁₂) h₂

lemma exists_of_forall₂ {α β : Type} {R : α → β → Prop} {l : List α} {l' : List β}
    (h : List.Forall₂ R l l') {a : α} (ha : a ∈ l) : ∃ b ∈ l', R a b := by
  induction h with
  | nil => cases ha
  | @cons a' b l l' hab _ ih =>
    rcases List.mem_cons.mp ha with rfl | ha
    · exact ⟨b, List.mem_cons_self, hab⟩
    · obtain ⟨b', hb', hab'⟩ := ih ha
      exact ⟨b', List.mem_cons_of_mem _ hb', hab'⟩

/-- No request is listed twice. -/
lemma listed_once (h : Reach P ((service D).start (World.init .empty t₀)) s) {now : ℤ}
    {account : Text} {zs : List LiveChatRequest}
    (hzs : List.Forall₂ (fun row z => row.intoModel = .ok z)
      (Select.eval D now s.world.db (.liveChatRequests account)) zs) :
    (zs.map LiveChatRequest.requestId).Nodup := by
  have hids : ∀ row ∈ Select.eval D now s.world.db (.liveChatRequests account), ∀ z,
      row.intoModel = .ok z → row.requestId = z.requestId.toText := by
    intro row hrow z hz
    obtain ⟨r, hr, -, -, hjoin⟩ := Select.mem_liveChatRequests D hrow
    obtain ⟨a, -, rfl⟩ := Option.map_eq_some_iff.mp hjoin
    exact requestId_of_parse h hr (LiveChatRequestRow.intoModel_eq_ok hz).1
  have hdistinct : (Select.eval D now s.world.db (.liveChatRequests account)).Pairwise
      fun a b => a.requestId ≠ b.requestId := by
    rw [Select.eval, (List.perm_insertionSort _ _).pairwise_iff fun h => h.symm,
      List.pairwise_filterMap]
    refine (s.world.db.chats.distinct.filter _).imp fun {a b} hab row hrow row' hrow' => ?_
    obtain ⟨_, -, rfl⟩ := Option.map_eq_some_iff.mp hrow
    obtain ⟨_, -, rfl⟩ := Option.map_eq_some_iff.mp hrow'
    exact fun heq => hab (.inl heq)
  generalize Select.eval D now s.world.db (.liveChatRequests account) = rows at hids hdistinct hzs
  induction hzs with
  | nil => exact List.nodup_nil
  | @cons row z rows zs hz hzs ih =>
    obtain ⟨hne, hdistinct⟩ := List.pairwise_cons.mp hdistinct
    obtain ⟨hid, hids⟩ := List.forall_mem_cons.mp hids
    refine List.nodup_cons.mpr ⟨fun hmem => ?_, ih hids hdistinct⟩
    obtain ⟨z', hz', heq⟩ := List.mem_map.mp hmem
    obtain ⟨row', hrow', hmodel⟩ := exists_of_forall₂ hzs.flip hz'
    refine hne row' hrow' ?_
    rw [hid z hz, hids row' hrow' z' hmodel, heq]

/-- A request that is active when a listing reads is shown by it. -/
lemma RowOfRequest.shown (h : Reach (Readings Early) ((service D).start (World.init .empty t₀)) s)
    {x : LiveChatRequestSubmission} {r : ChatRecord} (hx : RowOfRequest sender recipient input x r)
    (hr : r ∈ s.world.db.chats.rows) {now : ℤ} (hactive : r.Active D now = true) {a : AccountRow}
    (ha : RowOf sender s.world.db a) {zs : List LiveChatRequest}
    (hzs : List.Forall₂ (fun row z => row.intoModel = .ok z)
      (Select.eval D now s.world.db (.liveChatRequests recipient.accountId)) zs) :
    ∃ z ∈ zs, ShowsRequest sender input x z := by
  have hjoin : s.world.db.joinSender r = some ⟨r.requestId, r.senderAccountId, a.identitty,
      r.senderPublicKey, r.encryptedPayload, r.createdAt, r.leaseExpiresAt⟩ := by
    rw [Db.joinSender, hx.senderAccountId, ha.byId, Option.map_some]
  have hrow : _ ∈ Select.eval D now s.world.db (.liveChatRequests recipient.accountId) :=
    (List.perm_insertionSort _ _).mem_iff.mpr (List.mem_filterMap.mpr
      ⟨r, List.mem_filter.mpr ⟨hr, by simp [hx.recipientAccountId, hactive]⟩, hjoin⟩)
  obtain ⟨z, hz, hmodel⟩ := exists_of_forall₂ hzs hrow
  obtain ⟨hid, hsender, hname, hkey, hpayload, hcreated, hexpires⟩ :=
    LiveChatRequestRow.intoModel_eq_ok hmodel
  obtain ⟨c, e, ht⟩ := timed h r hr
  obtain ⟨t, ht₀, hrt, hlease⟩ := hx.createdAt
  have hpos : (0 : ℤ) ≤ seconds 90 := by decide
  have hend : InEra e := ht.early.1.between ht.early.2 (by have := ht.least; omega) ht.most
  rw [hx.requestId, Uuid.parse_toText] at hid
  rw [ht.createdAt, parse_toRfc3339 ht.early.1] at hcreated
  rw [ht.leaseExpiresAt, parse_toRfc3339 hend] at hexpires
  obtain rfl : t = c := by
    refine eq_of_parse ?_
    rw [← ht.createdAt, hrt, parse_toRfc3339 ht₀.1]
  obtain rfl := Option.some.inj hcreated
  obtain rfl := Option.some.inj hexpires
  refine ⟨z, hz, (Option.some.inj hid).symm, hsender.trans hx.senderAccountId,
    hname.trans ha.identitty, hkey.trans hx.senderPublicKey, ⟨_, hx.payload, hpayload⟩, hlease,
    hlease ▸ ht.least, ht.most⟩

/-- Whatever runs at the same time, an unhindered request to somebody who had registered arrives. -/
theorem request_arrives (hD : Chronological D)
    (h : Reach (Readings Early) ((service D).start (World.init .empty t₀)) s) :
    Arrives (sqlAfter D s.world.clock) (history s.log) := by
  intro l₄ l₃ l₂ l₁ l₀ i k ctx ctx' input sender recipient x zs hh ⟨j, hj⟩ ⟨j', hj'⟩ hun hacc hlasts
  have hx : .respond i (.ok (.submission x)) ∈ history s.log := by simp [hh]
  obtain ⟨p₄, q₄, hlog, -, hq₄⟩ := history_split hh
  obtain ⟨p₃, q₃, rfl, -, hq₃⟩ := history_split hq₄
  obtain ⟨p₂, q₂, rfl, -, hq₂⟩ := history_split hq₃
  obtain ⟨p₁, q₁, rfl, -, rfl⟩ := history_split hq₂
  obtain ⟨s₁, now, h₁, hrest, ⟨c, hc⟩, hle, hnow, hzs⟩ := rows_of_listing h hacc hlog
  have hlog₁ : s₁.log = (c ++ .call k (.liveChatRequests ctx') :: p₂) ++
      .respond i (.ok (.submission x)) ::
        (p₁ ++ .call i (.sendLiveChatRequest ctx input) :: q₁) := by
    rw [hc]
    simp [Seen.event]
  have hsub : s₁.log ⊆ s.log := hrest.log_suffix.subset
  obtain ⟨s₀, r, a, h₀, hrun, hr, hrow, ha⟩ := stored_of_accepted h₁ hlog₁
    (mem_history.mp hj) (mem_history.mp hj') hsub hun
  have hlasts₁ : sqlAfter D s₁.world.clock x.leaseExpiresAt = true :=
    sqlAfter.anti hD (hle.trans hnow) hlasts
  obtain ⟨r', hr', hrow'⟩ := hrow.stays hD hun hx h₀ ha hr hrun hsub hlasts₁
  have hactive := hrow'.active hD h₁ hr' (sqlAfter.anti hD hnow hlasts)
  obtain ⟨z, hz, hshows⟩ :=
    hrow'.shown h₁ hr' hactive (ha.grow (accounts_grow h₀ hrun)) hzs
  refine ⟨⟨z, hz, hshows⟩, ?_⟩
  rw [← hshows.requestId]
  exact List.count_eq_one_of_mem (listed_once h₁ hzs) (List.mem_map_of_mem hz)

namespace Known

def adaIdentity : AccountIdentity := ⟨ada, "ada".toList, Base64.encode adaKey, newYear⟩

def bobIdentity : AccountIdentity := ⟨bob, "bob".toList, Base64.encode bobKey, newYear⟩

def greeting : SendLiveChatRequestInput := ⟨"bob".toList, ⟨7⟩, "AA==".toList⟩

def submitted : LiveChatRequestSubmission := ⟨⟨5⟩, true, ⟨6⟩, newYear + seconds 90⟩

/-- Ada sends Bob a request, the background task sweeps, and Bob lists his requests. -/
def arrival : List (Action Op Choice) :=
  sendAt newYear ++ whole .cleanupTick 3 1 newYear ⟨0⟩ ++
    whole (.liveChatRequests (session bob)) 4 2 newYear ⟨0⟩

/-- What was seen before the listing. -/
def beforeListing : List (Seen Op Response) :=
  [.respond 3 (.ok .done), .call 3 .cleanupTick, .respond 2 (.ok (.submission submitted)),
    .call 2 (.sendLiveChatRequest (session ada) greeting), .respond 1 (.ok (.identity bobIdentity)),
    .call 1 (register "bob".toList bob bobKey), .respond 0 (.ok (.identity adaIdentity)),
    .call 0 (register "ada".toList ada adaKey)]

def arrived : LiveChatRequest :=
  ⟨⟨5⟩, ada, "ada".toList, Base64.encode adaKey, "AA==".toList, newYear, newYear + seconds 90⟩

lemma arrival_history : (((service deployment).start (World.init .empty newYear)).take
    arrival).map (fun s => (history s.log, s.world.clock)) =
      some (.respond 4 (.ok (.requests [arrived])) :: .call 4 (.liveChatRequests (session bob)) ::
        beforeListing, newYear) := by
  decide +kernel

lemma unhindered_arrival : Unhindered (.respond 4 (.ok (.requests [arrived])) ::
    .call 4 (.liveChatRequests (session bob)) :: beforeListing) 2 (session ada) greeting adaIdentity
      bobIdentity where
  account := rfl
  name := by decide
  distinct := by decide
  once j ctx input h _ _ := by simp [beforeListing, register] at h; exact h.1
  unblocked j ctx input h := by simp [beforeListing, register] at h
  kept j ctx x _ _ := by simp [beforeListing, register]

end Known

open Known in
theorem request_arrives_known : (∃ z ∈ [arrived], ShowsRequest adaIdentity greeting submitted z) ∧
    ([arrived].map LiveChatRequest.requestId).count submitted.requestId = 1 := by
  obtain ⟨s, hs, hans⟩ := Option.map_eq_some_iff.mp arrival_history
  obtain ⟨hhistory, hclock⟩ := Prod.mk.inj hans
  have hearly : ∀ a ∈ arrival, Reading Early a := by decide
  have harrives := request_arrives chronological
    (Reach.refl.take (fun a ha _ => hearly a ha) hs)
  rw [hhistory, hclock] at harrives
  exact harrives [] [] [.respond 3 _, .call 3 _] [] _ 2 4 _ _ greeting adaIdentity bobIdentity
    submitted _ rfl ⟨0, by simp⟩ ⟨1, by simp⟩ unhindered_arrival rfl (by decide +kernel)

end TittyBackend
