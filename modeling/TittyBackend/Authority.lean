import TittyBackend.Provenance

/-!
# Authority

Whatever runs at the same time, a step on behalf of an account touches only what that account
controls. A renewal and a cancellation check the owner of a request in one statement and write in
another that names only ids; no other request ever has these ids.
-/

namespace TittyBackend

open Numerals Programs Programs.System

variable {D : Deployment} {P : Service D → Action Op Choice → Prop} {t₀ : ℤ} {s s' : Service D}

/-- The operation is a block of `accountId`: the account that its input names. -/
def Op.Blocks (d : Db) (accountId : Text) : Op → Prop
  | .blockIdentity _ input => ∃ name a, normaliseIdentitty input.identitty = .ok name ∧
      d.accountByIdentitty name = some a ∧ a.accountId = accountId
  | _ => False

/-- What the command `c` of the operation may do on behalf of the account `a`. -/
structure Authorised (D : Deployment) (op : Op) (a : Text) (now : ℤ) (c : Command) (d d' : Db) :
    Prop where
  chats_stored : ∀ r ∈ d'.chats.rows, r ∉ d.chats.rows → r.senderAccountId = a
  chats_renewed : ∀ r ∈ d.chats.rows, ∀ r' ∈ d'.chats.rows, r'.requestId = r.requestId →
    r' = r ∨ r.senderAccountId = a ∧ r' = { r with leaseExpiresAt := r'.leaseExpiresAt }
  chats_deleted : ∀ r ∈ d.chats.rows, (∀ r' ∈ d'.chats.rows, r'.requestId ≠ r.requestId) →
    r.senderAccountId = a ∨ r.recipientAccountId = a ∧ op.Blocks d r.senderAccountId ∨
      c = .execute .removeExpiredChats ∧ r.Expired D now = true
  blocks_stored : ∀ b ∈ d'.blocks.rows, b ∉ d.blocks.rows → b.blockerAccountId = a
  blocks_deleted : ∀ b ∈ d.blocks.rows, b ∉ d'.blocks.rows → b.blockerAccountId = a
  accounts : d'.accounts.rows = d.accounts.rows
  challenges : d'.challenges.rows = d.challenges.rows

variable {op : Op} {a : Text} {now : ℤ} {c : Command} {d d' : Db}

lemma Authorised.refl : Authorised D op a now c d d where
  chats_stored _ hr hr' := absurd hr hr'
  chats_renewed _ hr _ hr' hid := .inl (d.chats.eq_of_clash hr' hr (.inl hid))
  chats_deleted r hr hr' := absurd rfl (hr' r hr)
  blocks_stored _ hb hb' := absurd hb hb'
  blocks_deleted _ hb hb' := absurd hb hb'
  accounts := rfl
  challenges := rfl

/-- A change of the chat requests alone. -/
lemma Authorised.of_chats (haccounts : d'.accounts.rows = d.accounts.rows)
    (hchallenges : d'.challenges.rows = d.challenges.rows)
    (hblocks : d'.blocks.rows = d.blocks.rows)
    (hstored : ∀ r ∈ d'.chats.rows, r ∉ d.chats.rows → r.senderAccountId = a)
    (hrenewed : ∀ r ∈ d.chats.rows, ∀ r' ∈ d'.chats.rows, r'.requestId = r.requestId →
      r' = r ∨ r.senderAccountId = a ∧ r' = { r with leaseExpiresAt := r'.leaseExpiresAt })
    (hdeleted : ∀ r ∈ d.chats.rows, (∀ r' ∈ d'.chats.rows, r'.requestId ≠ r.requestId) →
      r.senderAccountId = a ∨ r.recipientAccountId = a ∧ op.Blocks d r.senderAccountId ∨
        c = .execute .removeExpiredChats ∧ r.Expired D now = true) :
    Authorised D op a now c d d' where
  chats_stored := hstored
  chats_renewed := hrenewed
  chats_deleted := hdeleted
  blocks_stored _ hb hb' := absurd (hblocks ▸ hb) hb'
  blocks_deleted _ hb hb' := absurd (hblocks ▸ hb) hb'
  accounts := haccounts
  challenges := hchallenges

/-- A deletion of the requests that satisfy `p`. -/
lemma Authorised.of_deleted {p : ChatRecord → Prop}
    (haccounts : d'.accounts.rows = d.accounts.rows)
    (hchallenges : d'.challenges.rows = d.challenges.rows)
    (hblocks : d'.blocks.rows = d.blocks.rows)
    (hchats : ∀ r, r ∈ d'.chats.rows ↔ r ∈ d.chats.rows ∧ ¬ p r)
    (hp : ∀ r ∈ d.chats.rows, p r → r.senderAccountId = a ∨
      r.recipientAccountId = a ∧ op.Blocks d r.senderAccountId ∨
        c = .execute .removeExpiredChats ∧ r.Expired D now = true) :
    Authorised D op a now c d d' := by
  refine .of_chats haccounts hchallenges hblocks ?_ ?_ ?_
  · exact fun r hr hr' => absurd ((hchats r).mp hr).1 hr'
  · exact fun r hr r' hr' hid =>
      .inl (d.chats.eq_of_clash ((hchats r').mp hr').1 hr (.inl hid))
  · intro r hr hgone
    by_cases hpr : p r
    · exact hp r hr hpr
    · exact absurd rfl (hgone r ((hchats r).mpr ⟨hr, hpr⟩))

/-- A new end of the lease for the requests with an id. -/
lemma Authorised.of_leased {requestId leaseExpiresAt : Text}
    (haccounts : d'.accounts.rows = d.accounts.rows)
    (hchallenges : d'.challenges.rows = d.challenges.rows)
    (hblocks : d'.blocks.rows = d.blocks.rows)
    (hchats : d'.chats.rows = d.chats.rows.map fun r =>
      if r.requestId = requestId then { r with leaseExpiresAt := leaseExpiresAt } else r)
    (hsender : ∀ r ∈ d.chats.rows, r.requestId = requestId → r.senderAccountId = a) :
    Authorised D op a now c d d' := by
  have hold : ∀ r' ∈ d'.chats.rows, ∃ r ∈ d.chats.rows, r' = r ∨
      r.requestId = requestId ∧ r' = { r with leaseExpiresAt := r'.leaseExpiresAt } := by
    intro r' hr'
    rw [hchats] at hr'
    obtain ⟨r, hr, rfl⟩ := List.mem_map.mp hr'
    refine ⟨r, hr, ?_⟩
    split_ifs with hid
    · exact .inr ⟨hid, rfl⟩
    · exact .inl rfl
  refine .of_chats haccounts hchallenges hblocks (fun r' hr' hnew => ?_)
    (fun r hr r' hr' hid => ?_) fun r hr hgone => ?_
  · obtain ⟨r, hr, rfl | ⟨hid, heq⟩⟩ := hold r' hr'
    · exact absurd hr hnew
    · rw [heq]
      exact hsender r hr hid
  · obtain ⟨r₁, hr₁, heq⟩ := hold r' hr'
    have hsame : r₁ = r := by
      refine d.chats.eq_of_clash hr₁ hr (.inl (.trans ?_ hid))
      rcases heq with rfl | ⟨-, heq⟩
      · rfl
      · rw [heq]
    subst hsame
    exact heq.imp id fun heq => ⟨hsender r₁ hr heq.1, heq.2⟩
  · refine absurd ?_ (hgone (if r.requestId = requestId then
      { r with leaseExpiresAt := leaseExpiresAt } else r) (hchats ▸ List.mem_map_of_mem hr))
    split_ifs <;> rfl

/-- A change of the blocks alone. -/
lemma Authorised.of_blocks (haccounts : d'.accounts.rows = d.accounts.rows)
    (hchallenges : d'.challenges.rows = d.challenges.rows)
    (hchats : d'.chats.rows = d.chats.rows)
    (hstored : ∀ b ∈ d'.blocks.rows, b ∉ d.blocks.rows → b.blockerAccountId = a)
    (hdeleted : ∀ b ∈ d.blocks.rows, b ∉ d'.blocks.rows → b.blockerAccountId = a) :
    Authorised D op a now c d d' where
  chats_stored _ hr hr' := absurd (hchats ▸ hr) hr'
  chats_renewed _ hr _ hr' hid := .inl (d.chats.eq_of_clash (hchats ▸ hr') hr (.inl hid))
  chats_deleted r hr hr' := absurd rfl (hr' r (hchats ▸ hr))
  blocks_stored := hstored
  blocks_deleted := hdeleted
  accounts := haccounts
  challenges := hchallenges

/-! ### What an operation has read -/

/-- A request that an operation has read by its id is the one that has the id now. -/
lemma request_of_read (h : Reach P ((service D).start (World.init .empty t₀)) s) {i : ℕ}
    {q : Select} {x : q.Ans} (hq : ⟨.select q, .ok x⟩ ∈ own i s.log) {requestId : Text}
    {p : ChatRecord → Prop}
    (hread : ∀ now d, x = q.eval D now d →
      ∃ r ∈ d.chats.rows, r.requestId = requestId ∧ p r)
    {r : ChatRecord} (hr : r ∈ s.world.db.chats.rows) (hid : r.requestId = requestId) :
    ∃ r₁, p r₁ ∧ r = { r₁ with leaseExpiresAt := r.leaseExpiresAt } := by
  obtain ⟨s₁, ch, w', h₁, heff, hl⟩ := effect_of_log h (mem_own.mp hq)
  obtain ⟨r₁, hr₁, hid₁, hp⟩ := hread _ _ (heff.truthful trivial)
  exact ⟨r₁, hp, same_request h h₁ hl hr hr₁ (hid.trans hid₁.symm)⟩

/-- A renewal has read that the request is its sender's. -/
lemma sender_of_lease (h : Reach P ((service D).start (World.init .empty t₀)) s) {i : ℕ}
    {requestId leaseId sender : Text} {row : LeaseRow}
    (hq : ⟨.select (.lease requestId leaseId sender), .ok (some row)⟩ ∈ own i s.log)
    {r : ChatRecord} (hr : r ∈ s.world.db.chats.rows) (hid : r.requestId = requestId) :
    r.senderAccountId = sender := by
  obtain ⟨r₁, hsender, heq⟩ := request_of_read h hq (p := fun r => r.senderAccountId = sender)
    (fun now d hx => by
      obtain ⟨r₁, hr₁, -⟩ := Option.map_eq_some_iff.mp hx.symm
      have hkey := List.find?_some hr₁
      simp only [decide_eq_true_eq] at hkey
      exact ⟨r₁, List.mem_of_find?_eq_some hr₁, hkey.1, hkey.2.2⟩) hr hid
  rw [heq]
  exact hsender

/-- A cancellation has read that the request is its sender's. -/
lemma sender_of_owner (h : Reach P ((service D).start (World.init .empty t₀)) s) {i : ℕ}
    {requestId leaseId sender : Text}
    (hq : ⟨.select (.owner requestId leaseId), .ok (some sender)⟩ ∈ own i s.log)
    {r : ChatRecord} (hr : r ∈ s.world.db.chats.rows) (hid : r.requestId = requestId) :
    r.senderAccountId = sender := by
  obtain ⟨r₁, hsender, heq⟩ := request_of_read h hq (p := fun r => r.senderAccountId = sender)
    (fun now d hx => by
      obtain ⟨r₁, hr₁, hs⟩ := Option.map_eq_some_iff.mp hx.symm
      have hkey := List.find?_some hr₁
      simp only [decide_eq_true_eq] at hkey
      exact ⟨r₁, List.mem_of_find?_eq_some hr₁, hkey.1, hs⟩) hr hid
  rw [heq]
  exact hsender

/-- A block has read whom its input names. -/
lemma blocks_of_target (h : Reach P ((service D).start (World.init .empty t₀)) s) {i : ℕ}
    {ctx : Context} {input : BlockIdentityInput} {blocker identitty : Text}
    {target : BlockTargetRow} (hb : Blocking ctx input blocker identitty target)
    (hq : ⟨.select (.blockTarget identitty), .ok (some target)⟩ ∈ own i s.log) :
    Op.Blocks s.world.db target.accountId (.blockIdentity ctx input) := by
  obtain ⟨post, pre, hlog⟩ := List.append_of_mem (mem_own.mp hq)
  obtain ⟨s₁, _, ch, h₁, -, -, -, -, -, -, heff, h₂⟩ := exec_of_log h hlog
  have hans : some target = Select.eval D ch.reading s₁.world.db (.blockTarget identitty) :=
    heff.truthful trivial
  obtain ⟨a, ha, rfl⟩ := Option.map_eq_some_iff.mp hans.symm
  exact ⟨identitty, a, hb.name, Db.accountByIdentitty_of_prefix (accounts_grow h₁ h₂) ha, rfl⟩

/-! ### Every write is authorised -/

lemma authorised_of_write (h : Reach P ((service D).start (World.init .empty t₀)) s) {i n : ℕ}
    {u : Write} (ha : op.account? = some a) (hi : op.Issues D (own i s.log) (.execute u))
    (hu : u.apply D now s.world.db = .ok (n, d')) :
    Authorised D op a now (.execute u) s.world.db d' := by
  have haccounts := Write.accounts_apply hu
  have hchallenges := Write.challenges_apply hu
  have hchats := Write.chats_apply hu
  have hblocks := Write.blocks_apply hu
  cases u with
  | insertAccount r =>
    obtain ⟨ctx, input, t, rfl, -⟩ := hi
    cases ha
  | insertChallenge challengeId accountId challenge expiresAt =>
    obtain ⟨ctx, u, bytes, t, e, rfl, -⟩ := hi
    cases ha
  | useChallenge usedAt challengeId => exact hi.elim
  | removeExpiredChallenges =>
    obtain ⟨rfl, -⟩ := hi
    cases ha
  | insertChat r =>
    obtain ⟨ctx, input, requestId, leaseId, t, identitty, m, m', rfl, hs, -, -⟩ := hi
    have hsender : r.senderAccountId = a := Option.some.inj (hs.sender.symm.trans ha)
    have hold : ∀ r' ∈ s.world.db.chats.rows, r' ∈ d'.chats.rows := fun r' hr' =>
      hchats ▸ List.mem_append_left _ hr'
    refine .of_chats haccounts hchallenges hblocks (fun r' hr' hnew => ?_)
      (fun r₁ hr₁ r' hr' hid => ?_) fun r₁ hr₁ hgone => absurd rfl (hgone r₁ (hold r₁ hr₁))
    · rw [hchats] at hr'
      obtain rfl := List.mem_singleton.mp ((List.mem_append.mp hr').resolve_left hnew)
      exact hsender
    · exact .inl (d'.chats.eq_of_clash hr' (hold r₁ hr₁) (.inl hid))
  | updateLease leaseExpiresAt requestId =>
    obtain ⟨ctx, sender, input, row, hard, t, m, rfl, hsender, hreq, -, -, hpast⟩ := hi
    obtain rfl : sender = a := Option.some.inj (hsender.symm.trans ha)
    have hread : ⟨.select (.lease input.requestId.toText input.leaseId.toText sender),
        .ok (some row)⟩ ∈ own i s.log := by
      simp [hpast, renewPast]
    exact .of_leased haccounts hchallenges hblocks hchats
      fun r hr hid => sender_of_lease h hread hr (hid.trans hreq)
  | deleteChat requestId leaseId =>
    obtain ⟨ctx, sender, input, rfl, hsender, -, -, hpast⟩ := hi
    obtain rfl : sender = a := Option.some.inj (hsender.symm.trans ha)
    have hread : ⟨.select (.owner requestId leaseId), .ok (some sender)⟩ ∈ own i s.log := by
      simp [hpast]
    refine .of_deleted haccounts hchallenges hblocks
      (p := fun r => r.requestId = requestId ∧ r.leaseId = leaseId)
      (fun r => by simp only [hchats, Write.chatRows, List.mem_filter, decide_eq_true_eq])
      fun r hr hid => .inl (sender_of_owner h hread hr hid.1)
  | removeExpiredChats =>
    exact .of_deleted haccounts hchallenges hblocks (p := fun r => r.Expired D now = true)
      (fun r => by simp [hchats, Write.chatRows]) fun r _ hexp => .inr (.inr ⟨rfl, hexp⟩)
  | deleteChatsBetween sender recipient =>
    obtain ⟨ctx, input, identitty, target, t, m, rfl, hb, rfl, hpast⟩ := hi
    obtain rfl : recipient = a := Option.some.inj (hb.account.symm.trans ha)
    have hread : ⟨.select (.blockTarget identitty), .ok (some target)⟩ ∈ own i s.log := by
      simp [hpast, blockPast]
    exact .of_deleted haccounts hchallenges hblocks
      (p := fun r => r.senderAccountId = target.accountId ∧ r.recipientAccountId = recipient)
      (fun r => by simp only [hchats, Write.chatRows, List.mem_filter, decide_eq_true_eq])
      fun r _ hr => .inr (.inl ⟨hr.2, hr.1 ▸ blocks_of_target h hb hread⟩)
  | insertBlock b =>
    obtain ⟨ctx, input, identitty, target, t, rfl, hb, -, -⟩ := hi
    have hblocker : b.blockerAccountId = a := Option.some.inj (hb.account.symm.trans ha)
    refine .of_blocks haccounts hchallenges hchats (fun b' hb' hnew => ?_) fun b' hb' hgone => ?_
    · rcases Write.mem_blockRows (hblocks ▸ hb') with hold | heq
      · exact absurd hold hnew
      · cases heq
        exact hblocker
    · refine absurd ?_ hgone
      rw [hblocks, Write.blockRows]
      split_ifs
      · exact List.mem_append_left _ hb'
      · exact hb'
  | deleteBlock blocker blocked =>
    obtain ⟨ctx, rfl, hblocker, -⟩ := hi
    obtain rfl : blocker = a := Option.some.inj (hblocker.symm.trans ha)
    refine .of_blocks haccounts hchallenges hchats (fun b hb hnew => ?_) fun b hb hgone => ?_
    · rw [hblocks] at hb
      exact absurd (List.mem_of_mem_filter hb) hnew
    · by_contra hne
      refine hgone ?_
      rw [hblocks]
      exact List.mem_filter.mpr ⟨hb, by simp [hne]⟩

/-- Every step on behalf of an account touches only what the account controls. -/
theorem authority (h : (service D).Reachable (World.init .empty t₀) s) {i : ℕ} {ch : Choice}
    (hcall : .call i op ∈ s.log) (ha : op.account? = some a)
    (hn : s.next (.step i ch) = some s') : ∃ e, s'.log = .exec i e :: s.log ∧
      Authorised D op a ch.reading e.1 s.world.db s'.world.db := by
  obtain ⟨e, he⟩ : ∃ e, s'.log = .exec i e :: s.log := by
    cases State.steps_of_next hn with
    | step ht hen => exact ⟨_, rfl⟩
  refine ⟨e, he, ?_⟩
  rcases step_db h hn with hdb | ⟨i', ch', op', u, n, hact, hcall', hissues, hu, hlog⟩ |
    ⟨i', ch', ctx, input, t', τ, hact, hcall', -⟩
  · exact hdb ▸ .refl
  · cases hact
    obtain rfl := h.logged.call_unique hcall hcall'
    cases (List.cons.inj (he.symm.trans hlog)).1
    exact authorised_of_write h ha hissues hu
  · cases hact
    obtain rfl := h.logged.call_unique hcall hcall'
    cases ha

namespace Known

/-- Ada sends Bob a request; he blocks her, up to the statement that deletes it. -/
def openBlock : List (Action Op Choice) :=
  whole (register "ada".toList ada adaKey) 0 3 newYear ⟨0⟩ ++
    whole (register "bob".toList bob bobKey) 1 3 newYear ⟨0⟩ ++
    .call (.sendLiveChatRequest (session ada) ⟨"bob".toList, ⟨7⟩, "AA==".toList⟩) ::
    ((List.range 10).map fun n => .step 2 (fine newYear ⟨.ofNat 128 n⟩)) ++
    .call (.blockIdentity (session bob) ⟨"ada".toList⟩) ::
    List.replicate 3 (.step 3 (fine newYear ⟨0⟩))

lemma openBlock_deletes :
    (((service deployment).start (World.init .empty newYear)).take openBlock).bind (fun s =>
      (s.next (.step 3 (fine newYear ⟨0⟩))).map fun s' =>
        ((history s.log).head?, s.world.db.chats.rows.map ChatRecord.senderAccountId,
          s'.world.db.chats.rows)) =
      some (some (.call 3 (.blockIdentity (session bob) ⟨"ada".toList⟩)), [ada], []) := by
  decide +kernel

end Known

theorem authority_block : ∃ (s s' : Service Known.deployment) (c : Command),
    s.world.db.chats.rows.map ChatRecord.senderAccountId = [Known.ada] ∧
      s'.world.db.chats.rows = [] ∧
      Authorised Known.deployment (.blockIdentity (Known.session Known.bob) ⟨"ada".toList⟩)
        Known.bob Known.newYear c s.world.db s'.world.db := by
  obtain ⟨s, hs, hstep⟩ := Option.bind_eq_some_iff.mp Known.openBlock_deletes
  obtain ⟨s', hn, hans⟩ := Option.map_eq_some_iff.mp hstep
  simp only [Prod.mk.injEq] at hans
  obtain ⟨hcall, hbefore, hafter⟩ := hans
  obtain ⟨e, -, hauth⟩ := authority (reachable_of_take hs)
    (mem_history.mp (List.mem_of_head? hcall)) rfl hn
  exact ⟨s, s', e.1, hbefore, hafter, hauth⟩

end TittyBackend
