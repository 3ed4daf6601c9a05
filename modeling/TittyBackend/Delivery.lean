import TittyBackend.Ledger

/-!
# Exact delivery

What each operation does to the rows is what its turn does to the ledger.
-/

namespace TittyBackend

open Numerals Programs Programs.System Resolver Lapses
open DateTime (seconds)

variable {D : Deployment}

/-! ### What the operations do to the rows -/

/-- The choices are of one instant, and none fails. -/
def OnTime (τ : ℤ) (chs : List Choice) : Prop :=
  ∀ ch ∈ chs, ch.fails = false ∧ ch.reading = τ ∧ Early τ

section steps

variable {ctx : Context} {w w' : World} {i : ℕ} {chs : List Choice} {r : Response} {τ : ℤ}

lemma OnTime.last {c : Choice} (h : OnTime τ (chs ++ [c])) :
    c.fails = false ∧ c.reading = τ ∧ Early τ := h c (by simp)

lemma OnTime.init {c : Choice} (h : OnTime τ (chs ++ [c])) : OnTime τ chs := fun ch hch =>
  h ch (List.mem_append_left _ hch)

/-- No statement of these fails. -/
lemma OnTime.absurd {c : Choice} {p : Prop} (h : OnTime τ chs) (hc : c ∈ chs)
    (hf : c.fails = true) : p := by
  rw [(h c hc).1] at hf
  cases hf

lemma unblock_step {input : UnblockIdentityInput} {blocker : Text}
    (hacc : ctx.account = some blocker)
    (h : (service D).Plays i (Op.program D (.unblockIdentity ctx input)) w chs r w')
    (hon : OnTime τ chs) : w'.db.accounts.rows = w.db.accounts.rows ∧
      w'.db.chats.rows = w.db.chats.rows ∧ w'.db.blocks.rows = w.db.blocks.rows.filter fun b =>
        ¬ (b.blockerAccountId = blocker ∧ b.blockedAccountId = input.accountId) := by
  refine h.of_wp (Q := fun _ x => OnTime τ x.2 → x.1.db.accounts.rows = w.db.accounts.rows ∧
    x.1.db.chats.rows = w.db.chats.rows ∧ x.1.db.blocks.rows = w.db.blocks.rows.filter fun b =>
      ¬ (b.blockerAccountId = blocker ∧ b.blockedAccountId = input.accountId)) ?_ hon
  simp only [Op.program, Op.resolver, unblockIdentity, authenticated, hacc, orFail_some, wp_map,
    wp_bind, wp_pure, alone_execute, World.db_put]
  intro ch _
  refine ⟨fun hf hon => hon.absurd (by simp) hf, fun _ => ⟨?_, fun n d hu _ => ?_⟩⟩
  · rintro e ⟨⟩
  · exact ⟨Write.accounts_apply hu, Write.chats_apply hu, Write.blocks_apply hu⟩

/-- What a block leaves: its pair and no request from the blocked to the blocker, if there are such
accounts. -/
inductive BlockLeaves (d : Db) (blocker : Text) (input : BlockIdentityInput) (τ : ℤ) (d' : Db) :
    Prop
  | pair {name : Text} {a : AccountRow} (hname : normaliseIdentitty input.identitty = .ok name)
      (ha : d.accountByIdentitty name = some a) (hne : a.accountId ≠ blocker)
      (hknown : d.HasAccount blocker) (haccounts : d'.accounts.rows = d.accounts.rows)
      (hblocks : d'.blocks.rows = Write.blockRows d.blocks.rows
        (.insertBlock ⟨blocker, a.accountId, toRfc3339 τ⟩))
      (hchats : d'.chats.rows = d.chats.rows.filter fun r =>
        ¬ (r.senderAccountId = a.accountId ∧ r.recipientAccountId = blocker)) :
      BlockLeaves d blocker input τ d'
  | nothing (hdb : d' = d) (hno : ∀ name a, normaliseIdentitty input.identitty = .ok name →
      d.accountByIdentitty name = some a → a.accountId ≠ blocker → ¬ d.HasAccount blocker) :
      BlockLeaves d blocker input τ d'

lemma foreignKey_of_insertBlock {b : BlockRecord} {now : ℤ} {d : Db} {e : SqlError}
    (h : (Write.insertBlock b).apply D now d = .error e)
    (hblocked : d.HasAccount b.blockedAccountId) : ¬ d.HasAccount b.blockerAccountId := by
  intro hblocker
  simp only [Write.apply] at h
  split_ifs at h with hf ha
  exact ha ⟨hblocker, hblocked⟩

lemma block_step {input : BlockIdentityInput} {blocker : Text} (hacc : ctx.account = some blocker)
    (h : (service D).Plays i (Op.program D (.blockIdentity ctx input)) w chs r w')
    (hon : OnTime τ chs) : BlockLeaves w.db blocker input τ w'.db := by
  refine h.of_wp (Q := fun _ x => OnTime τ x.2 → BlockLeaves w.db blocker input τ x.1.db) ?_ hon
  simp only [Op.program, Op.resolver, blockIdentity, authenticated, hacc, orFail_some, wp_map,
    wp_bind, wp_orFail, wp_lift, wp_refuse, alone_now, alone_execute, alone_fetch (.blockTarget _),
    alone_fetch (.blockCreatedAt _ _), wp_pure, World.db_tick, World.db_put]
  have nothing {d : Db} (hdb : d = w.db) (hno : ∀ name a, normaliseIdentitty input.identitty =
      .ok name → w.db.accountByIdentitty name = some a → a.accountId ≠ blocker →
        ¬ w.db.HasAccount blocker) : BlockLeaves w.db blocker input τ d := .nothing hdb hno
  refine ⟨fun name hname c₀ _ => ⟨fun hf hon => hon.absurd (by simp) hf,
    fun _ => ⟨fun target htarget => ?_, fun hnone _ => ?_⟩⟩, fun e he _ => ?_⟩
  · obtain ⟨a, ha, rfl⟩ := Option.map_eq_some_iff.mp htarget
    refine ⟨fun hself _ => ?_,
      fun hne c₁ _ c₂ _ => ⟨fun hf hon => hon.absurd (by simp) hf, fun _ => ⟨?_, ?_⟩⟩⟩
    · refine nothing rfl fun name' a' hname' ha' hne => ?_
      obtain rfl := Except.ok.inj (hname.symm.trans hname')
      obtain rfl := Option.some.inj (ha.symm.trans ha')
      exact absurd hself hne
    · intro e he _
      refine nothing rfl fun name' a' hname' ha' _ => ?_
      exact foreignKey_of_insertBlock he ⟨a, List.mem_of_find?_eq_some ha, rfl⟩
    · intro n d₁ hu c₃ _
      refine ⟨fun hf hon => hon.absurd (by simp) hf, fun _ => ⟨?_, fun m d₂ hd c₄ _ => ?_⟩⟩
      · rintro e ⟨⟩
      · have hleaves (hon : OnTime τ ([] ++ [c₀] ++ [c₁] ++ [c₂] ++ [c₃] ++ [c₄])) :
            BlockLeaves w.db blocker input τ d₂ := by
          have hτ : c₁.reading = τ := hon.init.init.init.last.2.1
          refine .pair hname ha hne (known_of_insertBlock hu)
            ((Write.accounts_apply hd).trans (Write.accounts_apply hu)) ?_ ?_
          · rw [← hτ]
            exact (Write.blocks_apply hd).trans (Write.blocks_apply hu)
          · exact (Write.chats_apply hd).trans (congrArg _ (Write.chats_apply hu))
        exact ⟨fun hf hon => hon.absurd (by simp) hf,
          fun _ => ⟨fun text _ => ⟨fun at_ _ hon => hleaves hon, fun e _ hon => hleaves hon⟩,
            fun _ hon => hleaves hon⟩⟩
  · refine nothing rfl fun name' a' hname' ha' _ => ?_
    obtain rfl := Except.ok.inj (hname.symm.trans hname')
    have hnone : (w.db.accountByIdentitty name).map _ = none := hnone
    rw [ha'] at hnone
    cases hnone
  · refine nothing rfl fun name' a' hname' _ _ => ?_
    rw [he] at hname'
    cases hname'

lemma cancel_step {input : CancelLiveChatRequestInput} {sender : Text}
    (hacc : ctx.account = some sender)
    (h : (service D).Plays i (Op.program D (.cancelLiveChatRequest ctx input)) w chs r w')
    (hon : OnTime τ chs) : w'.db.accounts.rows = w.db.accounts.rows ∧
      w'.db.blocks.rows = w.db.blocks.rows ∧ w'.db.chats.rows = w.db.chats.rows.filter fun r =>
        ¬ (r.requestId = input.requestId.toText ∧ r.leaseId = input.leaseId.toText ∧
          r.senderAccountId = sender) := by
  have keep (hno : ∀ r ∈ w.db.chats.rows, ¬ (r.requestId = input.requestId.toText ∧
      r.leaseId = input.leaseId.toText ∧ r.senderAccountId = sender)) :
      w.db.chats.rows = w.db.chats.rows.filter fun r =>
        ¬ (r.requestId = input.requestId.toText ∧ r.leaseId = input.leaseId.toText ∧
          r.senderAccountId = sender) :=
    (List.filter_eq_self.mpr fun r hr => decide_eq_true (hno r hr)).symm
  -- The request with the ids is the one that the cancellation has found.
  have same {row : ChatRecord} (hr : w.db.presented input = some row) {r : ChatRecord}
      (hmem : r ∈ w.db.chats.rows) (hid : r.requestId = input.requestId.toText) : r = row := by
    obtain ⟨hrow, hids⟩ := Db.presented_eq_some.mp hr
    exact w.db.chats.eq_of_clash hmem hrow (.inl (hid.trans hids.1.symm))
  cases cancelStep_of_plays hacc h with
  | failed hf => exact hon.absurd (by simp) hf
  | absent _ hr =>
    refine ⟨rfl, rfl, keep fun r hmem hp => ?_⟩
    exact List.find?_eq_none.mp hr r hmem (decide_eq_true ⟨hp.1, hp.2.1⟩)
  | foreign _ hr hne =>
    refine ⟨rfl, rfl, keep fun r hmem hp => hne ?_⟩
    rw [← same hr hmem hp.1]
    exact hp.2.2
  | busy _ _ _ hf => exact hon.absurd (by simp) hf
  | deleted _ hr hs _ hu =>
    refine ⟨Write.accounts_apply hu, Write.blocks_apply hu, (Write.chats_apply hu).trans ?_⟩
    refine List.filter_congr fun r hmem => decide_eq_decide.mpr (not_congr ?_)
    exact ⟨fun hp => ⟨hp.1, hp.2, same hr hmem hp.1 ▸ hs⟩, fun hp => ⟨hp.1, hp.2.1⟩⟩

/-- What a renewal answers and leaves: it has found a request and set the end of its lease, or it
has only swept. -/
inductive RenewLeaves (D : Deployment) (d : Db) (sender : Text) (input : RenewLiveChatRequestInput)
    (τ : ℤ) : Response → World → Prop
  | renewed {row : ChatRecord} {hard : ℤ} {r : Answer} {w' : World} (hclock : w'.clock = τ)
      (hrow : row ∈ d.chats.rows) (hactive : row.Expired D τ = false)
      (hid : row.requestId = input.requestId.toText) (hlease : row.leaseId = input.leaseId.toText)
      (hsender : row.senderAccountId = sender)
      (hhard : parseFromRfc3339 row.hardExpiresAt = some hard)
      (haccounts : w'.db.accounts.rows = d.accounts.rows)
      (hblocks : w'.db.blocks.rows = d.blocks.rows)
      (hchats : w'.db.chats.rows = (d.chats.rows.filter fun r => !r.Expired D τ).map fun r =>
        if r.requestId = input.requestId.toText then
          { r with leaseExpiresAt := toRfc3339 (min (τ + seconds 90) hard) } else r) :
      RenewLeaves D d sender input τ (.ok r) w'
  | swept {e : Failure} {w' : World} (hclock : τ ≤ w'.clock)
      (haccounts : w'.db.accounts.rows = d.accounts.rows)
      (hblocks : w'.db.blocks.rows = d.blocks.rows)
      (hchats : w'.db.chats.rows = d.chats.rows.filter fun r => !r.Expired D τ) :
      RenewLeaves D d sender input τ (.error e) w'

lemma renew_step {input : RenewLiveChatRequestInput} {sender : Text}
    (hacc : ctx.account = some sender)
    (h : (service D).Plays i (Op.program D (.renewLiveChatRequest ctx input)) w chs r w')
    (hon : OnTime τ chs) : RenewLeaves D w.db sender input τ r w' := by
  have swept {c : Choice} {d : Db} {e : Failure} {w' : World} (hd : Cleans D w c d) (hc : c ∈ chs)
      (hdb : w'.db = d) (hclock : c.reading ≤ w'.clock) :
      RenewLeaves D w.db sender input τ (.error e) w' := by
    obtain ⟨n, hu⟩ := hd.apply
    rw [← (hon c hc).2.1]
    exact .swept hclock (hdb ▸ Write.accounts_apply hu) (hdb ▸ Write.blocks_apply hu)
      (hdb ▸ Write.chats_apply hu)
  cases renewStep_of_plays hacc h with
  | failed hf => exact hon.absurd (by simp) hf
  | absent hd hle => exact swept hd (by simp) rfl hle
  | unreadable hd hle => exact swept hd (by simp) rfl hle
  | panic hd hle => exact swept hd (by simp) rfl hle
  | @renewed c₀ c₁ c₂ c₃ d d' row hard lease n hd hr hhard hlease hu' =>
    obtain ⟨m, hu⟩ := hd.apply
    have hτ₀ : c₀.reading = τ := (hon c₀ (by simp)).2.1
    have hτ₂ : c₂.reading = τ := (hon c₂ (by simp)).2.1
    have hτ₃ : c₃.reading = τ := (hon c₃ (by simp)).2.1
    obtain rfl := DateTime.addSeconds_eq_some hlease
    have hkey := List.find?_some hr
    simp only [decide_eq_true_eq] at hkey
    have hmem := List.mem_of_find?_eq_some hr
    rw [Write.chats_apply hu] at hmem
    obtain ⟨hmem, hlive⟩ := List.mem_filter.mp hmem
    rw [hτ₀, Bool.not_eq_true'] at hlive
    rw [hτ₂] at hu'
    refine .renewed hτ₃ hmem hlive hkey.1 hkey.2.1 hkey.2.2 (parseDatetime_eq_ok.mp hhard)
      ((Write.accounts_apply hu').trans (Write.accounts_apply hu))
      ((Write.blocks_apply hu').trans (Write.blocks_apply hu)) ?_
    rw [World.db_put, Write.chats_apply hu', Write.chats_apply hu, hτ₀]
    rfl

/-- What a registration answers and leaves. -/
inductive RegisterLeaves (d : Db) : Response → Db → Prop
  | registered {x : AccountIdentity} {a : AccountRow} {d' : Db}
      (ha : a.toMember = ⟨x.accountId, x.identitty, x.publicKey⟩)
      (haccounts : d'.accounts.rows = d.accounts.rows ++ [a])
      (hblocks : d'.blocks.rows = d.blocks.rows) (hchats : d'.chats.rows = d.chats.rows) :
      RegisterLeaves d (.ok (.identity x)) d'
  | refused {e : Failure} {d' : Db} (hdb : d' = d) : RegisterLeaves d (.error e) d'

lemma register_step {input : RegisterAccountInput}
    (h : (service D).Plays i (Op.program D (.registerAccount ctx input)) w chs r w') :
    RegisterLeaves w.db r w'.db := by
  refine h.of_wp (Q := fun r x => RegisterLeaves w.db r x.1.db) ?_
  simp only [Op.program, Op.resolver, registerAccount, wp_map, wp_bind, alone_enforce, wp_lift,
    wp_orFail, wp_refuse, alone_now, alone_attempt, wp_pure, World.db_tick, World.db_put]
  refine fun c₀ _ => ⟨fun _ => ⟨fun name _ => ⟨fun key _ => ⟨fun _ => ?_, fun _ =>
    ⟨fun _ => ?_, fun _ c₁ _ c₂ _ => ⟨fun _ => ?_, fun _ => ⟨fun e _ => ?_, fun n d hu => ?_⟩⟩⟩⟩,
    fun _ => ?_⟩, fun e _ => ?_⟩, fun _ => ?_⟩
  · exact .refused rfl
  · exact .refused rfl
  · exact .refused rfl
  · cases e <;> exact .refused rfl
  · exact .registered rfl (Write.accounts_apply hu) (Write.blocks_apply hu)
      (Write.chats_apply hu)
  · exact .refused rfl
  · exact .refused rfl
  · exact .refused rfl

lemma list_step {l : Ledger} (hD : Chronological D) (h : Refines D l w) {account : Text}
    (hacc : ctx.account = some account)
    (hp : (service D).Plays i (Op.program D (.liveChatRequests ctx)) w chs r w')
    (hon : OnTime τ chs) : ∃ xs, r = .ok (.requests xs) ∧
      (xs.map LiveChatRequest.requestId).Nodup ∧ xs.Perm (l.inbox (sqlAfter D) τ account) := by
  refine hp.of_wp (Q := fun r x => OnTime τ x.2 → ∃ xs, r = .ok (.requests xs) ∧
    (xs.map LiveChatRequest.requestId).Nodup ∧ xs.Perm (l.inbox (sqlAfter D) τ account)) ?_ hon
  simp only [Op.program, Op.resolver, liveChatRequests, authenticated, hacc, orFail_some,
    wp_map, wp_bind, wp_pure, wp_lift, alone_execute, alone_fetch (.liveChatRequests _),
    World.db_put]
  intro c₀ hen₀
  refine ⟨fun hf hon => hon.absurd (by simp) hf, fun _ => ⟨?_, fun n d hu c₁ _ =>
    ⟨fun hf hon => hon.absurd (by simp) hf, fun _ => ?_⟩⟩⟩
  · rintro e ⟨⟩
  have hw : Refines D l ((w.tick c₀).put d) :=
    h.stays hD (.write (Command.clock_of_enabled hen₀) hu rfl rfl (.inl rfl))
  obtain ⟨shown, hshown⟩ : ∃ shown : List Request, shown =
      (l.live (sqlAfter D) τ).filter fun q => q.recipient = account := ⟨_, rfl⟩
  obtain ⟨sorted, hsorted⟩ : ∃ sorted : List Request, sorted =
      shown.insertionSort fun a b => ¬ b.joined.createdAt < a.joined.createdAt := ⟨_, rfl⟩
  have hperm : sorted.Perm shown := hsorted ▸ List.perm_insertionSort _ _
  have hmem : ∀ q ∈ sorted, q ∈ l.requests := fun q hq =>
    List.mem_of_mem_filter (List.mem_of_mem_filter (hshown ▸ hperm.mem_iff.mp hq))
  have hlist (hon : OnTime τ ([] ++ [c₀] ++ [c₁])) :
      (Select.eval D c₁.reading d (.liveChatRequests account)).mapM LiveChatRequestRow.intoModel =
        .ok (sorted.map Request.shown) := by
    have hclock : ((w.tick c₀).put d).clock = τ := hon.init.last.2.1
    have heval := hw.eval_liveChatRequests account (hclock.symm ▸ hshown)
    rw [hclock, World.db_put, ← hsorted] at heval
    rw [hon.last.2.1, heval, List.mapM_map]
    exact mapM_eq_map fun q hq => hw.intoModel_joined (hmem q hq)
  refine ⟨fun xs hxs hon => ⟨xs, rfl, ?_⟩, fun e he hon => ?_⟩
  · obtain rfl := Except.ok.inj ((hlist hon).symm.trans hxs)
    have hinbox : l.inbox (sqlAfter D) τ account = shown.map Request.shown := by
      rw [hshown]
      rfl
    refine ⟨?_, hinbox ▸ hperm.map _⟩
    rw [List.map_map]
    have hids : shown.Pairwise fun a b => a.requestId ≠ b.requestId :=
      hshown ▸ (h.distinct.filter _).filter _
    exact List.pairwise_map.mpr ((hperm.symm.pairwise_iff fun hne => hne.symm).mp hids)
  · cases (hlist hon).symm.trans he

/-- What a send answers and leaves: it has stored the request that the ledger admits, or none is
admitted. -/
inductive SendLeaves (D : Deployment) (l : Ledger) (w : World) (sender : Text)
    (input : SendLiveChatRequestInput) (τ : ℤ) : Response → World → Prop
  | passed {r : Response} {w' : World} (hno : l.admits (sqlAfter D) τ sender input = none)
      (hs : Stays D w w') : SendLeaves D l w sender input τ r w'
  | stored {x : LiveChatRequestSubmission} {s : Member} {recipient : Text} {w' : World} {n : ℕ}
      {d : Db} (hadmits : l.admits (sqlAfter D) τ sender input = some (s, recipient))
      (hs : Stays D w w') (hclock : w'.clock = τ) (hearly : Early τ)
      (hfresh : ∀ y ∈ w.drawn, y.2 ≠ x.requestId)
      (hrequest : ∃ i, (i, x.requestId) ∈ w'.drawn) (hlease : ∃ i, (i, x.leaseId) ∈ w'.drawn)
      (hu : (Write.insertChat (input.request τ s recipient x).record).apply D τ w'.db =
        .ok (n, d)) :
      SendLeaves D l w sender input τ (.ok (.submission x)) (w'.put d)

section send

variable {l : Ledger} {sender : Text} {input : SendLiveChatRequestInput}

lemma decode_of_decodePayload {value : Text} {payload : List UInt8}
    (h : decodePayload value = .ok payload) : Base64.decode value = some payload := by
  rw [decodePayload] at h
  split at h
  · cases h
  · next bytes hbytes =>
    split_ifs at h
    rw [hbytes, Except.ok.inj h]

/-- The row that a send stores. -/
lemma request_record {t : ℤ} {s : Member} {r : Text} {x : LiveChatRequestSubmission}
    {publicKey payload : List UInt8} (hkey : Base64.decode s.publicKey = some publicKey)
    (hpayload : Base64.decode input.encryptedPayload = some payload) (hs : s.accountId = sender) :
    (input.request t s r x).record = newRecord sender publicKey payload input.clientRequestId
      x.requestId x.leaseId t (t + seconds 90) (t + seconds (15 * 60)) r := by
  simp only [Request.record, SendLiveChatRequestInput.request, newRecord, hkey, hpayload, hs,
    Option.getD_some]

/-- A submission after a look-up that found nothing. -/
lemma SubmitStep.leaves {w₁ : World} {cs : List Choice} {s : Member} {name : Text}
    {publicKey payload : List UInt8} {x : World × List Choice}
    (h : SubmitStep D i w₁ cs sender publicKey payload name input.clientRequestId r x)
    (hon : OnTime τ x.2) (hD : Chronological D) (hs : Stays D w w₁) (href : Refines D l w₁)
    (hmember : l.member sender = some s) (hkey : Base64.decode s.publicKey = some publicKey)
    (hpayload : decodePayload input.encryptedPayload = .ok payload)
    (hname : normaliseIdentitty input.recipientIdentitty = .ok name)
    (hnone : ∀ row ∈ w₁.db.chats.rows,
      ¬ (row.senderAccountId = sender ∧ row.clientRequestId = input.clientRequestId.toText)) :
    SendLeaves D l w sender input τ r x.1 := by
  have hadmits := Ledger.admits_of (sqlAfter D) τ hmember hpayload hname
  have hcount {c : Choice} (hle : w₁.clock ≤ c.reading) (hτ : c.reading = τ) :
      Select.eval D c.reading w₁.db (.activeCount sender) =
        (l.live (sqlAfter D) τ).countP fun q => q.sender.accountId = sender := by
    have hw : Refines D l (w₁.tick c) := href.stays hD (.of_db rfl (List.Subset.refl _) hle)
    rw [← hτ]
    exact hw.activeCount_eq sender
  have hclient {c : Choice} (hle : w₁.clock ≤ c.reading) (hτ : c.reading = τ) :
      ∀ q ∈ l.live (sqlAfter D) τ,
        ¬ (q.sender.accountId = sender ∧ q.clientRequestId = input.clientRequestId) := by
    have hw : Refines D l (w₁.tick c) := href.stays hD (.of_db rfl (List.Subset.refl _) hle)
    rw [← hτ]
    rintro q hq ⟨hsender, hclient⟩
    exact hnone q.record (hw.row_of_live hq) ⟨hsender, Request.record_clientRequestId.mpr hclient⟩
  cases h with
  | failed _ hf => exact hon.absurd (by simp) hf
  | @full c₀ hle hlimit =>
    rw [hcount hle (hon c₀ (by simp)).2.1] at hlimit
    refine .passed (hadmits.trans ?_)
      (hs.trans hD.clock (.of_db rfl (List.Subset.refl _) hle))
    exact Option.bind_eq_none_iff.mpr fun m _ => if_neg fun hopen =>
      absurd hopen.2.2.2 (not_lt.mpr hlimit)
  | @panic c₀ c₁ _ _ _ htime =>
    obtain ⟨-, hτ, hearly⟩ := hon c₁ (by simp)
    rw [hτ, addSeconds_of_inEra hearly.2, addSeconds_of_inEra] at htime
    · simp at htime
    · exact hearly.1.between hearly.2 (by simp [DateTime.seconds, DateTime.nanosPerSecond])
        (by simp [DateTime.seconds, DateTime.nanosPerSecond])
  | @hidden c₀ c₁ c₂ c₃ cs lease hard w₂ hd hopen =>
    refine .passed (hadmits.trans ?_) (hs.trans hD.clock hd.stays)
    rw [href.openRecipient_eq] at hopen
    refine Option.bind_eq_none_iff.mpr fun m hm => if_neg fun hadmitted => ?_
    have hshown := Option.bind_eq_none_iff.mp hopen m hm
    rw [if_pos ⟨hadmitted.2.1, hadmitted.1⟩] at hshown
    cases hshown
  | @clash c₀ c₁ c₂ c₃ cs lease hard w₂ row hd hrow hid =>
    rcases hid with hid | hid
    · exact absurd hid (href.ids_ne hrow hd.requestId).1
    · exact absurd hid (href.ids_ne hrow hd.leaseId).2
  | @stored c₀ c₁ c₂ c₃ c cs lease hard w₂ recipient n d hd hopen hc hu =>
    obtain ⟨-, hτ₀, -⟩ := hon c₀ (by simp)
    obtain ⟨-, hτ₁, -⟩ := hon c₁ (by simp)
    obtain ⟨-, hτ, hearly⟩ := hon c (by simp)
    obtain rfl := DateTime.addSeconds_eq_some hd.lease
    obtain rfl := DateTime.addSeconds_eq_some hd.hard
    rw [href.openRecipient_eq] at hopen
    obtain ⟨m, hm, hshown⟩ := Option.bind_eq_some_iff.mp hopen
    split_ifs at hshown with hfree
    obtain rfl := Option.some.inj hshown
    have hstored : l.admits (sqlAfter D) τ sender input = some (s, m.accountId) := by
      rw [hadmits, hm, Option.bind_some]
      refine if_pos ⟨hfree.2, hfree.1, hclient hd.start hτ₀, ?_⟩
      rw [← hcount hd.start hτ₀]
      exact not_le.mp hd.count
    have hrecord := request_record (t := τ) (r := m.accountId)
      (x := ⟨c₂.uuid, true, c₃.uuid, τ + seconds 90⟩) hkey
      (decode_of_decodePayload hpayload) (Ledger.accountId_of_member hmember)
    rw [hτ₁] at hu ⊢
    rw [hτ, ← hd.db] at hu
    refine .stored hstored (hs.trans hD.clock hd.stays) (hc.trans hτ) hearly
      (fun y hy => hd.requestId y (hs.drawn hy)) ⟨i, ?_⟩ ⟨i, ?_⟩ (hrecord ▸ hu)
    · rw [hd.drawn]
      exact List.mem_cons_of_mem _ List.mem_cons_self
    · rw [hd.drawn]
      exact List.mem_cons_self

lemma send_step (hD : Chronological D) (href : Refines D l w) (hacc : ctx.account = some sender)
    (h : (service D).Plays i (Op.program D (.sendLiveChatRequest ctx input)) w chs r w')
    (hon : OnTime τ chs) : SendLeaves D l w sender input τ r w' := by
  have swept {c : Choice} {d : Db} (hd : Cleans D w c d) : Stays D w ((w.tick c).put d) := by
    obtain ⟨n, hu⟩ := hd.apply
    exact .write hd.clock hu rfl rfl (.inl rfl)
  cases sendStep_of_plays hacc h with
  | malformed he =>
    refine .passed (Ledger.admits_eq_none fun _ name m payload _ hpayload => ?_) (.refl w)
    rw [he] at hpayload
    cases hpayload
  | misnamed _ he =>
    refine .passed (Ledger.admits_eq_none fun _ name m _ _ _ hname => ?_) (.refl w)
    rw [he] at hname
    cases hname
  | failed hf => exact hon.absurd (by simp) hf
  | @unknown payload name c₀ c₁ d _ _ hd hle hnone =>
    have hw : Refines D l ((w.tick c₀).put d) := href.stays hD (swept hd)
    refine .passed (Ledger.admits_eq_none fun _ name m payload hmember => ?_)
      ((swept hd).trans hD.clock (.of_db rfl (List.Subset.refl _) hle))
    rw [hw.member_eq, World.db_put, hnone] at hmember
    cases hmember
  | @found payload name c₀ c₁ c₂ d a row _ _ hd hle _ hr =>
    have hw : Refines D l ((w.tick c₀).put d) := href.stays hD (swept hd)
    obtain ⟨n, hu⟩ := hd.apply
    have hrow := List.mem_of_find?_eq_some hr
    have hkey := List.find?_some hr
    simp only [decide_eq_true_eq] at hkey
    have hlive : row.Expired D c₀.reading = false := by
      have hmem := hrow
      rw [Write.chats_apply hu] at hmem
      simpa using (List.mem_filter.mp hmem).2
    have hτ : c₀.reading = τ := (hon c₀ (by simp)).2.1
    obtain ⟨q, hq, rfl⟩ := hw.live_of_row hD hrow hlive
    rw [show ((w.tick c₀).put d).clock = τ from hτ] at hq
    refine .passed (Ledger.admits_eq_none fun _ _ _ _ _ _ _ _ hopen => hopen.2.2.1 q hq
      ⟨hkey.1, Request.record_clientRequestId.mp hkey.2⟩)
      ((swept hd).trans hD.clock (.of_db rfl (List.Subset.refl _) hle))
  | @submitted payload name c₀ c₁ c₂ d a _ _ hpayload hname hd hle ha hnone h =>
    have hs : Stays D w ((((w.tick c₀).put d).tick c₁).tick c₂) :=
      (swept hd).trans hD.clock (.of_db rfl (List.Subset.refl _) hle)
    have hw : Refines D l ((((w.tick c₀).put d).tick c₁).tick c₂) := href.stays hD hs
    have hmember : l.member sender = some a.toMember := by
      rw [hw.member_eq, World.db_tick, World.db_tick, World.db_put, ha]
      rfl
    exact h.leaves hon hD hs hw hmember (Base64.decode_encode _) hpayload hname hnone

end send

end steps

/-! ### The ledger follows -/

lemma mem_insertBlock {rows : List BlockRecord} {b : BlockRecord} {r s : Text} :
    (∃ c ∈ Write.blockRows rows (.insertBlock b), c.blockerAccountId = r ∧ c.blockedAccountId = s) ↔
      (r, s) = (b.blockerAccountId, b.blockedAccountId) ∨
        ∃ c ∈ rows, c.blockerAccountId = r ∧ c.blockedAccountId = s := by
  simp only [Write.blockRows]
  split_ifs with hfree
  · simp only [List.mem_append, List.mem_singleton]
    constructor
    · rintro ⟨c, hc | rfl, rfl, rfl⟩
      · exact .inr ⟨c, hc, rfl, rfl⟩
      · exact .inl rfl
    · rintro (heq | ⟨c, hc, rfl, rfl⟩)
      · obtain ⟨rfl, rfl⟩ := Prod.mk.inj heq
        exact ⟨b, .inr rfl, rfl, rfl⟩
      · exact ⟨c, .inl hc, rfl, rfl⟩
  · refine ⟨.inr, ?_⟩
    rintro (heq | hold)
    · obtain ⟨rfl, rfl⟩ := Prod.mk.inj heq
      push Not at hfree
      obtain ⟨c, hc, hclash⟩ := hfree
      exact ⟨c, hc, hclash.1, hclash.2⟩
    · exact hold

namespace Refines

variable {l : Ledger} {w w' v : World} {τ : ℤ}

/-- The ledger before a turn, against the clock and the draws after it. -/
lemma ready (hD : Chronological D) (h : Refines D l w) (hdrawn : w.drawn ⊆ w'.drawn)
    (hclock : w.clock ≤ w'.clock) : Refines D l (w'.put w.db) :=
  h.stays hD (.of_db rfl hdrawn hclock)

lemma register {x : AccountIdentity} {r : Response} (hr : r = .ok (.identity x))
    (h : Refines D l v) (hv : RegisterLeaves v.db r w'.db) (hdrawn : v.drawn = w'.drawn)
    (hclock : v.clock = w'.clock) : Refines D (l.register x) w' := by
  cases hv with
  | refused => cases hr
  | registered ha haccounts hblocks hchats =>
    cases hr
    refine ⟨?_, fun r s => ?_, ?_, fun r hr => ?_, h.sound, fun q hq => ?_, ?_, h.distinct, ?_⟩
    · rw [haccounts, List.map_append, List.map_singleton, ← h.members, ha]
      rfl
    · rw [hblocks]
      exact h.blocks r s
    · rw [hchats, ← hclock]
      exact h.live
    · rw [hchats] at hr
      exact h.rows r hr
    · exact List.mem_append_left _ (h.sender q hq)
    · rw [← hdrawn]
      exact h.drawn
    · rw [← hclock]
      exact h.past

lemma unblock {blocker : Text} {input : UnblockIdentityInput} (h : Refines D l v)
    (haccounts : w'.db.accounts.rows = v.db.accounts.rows)
    (hchats : w'.db.chats.rows = v.db.chats.rows)
    (hblocks : w'.db.blocks.rows = v.db.blocks.rows.filter fun b =>
      ¬ (b.blockerAccountId = blocker ∧ b.blockedAccountId = input.accountId))
    (hdrawn : v.drawn = w'.drawn) (hclock : v.clock = w'.clock) :
    Refines D (l.unblock blocker input) w' := by
  refine ⟨?_, fun r s => ?_, ?_, fun r hr => ?_, h.sound, h.sender, ?_, h.distinct, ?_⟩
  · rw [haccounts]
    exact h.members
  · rw [hblocks, Ledger.unblock]
    simp only [List.mem_filter, decide_eq_true_eq, h.blocks]
    constructor
    · rintro ⟨⟨b, hb, rfl, rfl⟩, hne⟩
      exact ⟨b, ⟨hb, fun hp => hne (by rw [hp.1, hp.2])⟩, rfl, rfl⟩
    · rintro ⟨b, ⟨hb, hne⟩, rfl, rfl⟩
      exact ⟨⟨b, hb, rfl, rfl⟩, fun hp => hne (Prod.mk.inj hp)⟩
  · rw [hchats, ← hclock]
    exact h.live
  · rw [hchats] at hr
    exact h.rows r hr
  · rw [← hdrawn]
    exact h.drawn
  · rw [← hclock]
    exact h.past

/-- Fewer requests, and their rows deleted with them. -/
lemma delete {k : ChatRecord → Bool} {keep : Request → Bool} {ms : List Member}
    {bs : List (Text × Text)} (h : Refines D l v) (hms : ms = l.members)
    (haccounts : w'.db.accounts.rows = v.db.accounts.rows)
    (hblocks : ∀ r s, (r, s) ∈ bs ↔
      ∃ b ∈ w'.db.blocks.rows, b.blockerAccountId = r ∧ b.blockedAccountId = s)
    (hchats : w'.db.chats.rows = v.db.chats.rows.filter k)
    (hk : ∀ q ∈ l.requests, k q.record = keep q)
    (hdrawn : v.drawn = w'.drawn) (hclock : v.clock = w'.clock) :
    Refines D ⟨ms, bs, l.requests.filter keep⟩ w' := by
  refine ⟨?_, hblocks, ?_, fun r hr => ?_, ?_, ?_, ?_, h.distinct.filter _, ?_⟩
  · rw [hms, haccounts]
    exact h.members
  · rw [hchats, ← hclock]
    exact h.live.drop fun q hq _ => hk q hq
  · rw [hchats] at hr
    obtain ⟨hr, hkeep⟩ := List.mem_filter.mp hr
    obtain ⟨q, hq, rfl⟩ := h.rows r hr
    exact ⟨q, List.mem_filter.mpr ⟨hq, hk q hq ▸ hkeep⟩, rfl⟩
  · exact fun q hq => h.sound q (List.mem_of_mem_filter hq)
  · exact fun q hq => hms ▸ h.sender q (List.mem_of_mem_filter hq)
  · rw [← hdrawn]
    exact fun q hq => h.drawn q (List.mem_of_mem_filter hq)
  · rw [← hclock]
    exact fun q hq => h.past q (List.mem_of_mem_filter hq)

lemma cancel {sender : Text} {input : CancelLiveChatRequestInput} (h : Refines D l v)
    (haccounts : w'.db.accounts.rows = v.db.accounts.rows)
    (hblocks : w'.db.blocks.rows = v.db.blocks.rows)
    (hchats : w'.db.chats.rows = v.db.chats.rows.filter fun r =>
      ¬ (r.requestId = input.requestId.toText ∧ r.leaseId = input.leaseId.toText ∧
        r.senderAccountId = sender))
    (hdrawn : v.drawn = w'.drawn) (hclock : v.clock = w'.clock) :
    Refines D (l.cancel sender input.requestId input.leaseId) w' := by
  refine h.delete rfl haccounts (fun r s => by rw [hblocks]; exact h.blocks r s) hchats
    (fun q _ => decide_eq_decide.mpr (not_congr ?_)) hdrawn hclock
  rw [Request.record_requestId, Request.record_leaseId]
  exact Iff.rfl

lemma member_isSome_iff (h : Refines D l v) {accountId : Text} :
    (l.member accountId).isSome = true ↔ v.db.HasAccount accountId := by
  rw [h.member_eq, Option.isSome_map, Db.accountById, List.find?_isSome]
  simp only [decide_eq_true_eq]
  rfl

lemma block {blocker : Text} {input : BlockIdentityInput} (hD : Chronological D)
    (h : Refines D l v)
    (hv : BlockLeaves v.db blocker input τ w'.db) (hdrawn : v.drawn = w'.drawn)
    (hclock : v.clock = w'.clock) : Refines D (l.block blocker input) w' := by
  cases hv with
  | @pair name a hname ha hne hknown haccounts hblocks hchats =>
    have hnamed : l.named name = some a.toMember := by
      rw [h.named_eq, ha]
      rfl
    have hblock : l.block blocker input = ⟨l.members, (blocker, a.accountId) :: l.blocks,
        l.requests.filter fun q =>
          ¬ (q.sender.accountId = a.accountId ∧ q.recipient = blocker)⟩ := by
      simp only [Ledger.block, hname, hnamed]
      exact if_pos ⟨hne, h.member_isSome_iff.mpr hknown⟩
    rw [hblock]
    refine h.delete rfl haccounts (fun r s => ?_) hchats (fun _ _ => rfl) hdrawn hclock
    rw [hblocks, mem_insertBlock, List.mem_cons, h.blocks]
  | nothing hdb hno =>
    have hblock : l.block blocker input = l := by
      unfold Ledger.block
      split
      · next name hname =>
        split
        · next m hm =>
          rw [h.named_eq] at hm
          obtain ⟨a, ha, rfl⟩ := Option.map_eq_some_iff.mp hm
          refine if_neg fun hp => ?_
          exact hno name a hname ha hp.1 (h.member_isSome_iff.mp hp.2)
        · rfl
      · rfl
    rw [hblock]
    have hsame : Stays D v w' := .of_db hdb (hdrawn ▸ List.Subset.refl _) hclock.le
    exact h.stays hD hsame

/-- The ids of a request are its own. -/
lemma eq_of_requestId (h : Refines D l v) {p q : Request} (hp : p ∈ l.requests)
    (hq : q ∈ l.requests) (hid : p.requestId = q.requestId) : p = q :=
  List.inj_on_of_nodup_map (List.pairwise_map.mpr h.distinct) hp hq hid

lemma renew {sender : Text} {input : RenewLiveChatRequestInput} {r : Response} {x : Answer}
    (hD : Chronological D) (hr : r = .ok x) (h : Refines D l v)
    (hv : RenewLeaves D v.db sender input τ r w') (hdrawn : v.drawn = w'.drawn)
    (hclock : v.clock = w'.clock) :
    Refines D (l.renew τ sender input.requestId input.leaseId) w' := by
  cases hv with
  | swept => cases hr
  | @renewed row hard _ _ hτ hrow hactive hid hlease hsender hhard haccounts hblocks hchats =>
    have hvτ : v.clock = τ := hclock.trans hτ
    obtain ⟨q₀, hq₀, rfl⟩ := h.live_of_row hD hrow (hvτ ▸ hactive)
    obtain ⟨hmem₀, hlive₀⟩ := List.mem_filter.mp hq₀
    rw [hvτ] at hlive₀
    have his₀ : q₀.Is sender input.requestId input.leaseId :=
      ⟨Request.record_requestId.mp hid, Request.record_leaseId.mp hlease, hsender⟩
    have honly : ∀ q ∈ l.requests, q.requestId = input.requestId → q = q₀ := fun q hq hid =>
      h.eq_of_requestId hq hmem₀ (hid.trans his₀.1.symm)
    obtain rfl : q₀.createdAt + seconds (15 * 60) = hard :=
      Option.some.inj ((parse_toRfc3339 (h.sound q₀ hmem₀).early.2).symm.trans hhard)
    obtain ⟨f, hf⟩ : ∃ f : ChatRecord → ChatRecord, f = fun r =>
      if r.requestId = input.requestId.toText then
        { r with leaseExpiresAt :=
          toRfc3339 (min (τ + seconds 90) (q₀.createdAt + seconds (15 * 60))) }
      else r := ⟨_, rfl⟩
    rw [← hf] at hchats
    -- A row and its request are renewed alike.
    have hrep : ∀ q ∈ l.requests,
        f q.record = (q.renew τ sender input.requestId input.leaseId).record := by
      intro q hq
      simp only [hf]
      by_cases heq : q.requestId = input.requestId
      · obtain rfl := honly q hq heq
        rw [Request.renew_of_is his₀, if_pos hid]
        simp only [Request.record]
      · rw [Request.renew_of_not fun his => heq his.1,
          if_neg fun hp => heq (Request.record_requestId.mp hp)]
    have hsound : ∀ q ∈ l.requests,
        (q.renew τ sender input.requestId input.leaseId).Sound := fun q hq =>
      (h.sound q hq).renew (hvτ ▸ h.past q hq)
    -- Only the request that was found changes, and that is live already.
    have hrevives : ∀ q ∈ l.requests,
        sqlAfter D τ (q.renew τ sender input.requestId input.leaseId).expiresAt = true →
          sqlAfter D τ q.expiresAt = true := by
      intro q hq hlive
      by_cases his : q.Is sender input.requestId input.leaseId
      · rw [honly q hq his.1]
        exact hlive₀
      · rwa [Request.renew_of_not his] at hlive
    refine ⟨?_, fun r s => ?_, ?_, fun r hr => ?_, List.forall_mem_map.mpr hsound,
      List.forall_mem_map.mpr fun q hq => ?_, List.forall_mem_map.mpr fun q hq => ?_, ?_,
      List.forall_mem_map.mpr fun q hq => ?_⟩
    · rw [haccounts]
      exact h.members
    · rw [hblocks]
      exact h.blocks r s
    · rw [hchats, hτ]
      have hlive := h.live
      rw [hvτ] at hlive
      refine (hlive.sweep fun r _ hactive => ?_).change (fun r hr hactive => ?_) hrevives
        fun q hq _ => ⟨hrep q hq, (hsound q hq).active hD⟩
      · rw [ChatRecord.not_expired_of_active D hactive, Bool.not_false]
      · obtain ⟨q, hq, rfl⟩ := h.rows r (List.mem_of_mem_filter hr)
        rw [hrep q hq, (hsound q hq).active hD] at hactive
        rw [(h.sound q hq).active hD]
        exact hrevives q hq hactive
    · rw [hchats] at hr
      obtain ⟨r₀, hr₀, rfl⟩ := List.mem_map.mp hr
      obtain ⟨q, hq, rfl⟩ := h.rows r₀ (List.mem_of_mem_filter hr₀)
      exact ⟨_, List.mem_map_of_mem hq, (hrep q hq).symm⟩
    · rw [Request.renew_sender]
      exact h.sender q hq
    · rw [Request.renew_requestId, Request.renew_leaseId, ← hdrawn]
      exact h.drawn q hq
    · refine List.pairwise_map.mpr (h.distinct.imp fun hne => ?_)
      rwa [Request.renew_requestId, Request.renew_requestId]
    · rw [Request.renew_createdAt, ← hclock]
      exact h.past q hq

/-- The request of a send, with its row. -/
lemma store {sender recipient : Text} {input : SendLiveChatRequestInput} {s : Member}
    {x : LiveChatRequestSubmission} {n : ℕ} {d : Db} (hD : Chronological D) (h : Refines D l v)
    (hadmits : l.admits (sqlAfter D) τ sender input = some (s, recipient)) (hclock : v.clock = τ)
    (hearly : Early τ) (hfresh : ∀ q ∈ l.requests, q.requestId ≠ x.requestId)
    (hrequest : ∃ i, (i, x.requestId) ∈ v.drawn) (hlease : ∃ i, (i, x.leaseId) ∈ v.drawn)
    (hu : (Write.insertChat (input.request τ s recipient x).record).apply D τ v.db = .ok (n, d)) :
    Refines D { l with requests := l.requests ++ [input.request τ s recipient x] } (v.put d) := by
  obtain ⟨hmember, payload, hpayload⟩ := Ledger.of_admits hadmits
  have hsound : (input.request τ s recipient x).Sound := by
    refine ⟨hearly, le_rfl, ?_, payload, decode_of_decodePayload hpayload⟩
    exact Int.add_le_add_left (by decide) _
  refine ⟨?_, fun r s => ?_, ?_, fun r hr => ?_, fun q hq => ?_, fun q hq => ?_, fun q hq => ?_,
    ?_, fun q hq => ?_⟩
  · rw [World.db_put, Write.accounts_apply hu]
    exact h.members
  · rw [World.db_put, Write.blocks_apply hu]
    exact h.blocks r s
  · rw [World.db_put, Write.chats_apply hu]
    exact h.live.insert (hsound.active hD)
  · rw [World.db_put, Write.chats_apply hu] at hr
    rcases List.mem_append.mp hr with hr | hr
    · obtain ⟨q, hq, rfl⟩ := h.rows r hr
      exact ⟨q, List.mem_append_left _ hq, rfl⟩
    · obtain rfl := List.mem_singleton.mp hr
      exact ⟨_, List.mem_append_right _ (List.mem_singleton_self _), rfl⟩
  · rcases List.mem_append.mp hq with hq | hq
    · exact h.sound q hq
    · exact List.mem_singleton.mp hq ▸ hsound
  · rcases List.mem_append.mp hq with hq | hq
    · exact h.sender q hq
    · obtain rfl := List.mem_singleton.mp hq
      exact List.mem_of_find?_eq_some hmember
  · rcases List.mem_append.mp hq with hq | hq
    · exact h.drawn q hq
    · exact List.mem_singleton.mp hq ▸ ⟨hrequest, hlease⟩
  · refine List.pairwise_append.mpr ⟨h.distinct, List.pairwise_singleton _ _, fun a ha b hb => ?_⟩
    exact List.mem_singleton.mp hb ▸ hfresh a ha
  · rcases List.mem_append.mp hq with hq | hq
    · exact h.past q hq
    · exact List.mem_singleton.mp hq ▸ hclock.ge

lemma send {sender : Text} {input : SendLiveChatRequestInput} {r : Response}
    {x : LiveChatRequestSubmission} (hr : r = .ok (.submission x)) (hD : Chronological D)
    (h : Refines D l w) (hv : SendLeaves D l w sender input τ r w') :
    Refines D (l.send (sqlAfter D) τ sender input x) w' := by
  cases hv with
  | passed hno hs =>
    rw [Ledger.send_of_none hno]
    exact h.stays hD hs
  | @stored y s recipient v n d hadmits hs hclock hearly hfresh hrequest hlease hu =>
    cases hr
    rw [Ledger.send_of_admits hadmits]
    refine (h.stays hD hs).store hD hadmits hclock hearly (fun q hq => ?_) hrequest hlease hu
    obtain ⟨⟨i, hi⟩, -⟩ := h.drawn q hq
    exact hfresh _ hi

end Refines

/-- A send that has stored nothing, and a renewal that has found nothing. -/
lemma SendLeaves.stays {l : Ledger} {w w' : World} {sender : Text}
    {input : SendLiveChatRequestInput} {τ : ℤ} {r : Response}
    (h : SendLeaves D l w sender input τ r w') (hr : ∀ x, r ≠ .ok (.submission x)) :
    Stays D w w' := by
  cases h with
  | passed hno hs => exact hs
  | stored => exact absurd rfl (hr _)

lemma RenewLeaves.stays {w w' : World} {sender : Text} {input : RenewLiveChatRequestInput} {τ : ℤ}
    {r : Response} (hmono : Monotone D.juliandayNow) (h : RenewLeaves D w.db sender input τ r w')
    (hr : ∀ x, r ≠ .ok x) (hdrawn : w.drawn ⊆ w'.drawn) (hclock : w.clock ≤ w'.clock) :
    Stays D w w' := by
  cases h with
  | renewed => exact absurd rfl (hr _)
  | swept hle haccounts hblocks hchats =>
    refine ⟨haccounts, hblocks, ⟨_, hchats, fun r _ hactive => ?_⟩, hdrawn, hclock⟩
    have hlive := ChatRecord.not_expired_of_active D (ChatRecord.Active.anti hmono hle hactive)
    rw [hlive, Bool.not_false]

section turn

variable {l : Ledger} {t : ServiceTurn} {ctx : Context} {sender : Text}

lemma Ledger.step_of_not_moves {after : ℤ → ℤ → Bool} (hop : ¬ t.op.Moves) :
    l.step after t = l := by
  obtain ⟨restarted, op, chs, r⟩ := t
  cases op with
  | registerAccount => exact absurd trivial hop
  | sendLiveChatRequest ctx input | renewLiveChatRequest ctx input
  | cancelLiveChatRequest ctx input | blockIdentity ctx input | unblockIdentity ctx input =>
    have hacc : ctx.account = none := Option.eq_none_iff_forall_ne_some.mpr fun a ha => hop ⟨a, ha⟩
    simp only [Ledger.step, hacc]
  | _ => rfl

lemma Ledger.step_of_unsent {after : ℤ → ℤ → Bool} {input : SendLiveChatRequestInput}
    (hop : t.op = .sendLiveChatRequest ctx input) (hr : ∀ x, t.response ≠ .ok (.submission x)) :
    l.step after t = l := by
  simp only [Ledger.step, hop]
  split
  · next hresp => exact absurd hresp (hr _)
  · rfl

lemma Ledger.step_of_unrenewed {after : ℤ → ℤ → Bool} {input : RenewLiveChatRequestInput}
    (hop : t.op = .renewLiveChatRequest ctx input) (hr : ∀ x, t.response ≠ .ok x) :
    l.step after t = l := by
  simp only [Ledger.step, hop]
  split
  · next hresp => exact absurd hresp (hr _)
  · rfl

/-- The database follows the ledger through a turn. -/
lemma Refines.turn {w w' : World} {i : ℕ} (hD : Chronological D) (h : Refines D l w)
    (hidle : w.writer = none)
    (hp : (service D).Plays i (t.op.program D) w t.choices t.response w')
    (hon : Punctual Early t) : Refines D (l.step (sqlAfter D) t) w' := by
  have honTime : OnTime (turnTime t) t.choices := hon
  have hdrawn := drawn_of_plays hp
  have hclock := clock_of_plays hp
  have hready : Refines D l (w'.put w.db) := h.ready hD hdrawn hclock
  by_cases hmoves : t.op.Moves
  swap
  · rw [Ledger.step_of_not_moves hmoves]
    exact h.stays hD (stays_of_plays hD.clock hp hidle hmoves)
  cases hop : t.op with
  | registerAccount ctx input =>
    rw [hop] at hp
    have hv := register_step hp
    simp only [Ledger.step, hop]
    generalize t.response = r at hv ⊢
    cases hv with
    | registered ha haccounts hblocks hchats =>
      exact hready.register rfl (.registered ha haccounts hblocks hchats) rfl rfl
    | refused hdb => exact h.stays hD (.of_db hdb hdrawn hclock)
  | sendLiveChatRequest ctx input =>
    rw [hop] at hp hmoves
    obtain ⟨sender, hacc⟩ := hmoves
    have hv := send_step hD h hacc hp honTime
    by_cases hr : ∃ x, t.response = .ok (.submission x)
    · obtain ⟨x, hr⟩ := hr
      simp only [Ledger.step, hop, hacc, hr]
      exact h.send hr hD hv
    · push Not at hr
      rw [Ledger.step_of_unsent hop hr]
      exact h.stays hD (hv.stays hr)
  | renewLiveChatRequest ctx input =>
    rw [hop] at hp hmoves
    obtain ⟨sender, hacc⟩ := hmoves
    have hv := renew_step hacc hp honTime
    by_cases hr : ∃ x, t.response = .ok x
    · obtain ⟨x, hr⟩ := hr
      simp only [Ledger.step, hop, hacc, hr]
      exact hready.renew hD hr hv rfl rfl
    · push Not at hr
      rw [Ledger.step_of_unrenewed hop hr]
      exact h.stays hD (hv.stays hD.clock hr hdrawn hclock)
  | cancelLiveChatRequest ctx input =>
    rw [hop] at hp hmoves
    obtain ⟨sender, hacc⟩ := hmoves
    obtain ⟨haccounts, hblocks, hchats⟩ := cancel_step hacc hp honTime
    simp only [Ledger.step, hop, hacc]
    exact hready.cancel haccounts hblocks hchats rfl rfl
  | blockIdentity ctx input =>
    rw [hop] at hp hmoves
    obtain ⟨blocker, hacc⟩ := hmoves
    have hv := block_step hacc hp honTime
    simp only [Ledger.step, hop, hacc]
    exact hready.block hD hv rfl rfl
  | unblockIdentity ctx input =>
    rw [hop] at hp hmoves
    obtain ⟨blocker, hacc⟩ := hmoves
    obtain ⟨haccounts, hchats, hblocks⟩ := unblock_step hacc hp honTime
    simp only [Ledger.step, hop, hacc]
    exact hready.unblock haccounts hchats hblocks rfl rfl
  | _ =>
    rw [hop] at hmoves
    exact hmoves.elim

end turn

/-! ### Sequential runs -/

lemma Refines.reset {l : Ledger} {w : World} (hD : Chronological D) (h : Refines D l w)
    (restarted : Bool) : Refines D l (if restarted then (service D).reset w else w) := by
  split_ifs
  · exact h.stays hD (.of_db rfl (List.Subset.refl _) le_rfl)
  · exact h

lemma idle_reset {w : World} (h : w.writer = none) (restarted : Bool) :
    (if restarted then (service D).reset w else w).writer = none := by
  split_ifs
  · rfl
  · exact h

lemma refines_init {d₀ : Db} {t₀ : ℤ} (hd₀ : d₀.chats.rows = []) :
    Refines D d₀.ledger (World.init d₀ t₀) where
  members := rfl
  blocks r s := by simp [Db.ledger, World.init]
  live := by
    rw [show (World.init d₀ t₀).db.chats.rows = [] from hd₀]
    exact .nil
  rows r hr := by
    rw [show (World.init d₀ t₀).db.chats.rows = [] from hd₀] at hr
    cases hr
  sound _ hq := by cases hq
  sender _ hq := by cases hq
  drawn _ hq := by cases hq
  distinct := .nil
  past _ hq := by cases hq

/-- After a sequential run from an empty table the database refines the ledger. -/
theorem refines_of_serial (hD : Chronological D) {d₀ : Db} {t₀ : ℤ} (hd₀ : d₀.chats.rows = [])
    {ts : List ServiceTurn} {w : World} (h : (service D).Serial (World.init d₀ t₀) ts w)
    (hon : ∀ t ∈ ts, Punctual Early t) :
    Refines D (Ledger.ofTurns (sqlAfter D) d₀ ts) w := by
  induction h with
  | start => exact refines_init hd₀
  | @turn ts w w' t h hp ih =>
    have hrefines := ih fun t' ht' => hon t' (List.mem_cons_of_mem _ ht')
    exact (hrefines.reset hD _).turn hD (idle_reset (idle_of_serial h).1 _) hp
      (hon t List.mem_cons_self)

/-- A listing shows its recipient each request that was made and neither withdrawn nor lapsed,
once, and what the ledger admits is accepted. -/
theorem exact_delivery (hD : Chronological D) {d₀ : Db} {t₀ : ℤ} (hd₀ : d₀.chats.rows = [])
    {ts : List ServiceTurn} {t : ServiceTurn} {w w' : World}
    (h : (service D).Serial (World.init d₀ t₀) ts w)
    (hp : (service D).Plays ts.length (t.op.program D)
      (if t.restarted then (service D).reset w else w) t.choices t.response w')
    (hon : ∀ t' ∈ t :: ts, Punctual Early t') : Delivers (sqlAfter D) d₀ ts t := by
  have hrefines := (refines_of_serial hD hd₀ h fun t' ht' =>
    hon t' (List.mem_cons_of_mem _ ht')).reset hD t.restarted
  have honTime : OnTime (turnTime t) t.choices := hon t List.mem_cons_self
  constructor
  case listed =>
    intro ctx r hop hacc
    rw [hop] at hp
    exact list_step hD hrefines hacc hp honTime
  case accepted =>
    intro ctx input sender hop hacc hadmits
    rw [hop] at hp
    have hv := send_step hD hrefines hacc hp honTime
    generalize t.response = r at hv ⊢
    cases hv with
    | passed hno => simp [hno] at hadmits
    | stored => exact ⟨_, rfl⟩

namespace Known

/-- Bob lists his requests at the instant `t`. -/
def inboxTurn (t : ℤ) (response : Response) : ServiceTurn :=
  ⟨false, .liveChatRequests (session bob), [fine t ⟨0⟩, fine t ⟨0⟩], response⟩

/-- A listing that does not get at the table. -/
def failedTurn : ServiceTurn :=
  ⟨false, .liveChatRequests (session bob), [{ fine newYear ⟨0⟩ with fails := true }],
    .error (.api .internal)⟩

/-- The request of Ada, as Bob sees it. -/
def shown : LiveChatRequest where
  requestId := ⟨1⟩
  senderAccountId := ada
  senderIdentitty := "ada".toList
  senderPublicKey := Base64.encode adaKey
  encryptedPayload := "AA==".toList
  createdAt := newYear
  expiresAt := newYear + seconds 90

/-- Half a microsecond into the year. -/
def late : ℤ := newYear + 500

lemma inboxTurn_replay : ((service deployment).replay (World.init couple newYear)
    [inboxTurn (newYear + seconds 60) (.ok (.requests [shown])), sendTurn newYear 1]).isSome =
      true := by
  decide +kernel

lemma late_replay : ((service deployment).replay (World.init couple newYear)
    [inboxTurn (late + seconds 90 - 100) (.ok (.requests [])), sendTurn late 1]).isSome = true := by
  decide +kernel

lemma lastMinutes_replay : ((service deployment).replay (World.init couple newYear)
    [inboxTurn lastMinutes (.ok (.requests [])), sendTurn lastMinutes 1]).isSome = true := by
  decide +kernel

lemma failedTurn_replay : ((service deployment).replay (World.init couple newYear)
    [failedTurn]).isSome = true := by
  decide +kernel

end Known

lemma Known.chronological : Chronological Known.deployment where
  clock := juliandayNow_mono
  reads e he := ⟨e / 1000000 + 210866760000000, by
    simp only [deployment, parse_toRfc3339 he, Option.map_some]⟩
  order e e' j j' he he' hle hj hj' := by
    simp only [deployment, parse_toRfc3339 he, parse_toRfc3339 he', Option.map_some,
      Option.some.injEq] at hj hj'
    omega

open Known in
theorem exact_delivery_shown : ∃ w : World,
    (service deployment).Serial (World.init couple newYear) [sendTurn newYear 1] w ∧
      Delivers (sqlAfter deployment) couple [sendTurn newYear 1]
        (inboxTurn (newYear + seconds 60) (.ok (.requests [shown]))) := by
  obtain ⟨w', hw'⟩ := Option.isSome_iff_exists.mp inboxTurn_replay
  obtain _ | ⟨h, hp⟩ := serial_of_replay hw'
  exact ⟨_, h, exact_delivery chronological rfl h hp (by decide)⟩

open Known in
/-- SQLite compares instants to the millisecond and does not read those after the year 9999, and a
listing needs its statements. -/
theorem exact_delivery_not :
    (¬ ∀ (ts : List ServiceTurn) (t : ServiceTurn) (w w' : World),
      (service deployment).Serial (World.init couple newYear) ts w →
      (service deployment).Plays ts.length (t.op.program deployment)
        (if t.restarted then (service deployment).reset w else w) t.choices t.response w' →
      (∀ t' ∈ t :: ts, Punctual Early t') → Delivers (fun t e => decide (t < e)) couple ts t) ∧
    (¬ ∀ (ts : List ServiceTurn) (t : ServiceTurn) (w w' : World),
      (service deployment).Serial (World.init couple newYear) ts w →
      (service deployment).Plays ts.length (t.op.program deployment)
        (if t.restarted then (service deployment).reset w else w) t.choices t.response w' →
      (∀ t' ∈ t :: ts, Punctual InEra t') → Delivers (sqlAfter deployment) couple ts t) ∧
    ¬ ∀ (ts : List ServiceTurn) (t : ServiceTurn) (w w' : World),
      (service deployment).Serial (World.init couple newYear) ts w →
      (service deployment).Plays ts.length (t.op.program deployment)
        (if t.restarted then (service deployment).reset w else w) t.choices t.response w' →
      (∀ t' ∈ t :: ts, ∀ ch ∈ t'.choices, ch.reading = turnTime t' ∧ Early (turnTime t')) →
        Delivers (sqlAfter deployment) couple ts t := by
  refine ⟨fun hall => ?_, fun hall => ?_, fun hall => ?_⟩
  · obtain ⟨w', hw'⟩ := Option.isSome_iff_exists.mp late_replay
    obtain _ | ⟨h, hp⟩ := serial_of_replay hw'
    obtain ⟨xs, hxs, -, hperm⟩ :=
      (hall [sendTurn _ 1] (inboxTurn _ _) _ _ h hp (by decide)).listed _ bob rfl rfl
    cases hxs
    exact absurd hperm.length_eq (by decide +kernel)
  · obtain ⟨w', hw'⟩ := Option.isSome_iff_exists.mp lastMinutes_replay
    obtain _ | ⟨h, hp⟩ := serial_of_replay hw'
    obtain ⟨xs, hxs, -, hperm⟩ :=
      (hall [sendTurn _ 1] (inboxTurn _ _) _ _ h hp (by decide)).listed _ bob rfl rfl
    cases hxs
    exact absurd hperm.length_eq (by decide +kernel)
  · obtain ⟨w', hw'⟩ := Option.isSome_iff_exists.mp failedTurn_replay
    obtain _ | ⟨h, hp⟩ := serial_of_replay hw'
    obtain ⟨xs, hxs, -⟩ := (hall [] failedTurn _ _ h hp (by decide)).listed _ bob rfl rfl
    cases hxs

end TittyBackend
