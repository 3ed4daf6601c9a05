import TittyBackend.Sequential

/-!
# How the calls on requests end

A cancellation, a renewal or a send that runs alone ends in one of a few ways. Each says which
statements have run, what they found, and the answer and the world they leave.
-/

namespace TittyBackend

open Numerals Programs Programs.System Resolver

variable {D : Deployment} {ctx : Context} {w w' : World} {i : ℕ} {chs : List Choice} {r : Response}
  {sender : Text}

/-! ### Cancellations -/

/-- The request that a cancellation presents the ids of. -/
def Db.presented (d : Db) (input : CancelLiveChatRequestInput) : Option ChatRecord :=
  d.chats.rows.find? fun r =>
    r.requestId = input.requestId.toText ∧ r.leaseId = input.leaseId.toText

/-- How a cancellation by `sender` alone ends. -/
inductive CancelStep (D : Deployment) (sender : Text) (input : CancelLiveChatRequestInput)
    (w : World) : Response → World × List Choice → Prop
  | failed {c₀ : Choice} (hf : c₀.fails = true) :
      CancelStep D sender input w (.error (.api .internal)) (w.tick c₀, [c₀])
  | absent {c₀ : Choice} (hf : c₀.fails = false) (hr : w.db.presented input = none) :
      CancelStep D sender input w (.ok (.flag true)) (w.tick c₀, [c₀])
  | foreign {c₀ : Choice} {r : ChatRecord} (hf : c₀.fails = false)
      (hr : w.db.presented input = some r) (hne : r.senderAccountId ≠ sender) :
      CancelStep D sender input w (.error (.api .invalidChatRequest)) (w.tick c₀, [c₀])
  | busy {c₀ c₁ : Choice} {r : ChatRecord} (hf : c₀.fails = false)
      (hr : w.db.presented input = some r) (hs : r.senderAccountId = sender)
      (hf₁ : c₁.fails = true) :
      CancelStep D sender input w (.error (.api .internal)) ((w.tick c₀).tick c₁, [c₀, c₁])
  | deleted {c₀ c₁ : Choice} {r : ChatRecord} {n : ℕ} {d : Db} (hf : c₀.fails = false)
      (hr : w.db.presented input = some r) (hs : r.senderAccountId = sender)
      (hf₁ : c₁.fails = false)
      (hu : (Write.deleteChat input.requestId.toText input.leaseId.toText).apply D c₁.reading w.db =
        .ok (n, d)) :
      CancelStep D sender input w (.ok (.flag true)) (((w.tick c₀).tick c₁).put d, [c₀, c₁])

lemma cancelStep_of_plays {input : CancelLiveChatRequestInput} (hacc : ctx.account = some sender)
    (h : (service D).Plays i (Op.program D (.cancelLiveChatRequest ctx input)) w chs r w') :
    CancelStep D sender input w r (w', chs) := by
  refine h.of_wp (Q := CancelStep D sender input w) ?_
  simp only [Op.program, Op.resolver, cancelLiveChatRequest, authenticated, hacc, orFail_some,
    wp_map, wp_bind, wp_pure, alone_fetch (.owner _ _), Except.map, List.nil_append]
  intro c₀ _
  refine ⟨fun hf => .failed hf, fun hf => ?_⟩
  cases hr : w.db.presented input with
  | none =>
    rw [Select.eval_owner_eq_none hr]
    exact .absent hf hr
  | some row =>
    rw [Select.eval_owner_eq_some hr]
    simp only [wp_bind, wp_refuse, alone_execute, wp_pure, not_not, List.cons_append,
      List.nil_append]
    refine ⟨fun hne => .foreign hf hr hne, fun hs c₁ _ => ⟨fun hf₁ => .busy hf hr hs hf₁,
      fun hf₁ => ⟨fun e he => ?_, fun n d hu => .deleted hf hr hs hf₁ hu⟩⟩⟩
    cases he

/-! ### Renewals -/

/-- The clean-up at the beginning of a renewal or a send. -/
structure Cleans (D : Deployment) (w : World) (c : Choice) (d : Db) : Prop where
  clock : w.clock ≤ c.reading
  apply : ∃ n, Write.removeExpiredChats.apply D c.reading w.db = .ok (n, d)

/-- How a renewal by `sender` alone ends. -/
inductive RenewStep (D : Deployment) (sender : Text) (input : RenewLiveChatRequestInput)
    (w : World) : Response → World × List Choice → Prop
  | failed {c : Choice} {cs : List Choice} {w' : World} (hf : c.fails = true) :
      RenewStep D sender input w (.error (.api .internal)) (w', cs ++ [c])
  | absent {c₀ c₁ : Choice} {d : Db} (hd : Cleans D w c₀ d) (hle : c₀.reading ≤ c₁.reading)
      (hr : (d.chats.rows.find? fun r => r.requestId = input.requestId.toText ∧
        r.leaseId = input.leaseId.toText ∧ r.senderAccountId = sender) = none) :
      RenewStep D sender input w (.error (.api .invalidChatRequest))
        (((w.tick c₀).put d).tick c₁, [c₀, c₁])
  | unreadable {c₀ c₁ : Choice} {d : Db} {row : ChatRecord} {e : ApiError} (hd : Cleans D w c₀ d)
      (hle : c₀.reading ≤ c₁.reading)
      (hr : (d.chats.rows.find? fun r => r.requestId = input.requestId.toText ∧
        r.leaseId = input.leaseId.toText ∧ r.senderAccountId = sender) = some row)
      (he : parseDatetime row.hardExpiresAt = .error e) :
      RenewStep D sender input w (.error (.api e)) (((w.tick c₀).put d).tick c₁, [c₀, c₁])
  | panic {c₀ c₁ c₂ : Choice} {d : Db} {row : ChatRecord} {hard : ℤ} (hd : Cleans D w c₀ d)
      (hle : c₀.reading ≤ c₂.reading)
      (hr : (d.chats.rows.find? fun r => r.requestId = input.requestId.toText ∧
        r.leaseId = input.leaseId.toText ∧ r.senderAccountId = sender) = some row)
      (hhard : parseDatetime row.hardExpiresAt = .ok hard)
      (hlease : DateTime.addSeconds c₂.reading 90 = none) :
      RenewStep D sender input w (.error .panic)
        ((((w.tick c₀).put d).tick c₁).tick c₂, [c₀, c₁, c₂])
  | renewed {c₀ c₁ c₂ c₃ : Choice} {d d' : Db} {row : ChatRecord} {hard lease : ℤ} {n : ℕ}
      (hd : Cleans D w c₀ d)
      (hr : (d.chats.rows.find? fun r => r.requestId = input.requestId.toText ∧
        r.leaseId = input.leaseId.toText ∧ r.senderAccountId = sender) = some row)
      (hhard : parseDatetime row.hardExpiresAt = .ok hard)
      (hlease : DateTime.addSeconds c₂.reading 90 = some lease)
      (hu : (Write.updateLease (toRfc3339 (min lease hard)) input.requestId.toText).apply D
        c₃.reading d = .ok (n, d')) :
      RenewStep D sender input w
        (.ok (.lease ⟨input.requestId, input.leaseId, min lease hard⟩))
        (((((w.tick c₀).put d).tick c₁).tick c₂).tick c₃ |>.put d', [c₀, c₁, c₂, c₃])

lemma renewStep_of_plays {input : RenewLiveChatRequestInput} (hacc : ctx.account = some sender)
    (h : (service D).Plays i (Op.program D (.renewLiveChatRequest ctx input)) w chs r w') :
    RenewStep D sender input w r (w', chs) := by
  refine h.of_wp (Q := RenewStep D sender input w) ?_
  simp only [Op.program, Op.resolver, renewLiveChatRequest, authenticated, hacc, orFail_some,
    wp_map, wp_bind, wp_pure, wp_lift, alone_execute, alone_fetch (.lease _ _ _), wp_orFail,
    alone_now, wp_addSeconds, Except.map, World.db_tick, World.db_put]
  intro c₀ hen₀
  refine ⟨fun hf => .failed hf, fun _ => ⟨?_, fun n d hu c₁ hen₁ => ?_⟩⟩
  · rintro e ⟨⟩
  have hd : Cleans D w c₀ d := ⟨Command.clock_of_enabled hen₀, n, hu⟩
  have hle₁ : c₀.reading ≤ c₁.reading := Command.clock_of_enabled hen₁
  refine ⟨fun hf => .failed hf, fun _ => ⟨fun row hrow => ?_, fun hnone => ?_⟩⟩
  · obtain ⟨row, hr, rfl⟩ := Option.map_eq_some_iff.mp hrow
    refine ⟨fun hard hhard c₂ hen₂ => ⟨fun lease hlease c₃ _ => ⟨fun hf => .failed hf,
      fun _ => ⟨?_, fun m d' hu' => .renewed hd hr hhard hlease hu'⟩⟩, fun hpanic => ?_⟩,
      fun e he => .unreadable hd hle₁ hr he⟩
    · rintro e ⟨⟩
    · exact .panic hd (hle₁.trans (Command.clock_of_enabled hen₂)) hr hhard hpanic
  · exact .absent hd hle₁ (Option.map_eq_none_iff.mp hnone)

/-! ### Sends -/

/-- The account that a request of `sender` under a name is stored for. -/
def Db.openRecipient (d : Db) (sender name : Text) : Option Text :=
  ((d.accountByIdentitty name).map AccountRow.accountId).filter fun recipient =>
    (d.blocks.rows.any fun b => b.blockerAccountId = recipient ∧ b.blockedAccountId = sender) =
      false ∧ recipient ≠ sender

/-- The row of a request that is made at the instant `now`. -/
def newRecord (sender : Text) (publicKey payload : List UInt8) (clientRequestId requestId
    leaseId : Uuid) (now leaseExpiresAt hardExpiresAt : ℤ) (recipient : Text) : ChatRecord :=
  { requestId := requestId.toText, leaseId := leaseId.toText,
    clientRequestId := clientRequestId.toText, senderAccountId := sender,
    recipientAccountId := recipient, senderPublicKey := publicKey, encryptedPayload := payload,
    createdAt := toRfc3339 now, leaseExpiresAt := toRfc3339 leaseExpiresAt,
    hardExpiresAt := toRfc3339 hardExpiresAt }

section openRecipient

variable {d : Db} {name : Text} {a : AccountRow}

lemma openRecipient_of_none (h : d.accountByIdentitty name = none) :
    d.openRecipient sender name = none := by
  rw [Db.openRecipient, h]
  rfl

lemma openRecipient_of_some (now : ℤ) (h : d.accountByIdentitty name = some a) :
    d.openRecipient sender name =
      if Select.eval D now d (.blockExists a.accountId sender) = false ∧ a.accountId ≠ sender then
        some a.accountId else none := by
  simp only [Db.openRecipient, h, Option.map_some, Option.filter_some, decide_eq_true_eq]
  rfl

end openRecipient

/-- A submission from `w` has counted the active requests, found its times and drawn its ids. -/
structure Draws (D : Deployment) (i : ℕ) (w : World) (sender : Text) (c₀ c₁ c₂ c₃ : Choice)
    (lease hard : ℤ) (w₂ : World) : Prop where
  count : ¬ 25 ≤ Select.eval D c₀.reading w.db (.activeCount sender)
  lease : DateTime.addSeconds c₁.reading 90 = some lease
  hard : DateTime.addSeconds c₁.reading (15 * 60) = some hard
  requestId : ∀ x ∈ w.drawn, x.2 ≠ c₂.uuid
  leaseId : ∀ x ∈ w.drawn, x.2 ≠ c₃.uuid
  db : w₂.db = w.db
  drawn : w₂.drawn = (i, c₃.uuid) :: (i, c₂.uuid) :: w.drawn
  start : w.clock ≤ c₀.reading
  clock : c₀.reading ≤ w₂.clock

/-- How a submission of `sender` alone ends: the part of a send that has found no request. -/
inductive SubmitStep (D : Deployment) (i : ℕ) (w : World) (chs : List Choice) (sender : Text)
    (publicKey payload : List UInt8) (name : Text) (clientRequestId : Uuid) :
    Response → World × List Choice → Prop
  | failed {c : Choice} {cs : List Choice} {w' : World} (hcs : chs <+: cs) (hf : c.fails = true) :
      SubmitStep D i w chs sender publicKey payload name clientRequestId
        (.error (.api .internal)) (w', cs ++ [c])
  | full {c₀ : Choice} (hle : w.clock ≤ c₀.reading)
      (hcount : 25 ≤ Select.eval D c₀.reading w.db (.activeCount sender)) :
      SubmitStep D i w chs sender publicKey payload name clientRequestId
        (.error (.api .activeRequestLimit)) (w.tick c₀, chs ++ [c₀])
  | panic {c₀ c₁ : Choice} (hle : w.clock ≤ c₀.reading) (hle₁ : c₀.reading ≤ c₁.reading)
      (hcount : ¬ 25 ≤ Select.eval D c₀.reading w.db (.activeCount sender))
      (htime : DateTime.addSeconds c₁.reading 90 = none ∨
        DateTime.addSeconds c₁.reading (15 * 60) = none) :
      SubmitStep D i w chs sender publicKey payload name clientRequestId
        (.error .panic) ((w.tick c₀).tick c₁, chs ++ [c₀, c₁])
  | hidden {c₀ c₁ c₂ c₃ : Choice} {cs : List Choice} {lease hard : ℤ} {w₂ : World}
      (hd : Draws D i w sender c₀ c₁ c₂ c₃ lease hard w₂)
      (hopen : w.db.openRecipient sender name = none) :
      SubmitStep D i w chs sender publicKey payload name clientRequestId
        (.ok (.submission ⟨c₂.uuid, true, c₃.uuid, lease⟩)) (w₂, chs ++ [c₀, c₁, c₂, c₃] ++ cs)
  | clash {c₀ c₁ c₂ c₃ : Choice} {cs : List Choice} {lease hard : ℤ} {w₂ : World}
      {row : ChatRecord} (hd : Draws D i w sender c₀ c₁ c₂ c₃ lease hard w₂)
      (hrow : row ∈ w.db.chats.rows)
      (hid : row.requestId = c₂.uuid.toText ∨ row.leaseId = c₃.uuid.toText) :
      SubmitStep D i w chs sender publicKey payload name clientRequestId
        (.error (.api .internal)) (w₂, chs ++ [c₀, c₁, c₂, c₃] ++ cs)
  | stored {c₀ c₁ c₂ c₃ c : Choice} {cs : List Choice} {lease hard : ℤ} {w₂ : World}
      {recipient : Text} {n : ℕ} {d : Db} (hd : Draws D i w sender c₀ c₁ c₂ c₃ lease hard w₂)
      (hopen : w.db.openRecipient sender name = some recipient) (hc : w₂.clock = c.reading)
      (hu : (Write.insertChat (newRecord sender publicKey payload clientRequestId c₂.uuid c₃.uuid
        c₁.reading lease hard recipient)).apply D c.reading w.db = .ok (n, d)) :
      SubmitStep D i w chs sender publicKey payload name clientRequestId
        (.ok (.submission ⟨c₂.uuid, true, c₃.uuid, lease⟩))
        (w₂.put d, chs ++ [c₀, c₁, c₂, c₃] ++ cs ++ [c])

lemma submitStep {publicKey payload : List UInt8} {name : Text} {clientRequestId : Uuid}
    (hknown : w.db.HasAccount sender) (hnone : ∀ row ∈ w.db.chats.rows,
      ¬ (row.senderAccountId = sender ∧ row.clientRequestId = clientRequestId.toText)) :
    (Answer.submission <$> submitRequest sender publicKey payload name clientRequestId).run.Wp
      ((service D).alone i)
      (SubmitStep D i w chs sender publicKey payload name clientRequestId) (w, chs) := by
  simp only [submitRequest, wp_map, wp_bind, alone_fetch (.activeCount _), wp_refuse, alone_now,
    wp_addSeconds, alone_newUuid, alone_fetch (.recipient _), Except.map, World.db_tick, wp_pure]
  intro c₀ hen₀
  have hle₀ : w.clock ≤ c₀.reading := Command.clock_of_enabled hen₀
  refine ⟨fun hf => .failed (by simp) hf, fun _ => ⟨fun hcount => .full hle₀ hcount,
    fun hcount c₁ hen₁ => ?_⟩⟩
  have hle₁ : c₀.reading ≤ c₁.reading := Command.clock_of_enabled hen₁
  have panic (htime : DateTime.addSeconds c₁.reading 90 = none ∨
      DateTime.addSeconds c₁.reading (15 * 60) = none) :
      SubmitStep D i w chs sender publicKey payload name clientRequestId (.error .panic)
        ((w.tick c₀).tick c₁, chs ++ [c₀] ++ [c₁]) := by
    rw [List.append_assoc]
    exact .panic hle₀ hle₁ hcount htime
  refine ⟨fun lease hlease => ⟨fun hard hhard c₂ hen₂ c₃ hen₃ c₄ hen₄ =>
    ⟨fun hf => .failed (by simp) hf, fun _ => ?_⟩, fun hnone => panic (.inr hnone)⟩,
    fun hnone => panic (.inl hnone)⟩
  have hle₂ : c₁.reading ≤ c₂.reading := Command.clock_of_enabled hen₂
  have hle₃ : c₂.reading ≤ c₃.reading := Command.clock_of_enabled hen₃
  have hle₄ : c₃.reading ≤ c₄.reading := Command.clock_of_enabled hen₄
  have hle : c₀.reading ≤ c₄.reading := hle₁.trans (hle₂.trans (hle₃.trans hle₄))
  have draws {w₂ : World} (hdb : w₂.db = w.db)
      (hdrawn : w₂.drawn = (i, c₃.uuid) :: (i, c₂.uuid) :: w.drawn)
      (hclock : c₄.reading ≤ w₂.clock) : Draws D i w sender c₀ c₁ c₂ c₃ lease hard w₂ :=
    ⟨hcount, hlease, hhard, fun x hx => fresh_of_enabled hen₂ x hx,
      fun x hx => fresh_of_enabled hen₃ x (List.mem_cons_of_mem _ hx), hdb, hdrawn, hle₀,
      hle.trans hclock⟩
  have hpast : chs ++ [c₀] ++ [c₁] ++ [c₂] ++ [c₃] = chs ++ [c₀, c₁, c₂, c₃] := by simp
  cases hrecipient : Select.eval D c₄.reading w.db (.recipient name) with
  | none =>
    rw [hpast]
    exact .hidden (draws rfl rfl le_rfl)
      (openRecipient_of_none (Option.map_eq_none_iff.mp hrecipient))
  | some recipient =>
    obtain ⟨a, ha, rfl⟩ := Option.map_eq_some_iff.mp hrecipient
    simp only [insertUnlessHidden, wp_bind, alone_fetch (.blockExists _ _)]
    intro c₅ hen₅
    have hle₅ : c₄.reading ≤ c₅.reading := Command.clock_of_enabled hen₅
    have hopen : w.db.openRecipient sender name = _ :=
      openRecipient_of_some (D := D) c₅.reading ha
    refine ⟨fun hf => .failed (by simp) hf, fun _ => ?_⟩
    split_ifs with hshown
    · simp only [wp_bind, alone_execute, wp_pure]
      intro c₆ hen₆
      have hle₆ : c₅.reading ≤ c₆.reading := Command.clock_of_enabled hen₆
      refine ⟨fun hf => .failed (by simp) hf, fun _ => ⟨fun e he => ?_, fun n d hu => ?_⟩⟩
      · obtain ⟨-, row, hrow, hid | hid | hclient⟩ := Write.clash_of_insertChat he hknown
          ⟨a, List.mem_of_find?_eq_some ha, rfl⟩
        all_goals rw [hpast, List.append_assoc, List.append_assoc]
        · exact .clash (draws rfl rfl (hle₅.trans hle₆)) hrow (.inl hid)
        · exact .clash (draws rfl rfl (hle₅.trans hle₆)) hrow (.inr hid)
        · exact absurd hclient (hnone row hrow)
      · rw [hpast, List.append_assoc (chs ++ _)]
        exact .stored (draws rfl rfl (hle₅.trans hle₆)) (hopen.trans (if_pos hshown)) rfl hu
    · rw [hpast, List.append_assoc]
      exact .hidden (draws rfl rfl hle₅) (hopen.trans (if_neg hshown))

lemma SubmitStep.begins {publicKey payload : List UInt8} {name : Text} {clientRequestId : Uuid}
    {x : World × List Choice}
    (h : SubmitStep D i w chs sender publicKey payload name clientRequestId r x) : chs <+: x.2 := by
  cases h with
  | failed hcs => exact hcs.trans (List.prefix_append _ _)
  | full | panic => exact List.prefix_append _ _
  | hidden | clash =>
    rw [List.append_assoc]
    exact List.prefix_append _ _
  | stored =>
    rw [List.append_assoc, List.append_assoc]
    exact List.prefix_append _ _

/-- How a send by `sender` alone ends. -/
inductive SendStep (D : Deployment) (i : ℕ) (sender : Text) (input : SendLiveChatRequestInput)
    (w : World) : Response → World × List Choice → Prop
  | malformed {e : ApiError} (he : decodePayload input.encryptedPayload = .error e) :
      SendStep D i sender input w (.error (.api e)) (w, [])
  | misnamed {payload : List UInt8} {e : ApiError}
      (hpayload : decodePayload input.encryptedPayload = .ok payload)
      (he : normaliseIdentitty input.recipientIdentitty = .error e) :
      SendStep D i sender input w (.error (.api e)) (w, [])
  | failed {c : Choice} {cs : List Choice} {w' : World} (hf : c.fails = true) :
      SendStep D i sender input w (.error (.api .internal)) (w', cs ++ [c])
  | unknown {payload : List UInt8} {name : Text} {c₀ c₁ : Choice} {d : Db}
      (hpayload : decodePayload input.encryptedPayload = .ok payload)
      (hname : normaliseIdentitty input.recipientIdentitty = .ok name) (hd : Cleans D w c₀ d)
      (hle : c₀.reading ≤ c₁.reading) (hnone : d.accountById sender = none) :
      SendStep D i sender input w (.error (.api .unauthorized))
        (((w.tick c₀).put d).tick c₁, [c₀, c₁])
  | found {payload : List UInt8} {name : Text} {c₀ c₁ c₂ : Choice} {d : Db} {a : AccountRow}
      {row : ChatRecord} (hpayload : decodePayload input.encryptedPayload = .ok payload)
      (hname : normaliseIdentitty input.recipientIdentitty = .ok name) (hd : Cleans D w c₀ d)
      (hle : c₀.reading ≤ c₂.reading) (ha : d.accountById sender = some a)
      (hr : (d.chats.rows.find? fun row => row.senderAccountId = sender ∧
        row.clientRequestId = input.clientRequestId.toText) = some row) :
      SendStep D i sender input w
        (((ExistingRequestRow.intoSubmission ⟨row.requestId, row.leaseId,
          row.leaseExpiresAt⟩).mapError .api).map .submission)
        ((((w.tick c₀).put d).tick c₁).tick c₂, [c₀, c₁, c₂])
  | submitted {payload : List UInt8} {name : Text} {c₀ c₁ c₂ : Choice} {d : Db} {a : AccountRow}
      {r : Response} {x : World × List Choice}
      (hpayload : decodePayload input.encryptedPayload = .ok payload)
      (hname : normaliseIdentitty input.recipientIdentitty = .ok name) (hd : Cleans D w c₀ d)
      (hle : c₀.reading ≤ c₂.reading) (ha : d.accountById sender = some a)
      (hnone : ∀ row ∈ d.chats.rows, ¬ (row.senderAccountId = sender ∧
        row.clientRequestId = input.clientRequestId.toText))
      (h : SubmitStep D i ((((w.tick c₀).put d).tick c₁).tick c₂) [c₀, c₁, c₂] sender a.publicKey
        payload name input.clientRequestId r x) : SendStep D i sender input w r x

lemma sendStep_of_plays {input : SendLiveChatRequestInput} (hacc : ctx.account = some sender)
    (h : (service D).Plays i (Op.program D (.sendLiveChatRequest ctx input)) w chs r w') :
    SendStep D i sender input w r (w', chs) := by
  refine h.of_wp (Q := SendStep D i sender input w) ?_
  simp only [Op.program, Op.resolver, sendLiveChatRequest, authenticated, hacc, orFail_some,
    wp_map, wp_bind, wp_pure, wp_lift, alone_execute, alone_fetch (.publicKey _), wp_orFail,
    alone_fetch (.existingRequest _ _), World.db_tick, World.db_put]
  refine ⟨fun payload hpayload => ⟨fun name hname c₀ hen₀ => ⟨fun hf => .failed hf,
    fun _ => ⟨?_, fun n d hu c₁ hen₁ => ?_⟩⟩, fun e he => .misnamed hpayload he⟩,
    fun e he => .malformed he⟩
  · rintro e ⟨⟩
  have hd : Cleans D w c₀ d := ⟨Command.clock_of_enabled hen₀, n, hu⟩
  have hle₁ : c₀.reading ≤ c₁.reading := Command.clock_of_enabled hen₁
  refine ⟨fun hf => .failed hf, fun _ => ⟨fun publicKey hkey c₂ hen₂ =>
    ⟨fun hf => .failed hf, fun _ => ?_⟩, fun hnone =>
    .unknown hpayload hname hd hle₁ (Option.map_eq_none_iff.mp hnone)⟩⟩
  obtain ⟨a, ha, rfl⟩ := Option.map_eq_some_iff.mp hkey
  have hle : c₀.reading ≤ c₂.reading := hle₁.trans (Command.clock_of_enabled hen₂)
  cases hr : d.chats.rows.find? fun row =>
      row.senderAccountId = sender ∧ row.clientRequestId = input.clientRequestId.toText with
  | none =>
    have hnone : ∀ row ∈ d.chats.rows, ¬ (row.senderAccountId = sender ∧
        row.clientRequestId = input.clientRequestId.toText) := fun row hrow hp =>
      List.find?_eq_none.mp hr row hrow (decide_eq_true hp)
    have hknown : d.HasAccount sender :=
      ⟨a, List.mem_of_find?_eq_some ha, by simpa using List.find?_some ha⟩
    rw [Select.eval_existingRequest_eq_none hr]
    refine (wp_map _ _).mp ((submitStep (D := D) (i := i) hknown hnone).mono ?_ ?_)
    · exact fun _ _ h => .submitted hpayload hname hd hle ha hnone h
    · exact fun _ _ _ _ hpost h ch hen => hpost _ _ (h ch hen)
  | some row =>
    rw [Select.eval_existingRequest_eq_some hr]
    have hend : SendStep D i sender input w _
        ((((w.tick c₀).put d).tick c₁).tick c₂, [] ++ [c₀] ++ [c₁] ++ [c₂]) :=
      .found hpayload hname hd hle ha hr
    simp only [wp_lift, Except.map]
    constructor
    · intro x hx
      rw [hx] at hend
      exact hend
    · intro e he
      rw [he] at hend
      exact hend

end TittyBackend
