import TittyBackend.Endings
import TittyBackend.Requests

/-!
# What a sender's calls come to

A call of a sender that runs alone, and at which no statement fails, answers and leaves what can
be computed from the database, the readings of its clock and the UUIDs it draws.
-/

namespace TittyBackend

open Numerals Programs Programs.System Resolver

variable (D : Deployment)

/-- What a call answers, the requests it leaves, and the UUIDs it has drawn, the latest first. -/
structure CallOutcome where
  response : Response
  chats : List ChatRecord
  drawn : List Uuid

/-- The requests that a sweep leaves. -/
def Db.unexpired (d : Db) (now : ℤ) : List ChatRecord :=
  d.chats.rows.filter fun r => !r.Expired D now

/-- The requests of `sender` that are active. -/
def activeOf (sender : Text) (now : ℤ) (row : ChatRecord) : Bool :=
  row.senderAccountId = sender ∧ row.Active D now

/-- A submission, over the requests `rows` that have not expired. The `k`-th reading of the clock
is `ρ k`, and `u` and `v` are the UUIDs that are drawn if any are. -/
def submitOutcome (d : Db) (rows : List ChatRecord) (ρ : ℕ → ℤ) (sender : Text)
    (publicKey payload : List UInt8) (name : Text) (clientRequestId u v : Uuid) : CallOutcome :=
  if 25 ≤ rows.countP (activeOf D sender (ρ 3)) then
    ⟨.error (.api .activeRequestLimit), rows, []⟩
  else
    match DateTime.addSeconds (ρ 4) 90, DateTime.addSeconds (ρ 4) (15 * 60) with
    | some lease, some hard =>
      ⟨.ok (.submission ⟨u, true, v, lease⟩),
        rows ++ ((d.openRecipient sender name).map
          (newRecord sender publicKey payload clientRequestId u v (ρ 4) lease hard)).toList, [v, u]⟩
    | _, _ => ⟨.error .panic, rows, []⟩

def sendOutcome (d : Db) (ρ : ℕ → ℤ) (sender : Text) (input : SendLiveChatRequestInput)
    (u v : Uuid) : CallOutcome :=
  match decodePayload input.encryptedPayload, normaliseIdentitty input.recipientIdentitty with
  | .error e, _ => ⟨.error (.api e), d.chats.rows, []⟩
  | .ok _, .error e => ⟨.error (.api e), d.chats.rows, []⟩
  | .ok payload, .ok name =>
    match d.accountById sender with
    | none => ⟨.error (.api .unauthorized), d.unexpired D (ρ 0), []⟩
    | some a =>
      match (d.unexpired D (ρ 0)).find? fun r =>
        r.senderAccountId = sender ∧ r.clientRequestId = input.clientRequestId.toText with
      | some r =>
        ⟨((ExistingRequestRow.intoSubmission ⟨r.requestId, r.leaseId, r.leaseExpiresAt⟩).mapError
          .api).map .submission, d.unexpired D (ρ 0), []⟩
      | none => submitOutcome D d (d.unexpired D (ρ 0)) ρ sender a.publicKey payload name
          input.clientRequestId u v

def renewOutcome (d : Db) (ρ : ℕ → ℤ) (sender : Text) (input : RenewLiveChatRequestInput) :
    CallOutcome :=
  match (d.unexpired D (ρ 0)).find? fun r => r.requestId = input.requestId.toText ∧
    r.leaseId = input.leaseId.toText ∧ r.senderAccountId = sender with
  | none => ⟨.error (.api .invalidChatRequest), d.unexpired D (ρ 0), []⟩
  | some r =>
    match parseDatetime r.hardExpiresAt, DateTime.addSeconds (ρ 2) 90 with
    | .error e, _ => ⟨.error (.api e), d.unexpired D (ρ 0), []⟩
    | .ok _, none => ⟨.error .panic, d.unexpired D (ρ 0), []⟩
    | .ok hard, some lease =>
      ⟨.ok (.lease ⟨input.requestId, input.leaseId, min lease hard⟩),
        (d.unexpired D (ρ 0)).map fun r => if r.requestId = input.requestId.toText then
          { r with leaseExpiresAt := toRfc3339 (min lease hard) } else r, []⟩

def cancelOutcome (d : Db) (sender : Text) (input : CancelLiveChatRequestInput) : CallOutcome :=
  match d.chats.rows.find? fun r =>
    r.requestId = input.requestId.toText ∧ r.leaseId = input.leaseId.toText with
  | none => ⟨.ok (.flag true), d.chats.rows, []⟩
  | some r =>
    if r.senderAccountId ≠ sender then ⟨.error (.api .invalidChatRequest), d.chats.rows, []⟩
    else ⟨.ok (.flag true), d.chats.rows.filter fun r =>
      ¬ (r.requestId = input.requestId.toText ∧ r.leaseId = input.leaseId.toText), []⟩

/-- The choices have these readings, and none fails. -/
def Reads (ρ : ℕ → ℤ) (chs : List Choice) : Prop :=
  ∀ k ch, chs[k]? = some ch → ch.fails = false ∧ ch.reading = ρ k

/-- A UUID that is drawn on the way is not that of a stored request. -/
def Undrawn (w w' : World) : Prop :=
  ∀ u ∈ w'.drawn.map Prod.snd, u ∉ w.drawn.map Prod.snd → ∀ r ∈ w.db.chats.rows,
    r.requestId ≠ u.toText ∧ r.leaseId ≠ u.toText

/-- A call from `w` to `w'` comes to `x`. -/
structure Performs (w : World) (x : CallOutcome) (r : Response) (w' : World) : Prop where
  response : r = x.response
  accounts : w'.db.accounts.rows = w.db.accounts.rows
  blocks : w'.db.blocks.rows = w.db.blocks.rows
  chats : w'.db.chats.rows = x.chats
  drawn : w'.drawn.map Prod.snd = x.drawn ++ w.drawn.map Prod.snd

variable {D} {ctx : Context} {w w' : World} {i : ℕ} {chs : List Choice} {r : Response}
  {ρ : ℕ → ℤ} {sender : Text}

/-- No statement fails. -/
lemma Reads.absurd {c : Choice} {p : Prop} (h : Reads ρ chs) (hc : c ∈ chs)
    (hf : c.fails = true) : p := by
  obtain ⟨k, hk⟩ := List.mem_iff_getElem?.mp hc
  rw [(h k c hk).1] at hf
  cases hf

lemma performs_of_eq {x : CallOutcome} {rows : List ChatRecord} (us : List Uuid)
    (hx : x = ⟨r, rows, us⟩) (haccounts : w'.db.accounts.rows = w.db.accounts.rows)
    (hblocks : w'.db.blocks.rows = w.db.blocks.rows) (hchats : w'.db.chats.rows = rows)
    (hdrawn : w'.drawn.map Prod.snd = us ++ w.drawn.map Prod.snd) : Performs w x r w' := by
  subst hx
  exact ⟨rfl, haccounts, hblocks, hchats, hdrawn⟩

lemma cancel_plays {input : CancelLiveChatRequestInput} (hacc : ctx.account = some sender)
    (h : (service D).Plays i (Op.program D (.cancelLiveChatRequest ctx input)) w chs r w')
    (hreads : Reads ρ chs) : Performs w (cancelOutcome w.db sender input) r w' := by
  cases cancelStep_of_plays hacc h with
  | failed hf => exact hreads.absurd (by simp) hf
  | absent _ hr =>
    refine performs_of_eq [] ?_ rfl rfl rfl rfl
    rw [Db.presented] at hr
    simp only [cancelOutcome, hr, World.db_tick]
  | foreign _ hr hne =>
    refine performs_of_eq [] ?_ rfl rfl rfl rfl
    rw [Db.presented] at hr
    simp only [cancelOutcome, hr, if_pos hne, World.db_tick]
  | busy _ _ _ hf => exact hreads.absurd (by simp) hf
  | deleted _ hr hs _ hu =>
    refine performs_of_eq [] ?_ (Write.accounts_apply hu) (Write.blocks_apply hu)
      (Write.chats_apply hu) rfl
    rw [Db.presented] at hr
    simp only [cancelOutcome, hr, if_neg (not_not.mpr hs)]
    rfl

section cleans

variable {c : Choice} {d : Db}

/-- A clean-up leaves what has not expired. -/
lemma Cleans.unexpired (hd : Cleans D w c d) : d.chats.rows = w.db.unexpired D c.reading := by
  obtain ⟨n, hu⟩ := hd.apply
  exact Write.chats_apply hu

lemma Cleans.accounts (hd : Cleans D w c d) : d.accounts.rows = w.db.accounts.rows := by
  obtain ⟨n, hu⟩ := hd.apply
  exact Write.accounts_apply hu

lemma Cleans.blocks (hd : Cleans D w c d) : d.blocks.rows = w.db.blocks.rows := by
  obtain ⟨n, hu⟩ := hd.apply
  exact Write.blocks_apply hu

end cleans

lemma renew_plays {input : RenewLiveChatRequestInput} (hacc : ctx.account = some sender)
    (h : (service D).Plays i (Op.program D (.renewLiveChatRequest ctx input)) w chs r w')
    (hreads : Reads ρ chs) : Performs w (renewOutcome D w.db ρ sender input) r w' := by
  cases renewStep_of_plays hacc h with
  | failed hf => exact hreads.absurd (by simp) hf
  | @absent c₀ c₁ d hd _ hr =>
    have hswept := hd.unexpired
    rw [(hreads 0 c₀ rfl).2] at hswept
    refine performs_of_eq [] ?_ hd.accounts hd.blocks hswept rfl
    rw [hswept] at hr
    simp only [renewOutcome, hr]
  | @unreadable c₀ c₁ d row e hd _ hr he =>
    have hswept := hd.unexpired
    rw [(hreads 0 c₀ rfl).2] at hswept
    refine performs_of_eq [] ?_ hd.accounts hd.blocks hswept rfl
    rw [hswept] at hr
    simp only [renewOutcome, hr, he]
  | @panic c₀ c₁ c₂ d row hard hd _ hr hhard hlease =>
    have hswept := hd.unexpired
    rw [(hreads 0 c₀ rfl).2] at hswept
    rw [(hreads 2 c₂ rfl).2] at hlease
    refine performs_of_eq [] ?_ hd.accounts hd.blocks hswept rfl
    rw [hswept] at hr
    simp only [renewOutcome, hr, hhard, hlease]
  | @renewed c₀ c₁ c₂ c₃ d d' row hard lease n hd hr hhard hlease hu =>
    have hswept := hd.unexpired
    rw [(hreads 0 c₀ rfl).2] at hswept
    rw [(hreads 2 c₂ rfl).2] at hlease
    refine performs_of_eq [] ?_ ((Write.accounts_apply hu).trans hd.accounts)
      ((Write.blocks_apply hu).trans hd.blocks)
      ((Write.chats_apply hu).trans (by rw [hswept])) rfl
    rw [hswept] at hr
    simp only [renewOutcome, hr, hhard, hlease]
    rfl

section send

variable {input : SendLiveChatRequestInput}

lemma openRecipient_eq {d d' : Db} (haccounts : d'.accounts.rows = d.accounts.rows)
    (hblocks : d'.blocks.rows = d.blocks.rows) (name : Text) :
    d'.openRecipient sender name = d.openRecipient sender name := by
  simp only [Db.openRecipient, Db.accountByIdentitty, haccounts, hblocks]

lemma eval_activeCount (d : Db) (now : ℤ) : Select.eval D now d (.activeCount sender) =
    d.chats.rows.countP (activeOf D sender now) := rfl

/-- A submission after a look-up that found nothing. -/
lemma SubmitStep.performs {w₁ : World} {c₀ c₁ c₂ : Choice} {publicKey payload : List UInt8}
    {name : Text} (h : SubmitStep D i w₁ [c₀, c₁, c₂] sender publicKey payload name
      input.clientRequestId r (w', chs)) (hreads : Reads ρ chs) (hundrawn : Undrawn w w')
    (hsend : ∀ u v, sendOutcome D w.db ρ sender input u v = submitOutcome D w₁.db w₁.db.chats.rows
      ρ sender publicKey payload name input.clientRequestId u v)
    (haccounts : w₁.db.accounts.rows = w.db.accounts.rows)
    (hblocks : w₁.db.blocks.rows = w.db.blocks.rows) (hdrawn : w₁.drawn = w.drawn)
    (hsub : w₁.db.chats.rows ⊆ w.db.chats.rows) :
    ∃ u v, Performs w (sendOutcome D w.db ρ sender input u v) r w' := by
  simp only [hsend]
  -- What a submission that has drawn its ids comes to.
  have drawn {c₃ c₄ c₅ c₆ : Choice} {lease hard : ℤ} {w₂ : World} {x : Option Text}
      (hd : Draws D i w₁ sender c₃ c₄ c₅ c₆ lease hard w₂) (h₃ : chs[3]? = some c₃)
      (h₄ : chs[4]? = some c₄) (hx : w₁.db.openRecipient sender name = x) :
      submitOutcome D w₁.db w₁.db.chats.rows ρ sender publicKey payload name input.clientRequestId
          c₅.uuid c₆.uuid =
        ⟨.ok (.submission ⟨c₅.uuid, true, c₆.uuid, lease⟩), w₁.db.chats.rows ++ (x.map (newRecord
          sender publicKey payload input.clientRequestId c₅.uuid c₆.uuid c₄.reading lease
            hard)).toList, [c₆.uuid, c₅.uuid]⟩ := by
    have hcount := hd.count
    have hlease := hd.lease
    have hhard := hd.hard
    rw [(hreads 3 c₃ h₃).2, eval_activeCount] at hcount
    rw [(hreads 4 c₄ h₄).2] at hlease hhard ⊢
    simp only [submitOutcome, if_neg hcount, hlease, hhard, hx]
  cases h with
  | failed _ hf => exact hreads.absurd (by simp) hf
  | @full c₃ _ hcount =>
    rw [(hreads 3 c₃ rfl).2, eval_activeCount] at hcount
    refine ⟨⟨0⟩, ⟨0⟩, performs_of_eq [] ?_ haccounts hblocks rfl (congrArg _ hdrawn)⟩
    rw [submitOutcome, if_pos hcount, World.db_tick]
  | @panic c₃ c₄ _ _ hcount htime =>
    rw [(hreads 3 c₃ rfl).2, eval_activeCount] at hcount
    rw [(hreads 4 c₄ rfl).2] at htime
    refine ⟨⟨0⟩, ⟨0⟩, performs_of_eq [] ?_ haccounts hblocks rfl (congrArg _ hdrawn)⟩
    rw [submitOutcome, if_neg hcount, World.db_tick, World.db_tick]
    rcases htime with hnone | hnone
    · simp only [hnone]
    · cases DateTime.addSeconds (ρ 4) 90 <;> simp only [hnone]
  | @hidden c₃ c₄ c₅ c₆ cs lease hard w₂ hd hopen =>
    refine ⟨c₅.uuid, c₆.uuid, performs_of_eq _ (drawn hd rfl rfl hopen) (hd.db ▸ haccounts)
      (hd.db ▸ hblocks) ?_ ?_⟩
    · rw [hd.db]
      exact (List.append_nil _).symm
    · rw [hd.drawn, hdrawn]
      rfl
  | @clash c₃ c₄ c₅ c₆ cs lease hard w₂ row hd hrow hid =>
    have hnew {u : Uuid} (hu : ∀ x ∈ w₁.drawn, x.2 ≠ u) : u ∉ w.drawn.map Prod.snd := by
      intro hmem
      obtain ⟨x, hx, rfl⟩ := List.mem_map.mp hmem
      exact hu x (hdrawn ▸ hx) rfl
    rcases hid with hid | hid
    · refine absurd hid (hundrawn c₅.uuid ?_ (hnew hd.requestId) row (hsub hrow)).1
      rw [hd.drawn]
      exact List.mem_cons_of_mem _ List.mem_cons_self
    · refine absurd hid (hundrawn c₆.uuid ?_ (hnew hd.leaseId) row (hsub hrow)).2
      rw [hd.drawn]
      exact List.mem_cons_self
  | @stored c₃ c₄ c₅ c₆ c cs lease hard w₂ recipient n d hd hopen _ hu =>
    refine ⟨c₅.uuid, c₆.uuid, performs_of_eq _ (drawn hd rfl rfl hopen)
      ((Write.accounts_apply hu).trans haccounts) ((Write.blocks_apply hu).trans hblocks)
      (Write.chats_apply hu) ?_⟩
    rw [World.drawn_put, hd.drawn, hdrawn]
    rfl

lemma send_plays (hacc : ctx.account = some sender)
    (h : (service D).Plays i (Op.program D (.sendLiveChatRequest ctx input)) w chs r w')
    (hreads : Reads ρ chs) (hundrawn : Undrawn w w') :
    ∃ u v, Performs w (sendOutcome D w.db ρ sender input u v) r w' := by
  cases sendStep_of_plays hacc h with
  | malformed he =>
    refine ⟨⟨0⟩, ⟨0⟩, performs_of_eq [] ?_ rfl rfl rfl rfl⟩
    simp only [sendOutcome, he]
  | misnamed hpayload he =>
    refine ⟨⟨0⟩, ⟨0⟩, performs_of_eq [] ?_ rfl rfl rfl rfl⟩
    simp only [sendOutcome, hpayload, he]
  | failed hf => exact hreads.absurd (by simp) hf
  | @unknown payload name c₀ c₁ d hpayload hname hd _ hnone =>
    have hswept := hd.unexpired
    rw [(hreads 0 c₀ rfl).2] at hswept
    rw [Db.accountById, hd.accounts, ← Db.accountById] at hnone
    refine ⟨⟨0⟩, ⟨0⟩, performs_of_eq [] ?_ hd.accounts hd.blocks hswept rfl⟩
    simp only [sendOutcome, hpayload, hname, hnone]
  | @found payload name c₀ c₁ c₂ d a row hpayload hname hd _ ha hr =>
    have hswept := hd.unexpired
    rw [(hreads 0 c₀ rfl).2] at hswept
    rw [Db.accountById, hd.accounts, ← Db.accountById] at ha
    rw [hswept] at hr
    refine ⟨⟨0⟩, ⟨0⟩, performs_of_eq [] ?_ hd.accounts hd.blocks hswept rfl⟩
    simp only [sendOutcome, hpayload, hname, ha, hr]
  | @submitted payload name c₀ c₁ c₂ d a _ _ hpayload hname hd _ ha hnone h =>
    have hfirst : chs[0]? = some c₀ := by
      obtain ⟨cs, rfl⟩ := h.begins
      rfl
    have hswept := hd.unexpired
    rw [(hreads 0 c₀ hfirst).2] at hswept
    rw [Db.accountById, hd.accounts, ← Db.accountById] at ha
    refine h.performs hreads hundrawn (fun u v => ?_) hd.accounts hd.blocks rfl ?_
    · have hr : ((w.db.unexpired D (ρ 0)).find? fun row => row.senderAccountId = sender ∧
          row.clientRequestId = input.clientRequestId.toText) = none :=
        List.find?_eq_none.mpr fun row hrow hp => hnone row (hswept ▸ hrow) (of_decide_eq_true hp)
      simp only [sendOutcome, hpayload, hname, ha, hr, submitOutcome, World.db_tick, World.db_put,
        hswept, openRecipient_eq hd.accounts hd.blocks]
    · rw [World.db_tick, World.db_tick, World.db_put, hswept]
      exact List.filter_subset_self _

end send

end TittyBackend
