import TittyBackend.ActiveLimit
import TittyBackend.Cleanup
import TittyBackend.Lib.Lapse

/-!
# What a recipient is shown

A ledger of the accounts, the blocks and the requests of a sequential run is kept from the
operations and their answers alone. A request stays in it, lapsed or not, until it is cancelled or
its recipient blocks its sender. A listing shows what is live in the ledger.
-/

namespace TittyBackend

open Numerals Programs Programs.System Resolver Lapses
open DateTime (seconds)

/-! ### The ledger -/

structure Member where
  accountId : Text
  identitty : Text
  publicKey : Text
  deriving DecidableEq

/-- A request as its sender made it, with the last end of its lease. -/
structure Request where
  requestId : Uuid
  leaseId : Uuid
  clientRequestId : Uuid
  sender : Member
  recipient : Text
  payload : Text
  createdAt : ℤ
  expiresAt : ℤ
  deriving DecidableEq

/-- As its recipient sees it. -/
def Request.shown (q : Request) : LiveChatRequest where
  requestId := q.requestId
  senderAccountId := q.sender.accountId
  senderIdentitty := q.sender.identitty
  senderPublicKey := q.sender.publicKey
  encryptedPayload := q.payload
  createdAt := q.createdAt
  expiresAt := q.expiresAt

/-- The request has these ids and is the sender's. -/
def Request.Is (q : Request) (sender : Text) (requestId leaseId : Uuid) : Prop :=
  q.requestId = requestId ∧ q.leaseId = leaseId ∧ q.sender.accountId = sender

instance (q : Request) (sender : Text) (requestId leaseId : Uuid) :
    Decidable (q.Is sender requestId leaseId) := inferInstanceAs (Decidable (_ ∧ _ ∧ _))

/-- The request after a renewal at `t` of the one with these ids. -/
def Request.renew (t : ℤ) (sender : Text) (requestId leaseId : Uuid) (q : Request) : Request :=
  if q.Is sender requestId leaseId then
    { q with expiresAt := min (t + seconds 90) (q.createdAt + seconds (15 * 60)) }
  else q

/-- The request of a send at `t` that was answered with `x`. -/
def SendLiveChatRequestInput.request (input : SendLiveChatRequestInput) (t : ℤ) (sender : Member)
    (recipient : Text) (x : LiveChatRequestSubmission) : Request where
  requestId := x.requestId
  leaseId := x.leaseId
  clientRequestId := input.clientRequestId
  sender := sender
  recipient := recipient
  payload := input.encryptedPayload
  createdAt := t
  expiresAt := t + seconds 90

structure Ledger where
  members : List Member
  /-- Who blocks whom. -/
  blocks : List (Text × Text)
  requests : List Request

/-- The instant of a turn whose operation reads the clock as of one. -/
def turnTime (t : ServiceTurn) : ℤ := (t.choices.head?.map Choice.reading).getD 0

namespace Ledger

variable (after : ℤ → ℤ → Bool) (l : Ledger)

def member (accountId : Text) : Option Member := l.members.find? fun m => m.accountId = accountId

def named (identitty : Text) : Option Member :=
  l.members.find? fun m => nocase m.identitty identitty

/-- The requests whose lease ends after `t`. -/
def live (t : ℤ) : List Request := l.requests.filter fun q => after t q.expiresAt

/-- The recipient may be sent a request, and the sender may make one under the client id. -/
def Open (t : ℤ) (sender recipient : Text) (clientRequestId : Uuid) : Prop :=
  recipient ≠ sender ∧ (recipient, sender) ∉ l.blocks ∧
    (∀ q ∈ l.live after t,
      ¬ (q.sender.accountId = sender ∧ q.clientRequestId = clientRequestId)) ∧
    (l.live after t).countP (fun q => q.sender.accountId = sender) < 25

instance (t : ℤ) (sender recipient : Text) (clientRequestId : Uuid) :
    Decidable (l.Open after t sender recipient clientRequestId) :=
  inferInstanceAs (Decidable (_ ∧ _ ∧ _ ∧ _))

/-- The sender and the recipient of a send that makes a request. -/
def admits (t : ℤ) (sender : Text) (input : SendLiveChatRequestInput) : Option (Member × Text) :=
  match l.member sender, decodePayload input.encryptedPayload,
    normaliseIdentitty input.recipientIdentitty with
  | some s, .ok _, .ok name =>
    match l.named name with
    | some m =>
      if l.Open after t sender m.accountId input.clientRequestId then some (s, m.accountId)
      else none
    | none => none
  | _, _, _ => none

def register (x : AccountIdentity) : Ledger :=
  { l with members := l.members ++ [⟨x.accountId, x.identitty, x.publicKey⟩] }

def send (t : ℤ) (sender : Text) (input : SendLiveChatRequestInput)
    (x : LiveChatRequestSubmission) : Ledger :=
  match l.admits after t sender input with
  | some (s, r) => { l with requests := l.requests ++ [input.request t s r x] }
  | none => l

/-- A renewal that succeeded. -/
def renew (t : ℤ) (sender : Text) (requestId leaseId : Uuid) : Ledger :=
  { l with requests := l.requests.map (Request.renew t sender requestId leaseId) }

def cancel (sender : Text) (requestId leaseId : Uuid) : Ledger :=
  { l with requests := l.requests.filter fun q => ¬ q.Is sender requestId leaseId }

def block (blocker : Text) (input : BlockIdentityInput) : Ledger :=
  match normaliseIdentitty input.identitty with
  | .ok name =>
    match l.named name with
    | some m =>
      if m.accountId ≠ blocker ∧ (l.member blocker).isSome then
        { l with
          blocks := (blocker, m.accountId) :: l.blocks
          requests := l.requests.filter fun q =>
            ¬ (q.sender.accountId = m.accountId ∧ q.recipient = blocker) }
      else l
    | none => l
  | .error _ => l

def unblock (blocker : Text) (input : UnblockIdentityInput) : Ledger :=
  { l with blocks := l.blocks.filter fun b => b ≠ (blocker, input.accountId) }

/-- What a turn makes of the ledger: a registration and a renewal count once they have succeeded,
and a send has drawn the ids that it answers with. -/
def step (t : ServiceTurn) : Ledger :=
  match t.op with
  | .registerAccount _ _ =>
    match t.response with
    | .ok (.identity x) => l.register x
    | _ => l
  | .sendLiveChatRequest ctx input =>
    match ctx.account, t.response with
    | some sender, .ok (.submission x) => l.send after (turnTime t) sender input x
    | _, _ => l
  | .renewLiveChatRequest ctx input =>
    match ctx.account, t.response with
    | some sender, .ok _ => l.renew (turnTime t) sender input.requestId input.leaseId
    | _, _ => l
  | .cancelLiveChatRequest ctx input =>
    match ctx.account with
    | some sender => l.cancel sender input.requestId input.leaseId
    | none => l
  | .blockIdentity ctx input =>
    match ctx.account with
    | some blocker => l.block blocker input
    | none => l
  | .unblockIdentity ctx input =>
    match ctx.account with
    | some blocker => l.unblock blocker input
    | none => l
  | _ => l

/-- The requests that are live at `t`, as the account `r` sees them. -/
def inbox (t : ℤ) (r : Text) : List LiveChatRequest :=
  ((l.live after t).filter fun q => q.recipient = r).map Request.shown

variable {after : ℤ → ℤ → Bool} {l : Ledger} {t : ℤ} {sender : Text}
  {input : SendLiveChatRequestInput}

lemma accountId_of_member {accountId : Text} {s : Member}
    (h : l.member accountId = some s) : s.accountId = accountId := by
  simpa using List.find?_some h

variable (after t) in
lemma admits_of {s : Member} {name : Text} {payload : List UInt8} (hs : l.member sender = some s)
    (hpayload : decodePayload input.encryptedPayload = .ok payload)
    (hname : normaliseIdentitty input.recipientIdentitty = .ok name) :
    l.admits after t sender input = (l.named name).bind fun m =>
      if l.Open after t sender m.accountId input.clientRequestId then some (s, m.accountId)
      else none := by
  simp only [admits, hs, hpayload, hname]
  cases l.named name <;> rfl

lemma admits_eq_none (h : ∀ s name m payload, l.member sender = some s →
    decodePayload input.encryptedPayload = .ok payload →
    normaliseIdentitty input.recipientIdentitty = .ok name → l.named name = some m →
    ¬ l.Open after t sender m.accountId input.clientRequestId) :
    l.admits after t sender input = none := by
  cases hs : l.member sender with
  | none => simp only [admits, hs]
  | some s =>
    cases hpayload : decodePayload input.encryptedPayload with
    | error e => simp only [admits, hs, hpayload]
    | ok payload =>
      cases hname : normaliseIdentitty input.recipientIdentitty with
      | error e => simp only [admits, hs, hpayload, hname]
      | ok name =>
        cases hm : l.named name with
        | none => simp only [admits, hs, hpayload, hname, hm]
        | some m =>
          simp only [admits, hs, hpayload, hname, hm]
          exact if_neg (h s name m payload hs hpayload hname hm)

lemma of_admits {s : Member} {r : Text} (h : l.admits after t sender input = some (s, r)) :
    l.member sender = some s ∧ ∃ payload, decodePayload input.encryptedPayload = .ok payload := by
  unfold admits at h
  split at h
  · next s' payload name hs hpayload hname =>
    split at h
    · split_ifs at h
      obtain ⟨rfl, -⟩ := Prod.mk.inj (Option.some.inj h)
      exact ⟨hs, payload, hpayload⟩
    · cases h
  · cases h

variable {x : LiveChatRequestSubmission}

lemma send_of_admits {s : Member} {r : Text} (h : l.admits after t sender input = some (s, r)) :
    l.send after t sender input x =
      { l with requests := l.requests ++ [input.request t s r x] } := by
  simp only [send, h]

lemma send_of_none (h : l.admits after t sender input = none) :
    l.send after t sender input x = l := by
  simp only [send, h]

end Ledger

def AccountRow.toMember (a : AccountRow) : Member :=
  ⟨a.accountId, a.identitty, Base64.encode a.publicKey⟩

/-- The accounts and the blocks of a database, without requests. -/
def Db.ledger (d : Db) : Ledger where
  members := d.accounts.rows.map AccountRow.toMember
  blocks := d.blocks.rows.map fun b => (b.blockerAccountId, b.blockedAccountId)
  requests := []

/-- The ledger of the turns of a run, the latest first. -/
def Ledger.ofTurns (after : ℤ → ℤ → Bool) (d₀ : Db) : List ServiceTurn → Ledger
  | [] => d₀.ledger
  | t :: ts => (Ledger.ofTurns after d₀ ts).step after t

/-! ### What is promised -/

/-- The operation of the turn reads one instant, which satisfies `Q`, and no statement of it
fails. -/
def Punctual (Q : ℤ → Prop) (t : ServiceTurn) : Prop :=
  ∀ ch ∈ t.choices, ch.fails = false ∧ ch.reading = turnTime t ∧ Q (turnTime t)

instance (Q : ℤ → Prop) [DecidablePred Q] (t : ServiceTurn) : Decidable (Punctual Q t) :=
  inferInstanceAs (Decidable (∀ ch ∈ t.choices, _))

/-- A listing after the turns `ts` shows each request that is live in the ledger once, and a send
that the ledger admits is accepted. -/
structure Delivers (after : ℤ → ℤ → Bool) (d₀ : Db) (ts : List ServiceTurn) (t : ServiceTurn) :
    Prop where
  listed : ∀ ctx r, t.op = .liveChatRequests ctx → ctx.account = some r →
    ∃ xs, t.response = .ok (.requests xs) ∧ (xs.map LiveChatRequest.requestId).Nodup ∧
      xs.Perm ((Ledger.ofTurns after d₀ ts).inbox after (turnTime t) r)
  accepted : ∀ ctx input sender, t.op = .sendLiveChatRequest ctx input →
    ctx.account = some sender →
      ((Ledger.ofTurns after d₀ ts).admits after (turnTime t) sender input).isSome = true →
        ∃ x, t.response = .ok (.submission x)

/-! ### Rows and entries -/

variable {D : Deployment}

/-- SQLite reads the texts of instants in the order of these, and its clock does not go back. -/
structure Chronological (D : Deployment) : Prop where
  clock : Monotone D.juliandayNow
  reads : ∀ e, InEra e → ∃ j, D.julianday (toRfc3339 e) = some j
  order : ∀ e e' j j', InEra e → InEra e' → e ≤ e' → D.julianday (toRfc3339 e) = some j →
    D.julianday (toRfc3339 e') = some j' → j ≤ j'

/-- Whether SQLite finds the end `e` after its clock at `t`. -/
def sqlAfter (D : Deployment) (t e : ℤ) : Bool := After D t (toRfc3339 e)

lemma sqlAfter.anti (hD : Chronological D) {t t' e : ℤ} (hle : t ≤ t')
    (h : sqlAfter D t' e = true) : sqlAfter D t e = true := by
  simp only [sqlAfter, After, Option.any_eq_true, decide_eq_true_eq] at h ⊢
  obtain ⟨j, hj, hlt⟩ := h
  exact ⟨j, hj, (hD.clock hle).trans_lt hlt⟩

lemma sqlAfter.mono (hD : Chronological D) {t e e' : ℤ} (he : InEra e) (he' : InEra e')
    (hle : e ≤ e') (h : sqlAfter D t e = true) : sqlAfter D t e' = true := by
  simp only [sqlAfter, After, Option.any_eq_true, decide_eq_true_eq] at h ⊢
  obtain ⟨j, hj, hlt⟩ := h
  obtain ⟨j', hj'⟩ := hD.reads e' he'
  exact ⟨j', hj', hlt.trans_le (hD.order e e' j j' he he' hle hj hj')⟩

/-- A text that is not after the clock has passed. -/
lemma passed_eq (hD : Chronological D) {t e : ℤ} (he : InEra e) :
    Passed D t (toRfc3339 e) = !sqlAfter D t e := by
  obtain ⟨j, hj⟩ := hD.reads e he
  simp only [Passed, sqlAfter, After, hj, Option.any_some]
  by_cases hle : j ≤ D.juliandayNow t
  · simp [hle]
  · simp [hle, not_le.mp hle]

/-- The row of a request. -/
def Request.record (q : Request) : ChatRecord where
  requestId := q.requestId.toText
  leaseId := q.leaseId.toText
  clientRequestId := q.clientRequestId.toText
  senderAccountId := q.sender.accountId
  recipientAccountId := q.recipient
  senderPublicKey := (Base64.decode q.sender.publicKey).getD []
  encryptedPayload := (Base64.decode q.payload).getD []
  createdAt := toRfc3339 q.createdAt
  leaseExpiresAt := toRfc3339 q.expiresAt
  hardExpiresAt := toRfc3339 (q.createdAt + seconds (15 * 60))

/-- Its row, joined with that of its sender. -/
def Request.joined (q : Request) : LiveChatRequestRow where
  requestId := q.requestId.toText
  senderAccountId := q.sender.accountId
  identitty := q.sender.identitty
  senderPublicKey := (Base64.decode q.sender.publicKey).getD []
  encryptedPayload := (Base64.decode q.payload).getD []
  createdAt := toRfc3339 q.createdAt
  leaseExpiresAt := toRfc3339 q.expiresAt

/-- The times and the payload of a request. -/
structure Request.Sound (q : Request) : Prop where
  early : Early q.createdAt
  least : q.createdAt + seconds 90 ≤ q.expiresAt
  most : q.expiresAt ≤ q.createdAt + seconds (15 * 60)
  payload : ∃ bytes, Base64.decode q.payload = some bytes

namespace Request

variable {q : Request} {t : ℤ}

lemma Sound.inEra (h : q.Sound) : InEra q.expiresAt :=
  h.early.1.between h.early.2 ((Int.le_add_of_nonneg_right (by decide)).trans h.least) h.most

/-- A request is active as long as its lease runs, which ends before the request does. -/
lemma Sound.active (hD : Chronological D) (h : q.Sound) :
    q.record.Active D t = sqlAfter D t q.expiresAt := by
  cases hlive : sqlAfter D t q.expiresAt with
  | false =>
    simp only [ChatRecord.Active, record]
    rw [show After D t (toRfc3339 q.expiresAt) = false from hlive, Bool.false_and]
  | true =>
    have hhard := sqlAfter.mono hD h.inEra h.early.2 h.most hlive
    simp only [ChatRecord.Active, record]
    rw [show After D t (toRfc3339 q.expiresAt) = true from hlive, Bool.true_and]
    exact hhard

lemma Sound.expired (hD : Chronological D) (h : q.Sound) :
    q.record.Expired D t = !sqlAfter D t q.expiresAt := by
  simp only [ChatRecord.Expired, record, passed_eq hD h.inEra, passed_eq hD h.early.2]
  cases hlive : sqlAfter D t q.expiresAt with
  | false => rfl
  | true => rw [sqlAfter.mono hD h.inEra h.early.2 h.most hlive, Bool.or_self]

section renew

variable {sender : Text} {requestId leaseId : Uuid}

lemma renew_of_is (h : q.Is sender requestId leaseId) : q.renew t sender requestId leaseId =
    { q with expiresAt := min (t + seconds 90) (q.createdAt + seconds (15 * 60)) } := if_pos h

lemma renew_of_not (h : ¬ q.Is sender requestId leaseId) :
    q.renew t sender requestId leaseId = q := if_neg h

@[simp] lemma renew_requestId :
    (q.renew t sender requestId leaseId).requestId = q.requestId := by
  rw [renew]
  split_ifs <;> rfl

@[simp] lemma renew_leaseId : (q.renew t sender requestId leaseId).leaseId = q.leaseId := by
  rw [renew]
  split_ifs <;> rfl

@[simp] lemma renew_sender : (q.renew t sender requestId leaseId).sender = q.sender := by
  rw [renew]
  split_ifs <;> rfl

@[simp] lemma renew_createdAt :
    (q.renew t sender requestId leaseId).createdAt = q.createdAt := by
  rw [renew]
  split_ifs <;> rfl

/-- A lease that is renewed after the request was made ends no earlier than its first did. -/
lemma Sound.renew (h : q.Sound) (hpast : q.createdAt ≤ t) :
    (q.renew t sender requestId leaseId).Sound := by
  by_cases his : q.Is sender requestId leaseId
  · rw [renew_of_is his]
    refine ⟨h.early, le_min (Int.add_le_add_right hpast _) ?_, min_le_right _ _, h.payload⟩
    exact Int.add_le_add_left (by decide) _
  · rwa [renew_of_not his]

end renew

lemma record_requestId {u : Uuid} : q.record.requestId = u.toText ↔ q.requestId = u :=
  Uuid.toText_inj

lemma record_leaseId {u : Uuid} : q.record.leaseId = u.toText ↔ q.leaseId = u := Uuid.toText_inj

lemma record_clientRequestId {u : Uuid} :
    q.record.clientRequestId = u.toText ↔ q.clientRequestId = u := Uuid.toText_inj

end Request

/-! ### The database refines the ledger -/

/-- The database is one of the ledger: it has its accounts and blocks, its rows are requests of the
ledger, and those that are active are the live ones. -/
structure Refines (D : Deployment) (l : Ledger) (w : World) : Prop where
  members : l.members = w.db.accounts.rows.map AccountRow.toMember
  blocks : ∀ r s, (r, s) ∈ l.blocks ↔
    ∃ b ∈ w.db.blocks.rows, b.blockerAccountId = r ∧ b.blockedAccountId = s
  live : Shows Request.record (ChatRecord.Active D w.clock)
    (fun q => sqlAfter D w.clock q.expiresAt) w.db.chats.rows l.requests
  rows : ∀ r ∈ w.db.chats.rows, ∃ q ∈ l.requests, q.record = r
  sound : ∀ q ∈ l.requests, q.Sound
  sender : ∀ q ∈ l.requests, q.sender ∈ l.members
  drawn : ∀ q ∈ l.requests, (∃ i, (i, q.requestId) ∈ w.drawn) ∧ ∃ i, (i, q.leaseId) ∈ w.drawn
  distinct : l.requests.Pairwise fun a b => a.requestId ≠ b.requestId
  past : ∀ q ∈ l.requests, q.createdAt ≤ w.clock

/-- Accounts and blocks stay, and requests that are active at the end. -/
structure Stays (D : Deployment) (w w' : World) : Prop where
  accounts : w'.db.accounts.rows = w.db.accounts.rows
  blocks : w'.db.blocks.rows = w.db.blocks.rows
  chats : ∃ k, w'.db.chats.rows = w.db.chats.rows.filter k ∧
    ∀ r ∈ w.db.chats.rows, r.Active D w'.clock = true → k r = true
  drawn : w.drawn ⊆ w'.drawn
  clock : w.clock ≤ w'.clock

namespace Stays

variable {w w' w'' : World}

lemma of_db (hdb : w'.db = w.db) (hdrawn : w.drawn ⊆ w'.drawn) (hclock : w.clock ≤ w'.clock) :
    Stays D w w' where
  accounts := by rw [hdb]
  blocks := by rw [hdb]
  chats := ⟨fun _ => true, by rw [hdb, List.filter_true], fun _ _ _ => rfl⟩
  drawn := hdrawn
  clock := hclock

lemma refl (w : World) : Stays D w w := .of_db rfl (List.Subset.refl _) le_rfl

lemma trans (hmono : Monotone D.juliandayNow) (h : Stays D w w') (h' : Stays D w' w'') :
    Stays D w w'' where
  accounts := h'.accounts.trans h.accounts
  blocks := h'.blocks.trans h.blocks
  chats := by
    obtain ⟨k, hk, hkeep⟩ := h.chats
    obtain ⟨k', hk', hkeep'⟩ := h'.chats
    refine ⟨fun r => k' r && k r, by rw [hk', hk, List.filter_filter], fun r hr hactive => ?_⟩
    have hkr := hkeep r hr (ChatRecord.Active.anti hmono h'.clock hactive)
    have hmem : r ∈ w'.db.chats.rows := by
      rw [hk]
      exact List.mem_filter.mpr ⟨hr, hkr⟩
    simp [hkr, hkeep' r hmem hactive]
  drawn := List.Subset.trans h.drawn h'.drawn
  clock := h.clock.trans h'.clock

/-- A write that touches neither accounts nor blocks, and requests at most to sweep them. -/
lemma write {u : Write} {n : ℕ} {d : Db} {ch : Choice} (hclock : w.clock ≤ ch.reading)
    (hu : u.apply D ch.reading w.db = .ok (n, d))
    (haccounts : u.accountRows w.db.accounts.rows = w.db.accounts.rows)
    (hblocks : u.blockRows w.db.blocks.rows = w.db.blocks.rows)
    (hchats : u = .removeExpiredChats ∨
      u.chatRows D ch.reading w.db.chats.rows = w.db.chats.rows) :
    Stays D w { w.tick ch with db := d } where
  accounts := (Write.accounts_apply hu).trans haccounts
  blocks := (Write.blocks_apply hu).trans hblocks
  chats := by
    rcases hchats with rfl | hchats
    · refine ⟨fun r => !r.Expired D ch.reading, Write.chats_apply hu, fun r _ hactive => ?_⟩
      have hlive : r.Expired D ch.reading = false := ChatRecord.not_expired_of_active D hactive
      simp [hlive]
    · exact ⟨fun _ => true, by rw [List.filter_true]; exact (Write.chats_apply hu).trans hchats,
        fun _ _ _ => rfl⟩
  drawn := List.Subset.refl _
  clock := hclock

end Stays

lemma Draws.stays {i : ℕ} {w w' : World} {sender : Text} {c₀ c₁ c₂ c₃ : Choice} {lease hard : ℤ}
    (h : Draws D i w sender c₀ c₁ c₂ c₃ lease hard w') : Stays D w w' := by
  refine .of_db h.db ?_ (h.start.trans h.clock)
  rw [h.drawn]
  exact List.subset_cons_of_subset _ (List.subset_cons_self _ _)

/-- The operations that touch accounts, blocks or the requests of the ledger. -/
def Op.Moves : Op → Prop
  | .registerAccount .. => True
  | .sendLiveChatRequest ctx _ | .renewLiveChatRequest ctx _ | .cancelLiveChatRequest ctx _
  | .blockIdentity ctx _ | .unblockIdentity ctx _ => ∃ accountId, ctx.account = some accountId
  | _ => False

/-- The transaction of a login holds the tables of the ledger as they are. -/
def Unmoved (w : World) (x : ℕ × Db) : Prop :=
  x.2.accounts.rows = w.db.accounts.rows ∧ x.2.blocks.rows = w.db.blocks.rows ∧
    x.2.chats.rows = w.db.chats.rows

lemma stays_of_plays (hmono : Monotone D.juliandayNow) {op : Op} {w w' : World} {i : ℕ}
    {chs : List Choice} {r : Response} (h : (service D).Plays i (op.program D) w chs r w')
    (hw : w.writer = none) (hop : ¬ op.Moves) : Stays D w w' := by
  refine (Exists.elim (h.invariant (scripted D op)
    (fun w₁ _ => Stays D w w₁ ∧ ∀ x ∈ w₁.writer, Unmoved w₁ x) ⟨.refl w, by simp [hw]⟩ ?_)
    fun _ hJ => hJ.1.1)
  rintro w₁ past c ch ⟨hstays, hheld⟩ hi hen
  have hclock : w₁.clock ≤ ch.reading := Command.clock_of_enabled hen
  have heff : Effect D i ch w₁ ⟨c, ((service D).exec i c ch w₁).1⟩
    ((service D).exec i c ch w₁).2 := Command.effect c hen
  have hview : Unmoved w₁ (i, w₁.view i) := by
    rcases w₁.view_cases i with hview | ⟨d, hx, hview⟩
    · exact ⟨by rw [hview], by rw [hview], by rw [hview]⟩
    · rw [hview]
      exact hheld _ hx
  have hfilter : ∀ x ∈ w₁.writer.filter fun x => x.1 ≠ i, Unmoved w₁ x :=
    fun x hx => hheld x (Option.mem_filter_iff.mp hx).1
  generalize hx : (⟨c, ((service D).exec i c ch w₁).1⟩ : Exchange Command Command.Ans) = x at heff
  generalize ((service D).exec i c ch w₁).2 = w₂ at heff ⊢
  cases heff with
  | quiet => exact ⟨hstays.trans hmono (.of_db rfl (List.Subset.refl _) hclock), hheld⟩
  | draw => exact ⟨hstays.trans hmono (.of_db rfl (List.subset_cons_self _ _) hclock), hheld⟩
  | @write u n d hu hnone =>
    obtain ⟨rfl, -⟩ := Sigma.mk.inj hx
    refine ⟨hstays.trans hmono ?_, by simp [World.tick, hnone]⟩
    cases u with
    | insertAccount =>
      obtain ⟨_, _, _, rfl, -⟩ := hi
      exact absurd trivial hop
    | insertChat =>
      obtain ⟨_, _, _, _, _, _, _, _, rfl, hsend, -⟩ := hi
      exact absurd ⟨_, hsend.sender⟩ hop
    | updateLease =>
      obtain ⟨_, _, _, _, _, _, _, rfl, hacc, -⟩ := hi
      exact absurd ⟨_, hacc⟩ hop
    | deleteChat =>
      obtain ⟨_, _, _, rfl, hacc, -⟩ := hi
      exact absurd ⟨_, hacc⟩ hop
    | insertBlock =>
      obtain ⟨_, _, _, _, _, rfl, hblock, -⟩ := hi
      exact absurd ⟨_, hblock.account⟩ hop
    | deleteChatsBetween =>
      obtain ⟨_, _, _, _, _, _, rfl, hblock, -⟩ := hi
      exact absurd ⟨_, hblock.account⟩ hop
    | deleteBlock =>
      obtain ⟨_, rfl, hacc, -⟩ := hi
      exact absurd ⟨_, hacc⟩ hop
    | useChallenge => exact hi.elim
    | insertChallenge | removeExpiredChallenges => exact .write hclock hu rfl rfl (.inr rfl)
    | removeExpiredChats => exact .write hclock hu rfl rfl (.inl rfl)
  | @hold u n d hu hnone =>
    obtain ⟨rfl, -⟩ := Sigma.mk.inj hx
    obtain ⟨ctx, input, row, t, t', -, -, rfl, -⟩ := hi
    refine ⟨hstays.trans hmono (.of_db rfl (List.Subset.refl _) hclock), fun x hx => ?_⟩
    obtain rfl := Option.some.inj hx
    exact ⟨(Write.accounts_apply hu).trans hview.1, (Write.blocks_apply hu).trans hview.2.1,
      (Write.chats_apply hu).trans hview.2.2⟩
  | settle =>
    refine ⟨hstays.trans hmono ⟨hview.1, hview.2.1, ⟨fun _ => true, ?_, fun _ _ _ => rfl⟩,
      List.Subset.refl _, hclock⟩, fun x hx => ?_⟩
    · rw [List.filter_true]
      exact hview.2.2
    · obtain ⟨haccounts, hblocks, hchats⟩ := hfilter x hx
      exact ⟨haccounts.trans hview.1.symm, hblocks.trans hview.2.1.symm,
        hchats.trans hview.2.2.symm⟩
  | release he => exact ⟨hstays.trans hmono (.of_db rfl (List.Subset.refl _) hclock), hfilter⟩

namespace Refines

variable {l : Ledger} {w w' : World} {q : Request}

lemma stays (hD : Chronological D) (h : Refines D l w) (hs : Stays D w w') : Refines D l w' := by
  obtain ⟨k, hk, hkeep⟩ := hs.chats
  refine ⟨by rw [hs.accounts, h.members], fun r s => by rw [hs.blocks, h.blocks], ?_, ?_, h.sound,
    h.sender, fun q hq => ?_, h.distinct, fun q hq => (h.past q hq).trans hs.clock⟩
  · rw [hk]
    refine (h.live.later ?_ ?_ fun q hq _ => (h.sound q hq).active hD).sweep hkeep
    · intro r hr hactive
      obtain ⟨q, hq, rfl⟩ := h.rows r hr
      rw [(h.sound q hq).active hD] at hactive ⊢
      exact sqlAfter.anti hD hs.clock hactive
    · exact fun q _ hlive => sqlAfter.anti hD hs.clock hlive
  · intro r hr
    rw [hk] at hr
    exact h.rows r (List.mem_of_mem_filter hr)
  · obtain ⟨⟨i, hi⟩, j, hj⟩ := h.drawn q hq
    exact ⟨⟨i, hs.drawn hi⟩, j, hs.drawn hj⟩

lemma member_eq (h : Refines D l w) (accountId : Text) :
    l.member accountId = (w.db.accountById accountId).map AccountRow.toMember := by
  rw [Ledger.member, h.members, List.find?_map]
  rfl

lemma named_eq (h : Refines D l w) (name : Text) :
    l.named name = (w.db.accountByIdentitty name).map AccountRow.toMember := by
  rw [Ledger.named, h.members, List.find?_map]
  rfl

/-- The account of the sender of a request. -/
lemma account_of_sender (h : Refines D l w) (hq : q ∈ l.requests) :
    ∃ a, w.db.accountById q.sender.accountId = some a ∧ a.toMember = q.sender := by
  have hmem := h.sender q hq
  rw [h.members] at hmem
  obtain ⟨a, ha, haq⟩ := List.mem_map.mp hmem
  refine ⟨a, w.db.accounts.find?_eq_some ha (decide_eq_true (congrArg Member.accountId haq))
    fun b hb => .inl ?_, haq⟩
  exact (of_decide_eq_true hb).trans (congrArg Member.accountId haq).symm

lemma joinSender_record (h : Refines D l w) (hq : q ∈ l.requests) :
    w.db.joinSender q.record = some q.joined := by
  obtain ⟨a, ha, haq⟩ := h.account_of_sender hq
  have hname : a.identitty = q.sender.identitty := congrArg Member.identitty haq
  simp only [Db.joinSender, Request.record, ha, Option.map_some, Request.joined, hname]

lemma intoModel_joined (h : Refines D l w) (hq : q ∈ l.requests) :
    q.joined.intoModel = .ok q.shown := by
  obtain ⟨a, -, haq⟩ := h.account_of_sender hq
  have hkey : Base64.encode a.publicKey = q.sender.publicKey := congrArg Member.publicKey haq
  have hsound := h.sound q hq
  obtain ⟨bytes, hbytes⟩ := hsound.payload
  simp only [LiveChatRequestRow.intoModel, Request.joined, parseUuid, Uuid.parse_toText,
    parseDatetime, parse_toRfc3339 hsound.early.1, parse_toRfc3339 hsound.inEra, ← hkey,
    Base64.decode_encode, hbytes, Option.getD_some, Base64.encode_of_decode hbytes]
  rw [Request.shown, ← hkey]
  rfl

/-- What a listing selects. -/
lemma eval_liveChatRequests (h : Refines D l w) (account : Text) {shown : List Request}
    (hshown : shown = (l.live (sqlAfter D) w.clock).filter fun q => q.recipient = account) :
    Select.eval D w.clock w.db (.liveChatRequests account) =
      (shown.insertionSort fun a b => ¬ b.joined.createdAt < a.joined.createdAt).map
        Request.joined := by
  have hrows : w.db.chats.rows.filter (fun r => r.recipientAccountId = account ∧
      r.Active D w.clock = true) = shown.map Request.record := by
    have hlive : w.db.chats.rows.filter (ChatRecord.Active D w.clock) =
        (l.live (sqlAfter D) w.clock).map Request.record := h.live
    have hand : (fun r : ChatRecord => decide (r.recipientAccountId = account ∧
        r.Active D w.clock = true)) =
          fun r => decide (r.recipientAccountId = account) && r.Active D w.clock := by
      funext r
      rw [Bool.decide_and, Bool.decide_eq_true]
    rw [hand, ← List.filter_filter, hlive, List.filter_map, hshown]
    rfl
  have hjoin : (shown.map Request.record).filterMap w.db.joinSender =
      shown.map Request.joined := by
    rw [List.filterMap_map, ← List.filterMap_eq_map]
    refine List.filterMap_congr fun q hq => ?_
    rw [hshown] at hq
    exact h.joinSender_record (List.mem_of_mem_filter (List.mem_of_mem_filter hq))
  simp only [Select.eval]
  rw [hrows, hjoin]
  exact (List.map_insertionSort (fun a b : Request => ¬ b.joined.createdAt < a.joined.createdAt)
    (fun a b : LiveChatRequestRow => ¬ b.createdAt < a.createdAt) _ _ fun _ _ _ _ => Iff.rfl).symm

lemma activeCount_eq (h : Refines D l w) (sender : Text) :
    Select.eval D w.clock w.db (.activeCount sender) =
      (l.live (sqlAfter D) w.clock).countP fun q => q.sender.accountId = sender := by
  have hcount := h.live.countP_eq (c := fun r => decide (r.senderAccountId = sender))
    (d := fun q => decide (q.sender.accountId = sender)) fun _ _ => rfl
  rw [Ledger.live, ← hcount]
  refine List.countP_congr fun r _ => ?_
  simp

lemma blockExists_iff (h : Refines D l w) {now : ℤ} {recipient sender : Text} :
    Select.eval D now w.db (.blockExists recipient sender) = true ↔
      (recipient, sender) ∈ l.blocks := by
  rw [h.blocks]
  simp [Select.eval]

lemma row_of_live (h : Refines D l w) (hq : q ∈ l.live (sqlAfter D) w.clock) :
    q.record ∈ w.db.chats.rows := by
  obtain ⟨hmem, hlive⟩ := List.mem_filter.mp hq
  exact (h.live.mem_iff.mpr ⟨q, hmem, hlive, rfl⟩).1

/-- A row that a sweep leaves is that of a live request. -/
lemma live_of_row (hD : Chronological D) (h : Refines D l w) {r : ChatRecord}
    (hr : r ∈ w.db.chats.rows) (hlive : r.Expired D w.clock = false) :
    ∃ q ∈ l.live (sqlAfter D) w.clock, q.record = r := by
  obtain ⟨q, hq, rfl⟩ := h.rows r hr
  rw [(h.sound q hq).expired hD, Bool.not_eq_false'] at hlive
  exact ⟨q, List.mem_filter.mpr ⟨hq, hlive⟩, rfl⟩

/-- A row has no id that has not been drawn before. -/
lemma ids_ne (h : Refines D l w) {row : ChatRecord} {u : Uuid} (hrow : row ∈ w.db.chats.rows)
    (hu : ∀ x ∈ w.drawn, x.2 ≠ u) : row.requestId ≠ u.toText ∧ row.leaseId ≠ u.toText := by
  obtain ⟨q, hq, rfl⟩ := h.rows row hrow
  obtain ⟨⟨j, hj⟩, k, hk⟩ := h.drawn q hq
  exact ⟨fun hid => hu _ hj (Request.record_requestId.mp hid),
    fun hid => hu _ hk (Request.record_leaseId.mp hid)⟩

/-- The account that a request is stored for, by the ledger. -/
lemma openRecipient_eq (h : Refines D l w) (sender name : Text) :
    w.db.openRecipient sender name = (l.named name).bind fun m =>
      if (m.accountId, sender) ∉ l.blocks ∧ m.accountId ≠ sender then some m.accountId
      else none := by
  rw [h.named_eq]
  cases ha : w.db.accountByIdentitty name with
  | none => exact openRecipient_of_none ha
  | some a =>
    rw [openRecipient_of_some (D := D) 0 ha, Option.map_some, Option.bind_some]
    refine if_congr (and_congr ?_ Iff.rfl) rfl rfl
    rw [← Bool.not_eq_true]
    exact not_congr h.blockExists_iff

end Refines

end TittyBackend
