import TittyBackend.Auth
import TittyBackend.Database.Schema
import Mathlib.Data.List.Sort

/-!
# The SQL statements

One constructor for each statement of the service, with the values it binds. A `Select` answers
and leaves the database as it is; a `Write` answers the number of rows it affected. The instant
is the one that `julianday('now')` and `CURRENT_TIMESTAMP` read, once for a statement.
-/

namespace TittyBackend

open Numerals

variable (D : Deployment)

/-! ### Conditions on chat requests -/

/-- `julianday(text) > julianday('now')`; a null compares with nothing. -/
def After (now : ℤ) (text : Text) : Bool := (D.julianday text).any (D.juliandayNow now < ·)

/-- `julianday(text) <= julianday('now')`. -/
def Passed (now : ℤ) (text : Text) : Bool := (D.julianday text).any (· ≤ D.juliandayNow now)

/-- The condition under which a request counts and is listed. -/
def ChatRecord.Active (now : ℤ) (r : ChatRecord) : Bool :=
  After D now r.leaseExpiresAt && After D now r.hardExpiresAt

/-- The condition under which a request is swept. -/
def ChatRecord.Expired (now : ℤ) (r : ChatRecord) : Bool :=
  Passed D now r.leaseExpiresAt || Passed D now r.hardExpiresAt

lemma ChatRecord.not_expired_of_active {now : ℤ} {r : ChatRecord} (h : r.Active D now = true) :
    r.Expired D now = false := by
  simp only [Active, Bool.and_eq_true, After, Option.any_eq_true, decide_eq_true_eq] at h
  obtain ⟨⟨j, hj, hlt⟩, k, hk, hlt'⟩ := h
  simp only [Expired, Passed, hj, hk, Option.any_some, Bool.or_eq_false_iff,
    decide_eq_false_iff_not]
  omega

/-! ### Queries -/

inductive Select where
  | accountExists (accountId : Text)
  | challenge (challengeId accountId : Text)
  | publicKey (accountId : Text)
  | existingRequest (senderAccountId clientRequestId : Text)
  | activeCount (senderAccountId : Text)
  | recipient (identitty : Text)
  | blockExists (blockerAccountId blockedAccountId : Text)
  | lease (requestId leaseId senderAccountId : Text)
  | owner (requestId leaseId : Text)
  | blockTarget (identitty : Text)
  | blockCreatedAt (blockerAccountId blockedAccountId : Text)
  | identittyExists (identitty : Text)
  | accountByIdentitty (identitty : Text)
  | accountById (accountId : Text)
  | blockedIdentities (blockerAccountId : Text)
  | liveChatRequests (recipientAccountId : Text)
  deriving DecidableEq

structure ChallengeRow where
  challenge : List UInt8
  expiresAt : Text
  publicKey : List UInt8

structure ExistingRequestRow where
  requestId : Text
  leaseId : Text
  leaseExpiresAt : Text

structure LeaseRow where
  createdAt : Text
  hardExpiresAt : Text

structure BlockTargetRow where
  accountId : Text
  identitty : Text

structure BlockedIdentityRow where
  blockedAccountId : Text
  identitty : Text
  createdAt : Text

structure LiveChatRequestRow where
  requestId : Text
  senderAccountId : Text
  identitty : Text
  senderPublicKey : List UInt8
  encryptedPayload : List UInt8
  createdAt : Text
  leaseExpiresAt : Text

namespace Select

abbrev Ans : Select → Type
  | .accountExists .. | .blockExists .. | .identittyExists .. => Bool
  | .challenge .. => Option ChallengeRow
  | .publicKey .. => Option (List UInt8)
  | .existingRequest .. => Option ExistingRequestRow
  | .activeCount .. => ℕ
  | .recipient .. | .owner .. | .blockCreatedAt .. => Option Text
  | .lease .. => Option LeaseRow
  | .blockTarget .. => Option BlockTargetRow
  | .accountByIdentitty .. | .accountById .. => Option AccountRow
  | .blockedIdentities .. => List BlockedIdentityRow
  | .liveChatRequests .. => List LiveChatRequestRow

end Select

namespace Db

variable (d : Db)

def accountById (accountId : Text) : Option AccountRow :=
  d.accounts.rows.find? fun a => a.accountId = accountId

/-- `WHERE identitty = ?`, in the collation of the column. -/
def accountByIdentitty (identitty : Text) : Option AccountRow :=
  d.accounts.rows.find? fun a => nocase a.identitty identitty

/-- A block joined with the account it blocks. -/
def joinBlocked (b : BlockRecord) : Option BlockedIdentityRow :=
  (d.accountById b.blockedAccountId).map fun a => ⟨b.blockedAccountId, a.identitty, b.createdAt⟩

/-- A request joined with its sender. -/
def joinSender (r : ChatRecord) : Option LiveChatRequestRow :=
  (d.accountById r.senderAccountId).map fun a =>
    ⟨r.requestId, r.senderAccountId, a.identitty, r.senderPublicKey, r.encryptedPayload,
      r.createdAt, r.leaseExpiresAt⟩

end Db

def Select.eval (now : ℤ) (d : Db) : (q : Select) → q.Ans
  | .accountExists accountId => d.accounts.rows.any fun a => a.accountId = accountId
  | .challenge challengeId accountId =>
    (d.challenges.rows.find? fun c =>
      c.challengeId = challengeId ∧ c.accountId = accountId ∧ c.usedAt = none).bind fun c =>
        (d.accountById c.accountId).map fun a => ⟨c.challenge, c.expiresAt, a.publicKey⟩
  | .publicKey accountId => (d.accountById accountId).map AccountRow.publicKey
  | .existingRequest sender clientRequestId =>
    (d.chats.rows.find? fun r =>
      r.senderAccountId = sender ∧ r.clientRequestId = clientRequestId).map fun r =>
        ⟨r.requestId, r.leaseId, r.leaseExpiresAt⟩
  | .activeCount sender =>
    d.chats.rows.countP fun r => r.senderAccountId = sender ∧ r.Active D now
  | .recipient identitty => (d.accountByIdentitty identitty).map AccountRow.accountId
  | .blockExists blocker blocked =>
    d.blocks.rows.any fun b => b.blockerAccountId = blocker ∧ b.blockedAccountId = blocked
  | .lease requestId leaseId sender =>
    (d.chats.rows.find? fun r =>
      r.requestId = requestId ∧ r.leaseId = leaseId ∧ r.senderAccountId = sender).map fun r =>
        ⟨r.createdAt, r.hardExpiresAt⟩
  | .owner requestId leaseId =>
    (d.chats.rows.find? fun r => r.requestId = requestId ∧ r.leaseId = leaseId).map
      ChatRecord.senderAccountId
  | .blockTarget identitty =>
    (d.accountByIdentitty identitty).map fun a => ⟨a.accountId, a.identitty⟩
  | .blockCreatedAt blocker blocked =>
    (d.blocks.rows.find? fun b =>
      b.blockerAccountId = blocker ∧ b.blockedAccountId = blocked).map BlockRecord.createdAt
  | .identittyExists identitty => d.accounts.rows.any fun a => nocase a.identitty identitty
  | .accountByIdentitty identitty => d.accountByIdentitty identitty
  | .accountById accountId => d.accountById accountId
  | .blockedIdentities blocker =>
    ((d.blocks.rows.filter fun b => b.blockerAccountId = blocker).filterMap
      d.joinBlocked).insertionSort fun a b => ¬ b.createdAt < a.createdAt
  | .liveChatRequests account =>
    ((d.chats.rows.filter fun r => r.recipientAccountId = account ∧ r.Active D now).filterMap
      d.joinSender).insertionSort fun a b => ¬ b.createdAt < a.createdAt

namespace Select

variable {D} {now : ℤ} {d : Db} {row : ChatRecord}
  {sender clientRequestId requestId leaseId : Text}

lemma eval_existingRequest_eq_none (h : (d.chats.rows.find? fun r =>
    r.senderAccountId = sender ∧ r.clientRequestId = clientRequestId) = none) :
    eval D now d (.existingRequest sender clientRequestId) = none := by
  rw [eval, h, Option.map_none]

lemma eval_existingRequest_eq_some (h : (d.chats.rows.find? fun r =>
    r.senderAccountId = sender ∧ r.clientRequestId = clientRequestId) = some row) :
    eval D now d (.existingRequest sender clientRequestId) =
      some ⟨row.requestId, row.leaseId, row.leaseExpiresAt⟩ := by
  rw [eval, h, Option.map_some]

lemma eval_owner_eq_none (h : (d.chats.rows.find? fun r =>
    r.requestId = requestId ∧ r.leaseId = leaseId) = none) :
    eval D now d (.owner requestId leaseId) = none := by
  rw [eval, h, Option.map_none]

lemma eval_owner_eq_some (h : (d.chats.rows.find? fun r =>
    r.requestId = requestId ∧ r.leaseId = leaseId) = some row) :
    eval D now d (.owner requestId leaseId) = some row.senderAccountId := by
  rw [eval, h, Option.map_some]

end Select

/-- `ORDER BY` a text puts the rows in the order of that text. -/
lemma pairwise_insertionSort_text {ρ : Type} (key : ρ → Text) (rows : List ρ) :
    (rows.insertionSort fun a b => ¬ key b < key a).Pairwise fun a b => key a ≤ key b := by
  have htotal : Std.Total fun a b => ¬ key b < key a := ⟨fun a b => by
    rw [not_lt, not_lt]
    exact le_total _ _⟩
  have htrans : IsTrans ρ fun a b => ¬ key b < key a := ⟨fun a b c hab hbc => by
    rw [not_lt] at hab hbc ⊢
    exact hab.trans hbc⟩
  exact (List.pairwise_insertionSort _ rows).imp not_lt.mp

/-- The rows of a listing are the active requests to the account, each joined with its sender. -/
lemma Select.mem_liveChatRequests {now : ℤ} {d : Db} {accountId : Text} {row : LiveChatRequestRow}
    (h : row ∈ Select.eval D now d (.liveChatRequests accountId)) :
    ∃ r ∈ d.chats.rows, r.recipientAccountId = accountId ∧ r.Active D now = true ∧
      d.joinSender r = some row := by
  obtain ⟨r, hr, hrow⟩ := List.mem_filterMap.mp ((List.perm_insertionSort _ _).mem_iff.mp h)
  obtain ⟨hmem, hp⟩ := List.mem_filter.mp hr
  simp only [decide_eq_true_eq] at hp
  exact ⟨r, hmem, hp.1, hp.2, hrow⟩

/-! ### Updates -/

inductive SqlError where
  /-- A violated primary key, `UNIQUE` column or unique index. -/
  | unique
  | foreignKey
  /-- Anything else, such as a busy database. -/
  | failed
  deriving DecidableEq

inductive Write where
  | insertAccount (r : AccountRow)
  | insertChallenge (challengeId accountId : Text) (challenge : List UInt8) (expiresAt : Text)
  | useChallenge (usedAt challengeId : Text)
  | removeExpiredChallenges
  | insertChat (r : ChatRecord)
  | updateLease (leaseExpiresAt requestId : Text)
  | deleteChat (requestId leaseId : Text)
  | removeExpiredChats
  /-- `ON CONFLICT DO NOTHING`. -/
  | insertBlock (r : BlockRecord)
  | deleteChatsBetween (senderAccountId recipientAccountId : Text)
  | deleteBlock (blockerAccountId blockedAccountId : Text)
  deriving DecidableEq

namespace Write

def apply (now : ℤ) (d : Db) : Write → Except SqlError (ℕ × Db)
  | insertAccount r =>
    if h : d.accounts.Fresh r then .ok (1, d.addAccount r h) else .error .unique
  | insertChallenge challengeId accountId challenge expiresAt =>
    let r : ChallengeRecord := ⟨challengeId, accountId, challenge, expiresAt, none⟩
    if h : d.challenges.Fresh r then
      if ha : d.HasAccount r.accountId then .ok (1, d.addChallenge r h ha)
      else .error .foreignKey
    else .error .unique
  | useChallenge usedAt challengeId =>
    let p (c : ChallengeRecord) : Bool := c.challengeId = challengeId ∧ c.usedAt = none
    .ok (d.challenges.rows.countP p, d.useChallenges p usedAt)
  | removeExpiredChallenges =>
    let p (c : ChallengeRecord) : Bool :=
      c.expiresAt ≤ currentTimestamp now ∨ c.usedAt ≠ none
    .ok (d.challenges.rows.countP p, d.deleteChallenges p)
  | insertChat r =>
    if h : d.chats.Fresh r then
      if ha : d.HasAccount r.senderAccountId ∧ d.HasAccount r.recipientAccountId then
        .ok (1, d.addChat r h ha.1 ha.2)
      else .error .foreignKey
    else .error .unique
  | updateLease leaseExpiresAt requestId =>
    let p (r : ChatRecord) : Bool := r.requestId = requestId
    .ok (d.chats.rows.countP p, d.leaseChats p leaseExpiresAt)
  | deleteChat requestId leaseId =>
    let p (r : ChatRecord) : Bool := r.requestId = requestId ∧ r.leaseId = leaseId
    .ok (d.chats.rows.countP p, d.deleteChats p)
  | removeExpiredChats =>
    .ok (d.chats.rows.countP (ChatRecord.Expired D now), d.deleteChats (ChatRecord.Expired D now))
  | insertBlock r =>
    if h : d.blocks.Fresh r then
      if ha : d.HasAccount r.blockerAccountId ∧ d.HasAccount r.blockedAccountId then
        .ok (1, d.addBlock r h ha.1 ha.2)
      else .error .foreignKey
    else .ok (0, d)
  | deleteChatsBetween sender recipient =>
    let p (r : ChatRecord) : Bool := r.senderAccountId = sender ∧ r.recipientAccountId = recipient
    .ok (d.chats.rows.countP p, d.deleteChats p)
  | deleteBlock blocker blocked =>
    let p (b : BlockRecord) : Bool := b.blockerAccountId = blocker ∧ b.blockedAccountId = blocked
    .ok (d.blocks.rows.countP p, d.deleteBlocks p)

/-! ### What a write leaves of each table -/

def accountRows (rows : List AccountRow) : Write → List AccountRow
  | insertAccount r => rows ++ [r]
  | _ => rows

def challengeRows (now : ℤ) (rows : List ChallengeRecord) : Write → List ChallengeRecord
  | insertChallenge challengeId accountId challenge expiresAt =>
    rows ++ [⟨challengeId, accountId, challenge, expiresAt, none⟩]
  | useChallenge usedAt challengeId => rows.map fun c =>
    if c.challengeId = challengeId ∧ c.usedAt = none then { c with usedAt := some usedAt } else c
  | removeExpiredChallenges =>
    rows.filter fun c => ¬ (c.expiresAt ≤ currentTimestamp now ∨ c.usedAt ≠ none)
  | _ => rows

def chatRows (now : ℤ) (rows : List ChatRecord) : Write → List ChatRecord
  | insertChat r => rows ++ [r]
  | updateLease leaseExpiresAt requestId => rows.map fun r =>
    if r.requestId = requestId then { r with leaseExpiresAt := leaseExpiresAt } else r
  | deleteChat requestId leaseId =>
    rows.filter fun r => ¬ (r.requestId = requestId ∧ r.leaseId = leaseId)
  | removeExpiredChats => rows.filter fun r => !r.Expired D now
  | deleteChatsBetween sender recipient =>
    rows.filter fun r => ¬ (r.senderAccountId = sender ∧ r.recipientAccountId = recipient)
  | _ => rows

def blockRows (rows : List BlockRecord) : Write → List BlockRecord
  | insertBlock r => if ∀ b ∈ rows, ¬ b.Clash r then rows ++ [r] else rows
  | deleteBlock blocker blocked =>
    rows.filter fun b => ¬ (b.blockerAccountId = blocker ∧ b.blockedAccountId = blocked)
  | _ => rows

variable {D} {now : ℤ} {d d' : Db} {u : Write} {n : ℕ}

lemma accounts_apply (h : u.apply D now d = .ok (n, d')) :
    d'.accounts.rows = u.accountRows d.accounts.rows := by
  cases u
  case insertAccount r =>
    simp only [apply] at h
    split_ifs at h
    cases h
    rfl
  case insertChallenge | insertChat | insertBlock =>
    simp only [apply] at h
    split_ifs at h
    all_goals cases h; rfl
  all_goals cases h; rfl

lemma challenges_apply (h : u.apply D now d = .ok (n, d')) :
    d'.challenges.rows = u.challengeRows now d.challenges.rows := by
  cases u
  case insertChallenge =>
    simp only [apply] at h
    split_ifs at h
    cases h
    rfl
  case insertAccount | insertChat | insertBlock =>
    simp only [apply] at h
    split_ifs at h
    all_goals cases h; rfl
  case useChallenge =>
    cases h
    simp [Db.useChallenges, challengeRows]
  case removeExpiredChallenges =>
    cases h
    simp only [Db.deleteChallenges, challengeRows, Relational.Table.rows_delete, decide_not]
  all_goals cases h; rfl

lemma chats_apply (h : u.apply D now d = .ok (n, d')) :
    d'.chats.rows = u.chatRows D now d.chats.rows := by
  cases u
  case insertChat =>
    simp only [apply] at h
    split_ifs at h
    cases h
    rfl
  case insertAccount | insertChallenge | insertBlock =>
    simp only [apply] at h
    split_ifs at h
    all_goals cases h; rfl
  case updateLease =>
    cases h
    simp [Db.leaseChats, chatRows]
  case deleteChat | removeExpiredChats | deleteChatsBetween =>
    cases h
    simp [Db.deleteChats, chatRows]
  all_goals cases h; rfl

lemma blocks_apply (h : u.apply D now d = .ok (n, d')) :
    d'.blocks.rows = u.blockRows d.blocks.rows := by
  cases u
  case insertBlock =>
    simp only [apply] at h
    split_ifs at h with hf
    · cases h
      exact (if_pos hf).symm
    · cases h
      exact (if_neg hf).symm
  case insertAccount | insertChallenge | insertChat =>
    simp only [apply] at h
    split_ifs at h
    all_goals cases h; rfl
  case deleteBlock =>
    cases h
    simp [Db.deleteBlocks, blockRows]
  all_goals cases h; rfl

/-! ### Where a row comes from -/

lemma mem_accountRows {rows : List AccountRow} {r : AccountRow} :
    r ∈ u.accountRows rows ↔ r ∈ rows ∨ u = .insertAccount r := by
  cases u <;> simp [accountRows, eq_comm]

lemma mem_challengeRows {rows : List ChallengeRecord} {c : ChallengeRecord}
    (h : c ∈ u.challengeRows now rows) :
    (∃ c₀ ∈ rows, c = { c₀ with usedAt := c.usedAt } ∧ (c.usedAt = none → c₀.usedAt = none)) ∨
      u = .insertChallenge c.challengeId c.accountId c.challenge c.expiresAt := by
  cases u
  case insertChallenge =>
    rcases List.mem_append.mp h with h | h
    · exact .inl ⟨c, h, rfl, id⟩
    · obtain rfl := List.mem_singleton.mp h
      exact .inr rfl
  case useChallenge =>
    obtain ⟨c₀, hc₀, rfl⟩ := List.mem_map.mp h
    refine .inl ⟨c₀, hc₀, ?_⟩
    split_ifs with hp <;> simp
  case removeExpiredChallenges => exact .inl ⟨c, List.mem_of_mem_filter h, rfl, id⟩
  all_goals exact .inl ⟨c, h, rfl, id⟩

lemma mem_chatRows {rows : List ChatRecord} {r : ChatRecord} (h : r ∈ u.chatRows D now rows) :
    (∃ r₀ ∈ rows, r = { r₀ with leaseExpiresAt := r.leaseExpiresAt } ∧
      (r = r₀ ∨ u = .updateLease r.leaseExpiresAt r.requestId)) ∨ u = .insertChat r := by
  cases u
  case insertChat =>
    rcases List.mem_append.mp h with h | h
    · exact .inl ⟨r, h, rfl, .inl rfl⟩
    · obtain rfl := List.mem_singleton.mp h
      exact .inr rfl
  case updateLease leaseExpiresAt requestId =>
    obtain ⟨r₀, hr₀, rfl⟩ := List.mem_map.mp h
    refine .inl ⟨r₀, hr₀, ?_⟩
    split_ifs with hp
    · exact ⟨rfl, .inr (by rw [hp])⟩
    · exact ⟨rfl, .inl rfl⟩
  case deleteChat | removeExpiredChats | deleteChatsBetween =>
    exact .inl ⟨r, List.mem_of_mem_filter h, rfl, .inl rfl⟩
  all_goals exact .inl ⟨r, h, rfl, .inl rfl⟩

lemma mem_blockRows {rows : List BlockRecord} {b : BlockRecord} (h : b ∈ u.blockRows rows) :
    b ∈ rows ∨ u = .insertBlock b := by
  cases u
  case insertBlock r =>
    simp only [blockRows] at h
    split_ifs at h
    · rcases List.mem_append.mp h with h | h
      · exact .inl h
      · obtain rfl := List.mem_singleton.mp h
        exact .inr rfl
    · exact .inl h
  case deleteBlock => exact .inl (List.mem_of_mem_filter h)
  all_goals exact .inl h

/-- A challenge is marked once. -/
lemma unused_of_useChallenge {usedAt challengeId : Text}
    (h : (useChallenge usedAt challengeId).apply D now d = .ok (1, d')) :
    ∃ c ∈ d.challenges.rows, c.challengeId = challengeId ∧ c.usedAt = none := by
  simp only [apply, Except.ok.injEq, Prod.mk.injEq] at h
  have hpos := List.countP_pos_iff.mp (h.1 ▸ Nat.one_pos)
  simpa using hpos

lemma used_of_useChallenge {usedAt challengeId : Text} {c : ChallengeRecord}
    (h : (useChallenge usedAt challengeId).apply D now d = .ok (n, d'))
    (hc : c ∈ d'.challenges.rows) (hid : c.challengeId = challengeId) : c.usedAt ≠ none := by
  rw [challenges_apply h] at hc
  obtain ⟨c₀, -, rfl⟩ := List.mem_map.mp hc
  split_ifs at hid ⊢ with hp
  · simp
  · exact fun hnone => hp ⟨hid, hnone⟩

/-! ### What an insertion asks for -/

/-- The insertions that fail on a conflict. -/
def Inserts : Write → Prop
  | insertAccount _ | insertChallenge .. | insertChat _ => True
  | _ => False

lemma affected_of_inserts (h : u.apply D now d = .ok (n, d')) (hi : u.Inserts) : n = 1 := by
  cases u
  case insertAccount | insertChallenge | insertChat =>
    simp only [apply] at h
    split_ifs at h
    cases h
    rfl
  all_goals exact hi.elim

lemma fresh_of_insertAccount {r : AccountRow} (h : (insertAccount r).apply D now d = .ok (n, d')) :
    d.accounts.Fresh r := by
  simp only [apply] at h
  split_ifs at h with hf
  exact hf

lemma error_of_insertAccount {r : AccountRow} {e : SqlError}
    (h : (insertAccount r).apply D now d = .error e) :
    e = .unique ∧ ¬ d.accounts.Fresh r := by
  simp only [apply] at h
  split_ifs at h with hf
  exact ⟨(Except.error.inj h).symm, hf⟩

lemma fresh_of_insertChat {r : ChatRecord} (h : (insertChat r).apply D now d = .ok (n, d')) :
    d.chats.Fresh r := by
  simp only [apply] at h
  split_ifs at h with hf
  exact hf

lemma clash_of_insertChat {r : ChatRecord} {e : SqlError}
    (h : (insertChat r).apply D now d = .error e) (hs : d.HasAccount r.senderAccountId)
    (hr : d.HasAccount r.recipientAccountId) :
    e = .unique ∧ ∃ row ∈ d.chats.rows, row.Clash r := by
  simp only [apply] at h
  split_ifs at h with hf ha
  · exact absurd ⟨hs, hr⟩ ha
  · simp only [Relational.Table.Fresh, not_forall, not_not] at hf
    obtain ⟨row, hrow, hclash⟩ := hf
    exact ⟨(Except.error.inj h).symm, row, hrow, hclash⟩

end Write

end TittyBackend
