import TittyBackend.Data.Identity
import TittyBackend.Lib.Table

/-!
# The tables

Records hold the texts and blobs that the service binds. Two of a table clash when a primary
key, a `UNIQUE` column or a unique index has one value for both. A value of `Db` satisfies every
unique and foreign key, so no state that SQLite would refuse can be built.
-/

namespace TittyBackend

open Numerals Relational

structure AccountRow where
  accountId : Text
  identitty : Text
  publicKey : List UInt8
  createdAt : Text
  deriving DecidableEq

structure ChallengeRecord where
  challengeId : Text
  accountId : Text
  challenge : List UInt8
  expiresAt : Text
  usedAt : Option Text
  deriving DecidableEq

structure BlockRecord where
  blockerAccountId : Text
  blockedAccountId : Text
  createdAt : Text
  deriving DecidableEq

structure ChatRecord where
  requestId : Text
  leaseId : Text
  clientRequestId : Text
  senderAccountId : Text
  recipientAccountId : Text
  senderPublicKey : List UInt8
  encryptedPayload : List UInt8
  createdAt : Text
  leaseExpiresAt : Text
  hardExpiresAt : Text
  deriving DecidableEq

/-! ### Keys -/

def AccountRow.Clash (a b : AccountRow) : Prop :=
  a.accountId = b.accountId ∨ nocase a.identitty b.identitty ∨ a.publicKey = b.publicKey

def ChallengeRecord.Clash (a b : ChallengeRecord) : Prop := a.challengeId = b.challengeId

def BlockRecord.Clash (a b : BlockRecord) : Prop :=
  a.blockerAccountId = b.blockerAccountId ∧ a.blockedAccountId = b.blockedAccountId

def ChatRecord.Clash (a b : ChatRecord) : Prop :=
  a.requestId = b.requestId ∨ a.leaseId = b.leaseId ∨
    (a.senderAccountId = b.senderAccountId ∧ a.clientRequestId = b.clientRequestId)

instance : DecidableRel AccountRow.Clash := fun _ _ => inferInstanceAs (Decidable (_ ∨ _ ∨ _))
instance : DecidableRel ChallengeRecord.Clash := fun _ _ => inferInstanceAs (Decidable (_ = _))
instance : DecidableRel BlockRecord.Clash := fun _ _ => inferInstanceAs (Decidable (_ ∧ _))
instance : DecidableRel ChatRecord.Clash := fun _ _ => inferInstanceAs (Decidable (_ ∨ _ ∨ _))

instance : Std.Symm AccountRow.Clash :=
  ⟨fun _ _ h => h.imp Eq.symm (Or.imp Eq.symm Eq.symm)⟩
instance : Std.Symm ChallengeRecord.Clash := ⟨fun _ _ h => Eq.symm h⟩
instance : Std.Symm BlockRecord.Clash := ⟨fun _ _ h => h.imp Eq.symm Eq.symm⟩
instance : Std.Symm ChatRecord.Clash :=
  ⟨fun _ _ h => h.imp Eq.symm (Or.imp Eq.symm (And.imp Eq.symm Eq.symm))⟩

/-! ### The database -/

structure Db where
  accounts : Table AccountRow AccountRow.Clash
  challenges : Table ChallengeRecord ChallengeRecord.Clash
  blocks : Table BlockRecord BlockRecord.Clash
  chats : Table ChatRecord ChatRecord.Clash
  challenge_account : ∀ c ∈ challenges.rows, ∃ a ∈ accounts.rows, a.accountId = c.accountId
  block_accounts : ∀ b ∈ blocks.rows, (∃ a ∈ accounts.rows, a.accountId = b.blockerAccountId) ∧
    ∃ a ∈ accounts.rows, a.accountId = b.blockedAccountId
  chat_accounts : ∀ r ∈ chats.rows, (∃ a ∈ accounts.rows, a.accountId = r.senderAccountId) ∧
    ∃ a ∈ accounts.rows, a.accountId = r.recipientAccountId

namespace Db

/-- The database before the first registration. -/
def empty : Db where
  accounts := .empty
  challenges := .empty
  blocks := .empty
  chats := .empty
  challenge_account := by simp
  block_accounts := by simp
  chat_accounts := by simp

@[ext] lemma ext {d e : Db} (ha : d.accounts = e.accounts) (hc : d.challenges = e.challenges)
    (hb : d.blocks = e.blocks) (hr : d.chats = e.chats) : d = e := by
  cases d
  cases e
  congr

variable (d : Db)

def HasAccount (accountId : Text) : Prop := ∃ a ∈ d.accounts.rows, a.accountId = accountId

instance (accountId : Text) : Decidable (d.HasAccount accountId) :=
  inferInstanceAs (Decidable (∃ a ∈ d.accounts.rows, a.accountId = accountId))

/-! ### Changes that keep every key -/

def addAccount (r : AccountRow) (h : d.accounts.Fresh r) : Db :=
  { d with
    accounts := d.accounts.add r h
    challenge_account := fun c hc => by
      obtain ⟨a, ha, h⟩ := d.challenge_account c hc
      exact ⟨a, List.mem_append_left _ ha, h⟩
    block_accounts := fun b hb => by
      obtain ⟨⟨a, ha, h⟩, a', ha', h'⟩ := d.block_accounts b hb
      exact ⟨⟨a, List.mem_append_left _ ha, h⟩, a', List.mem_append_left _ ha', h'⟩
    chat_accounts := fun r hr => by
      obtain ⟨⟨a, ha, h⟩, a', ha', h'⟩ := d.chat_accounts r hr
      exact ⟨⟨a, List.mem_append_left _ ha, h⟩, a', List.mem_append_left _ ha', h'⟩ }

def addChallenge (r : ChallengeRecord) (h : d.challenges.Fresh r) (ha : d.HasAccount r.accountId) :
    Db :=
  { d with
    challenges := d.challenges.add r h
    challenge_account := fun c hc => by
      rcases List.mem_append.mp hc with hc | hc
      · exact d.challenge_account c hc
      · exact List.mem_singleton.mp hc ▸ ha }

/-- Mark the challenges that satisfy `p` as used. -/
def useChallenges (p : ChallengeRecord → Bool) (usedAt : Text) : Db :=
  { d with
    challenges := d.challenges.update p (fun c => { c with usedAt := some usedAt })
      fun _ _ => ⟨Iff.rfl, Iff.rfl⟩
    challenge_account := fun c hc => by
      obtain ⟨c', hc', rfl⟩ := List.mem_map.mp hc
      have h := d.challenge_account c' hc'
      split_ifs <;> exact h }

def deleteChallenges (p : ChallengeRecord → Bool) : Db :=
  { d with
    challenges := d.challenges.delete p
    challenge_account := fun c hc => d.challenge_account c (List.mem_of_mem_filter hc) }

def addBlock (r : BlockRecord) (h : d.blocks.Fresh r) (hr : d.HasAccount r.blockerAccountId)
    (hd : d.HasAccount r.blockedAccountId) : Db :=
  { d with
    blocks := d.blocks.add r h
    block_accounts := fun b hb => by
      rcases List.mem_append.mp hb with hb | hb
      · exact d.block_accounts b hb
      · exact List.mem_singleton.mp hb ▸ ⟨hr, hd⟩ }

def deleteBlocks (p : BlockRecord → Bool) : Db :=
  { d with
    blocks := d.blocks.delete p
    block_accounts := fun b hb => d.block_accounts b (List.mem_of_mem_filter hb) }

def addChat (r : ChatRecord) (h : d.chats.Fresh r) (hs : d.HasAccount r.senderAccountId)
    (hr : d.HasAccount r.recipientAccountId) : Db :=
  { d with
    chats := d.chats.add r h
    chat_accounts := fun c hc => by
      rcases List.mem_append.mp hc with hc | hc
      · exact d.chat_accounts c hc
      · exact List.mem_singleton.mp hc ▸ ⟨hs, hr⟩ }

/-- Give the chat requests that satisfy `p` another end of their lease. -/
def leaseChats (p : ChatRecord → Bool) (leaseExpiresAt : Text) : Db :=
  { d with
    chats := d.chats.update p (fun r => { r with leaseExpiresAt := leaseExpiresAt })
      fun _ _ => ⟨Iff.rfl, Iff.rfl⟩
    chat_accounts := fun r hr => by
      obtain ⟨r', hr', rfl⟩ := List.mem_map.mp hr
      have h := d.chat_accounts r' hr'
      split_ifs <;> exact h }

def deleteChats (p : ChatRecord → Bool) : Db :=
  { d with
    chats := d.chats.delete p
    chat_accounts := fun r hr => d.chat_accounts r (List.mem_of_mem_filter hr) }

end Db

end TittyBackend
