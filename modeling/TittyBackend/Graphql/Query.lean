import TittyBackend.Graphql.Mutation

/-!
# Queries
-/

namespace TittyBackend

open Numerals Programs Resolver

def AccountRow.toIdentity (row : AccountRow) : Except ApiError AccountIdentity := do
  let createdAt ← parseDatetime row.createdAt
  return { accountId := row.accountId, identitty := row.identitty,
           publicKey := Base64.encode row.publicKey, createdAt }

def BlockedIdentityRow.intoModel (row : BlockedIdentityRow) : Except ApiError BlockedIdentity := do
  let blockedAt ← parseDatetime row.createdAt
  return { accountId := row.blockedAccountId, identitty := row.identitty, blockedAt }

def LiveChatRequestRow.intoModel (row : LiveChatRequestRow) : Except ApiError LiveChatRequest := do
  let requestId ← parseUuid row.requestId
  let createdAt ← parseDatetime row.createdAt
  let expiresAt ← parseDatetime row.leaseExpiresAt
  return { requestId, senderAccountId := row.senderAccountId, senderIdentitty := row.identitty,
           senderPublicKey := Base64.encode row.senderPublicKey,
           encryptedPayload := Base64.encode row.encryptedPayload, createdAt, expiresAt }

/-- `collect` of the results: one for each row, in order. -/
lemma forall₂_of_mapM {α β ε : Type} {f : α → Except ε β} {rows : List α} {out : List β}
    (h : rows.mapM f = .ok out) : List.Forall₂ (fun a b => f a = .ok b) rows out := by
  induction rows generalizing out with
  | nil =>
    cases h
    exact .nil
  | cons a rows ih =>
    rw [List.mapM_cons] at h
    cases ha : f a with
    | error e => rw [ha] at h; cases h
    | ok b =>
      cases hrows : rows.mapM f with
      | error e => rw [ha, hrows] at h; cases h
      | ok bs =>
        rw [ha, hrows] at h
        cases h
        exact .cons ha (ih hrows)

lemma exists_of_mem_mapM {α β ε : Type} {f : α → Except ε β} {rows : List α} {out : List β}
    (h : rows.mapM f = .ok out) {b : β} (hb : b ∈ out) : ∃ a ∈ rows, f a = .ok b := by
  have hall := forall₂_of_mapM h
  clear h
  induction hall with
  | nil => cases hb
  | @cons a b' rows out hab _ ih =>
    rcases List.mem_cons.mp hb with rfl | hb
    · exact ⟨a, List.mem_cons_self, hab⟩
    · obtain ⟨a', ha', hab'⟩ := ih hb
      exact ⟨a', List.mem_cons_of_mem _ ha', hab'⟩

/-- `collect` of results that are all there. -/
lemma mapM_eq_map {α β ε : Type} {f : α → Except ε β} {g : α → β} {rows : List α}
    (h : ∀ a ∈ rows, f a = .ok (g a)) : rows.mapM f = .ok (rows.map g) := by
  induction rows with
  | nil => rfl
  | cons a rows ih =>
    obtain ⟨ha, hrows⟩ := List.forall_mem_cons.mp h
    rw [List.mapM_cons, ha, ih hrows]
    rfl

lemma LiveChatRequestRow.intoModel_eq_ok {row : LiveChatRequestRow} {x : LiveChatRequest}
    (h : row.intoModel = .ok x) :
    Uuid.parse row.requestId = some x.requestId ∧ x.senderAccountId = row.senderAccountId ∧
      x.senderIdentitty = row.identitty ∧ x.senderPublicKey = Base64.encode row.senderPublicKey ∧
      x.encryptedPayload = Base64.encode row.encryptedPayload ∧
      parseFromRfc3339 row.createdAt = some x.createdAt ∧
      parseFromRfc3339 row.leaseExpiresAt = some x.expiresAt := by
  simp only [intoModel, parseUuid, parseDatetime] at h
  cases hid : Uuid.parse row.requestId with
  | none => rw [hid] at h; cases h
  | some u =>
    cases hc : parseFromRfc3339 row.createdAt with
    | none => rw [hid, hc] at h; cases h
    | some c =>
      cases he : parseFromRfc3339 row.leaseExpiresAt with
      | none => rw [hid, hc, he] at h; cases h
      | some e =>
        rw [hid, hc, he] at h
        cases h
        exact ⟨rfl, rfl, rfl, rfl, rfl, rfl, rfl⟩

/-! ### Accounts -/

def findAccount (column value : Text) : Resolver (Option AccountIdentity) :=
  if column = "identitty".toList then do
    let row ← fetch (.accountByIdentitty value)
    lift (row.mapM AccountRow.toIdentity)
  else if column = "account_id".toList then do
    let row ← fetch (.accountById value)
    lift (row.mapM AccountRow.toIdentity)
  else fail .internal

def isIdentittyAvailable (identitty : Text) : Resolver Bool := do
  let identitty ← lift (normaliseIdentitty identitty)
  let found ← fetch (.identittyExists identitty)
  return !found

def account (identitty : Text) : Resolver (Option AccountIdentity) := do
  let identitty ← lift (normaliseIdentitty identitty)
  findAccount "identitty".toList identitty

def accountById (accountId : Text) : Resolver (Option AccountIdentity) :=
  findAccount "account_id".toList accountId

def me (ctx : Context) : Resolver (Option AccountIdentity) := do
  let account ← authenticated ctx
  findAccount "account_id".toList account

/-! ### Direct chat -/

def blockedIdentities (ctx : Context) : Resolver (List BlockedIdentity) := do
  let account ← authenticated ctx
  let rows ← fetch (.blockedIdentities account)
  lift (rows.mapM BlockedIdentityRow.intoModel)

def liveChatRequests (ctx : Context) : Resolver (List LiveChatRequest) := do
  let account ← authenticated ctx
  let _ ← execute .removeExpiredChats
  let rows ← fetch (.liveChatRequests account)
  lift (rows.mapM LiveChatRequestRow.intoModel)

/-! ### Clean-up -/

/-- `remove_expired_live_chat_requests`, as the background task runs it; an error is only
logged. -/
def cleanupTick : Resolver Unit := do
  let _ ← attempt .removeExpiredChats
  return ()

/-- The clean-up of `main` before the service listens; an error ends it. -/
def startup : Resolver Unit := do
  let _ ← execute .removeExpiredChallenges
  let _ ← execute .removeExpiredChats
  return ()

end TittyBackend
