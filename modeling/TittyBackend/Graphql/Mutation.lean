import TittyBackend.Resolver

/-!
# Mutations
-/

namespace TittyBackend

open Numerals Programs Resolver

variable (D : Deployment)

def parseDatetime (value : Text) : Except ApiError ℤ :=
  match parseFromRfc3339 value with
  | some t => .ok t
  | none => .error .internal

lemma parseDatetime_eq_ok {value : Text} {t : ℤ} :
    parseDatetime value = .ok t ↔ parseFromRfc3339 value = some t := by
  rw [parseDatetime]
  cases parseFromRfc3339 value <;> simp

/-- `Uuid`'s `FromStr`, with `map_err(|_| ApiError::Internal)?`. -/
def parseUuid (value : Text) : Except ApiError Uuid :=
  match Uuid.parse value with
  | some u => .ok u
  | none => .error .internal

def decodePayload (value : Text) : Except ApiError (List UInt8) :=
  match Base64.decode value with
  | none => .error .invalidPayload
  | some payload =>
    if payload = [] ∨ 16 * 1024 < payload.length then .error .invalidPayload else .ok payload

lemma decodePayload_error {value : Text} {e : ApiError} (h : decodePayload value = .error e) :
    e = .invalidPayload := by
  rw [decodePayload] at h
  split at h
  · exact (Except.error.inj h).symm
  · split_ifs at h
    exact (Except.error.inj h).symm

def ExistingRequestRow.intoSubmission (row : ExistingRequestRow) :
    Except ApiError LiveChatRequestSubmission := do
  let requestId ← parseUuid row.requestId
  let leaseId ← parseUuid row.leaseId
  let leaseExpiresAt ← parseDatetime row.leaseExpiresAt
  return { requestId, accepted := true, leaseId, leaseExpiresAt }

lemma ExistingRequestRow.intoSubmission_cases (row : ExistingRequestRow) :
    row.intoSubmission = .error .internal ∨ ∃ x, row.intoSubmission = .ok x ∧
      Uuid.parse row.requestId = some x.requestId ∧ Uuid.parse row.leaseId = some x.leaseId ∧
        parseFromRfc3339 row.leaseExpiresAt = some x.leaseExpiresAt ∧ x.accepted = true := by
  simp only [intoSubmission, parseUuid, parseDatetime]
  cases hid : Uuid.parse row.requestId with
  | none => exact .inl rfl
  | some u =>
    cases hlease : Uuid.parse row.leaseId with
    | none => exact .inl rfl
    | some v =>
      cases he : parseFromRfc3339 row.leaseExpiresAt with
      | none => exact .inl rfl
      | some e => exact .inr ⟨_, rfl, rfl, rfl, rfl, rfl⟩

/-! ### Registration and login -/

/-- `auth::issue_session` -/
def issueSession (accountId : Text) : Resolver AuthenticationSession := do
  let now ← now
  let expiresAt ← addSeconds now D.sessionTtlSeconds
  let token ← orFail (D.encode (sessionClaims D accountId now expiresAt) D.jwtSecret) .internal
  return { token, expiresAt }

def registerAccount (ctx : Context) (input : RegisterAccountInput) : Resolver AccountIdentity := do
  enforce ctx "register".toList 5
  let identitty ← lift (normaliseIdentitty input.identitty)
  let publicKey ← orFail (Base64.decode input.publicKey) .invalidRegistration
  refuse (publicKey.length ≠ 32) .invalidRegistration
  refuse (fromPublicKey D.sha256 publicKey ≠ input.accountId) .invalidRegistration
  let createdAt ← now
  let result ← attempt
    (.insertAccount ⟨input.accountId, identitty, publicKey, toRfc3339 createdAt⟩)
  match result with
  | .ok _ =>
    return { accountId := input.accountId, identitty, publicKey := Base64.encode publicKey,
             createdAt }
  | .error .unique => fail .identittyTaken
  | .error _ => fail .internal

def requestChallenge (ctx : Context) (accountId : Text) : Resolver AuthenticationChallenge := do
  enforce ctx "challenge".toList 10
  let found ← fetch (.accountExists accountId)
  refuse (found = false) .accountNotFound
  let challengeId ← newUuid
  let challenge ← fillBytes
  let now ← now
  let expiresAt ← addSeconds now D.challengeTtlSeconds
  let _ ← execute
    (.insertChallenge challengeId.toText accountId challenge.toList (toRfc3339 expiresAt))
  return { challengeId, challenge := Base64.encode challenge.toList, expiresAt }

/-- The part of `authenticate` within its transaction. -/
def consumeChallenge (input : AuthenticateInput) : Resolver Unit := do
  let found ← fetchIn (.challenge input.challengeId.toText input.accountId)
  let row ← orFail found .invalidChallenge
  let expiresAt ← orFail (parseFromRfc3339 row.expiresAt) .invalidChallenge
  let checkedAt ← now
  refuse (expiresAt ≤ checkedAt) .invalidChallenge
  lift (verifySignature D row.publicKey row.challenge input.signature)
  let usedAt ← now
  let updated ← executeIn (.useChallenge (toRfc3339 usedAt) input.challengeId.toText)
  refuse (updated ≠ 1) .invalidChallenge

def authenticate (ctx : Context) (input : AuthenticateInput) : Resolver AuthenticationSession := do
  enforce ctx "authenticate".toList 10
  transaction (consumeChallenge D input)
  issueSession D input.accountId

/-! ### Chat requests -/

/-- The last part of a send: the request is stored unless its recipient is unknown, blocks the
sender or is the sender. -/
def insertUnlessHidden (recipient : Option Text) (r : Text → ChatRecord) (sender : Text) :
    Resolver Unit :=
  match recipient with
  | none => pure ()
  | some recipient => do
    let blocked ← fetch (.blockExists recipient sender)
    if blocked = false ∧ recipient ≠ sender then
      let _ ← execute (.insertChat (r recipient))
      pure ()
    else pure ()

/-- The part of `send_live_chat_request` after no request of the same client id was found. -/
def submitRequest (sender : Text) (publicKey payload : List UInt8) (identitty : Text)
    (clientRequestId : Uuid) : Resolver LiveChatRequestSubmission := do
  let active ← fetch (.activeCount sender)
  refuse (25 ≤ active) .activeRequestLimit
  let now ← now
  let leaseExpiresAt ← addSeconds now 90
  let hardExpiresAt ← addSeconds now (15 * 60)
  let requestId ← newUuid
  let leaseId ← newUuid
  let recipient ← fetch (.recipient identitty)
  -- Unknown, blocked and unavailable recipients get the same successful answer.
  insertUnlessHidden recipient (fun recipient =>
    { requestId := requestId.toText, leaseId := leaseId.toText,
      clientRequestId := clientRequestId.toText, senderAccountId := sender,
      recipientAccountId := recipient, senderPublicKey := publicKey, encryptedPayload := payload,
      createdAt := toRfc3339 now, leaseExpiresAt := toRfc3339 leaseExpiresAt,
      hardExpiresAt := toRfc3339 hardExpiresAt }) sender
  return { requestId, accepted := true, leaseId, leaseExpiresAt }

def sendLiveChatRequest (ctx : Context) (input : SendLiveChatRequestInput) :
    Resolver LiveChatRequestSubmission := do
  let sender ← authenticated ctx
  let payload ← lift (decodePayload input.encryptedPayload)
  let identitty ← lift (normaliseIdentitty input.recipientIdentitty)
  let _ ← execute .removeExpiredChats
  let found ← fetch (.publicKey sender)
  let publicKey ← orFail found .unauthorized
  let existing ← fetch (.existingRequest sender input.clientRequestId.toText)
  match existing with
  | some existing => lift existing.intoSubmission
  | none => submitRequest sender publicKey payload identitty input.clientRequestId

def renewLiveChatRequest (ctx : Context) (input : RenewLiveChatRequestInput) :
    Resolver LiveChatRequestLease := do
  let sender ← authenticated ctx
  let _ ← execute .removeExpiredChats
  let found ← fetch (.lease input.requestId.toText input.leaseId.toText sender)
  let row ← orFail found .invalidChatRequest
  let hardExpiresAt ← lift (parseDatetime row.hardExpiresAt)
  let now ← now
  let leaseEnd ← addSeconds now 90
  let expiresAt := min leaseEnd hardExpiresAt
  let _ ← execute (.updateLease (toRfc3339 expiresAt) input.requestId.toText)
  return { requestId := input.requestId, leaseId := input.leaseId, expiresAt }

def cancelLiveChatRequest (ctx : Context) (input : CancelLiveChatRequestInput) : Resolver Bool := do
  let sender ← authenticated ctx
  let owner ← fetch (.owner input.requestId.toText input.leaseId.toText)
  match owner with
  | none => return true
  | some owner =>
    refuse (owner ≠ sender) .invalidChatRequest
    let _ ← execute (.deleteChat input.requestId.toText input.leaseId.toText)
    return true

/-! ### Blocks -/

def blockIdentity (ctx : Context) (input : BlockIdentityInput) : Resolver BlockedIdentity := do
  let blocker ← authenticated ctx
  let identitty ← lift (normaliseIdentitty input.identitty)
  let found ← fetch (.blockTarget identitty)
  let target ← orFail found .accountNotFound
  refuse (target.accountId = blocker) .selfBlock
  let blockedAt ← now
  let _ ← execute (.insertBlock ⟨blocker, target.accountId, toRfc3339 blockedAt⟩)
  let _ ← execute (.deleteChatsBetween target.accountId blocker)
  let stored ← fetch (.blockCreatedAt blocker target.accountId)
  let createdAt ← orFail stored .internal
  let blockedAt ← lift (parseDatetime createdAt)
  return { accountId := target.accountId, identitty := target.identitty, blockedAt }

def unblockIdentity (ctx : Context) (input : UnblockIdentityInput) : Resolver Bool := do
  let blocker ← authenticated ctx
  let _ ← execute (.deleteBlock blocker input.accountId)
  return true

end TittyBackend
