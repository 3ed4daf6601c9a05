import TittyBackend.Data.DateTime
import TittyBackend.Data.Identity
import TittyBackend.Data.Uuid

/-!
# Inputs and outputs of the API

A `Base64` scalar is the text it carries. The texts of outputs are kept as texts.
-/

namespace TittyBackend

open Numerals

/-! ### Accounts and sessions -/

structure AccountIdentity where
  accountId : Text
  identitty : Text
  publicKey : Text
  createdAt : ℤ
  deriving DecidableEq

structure RegisterAccountInput where
  identitty : Text
  accountId : Text
  publicKey : Text
  deriving DecidableEq

structure AuthenticationChallenge where
  challengeId : Uuid
  challenge : Text
  expiresAt : ℤ
  deriving DecidableEq

structure AuthenticateInput where
  accountId : Text
  challengeId : Uuid
  signature : Text
  deriving DecidableEq

structure AuthenticationSession where
  token : Text
  expiresAt : ℤ
  deriving DecidableEq

structure SessionClaims where
  sub : Text
  iss : Text
  iat : ℕ
  exp : ℕ
  deriving DecidableEq

/-! ### Direct chat -/

structure BlockedIdentity where
  accountId : Text
  identitty : Text
  blockedAt : ℤ
  deriving DecidableEq

structure LiveChatRequest where
  requestId : Uuid
  senderAccountId : Text
  senderIdentitty : Text
  senderPublicKey : Text
  encryptedPayload : Text
  createdAt : ℤ
  expiresAt : ℤ
  deriving DecidableEq

structure LiveChatRequestSubmission where
  requestId : Uuid
  accepted : Bool
  leaseId : Uuid
  leaseExpiresAt : ℤ
  deriving DecidableEq

structure LiveChatRequestLease where
  requestId : Uuid
  leaseId : Uuid
  expiresAt : ℤ
  deriving DecidableEq

structure SendLiveChatRequestInput where
  recipientIdentitty : Text
  clientRequestId : Uuid
  encryptedPayload : Text
  deriving DecidableEq

structure RenewLiveChatRequestInput where
  requestId : Uuid
  leaseId : Uuid
  deriving DecidableEq

structure CancelLiveChatRequestInput where
  requestId : Uuid
  leaseId : Uuid
  deriving DecidableEq

structure BlockIdentityInput where
  identitty : Text
  deriving DecidableEq

structure UnblockIdentityInput where
  accountId : Text
  deriving DecidableEq

end TittyBackend
