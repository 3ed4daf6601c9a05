import TittyBackend.Data.Models
import TittyBackend.Lib.Base64

/-!
# Signatures and sessions

The libraries under the service are given as functions: SHA-256, Ed25519 and JSON web tokens,
and the `julianday` of SQLite, in milliseconds, which the statements on chat requests use.
-/

namespace TittyBackend

open Numerals

structure Config where
  jwtSecret : Text
  jwtIssuer : Text
  sessionTtlSeconds : ℤ
  challengeTtlSeconds : ℤ

structure Libraries where
  sha256 : List UInt8 → List UInt8
  /-- Whether `VerifyingKey::from_bytes` accepts 32 bytes. -/
  isVerifyingKey : List UInt8 → Bool
  /-- `VerifyingKey::verify`: the key, the message and the 64 bytes of the signature. -/
  verify : List UInt8 → List UInt8 → List UInt8 → Bool
  /-- `jsonwebtoken::encode` under the secret. -/
  encode : SessionClaims → Text → Option Text
  /-- `jsonwebtoken::decode` of a token under the secret, for an issuer, at an instant. -/
  decode : Text → Text → Text → ℤ → Option SessionClaims
  /-- `julianday(text)`, or null. -/
  julianday : Text → Option ℤ
  /-- `julianday('now')`. -/
  juliandayNow : ℤ → ℤ

/-- What the service runs with. -/
structure Deployment extends Config, Libraries

variable (D : Deployment)

def verifySignature (publicKey challenge : List UInt8) (signatureBase64 : Text) :
    Except ApiError Unit :=
  if publicKey.length ≠ 32 then .error .authenticationFailed
  else if ¬ D.isVerifyingKey publicKey then .error .authenticationFailed
  else
    match Base64.decode signatureBase64 with
    | none => .error .authenticationFailed
    | some signature =>
      if signature.length ≠ 64 then .error .authenticationFailed
      else if D.verify publicKey challenge signature then .ok ()
      else .error .authenticationFailed

/-- The signature text is Base64 of 64 bytes that verify over the challenge under the key. -/
def Verifies (publicKey challenge : List UInt8) (signatureBase64 : Text) : Prop :=
  publicKey.length = 32 ∧ D.isVerifyingKey publicKey = true ∧
    ∃ signature, Base64.decode signatureBase64 = some signature ∧ signature.length = 64 ∧
      D.verify publicKey challenge signature = true

variable {D}

lemma verifySignature_eq_ok {publicKey challenge : List UInt8} {signatureBase64 : Text} {u : Unit} :
    verifySignature D publicKey challenge signatureBase64 = .ok u ↔
      Verifies D publicKey challenge signatureBase64 := by
  rw [verifySignature, Verifies]
  cases hsig : Base64.decode signatureBase64 with
  | none => simp
  | some signature =>
    simp only [Option.some.injEq, exists_eq_left']
    split_ifs <;> simp_all

variable (D)

/-- The cast of an `i64` to a `usize` of 64 bits. -/
def asUsize (n : ℤ) : ℕ := (n % 2 ^ 64).toNat

/-- The claims of the session that `issue_session` encodes at `now`. -/
def sessionClaims (accountId : Text) (now expiresAt : ℤ) : SessionClaims where
  sub := accountId
  iss := D.jwtIssuer
  iat := asUsize (now / DateTime.nanosPerSecond)
  exp := asUsize (expiresAt / DateTime.nanosPerSecond)

/-- `authenticate_bearer` at the instant `now`. -/
def authenticateBearer (now : ℤ) (authorization : Option Text) :
    Except ApiError (Option Text) :=
  match authorization with
  | none => .ok none
  | some value =>
    if ¬ "Bearer ".toList <+: value ∨ value.drop 7 = [] then .error .unauthorized
    else
      match D.decode (value.drop 7) D.jwtSecret D.jwtIssuer now with
      | none => .error .unauthorized
      | some claims => .ok (some claims.sub)

end TittyBackend
