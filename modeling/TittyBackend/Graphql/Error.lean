import TittyBackend.Data.Identity

/-!
# Errors of the API

The texts and codes of `ApiError`, and the two ways from it to an error of async-graphql.
-/

namespace TittyBackend

open Numerals

/-! ### Texts and codes -/

namespace ApiError

/-- `Display` -/
def message : ApiError → Text
  | invalidIdentitty => "The identiTTY is invalid".toList
  | identittyTaken => "The identiTTY is already taken".toList
  | invalidRegistration => "The account registration is invalid".toList
  | accountNotFound => "The account was not found".toList
  | invalidChallenge => "The authentication challenge is invalid or expired".toList
  | authenticationFailed => "Authentication failed".toList
  | unauthorized => "Authentication is required".toList
  | rateLimited => "Too many requests".toList
  | invalidPayload => "The encrypted payload is invalid or too large".toList
  | activeRequestLimit => "The request limit has been reached".toList
  | invalidChatRequest => "The chat request is invalid or expired".toList
  | selfBlock => "The account cannot block itself".toList
  | internal => "An internal service error occurred".toList

def code : ApiError → Text
  | invalidIdentitty => "INVALID_IDENTITTY".toList
  | identittyTaken => "IDENTITTY_TAKEN".toList
  | invalidRegistration => "INVALID_REGISTRATION".toList
  | accountNotFound => "ACCOUNT_NOT_FOUND".toList
  | invalidChallenge => "INVALID_CHALLENGE".toList
  | authenticationFailed => "AUTHENTICATION_FAILED".toList
  | unauthorized => "UNAUTHORIZED".toList
  | rateLimited => "RATE_LIMITED".toList
  | invalidPayload => "INVALID_PAYLOAD".toList
  | activeRequestLimit => "ACTIVE_REQUEST_LIMIT".toList
  | invalidChatRequest => "INVALID_CHAT_REQUEST".toList
  | selfBlock => "SELF_BLOCK".toList
  | internal => "INTERNAL_ERROR".toList

end ApiError

/-! ### Errors of async-graphql -/

/-- `async_graphql::Error` -/
structure GraphqlError where
  message : Text
  extensions : List (Text × Text)
  deriving DecidableEq

namespace GraphqlError

/-- `Error::new` -/
def new (message : Text) : GraphqlError := ⟨message, []⟩

/-- `extensions.code` as the client reads it. -/
def code (g : GraphqlError) : Option Text := g.extensions.lookup "code".toList

/-- `impl<T: Display> From<T> for Error` -/
def ofDisplay (text : Text) : GraphqlError := new text

end GraphqlError

/-- `ErrorExtensions::extend` -/
def ApiError.extend (e : ApiError) : GraphqlError :=
  { GraphqlError.new e.message with extensions := [("code".toList, e.code)] }

/-- How a resolver turns an error of the API into its own. -/
inductive Conversion where
  /-- `?` on a result with an `ApiError`, which calls `From::from`. -/
  | question
  /-- `.into()`, which is `From::from` of the other side. -/
  | into
  /-- `map_err(async_graphql::Error::from)` -/
  | mapErrFrom
  /-- `ok_or(e)?` -/
  | okOr
  deriving DecidableEq

def Conversion.carry : Conversion → ApiError → GraphqlError
  | question, e | into, e | mapErrFrom, e | okOr, e => .ofDisplay e.message

@[simp] lemma ApiError.code_extend (e : ApiError) : e.extend.code = some e.code := by
  simp [extend, GraphqlError.code]

/-- No conversion keeps the code. -/
@[simp] lemma Conversion.code_carry (via : Conversion) (e : ApiError) :
    (via.carry e).code = none := by
  cases via <;> rfl

/-- Every conversion keeps the message. -/
lemma Conversion.message_carry (via : Conversion) (e : ApiError) :
    (via.carry e).message = e.extend.message := by
  cases via <;> rfl

end TittyBackend
