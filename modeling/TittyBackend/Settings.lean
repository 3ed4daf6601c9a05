import TittyBackend.Auth

/-!
# Configuration

`Config::from_env`: what the service reads from its environment, and what it refuses.
-/

namespace TittyBackend

open Numerals

/-- The fields of `config::Config`; those that sessions need are in `Config`. -/
structure Settings extends Config where
  bindAddress : Text
  databaseUrl : Text
  maxBodyBytes : ℕ
  logGraphqlBody : Bool
  allowedOrigin : Text

/-- The variables that are set, and are Unicode. -/
abbrev Environment := Text → Option Text

def required (env : Environment) (name : Text) : Except Text Text :=
  match env name with
  | some value => .ok value
  | none => .error ("missing required environment variable ".toList ++ name)

def optional (env : Environment) (name default : Text) : Text := (env name).getD default

/-! ### `str::parse` -/

def parseDigits (s : Text) : Option ℕ := if s = [] then none else decimal.read s

/-- Within the 64 bits of an `i64`. -/
def IsI64 (n : ℤ) : Prop := -2 ^ 63 ≤ n ∧ n < 2 ^ 63

instance (n : ℤ) : Decidable (IsI64 n) := inferInstanceAs (Decidable (_ ∧ _))

def parseI64 (s : Text) : Option ℤ :=
  let n : Option ℤ := match s with
    | '-' :: s => (parseDigits s).map fun n => -n
    | '+' :: s => (parseDigits s).map Int.ofNat
    | s => (parseDigits s).map Int.ofNat
  n.filter fun n => IsI64 n

/-- A `usize` has 64 bits. -/
def parseUsize (s : Text) : Option ℕ :=
  let n := match s with
    | '+' :: s => parseDigits s
    | s => parseDigits s
  n.filter fun n => n < 2 ^ 64

def parseBool (s : Text) : Option Bool :=
  if s = "true".toList then some true
  else if s = "false".toList then some false
  else none

/-- `parse`, for a type whose default prints as `default`. -/
def parse {α : Type} (fromStr : Text → Option α) (env : Environment) (name default : Text) :
    Except Text α :=
  match fromStr (optional env name default) with
  | some a => .ok a
  | none => .error (name ++ " is invalid".toList)

/-! ### `from_env` -/

def Settings.fromEnv (env : Environment) : Except Text Settings := do
  let jwtSecret ← required env "TITTY_JWT_SECRET".toList
  if byteLength jwtSecret < 32 then throw "TITTY_JWT_SECRET must be at least 32 bytes".toList
  else
    let sessionTtlSeconds ← parse parseI64 env "TITTY_SESSION_TTL_SECONDS".toList "3600".toList
    let challengeTtlSeconds ← parse parseI64 env "TITTY_CHALLENGE_TTL_SECONDS".toList "180".toList
    let maxBodyBytes ← parse parseUsize env "TITTY_MAX_BODY_BYTES".toList "65536".toList
    let logGraphqlBody ← parse parseBool env "TITTY_LOG_GRAPHQL_BODY".toList "false".toList
    let allowedOrigin ← required env "TITTY_ALLOWED_ORIGIN".toList
    return { bindAddress := optional env "TITTY_BIND_ADDRESS".toList "127.0.0.1:8080".toList
             databaseUrl := optional env "TITTY_DATABASE_URL".toList
               "sqlite://data/identity.db?mode=rwc".toList
             jwtSecret
             jwtIssuer := optional env "TITTY_JWT_ISSUER".toList "titty-identity".toList
             sessionTtlSeconds, challengeTtlSeconds, maxBodyBytes, logGraphqlBody, allowedOrigin }

lemma parse_eq_ok {α : Type} {fromStr : Text → Option α} {env : Environment} {name default : Text}
    {a : α} :
    parse fromStr env name default = .ok a ↔ fromStr (optional env name default) = some a := by
  rw [parse]
  cases fromStr (optional env name default) <;> simp

lemma isI64_of_parseI64 {s : Text} {n : ℤ} (h : parseI64 s = some n) : IsI64 n := by
  obtain ⟨-, hn⟩ := Option.filter_eq_some_iff.mp h
  exact of_decide_eq_true hn

lemma except_bind_eq_ok {ε α β : Type} {x : Except ε α} {f : α → Except ε β} {b : β} :
    x >>= f = .ok b ↔ ∃ a, x = .ok a ∧ f a = .ok b := by
  cases x with
  | error e => exact ⟨fun h => (nomatch h), fun ⟨_, h, _⟩ => (nomatch h)⟩
  | ok a => exact ⟨fun h => ⟨a, rfl, h⟩, fun ⟨_, h, hf⟩ => Except.ok.inj h ▸ hf⟩

/-- What is known of an accepted configuration: any lifetimes of 64 bits are. -/
theorem Settings.of_fromEnv {env : Environment} {c : Settings} (h : Settings.fromEnv env = .ok c) :
    32 ≤ byteLength c.jwtSecret ∧ IsI64 c.sessionTtlSeconds ∧ IsI64 c.challengeTtlSeconds := by
  obtain ⟨secret, -, h⟩ := except_bind_eq_ok.mp h
  split_ifs at h with hlen
  obtain ⟨session, hsession, h⟩ := except_bind_eq_ok.mp h
  obtain ⟨challenge, hchallenge, h⟩ := except_bind_eq_ok.mp h
  obtain ⟨max, -, h⟩ := except_bind_eq_ok.mp h
  obtain ⟨log, -, h⟩ := except_bind_eq_ok.mp h
  obtain ⟨origin, -, h⟩ := except_bind_eq_ok.mp h
  cases h
  exact ⟨not_lt.mp hlen, isI64_of_parseI64 (parse_eq_ok.mp hsession),
    isI64_of_parseI64 (parse_eq_ok.mp hchallenge)⟩

end TittyBackend
