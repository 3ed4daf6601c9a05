import TittyBackend.Service
import TittyBackend.Settings

/-!
# Lifetimes of challenges and sessions

A lifetime is any `i64` of the environment. The instant at which a session ends is put into its
token as an unsigned number of seconds, which the verifier compares with the clock.
-/

namespace TittyBackend

open Numerals DateTime

/-- What the service relies on in `jsonwebtoken`: every claim set can be signed, and a token is
decoded to its claims if the issuer matches and it ended at most 60 seconds ago. -/
structure Libraries.Tokens (L : Libraries) : Prop where
  encodes : ∀ claims secret, ∃ token, L.encode claims secret = some token ∧ token ≠ []
  decodes : ∀ {claims secret token}, L.encode claims secret = some token → ∀ issuer t,
    L.decode token secret issuer t =
      if claims.iss = issuer ∧ t / nanosPerSecond - 60 ≤ claims.exp then some claims else none

/-! ### Issuing and checking -/

variable (D : Deployment)

/-- `issue_session` when the clock reads `now`. -/
def sessionAt (accountId : Text) (now : ℤ) : Except Failure AuthenticationSession :=
  match addSeconds now D.sessionTtlSeconds with
  | none => .error .panic
  | some expiresAt =>
    match D.encode (sessionClaims D accountId now expiresAt) D.jwtSecret with
    | none => .error (.api .internal)
    | some token => .ok { token, expiresAt }

/-- The value of the header `Authorization` for a token. -/
def bearerOf (token : Text) : Text := "Bearer ".toList ++ token

/-- At every instant from `now` on, the token is good for the account if that is before the end
of the session, and refused in every second from a minute after it. -/
structure Expires (accountId : Text) (now : ℤ) (session : AuthenticationSession) : Prop where
  admitted : ∀ t, now ≤ t → t < session.expiresAt →
    authenticateBearer D t (some (bearerOf session.token)) = .ok (some accountId)
  refused : ∀ t, now ≤ t →
    session.expiresAt / nanosPerSecond + 60 < t / nanosPerSecond →
      authenticateBearer D t (some (bearerOf session.token)) = .error .unauthorized

/-- The end of a challenge can be computed, a session can be issued, and its token carries the
end that the client is told and holds until then. -/
structure Lifetimes (accountId : Text) (now : ℤ) : Prop where
  challenge : ∃ expiresAt, Resolver.addSeconds now D.challengeTtlSeconds = pure expiresAt
  session : ∃ k, (issueSession D accountId).run = .call .now k ∧
    ∃ session, k now = .ret (.ok session) ∧
      (∃ claims, D.encode claims D.jwtSecret = some session.token ∧
        (claims.exp : ℤ) = session.expiresAt / nanosPerSecond) ∧
      Expires D accountId now session

variable {D}

lemma addSeconds_pos {t n : ℤ} (h : InRange (t + seconds n)) :
    addSeconds t n = some (t + seconds n) := if_pos h

lemma inRange_of_addSeconds {t n u : ℤ} (h : addSeconds t n = some u) :
    InRange (t + seconds n) := by
  rw [addSeconds] at h
  split_ifs at h with hr
  exact hr

/-- An end that is computed without a panic is an instant of chrono. -/
lemma inRange_of_pure {t n u : ℤ} (h : Resolver.addSeconds t n = pure u) :
    InRange (t + seconds n) := by
  by_contra hr
  rw [Resolver.addSeconds, addSeconds, if_neg hr] at h
  cases h

lemma issueSession_run (accountId : Text) :
    (issueSession D accountId).run = .call .now fun now => .ret (sessionAt D accountId now) := by
  refine congrArg (Programs.Prog.call Command.now) (funext fun now => ?_)
  show (Resolver.addSeconds now D.sessionTtlSeconds >>= fun expiresAt =>
    Resolver.orFail (D.encode (sessionClaims D accountId now expiresAt) D.jwtSecret) .internal >>=
      fun token => pure ⟨token, expiresAt⟩ : Resolver AuthenticationSession).run = _
  rw [sessionAt]
  cases hend : addSeconds now D.sessionTtlSeconds with
  | none => rw [Resolver.addSeconds, hend]; rfl
  | some expiresAt =>
    rw [Resolver.addSeconds_of_eq_some hend]
    show (Resolver.orFail (D.encode (sessionClaims D accountId now expiresAt) D.jwtSecret)
      .internal >>= fun token => pure ⟨token, expiresAt⟩ : Resolver AuthenticationSession).run =
        .ret (match D.encode (sessionClaims D accountId now expiresAt) D.jwtSecret with
          | none => _
          | some token => _)
    cases D.encode (sessionClaims D accountId now expiresAt) D.jwtSecret <;> rfl

lemma sessionAt_eq_ok {accountId : Text} {now : ℤ} {s : AuthenticationSession} :
    sessionAt D accountId now = .ok s ↔ addSeconds now D.sessionTtlSeconds = some s.expiresAt ∧
      D.encode (sessionClaims D accountId now s.expiresAt) D.jwtSecret = some s.token := by
  rw [sessionAt]
  constructor
  · intro h
    split at h
    · cases h
    · rename_i e hend
      split at h
      · cases h
      · cases h
        exact ⟨hend, ‹_›⟩
  · rintro ⟨hend, henc⟩
    simp only [hend, henc]

/-! ### When the arithmetic is right -/

/-- Before the year 292 billion, a second since 1970 is its own cast. -/
lemma asUsize_of_nonneg {n : ℤ} (h₀ : 0 ≤ n) (h : n < 2 ^ 64) : (asUsize n : ℤ) = n := by
  rw [asUsize, Int.emod_eq_of_lt h₀ h, Int.toNat_of_nonneg h₀]

lemma second_lt_of_inRange {t : ℤ} (h : InRange t) : t / nanosPerSecond < 2 ^ 64 := by
  obtain ⟨-, h⟩ := h
  simp only [seconds, nanosPerSecond] at h ⊢
  omega

/-- The claims of a session that ends in 1970 or later carry its end. -/
lemma exp_sessionClaims {accountId : Text} {now e : ℤ} (he : InRange e) (h₀ : 0 ≤ e) :
    ((sessionClaims D accountId now e).exp : ℤ) = e / nanosPerSecond :=
  asUsize_of_nonneg (Int.ediv_nonneg h₀ (by decide)) (second_lt_of_inRange he)

lemma authenticateBearer_bearerOf {token : Text} (h : token ≠ []) (t : ℤ) :
    authenticateBearer D t (some (bearerOf token)) =
      match D.decode token D.jwtSecret D.jwtIssuer t with
      | none => .error .unauthorized
      | some claims => .ok (some claims.sub) := by
  have hprefix : "Bearer ".toList <+: bearerOf token := List.prefix_append _ _
  have hdrop : (bearerOf token).drop 7 = token := rfl
  rw [authenticateBearer, hdrop]
  exact if_neg (not_or.mpr ⟨not_not.mpr hprefix, h⟩)

/-- A token whose claim is the end of its session expires with it. -/
lemma expires_of_exp (hL : D.toLibraries.Tokens) {accountId token : Text} {now t e : ℤ}
    (hne : token ≠ []) (henc : D.encode (sessionClaims D accountId t e) D.jwtSecret = some token)
    (hexp : ((sessionClaims D accountId t e).exp : ℤ) = e / nanosPerSecond) :
    Expires D accountId now ⟨token, e⟩ where
  admitted t' _ ht := by
    have hle : t' / nanosPerSecond ≤ e / nanosPerSecond := Int.ediv_le_ediv (by decide) ht.le
    rw [authenticateBearer_bearerOf hne, hL.decodes henc, if_pos ⟨rfl, by omega⟩]
    rfl
  refused t' _ ht := by
    have hlate : ¬ t' / nanosPerSecond - 60 ≤ (sessionClaims D accountId t e).exp := by
      rw [hexp]
      exact not_le.mpr (by simpa [lt_sub_iff_add_lt] using ht)
    rw [authenticateBearer_bearerOf hne, hL.decodes henc, if_neg fun h => hlate h.2]

/-- A session that ends before 1970 carries an end after every instant of chrono. -/
theorem eternal_of_neg (hL : D.toLibraries.Tokens) {accountId token : Text} {now e : ℤ}
    (he : InRange e) (hneg : e < 0)
    (henc : D.encode (sessionClaims D accountId now e) D.jwtSecret = some token)
    (hne : token ≠ []) {t : ℤ} (ht : InRange t) :
    authenticateBearer D t (some (bearerOf token)) = .ok (some accountId) := by
  have hlate : t / nanosPerSecond - 60 ≤ (sessionClaims D accountId now e).exp := by
    obtain ⟨he, -⟩ := he
    obtain ⟨-, ht⟩ := ht
    simp only [sessionClaims, asUsize, seconds, nanosPerSecond] at *
    omega
  rw [authenticateBearer_bearerOf hne, hL.decodes henc, if_pos ⟨rfl, hlate⟩]
  rfl

lemma Lifetimes.ends {accountId : Text} {now : ℤ} (h : Lifetimes D accountId now) :
    InRange (now + seconds D.challengeTtlSeconds) ∧
      InRange (now + seconds D.sessionTtlSeconds) ∧ 0 ≤ now + seconds D.sessionTtlSeconds := by
  obtain ⟨⟨e, hchallenge⟩, k, hk, session, hsession, ⟨claims, -, hexp⟩, -⟩ := h
  rw [issueSession_run] at hk
  cases hk
  have hsession : sessionAt D accountId now = .ok session := Programs.Prog.ret.inj hsession
  obtain ⟨hend, -⟩ := sessionAt_eq_ok.mp hsession
  refine ⟨inRange_of_pure hchallenge, inRange_of_addSeconds hend, ?_⟩
  rw [← addSeconds_eq_some hend]
  by_contra hneg
  have hexp_neg : session.expiresAt / nanosPerSecond < 0 :=
    Int.ediv_neg_of_neg_of_pos (not_le.mp hneg) (by decide)
  omega

/-- The lifetimes are kept if and only if both ends are instants of chrono, and the session does
not end before 1970. -/
theorem lifetimes_iff {c : Settings} {L : Libraries} (hL : L.Tokens) (accountId : Text) (now : ℤ) :
    Lifetimes ⟨c.toConfig, L⟩ accountId now ↔
      InRange (now + seconds c.challengeTtlSeconds) ∧
        InRange (now + seconds c.sessionTtlSeconds) ∧ 0 ≤ now + seconds c.sessionTtlSeconds := by
  let D : Deployment := ⟨c.toConfig, L⟩
  refine ⟨Lifetimes.ends, ?_⟩
  rintro ⟨hchallenge, hsession, h₀⟩
  have hexp : ((sessionClaims D accountId now (now + seconds c.sessionTtlSeconds)).exp : ℤ) =
    (now + seconds c.sessionTtlSeconds) / nanosPerSecond := exp_sessionClaims hsession h₀
  obtain ⟨token, henc, hne⟩ :=
    hL.encodes (sessionClaims D accountId now (now + seconds c.sessionTtlSeconds)) c.jwtSecret
  refine ⟨⟨_, Resolver.addSeconds_of_eq_some (addSeconds_pos hchallenge)⟩, _,
    issueSession_run accountId, ⟨token, _⟩, ?_, ⟨_, henc, hexp⟩, expires_of_exp hL hne henc hexp⟩
  exact congrArg Programs.Prog.ret (sessionAt_eq_ok.mpr ⟨addSeconds_pos hsession, henc⟩)

/-! ### Tokens that can be read back -/

namespace Known

/-- A field of a token: a mark before each of its characters, and another after the last. -/
def field (s : Text) : Text := s.flatMap (fun c => ['+', c]) ++ ['.']

def readField : Text → Option (Text × Text)
  | '.' :: s => some ([], s)
  | '+' :: c :: s => (readField s).map fun x => (c :: x.1, x.2)
  | _ => none

lemma readField_field (x s : Text) : readField (field x ++ s) = some (x, s) := by
  induction x with
  | nil => rfl
  | cons c x ih =>
    show (readField (field x ++ s)).map _ = _
    rw [ih]
    rfl

def readNumber (s : Text) : Option (ℕ × Text) :=
  (readField s).map fun x => (Nat.ofDigitChars 10 x.1 0, x.2)

lemma readNumber_field (n : ℕ) (s : Text) :
    readNumber (field (Nat.toDigits 10 n) ++ s) = some (n, s) := by
  rw [readNumber, readField_field, Option.map_some, Nat.ofDigitChars_ten_toDigits]

/-- The claims, followed by the secret that they are signed with. -/
def encode (claims : SessionClaims) (secret : Text) : Text :=
  field claims.sub ++ (field claims.iss ++ (field (Nat.toDigits 10 claims.iat) ++
    (field (Nat.toDigits 10 claims.exp) ++ field secret)))

def decodeClaims (token : Text) : Option (SessionClaims × Text) := do
  let (sub, token) ← readField token
  let (iss, token) ← readField token
  let (iat, token) ← readNumber token
  let (exp, token) ← readNumber token
  let (secret, _) ← readField token
  return (⟨sub, iss, iat, exp⟩, secret)

lemma decodeClaims_encode (claims : SessionClaims) (secret : Text) :
    decodeClaims (encode claims secret) = some (claims, secret) := by
  have hlast : readField (field secret) = some (secret, []) := by
    simpa using readField_field secret []
  simp only [decodeClaims, encode, readField_field, readNumber_field, hlast, bind,
    Option.bind_some]
  rfl

/-- The libraries with tokens for all claims. -/
def libraries : Libraries where
  __ := deployment.toLibraries
  encode claims secret := some (encode claims secret)
  decode token secret issuer t :=
    (decodeClaims token).bind fun x =>
      if x.2 = secret ∧ x.1.iss = issuer ∧ t / nanosPerSecond - 60 ≤ x.1.exp then some x.1
      else none

lemma libraries_tokens : libraries.Tokens where
  encodes claims secret := ⟨_, rfl, by simp [encode, field]⟩
  decodes {claims secret token} h issuer t := by
    obtain rfl := Option.some.inj h
    show (decodeClaims (encode claims secret)).bind _ = _
    rw [decodeClaims_encode, Option.bind_some]
    simp only [true_and]

/-- The required variables, and a lifetime of sessions in seconds. -/
def environment (ttl : Text) : Environment := fun name =>
  if name = "TITTY_JWT_SECRET".toList then some (List.replicate 32 'a')
  else if name = "TITTY_ALLOWED_ORIGIN".toList then some "https://example.com".toList
  else if name = "TITTY_SESSION_TTL_SECONDS".toList then some ttl
  else none

def settings (ttl : ℤ) : Settings where
  bindAddress := "127.0.0.1:8080".toList
  databaseUrl := "sqlite://data/identity.db?mode=rwc".toList
  jwtSecret := List.replicate 32 'a'
  jwtIssuer := "titty-identity".toList
  sessionTtlSeconds := ttl
  challengeTtlSeconds := 180
  maxBodyBytes := 65536
  logGraphqlBody := false
  allowedOrigin := "https://example.com".toList

end Known

/-- The default lifetimes, on the first day of 2026. -/
theorem lifetimes_new_year :
    Lifetimes ⟨(Known.settings 3600).toConfig, Known.libraries⟩ Known.ada Known.newYear :=
  (lifetimes_iff Known.libraries_tokens Known.ada Known.newYear).mpr (by decide)

/-- An accepted lifetime with which every session would end in 1962: the token is good forever.
One with which issuing a session panics. -/
theorem lifetimes_eternal :
    (Settings.fromEnv (Known.environment "-2000000000".toList) =
        .ok (Known.settings (-2000000000)) ∧
      ¬ Lifetimes ⟨(Known.settings (-2000000000)).toConfig, Known.libraries⟩ Known.ada
        Known.newYear) ∧
    Settings.fromEnv (Known.environment "9223372036854775807".toList) =
        .ok (Known.settings 9223372036854775807) ∧
      ¬ Lifetimes ⟨(Known.settings 9223372036854775807).toConfig, Known.libraries⟩ Known.ada
        Known.newYear :=
  ⟨⟨rfl, fun h => absurd h.ends (by decide)⟩, rfl, fun h => absurd h.ends (by decide)⟩

end TittyBackend
