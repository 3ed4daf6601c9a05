import Mathlib.Data.Int.ConditionallyCompleteOrder
import Mathlib.Tactic.GCongr.Core
import TittyBackend.Graphql.Query
import TittyBackend.Lib.Interleaving

/-!
# The service

Any number of operations in progress share one database, one rate limiter and one clock. A step
issues one command of one operation. SQLite lets one transaction at a time hold changes that are
not committed: while it does, other writes wait or fail, and everybody else reads the database
without them. A restart ends every operation and forgets the buckets of the limiter.
-/

namespace TittyBackend

open Numerals Programs

/-! ### The world -/

structure World where
  db : Db
  /-- The operation that holds the write lock, and the database as it left it. -/
  writer : Option (ℕ × Db)
  limiter : RateLimiter
  clock : ℤ
  instant : ℕ
  /-- Every UUID drawn so far, with the operation that drew it. -/
  drawn : List (ℕ × Uuid)

/-- What the outside decides at a step: the readings of the two clocks, whether a statement
fails, and the random draws. -/
structure Choice where
  reading : ℤ
  instant : ℕ
  fails : Bool
  uuid : Uuid
  bytes : Bytes

namespace World

/-- A world in which nothing runs yet. -/
def init (d : Db) (clock : ℤ) : World := ⟨d, none, [], clock, 0, []⟩

variable (w : World) (i : ℕ)

/-- Both clocks moved on to the readings of a choice. -/
def tick (ch : Choice) : World := { w with clock := ch.reading, instant := ch.instant }

/-- The database as operation `i` sees it within its transaction. -/
def view : Db :=
  match w.writer with
  | some (j, d) => if j = i then d else w.db
  | none => w.db

/-- The transaction of operation `i` ends without its changes. -/
def release : World :=
  { w with writer := w.writer.filter fun x => x.1 ≠ i }

/-- The transaction of operation `i` ends with its changes. -/
def settle : World := { w.release i with db := w.view i }

/-- Every operation in progress dies. -/
def reset : World := { w with writer := none, limiter := [] }

end World

variable (D : Deployment)

/-- Clocks do not go back, a UUID is not drawn twice, and a write that does not fail waits for the
write lock. -/
def Command.enabled (i : ℕ) (c : Command) (ch : Choice) (w : World) : Bool :=
  w.clock ≤ ch.reading && w.instant ≤ ch.instant &&
    match c with
    | .execute _ => ch.fails || w.writer.isNone
    | .executeIn _ => ch.fails || w.writer.all fun x => x.1 = i
    | .newUuid => w.drawn.all fun x => x.2 ≠ ch.uuid
    | _ => true

/-- What a command is answered, and what it does. SQLite also refuses the update of a transaction
that has read an older database; that is one of the statements that a choice lets fail. -/
def Command.exec (i : ℕ) : (c : Command) → Choice → World → c.Ans × World
  | .select q, ch, w =>
    (if ch.fails then .error .failed else .ok (q.eval D ch.reading w.db), w.tick ch)
  | .execute u, ch, w =>
    if ch.fails then (.error .failed, w.tick ch)
    else
      match u.apply D ch.reading w.db with
      | .ok (n, d) => (.ok n, { w.tick ch with db := d })
      | .error e => (.error e, w.tick ch)
  | .begin, ch, w => (if ch.fails then .error .failed else .ok (), w.tick ch)
  | .selectIn q, ch, w =>
    (if ch.fails then .error .failed else .ok (q.eval D ch.reading (w.view i)), w.tick ch)
  | .executeIn u, ch, w =>
    if ch.fails then (.error .failed, w.tick ch)
    else
      match u.apply D ch.reading (w.view i) with
      | .ok (n, d) => (.ok n, { w.tick ch with writer := some (i, d) })
      | .error e => (.error e, w.tick ch)
  | .commit, ch, w =>
    if ch.fails then (.error .failed, (w.tick ch).release i) else (.ok (), (w.tick ch).settle i)
  | .rollback, ch, w => ((), (w.tick ch).release i)
  | .now, ch, w => (ch.reading, w.tick ch)
  | .newUuid, ch, w => (ch.uuid, { w.tick ch with drawn := (i, ch.uuid) :: w.drawn })
  | .fillBytes, ch, w => (ch.bytes, w.tick ch)
  | .check key limit window, ch, w =>
    let r := w.limiter.check ch.instant key limit window
    (r.1, { w.tick ch with limiter := r.2 })

/-! ### Operations -/

inductive Op where
  | registerAccount (ctx : Context) (input : RegisterAccountInput)
  | requestChallenge (ctx : Context) (accountId : Text)
  | authenticate (ctx : Context) (input : AuthenticateInput)
  | sendLiveChatRequest (ctx : Context) (input : SendLiveChatRequestInput)
  | renewLiveChatRequest (ctx : Context) (input : RenewLiveChatRequestInput)
  | cancelLiveChatRequest (ctx : Context) (input : CancelLiveChatRequestInput)
  | blockIdentity (ctx : Context) (input : BlockIdentityInput)
  | unblockIdentity (ctx : Context) (input : UnblockIdentityInput)
  | isIdentittyAvailable (identitty : Text)
  | account (identitty : Text)
  | accountById (accountId : Text)
  | me (ctx : Context)
  | blockedIdentities (ctx : Context)
  | liveChatRequests (ctx : Context)
  /-- One tick of the background task. -/
  | cleanupTick
  /-- The clean-up of a service that starts. -/
  | startup
  deriving DecidableEq

/-- The account on whose behalf an operation acts. -/
def Op.account? : Op → Option Text
  | sendLiveChatRequest ctx _ | renewLiveChatRequest ctx _ | cancelLiveChatRequest ctx _
  | blockIdentity ctx _ | unblockIdentity ctx _ | me ctx | blockedIdentities ctx
  | liveChatRequests ctx => ctx.account
  | _ => none

inductive Answer where
  | identity (x : AccountIdentity)
  | identity? (x : Option AccountIdentity)
  | challenge (x : AuthenticationChallenge)
  | session (x : AuthenticationSession)
  | submission (x : LiveChatRequestSubmission)
  | lease (x : LiveChatRequestLease)
  | flag (x : Bool)
  | blocked (x : BlockedIdentity)
  | blockedList (x : List BlockedIdentity)
  | requests (x : List LiveChatRequest)
  | done
  deriving DecidableEq

abbrev Response := Except Failure Answer

def Op.resolver : Op → Resolver Answer
  | registerAccount ctx input => .identity <$> TittyBackend.registerAccount D ctx input
  | requestChallenge ctx accountId => .challenge <$> TittyBackend.requestChallenge D ctx accountId
  | authenticate ctx input => .session <$> TittyBackend.authenticate D ctx input
  | sendLiveChatRequest ctx input => .submission <$> TittyBackend.sendLiveChatRequest ctx input
  | renewLiveChatRequest ctx input => .lease <$> TittyBackend.renewLiveChatRequest ctx input
  | cancelLiveChatRequest ctx input => .flag <$> TittyBackend.cancelLiveChatRequest ctx input
  | blockIdentity ctx input => .blocked <$> TittyBackend.blockIdentity ctx input
  | unblockIdentity ctx input => .flag <$> TittyBackend.unblockIdentity ctx input
  | isIdentittyAvailable identitty => .flag <$> TittyBackend.isIdentittyAvailable identitty
  | account identitty => .identity? <$> TittyBackend.account identitty
  | accountById accountId => .identity? <$> TittyBackend.accountById accountId
  | me ctx => .identity? <$> TittyBackend.me ctx
  | blockedIdentities ctx => .blockedList <$> TittyBackend.blockedIdentities ctx
  | liveChatRequests ctx => .requests <$> TittyBackend.liveChatRequests ctx
  | cleanupTick => (fun _ => .done) <$> TittyBackend.cleanupTick
  | startup => (fun _ => .done) <$> TittyBackend.startup

def Op.program (op : Op) : Program Response := (op.resolver D).run

/-- The service as interleaved programs. -/
def service : System Command Command.Ans Op Response World Choice where
  program := Op.program D
  enabled := Command.enabled
  exec := Command.exec D
  reset := World.reset

/-!
### Two key pairs

Two accounts with known keys, and what the libraries answer about them: the digests, one
signature over the bytes 0 to 31, and one session token. SQLite's `julianday` has a resolution of
a millisecond, and reads what chrono writes.
-/

namespace Known

def ada : Text :=
  ["acct_21fe31dfa154a26162", "6bf854046fd2271b7bed4b6",
    "abe45aa58877ef47f9721b9"].flatMap String.toList

def bob : Text :=
  ["acct_39f713d0a644253f04", "529421b9f51b9b08979d082",
    "95959c4f3990ee617f5139f"].flatMap String.toList

def adaKey : List UInt8 :=
  [215, 90, 152, 1, 130, 177, 10, 183, 213, 75, 254, 211, 201, 100, 7, 58, 14, 225, 114, 243, 218,
    166, 35, 37, 175, 2, 26, 104, 247, 7, 81, 26]

def bobKey : List UInt8 :=
  [61, 64, 23, 195, 232, 67, 137, 90, 146, 183, 10, 167, 77, 27, 126, 188, 156, 152, 44, 207, 46,
    196, 150, 140, 192, 205, 85, 241, 42, 244, 102, 12]

def adaDigest : List UInt8 :=
  [33, 254, 49, 223, 161, 84, 162, 97, 98, 107, 248, 84, 4, 111, 210, 39, 27, 123, 237, 75, 106,
    190, 69, 170, 88, 135, 126, 244, 127, 151, 33, 185]

def bobDigest : List UInt8 :=
  [57, 247, 19, 208, 166, 68, 37, 63, 4, 82, 148, 33, 185, 245, 27, 155, 8, 151, 157, 8, 41, 89,
    89, 196, 243, 153, 14, 230, 23, 245, 19, 159]

def challenge : Bytes := ⟨(List.range 32).map UInt8.ofNat, rfl⟩

def signature : Text :=
  ["AMHbmIuxL9c1GmBUrj+skP", "q35PxWsWUccYH19V+Jb2Y5", "M9OpBgXZBY6dCsRZUO4tPJ",
    "ybFIV0FVhxef4MysNfCQ=="].flatMap String.toList

/-- 2026-01-01T00:00:00Z -/
def newYear : ℤ := 1767225600000000000

def token : Text :=
  ["eyJ0eXAiOiJKV1QiLCJhbGciOiJI", "UzI1NiJ9.eyJzdWIiOiJhY2N0XzI", "xZmUzMWRmYTE1NGEyNjE2MjZiZjg",
    "1NDA0NmZkMjI3MWI3YmVkNGI2YWJ", "lNDVhYTU4ODc3ZWY0N2Y5NzIxYjk", "iLCJpc3MiOiJ0aXR0eS1pZGVudGl",
    "0eSIsImlhdCI6MTc2NzIyNTYwMCw", "iZXhwIjoxNzY3MjI5MjAwfQ.Ey-5", "ZzyvC01MP8e6yAF9FKgdsGfdBS1U",
    "gDuPqrBvwDQ"].flatMap String.toList

def claims : SessionClaims := ⟨ada, "titty-identity".toList, 1767225600, 1767229200⟩

def deployment : Deployment where
  jwtSecret := List.replicate 32 'a'
  jwtIssuer := "titty-identity".toList
  sessionTtlSeconds := 3600
  challengeTtlSeconds := 180
  sha256 bytes := if bytes = adaKey then adaDigest else if bytes = bobKey then bobDigest else []
  isVerifyingKey key := key = adaKey ∨ key = bobKey
  verify key message bytes :=
    key = adaKey ∧ message = challenge.toList ∧ Base64.decode signature = some bytes
  encode x secret := if x = claims ∧ secret = List.replicate 32 'a' then some token else none
  decode x _ _ _ := if x = token then some claims else none
  julianday x := (parseFromRfc3339 x).map (· / 1000000 + 210866760000000)
  juliandayNow t := t / 1000000 + 210866760000000

lemma juliandayNow_mono : Monotone deployment.juliandayNow := by
  intro t u h
  show t / 1000000 + 210866760000000 ≤ u / 1000000 + 210866760000000
  omega

def adaRow : AccountRow := ⟨ada, "ada".toList, adaKey, toRfc3339 newYear⟩

def bobRow : AccountRow := ⟨bob, "bob".toList, bobKey, toRfc3339 newYear⟩

/-- The database after the registrations of Ada and Bob. -/
def couple : Db :=
  (Db.empty.addAccount adaRow (Relational.Table.fresh_empty adaRow)).addAccount bobRow
    (by decide +kernel)

def register (name : Text) (accountId : Text) (key : List UInt8) : Op :=
  .registerAccount ⟨"192.0.2.7".toList, none⟩ ⟨name, accountId, Base64.encode key⟩

/-- The context of a request with a session of `account`. -/
def session (account : Text) : Context := ⟨"192.0.2.7".toList, some account⟩

/-- A choice at which nothing fails. -/
def fine (t : ℤ) (u : Uuid) : Choice := ⟨t, 0, false, u, challenge⟩

/-- `n` steps of operation `i` at the new year, which draw ids from `u` on. -/
def steps (i n u : ℕ) : List (Action Op Choice) :=
  (List.range n).map fun k => .step i (fine newYear ⟨.ofNat 128 (u + k)⟩)

/-- Operation `i` is called, takes `n` steps at the instant `t`, and answers. -/
def whole (op : Op) (i n : ℕ) (t : ℤ) (u : Uuid) : List (Action Op Choice) :=
  .call op :: List.replicate n (.step i (fine t u)) ++ [.respond i]

end Known

end TittyBackend
