import TittyBackend.Data.Identity
import TittyBackend.Http
import TittyBackend.Lifetime
import TittyBackend.Metrics.Table

/-!
# The access log

`api_access_log` of `main.rs`, the outermost layer of the service: what it returns to the client,
the events that it writes to the API log, and the calls of `record_api_request`. Latencies and
warnings, which go to another log, are left out.
-/

namespace TittyBackend

open Numerals

/-! ### Requests and responses -/

/-- A URI: its path, and all of it as it is printed. -/
structure Uri where
  path : Text
  text : Text
  deriving DecidableEq

/-- The bytes that the stream of a body brings, and whether it ends without an error. -/
structure Body where
  bytes : List UInt8
  complete : Bool
  deriving DecidableEq

structure HttpRequest where
  method : Text
  uri : Uri
  headers : HeaderMap
  body : Body
  deriving DecidableEq

structure HttpResponse where
  status : UInt16
  headers : HeaderMap
  body : List UInt8
  deriving DecidableEq

/-- A service that panics, or never answers, has no response. -/
abbrev HttpService := HttpRequest → Option HttpResponse

/-- `to_bytes` -/
def toBytes (body : Body) (limit : ℕ) : Option (List UInt8) :=
  if body.complete ∧ body.bytes.length ≤ limit then some body.bytes else none

/-! ### `String::from_utf8_lossy` -/

namespace Utf8

/-- Within a character: how many bytes it still takes, the bounds of the next of them, and the
bits so far. -/
structure Partial where
  need : ℕ
  lo : ℕ
  hi : ℕ
  bits : ℕ

/-- A byte that continues a character has six bits of it. -/
def continuing (need bits : ℕ) : Partial := ⟨need, 0x80, 0xBF, bits⟩

/-- U+FFFD, in place of what is not UTF-8. -/
def replacement : Char := Char.ofNat 0xFFFD

/-- The first byte of a character, which may be all of it. -/
def start (b : ℕ) : Text × Option Partial :=
  if b < 0x80 then ([Char.ofNat b], none)
  else if 0xC2 ≤ b ∧ b ≤ 0xDF then ([], some (continuing 1 (b % 32)))
  else if b = 0xE0 then ([], some ⟨2, 0xA0, 0xBF, 0⟩)
  else if b = 0xED then ([], some ⟨2, 0x80, 0x9F, 13⟩)
  else if 0xE1 ≤ b ∧ b ≤ 0xEF then ([], some (continuing 2 (b % 16)))
  else if b = 0xF0 then ([], some ⟨3, 0x90, 0xBF, 0⟩)
  else if b = 0xF4 then ([], some ⟨3, 0x80, 0x8F, 4⟩)
  else if 0xF1 ≤ b ∧ b ≤ 0xF3 then ([], some (continuing 3 (b % 8)))
  else ([replacement], none)

/-- One more byte. A byte that does not continue a character begins another. -/
def advance (state : Option Partial) (b : ℕ) : Text × Option Partial :=
  match state with
  | none => start b
  | some p =>
    if p.lo ≤ b ∧ b ≤ p.hi then
      let bits := p.bits * 64 + b % 64
      if p.need = 1 then ([Char.ofNat bits], none)
      else ([], some (continuing (p.need - 1) bits))
    else (replacement :: (start b).1, (start b).2)

def decode : Option Partial → List UInt8 → Text
  | none, [] => []
  | some _, [] => [replacement]
  | state, b :: bs => (advance state b.toNat).1 ++ decode (advance state b.toNat).2 bs

end Utf8

def fromUtf8Lossy (bytes : List UInt8) : Text := Utf8.decode none bytes

-- An accented letter, and an emoji and a surrogate that are cut short.
example : fromUtf8Lossy [104, 195, 169, 240, 159, 152, 237, 160, 128] =
    ['h', 'é', Utf8.replacement, Utf8.replacement, Utf8.replacement, Utf8.replacement] := by
  decide

/-! ### The middleware -/

def requestUrl (headers : HeaderMap) (uri : Uri) : Text :=
  let host := ((headers.get "host".toList).bind HeaderValue.toStr).getD "unknown".toList
  let scheme := ((((headers.get "x-forwarded-proto".toList).bind HeaderValue.toStr).map
    fun value => trim (value.takeWhile (· ≠ ','))).filter
      fun value => value = "http".toList ∨ value = "https".toList).getD "http".toList
  scheme ++ "://".toList ++ host ++ uri.text

/-- What the log takes for the id of a request. -/
def requestId (headers : HeaderMap) : Text :=
  ((headers.get "x-request-id".toList).bind HeaderValue.toStr).getD "unknown".toList

/-- An event of the target `api_access`. -/
structure ApiEvent where
  sourceIp : Text
  method : Text
  endpoint : Text
  requestUrl : Text
  status : UInt16
  requestId : Text
  /-- The body, in an event `graphql_request_body`; an event `api_request` has none. -/
  body : Option Text
  deriving DecidableEq

/-- What comes of one request. -/
structure Handled where
  response : Option HttpResponse
  events : List ApiEvent
  recorded : List ApiRequest
  deriving DecidableEq

/-- `(StatusCode::BAD_REQUEST, "invalid request body").into_response()` -/
def invalidRequestBody : HttpResponse where
  status := 400
  headers := [("content-type".toList, "text/plain; charset=utf-8".toList.map
    fun c => UInt8.ofNat c.toNat)]
  body := "invalid request body".toList.map fun c => UInt8.ofNat c.toNat

variable (normaliseIp : Text → Option Text)

/-- The middleware from `next.run` on, for the request `original` of the client; the clock reads
`now` after the answer. -/
def runAndLog (next : HttpService) (now : ℤ) (original request : HttpRequest)
    (graphqlBody : Option Text) : Handled :=
  match next request with
  | none => ⟨none, [], []⟩
  | some response =>
    let sourceIp := requestSource normaliseIp original.headers
    let event := ApiEvent.mk sourceIp original.method original.uri.path
      (requestUrl original.headers original.uri) response.status (requestId original.headers)
    { response := some response
      events := event none :: (graphqlBody.map fun body => event (some body)).toList
      recorded := [⟨now, sourceIp, original.method, original.uri.path, response.status⟩] }

def apiAccessLog (config : Settings) (next : HttpService) (now : ℤ) (request : HttpRequest) :
    Handled :=
  if config.logGraphqlBody ∧ request.uri.path = "/graphql".toList then
    match toBytes request.body config.maxBodyBytes with
    | none => ⟨some invalidRequestBody, [], []⟩
    | some body =>
      runAndLog normaliseIp next now request { request with body := ⟨body, true⟩ }
        (some (fromUtf8Lossy body))
  else runAndLog normaliseIp next now request request none

/-! ### Complete and transparent -/

/-- The events `api_request` of what comes of a request. -/
def Handled.apiRequests (x : Handled) : List ApiEvent := x.events.filter fun e => e.body = none

/-- There is a response, and exactly one event `api_request` and one count for it, which say its
status and the method and the path of the request. -/
structure Handled.Complete (x : Handled) (request : HttpRequest) : Prop where
  event : ∃ response, x.response = some response ∧ ∃ e, x.apiRequests = [e] ∧
    e.method = request.method ∧ e.endpoint = request.uri.path ∧ e.status = response.status
  count : ∃ response, x.response = some response ∧ ∃ c, x.recorded = [c] ∧
    c.method = request.method ∧ c.endpoint = request.uri.path ∧ c.status = response.status

/-- The two differ at most in an event `graphql_request_body`. -/
structure Handled.Alike (x y : Handled) : Prop where
  response : x.response = y.response
  event : x.apiRequests = y.apiRequests
  count : x.recorded = y.recorded

/-- The body arrives, and is no longer than the limit. -/
def Body.Fits (body : Body) (limit : ℕ) : Prop :=
  body.complete = true ∧ body.bytes.length ≤ limit

variable {normaliseIp : Text → Option Text} {config : Settings} {next : HttpService} {now : ℤ}
  {request : HttpRequest}

/-- With the switch for bodies set to `b`. -/
def Settings.logging (config : Settings) (b : Bool) : Settings :=
  { config with logGraphqlBody := b }

lemma toBytes_of_fits {body : Body} {limit : ℕ} (h : body.Fits limit) :
    toBytes body limit = some body.bytes := if_pos h

lemma toBytes_of_not_fits {body : Body} {limit : ℕ} (h : ¬ body.Fits limit) :
    toBytes body limit = none := if_neg h

/-- The request that is rebuilt from its body is the same. -/
lemma rebuilt_eq {limit : ℕ} (h : request.body.Fits limit) :
    { request with body := ⟨request.body.bytes, true⟩ } = request := by
  obtain ⟨method, uri, headers, bytes, complete⟩ := request
  obtain ⟨rfl, -⟩ := h
  rfl

/-- The body that is logged for a request that is handed on. -/
def loggedBody (config : Settings) (request : HttpRequest) : Option Text :=
  if config.logGraphqlBody ∧ request.uri.path = "/graphql".toList then
    some (fromUtf8Lossy request.body.bytes)
  else none

/-- A request is answered with status 400 if its body is to be logged and does not fit, and
handed on unchanged otherwise. -/
lemma apiAccessLog_cases (normaliseIp : Text → Option Text) (config : Settings)
    (next : HttpService) (now : ℤ) (request : HttpRequest) :
    (config.logGraphqlBody = true ∧ request.uri.path = "/graphql".toList ∧
      ¬ request.body.Fits config.maxBodyBytes ∧
        apiAccessLog normaliseIp config next now request = ⟨some invalidRequestBody, [], []⟩) ∨
    (¬ (config.logGraphqlBody = true ∧ request.uri.path = "/graphql".toList ∧
      ¬ request.body.Fits config.maxBodyBytes) ∧
        apiAccessLog normaliseIp config next now request =
          runAndLog normaliseIp next now request request (loggedBody config request)) := by
  by_cases hlog : config.logGraphqlBody = true ∧ request.uri.path = "/graphql".toList
  · by_cases hfits : request.body.Fits config.maxBodyBytes
    · refine .inr ⟨fun h => h.2.2 hfits, ?_⟩
      rw [apiAccessLog, if_pos hlog, toBytes_of_fits hfits, loggedBody, if_pos hlog]
      exact congrArg (runAndLog normaliseIp next now request · _) (rebuilt_eq hfits)
    · refine .inl ⟨hlog.1, hlog.2, hfits, ?_⟩
      rw [apiAccessLog, if_pos hlog, toBytes_of_not_fits hfits]
  · refine .inr ⟨fun h => hlog ⟨h.1, h.2.1⟩, ?_⟩
    rw [apiAccessLog, if_neg hlog, loggedBody, if_neg hlog]

lemma complete_runAndLog {response : HttpResponse} (h : next request = some response)
    (graphqlBody : Option Text) :
    (runAndLog normaliseIp next now request request graphqlBody).Complete request := by
  rw [runAndLog, h]
  refine ⟨⟨response, rfl, ?_⟩, response, rfl, _, rfl, rfl, rfl, rfl⟩
  cases graphqlBody <;> exact ⟨_, rfl, rfl, rfl, rfl⟩

/-- Whether a body is logged makes no difference to the rest. -/
lemma alike_runAndLog (b b' : Option Text) :
    (runAndLog normaliseIp next now request request b).Alike
      (runAndLog normaliseIp next now request request b') := by
  rw [runAndLog, runAndLog]
  cases next request with
  | none => exact ⟨rfl, rfl, rfl⟩
  | some response =>
    refine ⟨rfl, ?_, rfl⟩
    cases b <;> cases b' <;> rfl

lemma not_complete_of_no_event {x : Handled} (h : x.events = []) : ¬ x.Complete request := by
  rintro ⟨⟨-, -, e, he, -⟩, -⟩
  rw [Handled.apiRequests, h] at he
  cases he

/-- Exactly one event and one count, unless the middleware itself turns the request away or the
service under it gives no answer. -/
lemma complete_iff : (apiAccessLog normaliseIp config next now request).Complete request ↔
    ¬ (config.logGraphqlBody = true ∧ request.uri.path = "/graphql".toList ∧
      ¬ request.body.Fits config.maxBodyBytes) ∧ (next request).isSome := by
  rcases apiAccessLog_cases normaliseIp config next now request with
    ⟨hlog, hpath, hfits, hrun⟩ | ⟨hpass, hrun⟩
  · rw [hrun]
    exact iff_of_false (not_complete_of_no_event rfl) fun h => h.1 ⟨hlog, hpath, hfits⟩
  · rw [hrun]
    cases hnext : next request with
    | none =>
      refine iff_of_false (not_complete_of_no_event ?_) (by simp)
      rw [runAndLog, hnext]
    | some response => exact iff_of_true (complete_runAndLog hnext _) ⟨hpass, rfl⟩

/-- Without the switch, requests are handed on. -/
lemma apiAccessLog_logging_false :
    apiAccessLog normaliseIp (config.logging false) next now request =
    runAndLog normaliseIp next now request request none := if_neg fun h => Bool.noConfusion h.1

/-- The switch shows if and only if a body for `/graphql` does not fit. -/
lemma alike_iff : (apiAccessLog normaliseIp (config.logging true) next now request).Alike
      (apiAccessLog normaliseIp (config.logging false) next now request) ↔
    request.uri.path ≠ "/graphql".toList ∨ request.body.Fits config.maxBodyBytes := by
  rw [apiAccessLog_logging_false]
  rcases apiAccessLog_cases normaliseIp (config.logging true) next now request with
    ⟨-, hpath, hfits, hrun⟩ | ⟨hpass, hrun⟩
  · refine iff_of_false (fun h => ?_) (not_or.mpr ⟨not_not.mpr hpath, hfits⟩)
    rw [hrun] at h
    cases hnext : next request with
    | none =>
      have hresponse := h.response
      rw [runAndLog, hnext] at hresponse
      cases hresponse
    | some response =>
      have hcount := h.count
      rw [runAndLog, hnext] at hcount
      cases hcount
  · rw [hrun]
    refine iff_of_true (alike_runAndLog _ none) ?_
    by_contra h
    rw [not_or, not_not] at h
    exact hpass ⟨rfl, h⟩

/-- The log is complete for a request if and only if the service answers it and it is not turned
away for a body that is to be logged, and the switch for bodies makes no difference if and only if
none is turned away so. -/
theorem accessLog_iff (normaliseIp : Text → Option Text) (config : Settings) (next : HttpService)
    (now : ℤ) (request : HttpRequest) :
    ((apiAccessLog normaliseIp config next now request).Complete request ↔
      ¬ (config.logGraphqlBody = true ∧ request.uri.path = "/graphql".toList ∧
        ¬ request.body.Fits config.maxBodyBytes) ∧ (next request).isSome) ∧
    ((apiAccessLog normaliseIp (config.logging true) next now request).Alike
        (apiAccessLog normaliseIp (config.logging false) next now request) ↔
      request.uri.path ≠ "/graphql".toList ∨ request.body.Fits config.maxBodyBytes) :=
  ⟨complete_iff, alike_iff⟩

namespace Known

/-- A request to `/graphql` with a body of so many bytes. -/
def upload (n : ℕ) : HttpRequest where
  method := "POST".toList
  uri := ⟨"/graphql".toList, "/graphql".toList⟩
  headers := []
  body := ⟨List.replicate n 32, true⟩

/-- A service that answers every request with status 200. -/
def answering : HttpService := fun _ => some ⟨200, [], []⟩

lemma not_fits_upload {n limit : ℕ} (h : limit < n) : ¬ (upload n).body.Fits limit := by
  rintro ⟨-, hlen⟩
  rw [upload, List.length_replicate] at hlen
  omega

end Known

/-- A body one byte longer than the default limit: the client is answered, and nothing is logged
or counted. Without the logging of bodies, the request is both. -/
theorem accessLog_incomplete :
    ¬ (apiAccessLog some ((Known.settings 3600).logging true) Known.answering Known.newYear
        (Known.upload 65537)).Complete (Known.upload 65537) ∧
      ¬ (apiAccessLog some ((Known.settings 3600).logging true) Known.answering Known.newYear
          (Known.upload 65537)).Alike
        (apiAccessLog some ((Known.settings 3600).logging false) Known.answering Known.newYear
          (Known.upload 65537)) := by
  have hlong : ¬ (Known.upload 65537).body.Fits 65536 := Known.not_fits_upload (by decide)
  refine ⟨fun h => (complete_iff.mp h).1 ⟨rfl, rfl, hlong⟩, fun h => ?_⟩
  rcases alike_iff.mp h with hpath | hfits
  · exact hpath rfl
  · exact hlong hfits

end TittyBackend
