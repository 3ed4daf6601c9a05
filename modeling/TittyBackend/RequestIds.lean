import TittyBackend.AccessLog

/-!
# Request ids

The layers around the routes, the ids that they put into responses, the ids that the access log
writes, and the join of the report on them.
-/

namespace TittyBackend

open Numerals

/-! ### Layers -/

abbrev HttpLayer := HttpService → HttpService

def xRequestId : Text := "x-request-id".toList

def HeaderMap.insert (headers : HeaderMap) (name : Text) (value : HeaderValue) : HeaderMap :=
  (name, value) :: headers.filter fun h => h.1 ≠ name

/-- The header value of a text of ASCII. -/
def toHeaderValue (s : Text) : HeaderValue := s.map fun c => UInt8.ofNat c.toNat

/-- `SetRequestIdLayer`, with `uuid` as what `MakeRequestUuid` makes. -/
def setRequestId (uuid : Uuid) : HttpLayer := fun next request =>
  match request.headers.get xRequestId with
  | some _ => next request
  | none =>
    next { request with
      headers := request.headers.insert xRequestId (toHeaderValue uuid.toText) }

/-- `PropagateRequestIdLayer` -/
def propagateRequestId : HttpLayer := fun next request =>
  (next request).map fun response =>
    match request.headers.get xRequestId with
    | some id => { response with headers := response.headers.insert xRequestId id }
    | none => response

/-- What is known of the CORS layer: it answers preflight requests itself, and adds headers to the
other responses, none of them a request id. -/
structure Cors where
  preflight : HttpRequest → Option HttpResponse
  headers : HttpRequest → HeaderMap
  preflight_id : ∀ {request response}, preflight request = some response →
    response.headers.get xRequestId = none
  headers_id : ∀ request, (headers request).get xRequestId = none

def Cors.layer (cors : Cors) : HttpLayer := fun next request =>
  match cors.preflight request with
  | some response => some response
  | none =>
    (next request).map fun response =>
      { response with headers := cors.headers request ++ response.headers }

/-- `Router::layer`, again and again: the layer that is added last runs first. -/
def layered (routes : HttpService) (layers : List HttpLayer) : HttpService :=
  layers.foldl (fun next layer => layer next) routes

/-- The layers of `main` under the access log. `TraceLayer` hands on requests and responses as
they are, and the limit of bodies goes with the routes. -/
def stack (cors : Cors) (routes : HttpService) (uuid : Uuid) : HttpService :=
  layered routes [propagateRequestId, setRequestId uuid, cors.layer]

/-! ### Sequences of requests -/

/-- A request, the id that is drawn for it if it brings none, the instant at which it is counted,
and how the routes answer then. -/
structure Turn where
  request : HttpRequest
  uuid : Uuid
  now : ℤ
  routes : HttpService

/-- The service, as far as its log goes. -/
structure Frontend where
  normaliseIp : Text → Option Text
  config : Settings
  cors : Cors

variable (F : Frontend)

/-- The response to a request, under the access log. -/
def Turn.answer (x : Turn) : Option HttpResponse := stack F.cors x.routes x.uuid x.request

def Turn.handled (x : Turn) : Handled :=
  apiAccessLog F.normaliseIp F.config (stack F.cors x.routes x.uuid) x.now x.request

/-- An event in the log, with the number of its request. -/
structure Line where
  turn : ℕ
  event : ApiEvent
  deriving DecidableEq

/-- The log of requests that are numbered from `n` on. -/
def logFrom : ℕ → List Turn → List Line
  | _, [] => []
  | n, x :: xs => (x.handled F).events.map (Line.mk n) ++ logFrom (n + 1) xs

/-! ### The report -/

/-- `api_events[request_id]`: the last event `api_request` of an id. Events without an id are
skipped. -/
def apiEvent (log : List Line) (id : Text) : Option Line :=
  log.reverse.find? fun l => l.event.body = none ∧ l.event.requestId ≠ [] ∧ l.event.requestId = id

/-- `body_events` -/
def bodyEvents (log : List Line) : List Line :=
  log.filter fun l => l.event.body ≠ none ∧ l.event.requestId ≠ []

/-- The bodies of a report, each with what `api_events` has for it. -/
def joined (log : List Line) : List (Line × Option Line) :=
  (bodyEvents log).map fun b => (b, apiEvent log b.event.requestId)

/-! ### What is claimed of the ids -/

/-- The id that a client supplies, if it can be read. -/
def suppliedId (request : HttpRequest) : Option Text :=
  (request.headers.get xRequestId).bind HeaderValue.toStr

/-- The ids in the log are those of the responses, they tell requests without an id apart, and
every body is joined with its own request. -/
structure Identified (xs : List Turn) : Prop where
  agree : ∀ x ∈ xs, ∀ e ∈ (x.handled F).events, ∃ response value,
    (x.handled F).response = some response ∧ response.headers.get xRequestId = some value ∧
      HeaderValue.toStr value = some e.requestId
  distinct : ∀ {i j : ℕ} {x y : Turn}, i ≠ j → xs[i]? = some x → xs[j]? = some y →
    x.request.headers.get xRequestId = none → y.request.headers.get xRequestId = none →
      ∀ e ∈ (x.handled F).events, ∀ e' ∈ (y.handled F).events, e.requestId ≠ e'.requestId
  paired : ∀ b ∈ logFrom F 0 xs, b.event.body ≠ none →
    ∃ a, (b, some a) ∈ joined (logFrom F 0 xs) ∧ a.turn = b.turn

/-- The middleware hands the request on, and it is answered. -/
def Turn.Logged (x : Turn) : Prop :=
  ¬ (F.config.logGraphqlBody = true ∧ x.request.uri.path = "/graphql".toList ∧
    ¬ x.request.body.Fits F.config.maxBodyBytes) ∧ (x.answer F).isSome

/-- Its body is logged as well. -/
def Turn.BodyLogged (x : Turn) : Prop :=
  x.Logged F ∧ F.config.logGraphqlBody = true ∧ x.request.uri.path = "/graphql".toList

/-- Every request that is logged brings an id that can be read and is no preflight request, and
the id of one whose body is logged is not empty and not that of a later one. -/
structure Supplied (xs : List Turn) : Prop where
  supplied : ∀ x ∈ xs, x.Logged F →
    (suppliedId x.request).isSome ∧ F.cors.preflight x.request = none
  named : ∀ x ∈ xs, x.BodyLogged F → suppliedId x.request ≠ some []
  unused : ∀ {i j : ℕ} {x y : Turn}, i < j → xs[i]? = some x → xs[j]? = some y → x.BodyLogged F →
    y.Logged F → suppliedId x.request ≠ suppliedId y.request

/-! ### Ids of responses -/

variable {F}

lemma HeaderMap.get_insert (headers : HeaderMap) (name : Text) (value : HeaderValue) :
    (headers.insert name value).get name = some value := by
  simp [HeaderMap.insert, HeaderMap.get]

lemma HeaderMap.get_append {headers headers' : HeaderMap} {name : Text}
    (h : HeaderMap.get headers name = none) :
    HeaderMap.get (headers ++ headers') name = HeaderMap.get headers' name := by
  rw [HeaderMap.get, List.lookup_append]
  rw [HeaderMap.get] at h
  rw [h, Option.none_or]
  rfl

/-- The id with which a request reaches the routes. -/
def Turn.id (x : Turn) : HeaderValue :=
  (x.request.headers.get xRequestId).getD (toHeaderValue x.uuid.toText)

lemma id_of_propagate {next : HttpService} {request : HttpRequest} {response : HttpResponse}
    {value : HeaderValue} (h : propagateRequestId next request = some response)
    (hvalue : request.headers.get xRequestId = some value) :
    response.headers.get xRequestId = some value := by
  obtain ⟨answer, -, rfl⟩ := Option.map_eq_some_iff.mp h
  simp only [hvalue]
  exact HeaderMap.get_insert _ _ _

lemma id_of_none {x : Turn} (h : x.request.headers.get xRequestId = none) :
    x.id = toHeaderValue x.uuid.toText := by
  rw [Turn.id, h, Option.getD_none]

lemma id_of_some {x : Turn} {value : HeaderValue}
    (h : x.request.headers.get xRequestId = some value) : x.id = value := by
  rw [Turn.id, h, Option.getD_some]

/-- A request is handed on with an id. -/
lemma setRequestId_eq (x : Turn) (next : HttpService) :
    ∃ request, setRequestId x.uuid next x.request = next request ∧
      request.headers.get xRequestId = some x.id := by
  rw [setRequestId]
  cases hid : x.request.headers.get xRequestId with
  | some value => exact ⟨x.request, rfl, id_of_some hid ▸ hid⟩
  | none =>
    rw [id_of_none hid]
    exact ⟨_, rfl, HeaderMap.get_insert x.request.headers xRequestId _⟩

/-- The responses of the routes carry the id of their request. -/
lemma id_of_answer {x : Turn} (hcors : F.cors.preflight x.request = none) {response : HttpResponse}
    (h : x.answer F = some response) : response.headers.get xRequestId = some x.id := by
  obtain ⟨request, hset, hid⟩ := setRequestId_eq x (propagateRequestId x.routes)
  change Cors.layer _ _ _ = _ at h
  rw [Cors.layer, hcors, hset] at h
  obtain ⟨answer, hanswer, rfl⟩ := Option.map_eq_some_iff.mp h
  exact (HeaderMap.get_append (F.cors.headers_id _)).trans (id_of_propagate hanswer hid)

/-- A preflight request is answered without an id. -/
lemma id_of_preflight {x : Turn} {response : HttpResponse}
    (hcors : F.cors.preflight x.request = some response) :
    x.answer F = some response ∧ response.headers.get xRequestId = none := by
  refine ⟨?_, F.cors.preflight_id hcors⟩
  show Cors.layer _ _ _ = _
  rw [Cors.layer, hcors]

lemma requestId_eq (request : HttpRequest) :
    requestId request.headers = (suppliedId request).getD "unknown".toList := rfl

/-- A UUID has 36 characters. -/
lemma toStr_uuid_ne (uuid : Uuid) :
    HeaderValue.toStr (toHeaderValue uuid.toText) ≠ some "unknown".toList := by
  intro h
  rw [HeaderValue.toStr] at h
  split_ifs at h
  have hlen := congrArg List.length (Option.some.inj h)
  rw [toHeaderValue, List.length_map, List.length_map, Uuid.length_toText] at hlen
  exact absurd hlen (by decide)

/-- The log has the id of a response if and only if the client supplied it. -/
lemma toStr_id_eq {x : Turn} :
    HeaderValue.toStr x.id = some (requestId x.request.headers) ↔
      (suppliedId x.request).isSome := by
  rw [requestId_eq, suppliedId]
  cases hid : x.request.headers.get xRequestId with
  | none =>
    rw [id_of_none hid]
    exact iff_of_false (toStr_uuid_ne x.uuid) Bool.false_ne_true
  | some value =>
    rw [id_of_some hid, Option.bind_some]
    cases HeaderValue.toStr value <;> simp

/-! ### What is logged -/

lemma Turn.BodyLogged.logged {x : Turn} (h : x.BodyLogged F) : x.Logged F := h.1

/-- A request that is logged, and what of it. -/
lemma handled_of_logged {x : Turn} (h : x.Logged F) :
    (x.handled F).response = x.answer F ∧
      ∃ event : Option Text → ApiEvent,
        (∀ b, (event b).body = b ∧ (event b).requestId = requestId x.request.headers) ∧
        (x.handled F).events =
          event none :: ((loggedBody F.config x.request).map fun b => event (some b)).toList := by
  obtain ⟨hpass, hanswer⟩ := h
  obtain ⟨response, hresponse⟩ := Option.isSome_iff_exists.mp hanswer
  rcases apiAccessLog_cases F.normaliseIp F.config (stack F.cors x.routes x.uuid) x.now x.request
    with ⟨hlog, hpath, hfits, -⟩ | ⟨-, hrun⟩
  · exact absurd ⟨hlog, hpath, hfits⟩ hpass
  · have hanswer : stack F.cors x.routes x.uuid x.request = some response := hresponse
    rw [Turn.handled, hrun, runAndLog, hanswer, hresponse]
    exact ⟨rfl, _, fun b => ⟨rfl, rfl⟩, rfl⟩

lemma events_of_not_logged {x : Turn} (h : ¬ x.Logged F) : (x.handled F).events = [] := by
  rcases apiAccessLog_cases F.normaliseIp F.config (stack F.cors x.routes x.uuid) x.now x.request
    with ⟨-, -, -, hrun⟩ | ⟨hpass, hrun⟩
  · rw [Turn.handled, hrun]
  · have hanswer : stack F.cors x.routes x.uuid x.request = none :=
      Option.not_isSome_iff_eq_none.mp fun hanswer => h ⟨hpass, hanswer⟩
    rw [Turn.handled, hrun, runAndLog, hanswer]

lemma mem_events {x : Turn} {e : ApiEvent} (h : e ∈ (x.handled F).events) :
    x.Logged F ∧ e.requestId = requestId x.request.headers ∧
      (e.body ≠ none → x.BodyLogged F) := by
  have hlogged : x.Logged F := by
    by_contra hnot
    rw [events_of_not_logged hnot] at h
    cases h
  obtain ⟨-, event, hevent, hevents⟩ := handled_of_logged hlogged
  rw [hevents] at h
  rcases List.mem_cons.mp h with rfl | h
  · exact ⟨hlogged, (hevent none).2, fun hbody => absurd (hevent none).1 hbody⟩
  · rw [Option.mem_toList, Option.map_eq_some_iff] at h
    obtain ⟨b, hb, rfl⟩ := h
    refine ⟨hlogged, (hevent (some b)).2, fun _ => ⟨hlogged, ?_⟩⟩
    rw [loggedBody] at hb
    split_ifs at hb with hlog
    exact hlog

lemma exists_event {x : Turn} (h : x.Logged F) : ∃ e ∈ (x.handled F).events, e.body = none := by
  obtain ⟨-, event, hevent, hevents⟩ := handled_of_logged h
  exact ⟨event none, hevents ▸ List.mem_cons_self, (hevent none).1⟩

lemma exists_body {x : Turn} (h : x.BodyLogged F) :
    ∃ e ∈ (x.handled F).events, e.body ≠ none := by
  obtain ⟨-, event, hevent, hevents⟩ := handled_of_logged h.logged
  refine ⟨event (some (fromUtf8Lossy x.request.body.bytes)), ?_, ?_⟩
  · rw [hevents, loggedBody, if_pos h.2]
    exact List.mem_cons_of_mem _ (List.mem_singleton_self _)
  · rw [(hevent _).1]
    exact Option.some_ne_none _

/-- The lines of a log are the events of its requests. -/
lemma mem_logFrom {xs : List Turn} {n : ℕ} {l : Line} : l ∈ logFrom F n xs ↔
    ∃ i x, xs[i]? = some x ∧ l.turn = n + i ∧ l.event ∈ (x.handled F).events := by
  induction xs generalizing n with
  | nil => simp [logFrom]
  | cons x xs ih =>
    rw [logFrom, List.mem_append, ih]
    constructor
    · rintro (h | ⟨i, y, hy, hturn, hevent⟩)
      · obtain ⟨e, he, rfl⟩ := List.mem_map.mp h
        exact ⟨0, x, rfl, rfl, he⟩
      · exact ⟨i + 1, y, hy, by omega, hevent⟩
    · rintro ⟨i, y, hy, hturn, hevent⟩
      cases i with
      | zero =>
        cases hy
        exact .inl (List.mem_map.mpr ⟨l.event, hevent, by cases l; cases hturn; rfl⟩)
      | succ i => exact .inr ⟨i, y, hy, by omega, hevent⟩

/-- The lines are in the order of their requests. -/
lemma sorted_logFrom (xs : List Turn) (n : ℕ) :
    (logFrom F n xs).Pairwise fun l l' => l.turn ≤ l'.turn := by
  induction xs generalizing n with
  | nil => exact List.Pairwise.nil
  | cons x xs ih =>
    rw [logFrom, List.pairwise_append]
    refine ⟨?_, ih (n + 1), ?_⟩
    · exact List.pairwise_map.mpr (List.pairwise_of_forall fun _ _ => le_rfl)
    · intro l hl l' hl'
      obtain ⟨e, -, rfl⟩ := List.mem_map.mp hl
      obtain ⟨i, y, -, hturn, -⟩ := mem_logFrom.mp hl'
      show n ≤ l'.turn
      omega

/-! ### The join -/

/-- The event of an id in `api_events` comes from the last request that logged one. -/
lemma apiEvent_eq {log : List Line} (hsorted : log.Pairwise fun l l' => l.turn ≤ l'.turn)
    {id : Text} {a : Line} (h : apiEvent log id = some a) :
    a ∈ log ∧ a.event.requestId = id ∧
      ∀ l ∈ log, l.event.body = none → l.event.requestId = id → l.turn ≤ a.turn := by
  have hmem : a ∈ log := List.mem_reverse.mp (List.mem_of_find?_eq_some h)
  obtain ⟨ha, later, earlier, hlog, hlater⟩ := List.find?_eq_some_iff_append.mp h
  obtain ⟨-, hne, hid⟩ := of_decide_eq_true ha
  refine ⟨hmem, hid, fun l hl hbody hlid => ?_⟩
  have hrev := List.pairwise_reverse.mpr hsorted
  rw [hlog] at hrev
  rw [← List.mem_reverse, hlog] at hl
  rcases List.mem_append.mp hl with hl | hl
  · have hnot := hlater l hl
    rw [Bool.not_eq_true'] at hnot
    exact absurd ⟨hbody, hlid ▸ hid ▸ hne, hlid⟩ (of_decide_eq_false hnot)
  · rcases List.mem_cons.mp hl with rfl | hl
    · exact le_rfl
    · exact List.rel_of_pairwise_cons (List.pairwise_append.mp hrev).2.1 hl

/-- There is one as soon as an event of the id is logged. -/
lemma exists_apiEvent {log : List Line} {l : Line} (hl : l ∈ log) (hbody : l.event.body = none)
    (hid : l.event.requestId ≠ []) : ∃ a, apiEvent log l.event.requestId = some a := by
  refine Option.isSome_iff_exists.mp (List.find?_isSome.mpr ⟨l, List.mem_reverse.mpr hl, ?_⟩)
  exact decide_eq_true ⟨hbody, hid, rfl⟩

lemma mem_joined {log : List Line} {b a : Line} : (b, some a) ∈ joined log ↔
    b ∈ log ∧ b.event.body ≠ none ∧ b.event.requestId ≠ [] ∧
      apiEvent log b.event.requestId = some a := by
  rw [joined, List.mem_map]
  constructor
  · rintro ⟨b', hb', heq⟩
    obtain ⟨hmem, hb'⟩ := List.mem_filter.mp hb'
    obtain ⟨hbody, hid⟩ := of_decide_eq_true hb'
    obtain ⟨rfl, ha⟩ := Prod.mk.inj heq
    exact ⟨hmem, hbody, hid, ha⟩
  · rintro ⟨hmem, hbody, hid, ha⟩
    exact ⟨b, List.mem_filter.mpr ⟨hmem, decide_eq_true ⟨hbody, hid⟩⟩, by rw [ha]⟩

/-! ### When the ids agree -/

/-- What a request that is logged must bring, for its response to carry the id in the log. -/
lemma agree_iff {x : Turn} : (∀ e ∈ (x.handled F).events, ∃ response value,
      (x.handled F).response = some response ∧ response.headers.get xRequestId = some value ∧
        HeaderValue.toStr value = some e.requestId) ↔
    (x.Logged F → (suppliedId x.request).isSome ∧ F.cors.preflight x.request = none) := by
  constructor
  · intro h hlogged
    obtain ⟨e, he, -⟩ := exists_event hlogged
    obtain ⟨-, hid, -⟩ := mem_events he
    obtain ⟨response, value, hresponse, hvalue, htext⟩ := h e he
    rw [(handled_of_logged hlogged).1] at hresponse
    cases hcors : F.cors.preflight x.request with
    | some answer =>
      obtain ⟨hanswer, hnone⟩ := id_of_preflight hcors
      rw [hanswer] at hresponse
      cases hresponse
      rw [hnone] at hvalue
      cases hvalue
    | none =>
      rw [id_of_answer hcors hresponse] at hvalue
      cases hvalue
      exact ⟨toStr_id_eq.mp (hid ▸ htext), rfl⟩
  · intro h e he
    obtain ⟨hlogged, hid, -⟩ := mem_events he
    obtain ⟨hsupplied, hcors⟩ := h hlogged
    obtain ⟨response, hresponse⟩ := Option.isSome_iff_exists.mp hlogged.2
    refine ⟨response, x.id, (handled_of_logged hlogged).1.trans hresponse,
      id_of_answer hcors hresponse, ?_⟩
    rw [hid]
    exact toStr_id_eq.mpr hsupplied

lemma requestId_of_supplied {request : HttpRequest} {id : Text} (h : suppliedId request = some id) :
    requestId request.headers = id := by
  rw [requestId_eq, h, Option.getD_some]

/-- The lines that a request leaves. -/
lemma line_mem {xs : List Turn} {i : ℕ} {x : Turn} (hx : xs[i]? = some x) {e : ApiEvent}
    (he : e ∈ (x.handled F).events) : ⟨i, e⟩ ∈ logFrom F 0 xs :=
  mem_logFrom.mpr ⟨i, x, hx, (Nat.zero_add i).symm, he⟩

/-- A body is joined with its own request if its id is not empty and not logged again later. -/
lemma paired_of_supplied {xs : List Turn} (h : Supplied F xs) {b : Line}
    (hb : b ∈ logFrom F 0 xs) (hbody : b.event.body ≠ none) :
    ∃ a, (b, some a) ∈ joined (logFrom F 0 xs) ∧ a.turn = b.turn := by
  obtain ⟨i, x, hx, hturn, he⟩ := mem_logFrom.mp hb
  obtain ⟨hlogged, hid, hlogs⟩ := mem_events he
  obtain ⟨e, he', hnone⟩ := exists_event hlogged
  obtain ⟨-, hid', -⟩ := mem_events he'
  obtain ⟨id, hsupplied⟩ := Option.isSome_iff_exists.mp
    (h.supplied x (List.mem_of_getElem? hx) hlogged).1
  rw [requestId_of_supplied hsupplied] at hid hid'
  have hne : id ≠ [] := fun hnil =>
    h.named x (List.mem_of_getElem? hx) (hlogs hbody) (hsupplied.trans (congrArg some hnil))
  have hline : ⟨i, e⟩ ∈ logFrom F 0 xs := line_mem hx he'
  obtain ⟨a, ha⟩ := exists_apiEvent hline hnone (hid'.symm ▸ hne)
  obtain ⟨hmem, haid, hlast⟩ := apiEvent_eq (sorted_logFrom xs 0) ha
  rw [hid'] at ha haid hlast
  refine ⟨a, mem_joined.mpr ⟨hb, hbody, hid.symm ▸ hne, hid.symm ▸ ha⟩, ?_⟩
  obtain ⟨j, y, hy, hturn', he''⟩ := mem_logFrom.mp hmem
  obtain ⟨hlogged', hid'', -⟩ := mem_events he''
  obtain ⟨id', hsupplied'⟩ := Option.isSome_iff_exists.mp
    (h.supplied y (List.mem_of_getElem? hy) hlogged').1
  rw [requestId_of_supplied hsupplied', haid] at hid''
  -- A later request would have logged the same id.
  have hle : i ≤ a.turn := hlast _ hline hnone hid'
  rcases hle.lt_or_eq with hlt | heq
  · have hij : i < j := by omega
    have hsame : suppliedId x.request = suppliedId y.request := by
      rw [hsupplied, hsupplied', hid'']
    exact absurd hsame (h.unused hij hx hy (hlogs hbody) hlogged')
  · omega

/-- The ids of log and responses agree, and the join of the report is right, if and only if every
request that is logged brings its own id. -/
theorem identified_iff (F : Frontend) (xs : List Turn) : Identified F xs ↔ Supplied F xs := by
  constructor
  · intro h
    refine ⟨fun x hx => agree_iff.mp (h.agree x hx), ?_, ?_⟩
    · intro x hx hlogs hnil
      obtain ⟨i, hi⟩ := List.mem_iff_getElem?.mp hx
      obtain ⟨e, he, hbody⟩ := exists_body hlogs
      obtain ⟨a, ha, -⟩ := h.paired _ (line_mem hi he) hbody
      obtain ⟨-, -, hne, -⟩ := mem_joined.mp ha
      exact hne ((mem_events he).2.1.trans (requestId_of_supplied hnil))
    · intro i j x y hij hx hy hlogs hlogged hsame
      obtain ⟨e, he, hbody⟩ := exists_body hlogs
      obtain ⟨a, ha, hturn⟩ := h.paired _ (line_mem hx he) hbody
      obtain ⟨-, -, -, hevent⟩ := mem_joined.mp ha
      obtain ⟨-, -, hlast⟩ := apiEvent_eq (sorted_logFrom xs 0) hevent
      obtain ⟨e', he', hnone⟩ := exists_event hlogged
      have hid : e'.requestId = e.requestId := by
        rw [(mem_events he').2.1, (mem_events he).2.1, requestId_eq, requestId_eq, hsame]
      have hle : j ≤ a.turn := hlast _ (line_mem hy he') hnone hid
      have hturn : a.turn = i := hturn
      omega
  · intro h
    refine ⟨fun x hx => agree_iff.mpr (h.supplied x hx), ?_, fun b hb => paired_of_supplied h hb⟩
    intro i j x y _ hx _ hnone _ e he
    have hsupplied := (h.supplied x (List.mem_of_getElem? hx) (mem_events he).1).1
    rw [suppliedId, hnone] at hsupplied
    cases hsupplied

namespace Known

/-- Preflight requests are those of the method `OPTIONS`. -/
def cors : Cors where
  preflight request := if request.method = "OPTIONS".toList then some ⟨200, [], []⟩ else none
  headers _ := [("access-control-allow-origin".toList,
    toHeaderValue "https://example.com".toList)]
  preflight_id h := by
    split_ifs at h
    cases h
    rfl
  headers_id _ := by decide

def frontend : Frontend := ⟨some, settings 3600, cors⟩

/-- A request for the health of the service, without an id. -/
def visit (uuid : Uuid) : Turn where
  request := ⟨"GET".toList, ⟨"/healthz".toList, "/healthz".toList⟩, [], ⟨[], true⟩⟩
  uuid := uuid
  now := newYear
  routes := answering

end Known

/-- Two requests without ids: their responses carry UUIDs, and the log has the same id for both. -/
theorem identified_unknown :
    [Known.visit ⟨1⟩, Known.visit ⟨2⟩].map
        (fun x => (x.handled Known.frontend).events.map ApiEvent.requestId) =
      [["unknown".toList], ["unknown".toList]] ∧
    [Known.visit ⟨1⟩, Known.visit ⟨2⟩].map
        (fun x => (x.answer Known.frontend).bind fun r => r.headers.get xRequestId) =
      [some (toHeaderValue (Uuid.mk 1).toText), some (toHeaderValue (Uuid.mk 2).toText)] ∧
    ¬ Identified Known.frontend [Known.visit ⟨1⟩, Known.visit ⟨2⟩] := by
  refine ⟨by decide, by decide, fun h => ?_⟩
  have hlogged : (Known.visit ⟨1⟩).Logged Known.frontend :=
    ⟨fun hlog => Bool.noConfusion hlog.1, by decide⟩
  have hsupplied := (agree_iff.mp (h.agree _ List.mem_cons_self) hlogged).1
  exact absurd hsupplied (by decide)

end TittyBackend
