import TittyBackend.Http

/-!
# The authentication gate

Who the fields of a request run for is decided by its first `Authorization` header. A header
with a byte that `to_str` does not take counts as no header.
-/

namespace TittyBackend

open Numerals Programs Resolver

/-! ### What a header carries -/

def bearer : HeaderValue := "Bearer ".toList.map fun c => UInt8.ofNat c.toNat

/-- The header value is `Bearer ` and a token that is accepted for the subject `a`. -/
def CarriesToken (D : Deployment) (now : ℤ) (value : HeaderValue) (a : Text) : Prop :=
  ∃ token : HeaderValue, value = bearer ++ token ∧ token ≠ [] ∧
    ∃ claims, D.decode (token.map asciiChar) D.jwtSecret D.jwtIssuer now = some claims ∧
      claims.sub = a

def Carries (D : Deployment) (now : ℤ) (headers : HeaderMap) (a : Text) : Prop :=
  ∃ value, headers.get "authorization".toList = some value ∧ CarriesToken D now value a

/-- `to_str` takes the first `Authorization` header, if there is one. -/
def Readable (headers : HeaderMap) : Prop :=
  ∀ value, headers.get "authorization".toList = some value → value.all isVisible = true

lemma asciiChar_injective : Function.Injective asciiChar := by
  have hcode : ∀ n < 2 ^ 8, (Char.ofNat n).toNat = n := by decide +kernel
  intro b c h
  have hnat := congrArg Char.toNat h
  rw [asciiChar, asciiChar, hcode _ b.toNat_lt, hcode _ c.toNat_lt] at hnat
  exact UInt8.toNat.inj hnat

lemma map_bearer : bearer.map asciiChar = "Bearer ".toList := by decide

/-- The text of a value starts as a bearer header does exactly when its bytes do. -/
lemma prefix_iff {value : HeaderValue} :
    "Bearer ".toList <+: value.map asciiChar ↔ ∃ token, value = bearer ++ token := by
  constructor
  · rintro ⟨rest, hrest⟩
    obtain ⟨v, token, rfl, hv, -⟩ := List.map_eq_append_iff.1 hrest.symm
    rw [← map_bearer] at hv
    exact ⟨token, by rw [asciiChar_injective.list_map hv]⟩
  · rintro ⟨token, rfl⟩
    rw [List.map_append, map_bearer]
    exact List.prefix_append _ _

/-! ### The verdict -/

section Verdict

variable {D : Deployment} {now : ℤ} {headers : HeaderMap} {value : HeaderValue} {a : Text}

lemma verdict_of_none (h : headers.get "authorization".toList = none) :
    verdict D now headers = .run none := by
  rw [verdict, authorization, h]
  rfl

lemma verdict_of_unreadable (h : headers.get "authorization".toList = some value)
    (hno : ¬ value.all isVisible = true) : verdict D now headers = .run none := by
  have hnone : value.toStr = none := if_neg hno
  rw [verdict, authorization, h, Option.bind_some, hnone]
  rfl

/-- A header that can be read lets its subject in, or nobody. -/
lemma verdict_of_readable (h : headers.get "authorization".toList = some value)
    (hread : value.all isVisible = true) :
    (∀ a, verdict D now headers = .run (some a) ↔ CarriesToken D now value a) ∧
      verdict D now headers ≠ .run none ∧
      ((∀ a, ¬ CarriesToken D now value a) → verdict D now headers = .refuse) := by
  have htext : value.toStr = some (value.map asciiChar) := if_pos hread
  rw [verdict, authorization, h, Option.bind_some, htext, authenticateBearer]
  by_cases hbearer : ∃ token, value = bearer ++ token
  · have hpre := prefix_iff.2 hbearer
    obtain ⟨token, rfl⟩ := hbearer
    have hdrop : ((bearer ++ token).map asciiChar).drop 7 = token.map asciiChar := by
      rw [List.map_append, map_bearer]
      rfl
    rw [hdrop]
    by_cases hempty : token = []
    · subst hempty
      rw [if_pos (.inr rfl)]
      have hno : ∀ a, ¬ CarriesToken D now (bearer ++ []) a := by
        rintro a ⟨token, heq, hne, -⟩
        exact hne (List.append_cancel_left heq).symm
      exact ⟨fun a => iff_of_false Verdict.noConfusion (hno a), Verdict.noConfusion, fun _ => rfl⟩
    · rw [if_neg fun h => h.elim (fun hno => hno hpre)
        fun hnil => hempty (List.map_eq_nil_iff.1 hnil)]
      have hcarries : ∀ a, CarriesToken D now (bearer ++ token) a ↔
          ∃ claims, D.decode (token.map asciiChar) D.jwtSecret D.jwtIssuer now = some claims ∧
            claims.sub = a := by
        intro a
        constructor
        · rintro ⟨token', heq, -, h⟩
          rwa [← List.append_cancel_left heq] at h
        · exact fun h => ⟨token, rfl, hempty, h⟩
      simp only [hcarries]
      cases hdecode : D.decode (token.map asciiChar) D.jwtSecret D.jwtIssuer now with
      | none => simp
      | some claims => simp
  · have hpre : ¬ "Bearer ".toList <+: value.map asciiChar := mt prefix_iff.1 hbearer
    have hno : ∀ a, ¬ CarriesToken D now value a := by
      rintro a ⟨token, heq, -⟩
      exact hbearer ⟨token, heq⟩
    rw [if_pos (.inl hpre)]
    exact ⟨fun a => iff_of_false Verdict.noConfusion (hno a), Verdict.noConfusion, fun _ => rfl⟩

end Verdict

/-! ### Without a session -/

/-- The context that an operation takes its session from. -/
def Op.session? : Op → Option Context
  | sendLiveChatRequest ctx _ | renewLiveChatRequest ctx _ | cancelLiveChatRequest ctx _
  | blockIdentity ctx _ | unblockIdentity ctx _ | me ctx | blockedIdentities ctx
  | liveChatRequests ctx => some ctx
  | _ => none

/-- Without a session such an operation fails before its first statement. -/
lemma resolver_of_anonymous (D : Deployment) {op : Op} {ctx : Context}
    (hop : op.session? = some ctx) (hctx : ctx.account = none) :
    (op.resolver D).run = .ret (.error (.api .unauthorized)) := by
  have hauth : authenticated ctx = fail .unauthorized := by rw [authenticated, hctx]; rfl
  cases op <;> cases hop <;>
    simp only [Op.resolver, sendLiveChatRequest, renewLiveChatRequest, cancelLiveChatRequest,
      blockIdentity, unblockIdentity, me, blockedIdentities, liveChatRequests, hauth] <;> rfl

/-- A request of nothing but such operations issues no command. -/
lemma execute_of_anonymous (D : Deployment) (via : Conversion) {ops : List Op}
    (h : ∀ op ∈ ops, ∃ ctx, op.session? = some ctx ∧ ctx.account = none) :
    execute D via ops = .ret (ops.map fun _ => .error (via.carry .unauthorized)) := by
  induction ops with
  | nil => rfl
  | cons op ops ih =>
    obtain ⟨ctx, hop, hctx⟩ := h op List.mem_cons_self
    rw [execute, Op.field, resolver_of_anonymous D hop hctx,
      ih fun op hop => h op (List.mem_cons_of_mem _ hop)]
    rfl

/-! ### Behind the global limit -/

/-- Once the global limit has admitted the request and the clock has read `now`, the handler goes
on as `p`. -/
def Proceeds (D : Deployment) (via : Conversion) (normaliseIp : Text → Option Text) (now : ℤ)
    (headers : HeaderMap) (request : List (Context → Op)) (p : Program Reply) : Prop :=
  (graphqlHandler D via normaliseIp headers request).Resumes
    [⟨.check (bucketKey (requestSource normaliseIp headers) "graphql".toList) 120 minute, true⟩,
      ⟨.now, now⟩] p

/-- Every request with these headers has its resolvers run for `account`, one after the other, and
is answered with their results. -/
def RunsFor (D : Deployment) (now : ℤ) (headers : HeaderMap) (account : Option Text) : Prop :=
  ∀ via normaliseIp request, Proceeds D via normaliseIp now headers request
    (execute D via (request.map fun field => field ⟨requestSource normaliseIp headers, account⟩) >>=
      fun xs => .ret (.graphql xs))

/-- Every request with these headers is answered with 401, and no command is issued for it. -/
def Refused (D : Deployment) (now : ℤ) (headers : HeaderMap) : Prop :=
  ∀ via normaliseIp request, Proceeds D via normaliseIp now headers request (.ret .unauthorized)

section Proceeds

variable {D : Deployment} {via : Conversion} {normaliseIp : Text → Option Text} {now : ℤ}
  {headers : HeaderMap} {request : List (Context → Op)} {p : Program Reply}
  {account : Option Text}

@[simp] lemma proceeds_iff : Proceeds D via normaliseIp now headers request p ↔
    p = respond D via now headers (requestSource normaliseIp headers) request := by
  rw [Proceeds, graphqlHandler]
  exact Prog.resumes_call.trans (Prog.resumes_call.trans Prog.resumes_nil)

lemma runsFor_of_verdict (h : verdict D now headers = .run account) :
    RunsFor D now headers account := by
  intro via normaliseIp request
  rw [proceeds_iff, respond, h]

lemma refused_of_verdict (h : verdict D now headers = .refuse) : Refused D now headers := by
  intro via normaliseIp request
  rw [proceeds_iff, respond, h]

/-- The field `me` shows whom a request runs for. -/
lemma eq_of_me {key : Text} {a b : Option Text} {f : List Outcome → Program Reply}
    (h : (execute D via [.me ⟨key, a⟩] >>= f) = (execute D via [.me ⟨key, b⟩] >>= f))
    (hf : ∀ xs, ∃ r, f xs = .ret r) : a = b := by
  have ended (x : Option Text) (hx : x = none) :
      ∃ r, (execute D via [.me ⟨key, x⟩] >>= f) = .ret r := by
    subst hx
    exact hf _
  cases a with
  | none =>
    cases b with
    | none => rfl
    | some b =>
      obtain ⟨r, hr⟩ := ended none rfl
      cases hr.symm.trans h
  | some a =>
    cases b with
    | none =>
      obtain ⟨r, hr⟩ := ended none rfl
      cases h.trans hr
    | some b =>
      obtain ⟨hselect, -⟩ := Prog.call.inj h
      rw [Select.accountById.inj (Command.select.inj hselect)]

lemma runsFor_iff : RunsFor D now headers account ↔ verdict D now headers = .run account := by
  refine ⟨fun h => ?_, runsFor_of_verdict⟩
  have hme := proceeds_iff.mp (h .question (fun _ => none) [.me])
  cases hverdict : verdict D now headers with
  | refuse =>
    rw [respond, hverdict] at hme
    cases account <;> cases hme
  | run account' =>
    rw [respond, hverdict] at hme
    rw [eq_of_me hme fun xs => ⟨_, rfl⟩]

/-- Without a session, a request of nothing but operations that need one fails in each field, and
no statement is sent. -/
lemma RunsFor.unauthorized (h : RunsFor D now headers none)
    (hall : ∀ field ∈ request, ∃ ctx,
      Op.session? (field ⟨requestSource normaliseIp headers, none⟩) = some ctx ∧
        ctx.account = none) :
    Proceeds D via normaliseIp now headers request
      (.ret (.graphql (request.map fun _ => .error (via.carry .unauthorized)))) := by
  have hops : ∀ op ∈ request.map fun field => field ⟨requestSource normaliseIp headers, none⟩,
      ∃ ctx, op.session? = some ctx ∧ ctx.account = none := by
    intro op hop
    obtain ⟨field, hfield, rfl⟩ := List.mem_map.1 hop
    exact hall field hfield
  have hproceeds := h via normaliseIp request
  rw [execute_of_anonymous D via hops, List.map_map] at hproceeds
  exact hproceeds

end Proceeds

/-! ### The gate -/

/-- What the handler promises of a request with these headers, once the global limit admits it
at `now`. -/
structure Gate (D : Deployment) (now : ℤ) (headers : HeaderMap) : Prop where
  session : ∀ a, RunsFor D now headers (some a) ↔ Carries D now headers a
  anonymous : RunsFor D now headers none ↔ headers.get "authorization".toList = none
  refused : headers.get "authorization".toList ≠ none → (∀ a, ¬ Carries D now headers a) →
    Refused D now headers
  /-- Operations that need a session fail, and no statement is sent. -/
  untouched : RunsFor D now headers none → ∀ via normaliseIp request,
    (∀ field ∈ request, ∃ ctx,
      Op.session? (field ⟨requestSource normaliseIp headers, none⟩) = some ctx ∧
        ctx.account = none) →
    Proceeds D via normaliseIp now headers request
      (.ret (.graphql (request.map fun _ => .error (via.carry .unauthorized))))

/-- The gate keeps its promise exactly when the first `Authorization` header can be read. -/
theorem auth_gate (D : Deployment) (now : ℤ) (headers : HeaderMap) :
    Gate D now headers ↔ Readable headers := by
  constructor
  · intro hgate value hvalue
    by_contra hno
    have hnone := hgate.anonymous.1 (runsFor_of_verdict (verdict_of_unreadable hvalue hno))
    rw [hnone] at hvalue
    cases hvalue
  · intro hread
    cases hvalue : headers.get "authorization".toList with
    | none =>
      have hrun : verdict D now headers = .run none := verdict_of_none hvalue
      have hno : ∀ a, ¬ Carries D now headers a := by
        rintro a ⟨value, hsome, -⟩
        rw [hvalue] at hsome
        cases hsome
      exact ⟨fun a => iff_of_false (by rw [runsFor_iff, hrun]; simp) (hno a),
        iff_of_true (runsFor_of_verdict hrun) hvalue, fun hsome => (hsome hvalue).elim,
        fun h _ _ _ => h.unauthorized⟩
    | some value =>
      obtain ⟨hsession, hrun, hrefuse⟩ := @verdict_of_readable D now _ _ hvalue (hread value hvalue)
      have hcarries : ∀ a, Carries D now headers a ↔ CarriesToken D now value a := by
        intro a
        rw [Carries, hvalue]
        simp
      refine ⟨fun a => runsFor_iff.trans ((hsession a).trans (hcarries a).symm),
        iff_of_false (mt runsFor_iff.mp hrun) ?_, fun _ hno => ?_,
        fun h _ _ _ => h.unauthorized⟩
      · rw [hvalue]
        exact Option.some_ne_none _
      · exact refused_of_verdict (hrefuse fun a ha => hno a ((hcarries a).2 ha))

/-- A token with a byte of another alphabet. -/
theorem auth_gate_unreadable :
    ¬ Gate Known.deployment Known.newYear [("authorization".toList, bearer ++ [0xC3, 0xA9])] := by
  intro hgate
  have hrun : verdict Known.deployment Known.newYear
      [("authorization".toList, bearer ++ [0xC3, 0xA9])] = .run none :=
    verdict_of_unreadable rfl (by decide)
  cases hgate.anonymous.1 (runsFor_of_verdict hrun)

end TittyBackend
