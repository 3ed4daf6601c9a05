import Mathlib.Data.List.Infix
import TittyBackend.Blocking
import TittyBackend.Requests

/-!
# Retries of a send

A client retries a send under the same client id. The look-up by that id and the insertion are two
statements, so two sends that overlap may both find nothing; the one that inserts last violates the
unique index and answers with an internal error.
-/

namespace TittyBackend

open Numerals Programs Programs.System Resolver
open DateTime (seconds)

variable {D : Deployment} {P : Service D → Action Op Choice → Prop} {t₀ : ℤ} {s : Service D}

/-! ### How a send ends -/

/-- A statement other than the insertion that did not run. -/
def Failed : Exchange Command Command.Ans → Prop
  | ⟨.select _, .error _⟩ | ⟨.execute .removeExpiredChats, .error _⟩ => True
  | _ => False

/-- What a send has seen after a look-up that found nothing. -/
def lookedUp (sender : Text) (clientRequestId : Uuid) (key : List UInt8) (n : ℕ) :
    Past Command Command.Ans :=
  [⟨.select (.existingRequest sender clientRequestId.toText), .ok none⟩,
    ⟨.select (.publicKey sender), .ok (some key)⟩, ⟨.execute .removeExpiredChats, .ok n⟩]

/-- What a send has seen after it drew its ids. -/
def drewIds (sender : Text) (clientRequestId : Uuid) (key : List UInt8) (n m : ℕ) (t : ℤ)
    (u v : Uuid) : Past Command Command.Ans :=
  ⟨.newUuid, v⟩ :: ⟨.newUuid, u⟩ :: ⟨.now, t⟩ :: ⟨.select (.activeCount sender), .ok m⟩ ::
    lookedUp sender clientRequestId key n

/-- The ends of a send: all that it has seen, and its answer. -/
inductive SendEnds (ctx : Context) (input : SendLiveChatRequestInput) :
    Past Command Command.Ans → Response → Prop
  | refused {r : Response} (h : ctx.account = none ∨
      (∀ payload, decodePayload input.encryptedPayload ≠ .ok payload) ∨
      ∀ name, normaliseIdentitty input.recipientIdentitty ≠ .ok name) : SendEnds ctx input [] r
  | failed {past : Past Command Command.Ans} {x : Exchange Command Command.Ans} {r : Response}
      (hx : x ∈ past) (hf : Failed x) : SendEnds ctx input past r
  | unknown {sender : Text} {n : ℕ} {r : Response} (hs : ctx.account = some sender) :
      SendEnds ctx input
        [⟨.select (.publicKey sender), .ok none⟩, ⟨.execute .removeExpiredChats, .ok n⟩] r
  | found {sender : Text} {n : ℕ} {key : List UInt8} {row : ExistingRequestRow}
      (hs : ctx.account = some sender) : SendEnds ctx input
        [⟨.select (.existingRequest sender input.clientRequestId.toText), .ok (some row)⟩,
          ⟨.select (.publicKey sender), .ok (some key)⟩, ⟨.execute .removeExpiredChats, .ok n⟩]
        ((row.intoSubmission.map Answer.submission).mapError .api)
  | full {sender : Text} {n m : ℕ} {key : List UInt8} {r : Response}
      (hs : ctx.account = some sender) (hm : 25 ≤ m) : SendEnds ctx input
        (⟨.select (.activeCount sender), .ok m⟩ :: lookedUp sender input.clientRequestId key n) r
  | panic {sender : Text} {n m : ℕ} {key : List UInt8} {t : ℤ} {r : Response}
      (hs : ctx.account = some sender)
      (ht : DateTime.addSeconds t 90 = none ∨ DateTime.addSeconds t (15 * 60) = none) :
      SendEnds ctx input
        (⟨.now, t⟩ :: ⟨.select (.activeCount sender), .ok m⟩ ::
          lookedUp sender input.clientRequestId key n) r
  | nobody {sender name : Text} {n m : ℕ} {key : List UInt8} {t : ℤ} {u v : Uuid} {r : Response}
      (hs : ctx.account = some sender)
      (hname : normaliseIdentitty input.recipientIdentitty = .ok name) : SendEnds ctx input
        (⟨.select (.recipient name), .ok none⟩ ::
          drewIds sender input.clientRequestId key n m t u v) r
  | hidden {sender name recipient : Text} {n m : ℕ} {key : List UInt8} {t : ℤ} {u v : Uuid}
      {blocked : Bool} {r : Response} (hs : ctx.account = some sender)
      (hname : normaliseIdentitty input.recipientIdentitty = .ok name)
      (hb : ¬ (blocked = false ∧ recipient ≠ sender)) : SendEnds ctx input
        (⟨.select (.blockExists recipient sender), .ok blocked⟩ ::
          ⟨.select (.recipient name), .ok (some recipient)⟩ ::
            drewIds sender input.clientRequestId key n m t u v) r
  | inserted {r : ChatRecord} {u v : Uuid} {t : ℤ} {name : Text} {n m k : ℕ}
      (hs : Sending ctx input r u v t name) : SendEnds ctx input
        (⟨.execute (.insertChat r), .ok k⟩ :: sendPast r u v t name n m)
        (.ok (.submission ⟨u, true, v, t + seconds 90⟩))
  | clash {r : ChatRecord} {u v : Uuid} {t : ℤ} {name : Text} {n m : ℕ} {e : SqlError}
      (hs : Sending ctx input r u v t name) : SendEnds ctx input
        (⟨.execute (.insertChat r), .error e⟩ :: sendPast r u v t name n m)
        (.error (.api .internal))

lemma submitRequest_ends {ctx : Context} {input : SendLiveChatRequestInput} {sender name : Text}
    {key payload : List UInt8} {n : ℕ} (hs : ctx.account = some sender)
    (hpayload : decodePayload input.encryptedPayload = .ok payload)
    (hname : normaliseIdentitty input.recipientIdentitty = .ok name) :
    (Answer.submission <$> submitRequest sender key payload name input.clientRequestId).run.Keeps
      (fun _ _ => True) (SendEnds ctx input) (lookedUp sender input.clientRequestId key n) := by
  simp only [submitRequest, wp_map, wp_bind, keeps_fetch (.activeCount _), wp_refuse, keeps_now,
    wp_addSeconds, keeps_newUuid, keeps_fetch (.recipient _), Except.map, wp_pure, true_and]
  have failed {past : Past Command Command.Ans} {x : Exchange Command Command.Ans} {r : Response}
    (hf : Failed x) : SendEnds ctx input (x :: past) r := .failed List.mem_cons_self hf
  refine ⟨fun m => ⟨fun hm => .full hs hm,
    fun hm t => ⟨fun lease hlease => ⟨fun hard hhard u v => ?_,
      fun hnone => .panic hs (.inr hnone)⟩, fun hnone => .panic hs (.inl hnone)⟩⟩,
    fun _ => failed trivial⟩
  refine ⟨fun recipient => ?_, fun _ => failed trivial⟩
  obtain rfl := DateTime.addSeconds_eq_some hlease
  obtain rfl := DateTime.addSeconds_eq_some hhard
  rw [insertUnlessHidden.eq_def]
  cases recipient with
  | none => exact .nobody hs hname
  | some recipient =>
    simp only [wp_bind, keeps_fetch (.blockExists _ _), true_and]
    refine ⟨fun blocked => ?_, fun _ => failed trivial⟩
    split_ifs with hb
    · obtain ⟨rfl, hne⟩ := hb
      simp only [wp_bind, keeps_execute, wp_pure, true_and]
      have hsending : Sending ctx input ⟨u.toText, v.toText, input.clientRequestId.toText, sender,
          recipient, key, payload, toRfc3339 t, toRfc3339 (t + seconds 90),
          toRfc3339 (t + seconds (15 * 60))⟩ u v t name :=
        ⟨hs, hpayload, hname, rfl, rfl, rfl, rfl, rfl, rfl, hne⟩
      exact ⟨fun k => .inserted hsending, fun e => .clash hsending⟩
    · exact .hidden hs hname hb

lemma sendLiveChatRequest_ends (ctx : Context) (input : SendLiveChatRequestInput) :
    (Op.program D (.sendLiveChatRequest ctx input)).Keeps (fun _ _ => True)
      (SendEnds ctx input) [] := by
  simp only [Op.program, Op.resolver, sendLiveChatRequest, authenticated, wp_map, wp_bind,
    wp_orFail, wp_lift, keeps_execute, keeps_fetch (.publicKey _),
    keeps_fetch (.existingRequest _ _), Except.map, true_and]
  have failed {past : Past Command Command.Ans} {x : Exchange Command Command.Ans} {r : Response}
    (hf : Failed x) : SendEnds ctx input (x :: past) r := .failed List.mem_cons_self hf
  refine ⟨fun sender hs => ⟨fun payload hpayload => ⟨fun name hname => ⟨fun n => ⟨?_,
    fun _ => failed trivial⟩, fun _ => failed trivial⟩, ?_⟩, ?_⟩,
    fun hnone => .refused (.inl hnone)⟩
  · intro found
    refine ⟨fun key hkey => ?_, fun hnone => ?_⟩
    · obtain rfl := hkey
      refine ⟨fun existing => ?_, fun _ => failed trivial⟩
      cases existing with
      | some row =>
        simp only [wp_lift]
        constructor
        · intro x hx
          have hend := @SendEnds.found ctx input sender n key row hs
          rwa [hx] at hend
        · intro e he
          have hend := @SendEnds.found ctx input sender n key row hs
          rwa [he] at hend
      | none => exact (wp_map _ _).mp (submitRequest_ends hs hpayload hname)
    · obtain rfl := hnone
      exact .unknown hs
  · intro e he
    exact .refused (.inr (.inr fun name hname => by rw [he] at hname; cases hname))
  · intro e he
    exact .refused (.inr (.inl fun payload hpayload => by rw [he] at hpayload; cases hpayload))

theorem send_ends {i : ℕ} {resp : Response} {ctx : Context} {input : SendLiveChatRequestInput}
    (h : Reach P ((service D).start (World.init .empty t₀)) s) {post pre : Log}
    (hlog : s.log = post ++ .respond i resp :: pre)
    (hcall : .call i (.sendLiveChatRequest ctx input) ∈ pre) :
    SendEnds ctx input (own i pre) resp := by
  have hends : ∀ op : Op, (op.program D).Keeps (fun _ _ => True) (fun past r =>
      ∀ ctx input, op = .sendLiveChatRequest ctx input → SendEnds ctx input past r) [] := by
    intro op
    by_cases hop : ∃ ctx input, op = .sendLiveChatRequest ctx input
    · obtain ⟨ctx, input, rfl⟩ := hop
      refine (sendLiveChatRequest_ends ctx input).mono (fun _ _ h => h) fun past r hr => ?_
      rintro _ _ ⟨⟩
      exact hr
    · exact Prog.keeps_of_forall _ (fun _ _ => trivial) fun _ _ ctx input heq =>
        absurd ⟨ctx, input, heq⟩ hop
  obtain ⟨op, hop, hr⟩ := h.log_respond hends hlog
  have hsub : pre ⊆ s.log := by
    rw [hlog]
    exact fun e he => List.mem_append_right _ (List.mem_cons_of_mem _ he)
  exact hr ctx input (h.logged.call_unique (hsub hop) (hsub hcall))

/-! ### The promise -/

/-- What a client sends again and again. -/
structure Intent where
  sender : Text
  clientRequestId : Uuid
  payload : List UInt8
  recipient : Text

namespace Intent

variable (x : Intent)

/-- The operation is a send of it. -/
def Sent (op : Op) : Prop := ∃ ctx input, op = .sendLiveChatRequest ctx input ∧
  ctx.account = some x.sender ∧ input.clientRequestId = x.clientRequestId

/-- The row is a request stored for it. -/
def Stored (r : ChatRecord) : Prop :=
  r.senderAccountId = x.sender ∧ r.clientRequestId = x.clientRequestId.toText

instance (r : ChatRecord) : Decidable (x.Stored r) := inferInstanceAs (Decidable (_ ∧ _))

/-- The sender is registered, and so is the recipient, who is somebody else and does not block the
sender; the sender has no more than 24 other active requests. -/
structure Welcome (D : Deployment) (now : ℤ) (d : Db) : Prop where
  sender : d.HasAccount x.sender
  recipient : ∃ a, d.accountByIdentitty x.recipient = some a ∧ a.accountId ≠ x.sender ∧
    ∀ b ∈ d.blocks.rows, ¬ (b.blockerAccountId = a.accountId ∧ b.blockedAccountId = x.sender)
  others : d.chats.rows.countP (fun r =>
    r.senderAccountId = x.sender ∧ r.clientRequestId ≠ x.clientRequestId.toText ∧
      r.Active D now) ≤ 24

/-- All sends carry the same payload and the same recipient, who is there for them; no statement of
theirs fails, and the clock stays before the last minutes of the year 9999. -/
structure Setting (s : Service D) (a : Action Op Choice) : Prop where
  early : Reading Early a
  call : ∀ ctx input, a = .call (.sendLiveChatRequest ctx input) → ctx.account = some x.sender →
    input.clientRequestId = x.clientRequestId →
      decodePayload input.encryptedPayload = .ok x.payload ∧
        normaliseIdentitty input.recipientIdentitty = .ok x.recipient
  step : ∀ i ch op, a = .step i ch → .call i op ∈ s.log → x.Sent op →
    ch.fails = false ∧ x.Welcome D ch.reading s.world.db

/-- While there is a request for it no second one is made, one is made before a send of it answers,
and a send of it that answers while there is an active one answers with the ids of that. -/
structure Idempotent (P : Service D → Action Op Choice → Prop) (t₀ : ℤ) (s : Service D) :
    Prop where
  once : ∀ r ∈ s.world.db.chats.rows, x.Stored r → ∀ post pre k r₀ n,
    s.log = post ++ .exec k ⟨.execute (.insertChat r₀), .ok n⟩ :: pre →
    r₀.requestId = r.requestId →
    ∀ j r' m, .exec j ⟨.execute (.insertChat r'), .ok m⟩ ∈ post → ¬ x.Stored r'
  made : ∀ j op resp, .call j op ∈ s.log → x.Sent op → .respond j resp ∈ s.log →
    ∃ k r n, .exec k ⟨.execute (.insertChat r), .ok n⟩ ∈ s.log ∧ x.Stored r
  answers : ∀ j op resp s₁ s₂,
    Passes P ((service D).start (World.init .empty t₀)) s₁ (.respond j) s₂ s →
    s₂.log = .respond j resp :: s₁.log → .call j op ∈ s₁.log → x.Sent op →
    ∀ r ∈ s₁.world.db.chats.rows, x.Stored r → r.Active D s₁.world.clock = true →
      ∃ y, resp = .ok (.submission y) ∧ y.requestId.toText = r.requestId ∧
        y.leaseId.toText = r.leaseId

/-- A send of it that answers while there is an active request has either made that itself, or
looked for one after it was made. -/
def InOrder (s : Service D) (a : Action Op Choice) : Prop :=
  ∀ j op, a = .respond j → .call j op ∈ s.log → x.Sent op →
    ∀ r ∈ s.world.db.chats.rows, x.Stored r → r.Active D s.world.clock = true →
      ∀ post pre k r₀ n, s.log = post ++ .exec k ⟨.execute (.insertChat r₀), .ok n⟩ :: pre →
        r₀.requestId = r.requestId → k = j ∨
          ∀ y, .exec j ⟨.select (.existingRequest x.sender x.clientRequestId.toText), y⟩ ∉ pre

end Intent

/-! ### Where the request for an intent is -/

/-- A stored request was inserted. -/
lemma insert_of_row (h : Reach P ((service D).start (World.init .empty t₀)) s) {r : ChatRecord}
    (hr : r ∈ s.world.db.chats.rows) : ∃ post pre k r₀,
      s.log = post ++ .exec k ⟨.execute (.insertChat r₀), .ok 1⟩ :: pre ∧
        r = { r₀ with leaseExpiresAt := r.leaseExpiresAt } := by
  obtain ⟨r₀, k, u, v, t, hsent, heq⟩ := (provenance h).chats r hr
  obtain ⟨post, pre, hlog⟩ := List.append_of_mem hsent.insert
  exact ⟨post, pre, k, r₀, hlog, heq⟩

/-- A request is in the table from its insertion on as long as it is there. -/
lemma present_since {s₁ : Service D} (h₁ : Reach P ((service D).start (World.init .empty t₀)) s₁)
    (h : Reach P s₁ s) {r r₀ : ChatRecord} (hr : r ∈ s.world.db.chats.rows) {k n : ℕ}
    (hins : .exec k ⟨.execute (.insertChat r₀), .ok n⟩ ∈ s₁.log)
    (hid : r₀.requestId = r.requestId) :
    ∃ r₁ ∈ s₁.world.db.chats.rows, r = { r₁ with leaseExpiresAt := r.leaseExpiresAt } := by
  rcases row_earlier h₁ h hr with hr₁ | ⟨post, j, r₂, m, hlog, hlate, heq⟩
  · exact hr₁
  · obtain ⟨a, b, hab⟩ := List.append_of_mem hins
    rw [hab, ← List.append_assoc] at hlog
    refine absurd ?_ (insert_once (h₁.trans h) hlog (List.mem_append_left _ hlate))
    rw [hid, heq]

namespace Intent

variable {x : Intent}

lemma Stored.of_eq {r r₁ : ChatRecord} (h : x.Stored r)
    (heq : r = { r₁ with leaseExpiresAt := r.leaseExpiresAt }) : x.Stored r₁ := by
  rw [heq] at h
  exact h

/-- A look-up that does not come before the insertion finds the request, if that is there still. -/
lemma finds (h : Reach P ((service D).start (World.init .empty t₀)) s) {r r₀ : ChatRecord}
    (hr : r ∈ s.world.db.chats.rows) (hs : x.Stored r) {post pre : Log} {j k n : ℕ}
    {found : Option ExistingRequestRow}
    (hlog : s.log = post ++ .exec k ⟨.execute (.insertChat r₀), .ok n⟩ :: pre)
    (hid : r₀.requestId = r.requestId)
    (hlook : .exec j ⟨.select (.existingRequest x.sender x.clientRequestId.toText), .ok found⟩ ∈
      s.log)
    (hlate : .exec j ⟨.select (.existingRequest x.sender x.clientRequestId.toText), .ok found⟩ ∉
      pre) :
    ∃ (s₁ : Service D) (r₁ : ChatRecord), Reach P ((service D).start (World.init .empty t₀)) s₁ ∧
      r₁ ∈ s₁.world.db.chats.rows ∧ r = { r₁ with leaseExpiresAt := r.leaseExpiresAt } ∧
        found = some ⟨r₁.requestId, r₁.leaseId, r₁.leaseExpiresAt⟩ := by
  obtain ⟨post', pre', hlog'⟩ := List.append_of_mem hlook
  obtain ⟨s₁, s₂, ch, h₁, rfl, -, -, -, -, -, heff, hrest⟩ := exec_of_log h hlog'
  have hins : .exec k ⟨.execute (.insertChat r₀), .ok n⟩ ∈ s₁.log :=
    (mem_of_append_eq (fun heq => by cases heq) (hlog.symm.trans hlog')).resolve_right hlate
  obtain ⟨r₁, hr₁, heq⟩ := present_since h₁ hrest hr hins hid
  have hs₁ := hs.of_eq heq
  refine ⟨s₁, r₁, h₁, hr₁, heq, ?_⟩
  rw [show found = _ from heff.truthful trivial, Select.eval,
    s₁.world.db.chats.find?_eq_some hr₁ (decide_eq_true hs₁) fun r' h' => ?_]
  · rfl
  · obtain ⟨hsender, hclient⟩ := of_decide_eq_true h'
    exact .inr (.inr ⟨hsender.trans hs₁.1.symm, hclient.trans hs₁.2.symm⟩)

/-! ### Statements of a send in its setting -/

section setting

variable {j : ℕ} {op : Op}

/-- In the state in which a statement of a send ran, its setting was as promised. -/
lemma setting_of_log (hset : ∀ s a, P s a → x.Setting s a)
    (h : Reach P ((service D).start (World.init .empty t₀)) s) (hcall : .call j op ∈ s.log)
    (hsent : x.Sent op) {c : Command} {y : c.Ans} (he : .exec j ⟨c, y⟩ ∈ s.log) :
    ∃ (s₁ : Service D) (ch : Choice), Reach P ((service D).start (World.init .empty t₀)) s₁ ∧
      Reach P s₁ s ∧ ch.fails = false ∧ x.Welcome D ch.reading s₁.world.db ∧
        y = (c.exec D j ch s₁.world).1 := by
  obtain ⟨post, pre, hlog⟩ := List.append_of_mem he
  obtain ⟨op', hcall', -⟩ := h.log_exec (scripted D) hlog
  obtain ⟨s₁, s₂, ch, h₁, rfl, -, hP, hn, hlog₂, -, -, hrest⟩ := exec_of_log h hlog
  have hsub : s₁.log ⊆ s.log := hrest.log_suffix.subset
  obtain rfl := h.logged.call_unique (hsub hcall') hcall
  obtain ⟨hfine, hwelcome⟩ := (hset s₁ _ hP).step j ch op' rfl hcall' hsent
  exact ⟨s₁, ch, h₁, hrest, hfine, hwelcome, answer_of_next hn hlog₂⟩

lemma not_failed (hset : ∀ s a, P s a → x.Setting s a)
    (h : Reach P ((service D).start (World.init .empty t₀)) s) (hcall : .call j op ∈ s.log)
    (hsent : x.Sent op) {e : Exchange Command Command.Ans} (he : .exec j e ∈ s.log) :
    ¬ Failed e := by
  obtain ⟨c, y⟩ := e
  obtain ⟨s₁, ch, -, -, hfine, -, rfl⟩ := setting_of_log hset h hcall hsent he
  intro hf
  cases c with
  | select q => simp [Command.exec, hfine, Failed] at hf
  | execute u =>
    cases u with
    | removeExpiredChats => simp [Command.exec, hfine, Failed, Write.apply] at hf
    | _ => exact hf
  | _ => exact hf

/-- The sender is known. -/
lemma known_sender (hset : ∀ s a, P s a → x.Setting s a)
    (h : Reach P ((service D).start (World.init .empty t₀)) s) (hcall : .call j op ∈ s.log)
    (hsent : x.Sent op) : .exec j ⟨.select (.publicKey x.sender), .ok none⟩ ∉ s.log := by
  intro he
  obtain ⟨s₁, ch, -, -, hfine, hwelcome, heq⟩ := setting_of_log hset h hcall hsent he
  simp only [Command.exec, hfine, Bool.false_eq_true, if_false, Except.ok.injEq, Select.eval] at heq
  obtain ⟨a, ha, hid⟩ := hwelcome.sender
  have hnone := Option.map_eq_none_iff.mp heq.symm
  exact List.find?_eq_none.mp hnone a ha (decide_eq_true hid)

/-- The recipient that a send finds is the registered one. -/
lemma known_recipient (hset : ∀ s a, P s a → x.Setting s a)
    (h : Reach P ((service D).start (World.init .empty t₀)) s) (hcall : .call j op ∈ s.log)
    (hsent : x.Sent op) {found : Option Text}
    (he : .exec j ⟨.select (.recipient x.recipient), .ok found⟩ ∈ s.log) :
    ∃ a, s.world.db.accountByIdentitty x.recipient = some a ∧ found = some a.accountId ∧
      a.accountId ≠ x.sender := by
  obtain ⟨s₁, ch, h₁, hrest, hfine, hwelcome, heq⟩ := setting_of_log hset h hcall hsent he
  simp only [Command.exec, hfine, Bool.false_eq_true, if_false, Except.ok.injEq, Select.eval] at heq
  obtain ⟨a, ha, hne, -⟩ := hwelcome.recipient
  rw [ha] at heq
  exact ⟨a, Db.accountByIdentitty_of_prefix (accounts_grow h₁ hrest) ha, heq, hne⟩

/-- The recipient does not block the sender. -/
lemma not_blocked (hset : ∀ s a, P s a → x.Setting s a)
    (h : Reach P ((service D).start (World.init .empty t₀)) s) (hcall : .call j op ∈ s.log)
    (hsent : x.Sent op) {recipient : Text} {blocked : Bool}
    (hfound : .exec j ⟨.select (.recipient x.recipient), .ok (some recipient)⟩ ∈ s.log)
    (he : .exec j ⟨.select (.blockExists recipient x.sender), .ok blocked⟩ ∈ s.log) :
    blocked = false := by
  obtain ⟨a, ha, heq, -⟩ := known_recipient hset h hcall hsent hfound
  obtain rfl := Option.some.inj heq
  obtain ⟨s₁, ch, h₁, hrest, hfine, hwelcome, heq⟩ := setting_of_log hset h hcall hsent he
  obtain ⟨a', ha', -, hnone⟩ := hwelcome.recipient
  obtain rfl := Option.some.inj
    (ha.symm.trans (Db.accountByIdentitty_of_prefix (accounts_grow h₁ hrest) ha'))
  simp only [Command.exec, hfine, Bool.false_eq_true, if_false, Except.ok.injEq, Select.eval] at heq
  rw [heq, List.any_eq_false]
  exact fun b hb hp => hnone b hb (of_decide_eq_true hp)

/-- A count that reaches the limit counts a request for the intent. -/
lemma stored_of_full (hset : ∀ s a, P s a → x.Setting s a)
    (h : Reach P ((service D).start (World.init .empty t₀)) s) (hcall : .call j op ∈ s.log)
    (hsent : x.Sent op) {m : ℕ} (he : .exec j ⟨.select (.activeCount x.sender), .ok m⟩ ∈ s.log)
    (hm : 25 ≤ m) : ∃ (s₁ : Service D) (r : ChatRecord),
      Reach P ((service D).start (World.init .empty t₀)) s₁ ∧ Reach P s₁ s ∧
        r ∈ s₁.world.db.chats.rows ∧ x.Stored r := by
  obtain ⟨s₁, ch, h₁, hrest, hfine, hwelcome, heq⟩ := setting_of_log hset h hcall hsent he
  simp only [Command.exec, hfine, Bool.false_eq_true, if_false, Except.ok.injEq, Select.eval] at heq
  by_contra hno
  have hothers := hwelcome.others
  have hle : s₁.world.db.chats.rows.countP
        (fun r => r.senderAccountId = x.sender ∧ r.Active D ch.reading) ≤
      s₁.world.db.chats.rows.countP fun r => r.senderAccountId = x.sender ∧
        r.clientRequestId ≠ x.clientRequestId.toText ∧ r.Active D ch.reading := by
    refine List.countP_mono_left fun r hr hp => ?_
    simp only [decide_eq_true_eq] at hp ⊢
    exact ⟨hp.1, fun hclient => hno ⟨s₁, r, h₁, hrest, hr, hp.1, hclient⟩, hp.2⟩
  exact absurd (hm.trans ((le_of_eq heq).trans (hle.trans hothers))) (by decide)

/-- The request of a send that has not inserted one shares no id with a stored row. -/
lemma ids_fresh (h : Reach P ((service D).start (World.init .empty t₀)) s) {s₁ : Service D}
    (h₁ : Reach P ((service D).start (World.init .empty t₀)) s₁) (hrest : Reach P s₁ s) {u : Uuid}
    (hu : .exec j ⟨.newUuid, u⟩ ∈ s.log)
    (hno : ∀ r n, .exec j ⟨.execute (.insertChat r), .ok n⟩ ∉ s.log) {row : ChatRecord}
    (hrow : row ∈ s₁.world.db.chats.rows) : row.requestId ≠ u.toText ∧ row.leaseId ≠ u.toText := by
  obtain ⟨post, pre, k, r₀, hlog, heq⟩ := insert_of_row h₁ hrow
  have hins : .exec k ⟨.execute (.insertChat r₀), .ok 1⟩ ∈ s.log := by
    refine hrest.log_suffix.subset ?_
    rw [hlog]
    exact List.mem_append_right _ List.mem_cons_self
  obtain ⟨u', v', hu', hv', hdraw, hdraw'⟩ := drawn_of_insert h hins
  have hkj : k ≠ j := by
    rintro rfl
    exact hno r₀ 1 hins
  rw [heq]
  refine ⟨fun hid => ?_, fun hid => ?_⟩
  · obtain rfl := Uuid.toText_inj.mp (hu'.symm.trans hid)
    exact hkj ((drawing h).unique hdraw hu)
  · obtain rfl := Uuid.toText_inj.mp (hv'.symm.trans hid)
    exact hkj ((drawing h).unique hdraw' hu)

/-- An insertion that fails meets a request for the intent. -/
lemma stored_of_clash (hset : ∀ s a, P s a → x.Setting s a)
    (h : Reach P ((service D).start (World.init .empty t₀)) s) (hcall : .call j op ∈ s.log)
    (hsent : x.Sent op) {r : ChatRecord} {u v : Uuid} {e : SqlError}
    (he : .exec j ⟨.execute (.insertChat r), .error e⟩ ∈ s.log)
    (hno : ∀ r n, .exec j ⟨.execute (.insertChat r), .ok n⟩ ∉ s.log)
    (hu : .exec j ⟨.newUuid, u⟩ ∈ s.log) (hv : .exec j ⟨.newUuid, v⟩ ∈ s.log)
    (hru : r.requestId = u.toText) (hrv : r.leaseId = v.toText)
    (hfound : .exec j ⟨.select (.recipient x.recipient), .ok (some r.recipientAccountId)⟩ ∈ s.log)
    (hr : x.Stored r) : ∃ (s₁ : Service D) (r₁ : ChatRecord),
      Reach P ((service D).start (World.init .empty t₀)) s₁ ∧ Reach P s₁ s ∧
        r₁ ∈ s₁.world.db.chats.rows ∧ x.Stored r₁ := by
  obtain ⟨a, ha, hid, -⟩ := known_recipient hset h hcall hsent hfound
  obtain ⟨s₁, ch, h₁, hrest, hfine, hwelcome, heq⟩ := setting_of_log hset h hcall hsent he
  obtain ⟨a', ha', -⟩ := hwelcome.recipient
  obtain rfl := Option.some.inj
    (ha.symm.trans (Db.accountByIdentitty_of_prefix (accounts_grow h₁ hrest) ha'))
  have happly : (Write.insertChat r).apply D ch.reading s₁.world.db = .error e := by
    simp only [Command.exec, hfine, Bool.false_eq_true, if_false] at heq
    cases hw : (Write.insertChat r).apply D ch.reading s₁.world.db with
    | ok p => simp [hw] at heq
    | error e' =>
      simp only [hw, Except.error.injEq] at heq
      rw [heq]
  have hrecipient : s₁.world.db.HasAccount r.recipientAccountId :=
    ⟨a, List.mem_of_find?_eq_some ha', (Option.some.inj hid).symm⟩
  obtain ⟨-, row, hrow, hclash⟩ :=
    Write.clash_of_insertChat happly (hr.1 ▸ hwelcome.sender) hrecipient
  rcases hclash with hsame | hsame | ⟨hsender, hclient⟩
  · exact absurd (hsame.trans hru) (ids_fresh h h₁ hrest hu hno hrow).1
  · exact absurd (hsame.trans hrv) (ids_fresh h h₁ hrest hv hno hrow).2
  · exact ⟨s₁, row, h₁, hrest, hrow, hsender.trans hr.1, hclient.trans hr.2⟩

/-- A send of it that was called carries the payload and the recipient. -/
lemma input_of_sent (hset : ∀ s a, P s a → x.Setting s a)
    (h : Reach P ((service D).start (World.init .empty t₀)) s) (hcall : .call j op ∈ s.log)
    (hsent : x.Sent op) : ∃ ctx input, op = .sendLiveChatRequest ctx input ∧
      ctx.account = some x.sender ∧ input.clientRequestId = x.clientRequestId ∧
        decodePayload input.encryptedPayload = .ok x.payload ∧
          normaliseIdentitty input.recipientIdentitty = .ok x.recipient := by
  obtain ⟨ctx, input, rfl, hs, hclient⟩ := hsent
  obtain ⟨post, pre, hlog⟩ := List.append_of_mem hcall
  obtain ⟨s₁, a, s₂, -, rfl, hP, hn, hlog₂, -⟩ := h.rewind hlog (by simp [start])
  cases State.steps_of_next hn with
  | call op' =>
    obtain ⟨-, rfl⟩ := Event.call.inj (List.cons.inj hlog₂).1
    exact ⟨ctx, input, rfl, hs, hclient, (hset s₁ _ hP).call ctx input rfl hs hclient⟩
  | step ht hen => cases (List.cons.inj hlog₂).1
  | respond ht => cases (List.cons.inj hlog₂).1
  | crash => cases (List.cons.inj hlog₂).1

/-- How a send of it ends in its setting. -/
inductive Outcome (x : Intent) (P : Service D → Action Op Choice → Prop) (t₀ : ℤ) (s : Service D)
    (j : ℕ) : Response → Prop
  | found {row : ExistingRequestRow}
      (hlook : .exec j ⟨.select (.existingRequest x.sender x.clientRequestId.toText),
        .ok (some row)⟩ ∈ s.log)
      (hno : ∀ r n, .exec j ⟨.execute (.insertChat r), .ok n⟩ ∉ s.log) :
      Outcome x P t₀ s j ((row.intoSubmission.map Answer.submission).mapError .api)
  | made {r : ChatRecord} {u v : Uuid} {e : ℤ} {n : ℕ}
      (hlook : .exec j ⟨.select (.existingRequest x.sender x.clientRequestId.toText),
        .ok none⟩ ∈ s.log)
      (hins : .exec j ⟨.execute (.insertChat r), .ok n⟩ ∈ s.log) (hr : x.Stored r)
      (hu : r.requestId = u.toText) (hv : r.leaseId = v.toText) :
      Outcome x P t₀ s j (.ok (.submission ⟨u, true, v, e⟩))
  | met {r : ChatRecord} {s₁ : Service D} {resp : Response}
      (hlook : .exec j ⟨.select (.existingRequest x.sender x.clientRequestId.toText),
        .ok none⟩ ∈ s.log)
      (hno : ∀ r n, .exec j ⟨.execute (.insertChat r), .ok n⟩ ∉ s.log)
      (h₁ : Reach P ((service D).start (World.init .empty t₀)) s₁) (hrest : Reach P s₁ s)
      (hrow : r ∈ s₁.world.db.chats.rows) (hr : x.Stored r) : Outcome x P t₀ s j resp

theorem outcome (hset : ∀ s a, P s a → x.Setting s a) {s' : Service D} {resp : Response}
    (h : Reach P ((service D).start (World.init .empty t₀)) s) (hP : P s (.respond j))
    (hn : s.next (.respond j) = some s') (hlog : s'.log = .respond j resp :: s.log)
    (hcall : .call j op ∈ s.log) (hsent : x.Sent op) : x.Outcome P t₀ s j resp := by
  obtain ⟨ctx, input, rfl, hsender, hclient, hpayload, hname⟩ := input_of_sent hset h hcall hsent
  have hends := send_ends (h.step hP hn) (hlog.trans (List.nil_append _).symm) hcall
  have hown : ∀ {e : Exchange Command Command.Ans}, e ∈ own j s.log → .exec j e ∈ s.log :=
    mem_own.mp
  have hnot : ∀ {past : Past Command Command.Ans}, own j s.log = past →
      (∀ r n, ⟨.execute (.insertChat r), .ok n⟩ ∉ past) →
        ∀ r n, .exec j ⟨.execute (.insertChat r), .ok n⟩ ∉ s.log := by
    rintro _ rfl hno r n hins
    exact hno r n (mem_own.mpr hins)
  have heq : ∀ {sender : Text}, ctx.account = some sender → sender = x.sender := fun hs =>
    Option.some.inj (hs.symm.trans hsender)
  generalize hpast : own j s.log = past at hends
  cases hends with
  | refused hbad =>
    rcases hbad with hnone | hnone | hnone
    · rw [hnone] at hsender
      cases hsender
    · exact absurd hpayload (hnone _)
    · exact absurd hname (hnone _)
  | failed hx hf => exact absurd hf (not_failed hset h hcall hsent (hown (hpast ▸ hx)))
  | unknown hs =>
    obtain rfl := heq hs
    exact absurd (hown (by simp [hpast])) (known_sender hset h hcall hsent)
  | found hs =>
    obtain rfl := heq hs
    exact .found (hown (by simp [hpast, hclient])) (hnot hpast (by simp))
  | full hs hm =>
    obtain rfl := heq hs
    obtain ⟨s₁, r, h₁, hrest, hrow, hr⟩ :=
      stored_of_full hset h hcall hsent (hown (by simp [hpast])) hm
    exact .met (hown (by simp [hpast, lookedUp, hclient])) (hnot hpast (by simp [lookedUp])) h₁
      hrest
      hrow hr
  | @panic sender n m key t _ hs ht =>
    have hnow : .exec j ⟨.now, t⟩ ∈ s.log := hown (by simp [hpast])
    obtain ⟨hnowEra, hlaterEra⟩ :=
      reading_of_now (h.mono fun s a hP => (hset s a hP).early) hnow
    have hlease : InEra (t + seconds 90) :=
      hnowEra.between hlaterEra (Int.le_add_of_nonneg_right (by decide))
        (Int.add_le_add_left seconds_le t)
    rw [addSeconds_of_inEra hlease, addSeconds_of_inEra hlaterEra] at ht
    rcases ht with ht | ht <;> cases ht
  | nobody hs hname' =>
    obtain rfl := Except.ok.inj (hname.symm.trans hname')
    have hfound : .exec j ⟨.select (.recipient x.recipient), .ok none⟩ ∈ s.log :=
      hown (by simp [hpast])
    obtain ⟨a, -, ha, -⟩ := known_recipient hset h hcall hsent hfound
    cases ha
  | @hidden sender name recipient n m key t u v blocked _ hs hname' hb =>
    obtain rfl := heq hs
    obtain rfl := Except.ok.inj (hname.symm.trans hname')
    have hfound : .exec j ⟨.select (.recipient x.recipient), .ok (some recipient)⟩ ∈ s.log :=
      hown (by simp [hpast])
    obtain ⟨a, -, ha, hne⟩ := known_recipient hset h hcall hsent hfound
    obtain rfl := Option.some.inj ha
    exact absurd ⟨not_blocked hset h hcall hsent hfound (hown (by simp [hpast])), hne⟩ hb
  | @inserted r u v t name n m k hs =>
    have hstored : x.Stored r := ⟨heq hs.sender, hs.clientRequestId.trans (by rw [hclient])⟩
    have hins : .exec j ⟨.execute (.insertChat r), .ok k⟩ ∈ s.log := hown (by simp [hpast])
    refine .made (hown ?_) hins hstored hs.requestId hs.leaseId
    rw [hpast, ← hstored.1, ← hstored.2]
    simp [sendPast]
  | @clash r u v t name n m e hs =>
    have hstored : x.Stored r := ⟨heq hs.sender, hs.clientRequestId.trans (by rw [hclient])⟩
    obtain rfl := Except.ok.inj (hname.symm.trans hs.recipient)
    have hno : ∀ r n, .exec j ⟨.execute (.insertChat r), .ok n⟩ ∉ s.log :=
      hnot hpast (by simp [sendPast])
    have hins : .exec j ⟨.execute (.insertChat r), .error e⟩ ∈ s.log := hown (by simp [hpast])
    have hu : .exec j ⟨.newUuid, u⟩ ∈ s.log := hown (by simp [hpast, sendPast])
    have hv : .exec j ⟨.newUuid, v⟩ ∈ s.log := hown (by simp [hpast, sendPast])
    obtain ⟨s₁, r₁, h₁, hrest, hrow, hr⟩ := stored_of_clash hset h hcall hsent hins hno hu hv
      hs.requestId hs.leaseId (hown (by simp [hpast, sendPast])) hstored
    refine .met (hown ?_) hno h₁ hrest hrow hr
    rw [hpast, ← hstored.1, ← hstored.2]
    simp [sendPast]

end setting

/-! ### The promise is kept -/

/-- A row is read back with its ids. -/
lemma submission_of_row (h : Reach P ((service D).start (World.init .empty t₀)) s)
    (hearly : ∀ s a, P s a → Reading Early a) {r : ChatRecord} (hr : r ∈ s.world.db.chats.rows) :
    ∃ y, ExistingRequestRow.intoSubmission ⟨r.requestId, r.leaseId, r.leaseExpiresAt⟩ = .ok y ∧
      y.requestId.toText = r.requestId ∧ y.leaseId.toText = r.leaseId := by
  obtain ⟨c, e, ht⟩ := timed (h.mono hearly) r hr
  obtain ⟨y, hy⟩ := (sound_of_timed h hr ht).intoSubmission
  obtain ⟨r₀, j, u, v, t, hsent, heq⟩ := (provenance h).chats r hr
  obtain ⟨ctx, input, identitty, -, hs⟩ := hsent.script
  have hu : r.requestId = u.toText := by rw [heq, hs.requestId]
  have hv : r.leaseId = v.toText := by rw [heq, hs.leaseId]
  rcases ExistingRequestRow.intoSubmission_cases ⟨r.requestId, r.leaseId, r.leaseExpiresAt⟩ with
    hbad | ⟨y', hy', hreq, hlease, -⟩
  · rw [hbad] at hy
    cases hy
  · refine ⟨y', hy', ?_, ?_⟩
    · rw [show Uuid.parse r.requestId = some u by rw [hu, Uuid.parse_toText]] at hreq
      rw [← Option.some.inj hreq, hu]
    · rw [show Uuid.parse r.leaseId = some v by rw [hv, Uuid.parse_toText]] at hlease
      rw [← Option.some.inj hlease, hv]

/-- The request that a look-up has found was there. -/
lemma stored_of_found (h : Reach P ((service D).start (World.init .empty t₀)) s) {j : ℕ}
    {row : ExistingRequestRow}
    (hlook : .exec j ⟨.select (.existingRequest x.sender x.clientRequestId.toText),
      .ok (some row)⟩ ∈ s.log) :
    ∃ (s₁ : Service D) (r : ChatRecord), Reach P ((service D).start (World.init .empty t₀)) s₁ ∧
      Reach P s₁ s ∧ r ∈ s₁.world.db.chats.rows ∧ x.Stored r := by
  obtain ⟨post, pre, hlog⟩ := List.append_of_mem hlook
  obtain ⟨s₁, s₂, ch, h₁, -, -, -, -, -, -, heff, hrest⟩ := exec_of_log h hlog
  have htruth : some row = Select.eval D ch.reading s₁.world.db
    (.existingRequest x.sender x.clientRequestId.toText) := heff.truthful trivial
  obtain ⟨r, hr, -⟩ := Option.map_eq_some_iff.mp htruth.symm
  have hs := List.find?_some hr
  exact ⟨s₁, r, h₁, hrest, List.mem_of_find?_eq_some hr, of_decide_eq_true hs⟩

/-- While there is a request for it no second one is made. -/
lemma single (h : Reach P ((service D).start (World.init .empty t₀)) s) {r r₀ r' : ChatRecord}
    (hr : r ∈ s.world.db.chats.rows) (hs : x.Stored r) {post pre : Log} {j k n m : ℕ}
    (hlog : s.log = post ++ .exec k ⟨.execute (.insertChat r₀), .ok n⟩ :: pre)
    (hid : r₀.requestId = r.requestId)
    (hins : .exec j ⟨.execute (.insertChat r'), .ok m⟩ ∈ post) : ¬ x.Stored r' := by
  intro hs'
  obtain ⟨a, b, rfl⟩ := List.append_of_mem hins
  rw [List.append_assoc, List.cons_append] at hlog
  obtain ⟨s₁, s₂, ch, h₁, hlog₁, -, -, -, -, -, heff, hrest⟩ := exec_of_log h hlog
  have hk : .exec k ⟨.execute (.insertChat r₀), .ok n⟩ ∈ s₁.log := by
    rw [hlog₁]
    exact List.mem_append_right _ List.mem_cons_self
  obtain ⟨r₁, hr₁, heq⟩ := present_since h₁ hrest hr hk hid
  have hs₁ := hs.of_eq heq
  generalize s₂.world = w at heff
  cases heff with
  | quiet l hq ht => exact hq.elim
  | write hu hw =>
    exact Write.fresh_of_insertChat hu r₁ hr₁
      (.inr (.inr ⟨hs₁.1.trans hs'.1.symm, hs₁.2.trans hs'.2.symm⟩))
  | release he => rcases he with he | ⟨y, he⟩ <;> cases he

/-- A send of it has answered after one was made. -/
lemma inserted_of_outcome {j : ℕ} {resp : Response}
    (h : Reach P ((service D).start (World.init .empty t₀)) s)
    (hout : x.Outcome P t₀ s j resp) :
    ∃ k r n, .exec k ⟨.execute (.insertChat r), .ok n⟩ ∈ s.log ∧ x.Stored r := by
  have hrow : ∀ (s₁ : Service D) (r : ChatRecord),
      Reach P ((service D).start (World.init .empty t₀)) s₁ → Reach P s₁ s →
      r ∈ s₁.world.db.chats.rows → x.Stored r →
      ∃ k r n, .exec k ⟨.execute (.insertChat r), .ok n⟩ ∈ s.log ∧ x.Stored r := by
    intro s₁ r h₁ hrest hr hs
    obtain ⟨post, pre, k, r₀, hlog, heq⟩ := insert_of_row h₁ hr
    refine ⟨k, r₀, 1, hrest.log_suffix.subset ?_, hs.of_eq heq⟩
    rw [hlog]
    exact List.mem_append_right _ List.mem_cons_self
  cases hout with
  | found hlook hno =>
    obtain ⟨s₁, r, h₁, hrest, hr, hs⟩ := stored_of_found h hlook
    exact hrow s₁ r h₁ hrest hr hs
  | made hlook hins hr hu hv => exact ⟨j, _, _, hins, hr⟩
  | met hlook hno h₁ hrest hr hs => exact hrow _ _ h₁ hrest hr hs

/-- A send of it that has made the active request itself, or looked for one after that was made,
answers with its ids. -/
lemma answer_of_outcome {j k n : ℕ} {resp : Response}
    (h : Reach P ((service D).start (World.init .empty t₀)) s)
    (hearly : ∀ s a, P s a → Reading Early a) (hout : x.Outcome P t₀ s j resp)
    {r r₀ : ChatRecord} (hr : r ∈ s.world.db.chats.rows) (hs : x.Stored r) {post pre : Log}
    (hlog : s.log = post ++ .exec k ⟨.execute (.insertChat r₀), .ok n⟩ :: pre)
    (heq : r = { r₀ with leaseExpiresAt := r.leaseExpiresAt })
    (hor : k = j ∨
      ∀ y, .exec j ⟨.select (.existingRequest x.sender x.clientRequestId.toText), y⟩ ∉ pre) :
    ∃ y, resp = .ok (.submission y) ∧ y.requestId.toText = r.requestId ∧
      y.leaseId.toText = r.leaseId := by
  have hid : r₀.requestId = r.requestId := by rw [heq]
  have hins : .exec k ⟨.execute (.insertChat r₀), .ok n⟩ ∈ s.log := by simp [hlog]
  rcases hor with rfl | hlate
  · cases hout with
    | found hlook hno => exact absurd hins (hno r₀ n)
    | @made r' u v e m hlook hins' hr' hu hv =>
      obtain rfl := insertChat_unique h hins hins'
      rw [heq]
      exact ⟨_, rfl, hu.symm, hv.symm⟩
    | met hlook hno h₁ hrest hr hs => exact absurd hins (hno r₀ n)
  · have hfinds := fun found hlook => @finds _ _ _ _ _ h _ _ hr hs _ _ j _ _ found hlog hid hlook
      (hlate _)
    cases hout with
    | @found row hlook hno =>
      obtain ⟨s₁, r₁, h₁, hr₁, heq₁, hrow⟩ := hfinds _ hlook
      obtain ⟨y, hy, hreq, hlease⟩ := submission_of_row h₁ hearly hr₁
      obtain rfl := Option.some.inj hrow
      rw [hy, heq₁]
      exact ⟨y, rfl, hreq, hlease⟩
    | made hlook hins' hr' hu hv =>
      obtain ⟨_, _, _, _, _, hnone⟩ := hfinds _ hlook
      cases hnone
    | met hlook hno h₁ hrest hr hs =>
      obtain ⟨_, _, _, _, _, hnone⟩ := hfinds _ hlook
      cases hnone

end Intent

/-- A send under a client id that answers while there is an active request under it answers with
the ids of that request, if it has made that itself or has looked for one after it was made. -/
theorem retries_idempotent (x : Intent)
    (h : Reach (fun s a => x.Setting s a ∧ x.InOrder s a)
      ((service D).start (World.init .empty t₀)) s) :
    x.Idempotent (fun s a => x.Setting s a ∧ x.InOrder s a) t₀ s := by
  have hset : ∀ (s : Service D) a, x.Setting s a ∧ x.InOrder s a → x.Setting s a := fun _ _ h => h.1
  refine ⟨fun r hr hs post pre k r₀ n hlog hid j r' m hins => ?_,
    fun j op resp hcall hsent hresp => ?_,
    fun j op resp s₁ s₂ hpass hlog hcall hsent r hr hs hact => ?_⟩
  · exact Intent.single h hr hs hlog hid hins
  · obtain ⟨post, pre, hlog⟩ := List.append_of_mem hresp
    obtain ⟨s₁, a, s₂, h₁, rfl, hP, hn, hlog₂, hrest⟩ := h.rewind hlog (by simp [start])
    cases State.steps_of_next hn with
    | call op' => cases (List.cons.inj hlog₂).1
    | step ht hen => cases (List.cons.inj hlog₂).1
    | crash => cases (List.cons.inj hlog₂).1
    | @respond i op' past r ht =>
      obtain ⟨rfl, rfl⟩ := Event.respond.inj (List.cons.inj hlog₂).1
      have hcall₁ : .call i op' ∈ s₁.log := (h₁.logged.call i op').mpr ⟨_, ht, rfl⟩
      obtain rfl := h.logged.call_unique (hrest.log_suffix.subset hcall₁) hcall
      obtain ⟨k, r', n, hins, hs⟩ :=
        Intent.inserted_of_outcome h₁ (Intent.outcome hset h₁ hP hn hlog₂ hcall₁ hsent)
      exact ⟨k, r', n, hrest.log_suffix.subset hins, hs⟩
  · obtain ⟨post, pre, k, r₀, hlogk, heq⟩ := insert_of_row hpass.reach hr
    have hid : r₀.requestId = r.requestId := by rw [heq]
    exact Intent.answer_of_outcome hpass.reach (fun s a hP => hP.1.early)
      (Intent.outcome hset hpass.reach hpass.cond hpass.next hlog hcall hsent) hr hs hlogk heq
      (hpass.cond.2 j op rfl hcall hsent r hr hs hact post pre k r₀ 1 hlogk hid)

namespace Known

/-- What Ada means to send to Bob. -/
def hello : Intent := ⟨ada, ⟨7⟩, [0], "bob".toList⟩

def sendHello : Op := .sendLiveChatRequest (session ada) ⟨"bob".toList, ⟨7⟩, "AA==".toList⟩

/-- Whether the operation is Ada's sending of it. -/
def saysHello : Op → Bool
  | .sendLiveChatRequest ctx input => ctx.account = some ada && input.clientRequestId = ⟨7⟩
  | _ => false

lemma saysHello_of_sent {op : Op} (h : hello.Sent op) : saysHello op = true := by
  obtain ⟨ctx, input, rfl, hs, hclient⟩ := h
  simp only [saysHello, Bool.and_eq_true, decide_eq_true_eq]
  exact ⟨hs, hclient⟩

/-- Whether Ada's sending of it is operation `i`. -/
def calledAs (i : ℕ) : Event Command Command.Ans Op Response → Bool
  | .call j op => j = i && saysHello op
  | _ => false

/-- Whether Ada is registered and Bob welcomes her. -/
def welcomes (now : ℤ) (d : Db) : Bool :=
  d.accounts.rows.any (fun a => a.accountId = ada) &&
    (d.accountByIdentitty "bob".toList).any (fun a => a.accountId ≠ ada &&
      d.blocks.rows.all fun b => !(b.blockerAccountId = a.accountId && b.blockedAccountId = ada)) &&
    d.chats.rows.countP (fun r => r.senderAccountId = ada ∧
      r.clientRequestId ≠ Uuid.toText ⟨7⟩ ∧ r.Active deployment now) ≤ 24

lemma welcome_of_welcomes {now : ℤ} {d : Db} (h : welcomes now d = true) :
    hello.Welcome deployment now d := by
  simp only [welcomes, Bool.and_eq_true, List.any_eq_true, decide_eq_true_eq,
    Option.any_eq_true, List.all_eq_true, Bool.not_eq_true', Bool.and_eq_false_iff,
    decide_eq_false_iff_not] at h
  obtain ⟨⟨⟨a, ha, hid⟩, b, hb, hne, hnone⟩, hothers⟩ := h
  refine ⟨⟨a, ha, hid⟩, ⟨b, hb, hne, fun x hx => ?_⟩, hothers⟩
  exact not_and_or.mpr (hnone x hx)

/-- Whether the action is in the setting of Ada's sendings. -/
def inSetting (s : Service deployment) : Action Op Choice → Bool
  | .call (.sendLiveChatRequest _ input) =>
    decodePayload input.encryptedPayload = .ok [0] &&
      normaliseIdentitty input.recipientIdentitty = .ok "bob".toList
  | .step i ch => Early ch.reading &&
    (!s.log.any (calledAs i) || (!ch.fails && welcomes ch.reading s.world.db))
  | _ => true

lemma setting_of_inSetting (s : Service deployment) (a : Action Op Choice)
    (h : inSetting s a = true) : hello.Setting s a := by
  refine ⟨?_, ?_, ?_⟩
  · cases a with
    | step i ch =>
      simp only [inSetting, Bool.and_eq_true, decide_eq_true_eq] at h
      exact h.1
    | call op => trivial
    | respond i => trivial
    | crash => trivial
  · rintro ctx input rfl _ _
    simp only [inSetting, Bool.and_eq_true, decide_eq_true_eq] at h
    exact h
  · rintro i ch op rfl hcall hsent
    have hcalled : s.log.any (calledAs i) = true :=
      List.any_eq_true.mpr ⟨_, hcall, by simp [calledAs, saysHello_of_sent hsent]⟩
    simp only [inSetting, hcalled, Bool.not_true, Bool.false_or, Bool.and_eq_true,
      Bool.not_eq_true'] at h
    exact ⟨h.2.1, welcome_of_welcomes h.2.2⟩

/-- Ada sends twice at once: both look for the request before the first inserts it. -/
def overlap : List (Action Op Choice) :=
  whole (register "ada".toList ada adaKey) 0 3 newYear ⟨0⟩ ++
    whole (register "bob".toList bob bobKey) 1 3 newYear ⟨0⟩ ++
    [.call sendHello, .call sendHello] ++ steps 2 3 0 ++ steps 3 3 0 ++ steps 2 7 100 ++
    .respond 2 :: steps 3 7 200

lemma overlap_answers :
    ((((service deployment).start (World.init .empty newYear)).takeIf inSetting overlap).bind
      fun s₁ => (s₁.next (.respond 3)).map fun s₂ =>
        (decide (.call 3 sendHello ∈ history s₁.log),
          s₁.world.db.chats.rows.any (fun r => hello.Stored r ∧ r.Active deployment s₁.world.clock),
          (history s₂.log).take 2)) =
      some (true, true, [.respond 3 (.error (.api .internal)),
        .respond 2 (.ok (.submission ⟨⟨102⟩, true, ⟨103⟩, newYear + seconds 90⟩))]) := by
  decide +kernel

end Known

open Known in
/-- The slower of two sends that overlap answers with an internal error. -/
theorem retries_idempotent_not : ∃ s : Service deployment,
    Reach hello.Setting ((service deployment).start (World.init .empty newYear)) s ∧
      ¬ hello.Idempotent hello.Setting newYear s := by
  obtain ⟨s₁, hs₁, hans⟩ := Option.bind_eq_some_iff.mp overlap_answers
  obtain ⟨s₂, hn, hans⟩ := Option.map_eq_some_iff.mp hans
  obtain ⟨hcall, hans⟩ := Prod.mk.inj hans
  obtain ⟨hrow, hresp⟩ := Prod.mk.inj hans
  have h₁ := Reach.refl.takeIf setting_of_inSetting hs₁
  have hP := setting_of_inSetting s₁ (.respond 3) rfl
  refine ⟨s₂, h₁.step hP hn, fun hidem => ?_⟩
  obtain ⟨r, hr, hgood⟩ := List.any_eq_true.mp hrow
  obtain ⟨hstored, hactive⟩ := of_decide_eq_true hgood
  cases State.steps_of_next hn with
  | @respond _ op past resp ht =>
    obtain rfl : resp = .error (.api .internal) :=
      (Seen.respond.inj (List.cons.inj hresp).1).2
    obtain ⟨y, hy, -⟩ := hidem.answers 3 sendHello _ s₁ _ ⟨h₁, hP, hn, .refl⟩ rfl
      (mem_history.mp (of_decide_eq_true hcall)) ⟨_, _, rfl, rfl, rfl⟩ r hr hstored hactive
    cases hy

namespace Known

/-- Whether the event is a look-up of operation `j`. -/
def looksUp (j : ℕ) : Event Command Command.Ans Op Response → Bool
  | .exec i ⟨.select (.existingRequest _ _), _⟩ => i = j
  | _ => false

/-- Whether no other operation has inserted a request after a look-up of operation `j`. -/
def looksLast (j : ℕ) : Log → Bool
  | .exec k ⟨.execute (.insertChat _), _⟩ :: pre => k = j || !pre.any (looksUp j)
  | _ => true

/-- Whether an operation that answers has looked last. -/
def inTurn (s : Service deployment) : Action Op Choice → Bool
  | .respond j => s.log.tails.all (looksLast j)
  | _ => true

lemma inOrder_of_inTurn (s : Service deployment) (a : Action Op Choice)
    (h : (inSetting s a && inTurn s a) = true) : hello.Setting s a ∧ hello.InOrder s a := by
  rw [Bool.and_eq_true] at h
  refine ⟨setting_of_inSetting s a h.1, ?_⟩
  rintro j op rfl _ _ r _ _ _ post pre k r₀ n hlog _
  have hlast := List.all_eq_true.mp h.2 _ ((List.mem_tails _ _).mpr ⟨post, hlog.symm⟩)
  simp only [looksLast, Bool.or_eq_true, decide_eq_true_eq, Bool.not_eq_true',
    List.any_eq_false] at hlast
  exact hlast.imp_right fun hno y hy => hno _ hy (decide_eq_true rfl)

/-- Ada sends, and sends once more. -/
def again : List (Action Op Choice) :=
  whole (register "ada".toList ada adaKey) 0 3 newYear ⟨0⟩ ++
    whole (register "bob".toList bob bobKey) 1 3 newYear ⟨0⟩ ++
    .call sendHello :: steps 2 10 0 ++ .respond 2 :: whole sendHello 3 3 newYear ⟨0⟩

lemma again_answers :
    (((service deployment).start (World.init .empty newYear)).takeIf
      (fun s a => inSetting s a && inTurn s a) again).map (fun s => (history s.log).take 1) =
      some [.respond 3 (.ok (.submission ⟨⟨5⟩, true, ⟨6⟩, newYear + seconds 90⟩))] := by
  decide +kernel

end Known

open Known in
theorem retries_idempotent_again : ∃ s : Service deployment,
    .respond 3 (.ok (.submission ⟨⟨5⟩, true, ⟨6⟩, newYear + seconds 90⟩)) ∈ history s.log ∧
      hello.Idempotent (fun s a => hello.Setting s a ∧ hello.InOrder s a) newYear s := by
  obtain ⟨s, hs, hans⟩ := Option.map_eq_some_iff.mp again_answers
  refine ⟨s, List.mem_of_mem_take (hans ▸ List.mem_singleton_self _), ?_⟩
  exact retries_idempotent hello (Reach.refl.takeIf inOrder_of_inTurn hs)

end TittyBackend
