import TittyBackend.Blocking
import TittyBackend.Renewal
import TittyBackend.Retry

/-!
# Cancelled requests

A cancel that answers has found no request under its ids, or has deleted it. Nothing brings the
request back: its ids are drawn once, and the send that drew them inserts it before it answers.
-/

namespace TittyBackend

open Numerals Programs Programs.System Resolver

variable {D : Deployment} {P : Service D → Action Op Choice → Prop} {t₀ : ℤ} {s : Service D}

/-! ### The promise -/

/-- Once a cancel with the ids that a send was answered has answered, a listing that starts
afterwards does not show the request, and a renewal of it that starts afterwards does not
succeed. -/
def CancelFinal (h : List (Seen Op Response)) : Prop :=
  ∀ l₄ l₃ l₂ l₁ l₀ i j k op a y ctx x,
    h = l₄ ++ .respond k (.ok a) :: (l₃ ++ .call k op :: (l₂ ++ .respond j (.ok y) ::
      (l₁ ++ .call j (.cancelLiveChatRequest ctx ⟨x.requestId, x.leaseId⟩) :: l₀))) →
    .respond i (.ok (.submission x)) ∈ l₀ →
    (∀ zs, a = .requests zs → ∀ z ∈ zs, z.requestId ≠ x.requestId) ∧
      ∀ z, a = .lease z → z.requestId ≠ x.requestId

/-! ### How a send comes to the ids that it answers -/

/-- What a send has seen when it answers `x`: a stored request with these ids, or it drew them, and
a request that it has inserted has them. -/
inductive Submits (past : Past Command Command.Ans) (x : LiveChatRequestSubmission) : Prop
  | found {sender clientRequestId : Text} {row : ExistingRequestRow}
      (hread : ⟨.select (.existingRequest sender clientRequestId), .ok (some row)⟩ ∈ past)
      (hx : row.intoSubmission = .ok x)
  | drawn (hdraw : ⟨.newUuid, x.requestId⟩ ∈ past)
      (hins : ∀ r n, ⟨.execute (.insertChat r), .ok n⟩ ∈ past → r.leaseId = x.leaseId.toText)

lemma submitRequest_submits {sender name : Text} {key payload : List UInt8} {c : Uuid}
    {past : Past Command Command.Ans} (hpast : ∀ r n, ⟨.execute (.insertChat r), .ok n⟩ ∉ past) :
    (submitRequest sender key payload name c).run.Keeps (fun _ _ => True)
      (fun past r => ∀ x, r = .ok x → Submits past x) past := by
  simp only [submitRequest, wp_bind, keeps_fetch (.activeCount _), wp_refuse, keeps_now,
    wp_addSeconds, keeps_newUuid, keeps_fetch (.recipient _), wp_pure, true_and, reduceCtorEq,
    IsEmpty.forall_iff, implies_true, and_true]
  intro m _ t lease _ hard _ u v recipient
  rw [insertUnlessHidden.eq_def]
  cases recipient with
  | none =>
    rintro x ⟨⟩
    exact .drawn (by simp) fun r n hr => absurd hr (by simp [hpast])
  | some recipient =>
    simp only [wp_bind, keeps_fetch (.blockExists _ _), true_and, implies_true, and_true]
    intro blocked
    split_ifs
    · simp only [wp_bind, keeps_execute, wp_pure, true_and, implies_true, and_true]
      rintro n x ⟨⟩
      refine .drawn (by simp) fun r k hr => ?_
      simp only [List.mem_cons, hpast, Sigma.mk.injEq, reduceCtorEq, false_and, or_false,
        Command.execute.injEq, Write.insertChat.injEq] at hr
      rw [hr.1]
    · rintro x ⟨⟩
      exact .drawn (by simp) fun r n hr => absurd hr (by simp [hpast])

/-- Only a send answers the ids of a request. -/
theorem submits (op : Op) : (op.program D).Keeps (fun _ _ => True)
    (fun past r => ∀ x, r = .ok (.submission x) → Submits past x) [] := by
  have hno : ∀ {α : Type} (f : α → Answer) (x : Resolver α), (∀ a y, f a ≠ .submission y) →
      (f <$> x).run.Keeps (fun _ _ => True)
        (fun past r => ∀ x, r = .ok (.submission x) → Submits past x) [] := by
    intro α f x hf
    refine (wp_map _ _).mpr (Prog.keeps_of_forall _ (fun _ _ => trivial) fun past r y hy => ?_)
    cases r with
    | error e => cases hy
    | ok a => exact absurd (Except.ok.inj hy) (hf a y)
  cases op with
  | sendLiveChatRequest ctx input =>
    simp only [Op.program, Op.resolver, sendLiveChatRequest, authenticated, wp_map, wp_bind,
      wp_orFail, wp_lift, keeps_execute, keeps_fetch (.publicKey _),
      keeps_fetch (.existingRequest _ _), Except.map, true_and, reduceCtorEq, IsEmpty.forall_iff,
      implies_true, and_true]
    rintro sender - payload - name - n key publicKey - existing
    cases existing with
    | some row =>
      simp only [wp_lift, Except.ok.injEq, Answer.submission.injEq, reduceCtorEq,
        IsEmpty.forall_iff, implies_true, and_true]
      rintro _ hx x rfl
      exact .found List.mem_cons_self hx
    | none =>
      refine (submitRequest_submits (by simp)).mono (fun _ _ h => h) fun past r hr x hx => ?_
      cases r with
      | error e => cases hx
      | ok y' =>
        cases hx
        exact hr _ rfl
  | _ => exact hno _ _ fun _ _ => by simp

/-- A stored request is answered with its ids. -/
lemma ids_of_submission {row : ExistingRequestRow} {x : LiveChatRequestSubmission} {u v : Uuid}
    (hx : row.intoSubmission = .ok x) (hu : row.requestId = u.toText)
    (hv : row.leaseId = v.toText) : x.requestId = u ∧ x.leaseId = v := by
  rcases row.intoSubmission_cases with hbad | ⟨y, hy, hreq, hlease, -⟩
  · rw [hbad] at hx
    cases hx
  · rw [hy] at hx
    cases hx
    rw [hu, Uuid.parse_toText] at hreq
    rw [hv, Uuid.parse_toText] at hlease
    exact ⟨(Option.some.inj hreq).symm, (Option.some.inj hlease).symm⟩

/-- A request with the id that a send answers was inserted before the answer, and has the lease id
that it answers. -/
lemma insert_of_submission (h : Reach P ((service D).start (World.init .empty t₀)) s)
    {post pre : Log} {i : ℕ} {x : LiveChatRequestSubmission}
    (hlog : s.log = post ++ .respond i (.ok (.submission x)) :: pre) {k n : ℕ} {r : ChatRecord}
    (hins : .exec k ⟨.execute (.insertChat r), .ok n⟩ ∈ s.log)
    (hid : r.requestId = x.requestId.toText) :
    r.leaseId = x.leaseId.toText ∧ ∃ m, .exec k ⟨.execute (.insertChat r), .ok m⟩ ∈ pre := by
  obtain ⟨u, -, hu, -, hdraw, -⟩ := drawn_of_insert h hins
  have hsub : pre ⊆ s.log := by
    rw [hlog]
    exact fun e he => List.mem_append_right _ (List.mem_cons_of_mem _ he)
  obtain ⟨op, -, hsubmits⟩ := h.log_respond submits hlog
  cases hsubmits x rfl with
  | found hread hx =>
    obtain ⟨a, b, rfl⟩ := List.append_of_mem (mem_own.mp hread)
    obtain ⟨s₁, _, ch, h₁, rfl, -, -, -, -, -, heff, -⟩ :=
      exec_of_log h (hlog.trans (List.append_assoc post (_ :: a) _).symm)
    obtain ⟨r₁, hr₁, rfl⟩ := Option.map_eq_some_iff.mp (heff.truthful trivial).symm
    obtain ⟨p, q, k', r₀, hl₁, heq⟩ := insert_of_row h₁ (List.mem_of_find?_eq_some hr₁)
    have hins₀ : .exec k' ⟨.execute (.insertChat r₀), .ok 1⟩ ∈ s₁.log := by simp [hl₁]
    obtain ⟨u', v', hu', hv', hdraw', -⟩ := drawn_of_insert h₁ hins₀
    obtain ⟨hx₁, hx₂⟩ := ids_of_submission hx (by rw [heq]; exact hu') (by rw [heq]; exact hv')
    have hsub₁ : s₁.log ⊆ s.log :=
      List.Subset.trans (fun e he => List.mem_append_right _ (List.mem_cons_of_mem _ he)) hsub
    -- The request was inserted by the operation that drew its id.
    obtain rfl : u = u' := Uuid.toText_inj.mp (hu.symm.trans (hid.trans (by rw [hx₁])))
    obtain rfl := (drawing h).unique hdraw (hsub₁ hdraw')
    obtain rfl := insertChat_unique h hins (hsub₁ hins₀)
    refine ⟨hv'.trans (by rw [hx₂]), 1, ?_⟩
    exact List.mem_append_right _ (List.mem_cons_of_mem _ hins₀)
  | drawn hdraw' hins' =>
    obtain rfl : u = x.requestId := Uuid.toText_inj.mp (hu.symm.trans hid)
    obtain rfl := (drawing h).unique hdraw (hsub (mem_own.mp hdraw'))
    rw [← mem_own, h.own_of_respond hlog] at hins
    exact ⟨hins' r n hins, n, mem_own.mp hins⟩

/-! ### What a cancel leaves -/

/-- An exchange of the log is the effect of a step of the run. -/
lemma effect_of_exec {d₀ : Db} (h : Reach P ((service D).start (World.init d₀ t₀)) s) {k : ℕ}
    {e : Exchange Command Command.Ans} {post pre : Log} (hlog : s.log = post ++ .exec k e :: pre) :
    ∃ (s₁ s₂ : Service D) (ch : Choice), Reach P ((service D).start (World.init d₀ t₀)) s₁ ∧
      Reach P s₁ s₂ ∧ Reach P s₂ s ∧ s₁.log = pre ∧ s₂.log = .exec k e :: pre ∧
        Effect D k ch s₁.world e s₂.world := by
  obtain ⟨s₁, x, s₂, hp, hl₁, hl₂⟩ := h.passes hlog (by simp [start])
  rcases service_step hp.reach hp.next with
    ⟨-, -, z, hz, hne⟩ | ⟨i, ch, e', -, -, he', -, -, -, -, heff⟩
  · rw [hl₁, hl₂] at hz
    exact absurd (List.cons.inj hz).1.symm (hne k e)
  · rw [hl₁, hl₂] at he'
    cases (List.cons.inj he').1
    exact ⟨s₁, s₂, ch, hp.reach, .step .refl hp.cond hp.next, hp.rest, hl₁, hl₂, heff⟩

/-- What an operation has seen when it answers is the effect of a step since its call. -/
lemma effect_since_call {d₀ : Db} (h : Reach P ((service D).start (World.init d₀ t₀)) s) {k : ℕ}
    {r : Response} {op : Op} {post mid pre : Log}
    (hlog : s.log = post ++ .respond k r :: (mid ++ .call k op :: pre))
    {e : Exchange Command Command.Ans} (he : e ∈ own k (mid ++ .call k op :: pre)) :
    ∃ (s₁ s₂ : Service D) (ch : Choice), Reach P ((service D).start (World.init d₀ t₀)) s₁ ∧
      Reach P s₁ s₂ ∧ Reach P s₂ s ∧ (∃ c, s₁.log = c ++ .call k op :: pre) ∧
        Effect D k ch s₁.world e s₂.world := by
  have hlog' : s.log = (post ++ .respond k r :: mid) ++ .call k op :: pre := by simp [hlog]
  rw [own_append, own, h.before_call hlog', List.append_nil] at he
  obtain ⟨a, b, rfl⟩ := List.append_of_mem (mem_own.mp he)
  have hexec : s.log = (post ++ .respond k r :: a) ++ .exec k e :: (b ++ .call k op :: pre) := by
    simp [hlog]
  obtain ⟨s₁, s₂, ch, h₁, h₁₂, h₂, hl₁, -, heff⟩ := effect_of_exec h hexec
  exact ⟨s₁, s₂, ch, h₁, h₁₂, h₂, ⟨b, hl₁⟩, heff⟩

/-- What a cancel has seen when it succeeds: no request under the ids, or its deletion. -/
def Cancels (op : Op) (past : Past Command Command.Ans) (r : Response) : Prop :=
  ∀ ctx input y, op = .cancelLiveChatRequest ctx input → r = .ok y →
    ⟨.select (.owner input.requestId.toText input.leaseId.toText), .ok none⟩ ∈ past ∨
      ∃ n, ⟨.execute (.deleteChat input.requestId.toText input.leaseId.toText), .ok n⟩ ∈ past

lemma cancels (op : Op) : (op.program D).Keeps (fun _ _ => True) (Cancels op) [] := by
  by_cases h : ∃ ctx input, op = .cancelLiveChatRequest ctx input
  · obtain ⟨ctx, input, rfl⟩ := h
    simp only [Op.program, Op.resolver, cancelLiveChatRequest, authenticated, wp_map, wp_bind,
      wp_orFail, keeps_fetch (.owner _ _), true_and, Except.map]
    refine ⟨fun sender hs => ⟨fun owner => ?_, by simp [Cancels]⟩, by simp [Cancels]⟩
    cases owner with
    | none =>
      rintro ctx input y ⟨⟩ -
      exact .inl List.mem_cons_self
    | some owner =>
      simp only [wp_bind, wp_refuse, keeps_execute, wp_pure, true_and]
      refine ⟨by simp [Cancels], fun _ => ⟨fun n => ?_, by simp [Cancels]⟩⟩
      rintro ctx input y ⟨⟩ -
      exact .inr ⟨n, List.mem_cons_self⟩
  · exact Prog.keeps_of_forall _ (fun _ _ => trivial) fun _ _ ctx input _ heq =>
      absurd ⟨ctx, input, heq⟩ h

/-- A cancel that has answered has passed through a state without a request under its ids. -/
lemma cleared (h : Reach P ((service D).start (World.init .empty t₀)) s) {j : ℕ} {ctx : Context}
    {input : CancelLiveChatRequestInput} {y : Answer} {post mid pre : Log}
    (hlog : s.log = post ++ .respond j (.ok y) ::
      (mid ++ .call j (.cancelLiveChatRequest ctx input) :: pre)) :
    ∃ s₁ : Service D, Reach P ((service D).start (World.init .empty t₀)) s₁ ∧ Reach P s₁ s ∧
      pre ⊆ s₁.log ∧ ∀ r ∈ s₁.world.db.chats.rows,
        ¬ (r.requestId = input.requestId.toText ∧ r.leaseId = input.leaseId.toText) := by
  obtain ⟨op, hop, hcancels⟩ := h.log_respond cancels hlog
  have hsub : mid ++ .call j (.cancelLiveChatRequest ctx input) :: pre ⊆ s.log := by
    rw [hlog]
    exact fun e he => List.mem_append_right _ (List.mem_cons_of_mem _ he)
  obtain rfl : op = .cancelLiveChatRequest ctx input :=
    h.logged.call_unique (hsub hop) (hsub (List.mem_append_right _ List.mem_cons_self))
  rcases hcancels ctx input y rfl rfl with hread | ⟨n, hdelete⟩
  · obtain ⟨s₁, s₂, ch, h₁, h₂, h₃, ⟨c, hl₁⟩, heff⟩ := effect_since_call h hlog hread
    refine ⟨s₁, h₁, h₂.trans h₃, ?_, fun r hr => ?_⟩
    · rw [hl₁]
      exact fun e he => List.mem_append_right _ (List.mem_cons_of_mem _ he)
    · have hnone := Option.map_eq_none_iff.mp (heff.truthful trivial).symm
      exact of_decide_eq_false (Bool.eq_false_iff.mpr (List.find?_eq_none.mp hnone r hr))
  · obtain ⟨s₁, s₂, ch, h₁, h₂, h₃, ⟨c, hl₁⟩, heff⟩ := effect_since_call h hlog hdelete
    refine ⟨s₂, h₁.trans h₂, h₃, fun e he => h₂.log_suffix.subset ?_, fun r hr => ?_⟩
    · rw [hl₁]
      exact List.mem_append_right _ (List.mem_cons_of_mem _ he)
    · rw [Write.chats_apply heff.execute] at hr
      simpa only [decide_eq_true_eq] using List.of_mem_filter hr

/-- After a cancel with the ids that a send was answered has answered, the request is not in the
table. -/
theorem gone (h : Reach P ((service D).start (World.init .empty t₀)) s) {i j : ℕ} {ctx : Context}
    {x : LiveChatRequestSubmission} {y : Answer} {post mid pre : Log}
    (hlog : s.log = post ++ .respond j (.ok y) ::
      (mid ++ .call j (.cancelLiveChatRequest ctx ⟨x.requestId, x.leaseId⟩) :: pre))
    (hx : .respond i (.ok (.submission x)) ∈ pre) :
    ∀ r ∈ s.world.db.chats.rows, r.requestId ≠ x.requestId.toText := by
  intro r hr hid
  obtain ⟨s₁, h₁, hrest, hpre, hcleared⟩ := cleared h hlog
  obtain ⟨p, q, hl₁⟩ := List.append_of_mem (hpre hx)
  rcases row_earlier h₁ hrest hr with ⟨r₁, hr₁, heq⟩ | ⟨l, k, r₀, n, hl, hins, heq⟩
  · -- It was there when the cancel had cleared the table.
    obtain ⟨a, b, k, r₀, hlog₀, heq₀⟩ := insert_of_row h₁ hr₁
    have hid₁ : r₁.requestId = x.requestId.toText := by rw [← hid, heq]
    have hid₀ : r₀.requestId = x.requestId.toText := by rw [← hid₁, heq₀]
    have hins₀ : .exec k ⟨.execute (.insertChat r₀), .ok 1⟩ ∈ s₁.log := by simp [hlog₀]
    obtain ⟨hlease, -⟩ := insert_of_submission h₁ hl₁ hins₀ hid₀
    exact hcleared r₁ hr₁ ⟨hid₁, by rw [heq₀]; exact hlease⟩
  · -- It was inserted later, and so a second time.
    have hid₀ : r₀.requestId = x.requestId.toText := by rw [← hid, heq]
    have hl' : s.log = (l ++ p) ++ .respond i (.ok (.submission x)) :: q := by
      rw [hl, hl₁, List.append_assoc]
    have hmem : .exec k ⟨.execute (.insertChat r₀), .ok n⟩ ∈ s.log := by
      rw [hl]
      exact List.mem_append_left _ hins
    obtain ⟨-, m, hm⟩ := insert_of_submission h hl' hmem hid₀
    obtain ⟨a, b, rfl⟩ := List.append_of_mem hm
    have hl'' : s.log = (l ++ p ++ .respond i (.ok (.submission x)) :: a) ++
        .exec k ⟨.execute (.insertChat r₀), .ok m⟩ :: b := by simp [hl']
    exact insert_once h hl'' (List.mem_append_left _ (List.mem_append_left _ hins)) rfl

/-- The id of a stored request is read back as it is. -/
lemma requestId_of_parse (h : Reach P ((service D).start (World.init .empty t₀)) s)
    {r : ChatRecord} (hr : r ∈ s.world.db.chats.rows) {u : Uuid}
    (hu : Uuid.parse r.requestId = some u) : r.requestId = u.toText := by
  obtain ⟨r₀, j, v, w, t, hsent, heq⟩ := (provenance h).chats r hr
  obtain ⟨ctx, input, identitty, -, hs⟩ := hsent.script
  have hv : r.requestId = v.toText := by rw [heq, hs.requestId]
  rw [hv, Uuid.parse_toText] at hu
  rw [hv, Option.some.inj hu]

/-- What a listing shows, and what a renewal renews, was in the table when it read that. -/
theorem row_of_answer (h : Reach P ((service D).start (World.init .empty t₀)) s) {k : ℕ} {op : Op}
    {a : Answer} {post mid pre : Log}
    (hlog : s.log = post ++ .respond k (.ok a) :: (mid ++ .call k op :: pre)) {u : Uuid}
    (ha : (∃ zs, a = .requests zs ∧ ∃ z ∈ zs, z.requestId = u) ∨
      ∃ z, a = .lease z ∧ z.requestId = u) :
    ∃ s₁ : Service D, Reach P ((service D).start (World.init .empty t₀)) s₁ ∧
      (∃ c, s₁.log = c ++ .call k op :: pre) ∧
        ∃ r ∈ s₁.world.db.chats.rows, r.requestId = u.toText := by
  rcases ha with ⟨zs, rfl, z, hz, rfl⟩ | ⟨z, rfl, rfl⟩
  · obtain ⟨_, -, ctx, account, rows, n, -, -, hzs, hpast⟩ := h.log_respond (scripted D) hlog
    obtain ⟨row, hrow, hmodel⟩ := exists_of_mem_mapM hzs hz
    obtain ⟨s₁, s₂, ch, h₁, -, -, hl₁, heff⟩ :=
      effect_since_call h hlog (hpast ▸ List.mem_cons_self)
    rw [show rows = _ from heff.truthful trivial] at hrow
    obtain ⟨r, hr, -, -, hjoin⟩ := Select.mem_liveChatRequests D hrow
    obtain ⟨sender, -, rfl⟩ := Option.map_eq_some_iff.mp hjoin
    exact ⟨s₁, h₁, hl₁, r, hr,
      requestId_of_parse h₁ hr (LiveChatRequestRow.intoModel_eq_ok hmodel).1⟩
  · obtain ⟨_, -, hleased⟩ := h.log_respond leased hlog
    obtain ⟨ctx, sender, input, row, hard, t, m, n, -, -, hz, hpast⟩ := hleased z rfl
    obtain ⟨s₁, s₂, ch, h₁, -, -, hl₁, heff⟩ := effect_since_call h hlog
      (e := ⟨.select (.lease input.requestId.toText input.leaseId.toText sender), .ok (some row)⟩)
      (by simp [hpast, renewPast])
    obtain ⟨r, hr, -⟩ := Option.map_eq_some_iff.mp (heff.truthful trivial).symm
    have hkey := List.find?_some hr
    simp only [decide_eq_true_eq] at hkey
    exact ⟨s₁, h₁, hl₁, r, List.mem_of_find?_eq_some hr, by rw [hkey.1, hz]⟩

/-- In every run a cancel that has answered is final. -/
theorem cancel_final (h : Reach P ((service D).start (World.init .empty t₀)) s) :
    CancelFinal (history s.log) := by
  intro l₄ l₃ l₂ l₁ l₀ i j k op a y ctx x hh hx
  obtain ⟨p₄, q₄, hlog, -, hq₄⟩ := history_split hh
  obtain ⟨p₃, q₃, rfl, -, hq₃⟩ := history_split hq₄
  obtain ⟨p₂, q₂, rfl, -, hq₂⟩ := history_split hq₃
  obtain ⟨p₁, q₁, rfl, -, rfl⟩ := history_split hq₂
  have hgone : ∀ s₁ : Service D, Reach P ((service D).start (World.init .empty t₀)) s₁ →
      (∃ c, s₁.log = c ++ .call k op :: (p₂ ++ .respond j (.ok y) ::
        (p₁ ++ .call j (.cancelLiveChatRequest ctx ⟨x.requestId, x.leaseId⟩) :: q₁))) →
      ∀ r ∈ s₁.world.db.chats.rows, r.requestId ≠ x.requestId.toText := by
    rintro s₁ h₁ ⟨c, hl₁⟩
    have hl : s₁.log = (c ++ .call k op :: p₂) ++ .respond j (.ok y) ::
        (p₁ ++ .call j (.cancelLiveChatRequest ctx ⟨x.requestId, x.leaseId⟩) :: q₁) := by
      rw [hl₁, List.append_assoc, List.cons_append]
    exact gone h₁ hl (mem_history.mp hx)
  have hno : ¬ ((∃ zs, a = .requests zs ∧ ∃ z ∈ zs, z.requestId = x.requestId) ∨
      ∃ z, a = .lease z ∧ z.requestId = x.requestId) := by
    intro ha
    obtain ⟨s₁, h₁, hl₁, r, hr, hid⟩ := row_of_answer h hlog ha
    exact hgone s₁ h₁ hl₁ r hr hid
  exact ⟨fun zs hzs z hz hid => hno (.inl ⟨zs, hzs, z, hz, hid⟩),
    fun z hz hid => hno (.inr ⟨z, hz, hid⟩)⟩

namespace Known

/-- Ada cancels her request and sends it again; Bob lists the second one only. -/
def sentAgain : List (Action Op Choice) :=
  sendAt newYear ++ whole (.cancelLiveChatRequest (session ada) ⟨⟨5⟩, ⟨6⟩⟩) 3 2 newYear ⟨0⟩ ++
    .call (.sendLiveChatRequest (session ada) ⟨"bob".toList, ⟨7⟩, "AA==".toList⟩) ::
    ((List.range 10).map fun n => .step 4 (fine newYear ⟨.ofNat 128 (n + 20)⟩)) ++
    .respond 4 :: whole (.liveChatRequests (session bob)) 5 2 newYear ⟨0⟩

lemma sentAgain_answers :
    (((service deployment).start (World.init .empty newYear)).take sentAgain).map
      (fun s => (history s.log).take 8) = some
        [.respond 5 (.ok (.requests [⟨⟨25⟩, ada, "ada".toList, Base64.encode adaKey, "AA==".toList,
            newYear, newYear + DateTime.seconds 90⟩])), .call 5 (.liveChatRequests (session bob)),
          .respond 4 (.ok (.submission ⟨⟨25⟩, true, ⟨26⟩, newYear + DateTime.seconds 90⟩)),
          .call 4 (.sendLiveChatRequest (session ada) ⟨"bob".toList, ⟨7⟩, "AA==".toList⟩),
          .respond 3 (.ok (.flag true)),
          .call 3 (.cancelLiveChatRequest (session ada) ⟨⟨5⟩, ⟨6⟩⟩),
          .respond 2 (.ok (.submission ⟨⟨5⟩, true, ⟨6⟩, newYear + DateTime.seconds 90⟩)),
          .call 2 (.sendLiveChatRequest (session ada) ⟨"bob".toList, ⟨7⟩, "AA==".toList⟩)] := by
  decide +kernel

end Known

theorem cancel_final_again : ∃ s : Service Known.deployment,
    .respond 3 (.ok (.flag true)) ∈ history s.log ∧
      .respond 2 (.ok (.submission ⟨⟨5⟩, true, ⟨6⟩, Known.newYear + DateTime.seconds 90⟩)) ∈
        history s.log ∧ CancelFinal (history s.log) := by
  obtain ⟨s, hs, hans⟩ := Option.map_eq_some_iff.mp Known.sentAgain_answers
  have hmem : ∀ x ∈ (history s.log).take 8, x ∈ history s.log := fun x => List.mem_of_mem_take
  rw [hans] at hmem
  exact ⟨s, hmem _ (by simp), hmem _ (by simp), cancel_final (reachable_of_take hs)⟩

end TittyBackend
