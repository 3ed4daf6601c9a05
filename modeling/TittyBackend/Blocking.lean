import Mathlib.Data.List.Infix
import TittyBackend.Provenance

/-!
# Blocks

After a block has returned, its blocker is not shown requests of the blocked account, as long as
no send inserts a request that it checked before the block. Nothing in the service prevents that:
the check and the insertion of a send are two statements.
-/

namespace TittyBackend

open Numerals Programs Programs.System

variable {D : Deployment} {P : Service D → Action Op Choice → Prop} {d₀ : Db} {t₀ : ℤ}
  {s : Service D}

/-! ### The promise -/

/-- Once a block of `b.accountId` by `blocker` has returned, no listing of `blocker` that starts
afterwards, and before an unblock of that account by `blocker` starts, returns a request of it. -/
def BlockEffective (h : List (Seen Op Response)) : Prop :=
  ∀ l₃ l₂ l₁ l₀ i k ctx ctx' input blocker b x,
    h = l₃ ++ .respond k (.ok (.requests x)) :: (l₂ ++ .call k (.liveChatRequests ctx') ::
      (l₁ ++ .respond i (.ok (.blocked b)) :: l₀)) →
    .call i (.blockIdentity ctx input) ∈ l₀ → ctx.account = some blocker →
    ctx'.account = some blocker →
    (∀ u ctx'', ctx''.account = some blocker →
      .call u (.unblockIdentity ctx'' ⟨b.accountId⟩) ∉ l₁) →
    ∀ y ∈ x, y.senderAccountId ≠ b.accountId

namespace Known

/-- Ada's send has checked the blocks when Bob blocks her; it inserts its request afterwards, and
Bob lists it. -/
def lateSend : List (Action Op Choice) :=
  whole (register "ada".toList ada adaKey) 0 3 newYear ⟨0⟩ ++
    whole (register "bob".toList bob bobKey) 1 3 newYear ⟨0⟩ ++
    .call (.sendLiveChatRequest (session ada) ⟨"bob".toList, ⟨7⟩, "AA==".toList⟩) ::
    ((List.range 9).map fun n => .step 2 (fine newYear ⟨.ofNat 128 n⟩)) ++
    whole (.blockIdentity (session bob) ⟨"ada".toList⟩) 3 5 newYear ⟨0⟩ ++
    .step 2 (fine newYear ⟨0⟩) :: .respond 2 ::
    whole (.liveChatRequests (session bob)) 4 2 newYear ⟨0⟩

/-- The request that Bob is shown. -/
def lateRequest : LiveChatRequest where
  requestId := ⟨5⟩
  senderAccountId := ada
  senderIdentitty := "ada".toList
  senderPublicKey := Base64.encode adaKey
  encryptedPayload := "AA==".toList
  createdAt := newYear
  expiresAt := newYear + DateTime.seconds 90

lemma lateSend_answers :
    (((service deployment).start (World.init .empty newYear)).take lateSend).map
      (fun s => (history s.log).take 6) = some
        [.respond 4 (.ok (.requests [lateRequest])), .call 4 (.liveChatRequests (session bob)),
          .respond 2 (.ok (.submission ⟨⟨5⟩, true, ⟨6⟩, newYear + DateTime.seconds 90⟩)),
          .respond 3 (.ok (.blocked ⟨ada, "ada".toList, newYear⟩)),
          .call 3 (.blockIdentity (session bob) ⟨"ada".toList⟩),
          .call 2 (.sendLiveChatRequest (session ada) ⟨"bob".toList, ⟨7⟩, "AA==".toList⟩)] := by
  decide +kernel

end Known

theorem block_not_effective : ∃ s : Service Known.deployment,
    (service Known.deployment).Reachable (World.init .empty Known.newYear) s ∧
      ¬ BlockEffective (history s.log) := by
  obtain ⟨s, hs, hans⟩ := Option.map_eq_some_iff.mp Known.lateSend_answers
  refine ⟨s, reachable_of_take hs, fun hblock => ?_⟩
  have hsplit := (List.take_append_drop 6 (history s.log)).symm
  simp only [hans, List.cons_append, List.nil_append] at hsplit
  refine hblock [] [] [.respond 2 _] _ 3 4 _ _ _ Known.bob _ _ hsplit List.mem_cons_self rfl rfl ?_
    Known.lateRequest List.mem_cons_self rfl
  simp

/-! ### What a block removes -/

/-- Since the event `e`, every request of `snd` to `rcp` that is in the table was inserted. -/
def InsertedSince (e : Event Command Command.Ans Op Response) (snd rcp : Text) (w : World)
    (l : Log) : Prop :=
  ∀ post pre, l = post ++ e :: pre → ∀ r ∈ w.db.chats.rows, r.senderAccountId = snd →
    r.recipientAccountId = rcp → ∃ j r₀ n, .exec j ⟨.execute (.insertChat r₀), .ok n⟩ ∈ post ∧
      r₀.senderAccountId = snd ∧ r₀.recipientAccountId = rcp

lemma InsertedSince.cons {e x : Event Command Command.Ans Op Response} {snd rcp : Text}
    {w w' : World} {l : Log} (h : InsertedSince e snd rcp w l)
    (hnow : x = e → ∀ r ∈ w'.db.chats.rows, r.senderAccountId = snd → r.recipientAccountId ≠ rcp)
    (hrow : ∀ r ∈ w'.db.chats.rows, (∃ r₀ ∈ w.db.chats.rows,
        r = { r₀ with leaseExpiresAt := r.leaseExpiresAt }) ∨
      ∃ j n, x = .exec j ⟨.execute (.insertChat r), .ok n⟩) :
    InsertedSince e snd rcp w' (x :: l) := by
  intro post pre hl r hr hs hrcp
  cases post with
  | nil =>
    simp only [List.nil_append, List.cons.injEq] at hl
    exact absurd hrcp (hnow hl.1 r hr hs)
  | cons y post =>
    simp only [List.cons_append, List.cons.injEq] at hl
    obtain ⟨rfl, hl⟩ := hl
    rcases hrow r hr with ⟨r₀, hr₀, heq⟩ | ⟨j, n, rfl⟩
    · rw [heq] at hs hrcp
      obtain ⟨j, r₁, n, hj, hr₁⟩ := h post pre hl r₀ hr₀ hs hrcp
      exact ⟨j, r₁, n, List.mem_cons_of_mem _ hj, hr₁⟩
    · exact ⟨j, r, n, List.mem_cons_self, hs, hrcp⟩

/-- After a block has removed the requests of `snd` to `rcp`, such a request in the table was
inserted later. -/
lemma insertedSince_purge (h : Reach P ((service D).start (World.init d₀ t₀)) s) (i n : ℕ)
    (snd rcp : Text) : InsertedSince (.exec i ⟨.execute (.deleteChatsBetween snd rcp), .ok n⟩)
      snd rcp s.world s.log := by
  have hsame : ∀ w : World, ∀ r ∈ w.db.chats.rows, ∃ r₀ ∈ w.db.chats.rows,
      r = { r₀ with leaseExpiresAt := r.leaseExpiresAt } := fun w r hr => ⟨r, hr, rfl⟩
  refine service_invariant h (InsertedSince _ snd rcp) ?_ ?_ ?_ ?_ ?_
  · exact fun post pre hl => absurd hl.symm (by simp)
  · exact fun s j op _ _ ih => ih.cons (by simp) fun r hr => .inl (hsame _ r hr)
  · intro s j op e ch w' hr _ ha hi _ _ heff ih
    refine ih.cons (fun he => ?_) fun r hr' => ?_
    · cases he
      cases heff with
      | quiet l hq ht => exact hq.elim
      | write hu hw =>
        intro r hr'
        rw [Write.chats_apply hu] at hr'
        have hdel := List.of_mem_filter hr'
        simpa only [decide_eq_true_eq, not_and] using hdel
      | release he => rcases he with he | ⟨x, he⟩ <;> cases he
    · rcases (locking hr).change ha hi heff with hdb | ⟨u, m, rfl, hu⟩ |
        ⟨_, _, _, _, _, _, -, -, -, hu⟩
      · exact .inl (hsame s.world r (hdb ▸ hr'))
      · rw [Write.chats_apply hu] at hr'
        rcases Write.mem_chatRows hr' with ⟨r₀, hr₀, heq, -⟩ | rfl
        · exact .inl ⟨r₀, hr₀, heq⟩
        · exact .inr ⟨j, m, rfl⟩
      · rw [loginUpdate] at hu
        rw [Write.chats_apply hu] at hr'
        exact .inl (hsame _ r hr')
  · exact fun s j op r _ _ _ ih => ih.cons (by simp) fun r hr => .inl (hsame _ r hr)
  · exact fun s _ ih => ih.cons (by simp) fun r hr => .inl (hsame _ r hr)

/-! ### When blocks are effective -/

/-- After operation `i` answered, an unblock of `snd` by `rcp` started, and no listing of `rcp` that
started between the two is still in progress. -/
def Reopened (s : Service D) (snd rcp : Text) (i : ℕ) : Prop :=
  ∃ u ctx x l₂ l₁ l₀, ctx.account = some rcp ∧
    s.log = l₂ ++ .call u (.unblockIdentity ctx ⟨snd⟩) :: (l₁ ++ .respond i x :: l₀) ∧
    ∀ k ctx', ctx'.account = some rcp → .call k (.liveChatRequests ctx') ∈ l₁ → ¬ s.Running k

/-- No request is inserted after a block of its sender by its recipient has removed the earlier
ones, unless that block failed or an unblock has reopened the way. -/
def SendsInTime (s : Service D) (a : Action Op Choice) : Prop :=
  ∀ s' j r n, s.next a = some s' → s'.log = .exec j ⟨.execute (.insertChat r), .ok n⟩ :: s.log →
    ∀ i m, .exec i ⟨.execute (.deleteChatsBetween r.senderAccountId r.recipientAccountId),
        .ok m⟩ ∈ s.log → ¬ s.Running i ∧ ∀ b, .respond i (.ok (.blocked b)) ∈ s.log →
          Reopened s r.senderAccountId r.recipientAccountId i

/-- What a listing shows was in the table when the listing read it. -/
lemma read_of_listing (h : Reach P ((service D).start (World.init d₀ t₀)) s) {k : ℕ}
    {x : List LiveChatRequest} {y : LiveChatRequest} {post mid pre : Log} {ctx : Context}
    {rcp : Text} (hlog : s.log = post ++ .respond k (.ok (.requests x)) ::
      (mid ++ .call k (.liveChatRequests ctx) :: pre))
    (hrcp : ctx.account = some rcp) (hy : y ∈ x) :
    ∃ (s₁ : Service D) (l : Log), Reach P ((service D).start (World.init d₀ t₀)) s₁ ∧
      s₁.Running k ∧ s₁.log = l ++ .call k (.liveChatRequests ctx) :: pre ∧
      ∃ r ∈ s₁.world.db.chats.rows, r.senderAccountId = y.senderAccountId ∧
        r.recipientAccountId = rcp := by
  obtain ⟨op, hop, hret⟩ := h.log_respond (scripted D) hlog
  obtain ⟨ctx', account, rows, n, rfl, haccount, hx, hpast⟩ := hret
  have hl : mid ++ .call k (.liveChatRequests ctx) :: pre ⊆ s.log := by
    rw [hlog]
    exact fun e he => List.mem_append_right _ (List.mem_cons_of_mem _ he)
  obtain rfl : ctx = ctx' := by
    have hcall : .call k (.liveChatRequests ctx) ∈ mid ++ .call k (.liveChatRequests ctx) :: pre :=
      List.mem_append_right _ List.mem_cons_self
    cases h.logged.call_unique (hl hcall) (hl hop)
    rfl
  obtain rfl : account = rcp := Option.some.inj (haccount.symm.trans hrcp)
  obtain ⟨row, hrow, hmodel⟩ := exists_of_mem_mapM hx hy
  -- The listing has read its rows after its call.
  have hlog' : s.log = (post ++ .respond k (.ok (.requests x)) :: mid) ++
      .call k (.liveChatRequests ctx) :: pre := by simp [hlog]
  have hbefore : own k pre = [] := h.before_call hlog'
  rw [own_append, own, hbefore, List.append_nil] at hpast
  have hselect : .exec k ⟨.select (.liveChatRequests account), .ok rows⟩ ∈ mid :=
    mem_own.mp (by simp [hpast])
  obtain ⟨a, c, rfl⟩ := List.append_of_mem hselect
  have hlog'' : s.log = (post ++ .respond k (.ok (.requests x)) :: a) ++
      .exec k ⟨.select (.liveChatRequests account), .ok rows⟩ ::
        (c ++ .call k (.liveChatRequests ctx) :: pre) := by
    rw [hlog]
    simp only [List.append_assoc, List.cons_append]
  obtain ⟨s₁, s₂, ch, h₁, hl₁, hrun, -, -, -, -, heff, -⟩ := exec_of_log h hlog''
  have hrows : rows = Select.eval D ch.reading s₁.world.db (.liveChatRequests account) :=
    heff.truthful trivial
  rw [hrows] at hrow
  obtain ⟨r, hr, hrcp', -, hjoin⟩ := Select.mem_liveChatRequests D hrow
  obtain ⟨account', -, rfl⟩ := Option.map_eq_some_iff.mp hjoin
  exact ⟨s₁, c, h₁, hrun, hl₁, r, hr, (LiveChatRequestRow.intoModel_eq_ok hmodel).2.1.symm, hrcp'⟩

/-- A block that returns has removed the requests of the account it blocks. -/
lemma purge_of_block (h : Reach P ((service D).start (World.init d₀ t₀)) s) {i : ℕ}
    {b : BlockedIdentity} {p q : Log} {ctx : Context} {input : BlockIdentityInput}
    {rcp : Text} (hlog : s.log = p ++ .respond i (.ok (.blocked b)) :: q)
    (hc : .call i (.blockIdentity ctx input) ∈ q) (hrcp : ctx.account = some rcp) :
    ∃ n, .exec i ⟨.execute (.deleteChatsBetween b.accountId rcp), .ok n⟩ ∈ q := by
  obtain ⟨op, hop, hret⟩ := h.log_respond (scripted D) hlog
  obtain ⟨ctx', input', blocker, identitty, target, t, n, m, ts, rfl, hblock, hid, -, -, hpast⟩ :=
    hret
  have hl : q ⊆ s.log := by
    rw [hlog]
    exact fun e he => List.mem_append_right _ (List.mem_cons_of_mem _ he)
  cases h.logged.call_unique (hl hc) (hl hop)
  obtain rfl : blocker = rcp := by simpa [hblock.account] using hrcp
  exact ⟨n, mem_own.mp (by simp [hpast, hid])⟩

/-- Of two entries of a list, the one in front of the other. -/
lemma mem_of_append_eq {α : Type} {l₁ l₂ m₁ m₂ : List α} {a b : α} (hab : a ≠ b)
    (h : l₁ ++ a :: l₂ = m₁ ++ b :: m₂) : a ∈ m₂ ∨ b ∈ l₂ := by
  rcases List.append_eq_append_iff.mp h with ⟨as, -, h⟩ | ⟨bs, -, h⟩
  · cases as with
    | nil => exact absurd (List.cons.inj h).1 hab
    | cons x as => exact .inr ((List.cons.inj h).2 ▸ List.mem_append_right _ List.mem_cons_self)
  · cases bs with
    | nil => exact absurd (List.cons.inj h).1.symm hab
    | cons x bs => exact .inl ((List.cons.inj h).2 ▸ List.mem_append_right _ List.mem_cons_self)

/-- A log is cut at a response in one way. -/
lemma cut_unique (h : Reach P ((service D).start (World.init d₀ t₀)) s) {i : ℕ} {r r' : Response}
    {l₁ l₂ m₁ m₂ : Log} (hl : s.log = l₁ ++ .respond i r :: l₂)
    (hm : s.log = m₁ ++ .respond i r' :: m₂) : l₁ = m₁ := by
  have hnot : ∀ {a b : Log} {x : Response}, s.log = a ++ .respond i x :: b →
      ∀ x', .respond i x' ∉ a := by
    intro a b x hs x' hx
    obtain ⟨c, d, rfl⟩ := List.append_of_mem hx
    refine h.before_respond (hs.trans (List.append_assoc c _ _)) x ?_
    exact List.mem_append_right _ List.mem_cons_self
  exact ((List.append_cons_inj_of_notMem (hnot hl r') (h.before_respond hl r')).mp
    (hl.symm.trans hm)).1

/-- A request that is inserted in time between a block and a listing that starts before any unblock
is not there. -/
lemma no_late_send (h : Reach SendsInTime ((service D).start (World.init d₀ t₀)) s) {i k : ℕ}
    {b : BlockedIdentity} {ctx' : Context} {rcp : Text} {l₁ q₁ c : Log}
    (hlog : s.log = (c ++ .call k (.liveChatRequests ctx') :: l₁) ++
      .respond i (.ok (.blocked b)) :: q₁)
    (hrun : s.Running k) (hrcp' : ctx'.account = some rcp)
    (hno : ∀ u ctx'', ctx''.account = some rcp →
      .call u (.unblockIdentity ctx'' ⟨b.accountId⟩) ∉ l₁)
    {j m n : ℕ} {r : ChatRecord} {post pre : Log} (hins : s.log = post ++
      .exec j ⟨.execute (.insertChat r), .ok n⟩ :: pre)
    (hpurge : .exec i ⟨.execute (.deleteChatsBetween b.accountId rcp), .ok m⟩ ∈ pre)
    (hs : r.senderAccountId = b.accountId) (hr : r.recipientAccountId = rcp) : False := by
  obtain ⟨s₁, s₂, _, h₁, rfl, -, hP, hn, hl₂, -, -, h₂⟩ := exec_of_log h hins
  obtain ⟨hended, hreopened⟩ := hP s₂ j r n hn hl₂ i m (hs ▸ hr ▸ hpurge)
  have hresp : .respond i (.ok (.blocked b)) ∈ s₁.log := by
    by_contra hno
    have hle : s₁.log <:+ .respond i (.ok (.blocked b)) :: q₁ := by
      have hresp : .respond i (.ok (.blocked b)) :: q₁ <:+ s.log := ⟨_, hlog.symm⟩
      have hpast : s₁.log <:+ s.log := (List.suffix_cons _ _).trans ⟨_, hins.symm⟩
      refine (List.suffix_or_suffix_of_suffix hresp hpast).resolve_left fun hsuf => ?_
      exact hno (hsuf.subset List.mem_cons_self)
    rcases List.suffix_cons_iff.mp hle with heq | hle
    · exact hno (heq ▸ List.mem_cons_self)
    · obtain ⟨t, ht⟩ := h₁.logged.thread_of_exec hpurge
      exact hended (h₂.running_of_respond ht hlog hle)
  obtain ⟨u, ctx, x, p₂, p₁, p₀, hctx, hl₁, hlist⟩ := hreopened b hresp
  have hins' : s.log = (post ++ .exec j ⟨.execute (.insertChat r), .ok n⟩ :: p₂ ++
      .call u (.unblockIdentity ctx ⟨r.senderAccountId⟩) :: p₁) ++ .respond i x :: p₀ := by
    rw [hins, hl₁]
    simp only [List.append_assoc, List.cons_append]
  rcases mem_of_append_eq (fun heq => by cases heq) (cut_unique h hlog hins') with hk | hu
  · obtain ⟨t, ht, -⟩ := (h₁.logged.call k _).mp (by
      rw [hl₁]
      exact List.mem_append_right _ (List.mem_cons_of_mem _ (List.mem_append_left _ hk)))
    exact h₂.ended ht (hlist k ctx' (hr ▸ hrcp') hk) hrun
  · exact hno u ctx (hr ▸ hctx) (hs ▸ hu)

/-- In every run in which no request is inserted after a block has removed the earlier ones, a
block that has returned is effective. -/
theorem block_effective (h : Reach SendsInTime ((service D).start (World.init d₀ t₀)) s) :
    BlockEffective (history s.log) := by
  intro l₃ l₂ l₁ l₀ i k ctx ctx' input rcp b x hh hc hrcp hrcp' hno y hy hsnd
  obtain ⟨p₃, q₃, hlog, -, hq₃⟩ := history_split hh
  obtain ⟨p₂, q₂, rfl, -, hq₂⟩ := history_split hq₃
  obtain ⟨p₁, q₁, rfl, rfl, rfl⟩ := history_split hq₂
  obtain ⟨s₁, c, h₁, hrun, hl₁, r, hr, hs, hrcp''⟩ := read_of_listing h hlog hrcp' hy
  obtain ⟨m, hpurge⟩ := purge_of_block h (p := p₃ ++ _ :: (p₂ ++ _ :: p₁)) (by
    simpa only [Seen.event, List.append_assoc, List.cons_append] using hlog)
    (mem_history.mp hc) hrcp
  have hcut : s₁.log = (c ++ .call k (.liveChatRequests ctx') :: p₁) ++
      .respond i (.ok (.blocked b)) :: q₁ := by
    simp only [hl₁, Seen.event, List.append_assoc, List.cons_append]
  obtain ⟨a, q, rfl⟩ := List.append_of_mem hpurge
  have hl : s₁.log = ((c ++ .call k (.liveChatRequests ctx') :: p₁) ++
      .respond i (.ok (.blocked b)) :: a) ++
        .exec i ⟨.execute (.deleteChatsBetween b.accountId rcp), .ok m⟩ :: q := by
    simp only [hcut, List.append_assoc, List.cons_append]
  obtain ⟨j, r₀, n, hins, hs₀, hr₀⟩ :=
    insertedSince_purge h₁ i m b.accountId rcp _ q hl r hr (hs.trans hsnd) hrcp''
  obtain ⟨post, pre, hpost⟩ := List.append_of_mem hins
  rw [hpost] at hl
  refine no_late_send h₁ hcut hrun hrcp' (fun u ctx'' hctx hu => ?_)
    (hl.trans (List.append_assoc post _ _)) (List.mem_append_right _ List.mem_cons_self) hs₀ hr₀
  exact hno u ctx'' hctx (mem_history.mpr hu)

namespace Known

/-- Whether the event is the answer of a block by operation `i` that succeeded. -/
def blocks (i : ℕ) : Event Command Command.Ans Op Response → Bool
  | .respond j (.ok (.blocked _)) => j = i
  | _ => false

def answers (i : ℕ) : Event Command Command.Ans Op Response → Bool
  | .respond j _ => j = i
  | _ => false

def ended (s : Service deployment) (i : ℕ) : Bool := s.threads[i]?.all fun t => !t.live

/-- Whether the event is no call of a listing of `rcp` that is still in progress. -/
def listsNot (s : Service deployment) (rcp : Text) : Event Command Command.Ans Op Response → Bool
  | .call k (.liveChatRequests ctx) => ctx.account ≠ some rcp || ended s k
  | _ => true

/-- Whether the last event is an unblock of `snd` by `rcp` after operation `i` answered. -/
def reopens (s : Service deployment) (snd rcp : Text) (i : ℕ) : Log → Bool
  | .call _ (.unblockIdentity ctx input) :: l =>
    ctx.account = some rcp && input.accountId = snd && l.any (answers i) && l.all (listsNot s rcp)
  | _ => false

/-- Whether the event is no purge of a block that forbids a request of `snd` to `rcp`. -/
def forbidsNot (s : Service deployment) (snd rcp : Text) :
    Event Command Command.Ans Op Response → Bool
  | .exec i ⟨.execute (.deleteChatsBetween a b), _⟩ => a ≠ snd || b ≠ rcp ||
      ended s i && (!s.log.any (blocks i) || s.log.tails.any (reopens s snd rcp i))
  | _ => true

/-- Whether no block forbids the request that the action inserts. -/
def inTime (s : Service deployment) (a : Action Op Choice) : Bool :=
  (s.next a).all fun s' =>
    match s'.log with
    | .exec _ ⟨.execute (.insertChat r), _⟩ :: _ =>
      s.log.all (forbidsNot s r.senderAccountId r.recipientAccountId)
    | _ => true

lemma not_running_of_ended {s : Service deployment} {i : ℕ} (h : ended s i = true) :
    ¬ s.Running i := by
  rintro ⟨t, ht, hlive⟩
  simp [ended, ht, hlive] at h

lemma reopened_of_reopens {s : Service deployment} {snd rcp : Text} {i : ℕ}
    (h : s.log.tails.any (reopens s snd rcp i) = true) : Reopened s snd rcp i := by
  obtain ⟨l, hl, hre⟩ := List.any_eq_true.mp h
  obtain ⟨l₂, hlog⟩ := (List.mem_tails _ _).mp hl
  cases l with
  | nil => cases hre
  | cons e l =>
    rw [reopens.eq_def] at hre
    split at hre
    · rename_i u ctx input l' heq
      obtain ⟨rfl, rfl⟩ := List.cons.inj heq
      simp only [Bool.and_eq_true, decide_eq_true_eq, List.any_eq_true, List.all_eq_true] at hre
      obtain ⟨⟨⟨hctx, rfl⟩, e, he, hans⟩, hlists⟩ := hre
      obtain ⟨l₁, l₀, rfl⟩ := List.append_of_mem he
      rw [answers.eq_def] at hans
      split at hans
      · rename_i j x
        obtain rfl := of_decide_eq_true hans
        refine ⟨u, ctx, x, l₂, l₁, l₀, hctx, hlog.symm, fun k ctx' hctx' hk => ?_⟩
        have hend := hlists _ (List.mem_append_left _ hk)
        exact not_running_of_ended (by simpa [listsNot, hctx'] using hend)
      · cases hans
    · cases hre

lemma sendsInTime_of_inTime (s : Service deployment) (a : Action Op Choice)
    (h : inTime s a = true) : SendsInTime s a := by
  intro s' j r n hn hlog i m hdel
  rw [inTime, hn, Option.all_some, hlog] at h
  have hforbids := List.all_eq_true.mp h _ hdel
  simp only [forbidsNot, ne_eq, not_true_eq_false, decide_false, Bool.false_or, Bool.and_eq_true,
    Bool.or_eq_true, Bool.not_eq_true', List.any_eq_false] at hforbids
  refine ⟨not_running_of_ended hforbids.1, fun b hb => ?_⟩
  rcases hforbids.2 with hno | hre
  · exact absurd (decide_eq_true rfl) (hno _ hb)
  · exact reopened_of_reopens hre

/-- Bob blocks Ada and lifts the block again, and blocks her a second time. Of the requests that Ada
sends after each of the first two, the second is stored; Bob lists none in the end. -/
def blockedRun : List (Action Op Choice) :=
  let send : Op := .sendLiveChatRequest (session ada) ⟨"bob".toList, ⟨7⟩, "AA==".toList⟩
  whole (register "ada".toList ada adaKey) 0 3 newYear ⟨0⟩ ++
    whole (register "bob".toList bob bobKey) 1 3 newYear ⟨0⟩ ++
    whole (.blockIdentity (session bob) ⟨"ada".toList⟩) 2 5 newYear ⟨0⟩ ++
    .call send :: steps 3 9 0 ++ .respond 3 ::
    whole (.unblockIdentity (session bob) ⟨ada⟩) 4 1 newYear ⟨0⟩ ++
    .call send :: steps 5 10 10 ++ .respond 5 ::
    whole (.blockIdentity (session bob) ⟨"ada".toList⟩) 6 5 newYear ⟨0⟩ ++
    whole (.liveChatRequests (session bob)) 7 2 newYear ⟨0⟩

lemma blockedRun_answers :
    (((service deployment).start (World.init .empty newYear)).takeIf inTime blockedRun).map
      (fun s => (s.log.countP inserts, (history s.log).take 4)) = some (1,
        [.respond 7 (.ok (.requests [])), .call 7 (.liveChatRequests (session bob)),
          .respond 6 (.ok (.blocked ⟨ada, "ada".toList, newYear⟩)),
          .call 6 (.blockIdentity (session bob) ⟨"ada".toList⟩)]) := by
  decide +kernel

end Known

theorem block_effective_blocked : ∃ s : Service Known.deployment,
    s.log.countP Known.inserts = 1 ∧ .respond 7 (.ok (.requests [])) ∈ history s.log ∧
      .respond 6 (.ok (.blocked ⟨Known.ada, "ada".toList, Known.newYear⟩)) ∈ history s.log ∧
      BlockEffective (history s.log) := by
  obtain ⟨s, hs, hans⟩ := Option.map_eq_some_iff.mp Known.blockedRun_answers
  obtain ⟨hinserts, hlast⟩ := Prod.mk.inj hans
  have hmem : ∀ x ∈ (history s.log).take 4, x ∈ history s.log := fun x => List.mem_of_mem_take
  rw [hlast] at hmem
  exact ⟨s, hinserts, hmem _ (by simp), hmem _ (by simp),
    block_effective (Reach.refl.takeIf Known.sendsInTime_of_inTime hs)⟩

end TittyBackend
