import TittyBackend.Requests

/-!
# Renewals

A renewal looks for its request in one statement and sets the end of the lease in another, and
does not look at the number of rows the second one affected. The request may be gone by then, or
its lease may have lapsed, or a renewal that read the clock later may have answered already.
-/

namespace TittyBackend

open DateTime Numerals Programs Programs.System Resolver

variable {D : Deployment} {P : Service D → Action Op Choice → Prop} {t₀ : ℤ} {s : Service D}

/-! ### What a renewal that answers has done -/

/-- A renewal that answers with a lease has set its end, and has done nothing since. -/
def Leased (op : Op) (past : Past Command Command.Ans) (r : Response) : Prop :=
  ∀ x, r = .ok (.lease x) → ∃ ctx sender input row hard t m n,
    op = .renewLiveChatRequest ctx input ∧ parseFromRfc3339 row.hardExpiresAt = some hard ∧
      x = ⟨input.requestId, input.leaseId, min (t + seconds 90) hard⟩ ∧
      past = ⟨.execute (.updateLease (toRfc3339 x.expiresAt) x.requestId.toText), .ok n⟩ ::
        renewPast sender input row t m

lemma renewLiveChatRequest_leased (ctx : Context) (input : RenewLiveChatRequestInput) :
    (Op.program D (.renewLiveChatRequest ctx input)).Keeps (fun _ _ => True)
      (Leased (.renewLiveChatRequest ctx input)) [] := by
  simp only [Op.program, Op.resolver, renewLiveChatRequest, authenticated, wp_map, wp_bind,
    wp_orFail, wp_lift, keeps_execute, keeps_fetch (.lease _ _ _), keeps_now, wp_addSeconds,
    Except.map, wp_pure, Leased, reduceCtorEq, IsEmpty.forall_iff, implies_true, and_true, true_and]
  rintro sender - m found row rfl hard hhard t lease hlease n x hx
  obtain rfl := DateTime.addSeconds_eq_some hlease
  obtain rfl := Answer.lease.inj (Except.ok.inj hx)
  exact ⟨ctx, sender, input, row, hard, t, m, n, rfl, parseDatetime_eq_ok.mp hhard, rfl, rfl⟩

theorem leased (op : Op) : (op.program D).Keeps (fun _ _ => True) (Leased op) [] := by
  by_cases h : ∃ ctx input, op = .renewLiveChatRequest ctx input
  · obtain ⟨ctx, input, rfl⟩ := h
    exact renewLiveChatRequest_leased ctx input
  · have hno : ∀ {α : Type} (f : α → Answer) (x : Resolver α), (∀ a y, f a ≠ .lease y) →
        (f <$> x).run.Keeps (fun _ _ => True) (Leased op) [] := by
      intro α f x hf
      refine (wp_map _ _).mpr (Prog.keeps_of_forall _ (fun _ _ => trivial) fun past r y hy => ?_)
      cases r with
      | error e => cases hy
      | ok a => exact absurd (Except.ok.inj hy) (hf a y)
    cases op with
    | renewLiveChatRequest ctx input => exact absurd ⟨ctx, input, rfl⟩ h
    | _ => exact hno _ _ fun _ _ => by simp

/-! ### The promise -/

/-- Every renewal that has answered by `s` has set the end that it answers, on a request that was
there and whose lease had not lapsed; and no renewal sets an end before one that was answered. -/
structure RealRenewals (P : Service D → Action Op Choice → Prop) (t₀ : ℤ) (s : Service D) :
    Prop where
  updated : ∀ i x, .respond i (.ok (.lease x)) ∈ s.log → ∃ n, .exec i
    ⟨.execute (.updateLease (toRfc3339 x.expiresAt) x.requestId.toText), .ok n⟩ ∈ s.log
  live : ∀ i x s₁ s₂ ch n, .respond i (.ok (.lease x)) ∈ s.log →
    Passes P ((service D).start (World.init .empty t₀)) s₁ (.step i ch) s₂ s →
    s₂.log = .exec i ⟨.execute (.updateLease (toRfc3339 x.expiresAt) x.requestId.toText), .ok n⟩ ::
      s₁.log →
    ∃ r ∈ s₁.world.db.chats.rows, r.requestId = x.requestId.toText ∧ r.leaseId = x.leaseId.toText ∧
      r.Active D ch.reading = true ∧
      { r with leaseExpiresAt := toRfc3339 x.expiresAt } ∈ s₂.world.db.chats.rows
  order : ∀ i s₁ s₂ ch n text requestId,
    Passes P ((service D).start (World.init .empty t₀)) s₁ (.step i ch) s₂ s →
    s₂.log = .exec i ⟨.execute (.updateLease text requestId), .ok n⟩ :: s₁.log →
    ∃ e, text = toRfc3339 e ∧ ∀ k x, .respond k (.ok (.lease x)) ∈ s₁.log →
      x.requestId.toText = requestId → x.expiresAt ≤ e

namespace Known

/-- A renewal of Ada's request. -/
def renew : Op := .renewLiveChatRequest (session ada) ⟨⟨5⟩, ⟨6⟩⟩

/-- Ada cancels her request when its renewal is about to set the end of the lease. -/
def cancelledRenewal : List (Action Op Choice) :=
  sendAt newYear ++ .call renew :: List.replicate 3 (.step 3 (fine newYear ⟨0⟩)) ++
    whole (.cancelLiveChatRequest (session ada) ⟨⟨5⟩, ⟨6⟩⟩) 4 2 newYear ⟨0⟩

/-- A renewal has read the clock when another one reads it ten seconds later and answers. -/
def overtakenRenewal : List (Action Op Choice) :=
  sendAt newYear ++ .call renew :: List.replicate 3 (.step 3 (fine newYear ⟨0⟩)) ++
    whole renew 4 4 (newYear + seconds 10) ⟨0⟩

/-- Whether an event sets the end of Ada's lease to 90 seconds after `t`. -/
def setsLease (t : ℤ) : Event Command Command.Ans Op Response → Bool
  | .exec 3 ⟨.execute (.updateLease e requestId), .ok _⟩ =>
    e = toRfc3339 (t + seconds 90) ∧ requestId = Uuid.toText ⟨5⟩
  | _ => false

lemma exec_of_setsLease {t : ℤ} {x : Event Command Command.Ans Op Response}
    (h : setsLease t x = true) : ∃ n, x = .exec 3
      ⟨.execute (.updateLease (toRfc3339 (t + seconds 90)) (Uuid.toText ⟨5⟩)), .ok n⟩ := by
  unfold setsLease at h
  split at h
  · obtain ⟨rfl, rfl⟩ := of_decide_eq_true h
    exact ⟨_, rfl⟩
  · cases h

/-- The answer to the renewal with number `i`, of a clock read at `t`. -/
def renewed (i : ℕ) (t : ℤ) : Seen Op Response :=
  .respond i (.ok (.lease ⟨⟨5⟩, ⟨6⟩, t + seconds 90⟩))

lemma cancelledRenewal_sets :
    (((service deployment).start (World.init .empty newYear)).passing cancelledRenewal
      (.step 3 (fine newYear ⟨0⟩)) [.respond 3]).map
      (fun x => (x.1.world.db.chats.rows.length,
        x.2.1.log.head?.any (setsLease newYear), (history x.2.2.log).take 1)) =
      some (0, true, [renewed 3 newYear]) := by
  decide +kernel

lemma overtakenRenewal_sets :
    (((service deployment).start (World.init .empty newYear)).passing overtakenRenewal
      (.step 3 (fine (newYear + seconds 10) ⟨0⟩)) [.respond 3]).map
      (fun x => (x.2.2.world.db.chats.rows.length, (history x.1.log).take 1,
        x.2.1.log.head?.any (setsLease newYear))) =
      some (1, [renewed 4 (newYear + seconds 10)], true) := by
  decide +kernel

end Known

open Known in
/-- A renewal may answer for a request that is gone, and may set an end before one that was
answered. -/
theorem real_renewals_not :
    (∃ s : Service deployment, (service deployment).Reachable (World.init .empty newYear) s ∧
      renewed 3 newYear ∈ history s.log ∧ ¬ RealRenewals (fun _ _ => True) newYear s) ∧
    ∃ s : Service deployment, (service deployment).Reachable (World.init .empty newYear) s ∧
      s.world.db.chats.rows.length = 1 ∧ ¬ RealRenewals (fun _ _ => True) newYear s := by
  constructor
  · obtain ⟨⟨s₁, s₂, s⟩, hs, hans⟩ := Option.map_eq_some_iff.mp cancelledRenewal_sets
    simp only [Prod.mk.injEq, List.length_eq_zero_iff] at hans
    obtain ⟨hnone, hset, hlast⟩ := hans
    have hp := passes_of_passing hs
    have hresp : renewed 3 newYear ∈ history s.log :=
      List.mem_of_mem_take (hlast ▸ List.mem_singleton_self _)
    refine ⟨s, hp.reachable, hresp, fun hreal => ?_⟩
    obtain ⟨x, hlog⟩ := (State.steps_of_next hp.next).log_eq
    rw [hlog, List.head?_cons, Option.any_some] at hset
    obtain ⟨n, rfl⟩ := exec_of_setsLease hset
    obtain ⟨r, hr, -⟩ := hreal.live 3 _ s₁ s₂ _ n (mem_history.mp hresp) hp hlog
    rw [hnone] at hr
    exact List.not_mem_nil hr
  · obtain ⟨⟨s₁, s₂, s⟩, hs, hans⟩ := Option.map_eq_some_iff.mp overtakenRenewal_sets
    simp only [Prod.mk.injEq] at hans
    obtain ⟨hrow, hlast, hset⟩ := hans
    have hp := passes_of_passing hs
    refine ⟨s, hp.reachable, hrow, fun hreal => ?_⟩
    obtain ⟨x, hlog⟩ := (State.steps_of_next hp.next).log_eq
    rw [hlog, List.head?_cons, Option.any_some] at hset
    obtain ⟨n, rfl⟩ := exec_of_setsLease hset
    obtain ⟨e, he, hle⟩ := hreal.order 3 s₁ s₂ _ n _ _ hp hlog
    have hresp : renewed 4 (newYear + seconds 10) ∈ history s₁.log :=
      List.mem_of_mem_take (hlast ▸ List.mem_singleton_self _)
    have hlate : newYear + seconds 10 + seconds 90 ≤ e := hle 4 _ (mem_history.mp hresp) rfl
    have hread : parseFromRfc3339 (toRfc3339 e) = some (newYear + seconds 90) :=
      he ▸ parse_toRfc3339 (by decide)
    obtain rfl := eq_of_parse hread
    exact absurd hlate (by decide)

/-! ### When renewals are real -/

/-- Renewal `i` has found the request and has not set the end of its lease. -/
structure Renewing (s : Service D) (i : ℕ) (requestId : Text) : Prop where
  running : s.Running i
  found : ∃ leaseId sender row,
    .exec i ⟨.select (.lease requestId leaseId sender), .ok (some row)⟩ ∈ s.log
  notYet : ∀ text x, .exec i ⟨.execute (.updateLease text requestId), x⟩ ∉ s.log

/-- Renewal `i` has read a hard end that comes no later than 90 seconds after `t`. -/
def Capped (s : Service D) (i : ℕ) (requestId : Text) (t : ℤ) : Prop :=
  ∃ leaseId sender row hard,
    .exec i ⟨.select (.lease requestId leaseId sender), .ok (some row)⟩ ∈ s.log ∧
      parseFromRfc3339 row.hardExpiresAt = some hard ∧ hard ≤ t + seconds 90

/-- While a renewal is about to set the end of the lease, nothing removes its request and no clock
passes the end. When it sets the end, no renewal that read the clock later has answered, unless the
hard end is near. -/
structure Undisturbed (s : Service D) (a : Action Op Choice) : Prop where
  kept : ∀ s' i requestId, s.next a = some s' → Renewing s i requestId →
    ∀ r ∈ s.world.db.chats.rows, r.requestId = requestId →
      r.Active D s'.world.clock = true ∧
        ∃ r' ∈ s'.world.db.chats.rows, r'.requestId = requestId
  inTurn : ∀ s' i text requestId n t, s.next a = some s' →
    s'.log = .exec i ⟨.execute (.updateLease text requestId), .ok n⟩ :: s.log →
    .exec i ⟨.now, t⟩ ∈ s.log → ∀ k x t', .respond k (.ok (.lease x)) ∈ s.log →
      x.requestId.toText = requestId → .exec k ⟨.now, t'⟩ ∈ s.log →
        t' ≤ t ∨ Capped s i requestId t

/-- A renewal that has found a request in an undisturbed run still finds it. -/
theorem renewing_found (h : Reach Undisturbed ((service D).start (World.init .empty t₀)) s) {i : ℕ}
    {requestId leaseId sender : Text} {row : LeaseRow} (hrun : s.Running i)
    (hfound : .exec i ⟨.select (.lease requestId leaseId sender), .ok (some row)⟩ ∈ s.log)
    (hnot : ∀ text x, .exec i ⟨.execute (.updateLease text requestId), x⟩ ∉ s.log) :
    ∃ r ∈ s.world.db.chats.rows, r.requestId = requestId ∧ r.leaseId = leaseId := by
  induction h with
  | refl => exact absurd hfound List.not_mem_nil
  | @step s s' a hreach hP hn ih =>
    have hreach' := hreach.step hP hn
    obtain ⟨x, hx⟩ := (State.steps_of_next hn).log_eq
    have hsub : s.log ⊆ s'.log := hx ▸ List.subset_cons_self _ _
    by_cases hold : .exec i ⟨.select (.lease requestId leaseId sender), .ok (some row)⟩ ∈ s.log
    · have hrun' : s.Running i := by
        by_contra hended
        obtain ⟨t, ht⟩ := hreach.logged.thread_of_exec hold
        exact (Reach.step .refl hP hn).ended ht hended hrun
      have hnot' : ∀ text x, .exec i ⟨.execute (.updateLease text requestId), x⟩ ∉ s.log :=
        fun text x hm => hnot text x (hsub hm)
      obtain ⟨r, hr, hid, hlease⟩ := ih hrun' hold hnot'
      obtain ⟨-, r', hr', hid'⟩ :=
        hP.kept s' i requestId hn ⟨hrun', ⟨leaseId, sender, row, hold⟩, hnot'⟩ r hr hid
      have hsame := same_request hreach' hreach hsub hr' hr (hid'.trans hid.symm)
      exact ⟨r', hr', hid', by rw [hsame]; exact hlease⟩
    · rw [hx, List.mem_cons, or_iff_left hold] at hfound
      rcases service_step hreach hn with ⟨-, -, y, hy, hne⟩ |
        ⟨j, ch, e, op, rfl, hlog, -, -, -, -, heff⟩
      · obtain rfl := (List.cons.inj (hx.symm.trans hy)).1
        exact absurd hfound.symm (hne _ _)
      · obtain rfl := (List.cons.inj (hx.symm.trans hlog)).1
        cases hfound
        obtain ⟨r, hr, -⟩ := Option.map_eq_some_iff.mp (heff.truthful trivial).symm
        have hkey := List.find?_some hr
        simp only [decide_eq_true_eq] at hkey
        have hdb : s'.world.db = s.world.db := by
          rcases heff.db with hdb | ⟨u, n, he, -⟩ | ⟨d, he, -⟩
          · exact hdb
          · cases he
          · cases he
        exact ⟨r, hdb ▸ List.mem_of_find?_eq_some hr, hkey.1, hkey.2.1⟩

/-- What a renewal has seen when it sets the end of the lease to `text`, and what it does then. -/
structure SetsLease (D : Deployment) (s₁ s₂ : Service D) (i : ℕ) (ch : Choice)
    (text requestId : Text) (n : ℕ) (sender : Text) (input : RenewLiveChatRequestInput)
    (row : LeaseRow) (hard t : ℤ) : Prop where
  running : s₁.Running i
  call : ∃ ctx, .call i (.renewLiveChatRequest ctx input) ∈ s₁.log
  id : requestId = input.requestId.toText
  found : .exec i ⟨.select (.lease requestId input.leaseId.toText sender), .ok (some row)⟩ ∈ s₁.log
  read : .exec i ⟨.now, t⟩ ∈ s₁.log
  notYet : ∀ text' x, .exec i ⟨.execute (.updateLease text' requestId), x⟩ ∉ s₁.log
  hardEnd : parseFromRfc3339 row.hardExpiresAt = some hard
  ends : text = toRfc3339 (min (t + seconds 90) hard)
  clock : s₂.world.clock = ch.reading
  apply : (Write.updateLease text requestId).apply D ch.reading s₁.world.db = .ok (n, s₂.world.db)

lemma setsLease_of_next (h : Reach P ((service D).start (World.init .empty t₀)) s) {s' : Service D}
    {i : ℕ} {ch : Choice} {n : ℕ} {text requestId : Text} (hn : s.next (.step i ch) = some s')
    (hlog : s'.log = .exec i ⟨.execute (.updateLease text requestId), .ok n⟩ :: s.log) :
    ∃ sender input row hard t,
      SetsLease D s s' i ch text requestId n sender input row hard t := by
  rcases service_step h hn with
    ⟨-, -, y, hy, hne⟩ | ⟨j, ch, e, op, ha, hlog', hcall, -, hi, -, heff⟩
  · exact absurd (List.cons.inj (hlog.symm.trans hy)).1.symm (hne _ _)
  · cases ha
    cases (List.cons.inj (hlog.symm.trans hlog')).1
    obtain ⟨ctx, sender, input, row, hard, t, m, rfl, -, hid, hhard, htext, hpast⟩ := hi
    have hrun : s.Running i := by
      cases State.steps_of_next hn with
      | step ht => exact ⟨_, ht, rfl⟩
    refine ⟨sender, input, row, hard, t, hrun, ⟨ctx, hcall⟩, hid, ?_, ?_, fun text' x hm => ?_,
      hhard, htext, heff.clock, heff.execute⟩
    · exact mem_own.mp (by simp [hpast, renewPast, hid])
    · exact mem_own.mp (by simp [hpast, renewPast])
    · have hown := mem_own.mpr hm
      simp [hpast, renewPast] at hown

/-- What a renewal that has answered with a lease has seen and done. -/
lemma leased_of_respond (h : Reach P ((service D).start (World.init .empty t₀)) s) {i : ℕ}
    {x : LiveChatRequestLease} (hresp : .respond i (.ok (.lease x)) ∈ s.log) :
    ∃ ctx sender input row hard t n, .call i (.renewLiveChatRequest ctx input) ∈ s.log ∧
      x = ⟨input.requestId, input.leaseId, min (t + seconds 90) hard⟩ ∧
      parseFromRfc3339 row.hardExpiresAt = some hard ∧ .exec i ⟨.now, t⟩ ∈ s.log ∧
      .exec i ⟨.select (.lease x.requestId.toText x.leaseId.toText sender),
        .ok (some row)⟩ ∈ s.log ∧
      .exec i ⟨.execute (.updateLease (toRfc3339 x.expiresAt) x.requestId.toText),
        .ok n⟩ ∈ s.log := by
  obtain ⟨post, pre, hlog⟩ := List.append_of_mem hresp
  obtain ⟨op, hcall, hleased⟩ := h.log_respond leased hlog
  obtain ⟨ctx, sender, input, row, hard, t, m, n, rfl, hhard, hx, hpast⟩ := hleased x rfl
  have hsub : pre ⊆ s.log := by
    rw [hlog]
    exact fun e he => List.mem_append_right _ (List.mem_cons_of_mem _ he)
  have hown : ∀ e, e ∈ own i pre → .exec i e ∈ s.log := fun e he => hsub (mem_own.mp he)
  refine ⟨ctx, sender, input, row, hard, t, n, hsub hcall, hx, hhard, hown _ ?_, hown _ ?_,
    hown _ ?_⟩
  · simp [hpast, renewPast]
  · simp [hpast, renewPast, hx]
  · simp [hpast]

section real

variable {s₁ s₂ : Service D} {i n : ℕ} {ch : Choice} {text requestId sender : Text}
  {input : RenewLiveChatRequestInput} {row : LeaseRow} {hard t : ℤ}

/-- In an undisturbed run the request is there when a renewal sets the end of its lease. -/
lemma SetsLease.hits (hset : SetsLease D s₁ s₂ i ch text requestId n sender input row hard t)
    (h : Reach Undisturbed ((service D).start (World.init .empty t₀)) s₁)
    (hP : Undisturbed s₁ (.step i ch)) (hn : s₁.next (.step i ch) = some s₂) :
    ∃ r ∈ s₁.world.db.chats.rows, r.requestId = requestId ∧ r.leaseId = input.leaseId.toText ∧
      r.Active D ch.reading = true ∧
      { r with leaseExpiresAt := text } ∈ s₂.world.db.chats.rows := by
  obtain ⟨r, hr, hid, hlease⟩ := renewing_found h hset.running hset.found hset.notYet
  obtain ⟨hactive, -⟩ :=
    hP.kept s₂ i requestId hn ⟨hset.running, ⟨_, _, _, hset.found⟩, hset.notYet⟩ r hr hid
  rw [hset.clock] at hactive
  refine ⟨r, hr, hid, hlease, hactive, ?_⟩
  rw [Write.chats_apply hset.apply]
  exact List.mem_map.mpr ⟨r, hr, if_pos hid⟩

/-- In an undisturbed run the end that a renewal sets is not before one that was answered. -/
lemma SetsLease.order (hset : SetsLease D s₁ s₂ i ch text requestId n sender input row hard t)
    (h : Reach Undisturbed ((service D).start (World.init .empty t₀)) s₁)
    (hP : Undisturbed s₁ (.step i ch)) (hn : s₁.next (.step i ch) = some s₂)
    (hlog : s₂.log = .exec i ⟨.execute (.updateLease text requestId), .ok n⟩ :: s₁.log) {k : ℕ}
    {x : LiveChatRequestLease} (hresp : .respond k (.ok (.lease x)) ∈ s₁.log)
    (hid : x.requestId.toText = requestId) : x.expiresAt ≤ min (t + seconds 90) hard := by
  obtain ⟨_, _, input', row', hard', t', _, -, hx, hhard', hread', hfound', -⟩ :=
    leased_of_respond h hresp
  rw [hid] at hfound'
  obtain ⟨r, hr, hrid, -⟩ := hset.hits h hP hn
  have hrow := hardExpiresAt_of_lease h hset.found hr hrid
  have hsame : ∀ {j : ℕ} {leaseId sender : Text} {row : LeaseRow} {e : ℤ},
      .exec j ⟨.select (.lease requestId leaseId sender), .ok (some row)⟩ ∈ s₁.log →
        parseFromRfc3339 row.hardExpiresAt = some e → e = hard := by
    intro j leaseId sender row' e hfound hparse
    rw [hardExpiresAt_of_lease h hfound hr hrid, ← hrow, hset.hardEnd] at hparse
    exact (Option.some.inj hparse).symm
  have hends : x.expiresAt = min (t' + seconds 90) hard := by rw [hx, hsame hfound' hhard']
  rw [hends]
  rcases hP.inTurn s₂ i text requestId n t hn hlog hset.read k _ t' hresp hid hread' with
    hle | ⟨_, _, _, e, hfound, hparse, hcap⟩
  · exact min_le_min_right _ (Int.add_le_add_right hle _)
  · rw [hsame hfound hparse] at hcap
    exact le_min ((min_le_right _ _).trans hcap) (min_le_right _ _)

end real

/-- In every undisturbed run, renewals are real. -/
theorem real_renewals (h : Reach Undisturbed ((service D).start (World.init .empty t₀)) s) :
    RealRenewals Undisturbed t₀ s where
  updated i x hresp := by
    obtain ⟨_, _, _, _, _, _, n, -, -, -, -, -, hset⟩ := leased_of_respond h hresp
    exact ⟨n, hset⟩
  live i x s₁ s₂ ch n hresp hp hlog := by
    obtain ⟨sender, input, row, hard, t, hset⟩ := setsLease_of_next hp.reach hp.next hlog
    obtain ⟨r, hr, hid, hlease, hactive, hmem⟩ := hset.hits hp.reach hp.cond hp.next
    obtain ⟨_, _, input', _, _, _, _, hcall', hx, -⟩ := leased_of_respond h hresp
    obtain ⟨ctx, hcall⟩ := hset.call
    have hsub : s₁.log ⊆ s.log :=
      List.Subset.trans (hlog ▸ List.subset_cons_self _ _) hp.rest.log_suffix.subset
    cases h.logged.call_unique (hsub hcall) hcall'
    refine ⟨r, hr, hid, ?_, hactive, hmem⟩
    rw [hlease, hx]
  order i s₁ s₂ ch n text requestId hp hlog := by
    obtain ⟨sender, input, row, hard, t, hset⟩ := setsLease_of_next hp.reach hp.next hlog
    exact ⟨_, hset.ends, fun k x hresp hid => hset.order hp.reach hp.cond hp.next hlog hresp hid⟩

namespace Known

/-- Whether a renewal answers with a lease. -/
def leases : Event Command Command.Ans Op Response → Bool
  | .respond _ (.ok (.lease _)) => true
  | _ => false

/-- Whether no renewal has answered, and every request stays and is active after the action. -/
def calm (s : Service deployment) (a : Action Op Choice) : Bool :=
  !s.log.any leases && (s.next a).all fun s' => s.world.db.chats.rows.all fun r =>
    r.Active deployment s'.world.clock &&
      s'.world.db.chats.rows.any fun r' => r'.requestId = r.requestId

lemma undisturbed_of_calm (s : Service deployment) (a : Action Op Choice) (h : calm s a = true) :
    Undisturbed s a := by
  simp only [calm, Bool.and_eq_true, Bool.not_eq_true', List.any_eq_false] at h
  obtain ⟨hnone, hcalm⟩ := h
  constructor
  · intro s' i requestId hn _ r hr hid
    rw [hn, Option.all_some, List.all_eq_true] at hcalm
    have hr' := hcalm r hr
    simp only [Bool.and_eq_true, List.any_eq_true, decide_eq_true_eq] at hr'
    obtain ⟨hactive, r', hmem, hsame⟩ := hr'
    exact ⟨hactive, r', hmem, hsame.trans hid⟩
  · intro s' i text requestId n t _ _ _ k x t' hresp
    exact absurd rfl (hnone _ hresp)

/-- Ada renews her request after ten seconds. -/
def renewal : List (Action Op Choice) :=
  sendAt newYear ++ whole renew 3 4 (newYear + seconds 10) ⟨0⟩

lemma renewal_answers :
    (((service deployment).start (World.init .empty newYear)).takeIf calm renewal).map
      (fun s => (history s.log).take 1) = some [renewed 3 (newYear + seconds 10)] := by
  decide +kernel

end Known

open Known in
theorem real_renewals_renewed : ∃ s : Service deployment,
    renewed 3 (newYear + seconds 10) ∈ history s.log ∧ RealRenewals Undisturbed newYear s := by
  obtain ⟨s, hs, hans⟩ := Option.map_eq_some_iff.mp renewal_answers
  have hresp : renewed 3 (newYear + seconds 10) ∈ history s.log :=
    List.mem_of_mem_take (hans ▸ List.mem_singleton_self _)
  exact ⟨s, hresp, real_renewals (Reach.refl.takeIf undisturbed_of_calm hs)⟩

end TittyBackend
