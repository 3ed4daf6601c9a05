import Mathlib.Data.List.Infix
import TittyBackend.Requests

/-!
# The limit on active requests

A send counts the active requests of its sender in one statement and inserts its own in another,
and a renewal sets the lease of a row that may have lapsed since the renewal's own clean-up. With
neither overlap no sender ever has more than 25 active requests.
-/

namespace TittyBackend

open Numerals Programs Programs.System

variable {D : Deployment} {P : Service D → Action Op Choice → Prop} {d₀ : Db} {t₀ : ℤ}
  {s : Service D}

/-- No sender has more than 25 active requests, at the clock and at any later instant. -/
def ActiveLimit (D : Deployment) (w : World) : Prop :=
  ∀ sender now, w.clock ≤ now → Select.eval D now w.db (.activeCount sender) ≤ 25

namespace Known

/-- Ada makes 26 requests at once: all of them have counted before the first is inserted. -/
def crowd : List (Action Op Choice) :=
  whole (register "ada".toList ada adaKey) 0 3 newYear ⟨0⟩ ++
    whole (register "bob".toList bob bobKey) 1 3 newYear ⟨0⟩ ++
    ((List.range 26).flatMap fun n =>
      .call (.sendLiveChatRequest (session ada)
        ⟨"bob".toList, ⟨.ofNat 128 (n * 2 ^ 112)⟩, "AA==".toList⟩) ::
        (List.range 9).map fun k =>
          .step (n + 2) (fine newYear ⟨.ofNat 128 ((16 * n + k) * 2 ^ 112)⟩)) ++
    (List.range 26).map fun n => .step (n + 2) (fine newYear ⟨0⟩)

lemma crowd_count :
    (((service deployment).start (World.init .empty newYear)).take crowd).map
      (fun s => (s.world.clock, Select.eval deployment newYear s.world.db (.activeCount ada))) =
      some (newYear, 26) := by
  decide +kernel

end Known

theorem active_limit_not : ∃ s : Service Known.deployment,
    (service Known.deployment).Reachable (World.init .empty Known.newYear) s ∧
      ¬ ActiveLimit Known.deployment s.world := by
  obtain ⟨s, hs, hans⟩ := Option.map_eq_some_iff.mp Known.crowd_count
  obtain ⟨hclock, hcount⟩ := Prod.mk.inj hans
  refine ⟨s, reachable_of_take hs, fun hlimit => ?_⟩
  have hle := hlimit Known.ada Known.newYear hclock.le
  rw [hcount] at hle
  exact absurd hle (by decide)

/-! ### Counting -/

lemma activeCount_eq (now : ℤ) (d : Db) (sender : Text) :
    Select.eval D now d (.activeCount sender) =
      d.chats.rows.countP fun r => r.senderAccountId = sender ∧ r.Active D now := rfl

/-- Requests lapse as time passes. -/
lemma ChatRecord.Active.anti (hmono : Monotone D.juliandayNow) {now now' : ℤ} (hle : now ≤ now')
    {r : ChatRecord} (h : r.Active D now' = true) : r.Active D now = true := by
  simp only [ChatRecord.Active, After, Bool.and_eq_true, Option.any_eq_true,
    decide_eq_true_eq] at h ⊢
  obtain ⟨⟨j, hj, hlt⟩, k, hk, hlt'⟩ := h
  have hnow := hmono hle
  exact ⟨⟨j, hj, hnow.trans_lt hlt⟩, k, hk, hnow.trans_lt hlt'⟩

lemma activeCount_anti (hmono : Monotone D.juliandayNow) {now now' : ℤ} (hle : now ≤ now') (d : Db)
    (sender : Text) :
    Select.eval D now' d (.activeCount sender) ≤ Select.eval D now d (.activeCount sender) := by
  refine List.countP_mono_left fun r _ hr => ?_
  simp only [decide_eq_true_eq] at hr ⊢
  exact ⟨hr.1, ChatRecord.Active.anti hmono hle hr.2⟩

/-- A write that neither inserts a request of `sender` nor revives one leaves no more active
requests than there were. -/
lemma activeCount_apply {now : ℤ} {d d' : Db} {u : Write} {n : ℕ} {sender : Text}
    (hu : u.apply D now d = .ok (n, d'))
    (hins : ∀ r, u = .insertChat r → r.senderAccountId ≠ sender)
    (hlease : ∀ e requestId, u = .updateLease e requestId → ∀ r ∈ d.chats.rows,
      r.requestId = requestId → r.Active D now = true) :
    Select.eval D now d' (.activeCount sender) ≤ Select.eval D now d (.activeCount sender) := by
  rw [activeCount_eq, activeCount_eq, Write.chats_apply hu]
  cases u with
  | insertChat r =>
    simp [Write.chatRows, List.countP_append, hins r rfl]
  | updateLease e requestId =>
    rw [Write.chatRows, List.countP_map]
    refine List.countP_mono_left fun r hr hact => ?_
    simp only [Function.comp_apply, decide_eq_true_eq] at hact ⊢
    split_ifs at hact with hid
    · exact ⟨hact.1, hlease e requestId rfl r hr hid⟩
    · exact hact
  | deleteChat | removeExpiredChats | deleteChatsBetween =>
    exact List.Sublist.countP_le (List.filter_sublist)
  | _ => exact le_rfl

/-! ### When the limit holds -/

/-- Between the count of a send and its insertion no other request of the sender is inserted, and
a renewal sets the lease of a request that is still active. -/
def InTurn (s : Service D) (a : Action Op Choice) : Prop :=
  ∀ s' i ch n, a = .step i ch → s.next a = some s' →
    (∀ r, s'.log = .exec i ⟨.execute (.insertChat r), .ok n⟩ :: s.log →
      ∀ post pre m, s.log = post ++
        .exec i ⟨.select (.activeCount r.senderAccountId), .ok m⟩ :: pre →
          ∀ k r' n', .exec k ⟨.execute (.insertChat r'), .ok n'⟩ ∈ post →
            r'.senderAccountId ≠ r.senderAccountId) ∧
    ∀ e requestId, s'.log = .exec i ⟨.execute (.updateLease e requestId), .ok n⟩ :: s.log →
      ∀ r ∈ s.world.db.chats.rows, r.requestId = requestId → r.Active D ch.reading = true

/-- No sender has more active requests than the limit, or than a send has counted as long as
none was inserted since. -/
structure Limited (D : Deployment) (w : World) (l : Log) : Prop where
  most : ∀ sender, Select.eval D w.clock w.db (.activeCount sender) ≤ 25
  counted : ∀ post pre j sender m,
    l = post ++ .exec j ⟨.select (.activeCount sender), .ok m⟩ :: pre →
    (∀ k r n, .exec k ⟨.execute (.insertChat r), .ok n⟩ ∈ post → r.senderAccountId ≠ sender) →
      Select.eval D w.clock w.db (.activeCount sender) ≤ m

/-- An event after which a sender has more active requests than before is an insertion. -/
lemma Limited.cons {w w' : World} {l : Log} {x : Event Command Command.Ans Op Response}
    (h : Limited D w l)
    (hmost : ∀ sender, Select.eval D w'.clock w'.db (.activeCount sender) ≤ 25)
    (hle : ∀ sender, (∀ k r n, x = .exec k ⟨.execute (.insertChat r), .ok n⟩ →
        r.senderAccountId ≠ sender) →
      Select.eval D w'.clock w'.db (.activeCount sender) ≤
        Select.eval D w.clock w.db (.activeCount sender))
    (hcount : ∀ k sender m, x = .exec k ⟨.select (.activeCount sender), .ok m⟩ →
      Select.eval D w'.clock w'.db (.activeCount sender) ≤ m) : Limited D w' (x :: l) := by
  refine ⟨hmost, fun post pre j sender m hl hno => ?_⟩
  cases post with
  | nil =>
    simp only [List.nil_append, List.cons.injEq] at hl
    exact hcount j sender m hl.1
  | cons y post =>
    simp only [List.cons_append, List.cons.injEq] at hl
    obtain ⟨rfl, hl⟩ := hl
    refine (hle sender fun k r n hx => hno k r n (hx ▸ List.mem_cons_self)).trans ?_
    exact h.counted post pre j sender m hl fun k r n hm => hno k r n (List.mem_cons_of_mem _ hm)

/-- The insertion of a send that has counted in turn keeps the limit. -/
lemma Limited.insert {i n : ℕ} {op : Op} {r : ChatRecord} {now : ℤ} {d' : Db}
    (h : Limited D s.world s.log) (hmono : Monotone D.juliandayNow) (hle : s.world.clock ≤ now)
    (hi : op.Issues D (own i s.log) (.execute (.insertChat r)))
    (hturn : ∀ post pre m, s.log = post ++
      .exec i ⟨.select (.activeCount r.senderAccountId), .ok m⟩ :: pre →
        ∀ k r' n', .exec k ⟨.execute (.insertChat r'), .ok n'⟩ ∈ post →
          r'.senderAccountId ≠ r.senderAccountId)
    (hu : (Write.insertChat r).apply D now s.world.db = .ok (n, d')) :
    Select.eval D now d' (.activeCount r.senderAccountId) ≤ 25 := by
  obtain ⟨ctx, input, u, v, t, identitty, m, m', -, -, hm, hpast⟩ := hi
  have hread : .exec i ⟨.select (.activeCount r.senderAccountId), .ok m⟩ ∈ s.log :=
    mem_own.mp (by simp [hpast, sendPast])
  obtain ⟨post, pre, hlog⟩ := List.append_of_mem hread
  have hcounted := h.counted post pre i _ m hlog (hturn post pre m hlog)
  have hearlier := activeCount_anti hmono hle s.world.db r.senderAccountId
  have hnew : Select.eval D now d' (.activeCount r.senderAccountId) ≤
      Select.eval D now s.world.db (.activeCount r.senderAccountId) + 1 := by
    rw [activeCount_eq, activeCount_eq, Write.chats_apply hu, Write.chatRows, List.countP_append]
    exact Nat.add_le_add_left (List.countP_le_length) _
  calc Select.eval D now d' (.activeCount r.senderAccountId) ≤ _ := hnew
    _ ≤ m + 1 := Nat.add_le_add_right (hearlier.trans hcounted) 1
    _ ≤ 25 := hm

theorem limited (hmono : Monotone D.juliandayNow)
    (h : Reach InTurn ((service D).start (World.init .empty t₀)) s) :
    Limited D s.world s.log := by
  induction h with
  | refl => exact ⟨fun sender => by simp [start, World.init, Db.empty, activeCount_eq],
      fun post pre j sender m hl => by simp [start] at hl⟩
  | @step s s' a hreach hP hn ih =>
    rcases service_step hreach hn with ⟨hdb, hclock, x, hlog, hx⟩ |
      ⟨i, ch, e, op, rfl, hlog, hcall, ha, hi, hle, heff⟩
    · rw [hlog]
      refine ih.cons ?_ (fun sender _ => ?_) fun k sender m hk => absurd hk (hx _ _)
      · rw [hdb, hclock]
        exact ih.most
      · rw [hdb, hclock]
    · rw [hlog]
      have hread : ∀ sender, Select.eval D ch.reading s.world.db (.activeCount sender) ≤
          Select.eval D s.world.clock s.world.db (.activeCount sender) :=
        activeCount_anti hmono hle s.world.db
      rcases (locking hreach).change ha hi heff with hdb | ⟨u, n, rfl, hu⟩ |
        ⟨_, _, _, _, _, _, he, -, -, hu⟩
      · refine ih.cons (fun sender => ?_) (fun sender _ => ?_) fun k sender m hk => ?_
        · rw [hdb, heff.clock]
          exact (hread sender).trans (ih.most sender)
        · rw [hdb, heff.clock]
          exact hread sender
        · cases hk
          rw [hdb, heff.clock]
          exact (heff.truthful trivial : m = _).ge
      · have hlease : ∀ e requestId, u = .updateLease e requestId →
            ∀ r ∈ s.world.db.chats.rows, r.requestId = requestId →
              r.Active D ch.reading = true := by
          rintro e requestId rfl
          exact (hP s' i ch n rfl hn).2 e requestId hlog
        have hsame : ∀ sender, (∀ r, u = .insertChat r → r.senderAccountId ≠ sender) →
            Select.eval D s'.world.clock s'.world.db (.activeCount sender) ≤
              Select.eval D s.world.clock s.world.db (.activeCount sender) := fun sender hins => by
          rw [heff.clock]
          exact (activeCount_apply hu hins hlease).trans (hread sender)
        refine ih.cons (fun sender => ?_) (fun sender hno => ?_) fun k sender m hk => by cases hk
        · by_cases hins : ∀ r, u = .insertChat r → r.senderAccountId ≠ sender
          · exact (hsame sender hins).trans (ih.most sender)
          · simp only [not_forall, not_not] at hins
            obtain ⟨r, rfl, rfl⟩ := hins
            rw [heff.clock]
            exact ih.insert hmono hle hi ((hP s' i ch n rfl hn).1 r hlog) hu
        · exact hsame sender fun r hr => hno i r n (by rw [hr])
      · rw [loginUpdate] at hu
        have hchats : s'.world.db.chats.rows = s.world.db.chats.rows := Write.chats_apply hu
        have hsame : ∀ sender, Select.eval D s'.world.clock s'.world.db (.activeCount sender) ≤
            Select.eval D s.world.clock s.world.db (.activeCount sender) := fun sender => by
          rw [heff.clock, activeCount_eq, hchats, ← activeCount_eq]
          exact hread sender
        exact ih.cons (fun sender => (hsame sender).trans (ih.most sender))
          (fun sender _ => hsame sender) fun k sender m hk => by
            rw [he] at hk
            cases hk

/-- In every run in which sends and renewals take their turn, the limit holds. -/
theorem active_limit (hmono : Monotone D.juliandayNow)
    (h : Reach InTurn ((service D).start (World.init .empty t₀)) s) : ActiveLimit D s.world :=
  fun sender _ hle => (activeCount_anti hmono hle s.world.db sender).trans
    ((limited hmono h).most sender)

namespace Known

/-- Whether the event is a count of the requests of `sender` by operation `i`. -/
def counts (i : ℕ) (sender : Text) : Event Command Command.Ans Op Response → Bool
  | .exec j ⟨.select (.activeCount a), _⟩ => j = i && a = sender
  | _ => false

/-- Whether the last event is no insertion for `sender` after a count of operation `i`. -/
def countsLast (i : ℕ) (sender : Text) : Log → Bool
  | .exec _ ⟨.execute (.insertChat r), _⟩ :: pre =>
    r.senderAccountId ≠ sender || !pre.any (counts i sender)
  | _ => true

/-- Whether an operation that inserts has counted last, and one that renews sets the lease of an
active request. -/
def takesTurn (s : Service deployment) : Action Op Choice → Bool
  | .step i ch => (s.next (.step i ch)).all fun s' =>
    match s'.log with
    | .exec _ ⟨.execute (.insertChat r), _⟩ :: _ =>
      s.log.tails.all (countsLast i r.senderAccountId)
    | .exec _ ⟨.execute (.updateLease _ requestId), _⟩ :: _ =>
      s.world.db.chats.rows.all fun r => r.requestId ≠ requestId || r.Active deployment ch.reading
    | _ => true
  | _ => true

lemma inTurn_of_takesTurn (s : Service deployment) (a : Action Op Choice)
    (h : takesTurn s a = true) : InTurn s a := by
  rintro s' i ch n rfl hn
  rw [takesTurn, hn, Option.all_some] at h
  refine ⟨fun r hlog post pre m hs k r' n' hk hsender => ?_, fun e requestId hlog r hr hid => ?_⟩
  · rw [hlog] at h
    obtain ⟨b, c, rfl⟩ := List.append_of_mem hk
    have hlast := List.all_eq_true.mp h _ ((List.mem_tails _ _).mpr
      ⟨b, (hs.trans (List.append_assoc b _ _)).symm⟩)
    simp [countsLast, counts, hsender] at hlast
  · rw [hlog] at h
    have hactive := List.all_eq_true.mp h r hr
    simpa [hid] using hactive

/-- Between the count of Ada's first request and its insertion Bob sends her one; Ada then sends a
second one and renews the first. -/
def queue : List (Action Op Choice) :=
  let send (sender : Text) (name : String) (n : ℕ) : Op :=
    .sendLiveChatRequest (session sender) ⟨name.toList, ⟨.ofNat 128 n⟩, "AA==".toList⟩
  whole (register "ada".toList ada adaKey) 0 3 newYear ⟨0⟩ ++
    whole (register "bob".toList bob bobKey) 1 3 newYear ⟨0⟩ ++
    .call (send ada "bob" 7) :: steps 2 9 0 ++
    .call (send bob "ada" 7) :: steps 3 10 10 ++ .respond 3 :: steps 2 1 0 ++
    .respond 2 :: .call (send ada "bob" 8) :: steps 4 10 20 ++
    .respond 4 :: whole (.renewLiveChatRequest (session ada) ⟨⟨5⟩, ⟨6⟩⟩) 5 4
      (newYear + DateTime.seconds 10) ⟨0⟩

lemma queue_counts :
    (((service deployment).start (World.init .empty newYear)).takeIf takesTurn queue).map
      (fun s => (Select.eval deployment s.world.clock s.world.db (.activeCount ada),
        (history s.log).head?)) = some (2, some (.respond 5 (.ok (.lease
          ⟨⟨5⟩, ⟨6⟩, newYear + DateTime.seconds 100⟩)))) := by
  decide +kernel

end Known

open Known in
theorem active_limit_send : ∃ s : Service deployment,
    Select.eval deployment s.world.clock s.world.db (.activeCount ada) = 2 ∧
      ActiveLimit deployment s.world := by
  obtain ⟨s, hs, hans⟩ := Option.map_eq_some_iff.mp queue_counts
  exact ⟨s, (Prod.mk.inj hans).1,
    active_limit juliandayNow_mono (Reach.refl.takeIf inTurn_of_takesTurn hs)⟩

end TittyBackend
