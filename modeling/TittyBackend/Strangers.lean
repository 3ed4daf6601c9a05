import TittyBackend.Authority
import TittyBackend.Circle
import TittyBackend.Cleanup
import TittyBackend.Lib.StandIn
import TittyBackend.Retry

/-!
# Strangers

Accounts that have nothing to do with each other do not notice each other. A run of the service in
which strangers neither write to a circle of accounts nor block it looks to the circle like one in
which nothing is done for the strangers, except that the clean-up runs when they cause it to.
-/

namespace TittyBackend

open Numerals Programs Programs.System Resolver

variable {D : Deployment} {P : Service D → Action Op Choice → Prop} {t₀ : ℤ} {s : Service D}
  {inside : Text → Bool}

/-! ### No operation looks at the number of rows it has affected -/

/-- Whatever the resolver does, it does not look at the number of affected rows. -/
abbrev Heedless {α : Type} (x : Resolver α) : Prop := x.run.Blind (fun _ => True) SameAnswer

section heedless

variable {α β : Type}

lemma Careless.heedless {x : Resolver α} (h : Careless x) : Heedless x := h.mono fun _ _ => trivial

lemma heedless_bind {x : Resolver α} {f : α → Resolver β} (hx : Heedless x)
    (hf : ∀ a, Heedless (f a)) : Heedless (x >>= f) := by
  refine Prog.Blind.bind hx fun r => ?_
  cases r with
  | error e => trivial
  | ok a => exact hf a

lemma heedless_map {x : Resolver α} (hx : Heedless x) (g : α → β) : Heedless (g <$> x) :=
  Prog.Blind.bind hx fun r => by cases r <;> trivial

lemma heedless_fetch (q : Select) : Heedless (fetch q) :=
  ⟨trivial, fun _ _ h => by cases h; rfl, fun _ => trivial⟩

lemma heedless_execute {u : Write} {f : Resolver β} (hf : Heedless f) :
    Heedless (Resolver.execute u >>= fun _ => f) := by
  refine ⟨trivial, fun x y hxy => ?_, fun x => ?_⟩
  · cases x <;> cases y <;> first | rfl | cases hxy
  · cases x with
    | error e => trivial
    | ok n => exact hf

end heedless

lemma submitRequest_heedless (sender : Text) (publicKey payload : List UInt8) (identitty : Text)
    (clientRequestId : Uuid) :
    Heedless (submitRequest sender publicKey payload identitty clientRequestId) := by
  refine heedless_bind (heedless_fetch _) fun _ => ?_
  refine heedless_bind (careless_refuse ..).heedless fun _ => ?_
  refine heedless_bind careless_now.heedless fun _ => ?_
  refine heedless_bind (careless_addSeconds ..).heedless fun _ => ?_
  refine heedless_bind (careless_addSeconds ..).heedless fun _ => ?_
  refine heedless_bind careless_newUuid.heedless fun _ => ?_
  refine heedless_bind careless_newUuid.heedless fun _ => ?_
  refine heedless_bind (heedless_fetch _) fun recipient => ?_
  refine heedless_bind ?_ fun _ => (careless_pure _).heedless
  cases recipient with
  | none => exact (careless_pure _).heedless
  | some recipient =>
    refine heedless_bind (heedless_fetch _) fun blocked => ?_
    split_ifs
    · exact heedless_execute (careless_pure _).heedless
    · exact (careless_pure _).heedless

theorem Op.heedless (op : Op) : (op.program D).Blind (fun _ => True) SameAnswer := by
  by_cases hop : op.Finds
  · cases op with
    | sendLiveChatRequest ctx input =>
      refine heedless_map (heedless_bind (careless_orFail ..).heedless fun _ => ?_) _
      refine heedless_bind (careless_lift _).heedless fun _ => ?_
      refine heedless_bind (careless_lift _).heedless fun _ => ?_
      refine heedless_execute (heedless_bind (heedless_fetch _) fun _ => ?_)
      refine heedless_bind (careless_orFail ..).heedless fun _ => ?_
      refine heedless_bind (heedless_fetch _) fun existing => ?_
      cases existing with
      | some row => exact (careless_lift _).heedless
      | none => exact submitRequest_heedless ..
    | renewLiveChatRequest ctx input =>
      refine heedless_map (heedless_bind (careless_orFail ..).heedless fun _ => ?_) _
      refine heedless_execute (heedless_bind (heedless_fetch _) fun _ => ?_)
      refine heedless_bind (careless_orFail ..).heedless fun _ => ?_
      refine heedless_bind (careless_lift _).heedless fun _ => ?_
      refine heedless_bind careless_now.heedless fun _ => ?_
      refine heedless_bind (careless_addSeconds ..).heedless fun _ => ?_
      exact heedless_execute (careless_pure _).heedless
    | cancelLiveChatRequest ctx input =>
      refine heedless_map (heedless_bind (careless_orFail ..).heedless fun _ => ?_) _
      refine heedless_bind (heedless_fetch _) fun owner => ?_
      cases owner with
      | none => exact (careless_pure _).heedless
      | some owner =>
        refine heedless_bind (careless_refuse ..).heedless fun _ => ?_
        exact heedless_execute (careless_pure _).heedless
    | liveChatRequests ctx =>
      refine heedless_map (heedless_bind (careless_orFail ..).heedless fun _ => ?_) _
      refine heedless_execute (heedless_bind (heedless_fetch _) fun _ => ?_)
      exact (careless_lift _).heedless
    | _ => exact hop.elim
  · exact (Op.careless hop).mono fun _ _ => trivial

/-! ### What an operation asks -/

/-- The queries of requests and blocks are for the account that an operation acts for, but for
that of a cancel; and such an operation does not use the limiter or a transaction, and sweeps at
its beginning only. -/
def Op.Asks (op : Op) (past : Past Command Command.Ans) : Command → Prop
  | .select (.existingRequest a _) | .select (.activeCount a) | .select (.blockExists _ a)
  | .select (.lease _ _ a) | .select (.blockCreatedAt a _) | .select (.blockedIdentities a)
  | .select (.liveChatRequests a) => op.account? = some a
  | .select (.owner requestId _) => ∃ ctx input, op = .cancelLiveChatRequest ctx input ∧
      requestId = input.requestId.toText
  | .selectIn q => ∃ challengeId accountId, q = .challenge challengeId accountId
  | .rollback | .check .. => op.account? = none
  | .execute .removeExpiredChats => op.account? = none ∨ past = []
  | _ => True

lemma submitRequest_asks {op : Op} {sender name : Text} {key payload : List UInt8} {c : Uuid}
    {past : Past Command Command.Ans} (hop : op.account? = some sender) :
    (submitRequest sender key payload name c).run.Keeps op.Asks (fun _ _ => True) past := by
  simp only [submitRequest, wp_bind, keeps_fetch (.activeCount _), wp_refuse, keeps_now,
    wp_addSeconds, keeps_newUuid, keeps_fetch (.recipient _), wp_pure, Op.Asks, hop, true_and,
    implies_true, and_true]
  intro _ _ _ _ _ _ _ _ _ recipient
  rw [insertUnlessHidden.eq_def]
  cases recipient with
  | none => trivial
  | some recipient =>
    simp only [wp_bind, keeps_fetch (.blockExists _ _), Op.Asks, hop, true_and, implies_true,
      and_true]
    intro blocked
    split_ifs
    · simp only [wp_bind, keeps_execute, wp_pure, Op.Asks, implies_true, and_true]
    · trivial

theorem asks (op : Op) : (op.program D).Keeps op.Asks (fun _ _ => True) [] := by
  have lookup {column value : Text} {past : Past Command Command.Ans} :
      (findAccount column value).run.Keeps op.Asks (fun _ _ => True) past := by
    rw [findAccount]
    split_ifs
    · simp only [wp_bind, keeps_fetch (.accountByIdentitty _), wp_lift, Op.Asks, implies_true,
        and_true]
    · simp only [wp_bind, keeps_fetch (.accountById _), wp_lift, Op.Asks, implies_true, and_true]
    · trivial
  cases op with
  | registerAccount ctx input =>
    simp only [Op.program, Op.resolver, registerAccount, wp_map, wp_bind, keeps_enforce, wp_lift,
      wp_orFail, wp_refuse, keeps_now, keeps_attempt, Op.Asks, Op.account?, true_and, implies_true,
      and_true]
    intro _ _ _ _ _ _ _ x
    rcases x with (_ | _ | _) | n <;> trivial
  | requestChallenge ctx accountId =>
    simp only [Op.program, Op.resolver, requestChallenge, wp_map, wp_bind, keeps_enforce,
      wp_refuse, keeps_fetch (.accountExists _), keeps_newUuid, keeps_fillBytes, keeps_now,
      wp_addSeconds, keeps_execute, wp_pure, Op.Asks, Op.account?, implies_true, and_true]
  | authenticate ctx input =>
    simp only [Op.program, Op.resolver, authenticate, consumeChallenge, issueSession, wp_map,
      wp_bind, keeps_enforce, keeps_transaction, keeps_fetchIn (.challenge _ _), wp_orFail,
      wp_refuse, wp_lift, keeps_now, keeps_executeIn, wp_addSeconds, wp_pure, Op.Asks, Op.account?,
      true_and, implies_true, and_true]
    exact fun _ => ⟨_, _, rfl⟩
  | sendLiveChatRequest ctx input =>
    simp only [Op.program, Op.resolver, sendLiveChatRequest, authenticated, wp_map, wp_bind,
      wp_orFail, wp_lift, keeps_execute, keeps_fetch (.publicKey _),
      keeps_fetch (.existingRequest _ _), Op.Asks, true_and, or_true, implies_true, and_true]
    intro sender hsender payload _ name _ n key publicKey _
    refine ⟨hsender, fun existing => ?_⟩
    cases existing with
    | some row => simp only [wp_lift, implies_true, and_true]
    | none => exact submitRequest_asks hsender
  | renewLiveChatRequest ctx input =>
    simp only [Op.program, Op.resolver, renewLiveChatRequest, authenticated, wp_map, wp_bind,
      wp_orFail, wp_lift, keeps_execute, keeps_fetch (.lease _ _ _), keeps_now, wp_addSeconds,
      wp_pure, Op.Asks, true_and, or_true, implies_true, and_true]
    exact fun sender hsender _ => hsender
  | cancelLiveChatRequest ctx input =>
    simp only [Op.program, Op.resolver, cancelLiveChatRequest, authenticated, wp_map, wp_bind,
      wp_orFail, keeps_fetch (.owner _ _), Op.Asks, implies_true, and_true]
    refine fun sender _ => ⟨⟨ctx, input, rfl, rfl⟩, fun owner => ?_⟩
    cases owner with
    | none => trivial
    | some owner =>
      simp only [wp_bind, wp_refuse, keeps_execute, wp_pure, Op.Asks, implies_true, and_true]
  | blockIdentity ctx input =>
    simp only [Op.program, Op.resolver, blockIdentity, authenticated, wp_map, wp_bind, wp_orFail,
      wp_lift, wp_refuse, keeps_now, keeps_execute, keeps_fetch (.blockTarget _),
      keeps_fetch (.blockCreatedAt _ _), wp_pure, Op.Asks, true_and, implies_true, and_true]
    exact fun blocker hblocker _ _ _ _ _ _ _ _ _ => hblocker
  | unblockIdentity ctx input =>
    simp only [Op.program, Op.resolver, unblockIdentity, authenticated, wp_map, wp_bind, wp_orFail,
      keeps_execute, wp_pure, Op.Asks, implies_true, and_true]
  | isIdentittyAvailable value =>
    simp only [Op.program, Op.resolver, isIdentittyAvailable, wp_map, wp_bind, wp_lift,
      keeps_fetch (.identittyExists _), wp_pure, Op.Asks, implies_true, and_true]
  | account value =>
    simp only [Op.program, Op.resolver, account, wp_map, wp_bind, wp_lift, implies_true, and_true]
    exact fun _ _ => lookup
  | accountById accountId =>
    simp only [Op.program, Op.resolver, accountById, wp_map]
    exact lookup
  | me ctx =>
    simp only [Op.program, Op.resolver, me, authenticated, wp_map, wp_bind, wp_orFail,
      implies_true, and_true]
    exact fun _ _ => lookup
  | blockedIdentities ctx =>
    simp only [Op.program, Op.resolver, blockedIdentities, authenticated, wp_map, wp_bind,
      wp_orFail, wp_lift, keeps_fetch (.blockedIdentities _), Op.Asks, implies_true, and_true]
    exact fun _ haccount => haccount
  | liveChatRequests ctx =>
    simp only [Op.program, Op.resolver, liveChatRequests, authenticated, wp_map, wp_bind, wp_orFail,
      keeps_execute, keeps_fetch (.liveChatRequests _), wp_lift, Op.Asks, or_true, true_and,
      implies_true, and_true]
    exact fun _ haccount _ => haccount
  | cleanupTick =>
    simp only [Op.program, Op.resolver, cleanupTick, wp_map, wp_bind, keeps_attempt, wp_pure,
      Op.Asks, or_true, implies_true, and_true]
  | startup =>
    simp only [Op.program, Op.resolver, startup, wp_map, wp_bind, keeps_execute, wp_pure, Op.Asks,
      Op.account?, true_or, implies_true, and_true]

/-! ### The world without strangers -/

/-- The second world is the first as far as the circle has a part in it. -/
structure SameWorld (inside : Text → Bool) (w w' : World) : Prop where
  db : SameView inside w.db w'.db
  writer : Option.Rel (fun x y => y.1 = x.1 ∧ SameView inside x.2 y.2) w.writer w'.writer
  limiter : w'.limiter = w.limiter
  clock : w'.clock ≤ w.clock
  instant : w'.instant ≤ w.instant
  drawn : w'.drawn ⊆ w.drawn

/-- What the command asks and stores is the circle's. -/
def Command.Within (inside : Text → Bool) (w : World) : Command → Prop
  | .select q => q.Within inside ∧ ∀ requestId leaseId, q = .owner requestId leaseId →
      ∀ r ∈ w.db.chats.rows, r.requestId = requestId → r.concerns inside = true
  | .selectIn q => ∃ challengeId accountId, q = .challenge challengeId accountId
  | .execute u => u.Within inside w.db
  | .executeIn u => ∃ usedAt challengeId, u = .useChallenge usedAt challengeId
  | _ => True

/-- The command leaves what the circle has a part in as it is. -/
def Command.Without (inside : Text → Bool) (w : World) : Command → Prop
  | .execute u => u.Without inside w.db
  | .executeIn _ | .commit | .rollback | .check .. => False
  | _ => True

namespace SameWorld

variable {w w' : World} {i : ℕ} {ch : Choice} {c : Command}

lemma init (inside : Text → Bool) (t : ℤ) :
    SameWorld inside (.init .empty t) (.init .empty t) :=
  ⟨.empty inside, .none, rfl, le_rfl, le_rfl, List.Subset.refl _⟩

section steps

variable (h : SameWorld inside w w')

include h

lemma view (i : ℕ) : SameView inside (w.view i) (w'.view i) := by
  have hwriter := h.writer
  simp only [World.view]
  generalize w.writer = x at hwriter ⊢
  generalize w'.writer = y at hwriter ⊢
  cases hwriter with
  | none => exact h.db
  | some hxy =>
    dsimp only
    rw [hxy.1]
    split_ifs
    · exact hxy.2
    · exact h.db

lemma writer_isNone : w'.writer.isNone = w.writer.isNone := by
  have hwriter := h.writer
  generalize w.writer = x at hwriter ⊢
  generalize w'.writer = y at hwriter ⊢
  cases hwriter <;> rfl

lemma writer_all (i : ℕ) :
    (w'.writer.all fun x => x.1 = i) = w.writer.all fun x => x.1 = i := by
  have hwriter := h.writer
  generalize w.writer = x at hwriter ⊢
  generalize w'.writer = y at hwriter ⊢
  cases hwriter with
  | none => rfl
  | some hxy => simp only [Option.all_some, hxy.1]

lemma enabled (hen : c.enabled i ch w = true) : c.enabled i ch w' = true := by
  simp only [Command.enabled, Bool.and_eq_true, decide_eq_true_eq] at hen ⊢
  refine ⟨⟨h.clock.trans hen.1.1, h.instant.trans hen.1.2⟩, ?_⟩
  cases c with
  | execute u =>
    simp only [h.writer_isNone]
    exact hen.2
  | executeIn u =>
    simp only [h.writer_all]
    exact hen.2
  | newUuid =>
    rw [List.all_eq_true]
    exact fun x hx => List.all_eq_true.mp hen.2 x (h.drawn hx)
  | _ => trivial

lemma tick (ch : Choice) : SameWorld inside (w.tick ch) (w'.tick ch) :=
  { h with clock := le_rfl, instant := le_rfl }

/-- Time passes in the first world alone. -/
lemma later (hen : c.enabled i ch w = true) : SameWorld inside (w.tick ch) w' := by
  simp only [Command.enabled, Bool.and_eq_true, decide_eq_true_eq] at hen
  exact { h with clock := h.clock.trans hen.1.1, instant := h.instant.trans hen.1.2 }

lemma release (i : ℕ) : SameWorld inside (w.release i) (w'.release i) := by
  refine { h with writer := ?_ }
  have hwriter := h.writer
  simp only [World.release]
  generalize w.writer = x at hwriter ⊢
  generalize w'.writer = y at hwriter ⊢
  cases hwriter with
  | none => exact .none
  | @some x y hxy =>
    by_cases hi : x.1 = i
    · simp [Option.filter, hxy.1, hi]
    · simpa [Option.filter, hxy.1, hi] using hxy

lemma settle (i : ℕ) : SameWorld inside (w.settle i) (w'.settle i) :=
  { h.release i with db := h.view i }

lemma reset : SameWorld inside w.reset w'.reset := { h with writer := .none, limiter := rfl }

/-- A command of the circle is answered alike in both worlds. -/
lemma exec (hc : c.Within inside w) : SameAnswer c (c.exec D i ch w).1 (c.exec D i ch w').1 ∧
    SameWorld inside (c.exec D i ch w).2 (c.exec D i ch w').2 := by
  have ht := h.tick ch
  cases c with
  | select q =>
    refine ⟨?_, ht⟩
    simp only [SameAnswer, Command.exec, h.db.eval hc.1 hc.2]
  | selectIn q =>
    refine ⟨?_, ht⟩
    obtain ⟨challengeId, accountId, rfl⟩ := hc
    simp only [SameAnswer, Command.exec]
    rw [(h.view i).eval (q := .challenge challengeId accountId) trivial (by simp)]
  | execute u =>
    by_cases hf : ch.fails = true
    · simp only [Command.exec, if_pos hf]
      exact ⟨rfl, ht⟩
    · have hout : (u.apply D ch.reading w'.db).map (fun _ => ()) =
          (u.apply D ch.reading w.db).map fun _ => () := h.db.outcome hc
      simp only [Command.exec, if_neg hf]
      cases hu : u.apply D ch.reading w.db with
      | error e =>
        cases hu' : u.apply D ch.reading w'.db with
        | error e' =>
          rw [hu, hu'] at hout
          exact ⟨hout.symm, ht⟩
        | ok x' => rw [hu, hu'] at hout; cases hout
      | ok x =>
        cases hu' : u.apply D ch.reading w'.db with
        | error e' => rw [hu, hu'] at hout; cases hout
        | ok x' => exact ⟨rfl, { ht with db := h.db.apply hc hu hu' }⟩
  | executeIn u =>
    obtain ⟨usedAt, challengeId, rfl⟩ := hc
    by_cases hf : ch.fails = true
    · simp only [Command.exec, if_pos hf]
      exact ⟨rfl, ht⟩
    · have hu : (Write.useChallenge usedAt challengeId).apply D ch.reading (w.view i) = .ok _ := rfl
      have hu' : (Write.useChallenge usedAt challengeId).apply D ch.reading (w'.view i) = .ok _ :=
        rfl
      have hview := (h.view i).apply (u := .useChallenge usedAt challengeId) trivial hu hu'
      simp only [Command.exec, if_neg hf, hu, hu', SameAnswer, (h.view i).challenges]
      exact ⟨trivial, { ht with writer := .some ⟨rfl, hview⟩ }⟩
  | commit =>
    by_cases hf : ch.fails = true
    · simp only [Command.exec, if_pos hf]
      exact ⟨rfl, ht.release i⟩
    · simp only [Command.exec, if_neg hf]
      exact ⟨rfl, ht.settle i⟩
  | rollback => exact ⟨rfl, ht.release i⟩
  | newUuid =>
    exact ⟨rfl, { ht with drawn := List.cons_subset_cons _ h.drawn }⟩
  | check key limit window =>
    simp only [Command.exec, SameAnswer, h.limiter]
    exact ⟨trivial, { ht with limiter := rfl }⟩
  | begin | now | fillBytes => exact ⟨rfl, ht⟩

/-- A command of strangers makes no difference. -/
lemma without (hc : c.Without inside w) (hen : c.enabled i ch w = true) :
    SameWorld inside (c.exec D i ch w).2 w' := by
  have ht := h.later hen
  cases c with
  | execute u =>
    by_cases hf : ch.fails = true
    · simp only [Command.exec, if_pos hf]
      exact ht
    · simp only [Command.exec, if_neg hf]
      cases hu : u.apply D ch.reading w.db with
      | error e => exact ht
      | ok x => exact { ht with db := h.db.without hc hu }
  | executeIn | commit | rollback | check => exact hc.elim
  | newUuid => exact { ht with drawn := List.subset_cons_of_subset _ h.drawn }
  | select | selectIn | begin | now | fillBytes => exact ht

end steps

end SameWorld

/-! ### Strangers -/

/-- The operations of the circle, and those on behalf of nobody. -/
def Op.stays (inside : Text → Bool) (op : Op) : Bool := op.account?.all inside

/-- The name does not lead to anybody of the circle. -/
def Db.LeadsOut (d : Db) (inside : Text → Bool) (identitty : Text) : Prop :=
  ∀ name a, normaliseIdentitty identitty = .ok name → d.accountByIdentitty name = some a →
    inside a.accountId = false

/-- The operation is not directed at the circle. -/
def Op.LeadsOut (inside : Text → Bool) (d : Db) : Op → Prop
  | .sendLiveChatRequest _ input => d.LeadsOut inside input.recipientIdentitty
  | .blockIdentity _ input => d.LeadsOut inside input.identitty
  | .unblockIdentity _ input => inside input.accountId = false
  | _ => True

/-- Strangers do not write to the circle, block it or lift blocks of it, and the circle does not
cancel requests of strangers. -/
structure Apart (inside : Text → Bool) (s : Service D) : Prop where
  strangers : ∀ i op, .call i op ∈ s.log → op.stays inside = false → op.LeadsOut inside s.world.db
  circle : ∀ i ctx input, .call i (.cancelLiveChatRequest ctx input) ∈ s.log →
    ctx.account.all inside = true → ∀ k r n, .exec k ⟨.execute (.insertChat r), .ok n⟩ ∈ s.log →
      r.requestId = input.requestId.toText → inside r.senderAccountId = true

lemma stranger_of_not_stays {op : Op} (h : op.stays inside = false) :
    ∃ a, op.account? = some a ∧ inside a = false := by
  simp only [Op.stays] at h
  cases ha : op.account? with
  | none => rw [ha] at h; cases h
  | some a => exact ⟨a, rfl, by rwa [ha] at h⟩

lemma inside_of_stays {op : Op} (h : op.stays inside = true) {a : Text}
    (ha : op.account? = some a) : inside a = true := by
  rwa [Op.stays, ha] at h

lemma Db.LeadsOut.earlier {d d' : Db} {name : Text} (h : d'.LeadsOut inside name)
    (hgrow : d.accounts.rows <+: d'.accounts.rows) : d.LeadsOut inside name :=
  fun _ _ hname ha => h _ _ hname (Db.accountByIdentitty_of_prefix hgrow ha)

/-- What is apart was apart before. -/
lemma Apart.earlier {s₁ : Service D}
    (h₁ : Reach P ((service D).start (World.init .empty t₀)) s₁) (h : Reach P s₁ s)
    (ha : Apart inside s) : Apart inside s₁ := by
  have hsub := h.log_suffix.subset
  have hgrow := accounts_grow h₁ h
  refine ⟨fun i op hcall hop => ?_, fun i ctx input hcall hin k r n hins hid =>
    ha.circle i ctx input (hsub hcall) hin k r n (hsub hins) hid⟩
  have hout := ha.strangers i op (hsub hcall) hop
  cases op with
  | sendLiveChatRequest | blockIdentity => exact Db.LeadsOut.earlier hout hgrow
  | unblockIdentity => exact hout
  | _ => trivial

/-- Such a run is apart all along. -/
lemma Apart.reach (h : Reachable (World.init .empty t₀) s) (ha : Apart inside s) :
    Reach (fun s _ => Apart inside s) ((service D).start (World.init .empty t₀)) s := by
  induction h with
  | refl => exact .refl
  | step hr _ hn ih =>
    have hprev := ha.earlier hr (.step .refl trivial hn)
    exact .step (ih hprev) hprev hn

/-- What a stranger has read under the name of a recipient or a target is not of the circle. -/
lemma outside_of_read (h : Reach P ((service D).start (World.init .empty t₀)) s) {i : ℕ}
    {q : Select} {x : q.Ans} (hread : .exec i ⟨.select q, .ok x⟩ ∈ s.log) {identitty name : Text}
    (hname : normaliseIdentitty identitty = .ok name)
    (hout : s.world.db.LeadsOut inside identitty) {accountId : Text}
    (hq : ∀ now d, x = q.eval D now d →
      ∃ a, d.accountByIdentitty name = some a ∧ a.accountId = accountId) :
    inside accountId = false := by
  obtain ⟨post, pre, hlog⟩ := List.append_of_mem hread
  obtain ⟨s₁, _, ch, h₁, -, -, -, -, -, -, heff, hrest⟩ := exec_of_log h hlog
  obtain ⟨a, ha, rfl⟩ := hq _ _ (heff.truthful trivial)
  exact hout _ _ hname (Db.accountByIdentitty_of_prefix (accounts_grow h₁ hrest) ha)

/-- A stranger inserts requests that the circle has no part in. -/
lemma Apart.insert (ha : Apart inside s)
    (h : Reach P ((service D).start (World.init .empty t₀)) s) {i : ℕ} {op : Op}
    (hcall : .call i op ∈ s.log) {past : Past Command Command.Ans}
    (hpast : ∀ e ∈ past, .exec i e ∈ s.log) {r : ChatRecord}
    (hi : op.Issues D past (.execute (.insertChat r))) (hr : inside r.senderAccountId = false) :
    r.concerns inside = false := by
  obtain ⟨ctx, input, u, v, t, name, n, m, rfl, hs, -, rfl⟩ := hi
  have hout : s.world.db.LeadsOut inside input.recipientIdentitty := by
    refine ha.strangers i _ hcall ?_
    simp [Op.stays, Op.account?, hs.sender, hr]
  have hread : .exec i ⟨.select (.recipient name), .ok (some r.recipientAccountId)⟩ ∈ s.log :=
    hpast _ (by simp [sendPast])
  have hrecipient := outside_of_read h hread hs.recipient hout fun _ _ hx =>
    Option.map_eq_some_iff.mp hx.symm
  simp [ChatRecord.concerns, hr, hrecipient]

/-- A stored request of a stranger is none that the circle has a part in. -/
lemma Apart.row (ha : Apart inside s)
    (h : Reach P ((service D).start (World.init .empty t₀)) s) {r : ChatRecord}
    (hr : r ∈ s.world.db.chats.rows) (hs : inside r.senderAccountId = false) :
    r.concerns inside = false := by
  obtain ⟨post, pre, k, r₀, hlog, heq⟩ := insert_of_row h hr
  have hsub : pre ⊆ s.log := by
    rw [hlog]
    exact fun e he => List.mem_append_right _ (List.mem_cons_of_mem _ he)
  obtain ⟨op, hcall, hi⟩ := h.log_exec (scripted D) hlog
  rw [heq] at hs ⊢
  have hno := ha.insert h (hsub hcall) (fun e he => hsub (mem_own.mp he)) hi hs
  exact hno

/-! ### The run without strangers -/

section commands

variable (h : Reach (fun s _ => Apart inside s) ((service D).start (World.init .empty t₀)) s)
  (ha : Apart inside s) {i : ℕ} {op : Op} {c : Command} (hcall : .call i op ∈ s.log)
  (hi : op.Issues D (own i s.log) c) (hasks : op.Asks (own i s.log) c)

include h ha hcall hi hasks

/-- Nobody of the circle asks or stores what is of strangers alone. -/
lemma within_of_stays (hop : op.stays inside = true) : c.Within inside s.world := by
  have hin {a : Text} (hacc : op.account? = some a) : inside a = true := inside_of_stays hop hacc
  cases c with
  | select q =>
    refine ⟨?_, ?_⟩
    · cases q <;> first | trivial | exact hin hasks
    · rintro requestId leaseId rfl r hr hid
      obtain ⟨ctx, input, rfl, hrequest⟩ := hasks
      obtain ⟨post, pre, k, r₀, hlog, heq⟩ := insert_of_row h hr
      have hins : .exec k ⟨.execute (.insertChat r₀), .ok 1⟩ ∈ s.log := by simp [hlog]
      rw [heq] at hid ⊢
      have hsender := ha.circle i ctx input hcall hop k r₀ 1 hins (hid.trans hrequest)
      simp [ChatRecord.concerns, hsender]
  | selectIn q => exact hasks
  | execute u =>
    cases u with
    | insertChat r =>
      obtain ⟨ctx, input, u, v, t, name, n, m, rfl, hs, -, hpast⟩ := hi
      have hsender : inside r.senderAccountId = true := hin hs.sender
      have hu : .exec i ⟨.newUuid, u⟩ ∈ s.log := mem_own.mp (by simp [hpast, sendPast])
      have hv : .exec i ⟨.newUuid, v⟩ ∈ s.log := mem_own.mp (by simp [hpast, sendPast])
      have hno : ∀ r n, .exec i ⟨.execute (.insertChat r), .ok n⟩ ∉ s.log := fun r n hins => by
        have hown := mem_own.mpr hins
        simp [hpast, sendPast] at hown
      refine ⟨by simp [ChatRecord.concerns, hsender], fun row hrow hclash => ?_⟩
      rcases hclash with hid | hlease | ⟨hsame, -⟩
      · exact absurd (hid.trans hs.requestId) (Intent.ids_fresh h h .refl hu hno hrow).1
      · exact absurd (hlease.trans hs.leaseId) (Intent.ids_fresh h h .refl hv hno hrow).2
      · simp [ChatRecord.concerns, hsame, hsender]
    | insertBlock b =>
      obtain ⟨ctx, input, name, target, t, rfl, hb, -, -⟩ := hi
      exact hin hb.account
    | _ => trivial
  | executeIn u =>
    obtain ⟨ctx, input, row, t, t', -, -, rfl, -⟩ := hi
    exact ⟨_, _, rfl⟩
  | _ => trivial

/-- A stranger touches nothing of the circle, but for the sweep at the beginning. -/
lemma without_of_stranger (hop : op.stays inside = false) :
    c.Without inside s.world ∨ own i s.log = [] ∧ c = .execute .removeExpiredChats := by
  obtain ⟨a, hacc, hout⟩ := stranger_of_not_stays hop
  have hnobody {p : Prop} (hno : op.account? = none) : p := by
    rw [hacc] at hno
    cases hno
  have hself {b : Text} (hb : op.account? = some b) : inside b = false :=
    Option.some.inj (hacc.symm.trans hb) ▸ hout
  have target {ctx : Context} {input : BlockIdentityInput} {b name : Text} {row : BlockTargetRow}
      (hblock : op = .blockIdentity ctx input) (hb : Blocking ctx input b name row)
      (hread : ⟨.select (.blockTarget name), .ok (some row)⟩ ∈ own i s.log) :
      inside row.accountId = false ∧ inside b = false := by
    subst hblock
    refine ⟨outside_of_read h (mem_own.mp hread) hb.name (ha.strangers i _ hcall hop)
      fun _ _ hx => ?_, hself hb.account⟩
    obtain ⟨b, hb, heq⟩ := Option.map_eq_some_iff.mp hx.symm
    exact ⟨b, hb, by rw [← heq]⟩
  cases c with
  | execute u =>
    cases u with
    | insertChat r =>
      refine .inl (ha.insert h hcall (fun e he => mem_own.mp he) hi ?_)
      obtain ⟨ctx, input, u, v, t, name, n, m, rfl, hs, -⟩ := hi
      exact hself hs.sender
    | updateLease leaseExpiresAt requestId =>
      obtain ⟨ctx, sender, input, row, hard, t, m, rfl, hsender, hid, -, -, hpast⟩ := hi
      have hread : ⟨.select (.lease input.requestId.toText input.leaseId.toText sender),
          .ok (some row)⟩ ∈ own i s.log := by simp [hpast, renewPast]
      refine .inl fun r hr hr' => ha.row h hr ?_
      rw [sender_of_lease h hread hr (hr'.trans hid)]
      exact hself hsender
    | deleteChat requestId leaseId =>
      obtain ⟨ctx, sender, input, rfl, hsender, -, -, hpast⟩ := hi
      have hread : ⟨.select (.owner requestId leaseId), .ok (some sender)⟩ ∈ own i s.log := by
        simp [hpast]
      refine .inl fun r hr hr' => ha.row h hr ?_
      rw [sender_of_owner h hread hr hr']
      exact hself hsender
    | insertBlock b =>
      obtain ⟨ctx, input, name, row, t, hblock, hb, heq, hpast⟩ := hi
      obtain ⟨htarget, hself⟩ := target hblock hb (by simp [hpast, blockPast])
      refine .inl ?_
      rw [heq]
      simp [Command.Without, Write.Without, BlockRecord.concerns, htarget, hself]
    | deleteChatsBetween sender recipient =>
      obtain ⟨ctx, input, name, row, t, n, hblock, hb, rfl, hpast⟩ := hi
      exact .inl (target hblock hb (by simp [hpast, blockPast]))
    | deleteBlock blocker blocked =>
      obtain ⟨ctx, rfl, hblocker, -⟩ := hi
      exact .inl ⟨hself hblocker, ha.strangers i _ hcall hop⟩
    | removeExpiredChats => exact hasks.elim hnobody fun hnil => .inr ⟨hnil, rfl⟩
    | insertAccount r =>
      obtain ⟨ctx, input, t, rfl, -⟩ := hi
      exact hnobody rfl
    | insertChallenge challengeId accountId challenge expiresAt =>
      obtain ⟨ctx, u, bytes, t, e, rfl, -⟩ := hi
      exact hnobody rfl
    | useChallenge => exact hi.elim
    | removeExpiredChallenges =>
      obtain ⟨rfl, -⟩ := hi
      exact hnobody rfl
  | executeIn u =>
    obtain ⟨ctx, input, row, t, t', rfl, -⟩ := hi
    exact hnobody rfl
  | commit =>
    obtain ⟨ctx, input, row, t, t', rfl, -⟩ := hi
    exact hnobody rfl
  | rollback | check => exact hnobody hasks
  | _ => exact .inl trivial

end commands

lemma unnoticed (inside : Text → Bool) (t₀ : ℤ) : (service D).Unnoticed
    (fun s _ => Apart inside s) (World.init .empty t₀) (Op.stays inside) (fun _ => .cleanupTick)
    SameAnswer (SameWorld inside) where
  blind op _ := op.heedless
  stay s w' i ch op past c k h ha ht hop hen hw := by
    have hcall := (h.logged.call i op).mpr ⟨_, ht, rfl⟩
    obtain rfl : past = own i s.log := h.logged.past i _ ht
    have hkeeps := (h.keeps (fun op => (scripted D op).and (asks op)) i _ ht).1
    have hc := within_of_stays h ha hcall hkeeps.1 hkeeps.2 hop
    exact ⟨hw.enabled hen, hw.exec hc⟩
  stand s w' i ch op past c k h ha ht hop hen hw := by
    have hcall := (h.logged.call i op).mpr ⟨_, ht, rfl⟩
    obtain rfl : past = own i s.log := h.logged.past i _ ht
    have hkeeps := (h.keeps (fun op => (scripted D op).and (asks op)) i _ ht).1
    rcases without_of_stranger h ha hcall hkeeps.1 hkeeps.2 hop with
      hc | ⟨hnil, rfl⟩
    · exact .inl (hw.without hc hen)
    · have hsweep : (Command.execute .removeExpiredChats).Within inside s.world := trivial
      have hen' : (Command.execute .removeExpiredChats).enabled i ch s.world = true := hen
      exact .inr ⟨hnil, _, rfl, hw.enabled hen', (hw.exec (i := i) hsweep).2⟩
  crash w w' hw := hw.reset

/-- There is a run in which nothing is done for strangers, other than that the clean-up runs, and in
which everybody else makes the same calls in the same order and is answered the same. It keeps what
the circle has a part in. -/
theorem strangers_unseen (h : Reachable (World.init .empty t₀) s) (ha : Apart inside s) :
    ∃ s' : Service D, Reachable (World.init .empty t₀) s' ∧
      SameView inside s.world.db s'.world.db ∧
      history s'.log = withStandIns (Op.stays inside) (fun _ => .cleanupTick) (history s.log) := by
  obtain ⟨s', hr, hs⟩ := (unnoticed inside t₀).standsFor (ha.reach h) (SameWorld.init inside t₀)
  exact ⟨s', hr, hs.world.db, hs.history⟩

namespace Known

def isCall : Seen Op Response → Bool
  | .call _ _ => true
  | .respond _ _ => false

/-- Bob writes to a name that nobody has while Ada writes to Bob. -/
def passing : List (Action Op Choice) :=
  whole (register "ada".toList ada adaKey) 0 3 newYear ⟨0⟩ ++
    whole (register "bob".toList bob bobKey) 1 3 newYear ⟨0⟩ ++
    .call (.sendLiveChatRequest (session bob) ⟨"carol".toList, ⟨8⟩, "AA==".toList⟩) ::
    .call (.sendLiveChatRequest (session ada) ⟨"bob".toList, ⟨7⟩, "AA==".toList⟩) ::
    ((List.range 8).flatMap fun n => [.step 2 (fine newYear ⟨.ofNat 128 n⟩),
      .step 3 (fine newYear ⟨.ofNat 128 (8 + n)⟩)]) ++
    [.step 3 (fine newYear ⟨0⟩), .step 3 (fine newYear ⟨0⟩), .respond 3, .respond 2]

lemma passing_calls :
    (((service deployment).start (World.init .empty newYear)).take passing).map (fun s =>
      ((history s.log).length, (history s.log).filter isCall,
        s.world.db.accountByIdentitty "carol".toList)) =
      some (8, [
        .call 3 (.sendLiveChatRequest (session ada) ⟨"bob".toList, ⟨7⟩, "AA==".toList⟩),
        .call 2 (.sendLiveChatRequest (session bob) ⟨"carol".toList, ⟨8⟩, "AA==".toList⟩),
        .call 1 (register "bob".toList bob bobKey), .call 0 (register "ada".toList ada adaKey)],
        none) := by
  decide +kernel

lemma normalise_carol : normaliseIdentitty "carol".toList = .ok "carol".toList := by
  decide +kernel

end Known

open Known in
theorem strangers_unseen_passing : ∃ s s' : Service deployment, (history s.log).length = 8 ∧
    Reachable (World.init .empty newYear) s' ∧ .call 2 .cleanupTick ∈ history s'.log ∧
      history s'.log = withStandIns (Op.stays fun a => a = ada) (fun _ => .cleanupTick)
        (history s.log) := by
  obtain ⟨s, hs, hans⟩ := Option.map_eq_some_iff.mp passing_calls
  obtain ⟨hlength, hrest⟩ := Prod.mk.inj hans
  obtain ⟨hcalls, hcarol⟩ := Prod.mk.inj hrest
  have hcall {i : ℕ} {op : Op} (h : .call i op ∈ s.log) :=
    hcalls ▸ List.mem_filter.mpr ⟨(mem_history (x := .call i op)).mpr h, rfl⟩
  have hapart : Apart (fun a => a = ada) s := by
    refine ⟨fun i op h hop => ?_, fun i ctx input h => ?_⟩
    · have hmem := hcall h
      simp only [List.mem_cons, Seen.call.injEq, List.not_mem_nil, or_false] at hmem
      rcases hmem with ⟨-, rfl⟩ | ⟨-, rfl⟩ | ⟨-, rfl⟩ | ⟨-, rfl⟩
      · exact absurd hop (by decide +kernel)
      · intro name a hname ha
        rw [normalise_carol] at hname
        cases hname
        rw [hcarol] at ha
        cases ha
      · trivial
      · trivial
    · have hmem := hcall h
      simp [register] at hmem
  obtain ⟨s', hr, -, hh⟩ := strangers_unseen (reachable_of_take hs) hapart
  refine ⟨s, s', hlength, hr, ?_, hh⟩
  have hbob : .call 2 (.sendLiveChatRequest (session bob) ⟨"carol".toList, ⟨8⟩, "AA==".toList⟩) ∈
      history s.log := List.mem_of_mem_filter (hcalls ▸ List.mem_cons_of_mem _ List.mem_cons_self)
  rw [hh]
  exact call_mem_withStandIns hbob (by decide +kernel)

end TittyBackend
