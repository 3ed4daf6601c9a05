import TittyBackend.Lib.Draining
import TittyBackend.Sequential
import Mathlib.Data.List.Nodup
import Mathlib.Data.List.Perm.Subperm

/-!
# Nobody waits for ever

Operations wait for two things: the write lock, which a login holds from its update to the end of
its transaction, and a connection of the pool, which a login holds for the whole transaction and
everybody else for one statement. Nobody who holds one of them ever waits for the other, so that
whatever state a run is in, what is in progress can be brought to its end.

The one statement that may have to fail is the update of a login. A transaction of SQLite starts
with its first read and goes on with that database, so that SQLite refuses its update once
somebody else has changed the database. A login that is refused rolls back and answers, whichever
logins that happens to.
-/

namespace TittyBackend

open Numerals Programs Programs.System Resolver

variable {D : Deployment} {P : Service D → Action Op Choice → Prop} {d₀ : Db} {t₀ : ℤ}
  {s : Service D}

/-! ### Connections -/

/-- The command takes a connection of the pool, for itself or for the transaction it begins. -/
def Command.Connects : Command → Prop
  | .select _ | .execute _ | .begin => True
  | _ => False

/-- The operation has begun a transaction. -/
def Began (past : Past Command Command.Ans) : Prop := ⟨.begin, .ok ()⟩ ∈ past

/-- The operation is between the beginning and the end of its transaction. -/
def inTransaction : Past Command Command.Ans → Bool
  | ⟨.begin, .ok ()⟩ :: _ => true
  | ⟨.commit, _⟩ :: _ | ⟨.rollback, _⟩ :: _ => false
  | _ :: past => inTransaction past
  | [] => false

lemma began_of_inTransaction {past : Past Command Command.Ans} (h : inTransaction past = true) :
    Began past := by
  induction past with
  | nil => cases h
  | cons e past ih =>
    rw [inTransaction.eq_def] at h
    split at h
    · simp_all [Began]
    · cases h
    · cases h
    · simp_all [Began]
    · cases h

/-- How many UUIDs the operation has drawn. -/
def drawCount (past : Past Command Command.Ans) : ℕ :=
  past.countP fun e => match e with
    | ⟨.newUuid, _⟩ => true
    | _ => false

/-- An operation takes no connection once it has begun a transaction, and draws two UUIDs at
most. -/
def Modest (past : Past Command Command.Ans) (c : Command) : Prop :=
  (c.Connects → ¬ Began past) ∧ (c = .newUuid → drawCount past < 2)

section modest

variable {past : Past Command Command.Ans}

@[simp] lemma not_began_nil : ¬ Began [] := List.not_mem_nil

@[simp] lemma began_cons (e : Exchange Command Command.Ans) :
    Began (e :: past) ↔ e = ⟨.begin, .ok ()⟩ ∨ Began past := by
  rw [Began, List.mem_cons, eq_comm]
  rfl

@[simp] lemma drawCount_nil : drawCount [] = 0 := rfl

@[simp] lemma drawCount_newUuid (u : Uuid) :
    drawCount (⟨.newUuid, u⟩ :: past) = drawCount past + 1 :=
  List.countP_cons_of_pos rfl

@[simp] lemma drawCount_cons {c : Command} (hc : c ≠ .newUuid) (x : c.Ans) :
    drawCount (⟨c, x⟩ :: past) = drawCount past := by
  cases c with
  | newUuid => exact absurd rfl hc
  | _ => exact List.countP_cons_of_neg Bool.false_ne_true

@[simp] lemma modest_select (q : Select) : Modest past (.select q) ↔ ¬ Began past := by
  simp [Modest, Command.Connects]

@[simp] lemma modest_execute (u : Write) : Modest past (.execute u) ↔ ¬ Began past := by
  simp [Modest, Command.Connects]

@[simp] lemma modest_begin : Modest past .begin ↔ ¬ Began past := by
  simp [Modest, Command.Connects]

@[simp] lemma modest_newUuid : Modest past .newUuid ↔ drawCount past < 2 := by
  simp [Modest, Command.Connects]

@[simp] lemma modest_selectIn (q : Select) : Modest past (.selectIn q) := by
  simp [Modest, Command.Connects]

@[simp] lemma modest_executeIn (u : Write) : Modest past (.executeIn u) := by
  simp [Modest, Command.Connects]

@[simp] lemma modest_check (key : Text) (limit window : ℕ) :
    Modest past (.check key limit window) := by
  simp [Modest, Command.Connects]

@[simp] lemma modest_commit : Modest past .commit := by simp [Modest, Command.Connects]

@[simp] lemma modest_rollback : Modest past .rollback := by simp [Modest, Command.Connects]

@[simp] lemma modest_now : Modest past .now := by simp [Modest, Command.Connects]

@[simp] lemma modest_fillBytes : Modest past .fillBytes := by simp [Modest, Command.Connects]

/-- What a send does once it has found no request of its client id. -/
lemma submitRequest_modest (hpast : ¬ Began past) (hdraws : drawCount past = 0) (sender : Text)
    (publicKey payload : List UInt8) (identitty : Text) (clientRequestId : Uuid) :
    (submitRequest sender publicKey payload identitty clientRequestId).run.Keeps Modest
      (fun past _ => drawCount past ≤ 2) past := by
  simp only [submitRequest, wp_bind, keeps_fetch (.activeCount _), wp_refuse, keeps_now,
    wp_addSeconds, keeps_newUuid, keeps_fetch (.recipient _)]
  simp [hpast, hdraws]
  rintro n - now lease - hard - requestId leaseId (_ | recipient)
  · simp [insertUnlessHidden, hdraws]
  · simp only [insertUnlessHidden, wp_bind, keeps_fetch (.blockExists _ _)]
    simp [hpast, hdraws]
    split_ifs
    · simp [hdraws]
    · simp only [wp_bind, keeps_execute, wp_pure]
      simp [hpast, hdraws]

lemma findAccount_modest (hpast : ¬ Began past) (hdraws : drawCount past = 0)
    (column value : Text) :
    (findAccount column value).run.Keeps Modest (fun past _ => drawCount past ≤ 2) past := by
  rw [findAccount]
  split_ifs
  · simp only [wp_bind, keeps_fetch (.accountByIdentitty _), wp_lift]
    simp [hpast, hdraws]
  · simp only [wp_bind, keeps_fetch (.accountById _), wp_lift]
    simp [hpast, hdraws]
  · simp [hdraws]

end modest

theorem modest (op : Op) : (op.program D).Keeps Modest (fun past _ => drawCount past ≤ 2) [] := by
  cases op with
  | registerAccount ctx input =>
    simp only [Op.program, Op.resolver, registerAccount, wp_map, wp_bind,
      keeps_enforce, wp_lift, wp_orFail, wp_refuse, keeps_now, keeps_attempt]
    simp
    rintro name - key - - - t ((_ | _ | _) | n) <;> simp
  | requestChallenge ctx accountId =>
    simp only [Op.program, Op.resolver, requestChallenge, wp_map, wp_bind, keeps_enforce,
      wp_refuse, keeps_fetch (.accountExists _), keeps_newUuid, keeps_fillBytes, keeps_now,
      wp_addSeconds, keeps_execute, wp_pure]
    simp
  | authenticate ctx input =>
    simp only [Op.program, Op.resolver, authenticate, consumeChallenge, issueSession, wp_map,
      wp_bind, keeps_enforce, keeps_transaction, keeps_fetchIn (.challenge _ _), wp_orFail,
      wp_refuse, wp_lift, keeps_now, keeps_executeIn, wp_addSeconds, wp_pure]
    simp
  | sendLiveChatRequest ctx input =>
    simp only [Op.program, Op.resolver, sendLiveChatRequest, authenticated, wp_map, wp_bind,
      wp_orFail, wp_lift, keeps_execute, keeps_fetch (.publicKey _),
      keeps_fetch (.existingRequest _ _)]
    simp
    rintro sender - payload - name - m key publicKey - (_ | row)
    · exact submitRequest_modest (by simp) (by simp) ..
    · simp
  | renewLiveChatRequest ctx input =>
    simp only [Op.program, Op.resolver, renewLiveChatRequest, authenticated, wp_map, wp_bind,
      wp_orFail, wp_lift, keeps_execute, keeps_fetch (.lease _ _ _), keeps_now, wp_addSeconds,
      wp_pure]
    simp
  | cancelLiveChatRequest ctx input =>
    simp only [Op.program, Op.resolver, cancelLiveChatRequest, authenticated, wp_map,
      wp_bind, wp_orFail, keeps_fetch (.owner _ _)]
    simp
    rintro sender - (_ | owner)
    · simp
    · simp only [wp_bind, wp_refuse, keeps_execute, wp_pure]
      simp
  | blockIdentity ctx input =>
    simp only [Op.program, Op.resolver, blockIdentity, authenticated, wp_map, wp_bind, wp_orFail,
      wp_lift, wp_refuse, keeps_now, keeps_execute, keeps_fetch (.blockTarget _),
      keeps_fetch (.blockCreatedAt _ _), wp_pure]
    simp
  | unblockIdentity ctx input =>
    simp only [Op.program, Op.resolver, unblockIdentity, authenticated, wp_map, wp_bind,
      wp_orFail, keeps_execute, wp_pure]
    simp
  | liveChatRequests ctx =>
    simp only [Op.program, Op.resolver, liveChatRequests, authenticated, wp_map, wp_bind,
      wp_orFail, keeps_execute, keeps_fetch (.liveChatRequests _), wp_lift]
    simp
  | isIdentittyAvailable value =>
    simp only [Op.program, Op.resolver, isIdentittyAvailable, wp_map, wp_bind, wp_lift,
      keeps_fetch (.identittyExists _), wp_pure]
    simp
  | account value =>
    simp only [Op.program, Op.resolver, account, wp_map, wp_bind, wp_lift]
    simp
    exact fun name _ => findAccount_modest (by simp) rfl ..
  | accountById accountId =>
    simp only [Op.program, Op.resolver, accountById, wp_map]
    exact findAccount_modest (by simp) rfl ..
  | me ctx =>
    simp only [Op.program, Op.resolver, me, authenticated, wp_map, wp_bind, wp_orFail]
    simp
    exact fun account _ => findAccount_modest (by simp) rfl ..
  | blockedIdentities ctx =>
    simp only [Op.program, Op.resolver, blockedIdentities, authenticated, wp_map, wp_bind,
      wp_orFail, wp_lift, keeps_fetch (.blockedIdentities _)]
    simp
  | cleanupTick =>
    simp only [Op.program, Op.resolver, cleanupTick, wp_map, wp_bind, keeps_attempt, wp_pure]
    simp
  | startup =>
    simp only [Op.program, Op.resolver, startup, wp_map, wp_bind, keeps_execute, wp_pure]
    simp

/-! ### The holder of the lock -/

/-- Who holds the write lock is in progress, within its transaction, and ends that next. -/
theorem holder (h : Reach P ((service D).start (World.init d₀ t₀)) s) :
    ∀ x ∈ s.world.writer, ∃ t, s.threads[x.1]? = some t ∧ t.live = true ∧ Updating t.past ∧
      Began t.past := by
  refine h.induct (fun s => ∀ x ∈ s.world.writer, ∃ t, s.threads[x.1]? = some t ∧ t.live = true ∧
    Updating t.past ∧ Began t.past) (by simp [start, World.init]) fun s a s' hr _ ih hst x hx => ?_
  cases hst with
  | call op =>
    obtain ⟨t, ht, h⟩ := ih x hx
    exact ⟨t, getElem?_snoc.mpr (.inl ht), h⟩
  | @step i ch op past c k ht hen =>
    have hends : Updating past → c = .commit ∨ c = .rollback :=
      (hr.keeps Op.ends i _ ht).1
    have stays (hw : x ∈ s.world.writer) (hne : x.1 ≠ i) : ∃ t,
        (s.threads.set i ⟨op, ⟨c, ((service D).exec i c ch s.world).1⟩ :: past,
          k ((service D).exec i c ch s.world).1, true⟩)[x.1]? = some t ∧ t.live = true ∧
          Updating t.past ∧ Began t.past := by
      obtain ⟨t, htx, h⟩ := ih x hw
      exact ⟨t, (getElem?_replaced ht).mpr (.inr ⟨hne.symm, htx⟩), h⟩
    by_cases hc : c = .commit ∨ c = .rollback
    · have hw : ((service D).exec i c ch s.world).2.writer =
          s.world.writer.filter fun x => x.1 ≠ i := by
        rcases hc with rfl | rfl
        · simp only [service, Command.exec]
          split_ifs <;> rfl
        · rfl
      rw [hw, Option.mem_filter_iff] at hx
      exact stays hx.1 (of_decide_eq_true hx.2)
    · have hother : ∀ y ∈ s.world.writer, y.1 ≠ i := by
        rintro y hy rfl
        obtain ⟨t, hty, -, hup, -⟩ := ih y hy
        obtain rfl := Option.some.inj (ht.symm.trans hty)
        exact hc (hends hup)
      rcases (Command.effect (D := D) c hen).writer with hw | ⟨u, n, d, he, -, -, hw⟩ | ⟨he, -⟩
      · have hx' : x ∈ s.world.writer := hw ▸ hx
        exact stays hx' (hother x hx')
      · obtain rfl := Option.some.inj (hw.symm.trans hx)
        obtain ⟨rfl, -⟩ := Sigma.mk.inj he
        obtain ⟨ctx, input, row, t, t', -, -, -, hpast⟩ := (hr.keeps (scripted D) i _ ht).1
        refine ⟨_, (getElem?_replaced ht).mpr (.inl ⟨rfl, rfl⟩), rfl, ⟨u, n, past, ?_⟩, ?_⟩
        · rw [← he]
          rfl
        · rw [began_cons, show past = _ from hpast]
          exact .inr (by simp [loginPast])
      · exact absurd he hc
  | @respond i op past r ht =>
    obtain ⟨t, htx, hlive, hup, hbegan⟩ := ih x hx
    have hne : x.1 ≠ i := by
      rintro rfl
      obtain rfl := Option.some.inj (ht.symm.trans htx)
      exact (hr.keeps Op.ends _ _ ht).1 hup
    exact ⟨t, (getElem?_replaced ht).mpr (.inr ⟨hne.symm, htx⟩), hlive, hup, hbegan⟩
  | crash => cases hx

/-! ### A run that ends everything -/

/-- The connections that transactions in progress hold. -/
def connections (s : Service D) : ℕ := s.threads.countP fun t => t.live && inTransaction t.past

/-- The command is the update of a transaction. -/
def Command.updates : Command → Bool
  | .executeIn _ => true
  | _ => false

/-- An action that brings an operation in progress on: the statements that fail are the updates
of the transactions that SQLite refuses to let write, and a command that takes a connection finds
one of the pool's `n` free. -/
def Smooth (refuses : Service D → ℕ → Bool) (n : ℕ) (s : Service D) : Action Op Choice → Prop
  | .step i ch => ∀ op past c k, s.threads[i]? = some ⟨op, past, .call c k, true⟩ →
      ch.fails = (c.updates && refuses s i) ∧ (c.Connects → connections s < n)
  | .respond _ => True
  | .call _ | .crash => False

/-- There are more UUIDs than were drawn. -/
lemma exists_fresh {us : List Uuid} (h : us.length < 2 ^ 128) : ∃ u, u ∉ us := by
  by_contra hall
  push Not at hall
  let every : List Uuid := (List.range (2 ^ 128)).map fun n => ⟨BitVec.ofNat 128 n⟩
  have hnodup : every.Nodup := by
    refine List.Nodup.map_on (fun m hm n hn heq => ?_) List.nodup_range
    have hbits := congrArg BitVec.toNat (Uuid.mk.inj heq)
    rwa [BitVec.toNat_ofNat, BitVec.toNat_ofNat, Nat.mod_eq_of_lt (List.mem_range.mp hm),
      Nat.mod_eq_of_lt (List.mem_range.mp hn)] at hbits
  have hle : every.length ≤ us.length := (hnodup.subperm fun u _ => hall u).length_le
  rw [List.length_map, List.length_range] at hle
  exact absurd h (not_lt.mpr hle)

/-- Operation `i` is the one to go on: nobody else holds the lock, and nobody else has begun a
transaction unless it has itself. It has drawn from `N` UUIDs on. -/
structure Leads (D : Deployment) (w₀ : World) (N i : ℕ) (s : Service D) : Prop where
  reach : (service D).Reachable w₀ s
  holder : ∀ x ∈ s.world.writer, x.1 = i
  began : (∃ t, s.threads[i]? = some t ∧ Began t.past) ∨
    ∀ j t, j ≠ i → s.threads[j]? = some t → t.live = true → ¬ Began t.past
  drawn : ∀ t, s.threads[i]? = some t → s.world.drawn.length ≤ N + drawCount t.past

lemma Leads.connections {w₀ : World} {N i : ℕ} (h : Leads D w₀ N i s)
    {t : Thread Command Command.Ans Op Response} (ht : s.threads[i]? = some t)
    (hno : ¬ Began t.past) : connections s = 0 := by
  rw [TittyBackend.connections, List.countP_eq_zero]
  intro u hu hopen
  obtain ⟨j, hj⟩ := List.getElem?_of_mem hu
  rw [Bool.and_eq_true] at hopen
  have hbegan := began_of_inTransaction hopen.2
  by_cases hji : j = i
  · subst hji
    obtain rfl := Option.some.inj (ht.symm.trans hj)
    exact hno hbegan
  · rcases h.began with ⟨t', ht', hb⟩ | hall
    · obtain rfl := Option.some.inj (ht.symm.trans ht')
      exact hno hb
    · exact hall j u hji hj hopen.1 hbegan

theorem drives (refuses : Service D → ℕ → Bool) {n N i : ℕ} (hn : 0 < n)
    (hN : N + 2 ≤ 2 ^ 128) :
    Drives (Smooth refuses n) i (Leads D (World.init d₀ t₀) N i) := by
  refine ⟨fun s op past c k hJ ht => ?_, fun _ _ _ _ _ _ => trivial⟩
  have hmodest : Modest past c := (hJ.reach.keeps modest i _ ht).1
  have hends : Updating past → c = .commit ∨ c = .rollback := (hJ.reach.keeps Op.ends i _ ht).1
  -- a UUID that is new if the command draws one
  obtain ⟨u, hu⟩ : ∃ u : Uuid, c = .newUuid → ∀ x ∈ s.world.drawn, x.2 ≠ u := by
    by_cases hc : c = .newUuid
    · have hdrawn := hJ.drawn _ ht
      have hlt := hmodest.2 hc
      have hlen : (s.world.drawn.map Prod.snd).length < 2 ^ 128 := by
        rw [List.length_map]
        exact lt_of_le_of_lt hdrawn (lt_of_lt_of_le (Nat.add_lt_add_left hlt N) hN)
      obtain ⟨u, hu⟩ := exists_fresh hlen
      exact ⟨u, fun _ x hx hxu => hu (List.mem_map.mpr ⟨x, hx, hxu⟩)⟩
    · exact ⟨⟨0⟩, fun h => absurd h hc⟩
  let ch : Choice := ⟨s.world.clock, s.world.instant, c.updates && refuses s i, u,
    List.Vector.replicate 32 0⟩
  have hen : Command.enabled i c ch s.world = true := by
    simp only [Command.enabled, ch, le_refl, decide_true, Bool.true_and]
    cases c with
    | execute v =>
      simp only [Command.updates, Bool.false_and, Bool.false_or]
      rw [Option.isNone_iff_eq_none, Option.eq_none_iff_forall_not_mem]
      intro x hx
      obtain ⟨t, htx, -, hup, -⟩ := TittyBackend.holder hJ.reach x hx
      rw [hJ.holder x hx, ht] at htx
      obtain rfl := Option.some.inj htx
      rcases hends hup with hc | hc <;> cases hc
    | executeIn v =>
      rw [Bool.or_eq_true, Option.all_eq_true]
      exact .inr fun x hx => decide_eq_true (hJ.holder x hx)
    | newUuid => simpa using hu rfl
    | _ => rfl
  refine ⟨ch, hen, fun op' past' c' k' ht' => ?_, fun s' hnext => ?_⟩
  · obtain ⟨-, rfl, hcall, -⟩ := Thread.mk.inj (Option.some.inj (ht.symm.trans ht'))
    obtain ⟨rfl, -⟩ := Prog.call.inj hcall
    refine ⟨rfl, fun hc => ?_⟩
    rw [hJ.connections ht (hmodest.1 hc)]
    exact hn
  · have hst := State.steps_of_next hnext
    cases hst with
    | @step _ _ op' past' c' k' ht' hen' =>
      obtain ⟨rfl, rfl, hcall, -⟩ := Thread.mk.inj (Option.some.inj (ht.symm.trans ht'))
      obtain ⟨rfl, hk⟩ := Prog.call.inj hcall
      have heff := Command.effect (D := D) c hen
      refine ⟨hJ.reach.step trivial hnext, fun x hx => ?_, ?_, fun t htnew => ?_⟩
      · have hx : x ∈ (Command.exec D i c ch s.world).2.writer := hx
        rcases heff.writer with hw | ⟨v, m, d, -, -, -, hw⟩ | ⟨-, hw⟩
        · exact hJ.holder x (hw ▸ hx)
        · obtain rfl := Option.some.inj (hw.symm.trans hx)
          rfl
        · rw [hw, Option.mem_filter_iff] at hx
          exact hJ.holder x hx.1
      · refine hJ.began.imp ?_ fun hall j t hj htj => ?_
        · rintro ⟨t, htb, hb⟩
          obtain rfl := Option.some.inj (ht.symm.trans htb)
          exact ⟨_, (getElem?_replaced ht).mpr (.inl ⟨rfl, rfl⟩), (began_cons _).mpr (.inr hb)⟩
        · rcases (getElem?_replaced ht).mp htj with ⟨rfl, -⟩ | ⟨-, htj⟩
          · exact absurd rfl hj
          · exact hall j t hj htj
      · rcases (getElem?_replaced ht).mp htnew with ⟨-, rfl⟩ | ⟨hii, -⟩
        · have hdrawn := hJ.drawn _ ht
          rcases heff.drawn with ⟨hd, hno⟩ | ⟨he, hd, -⟩
          · refine (congrArg List.length hd).trans_le (hdrawn.trans (Nat.add_le_add_left ?_ N))
            exact (List.sublist_cons_self _ _).countP_le
          · refine (congrArg List.length hd).trans_le ?_
            obtain ⟨rfl, -⟩ := Sigma.mk.inj he
            rw [List.length_cons, drawCount_newUuid, ← Nat.add_assoc]
            exact Nat.succ_le_succ hdrawn
        · exact absurd rfl hii

/-- While something is in progress, something in progress can go on. -/
lemma exists_leader (h : (service D).Reachable (World.init d₀ t₀) s) {j : ℕ} (hj : s.Running j) :
    ∃ i op past p, s.threads[i]? = some ⟨op, past, p, true⟩ ∧
      Leads D (World.init d₀ t₀) s.world.drawn.length i s := by
  have leads {i : ℕ} {t : Thread Command Command.Ans Op Response} (ht : s.threads[i]? = some t)
      (hlive : t.live = true) (hholder : ∀ x ∈ s.world.writer, x.1 = i)
      (hbegan : Began t.past ∨
        ∀ j t, j ≠ i → s.threads[j]? = some t → t.live = true → ¬ Began t.past) :
      ∃ i op past p, s.threads[i]? = some ⟨op, past, p, true⟩ ∧
        Leads D (World.init d₀ t₀) s.world.drawn.length i s := by
    obtain ⟨op, past, p, live⟩ := t
    obtain rfl : live = true := hlive
    exact ⟨i, op, past, p, ht, h, hholder, hbegan.imp_left fun hb => ⟨_, ht, hb⟩,
      fun _ _ => Nat.le_add_right _ _⟩
  cases hw : s.world.writer with
  | some x =>
    obtain ⟨t, ht, hlive, -, hbegan⟩ := holder h x hw
    refine leads ht hlive (fun y hy => ?_) (.inl hbegan)
    obtain rfl := Option.some.inj (hw.symm.trans hy)
    rfl
  | none =>
    have hfree : ∀ i, ∀ x ∈ s.world.writer, x.1 = i := by simp [hw]
    by_cases hb : ∃ (i : ℕ) (t : Thread Command Command.Ans Op Response),
        s.threads[i]? = some t ∧ t.live = true ∧ Began t.past
    · obtain ⟨i, t, ht, hlive, hbegan⟩ := hb
      exact leads ht hlive (hfree i) (.inl hbegan)
    · obtain ⟨t, ht, hlive⟩ := hj
      exact leads ht hlive (hfree j) (.inr fun i t _ ht hlive hbegan =>
        hb ⟨i, t, ht, hlive, hbegan⟩)

/-- The operations in progress. -/
def inProgress (s : Service D) : ℕ := s.threads.countP Thread.live

/-- One operation after the other comes to its end. -/
lemma drained (refuses : Service D → ℕ → Bool) {n : ℕ} (hn : 0 < n) (m : ℕ)
    (h : (service D).Reachable (World.init d₀ t₀) s)
    (hm : inProgress s = m) (hfresh : s.world.drawn.length + 2 * m ≤ 2 ^ 128) :
    ∃ s' : Service D, Reach (Smooth refuses n) s s' ∧ (∀ i, ¬ s'.Running i) ∧
      ∀ i, s.Running i → ∃ r, .respond i r ∈ s'.log := by
  induction m generalizing s with
  | zero =>
    have hdone : ∀ i, ¬ s.Running i := by
      rintro i ⟨t, ht, hlive⟩
      exact (List.countP_eq_zero.mp hm) t (List.mem_of_getElem? ht) hlive
    exact ⟨s, .refl, hdone, fun i hi => absurd hi (hdone i)⟩
  | succ m ih =>
    obtain ⟨t, ht, hlive⟩ := List.countP_pos_iff.mp (lt_of_lt_of_eq (Nat.succ_pos m) hm.symm)
    obtain ⟨j, hj⟩ := List.getElem?_of_mem ht
    obtain ⟨i, op, past, p, hi, hleads⟩ := exists_leader h ⟨t, hj, hlive⟩
    obtain ⟨s₁, s', past', r, hr, hJ, ht₁, hP, hnext, hthreads⟩ :=
      (drives refuses hn (by omega)).toEnd hleads hi
    have hreach : Reach (Smooth refuses n) s s' := hr.step hP hnext
    have hs' : (service D).Reachable (World.init d₀ t₀) s' := hJ.reach.step trivial hnext
    have hlt : i < s.threads.length := (List.getElem?_eq_some_iff.mp hi).1
    have hworld : s'.world = s₁.world ∧ .respond i r ∈ s'.log := by
      simp only [State.next, ht₁, Option.some.injEq] at hnext
      exact hnext ▸ ⟨rfl, List.mem_cons_self⟩
    have hcount : inProgress s' = m := by
      have hget : s.threads[i] = ⟨op, past, p, true⟩ := (List.getElem?_eq_some_iff.mp hi).2
      rw [inProgress, hthreads, List.countP_set hlt, hget]
      exact (congrArg (· - 1 + 0) hm).trans rfl
    have hdrawn : s'.world.drawn.length ≤ s.world.drawn.length + 2 := by
      rw [hworld.1]
      exact (hJ.drawn _ ht₁).trans (Nat.add_le_add_left (hJ.reach.keeps modest i _ ht₁) _)
    obtain ⟨s'', hr'', hdone, hall⟩ := ih hs' hcount (by omega)
    refine ⟨s'', hreach.trans hr'', hdone, fun k hk => ?_⟩
    rcases eq_or_ne k i with rfl | hne
    · exact ⟨r, hr''.log_suffix.subset hworld.2⟩
    · obtain ⟨t, ht, hlive⟩ := hk
      exact hall k ⟨t, by rw [hthreads, List.getElem?_set_ne hne.symm, ht], hlive⟩

/-- Whatever state a run is in, and whichever transactions SQLite refuses to let write, everything
in progress can still be answered: no other statement has to fail for it, the pool may have any
number of connections, and in the end nobody holds the lock. -/
theorem no_deadlock (refuses : Service D → ℕ → Bool) {n : ℕ} (hn : 0 < n)
    (h : (service D).Reachable (World.init d₀ t₀) s)
    (hfresh : s.world.drawn.length + 2 * s.threads.length ≤ 2 ^ 128) :
    ∃ s' : Service D, Reach (Smooth refuses n) s s' ∧
      (∀ i, s.Running i → ∃ r, .respond i r ∈ s'.log) ∧ (∀ i, ¬ s'.Running i) ∧
      s'.world.writer = none := by
  have hle : inProgress s ≤ s.threads.length := List.countP_le_length
  obtain ⟨s', hr, hdone, hall⟩ := drained refuses hn _ h rfl (by omega)
  refine ⟨s', hr, hall, hdone, Option.eq_none_iff_forall_not_mem.mpr fun x hx => ?_⟩
  obtain ⟨t, ht, hlive, -⟩ := holder (h.trans (hr.mono fun _ _ _ => trivial)) x hx
  exact hdone x.1 ⟨t, ht, hlive⟩

/-- Whether the database has changed since operation `i` first read it in its transaction. SQLite
then refuses the update of that transaction. -/
def outdated (i : ℕ) : Log → Bool
  | .exec j ⟨.selectIn _, .ok _⟩ :: l => j ≠ i && outdated i l
  | .exec j ⟨.execute _, .ok n⟩ :: l => (j ≠ i && n ≠ 0) || outdated i l
  | .exec j ⟨.commit, .ok _⟩ :: l => j ≠ i || outdated i l
  | _ :: l => outdated i l
  | [] => false

namespace Known

/-- Two logins have read the same challenge. One has made its update, the other is about to make
it, and a registration is about to insert its row. -/
def contended : List (Action Op Choice) :=
  let login : Op := .authenticate ⟨"192.0.2.7".toList, none⟩ ⟨ada, ⟨1⟩, signature⟩
  let go (i n : ℕ) : List (Action Op Choice) := List.replicate n (.step i (fine newYear ⟨1⟩))
  whole (register "ada".toList ada adaKey) 0 3 newYear ⟨1⟩ ++
    whole (.requestChallenge ⟨"192.0.2.7".toList, none⟩ ada) 1 6 newYear ⟨1⟩ ++
    .call login :: .call login :: .call (register "bob".toList bob bobKey) ::
      (go 2 5 ++ go 3 5 ++ go 2 1 ++ go 4 2)

lemma contended_waits : (((service deployment).start (World.init .empty newYear)).take
    contended).map (fun s => (s.world.writer.map Prod.fst, connections s, inProgress s,
      s.world.drawn.length, s.threads.length)) = some (some 2, 2, 3, 1, 5) := by
  decide +kernel

/-- Once the first login has committed, the update of the second one fails. -/
example : (((service deployment).start (World.init .empty newYear)).take
    (contended ++ [.step 2 (fine newYear ⟨1⟩)])).map (fun s => (outdated 3 s.log,
      s.threads[3]?.map fun t => t.past.length)) = some (true, some 5) := by
  decide +kernel

end Known

theorem no_deadlock_contended : ∃ s s' : Service Known.deployment, s.world.writer ≠ none ∧
    inProgress s = 3 ∧ Reach (Smooth (fun s i => outdated i s.log) 4) s s' ∧
      (∀ i, s.Running i → ∃ r, .respond i r ∈ s'.log) ∧ (∀ i, ¬ s'.Running i) ∧
      s'.world.writer = none := by
  obtain ⟨s, hs, hwaits⟩ := Option.map_eq_some_iff.mp Known.contended_waits
  simp only [Prod.mk.injEq] at hwaits
  obtain ⟨hwriter, -, hprogress, hdrawn, hthreads⟩ := hwaits
  obtain ⟨s', h⟩ := no_deadlock (fun s i => outdated i s.log) (show 0 < 4 by decide)
    (reachable_of_take hs) (by rw [hdrawn, hthreads]; decide)
  refine ⟨s, s', fun hnone => ?_, hprogress, h⟩
  rw [hnone] at hwriter
  cases hwriter

end TittyBackend
