import TittyBackend.Provenance
import TittyBackend.Sequential

/-!
# The registry

Every stored account is well formed, and what a registration answered is what every later query
answers.
-/

namespace TittyBackend

open Numerals Programs Programs.System Resolver

variable {D : Deployment} {P : Service D → Action Op Choice → Prop} {d₀ : Db} {t₀ : ℤ}
  {s : Service D}

/-! ### Well-formed accounts -/

structure WellFormed (D : Deployment) (d : Db) : Prop where
  key : ∀ a ∈ d.accounts.rows, a.publicKey.length = 32
  accountId : ∀ a ∈ d.accounts.rows,
    a.accountId = "acct_".toList ++ hexEncode (D.sha256 a.publicKey)
  name : ∀ a ∈ d.accounts.rows, normaliseIdentitty a.identitty = .ok a.identitty
  distinct : d.accounts.rows.Pairwise fun a b =>
    a.accountId ≠ b.accountId ∧ ¬ nocase a.identitty b.identitty ∧ a.publicKey ≠ b.publicKey

theorem wellFormed (h : Reach P ((service D).start (World.init .empty t₀)) s) :
    WellFormed D s.world.db := by
  have hreg := (provenance h).accounts
  refine ⟨fun a ha => ?_, fun a ha => ?_, fun a ha => ?_, ?_⟩
  · obtain ⟨j, ctx, input, t, -, hr, -, -⟩ := hreg a ha
    exact hr.key_length
  · obtain ⟨j, ctx, input, t, -, hr, -, -⟩ := hreg a ha
    exact hr.accountId
  · obtain ⟨j, ctx, input, t, -, hr, -, -⟩ := hreg a ha
    exact normaliseIdentitty_idem hr.name
  · refine s.world.db.accounts.distinct.imp fun {a b} hab => ?_
    simpa only [AccountRow.Clash, not_or] using hab

/-! ### What the queries show -/

/-- The answers that show the identity `x`. -/
inductive Shows (x : AccountIdentity) : Op → Answer → Prop
  | account {value : Text} (h : normaliseIdentitty value = .ok x.identitty) :
      Shows x (.account value) (.identity? (some x))
  | accountById : Shows x (.accountById x.accountId) (.identity? (some x))
  | me {ctx : Context} (h : ctx.account = some x.accountId) :
      Shows x (.me ctx) (.identity? (some x))
  | taken {value : Text} (h : normaliseIdentitty value = .ok x.identitty) :
      Shows x (.isIdentittyAvailable value) (.flag false)

/-- The row that a registration stored for the identity `x`. -/
structure RowOf (x : AccountIdentity) (d : Db) (r : AccountRow) : Prop where
  stored : r ∈ d.accounts.rows
  accountId : r.accountId = x.accountId
  identitty : r.identitty = x.identitty
  toIdentity : r.toIdentity = .ok x

lemma RowOf.byIdentitty {x : AccountIdentity} {d : Db} {r : AccountRow} (h : RowOf x d r) :
    d.accountByIdentitty x.identitty = some r :=
  Relational.Table.find?_eq_some _ h.stored (by simp [nocase, h.identitty])
    fun b hb => .inr (.inl (by simpa [h.identitty] using hb))

lemma RowOf.byId {x : AccountIdentity} {d : Db} {r : AccountRow} (h : RowOf x d r) :
    d.accountById x.accountId = some r :=
  Relational.Table.find?_eq_some _ h.stored (by simp [h.accountId])
    fun b hb => .inl (by simpa [h.accountId] using hb)

/-- A query issues one statement and answers. If the statement fails the answer is `INTERNAL`; on
a database with the row of the identity the answer shows it. -/
lemma Shows.program {x : AccountIdentity} {op : Op} {y : Answer} (h : Shows x op y) :
    ∃ (q : Select) (f : Except SqlError q.Ans → Program Response),
      op.program D = .call (.select q) f ∧ (∀ a, ∃ r, f a = .ret r) ∧
      (∀ e, f (.error e) = .ret (.error (.api .internal))) ∧
      ∀ now d r, RowOf x d r → f (.ok (q.eval D now d)) = .ret (.ok y) := by
  have hfound : ∀ {d r}, RowOf x d r →
      (Answer.identity? <$> lift ((some r).mapM AccountRow.toIdentity) : Resolver Answer).run =
        .ret (.ok (.identity? (some x))) := by
    intro d r hr
    rw [Option.mapM_some, hr.toIdentity]
    rfl
  have hret : ∀ row : Option AccountRow, ∃ r,
      (Answer.identity? <$> lift (row.mapM AccountRow.toIdentity) : Resolver Answer).run =
        .ret r := fun row => by
    cases row.mapM AccountRow.toIdentity <;> exact ⟨_, rfl⟩
  cases h with
  | @account value hv =>
    have hp : Op.program D (.account value) =
        (.identity? <$> findAccount "identitty".toList x.identitty : Resolver Answer).run := by
      simp only [Op.program, Op.resolver, TittyBackend.account, hv]
      rfl
    refine ⟨.accountByIdentitty x.identitty, _, hp, fun a => ?_, fun e => rfl, fun now d r hr => ?_⟩
    · cases a with
      | error e => exact ⟨_, rfl⟩
      | ok row => exact hret row
    · rw [Select.eval, hr.byIdentitty]
      exact hfound hr
  | accountById =>
    refine ⟨.accountById x.accountId, _, rfl, fun a => ?_, fun e => rfl, fun now d r hr => ?_⟩
    · cases a with
      | error e => exact ⟨_, rfl⟩
      | ok row => exact hret row
    · rw [Select.eval, hr.byId]
      exact hfound hr
  | @me ctx hctx =>
    have hp : Op.program D (.me ctx) =
        (.identity? <$> findAccount "account_id".toList x.accountId : Resolver Answer).run := by
      simp only [Op.program, Op.resolver, TittyBackend.me, authenticated, hctx]
      rfl
    refine ⟨.accountById x.accountId, _, hp, fun a => ?_, fun e => rfl, fun now d r hr => ?_⟩
    · cases a with
      | error e => exact ⟨_, rfl⟩
      | ok row => exact hret row
    · rw [Select.eval, hr.byId]
      exact hfound hr
  | @taken value hv =>
    have hp : Op.program D (.isIdentittyAvailable value) = (.flag <$> (do
        let found ← fetch (.identittyExists x.identitty)
        return !found) : Resolver Answer).run := by
      simp only [Op.program, Op.resolver, isIdentittyAvailable, hv]
      rfl
    refine ⟨.identittyExists x.identitty, _, hp, fun a => ?_, fun e => rfl, fun now d r hr => ?_⟩
    · cases a <;> exact ⟨_, rfl⟩
    · have hany : Select.eval D now d (.identittyExists x.identitty) = true :=
        List.any_eq_true.mpr ⟨r, hr.stored, by simp [nocase, hr.identitty]⟩
      rw [hany]
      rfl

/-! ### Registrations last -/

/-- The identity `x` is the one that registration `i` asks for, created when it read the clock. -/
structure Identifies (D : Deployment) (l : Log) (i : ℕ) (input : RegisterAccountInput)
    (x : AccountIdentity) : Prop where
  identitty : normaliseIdentitty input.identitty = .ok x.identitty
  accountId : x.accountId = input.accountId
  publicKey : ∃ key, Base64.decode input.publicKey = some key ∧
    fromPublicKey D.sha256 key = x.accountId ∧ x.publicKey = Base64.encode key
  createdAt : .exec i ⟨.now, x.createdAt⟩ ∈ l

/-- A registration that answers has stored its row. -/
lemma row_of_identity (h : Reach (Readings InEra) ((service D).start (World.init d₀ t₀)) s) {i : ℕ}
    {x : AccountIdentity} (hx : .respond i (.ok (.identity x)) ∈ s.log) :
    ∃ ctx input r n, .call i (.registerAccount ctx input) ∈ s.log ∧
      Identifies D s.log i input x ∧ .exec i ⟨.execute (.insertAccount r), .ok n⟩ ∈ s.log ∧
      RowOf x s.world.db r := by
  obtain ⟨post, pre, hlog⟩ := List.append_of_mem hx
  obtain ⟨op, hc, hret⟩ := h.log_respond (scripted D) hlog
  obtain ⟨ctx, input, r, t, n, rfl, hr, rfl, hpast⟩ := hret
  have hl : pre ⊆ s.log := by
    rw [hlog]
    exact fun e he => List.mem_append_right _ (List.mem_cons_of_mem _ he)
  have hins : .exec i ⟨.execute (.insertAccount r), .ok n⟩ ∈ s.log :=
    hl (mem_own.mp (by simp [hpast]))
  have hnow : .exec i ⟨.now, t⟩ ∈ s.log := hl (mem_own.mp (by simp [hpast]))
  have hx : Identifies D s.log i input ⟨r.accountId, r.identitty, Base64.encode r.publicKey, t⟩ :=
    ⟨hr.name, hr.accountId_input, ⟨r.publicKey, hr.key, hr.accountId.symm, rfl⟩, hnow⟩
  refine ⟨ctx, input, r, n, hl hc, hx, hins, account_stays h hins, rfl, rfl, ?_⟩
  rw [AccountRow.toIdentity, hr.createdAt, parseDatetime, parse_toRfc3339 (reading_of_now h hnow)]
  rfl

/-- Two insertions of accounts with one name are one insertion. -/
lemma registered_once (h : Reach P ((service D).start (World.init d₀ t₀)) s) {i i' n n' : ℕ}
    {r r' : AccountRow} (hr : .exec i ⟨.execute (.insertAccount r), .ok n⟩ ∈ s.log)
    (hr' : .exec i' ⟨.execute (.insertAccount r'), .ok n'⟩ ∈ s.log)
    (hname : r.identitty = r'.identitty) : i = i' := by
  have hbefore : ∀ {i i' n n' : ℕ} {r r' : AccountRow} {post pre : Log},
      s.log = post ++ .exec i ⟨.execute (.insertAccount r), .ok n⟩ :: pre →
        r.identitty = r'.identitty →
          .exec i' ⟨.execute (.insertAccount r'), .ok n'⟩ ∉ pre := by
    intro i i' n n' r r' post pre hlog hname hm
    obtain ⟨s₁, s₂, ch, h₁, rfl, -, -, -, -, -, heff, -⟩ := exec_of_log h hlog
    generalize s₂.world = w at heff
    cases heff with
    | quiet l hq ht => exact hq
    | write hu hw =>
      exact Write.fresh_of_insertAccount hu _ (account_stays h₁ hm)
        (.inr (.inl (by simp [nocase, hname])))
    | release he => rcases he with he | ⟨x, he⟩ <;> cases he
  obtain ⟨post, pre, hlog⟩ := List.append_of_mem hr
  have hmem := hr'
  rw [hlog, List.mem_append, List.mem_cons] at hmem
  rcases hmem with hpost | heq | hpre
  · obtain ⟨a, b, rfl⟩ := List.append_of_mem hpost
    have hno := @hbefore _ i _ n _ _ _ _ (hlog.trans (List.append_assoc a _ _)) hname.symm
    exact absurd (List.mem_append_right _ List.mem_cons_self) hno
  · cases heq
    rfl
  · exact absurd hpre (hbefore hlog hname)

/-- Run alone, with no failure, the operation gives the answer. -/
def AnswersAlone (s : Service D) (op : Op) (y : Answer) : Prop :=
  ∀ ch : Choice, ch.fails = false → s.world.clock ≤ ch.reading → s.world.instant ≤ ch.instant →
    ∃ w', (service D).Plays s.threads.length (op.program D) s.world [ch] (.ok y) w'

lemma Shows.answersAlone {x : AccountIdentity} {op : Op} {y : Answer} {r : AccountRow}
    (h : Shows x op y) (hr : RowOf x s.world.db r) : AnswersAlone s op y := by
  intro ch hf hclock hinstant
  obtain ⟨q, f, hp, -, -, hok⟩ := h.program (D := D)
  have hen : Command.enabled s.threads.length (.select q) ch s.world = true := by
    simp [Command.enabled, hclock, hinstant]
  refine ⟨s.world.tick ch, hp ▸ .call hen ?_⟩
  simp only [service, Command.exec, hf]
  exact hok ch.reading s.world.db r hr ▸ .ret _ _

/-- What a registration answered is what a query that starts later answers. -/
lemma Shows.answers {x : AccountIdentity} {op : Op} {y : Answer} (hshow : Shows x op y)
    (h : Reach (Readings InEra) ((service D).start (World.init d₀ t₀)) s)
    {post mid pre : Log} {i k : ℕ}
    {r : Response} (hlog : s.log = post ++ .respond k r :: (mid ++ .call k op :: pre))
    (hx : .respond i (.ok (.identity x)) ∈ pre) :
    r = .ok y ∨ r = .error (.api .internal) ∧ ∃ q e, .exec k ⟨.select q, .error e⟩ ∈ mid := by
  obtain ⟨q, f, hp, hret, herr, hok⟩ := hshow.program (D := D)
  -- The query has seen the answer to its one statement.
  have hkeeps : ∀ op', ((service D).program op').Keeps (fun _ _ => True)
      (fun past r => op' = op → ∃ a, past = [⟨.select q, a⟩] ∧ f a = .ret r) [] := by
    intro op'
    by_cases hop : op' = op
    · subst hop
      show (op'.program D).Keeps _ _ _
      rw [hp]
      refine ⟨trivial, fun a => ?_⟩
      obtain ⟨r, hr⟩ := hret a
      rw [hr]
      exact fun _ => ⟨a, rfl, hr⟩
    · exact Prog.keeps_of_forall _ (fun _ _ => trivial) fun _ _ h => absurd h hop
  obtain ⟨op', hop, hret'⟩ := h.log_respond hkeeps hlog
  have hl : mid ++ .call k op :: pre ⊆ s.log := by
    rw [hlog]
    exact fun e he => List.mem_append_right _ (List.mem_cons_of_mem _ he)
  have hcall : .call k op ∈ mid ++ .call k op :: pre := List.mem_append_right _ List.mem_cons_self
  obtain ⟨a, hpast, hfa⟩ := hret' (h.logged.call_unique (hl hop) (hl hcall))
  have hlog' : s.log = (post ++ .respond k r :: mid) ++ .call k op :: pre := by
    simp only [hlog, List.append_assoc, List.cons_append]
  have hbefore : own k pre = [] := h.before_call hlog'
  rw [own_append, own, hbefore, List.append_nil] at hpast
  have hmid : .exec k ⟨.select q, a⟩ ∈ mid := mem_own.mp (by simp [hpast])
  cases a with
  | error e =>
    rw [herr] at hfa
    exact .inr ⟨(Prog.ret.inj hfa).symm, q, e, hmid⟩
  | ok a =>
    obtain ⟨b, c, rfl⟩ := List.append_of_mem hmid
    have hlog'' : s.log = (post ++ .respond k r :: b) ++ .exec k ⟨.select q, .ok a⟩ ::
        (c ++ .call k op :: pre) := by
      simp only [hlog, List.append_assoc, List.cons_append]
    obtain ⟨s₁, _, ch, h₁, hl₁, -, -, -, -, -, heff, -⟩ := exec_of_log h hlog''
    have hx₁ : .respond i (.ok (.identity x)) ∈ s₁.log := by
      rw [hl₁]
      exact List.mem_append_right _ (List.mem_cons_of_mem _ hx)
    obtain ⟨_, _, row, _, -, -, -, hrow⟩ := row_of_identity h₁ hx₁
    have ha : a = q.eval D ch.reading s₁.world.db := heff.truthful trivial
    rw [ha, hok _ _ row hrow] at hfa
    exact .inl (Prog.ret.inj hfa).symm

/-- Every reachable state has well-formed accounts; a registration answers the identity it asked
for; whatever it has answered stays and is what every query shows; of the registrations of one name,
one succeeds. -/
theorem registry_integrity
    (h : Reach (Readings InEra) ((service D).start (World.init .empty t₀)) s) :
    WellFormed D s.world.db ∧
    (∀ i ctx input x, .call i (.registerAccount ctx input) ∈ s.log →
      .respond i (.ok (.identity x)) ∈ s.log → Identifies D s.log i input x) ∧
    (∀ i x, .respond i (.ok (.identity x)) ∈ s.log →
      ∀ op y, Shows x op y → AnswersAlone s op y) ∧
    (∀ post mid pre i x k op y r, s.log = post ++ .respond k r :: (mid ++ .call k op :: pre) →
      .respond i (.ok (.identity x)) ∈ pre → Shows x op y →
        r = .ok y ∨ r = .error (.api .internal) ∧ ∃ q e, .exec k ⟨.select q, .error e⟩ ∈ mid) ∧
    ∀ i i' ctx ctx' input input' x x', .call i (.registerAccount ctx input) ∈ s.log →
      .call i' (.registerAccount ctx' input') ∈ s.log →
      normaliseIdentitty input.identitty = normaliseIdentitty input'.identitty →
      .respond i (.ok (.identity x)) ∈ s.log → .respond i' (.ok (.identity x')) ∈ s.log →
        i = i' := by
  refine ⟨wellFormed h, fun i ctx input x hc hx => ?_, fun i x hx op y hshow => ?_,
    fun post mid pre i x k op y r hlog hx hshow => hshow.answers h hlog hx,
    fun i i' ctx ctx' input input' x x' hc hc' hname hx hx' => ?_⟩
  · obtain ⟨_, _, _, _, hcall, hid, -, -⟩ := row_of_identity h hx
    cases h.logged.call_unique hc hcall
    exact hid
  · obtain ⟨_, _, r, _, -, -, -, hr⟩ := row_of_identity h hx
    exact hshow.answersAlone hr
  · obtain ⟨_, _, r, n, hcall, hid, hins, hr⟩ := row_of_identity h hx
    obtain ⟨_, _, r', n', hcall', hid', hins', hr'⟩ := row_of_identity h hx'
    cases h.logged.call_unique hc hcall
    cases h.logged.call_unique hc' hcall'
    rw [hid.identitty, hid'.identitty] at hname
    exact registered_once h hins hins'
      (hr.identitty.trans ((Except.ok.inj hname).trans hr'.identitty.symm))

namespace Known

lemma register_answers :
    (((service deployment).start (World.init .empty newYear)).take
      (whole (register "ada".toList ada adaKey) 0 3 newYear ⟨0⟩)).map (fun s => s.log.head?.bind
        Event.seen?) = some (some (.respond 0 (.ok (.identity
          ⟨ada, "ada".toList, Base64.encode adaKey, newYear⟩)))) := by
  decide +kernel

end Known

open Known in
theorem registry_integrity_register : ∃ s : Service Known.deployment,
    AnswersAlone s (.account " Ada ".toList) (.identity? (some
      ⟨Known.ada, "ada".toList, Base64.encode Known.adaKey, Known.newYear⟩)) ∧
      AnswersAlone s (.isIdentittyAvailable "ADA".toList) (.flag false) := by
  obtain ⟨s, hs, hans⟩ := Option.map_eq_some_iff.mp Known.register_answers
  obtain ⟨e, he, hseen⟩ := Option.bind_eq_some_iff.mp hans
  obtain rfl := seen?_eq_some.mp hseen
  have hinEra : ∀ a ∈ whole (register "ada".toList ada adaKey) 0 3 newYear ⟨0⟩,
      Reading InEra a := by
    decide
  have h := registry_integrity (Reach.refl.take (fun a ha _ => hinEra a ha) hs)
  exact ⟨s, h.2.2.1 0 _ (List.mem_of_head? he) _ _ (.account (by decide)),
    h.2.2.1 0 _ (List.mem_of_head? he) _ _ (.taken (by decide))⟩

/-! ### Registration and availability -/

/-- The registration is well formed: this is its name, and this its key. -/
structure RegisterAccountInput.Valid (D : Deployment) (input : RegisterAccountInput) (name : Text)
    (key : List UInt8) : Prop where
  identitty : normaliseIdentitty input.identitty = .ok name
  publicKey : Base64.decode input.publicKey = some key
  length : key.length = 32
  accountId : fromPublicKey D.sha256 key = input.accountId

def Db.NameTaken (d : Db) (name : Text) : Prop := ∃ a ∈ d.accounts.rows, nocase a.identitty name

/-- The account id or the key has an account. -/
def Db.KeyTaken (d : Db) (accountId : Text) (key : List UInt8) : Prop :=
  ∃ a ∈ d.accounts.rows, a.accountId = accountId ∨ a.publicKey = key

instance (d : Db) (name : Text) : Decidable (d.NameTaken name) :=
  inferInstanceAs (Decidable (∃ a ∈ d.accounts.rows, nocase a.identitty name))

instance (d : Db) (accountId : Text) (key : List UInt8) : Decidable (d.KeyTaken accountId key) :=
  inferInstanceAs (Decidable (∃ a ∈ d.accounts.rows, a.accountId = accountId ∨ a.publicKey = key))

lemma fresh_account_iff {d : Db} {r : AccountRow} :
    d.accounts.Fresh r ↔ ¬ d.NameTaken r.identitty ∧ ¬ d.KeyTaken r.accountId r.publicKey := by
  simp only [Relational.Table.Fresh, AccountRow.Clash, Db.NameTaken, Db.KeyTaken, not_exists,
    not_and,
    not_or, ← forall_and]
  exact forall_congr' fun a => by tauto

/-- A registration that nothing but a constraint stops answers that the name is taken if the name or
the key is. -/
lemma register_answer {input : RegisterAccountInput} {ctx : Context} {name : Text}
    {key : List UInt8} (hv : input.Valid D name key) {w w' : World} {i : ℕ} {chs : List Choice}
    {r : Response} (h : (service D).Plays i (Op.program D (.registerAccount ctx input)) w chs r w')
    (hfine : ∀ ch ∈ chs, ch.fails = false) (hadmitted : r ≠ .error (.api .rateLimited)) :
    (r = .error (.api .identittyTaken) ∧
      (w.db.NameTaken name ∨ w.db.KeyTaken input.accountId key)) ∨
      (∃ x, r = .ok (.identity x)) ∧ ¬ w.db.NameTaken name ∧
        ¬ w.db.KeyTaken input.accountId key := by
  refine h.of_wp (Q := fun r x => (∀ ch ∈ x.2, ch.fails = false) → r ≠ .error (.api .rateLimited) →
    (r = .error (.api .identittyTaken) ∧
      (w.db.NameTaken name ∨ w.db.KeyTaken input.accountId key)) ∨
      (∃ x, r = .ok (.identity x)) ∧ ¬ w.db.NameTaken name ∧ ¬ w.db.KeyTaken input.accountId key)
    ?_ hfine hadmitted
  simp only [Op.program, Op.resolver, registerAccount, wp_map, wp_bind, alone_enforce, hv.identitty,
    lift_ok, hv.publicKey, orFail_some, hv.length, hv.accountId, ne_eq, not_true_eq_false,
    wp_refuse,
    not_false_eq_true, false_implies, true_implies, true_and, alone_now, alone_attempt, wp_pure]
  refine fun c₀ _ => ⟨fun _ c₁ _ c₂ _ => ⟨fun hf hfine => ?_, fun _ => ⟨fun e he => ?_,
    fun n d hu _ _ => ?_⟩⟩, fun _ _ hno => absurd rfl hno⟩
  · rw [hfine c₂ (by simp)] at hf
    cases hf
  · obtain ⟨rfl, hclash⟩ := Write.error_of_insertAccount he
    rw [fresh_account_iff, ← not_or, not_not] at hclash
    exact fun _ _ => .inl ⟨rfl, hclash⟩
  · exact .inr ⟨⟨_, rfl⟩, fresh_account_iff.mp (Write.fresh_of_insertAccount hu)⟩

lemma isIdentittyAvailable_program {value name : Text} (hv : normaliseIdentitty value = .ok name) :
    Op.program D (.isIdentittyAvailable value) =
      .call (.select (.identittyExists name)) fun x =>
        .ret ((x.mapError fun _ => .api .internal).map fun found => .flag !found) := by
  simp only [Op.program, Op.resolver, isIdentittyAvailable, hv]
  refine congrArg (Prog.call _) (funext fun x => ?_)
  cases x <;> rfl

/-- What the query answers when no statement fails. -/
lemma answersAlone_available {value name : Text} (hv : normaliseIdentitty value = .ok name)
    {b : Bool} : AnswersAlone s (.isIdentittyAvailable value) (.flag b) ↔
      (b = false ↔ s.world.db.NameTaken name) := by
  have heval : ∀ now, Select.eval D now s.world.db (.identittyExists name) = true ↔
      s.world.db.NameTaken name := fun now => by
    simp [Select.eval, Db.NameTaken]
  constructor
  · intro h
    -- A choice at which the clocks stand still.
    obtain ⟨w', hp⟩ :=
      h ⟨s.world.clock, s.world.instant, false, ⟨0⟩, List.Vector.replicate 32 0⟩ rfl
      le_rfl le_rfl
    rw [isIdentittyAvailable_program hv, plays_call] at hp
    obtain ⟨ch, chs, hchs, -, hp⟩ := hp
    obtain ⟨rfl, rfl⟩ := List.cons.inj hchs
    obtain ⟨-, hb, -⟩ := plays_ret.mp hp
    have hb : b = !Select.eval D s.world.clock s.world.db (.identittyExists name) :=
      Answer.flag.inj (Except.ok.inj hb)
    rw [hb, ← heval s.world.clock, Bool.not_eq_false']
  · intro hb ch hf hclock hinstant
    refine ⟨s.world.tick ch, ?_⟩
    rw [isIdentittyAvailable_program hv]
    have hen :
        Command.enabled s.threads.length (.select (.identittyExists name)) ch s.world = true := by
      simp [Command.enabled, hclock, hinstant]
    have heq : b = !Select.eval D ch.reading s.world.db (.identittyExists name) := by
      rw [Bool.eq_iff_iff, Bool.not_eq_true', ← Bool.not_eq_true, heval, ← hb, Bool.not_eq_false]
    refine .call hen ?_
    simp only [service, Command.exec, hf]
    exact heq ▸ .ret _ _

/-- In every state a well-formed registration that nothing but a constraint stops says that its name
is taken exactly when the query says so, unless the account id or the key is registered under
another name. It succeeds only if the query says that the name is available. -/
theorem registration_agrees_iff {input : RegisterAccountInput} {ctx : Context} {name : Text}
    {key : List UInt8} (hv : input.Valid D name key) {w' : World} {chs : List Choice}
    {r : Response} (hp : (service D).Plays s.threads.length
      (Op.program D (.registerAccount ctx input)) s.world chs
      r w') (hfine : ∀ ch ∈ chs, ch.fails = false) (hadmitted : r ≠ .error (.api .rateLimited)) :
    ((r = .error (.api .identittyTaken) ↔
        AnswersAlone s (.isIdentittyAvailable input.identitty) (.flag false)) ↔
      (s.world.db.KeyTaken input.accountId key → s.world.db.NameTaken name)) ∧
    ((∃ x, r = .ok (.identity x)) →
      AnswersAlone s (.isIdentittyAvailable input.identitty) (.flag true)) := by
  rw [answersAlone_available hv.identitty, answersAlone_available hv.identitty]
  rcases register_answer hv hp hfine hadmitted with ⟨rfl, htaken⟩ | ⟨⟨x, rfl⟩, hname, hkey⟩
  · simp only [true_iff, reduceCtorEq, exists_false, false_implies, and_true]
    exact ⟨fun hname _ => hname, fun himp => htaken.elim id himp⟩
  · simp [hname, hkey]

namespace Known

/-- Ada is registered; then somebody registers a name with a key. -/
def afterAda (name accountId : Text) (key : List UInt8) : Option (Response × Bool × Bool) :=
  (((service deployment).start (World.init .empty newYear)).take
    (whole (register "ada".toList ada adaKey) 0 3 newYear ⟨0⟩)).bind fun s =>
      ((service deployment).play s.threads.length
        (Op.program deployment (register name accountId key))
        s.world (List.replicate 3 (fine newYear ⟨0⟩))).map fun x =>
          (x.1, decide (s.world.db.NameTaken name), decide (s.world.db.KeyTaken accountId key))

lemma afterAda_eve : afterAda "eve".toList ada adaKey =
    some (.error (.api .identittyTaken), false, true) := by
  decide +kernel

lemma afterAda_bob : afterAda "bob".toList bob bobKey = some
    (.ok (.identity ⟨bob, "bob".toList, Base64.encode bobKey, newYear⟩), false, false) := by
  decide +kernel

lemma afterAda_cases {name accountId : Text} {key : List UInt8} {r : Response} {b c : Bool}
    (h : afterAda name accountId key = some (r, b, c)) : ∃ (s : Service deployment) (w' : World),
      Reach (fun _ _ => True) ((service deployment).start (World.init .empty newYear)) s ∧
      (service deployment).Plays s.threads.length
        (Op.program deployment (register name accountId key)) s.world
        (List.replicate 3 (fine newYear ⟨0⟩)) r w' ∧
      (b = true ↔ s.world.db.NameTaken name) ∧ (c = true ↔ s.world.db.KeyTaken accountId key) := by
  obtain ⟨s, hs, hx⟩ := Option.bind_eq_some_iff.mp h
  obtain ⟨⟨r', w'⟩, hplay, hx⟩ := Option.map_eq_some_iff.mp hx
  simp only [Prod.mk.injEq] at hx
  obtain ⟨rfl, rfl, rfl⟩ := hx
  exact ⟨s, w', reachable_of_take hs, plays_of_play hplay, decide_eq_true_iff, decide_eq_true_iff⟩

end Known

open Known in
/-- Ada's key under another name: the name is said to be taken, and available. -/
theorem registration_disagrees : ∃ (s : Service deployment) (w' : World),
    Reach (fun _ _ => True) ((service deployment).start (World.init .empty newYear)) s ∧
      (service deployment).Plays s.threads.length
        (Op.program deployment (register "eve".toList ada adaKey)) s.world
        (List.replicate 3 (fine newYear ⟨0⟩)) (.error (.api .identittyTaken)) w' ∧
      ¬ AnswersAlone s (.isIdentittyAvailable "eve".toList) (.flag false) ∧
      AnswersAlone s (.isIdentittyAvailable "eve".toList) (.flag true) := by
  obtain ⟨s, w', hreach, hplays, hname, -⟩ := afterAda_cases afterAda_eve
  have hfree : ¬ s.world.db.NameTaken "eve".toList := mt hname.mpr Bool.false_ne_true
  have hv : normaliseIdentitty "eve".toList = .ok "eve".toList := by decide
  refine ⟨s, w', hreach, hplays, ?_, ?_⟩
  · rw [answersAlone_available hv]
    simpa using hfree
  · rw [answersAlone_available hv]
    simpa using hfree

open Known in
theorem registration_agrees_bob : ∃ s : Service deployment,
    AnswersAlone s (.isIdentittyAvailable "bob".toList) (.flag true) ∧
      ¬ AnswersAlone s (.isIdentittyAvailable "bob".toList) (.flag false) := by
  obtain ⟨s, w', -, hplays, -, hkey⟩ := afterAda_cases afterAda_bob
  have hvalid : (RegisterAccountInput.mk "bob".toList bob (Base64.encode bobKey)).Valid deployment
      "bob".toList bobKey := ⟨by decide, Base64.decode_encode _, by decide, by decide +kernel⟩
  have hagree := registration_agrees_iff hvalid hplays
    (fun ch hch => List.eq_of_mem_replicate hch ▸ rfl) (by simp)
  refine ⟨s, hagree.2 ⟨_, rfl⟩, fun htaken => ?_⟩
  have herror := (hagree.1.mpr fun hk => absurd (hkey.mpr hk) Bool.false_ne_true).mpr htaken
  cases herror

end TittyBackend
