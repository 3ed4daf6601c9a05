import TittyBackend.Lib.Linear
import TittyBackend.Registry

/-!
# The registry as one directory

Registrations and look-ups that run at the same time, and with everything else, answer as if they
had come one after the other to a directory of identities, in an order that keeps that of the
operations that do not overlap.
-/

namespace TittyBackend

open Numerals Programs Programs.System Resolver

variable {D : Deployment} {P : Service D → Action Op Choice → Prop} {d₀ : Db} {t₀ : ℤ}
  {s : Service D}

/-! ### The directory -/

/-- The identities that have been registered, in order. -/
abbrev Directory := List AccountIdentity

namespace Directory

variable (d : Directory)

def named (name : Text) : Option AccountIdentity := d.find? fun x => x.identitty = name

def byId (accountId : Text) : Option AccountIdentity := d.find? fun x => x.accountId = accountId

/-- Nobody has the name, the id or the key of `x`. -/
def Free (x : AccountIdentity) : Prop :=
  ∀ y ∈ d, y.identitty ≠ x.identitty ∧ y.accountId ≠ x.accountId ∧ y.publicKey ≠ x.publicKey

end Directory

/-- The input asks for the identity. -/
def RegisterAccountInput.Names (D : Deployment) (input : RegisterAccountInput)
    (x : AccountIdentity) : Prop :=
  ∃ key, input.Valid D x.identitty key ∧ x.accountId = input.accountId ∧
    x.publicKey = Base64.encode key

/-- The failures of an operation for which the directory does not matter. -/
inductive Op.Declines (D : Deployment) : Op → Failure → Prop
  | internal {op : Op} : Declines D op (.api .internal)
  | rateLimited {ctx : Context} {input : RegisterAccountInput} :
      Declines D (.registerAccount ctx input) (.api .rateLimited)
  | unnamed {ctx : Context} {input : RegisterAccountInput}
      (h : normaliseIdentitty input.identitty = .error .invalidIdentitty) :
      Declines D (.registerAccount ctx input) (.api .invalidIdentitty)
  | invalid {ctx : Context} {input : RegisterAccountInput}
      (h : ∀ name key, ¬ input.Valid D name key) :
      Declines D (.registerAccount ctx input) (.api .invalidRegistration)
  | available {value : Text} (h : normaliseIdentitty value = .error .invalidIdentitty) :
      Declines D (.isIdentittyAvailable value) (.api .invalidIdentitty)
  | account {value : Text} (h : normaliseIdentitty value = .error .invalidIdentitty) :
      Declines D (.account value) (.api .invalidIdentitty)
  | me {ctx : Context} (h : ctx.account = none) : Declines D (.me ctx) (.api .unauthorized)

/-- What an operation may answer on a directory, and the directory after it. -/
inductive Directory.Allows (D : Deployment) : Op → Response → Directory → Directory → Prop
  | register {ctx : Context} {input : RegisterAccountInput} {x : AccountIdentity} {d : Directory}
      (hx : input.Names D x) (hfree : d.Free x) :
      Allows D (.registerAccount ctx input) (.ok (.identity x)) d (d ++ [x])
  | taken {ctx : Context} {input : RegisterAccountInput} {x : AccountIdentity} {d : Directory}
      (hx : input.Names D x) (htaken : ¬ d.Free x) :
      Allows D (.registerAccount ctx input) (.error (.api .identittyTaken)) d d
  | available {value name : Text} {d : Directory} (h : normaliseIdentitty value = .ok name) :
      Allows D (.isIdentittyAvailable value) (.ok (.flag (d.named name).isNone)) d d
  | account {value name : Text} {d : Directory} (h : normaliseIdentitty value = .ok name) :
      Allows D (.account value) (.ok (.identity? (d.named name))) d d
  | accountById {accountId : Text} {d : Directory} :
      Allows D (.accountById accountId) (.ok (.identity? (d.byId accountId))) d d
  | me {ctx : Context} {accountId : Text} {d : Directory} (h : ctx.account = some accountId) :
      Allows D (.me ctx) (.ok (.identity? (d.byId accountId))) d d
  | declined {op : Op} {e : Failure} {d : Directory} (h : op.Declines D e) :
      Allows D op (.error e) d d

/-- The operations that consult the directory. -/
def Op.Consults : Op → Prop
  | .registerAccount .. | .isIdentittyAvailable _ | .account _ | .accountById _ | .me _ => True
  | _ => False

/-- The directory that the database keeps. -/
def World.directory (w : World) : Directory :=
  w.db.accounts.rows.filterMap fun a => a.toIdentity.toOption

/-! ### The rows of the directory -/

lemma AccountRow.toIdentity_eq_ok {a : AccountRow} {x : AccountIdentity} :
    a.toIdentity = .ok x ↔ ∃ t, parseFromRfc3339 a.createdAt = some t ∧
      x = ⟨a.accountId, a.identitty, Base64.encode a.publicKey, t⟩ := by
  rw [toIdentity, parseDatetime]
  cases parseFromRfc3339 a.createdAt with
  | none => simp [bind, Except.bind]
  | some t => simp [bind, Except.bind, pure, Except.pure, eq_comm]

/-- The row is shown with a name that is its own normal form. -/
structure AccountRow.Presentable (a : AccountRow) : Prop where
  shown : ∃ x, a.toIdentity = .ok x
  name : normaliseIdentitty a.identitty = .ok a.identitty

theorem presentable (h : Reach (Readings InEra) ((service D).start (World.init .empty t₀)) s) :
    ∀ a ∈ s.world.db.accounts.rows, a.Presentable := by
  intro a ha
  obtain ⟨j, ctx, input, t, -, hr, hnow, -⟩ := (provenance h).accounts a ha
  refine ⟨⟨_, AccountRow.toIdentity_eq_ok.mpr ⟨t, ?_, rfl⟩⟩, (wellFormed h).name a ha⟩
  rw [hr.createdAt, parse_toRfc3339 (reading_of_now h hnow)]

/-- Normal names that are the same up to case are the same. -/
lemma nocase_iff {name name' : Text} (h : normaliseIdentitty name = .ok name)
    (h' : normaliseIdentitty name' = .ok name') : nocase name name' ↔ name = name' := by
  have lower {name : Text} (h : normaliseIdentitty name = .ok name) :
      toAsciiLowercase name = name :=
    toAsciiLowercase_of_isNameChar (List.all_eq_true.mp (normaliseIdentitty_eq_ok.mp h).2.2.2)
  rw [nocase, lower h, lower h']

lemma World.mem_directory {w : World} {x : AccountIdentity} :
    x ∈ w.directory ↔ ∃ a ∈ w.db.accounts.rows, a.toIdentity = .ok x := by
  rw [directory, List.mem_filterMap]
  refine exists_congr fun a => and_congr_right fun _ => ?_
  cases a.toIdentity <;> simp [Except.toOption]

/-- A row can be stored when its identity is free. -/
lemma free_iff {w : World} (hrows : ∀ a ∈ w.db.accounts.rows, a.Presentable) {r : AccountRow}
    (hr : normaliseIdentitty r.identitty = .ok r.identitty) (t : ℤ) :
    w.directory.Free ⟨r.accountId, r.identitty, Base64.encode r.publicKey, t⟩ ↔
      w.db.accounts.Fresh r := by
  have hkey : ∀ {k k' : List UInt8}, Base64.encode k = Base64.encode k' ↔ k = k' := by
    refine fun {k k'} => ⟨fun h => ?_, congrArg _⟩
    rw [← Option.some_inj, ← Base64.decode_encode k, h, Base64.decode_encode]
  -- The identity of a row clashes with the new one exactly when the row does.
  have hclash : ∀ a ∈ w.db.accounts.rows, ∀ y, a.toIdentity = .ok y →
      ((y.identitty ≠ r.identitty ∧ y.accountId ≠ r.accountId ∧
        y.publicKey ≠ Base64.encode r.publicKey) ↔ ¬ a.Clash r) := by
    intro a ha y hy
    obtain ⟨_, -, rfl⟩ := AccountRow.toIdentity_eq_ok.mp hy
    simp only [ne_eq, hkey, AccountRow.Clash, nocase_iff (hrows a ha).name hr]
    tauto
  constructor
  · intro h a ha
    obtain ⟨y, hy⟩ := (hrows a ha).shown
    exact (hclash a ha y hy).mp (h y (World.mem_directory.mpr ⟨a, ha, hy⟩))
  · intro h y hy
    obtain ⟨a, ha, hay⟩ := World.mem_directory.mp hy
    exact (hclash a ha y hay).mpr (h a ha)

section rows

variable {rows : List AccountRow} {p : AccountRow → Bool} {q : AccountIdentity → Bool}

lemma isNone_mapM {α β ε : Type} {f : α → Except ε β} {o : Option α} {o' : Option β}
    (h : o.mapM f = .ok o') : o'.isNone = o.isNone := by
  cases o with
  | none =>
    cases h
    rfl
  | some a =>
    rw [Option.mapM_some] at h
    cases hf : f a with
    | error e => rw [hf] at h; cases h
    | ok b => rw [hf] at h; cases h; rfl

/-- A row that is not shown is an internal error. -/
lemma mapM_toIdentity_error {row : Option AccountRow} {e : ApiError}
    (h : row.mapM AccountRow.toIdentity = .error e) : e = .internal := by
  cases row with
  | none => cases h
  | some a =>
    rw [Option.mapM_some, AccountRow.toIdentity, parseDatetime] at h
    cases hp : parseFromRfc3339 a.createdAt with
    | none => rw [hp] at h; cases h; rfl
    | some t => rw [hp] at h; cases h

/-- A row that is found is shown as what is found in the directory. -/
lemma find_shown (h : ∀ a ∈ rows, ∃ x, a.toIdentity = .ok x ∧ p a = q x) :
    (rows.find? p).mapM AccountRow.toIdentity =
      .ok ((rows.filterMap fun a => a.toIdentity.toOption).find? q) := by
  induction rows with
  | nil => rfl
  | cons a rows ih =>
    obtain ⟨⟨x, hx, hpq⟩, hrows⟩ := List.forall_mem_cons.mp h
    rw [List.filterMap_cons_some (by rw [hx]; rfl)]
    cases hq : q x with
    | true =>
      rw [List.find?_cons_of_pos (hpq.trans hq), List.find?_cons_of_pos hq, Option.mapM_some, hx]
      rfl
    | false =>
      rw [List.find?_cons_of_neg (by simp [hpq, hq]), List.find?_cons_of_neg (by simp [hq]),
        ih hrows]

end rows

section selects

variable {w : World} (hrows : ∀ a ∈ w.db.accounts.rows, a.Presentable)

include hrows

lemma accountById_shown (accountId : Text) :
    (w.db.accountById accountId).mapM AccountRow.toIdentity =
      .ok (w.directory.byId accountId) := by
  refine find_shown fun a ha => ?_
  obtain ⟨x, hx⟩ := (hrows a ha).shown
  obtain ⟨_, -, rfl⟩ := AccountRow.toIdentity_eq_ok.mp hx
  exact ⟨_, hx, rfl⟩

lemma accountByIdentitty_shown {value name : Text} (hname : normaliseIdentitty value = .ok name) :
    (w.db.accountByIdentitty name).mapM AccountRow.toIdentity =
      .ok (w.directory.named name) := by
  refine find_shown fun a ha => ?_
  obtain ⟨x, hx⟩ := (hrows a ha).shown
  obtain ⟨_, -, rfl⟩ := AccountRow.toIdentity_eq_ok.mp hx
  exact ⟨_, hx, decide_eq_decide.mpr
    (nocase_iff (hrows a ha).name (normaliseIdentitty_idem hname))⟩

lemma identittyExists_shown {value name : Text} (hname : normaliseIdentitty value = .ok name) :
    (!w.db.accounts.rows.any fun a => nocase a.identitty name) =
      (w.directory.named name).isNone := by
  rw [isNone_mapM (accountByIdentitty_shown hrows hname), Db.accountByIdentitty, Bool.eq_iff_iff]
  simp

end selects

/-! ### What an operation has seen when it answers -/

/-- The exchange that an answer of the directory rests on is the last one; a registration that fails
has stored nothing. -/
def Op.Consulted (D : Deployment) : Op → Past Command Command.Ans → Response → Prop
  | .registerAccount _ input, past, .ok y => ∃ row t n rest,
      past = ⟨.execute (.insertAccount row), .ok n⟩ :: rest ∧ ⟨.now, t⟩ ∈ rest ∧
      Registers D input row t ∧
      y = .identity ⟨row.accountId, row.identitty, Base64.encode row.publicKey, t⟩
  | .isIdentittyAvailable value, past, .ok y => ∃ name b, normaliseIdentitty value = .ok name ∧
      past = [⟨.select (.identittyExists name), .ok b⟩] ∧ y = .flag !b
  | .account value, past, .ok y => ∃ name row x, normaliseIdentitty value = .ok name ∧
      past = [⟨.select (.accountByIdentitty name), .ok row⟩] ∧
      row.mapM AccountRow.toIdentity = .ok x ∧ y = .identity? x
  | .accountById accountId, past, .ok y => ∃ row x,
      past = [⟨.select (.accountById accountId), .ok row⟩] ∧
      row.mapM AccountRow.toIdentity = .ok x ∧ y = .identity? x
  | .me ctx, past, .ok y => ∃ accountId row x, ctx.account = some accountId ∧
      past = [⟨.select (.accountById accountId), .ok row⟩] ∧
      row.mapM AccountRow.toIdentity = .ok x ∧ y = .identity? x
  | op, past, .error e => op.Consults →
      (∀ row n, ⟨.execute (.insertAccount row), .ok n⟩ ∉ past) ∧
      (op.Declines D e ∨ ∃ ctx input row t rest, op = .registerAccount ctx input ∧
        e = .api .identittyTaken ∧ past = ⟨.execute (.insertAccount row), .error .unique⟩ :: rest ∧
        Registers D input row t)
  | _, _, .ok _ => True

/-- A registration issues nothing after it has stored its account. -/
def Op.Ends (op : Op) (past : Past Command Command.Ans) (_ : Command) : Prop :=
  op.Consults → ∀ row x, ⟨.execute (.insertAccount row), x⟩ ∉ past

lemma Op.ends_of_forall {op : Op} {past : Past Command Command.Ans} {c : Command}
    (h : ∀ row x, ⟨.execute (.insertAccount row), x⟩ ∉ past) : op.Ends past c :=
  fun _ => h

lemma Op.consulted_error {op : Op} {past : Past Command Command.Ans} {e : Failure}
    (he : op.Declines D e) (h : ∀ row n, ⟨.execute (.insertAccount row), .ok n⟩ ∉ past) :
    op.Consulted D past (.error e) := by
  cases op <;> exact fun _ => ⟨h, .inl he⟩

lemma findAccount_byId (accountId : Text) : findAccount "account_id".toList accountId =
    (do
      let row ← fetch (.accountById accountId)
      lift (row.mapM AccountRow.toIdentity)) :=
  rfl

lemma register_consulted (ctx : Context) (input : RegisterAccountInput) :
    (Op.program D (.registerAccount ctx input)).Keeps (Op.Ends (.registerAccount ctx input))
      (Op.Consulted D (.registerAccount ctx input)) [] := by
  simp only [Op.program, Op.resolver, registerAccount, wp_map, wp_bind, keeps_enforce, wp_lift,
    wp_orFail, wp_refuse, keeps_now, keeps_attempt, Except.map]
  refine ⟨Op.ends_of_forall (by simp), ⟨⟨fun name hname => ⟨fun key hkey => ⟨fun hlen => ?_,
    fun hlen => ⟨fun hid => ?_, fun hid => ⟨?_, fun t => ⟨?_, fun x => ?_⟩⟩⟩⟩, fun hkey => ?_⟩,
    fun e he => ?_⟩, ?_⟩⟩
  · refine Op.consulted_error (.invalid fun name' key' hv => hlen ?_) (by simp)
    rw [← Option.some.inj (hv.publicKey.symm.trans hkey), hv.length]
  · refine Op.consulted_error (.invalid fun name' key' hv => hid ?_) (by simp)
    rw [← Option.some.inj (hv.publicKey.symm.trans hkey), hv.accountId]
  · exact Op.ends_of_forall (by simp)
  · exact Op.ends_of_forall (by simp)
  · have hr : Registers D input ⟨input.accountId, name, key, toRfc3339 t⟩ t :=
      ⟨hname, hkey, not_not.mp hlen, (not_not.mp hid).symm, rfl, rfl⟩
    have hfail : ∀ {past}, (∀ row n, ⟨.execute (.insertAccount row), .ok n⟩ ∉ past) →
        Op.Consulted D (.registerAccount ctx input) past (.error (.api .internal)) :=
      Op.consulted_error .internal
    rcases x with (_ | _ | _) | n
    case ok => exact ⟨_, t, n, _, rfl, List.mem_cons_self, hr, rfl⟩
    case error.unique => exact fun _ => ⟨by simp, .inr ⟨ctx, input, _, t, _, rfl, rfl, rfl, hr⟩⟩
    all_goals exact hfail (by simp)
  · refine Op.consulted_error (.invalid fun name' key' hv => ?_) (by simp)
    cases hkey.symm.trans hv.publicKey
  · obtain rfl := normaliseIdentitty_error he
    exact Op.consulted_error (.unnamed he) (by simp)
  · exact Op.consulted_error .rateLimited (by simp)

theorem consulted (op : Op) : (op.program D).Keeps op.Ends (op.Consulted D) [] := by
  cases op with
  | registerAccount ctx input => exact register_consulted ctx input
  | isIdentittyAvailable value =>
    simp only [Op.program, Op.resolver, isIdentittyAvailable, wp_map, wp_bind, wp_lift,
      keeps_fetch (.identittyExists _), wp_pure, Except.map]
    refine ⟨fun name hname => ⟨Op.ends_of_forall (by simp), fun b => ⟨name, b, hname, rfl, rfl⟩,
      fun e => Op.consulted_error .internal (by simp)⟩, fun e he => ?_⟩
    obtain rfl := normaliseIdentitty_error he
    exact Op.consulted_error (.available he) (by simp)
  | account value =>
    simp only [Op.program, Op.resolver, account, findAccount, wp_map, wp_bind, wp_lift,
      if_true, keeps_fetch (.accountByIdentitty _), Except.map]
    refine ⟨fun name hname => ⟨Op.ends_of_forall (by simp), fun row =>
      ⟨fun x hx => ⟨name, row, x, hname, rfl, hx, rfl⟩, fun e he => ?_⟩,
      fun e => Op.consulted_error .internal (by simp)⟩, fun e he => ?_⟩
    · obtain rfl := mapM_toIdentity_error he
      exact Op.consulted_error .internal (by simp)
    · obtain rfl := normaliseIdentitty_error he
      exact Op.consulted_error (.account he) (by simp)
  | accountById accountId =>
    simp only [Op.program, Op.resolver, accountById, findAccount_byId, wp_map, wp_bind, wp_lift,
      keeps_fetch (.accountById _), Except.map]
    refine ⟨Op.ends_of_forall (by simp), fun row => ⟨fun x hx => ⟨row, x, rfl, hx, rfl⟩,
      fun e he => ?_⟩, fun e => Op.consulted_error .internal (by simp)⟩
    obtain rfl := mapM_toIdentity_error he
    exact Op.consulted_error .internal (by simp)
  | me ctx =>
    simp only [Op.program, Op.resolver, me, authenticated, findAccount_byId, wp_map, wp_bind,
      wp_lift, wp_orFail, keeps_fetch (.accountById _), Except.map]
    refine ⟨fun accountId hctx => ⟨Op.ends_of_forall (by simp), fun row =>
      ⟨fun x hx => ⟨accountId, row, x, hctx, rfl, hx, rfl⟩, fun e he => ?_⟩,
      fun e => Op.consulted_error .internal (by simp)⟩, fun hctx => ?_⟩
    · obtain rfl := mapM_toIdentity_error he
      exact Op.consulted_error .internal (by simp)
    · exact Op.consulted_error (.me hctx) (by simp)
  | _ =>
    refine Prog.keeps_of_forall _ (fun _ _ h => h.elim) fun _ r => ?_
    cases r
    · exact fun h => h.elim
    · trivial

/-! ### What a step does to the directory -/

section step

variable {i : ℕ} {ch : Choice} {op : Op} {past : Past Command Command.Ans} {c : Command}
  {k : c.Ans → Program Response} {x : c.Ans} {w' : World}

/-- The past of an operation and what it issues are those of its script. -/
lemma issues_of_thread (h : Reach P ((service D).start (World.init d₀ t₀)) s)
    (ht : s.threads[i]? = some ⟨op, past, .call c k, true⟩) :
    past = own i s.log ∧ Alive i s.log ∧ op.Issues D (own i s.log) c := by
  have hpast := h.logged.past i _ ht
  exact ⟨hpast, h.logged.alive i _ ht rfl, hpast ▸ (h.keeps (scripted D) i _ ht).1⟩

/-- Only an account that is stored changes the directory. -/
lemma directory_step (h : Reach P ((service D).start (World.init d₀ t₀)) s)
    (ht : s.threads[i]? = some ⟨op, past, .call c k, true⟩)
    (heff : Effect D i ch s.world ⟨c, x⟩ w')
    (hne : ∀ row n, (⟨c, x⟩ : Exchange Command Command.Ans) ≠
      ⟨.execute (.insertAccount row), .ok n⟩) : w'.directory = s.world.directory := by
  have hrows : w'.db.accounts.rows = s.world.db.accounts.rows := by
    obtain ⟨-, halive, hissues⟩ := issues_of_thread h ht
    rcases (locking h).change halive hissues heff with hdb | ⟨u, n, he, hu⟩ |
      ⟨_, _, _, _, _, _, -, -, -, hu⟩
    · rw [hdb]
    · rw [Write.accounts_apply hu]
      cases u
      case insertAccount row => exact absurd he (hne row n)
      all_goals rfl
    · exact Write.accounts_apply hu
  rw [World.directory, World.directory, hrows]

/-- The identity that a registration stores is added to the directory. -/
lemma directory_stored {row : AccountRow} {n : ℕ} {t : ℤ}
    (heff : Effect D i ch s.world ⟨.execute (.insertAccount row), .ok n⟩ w')
    (ht : parseFromRfc3339 row.createdAt = some t) :
    w'.directory = s.world.directory ++
      [⟨row.accountId, row.identitty, Base64.encode row.publicKey, t⟩] := by
  have hrow : row.toIdentity.toOption =
      some ⟨row.accountId, row.identitty, Base64.encode row.publicKey, t⟩ := by
    rw [AccountRow.toIdentity_eq_ok.mpr ⟨t, ht, rfl⟩]
    rfl
  rw [World.directory, Write.accounts_apply heff.execute, Write.accountRows, List.filterMap_append]
  exact congrArg _ (List.filterMap_cons_some hrow)

/-- An insertion is refused for a clash only. -/
lemma clash_of_exec {row : AccountRow} {w : World}
    (hx : (Command.exec D i (.execute (.insertAccount row)) ch w).1 = .error .unique) :
    ¬ w.db.accounts.Fresh row := by
  simp only [Command.exec] at hx
  split at hx
  · cases hx
  · split at hx
    case h_1 => cases hx
    case h_2 e hu => exact (Write.error_of_insertAccount hu).2

end step

/-! ### The registry is linearizable -/

lemma Registers.names {input : RegisterAccountInput} {row : AccountRow} {t : ℤ}
    (h : Registers D input row t) (t' : ℤ) :
    input.Names D ⟨row.accountId, row.identitty, Base64.encode row.publicKey, t'⟩ :=
  ⟨row.publicKey, ⟨h.name, h.key, h.key_length, h.accountId.symm.trans h.accountId_input⟩,
    h.accountId_input, rfl⟩

section answer

variable {i : ℕ} {ch : Choice} {op : Op} {past : Past Command Command.Ans} {c : Command}
  {k : c.Ans → Program Response} {x : c.Ans} {w' : World}

lemma Op.Consulted.of_error {past : Past Command Command.Ans} {e : Failure}
    (h : op.Consulted D past (.error e)) (hsel : op.Consults) :
    (∀ row n, ⟨.execute (.insertAccount row), .ok n⟩ ∉ past) ∧
      (op.Declines D e ∨ ∃ ctx input row t rest, op = .registerAccount ctx input ∧
        e = .api .identittyTaken ∧ past = ⟨.execute (.insertAccount row), .error .unique⟩ :: rest ∧
        Registers D input row t) := by
  cases op <;> exact h hsel

/-- A failure leaves the directory, and says that a name is taken only if it is. -/
lemma directory_error (h : Reach (Readings InEra) ((service D).start (World.init .empty t₀)) s)
    (ht : s.threads[i]? = some ⟨op, past, .call c k, true⟩)
    (heff : Effect D i ch s.world ⟨c, x⟩ w') (hx : x = (c.exec D i ch s.world).1)
    (hsel : op.Consults) {e : Failure} (hcons : op.Consulted D (⟨c, x⟩ :: past) (.error e)) :
    Directory.Allows D op (.error e) s.world.directory w'.directory := by
  obtain ⟨hno, hcause⟩ := hcons.of_error hsel
  rw [directory_step h ht heff fun row n he => hno row n (he ▸ List.mem_cons_self)]
  rcases hcause with hf | ⟨ctx, input, row, t, rest, rfl, rfl, hpast, hr⟩
  · exact .declined hf
  · cases hpast
    refine .taken (hr.names t) fun hfree => clash_of_exec hx.symm ?_
    exact (free_iff (presentable h) (normaliseIdentitty_idem hr.name) t).mp hfree

/-- What an operation answers is what the directory says at its last exchange. -/
lemma directory_ok (h : Reach (Readings InEra) ((service D).start (World.init .empty t₀)) s)
    (ht : s.threads[i]? = some ⟨op, past, .call c k, true⟩)
    (heff : Effect D i ch s.world ⟨c, x⟩ w') (hsel : op.Consults) {y : Answer}
    (hcons : op.Consulted D (⟨c, x⟩ :: past) (.ok y)) :
    Directory.Allows D op (.ok y) s.world.directory w'.directory := by
  have hrows := presentable h
  cases op with
  | registerAccount ctx input =>
    obtain ⟨row, t, n, rest, hpast, hnow, hr, rfl⟩ := hcons
    cases hpast
    have hlog : .exec i ⟨.now, t⟩ ∈ s.log := by
      rw [← mem_own, ← (issues_of_thread h ht).1]
      exact hnow
    have hparse : parseFromRfc3339 row.createdAt = some t := by
      rw [hr.createdAt, parse_toRfc3339 (reading_of_now h hlog)]
    rw [directory_stored heff hparse]
    refine .register (hr.names t) ((free_iff hrows (normaliseIdentitty_idem hr.name) t).mpr ?_)
    exact Write.fresh_of_insertAccount heff.execute
  | isIdentittyAvailable value =>
    obtain ⟨name, b, hname, hpast, rfl⟩ := hcons
    cases hpast
    obtain rfl := heff.truthful trivial
    rw [directory_step h ht heff (by simp), Select.eval, identittyExists_shown hrows hname]
    exact .available hname
  | account value =>
    obtain ⟨name, row, z, hname, hpast, hz, rfl⟩ := hcons
    cases hpast
    obtain rfl := heff.truthful trivial
    rw [Select.eval, accountByIdentitty_shown hrows hname] at hz
    obtain rfl := Except.ok.inj hz
    rw [directory_step h ht heff (by simp)]
    exact .account hname
  | accountById accountId =>
    obtain ⟨row, z, hpast, hz, rfl⟩ := hcons
    cases hpast
    obtain rfl := heff.truthful trivial
    rw [Select.eval, accountById_shown hrows] at hz
    obtain rfl := Except.ok.inj hz
    rw [directory_step h ht heff (by simp)]
    exact .accountById
  | me ctx =>
    obtain ⟨accountId, row, z, hctx, hpast, hz, rfl⟩ := hcons
    cases hpast
    obtain rfl := heff.truthful trivial
    rw [Select.eval, accountById_shown hrows] at hz
    obtain rfl := Except.ok.inj hz
    rw [directory_step h ht heff (by simp)]
    exact .me hctx
  | _ => exact hsel.elim

/-- What an operation keeps to after its next answer. -/
lemma consulted_next (h : Reach P ((service D).start (World.init d₀ t₀)) s)
    (ht : s.threads[i]? = some ⟨op, past, .call c k, true⟩) (x : c.Ans) :
    (k x).Keeps op.Ends (op.Consulted D) (⟨c, x⟩ :: past) :=
  (h.keeps consulted i _ ht).2 x

end answer

/-- An answer takes an exchange. -/
lemma Op.Consulted.ne_nil {op : Op} {past : Past Command Command.Ans} {y : Answer}
    (h : op.Consulted D past (.ok y)) (hsel : op.Consults) : past ≠ [] := by
  rintro rfl
  cases op with
  | registerAccount ctx input => obtain ⟨_, _, _, _, hpast, -⟩ := h; cases hpast
  | isIdentittyAvailable value => obtain ⟨_, _, -, hpast, -⟩ := h; cases hpast
  | account value => obtain ⟨_, _, _, -, hpast, -⟩ := h; cases hpast
  | accountById accountId => obtain ⟨_, _, hpast, -⟩ := h; cases hpast
  | me ctx => obtain ⟨_, _, _, -, hpast, -⟩ := h; cases hpast
  | _ => exact hsel

/-- The operations on the directory take effect at their last exchange. -/
lemma directory_takesEffect : (service D).TakesEffect (Readings InEra) (World.init .empty t₀)
    Op.Consults (Directory.Allows D) World.directory := by
  refine ⟨fun s op r h hsel hret => ?_, fun s i ch op past c k r h _ ht hen hsel hret => ?_,
    fun s i ch op past c k h _ ht hen hcont => ?_, fun w => rfl⟩
  · have hcons := consulted (D := D) op
    rw [show op.program D = .ret r from hret] at hcons
    change op.Consulted D [] r at hcons
    cases r with
    | error e =>
      rcases (hcons.of_error hsel).2 with hf | ⟨_, _, _, _, _, -, -, hpast, -⟩
      · exact .declined hf
      · cases hpast
    | ok y => exact absurd rfl (hcons.ne_nil hsel)
  · have hcons := consulted_next h ht (c.exec D i ch s.world).1
    rw [show k (c.exec D i ch s.world).1 = .ret r from hret] at hcons
    change op.Consulted D (⟨c, (c.exec D i ch s.world).1⟩ :: past) r at hcons
    have heff := Command.effect (D := D) c hen
    cases r with
    | error e => exact directory_error h ht heff rfl hsel hcons
    | ok y => exact directory_ok h ht heff hsel hcons
  · refine directory_step h ht (Command.effect c hen) fun row n he => ?_
    obtain rfl : c = .execute (.insertAccount row) := congrArg Sigma.fst he
    obtain ⟨-, -, ctx, input, t, rfl, -⟩ := issues_of_thread h ht
    -- A registration that has stored its account does not go on.
    obtain ⟨c', k', hk⟩ := hcont trivial
    have hends := consulted_next h ht ((service D).exec i _ ch s.world).1
    rw [hk] at hends
    exact hends.1 trivial row _ List.mem_cons_self

/-- In whatever order the operations of the service run, the answers of those that register and look
up identities are the answers of one directory to one operation after the other, in an order in
which each stands before those that were called after it had answered. -/
theorem registry_linearizable
    (h : Reach (Readings InEra) ((service D).start (World.init .empty t₀)) s) :
    Linearizable Op.Consults (Directory.Allows D) [] (history s.log) :=
  directory_takesEffect.linearizable h

namespace Known

/-- While Ada registers, somebody asks for her name. -/
def overlapping : List (Action Op Choice) :=
  [.call (register "ada".toList ada adaKey), .call (.isIdentittyAvailable "ADA".toList),
    .step 0 (fine newYear ⟨0⟩), .step 0 (fine newYear ⟨0⟩), .step 0 (fine newYear ⟨0⟩),
    .step 1 (fine newYear ⟨0⟩), .respond 1, .respond 0]

/-- The name is taken before the registration has answered. -/
def overlapped : List (Seen Op Response) :=
  [.respond 0 (.ok (.identity ⟨ada, "ada".toList, Base64.encode adaKey, newYear⟩)),
    .respond 1 (.ok (.flag false)), .call 1 (.isIdentittyAvailable "ADA".toList),
    .call 0 (register "ada".toList ada adaKey)]

lemma overlapping_history : (((service deployment).start (World.init .empty newYear)).take
    overlapping).map (fun s => history s.log) = some overlapped := by
  decide +kernel

end Known

theorem registry_linearizable_overlapping : Linearizable Op.Consults
    (Directory.Allows Known.deployment) [] Known.overlapped := by
  obtain ⟨s, hs, hhistory⟩ := Option.map_eq_some_iff.mp Known.overlapping_history
  have hinEra : ∀ a ∈ Known.overlapping, Reading InEra a := by
    decide
  rw [← hhistory]
  exact registry_linearizable (Reach.refl.take (fun a ha _ => hinEra a ha) hs)

end TittyBackend
