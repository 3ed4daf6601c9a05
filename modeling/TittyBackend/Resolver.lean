import TittyBackend.Database.Statements
import TittyBackend.Lib.Program
import TittyBackend.RateLimit
import Mathlib.Data.Vector.Basic

/-!
# What a resolver is made of

A resolver is a program over the commands below: the statements it sends to the pool or within
its transaction, the readings of the clock, the random draws and the calls of the rate limiter.
It fails with an error of the API, or panics where chrono does.
-/

namespace TittyBackend

open Numerals Programs

/-- The 32 bytes of a challenge. -/
abbrev Bytes := List.Vector UInt8 32

/-! ### Commands -/

inductive Command where
  /-- A statement on its own connection of the pool. -/
  | select (q : Select)
  | execute (u : Write)
  | begin
  /-- A statement within the transaction of the resolver. -/
  | selectIn (q : Select)
  | executeIn (u : Write)
  | commit
  | rollback
  | now
  | newUuid
  | fillBytes
  | check (key : Text) (limit window : ℕ)

abbrev Command.Ans : Command → Type
  | .select q | .selectIn q => Except SqlError q.Ans
  | .execute _ | .executeIn _ => Except SqlError ℕ
  | .begin | .commit => Except SqlError Unit
  | .rollback => Unit
  | .now => ℤ
  | .newUuid => Uuid
  | .fillBytes => Bytes
  | .check .. => Bool

/-! ### Resolvers -/

inductive Failure where
  | api (e : ApiError)
  | panic
  deriving DecidableEq

abbrev Program := Prog Command Command.Ans

abbrev Resolver := ExceptT Failure Program

/-- The context of a request: the key of its client, and the account of its session if it has
one. -/
structure Context where
  clientKey : Text
  account : Option Text
  deriving DecidableEq

namespace Resolver

variable {α β : Type}

def fail (e : ApiError) : Resolver α := ExceptT.mk (.ret (.error (.api e)))

/-- `if c { return Err(e) }` -/
def refuse (c : Prop) [Decidable c] (e : ApiError) : Resolver Unit :=
  if c then fail e else pure ()

/-- `ok_or(e)?` -/
def orFail (x : Option α) (e : ApiError) : Resolver α :=
  match x with
  | some a => pure a
  | none => fail e

def lift (x : Except ApiError α) : Resolver α := ExceptT.mk (.ret (x.mapError .api))

/-- A statement of the pool, with `map_err(|_| ApiError::Internal)?`. -/
def fetch (q : Select) : Resolver q.Ans :=
  ExceptT.mk (.call (.select q) fun x => .ret (x.mapError fun _ => .api .internal))

def execute (u : Write) : Resolver ℕ :=
  ExceptT.mk (.call (.execute u) fun x => .ret (x.mapError fun _ => .api .internal))

/-- A statement of the pool, with its error handed on. -/
def attempt (u : Write) : Resolver (Except SqlError ℕ) :=
  ExceptT.mk (.call (.execute u) fun x => .ret (.ok x))

def fetchIn (q : Select) : Resolver q.Ans :=
  ExceptT.mk (.call (.selectIn q) fun x => .ret (x.mapError fun _ => .api .internal))

def executeIn (u : Write) : Resolver ℕ :=
  ExceptT.mk (.call (.executeIn u) fun x => .ret (x.mapError fun _ => .api .internal))

/-- `pool.begin()`, then `body`, then `commit()`. A transaction that is dropped before its commit
is rolled back. -/
def transaction (body : Resolver Unit) : Resolver Unit :=
  ExceptT.mk (.call .begin fun
    | .error _ => .ret (.error (.api .internal))
    | .ok _ => body.run >>= fun
      | .error e => .call .rollback fun _ => .ret (.error e)
      | .ok _ => .call .commit fun x => .ret (x.mapError fun _ => .api .internal))

/-- `Utc::now()` -/
def now : Resolver ℤ := ExceptT.mk (.call .now fun t => .ret (.ok t))

/-- `Uuid::new_v4()` -/
def newUuid : Resolver Uuid := ExceptT.mk (.call .newUuid fun u => .ret (.ok u))

/-- `OsRng.fill_bytes` -/
def fillBytes : Resolver Bytes := ExceptT.mk (.call .fillBytes fun bytes => .ret (.ok bytes))

/-- `t + Duration::seconds(n)` -/
def addSeconds (t n : ℤ) : Resolver ℤ :=
  match DateTime.addSeconds t n with
  | some u => pure u
  | none => ExceptT.mk (.ret (.error .panic))

/-- A minute, the window of every limit on a resolver. -/
def minute : ℕ := 60000000000

/-- `rate_limit::enforce`, always with a window of a minute. -/
def enforce (ctx : Context) (scope : Text) (limit : ℕ) : Resolver Unit :=
  ExceptT.mk (.call (.check (ctx.clientKey ++ ':' :: scope) limit minute) fun admitted =>
    .ret (if admitted then .ok () else .error (.api .rateLimited)))

def authenticated (ctx : Context) : Resolver Text := orFail ctx.account .unauthorized

lemma refuse_of_not {c : Prop} [Decidable c] (h : ¬ c) (e : ApiError) : refuse c e = pure () :=
  if_neg h

lemma orFail_some (a : α) (e : ApiError) : orFail (some a) e = pure a := rfl

lemma lift_ok (a : α) : lift (.ok a) = pure a := rfl

lemma addSeconds_of_eq_some {t n u : ℤ} (h : DateTime.addSeconds t n = some u) :
    addSeconds t n = pure u := by
  rw [addSeconds, h]

/-! ### What a resolver ensures -/

section wp

variable {σ : Type} {T : (c : Command) → (c.Ans → σ → Prop) → σ → Prop} {s : σ}
  {Q : Except Failure α → σ → Prop} {R : Except Failure β → σ → Prop}

@[simp] lemma wp_bind (x : Resolver α) (f : α → Resolver β) :
    (x >>= f).run.Wp T R s ↔ x.run.Wp T
      (fun r s => match r with
        | .ok a => (f a).run.Wp T R s
        | .error e => R (.error e) s) s := by
  refine Prog.wp_bind.trans (iff_of_eq (congrArg (fun Q => Prog.Wp T Q x.run s) ?_))
  funext r s
  cases r <;> rfl

@[simp] lemma wp_map (x : Resolver α) (g : α → β) :
    (g <$> x).run.Wp T R s ↔ x.run.Wp T (fun r => R (r.map g)) s := by
  refine Prog.wp_bind.trans (iff_of_eq (congrArg (fun Q => Prog.Wp T Q x.run s) ?_))
  funext r s
  cases r <;> rfl

@[simp] lemma wp_pure (a : α) : (pure a : Resolver α).run.Wp T Q s ↔ Q (.ok a) s := Iff.rfl

lemma wp_pure_bind (a : α) (f : α → Resolver β) :
    (pure a >>= f).run.Wp T R s ↔ (f a).run.Wp T R s := Iff.rfl

@[simp] lemma wp_fail (e : ApiError) :
    (fail e : Resolver α).run.Wp T Q s ↔ Q (.error (.api e)) s := Iff.rfl

@[simp] lemma wp_refuse {Q : Except Failure Unit → σ → Prop} (c : Prop) [Decidable c]
    (e : ApiError) : (refuse c e).run.Wp T Q s ↔
      (c → Q (.error (.api e)) s) ∧ (¬ c → Q (.ok ()) s) := by
  rw [refuse]
  split_ifs with hc <;> simp [hc]

@[simp] lemma wp_orFail (x : Option α) (e : ApiError) : (orFail x e).run.Wp T Q s ↔
    (∀ a, x = some a → Q (.ok a) s) ∧ (x = none → Q (.error (.api e)) s) := by
  cases x <;> simp [orFail]

@[simp] lemma wp_lift (x : Except ApiError α) : (lift x).run.Wp T Q s ↔
    (∀ a, x = .ok a → Q (.ok a) s) ∧ ∀ e, x = .error e → Q (.error (.api e)) s := by
  cases x <;> simp [lift, Except.mapError, ExceptT.run_mk]

@[simp] lemma wp_addSeconds (t n : ℤ) {Q : Except Failure ℤ → σ → Prop} :
    (addSeconds t n).run.Wp T Q s ↔
      (∀ u, DateTime.addSeconds t n = some u → Q (.ok u) s) ∧
        (DateTime.addSeconds t n = none → Q (.error .panic) s) := by
  rw [addSeconds]
  cases DateTime.addSeconds t n <;> simp [ExceptT.run_mk]

lemma wp_transaction (body : Resolver Unit) {Q : Except Failure Unit → σ → Prop} :
    (transaction body).run.Wp T Q s ↔ T .begin (fun x s => match x with
      | .error _ => Q (.error (.api .internal)) s
      | .ok _ => body.run.Wp T (fun r s => match r with
        | .error e => T .rollback (fun _ => Q (.error e)) s
        | .ok _ => T .commit (fun x => Q (x.mapError fun _ => .api .internal)) s) s) s := by
  refine iff_of_eq (congrArg (T .begin · s) (funext fun x => funext fun s => ?_))
  cases x with
  | error e => rfl
  | ok _ =>
    refine propext (Prog.wp_bind.trans
      (iff_of_eq (congrArg (fun Q => Prog.Wp T Q body.run s) ?_)))
    funext r s
    cases r <;> rfl

end wp

/-! ### What a resolver keeps -/

section keeps

variable {φ : Past Command Command.Ans → Command → Prop}
  {ψ : Past Command Command.Ans → Except Failure α → Prop} {h : Past Command Command.Ans}

private lemma forall_except {ε : Type} {P : Except ε α → Prop} :
    (∀ x, P x) ↔ (∀ a, P (.ok a)) ∧ ∀ e, P (.error e) :=
  ⟨fun h => ⟨fun _ => h _, fun _ => h _⟩, fun h x => match x with
    | .ok a => h.1 a
    | .error e => h.2 e⟩

@[simp] lemma keeps_fetch (q : Select)
    {ψ : Past Command Command.Ans → Except Failure q.Ans → Prop} :
    (fetch q).run.Keeps φ ψ h ↔ φ h (.select q) ∧
      (∀ a, ψ (⟨.select q, .ok a⟩ :: h) (.ok a)) ∧
      ∀ e, ψ (⟨.select q, .error e⟩ :: h) (.error (.api .internal)) :=
  and_congr_right fun _ => forall_except

@[simp] lemma keeps_execute (u : Write) {ψ : Past Command Command.Ans → Except Failure ℕ → Prop} :
    (execute u).run.Keeps φ ψ h ↔ φ h (.execute u) ∧
      (∀ n, ψ (⟨.execute u, .ok n⟩ :: h) (.ok n)) ∧
      ∀ e, ψ (⟨.execute u, .error e⟩ :: h) (.error (.api .internal)) :=
  and_congr_right fun _ => forall_except

@[simp] lemma keeps_attempt (u : Write)
    {ψ : Past Command Command.Ans → Except Failure (Except SqlError ℕ) → Prop} :
    (attempt u).run.Keeps φ ψ h ↔ φ h (.execute u) ∧ ∀ x, ψ (⟨.execute u, x⟩ :: h) (.ok x) :=
  Iff.rfl

@[simp] lemma keeps_fetchIn (q : Select)
    {ψ : Past Command Command.Ans → Except Failure q.Ans → Prop} :
    (fetchIn q).run.Keeps φ ψ h ↔ φ h (.selectIn q) ∧
      (∀ a, ψ (⟨.selectIn q, .ok a⟩ :: h) (.ok a)) ∧
      ∀ e, ψ (⟨.selectIn q, .error e⟩ :: h) (.error (.api .internal)) :=
  and_congr_right fun _ => forall_except

@[simp] lemma keeps_executeIn (u : Write)
    {ψ : Past Command Command.Ans → Except Failure ℕ → Prop} :
    (executeIn u).run.Keeps φ ψ h ↔ φ h (.executeIn u) ∧
      (∀ n, ψ (⟨.executeIn u, .ok n⟩ :: h) (.ok n)) ∧
      ∀ e, ψ (⟨.executeIn u, .error e⟩ :: h) (.error (.api .internal)) :=
  and_congr_right fun _ => forall_except

@[simp] lemma keeps_transaction (body : Resolver Unit)
    {ψ : Past Command Command.Ans → Except Failure Unit → Prop} :
    (transaction body).run.Keeps φ ψ h ↔ φ h .begin ∧
      (∀ u, body.run.Keeps φ
        (fun h r => match r with
          | .ok _ => φ h .commit ∧ (∀ u, ψ (⟨.commit, .ok u⟩ :: h) (.ok u)) ∧
              ∀ e, ψ (⟨.commit, .error e⟩ :: h) (.error (.api .internal))
          | .error e => φ h .rollback ∧ ∀ u, ψ (⟨.rollback, u⟩ :: h) (.error e))
        (⟨.begin, .ok u⟩ :: h)) ∧
      ∀ e, ψ (⟨.begin, .error e⟩ :: h) (.error (.api .internal)) := by
  refine and_congr_right fun _ => forall_except.trans (and_congr_left fun _ => ?_)
  refine forall_congr' fun u => Prog.wp_bind.trans
    (iff_of_eq (congrArg (fun Q => Prog.Wp (Prog.recording φ) Q body.run _) ?_))
  funext r h
  cases r with
  | error e => rfl
  | ok _ => exact propext (and_congr_right fun _ => forall_except)

@[simp] lemma keeps_now {ψ : Past Command Command.Ans → Except Failure ℤ → Prop} :
    now.run.Keeps φ ψ h ↔ φ h .now ∧ ∀ t, ψ (⟨.now, t⟩ :: h) (.ok t) := Iff.rfl

@[simp] lemma keeps_newUuid {ψ : Past Command Command.Ans → Except Failure Uuid → Prop} :
    newUuid.run.Keeps φ ψ h ↔ φ h .newUuid ∧ ∀ u, ψ (⟨.newUuid, u⟩ :: h) (.ok u) := Iff.rfl

@[simp] lemma keeps_fillBytes {ψ : Past Command Command.Ans → Except Failure Bytes → Prop} :
    fillBytes.run.Keeps φ ψ h ↔ φ h .fillBytes ∧ ∀ x, ψ (⟨.fillBytes, x⟩ :: h) (.ok x) := Iff.rfl

@[simp] lemma keeps_enforce (ctx : Context) (scope : Text) (limit : ℕ)
    {ψ : Past Command Command.Ans → Except Failure Unit → Prop} :
    (enforce ctx scope limit).run.Keeps φ ψ h ↔
      φ h (.check (ctx.clientKey ++ ':' :: scope) limit minute) ∧
        ψ (⟨.check (ctx.clientKey ++ ':' :: scope) limit minute, true⟩ :: h) (.ok ()) ∧
          ψ (⟨.check (ctx.clientKey ++ ':' :: scope) limit minute, false⟩ :: h)
            (.error (.api .rateLimited)) :=
  and_congr_right fun _ => (Bool.forall_bool.trans and_comm)

end keeps

end Resolver

end TittyBackend
