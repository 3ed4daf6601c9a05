import TittyBackend.Lib.Alone
import TittyBackend.Effect

/-!
# One operation after the other

What an operation that runs alone does to the world: it gives the write lock back, its statements
act on the database as it stands, and its clock goes on from that of the operation before.
-/

namespace TittyBackend

open Numerals Programs Programs.System Resolver

variable {D : Deployment}

/-! ### Statements of an operation alone -/

section alone

variable {i : ℕ} {w : World} {chs : List Choice}

/-- The world with another database. -/
def World.put (w : World) (d : Db) : World := { w with db := d }

@[simp] lemma World.db_put (d : Db) : (w.put d).db = d := rfl

@[simp] lemma World.drawn_put (d : Db) : (w.put d).drawn = w.drawn := rfl

@[simp] lemma World.db_tick (ch : Choice) : (w.tick ch).db = w.db := rfl

lemma alone_fetch (q : Select) {Q : Except Failure q.Ans → World × List Choice → Prop} :
    (fetch q).run.Wp ((service D).alone i) Q (w, chs) ↔
      ∀ ch, Command.enabled i (.select q) ch w = true →
        (ch.fails = true → Q (.error (.api .internal)) (w.tick ch, chs ++ [ch])) ∧
        (ch.fails = false → Q (.ok (q.eval D ch.reading w.db)) (w.tick ch, chs ++ [ch])) := by
  refine forall_congr' fun ch => imp_congr_right fun _ => ?_
  cases hf : ch.fails <;> simp [service, Command.exec, hf, Except.mapError]

lemma alone_execute (u : Write) {Q : Except Failure ℕ → World × List Choice → Prop} :
    (Resolver.execute u).run.Wp ((service D).alone i) Q (w, chs) ↔
      ∀ ch, Command.enabled i (.execute u) ch w = true →
        (ch.fails = true → Q (.error (.api .internal)) (w.tick ch, chs ++ [ch])) ∧
        (ch.fails = false →
          (∀ e, u.apply D ch.reading w.db = .error e →
            Q (.error (.api .internal)) (w.tick ch, chs ++ [ch])) ∧
          ∀ n d, u.apply D ch.reading w.db = .ok (n, d) →
            Q (.ok n) ((w.tick ch).put d, chs ++ [ch])) := by
  refine forall_congr' fun ch => imp_congr_right fun _ => ?_
  cases hf : ch.fails with
  | true => simp [service, Command.exec, hf, Except.mapError]
  | false =>
    cases hu : u.apply D ch.reading w.db with
    | error e => simp [service, Command.exec, hf, hu, Except.mapError]
    | ok x =>
      obtain ⟨n, d⟩ := x
      simp [service, Command.exec, hf, hu, Except.mapError, World.put]

lemma alone_enforce (ctx : Context) (scope : Text) (limit : ℕ)
    {Q : Except Failure Unit → World × List Choice → Prop} :
    (enforce ctx scope limit).run.Wp ((service D).alone i) Q (w, chs) ↔
      ∀ ch, Command.enabled i (.check (ctx.clientKey ++ ':' :: scope) limit minute) ch w = true →
        ((w.limiter.check ch.instant (ctx.clientKey ++ ':' :: scope) limit minute).1 = true →
          Q (.ok ()) ({ w.tick ch with limiter :=
            (w.limiter.check ch.instant (ctx.clientKey ++ ':' :: scope) limit minute).2 },
            chs ++ [ch])) ∧
        ((w.limiter.check ch.instant (ctx.clientKey ++ ':' :: scope) limit minute).1 = false →
          Q (.error (.api .rateLimited)) ({ w.tick ch with limiter :=
            (w.limiter.check ch.instant (ctx.clientKey ++ ':' :: scope) limit minute).2 },
            chs ++ [ch])) := by
  refine forall_congr' fun ch => imp_congr_right fun _ => ?_
  cases h : (w.limiter.check ch.instant (ctx.clientKey ++ ':' :: scope) limit minute).1 <;>
    simp [service, Command.exec, h]

lemma alone_attempt (u : Write)
    {Q : Except Failure (Except SqlError ℕ) → World × List Choice → Prop} :
    (attempt u).run.Wp ((service D).alone i) Q (w, chs) ↔
      ∀ ch, Command.enabled i (.execute u) ch w = true →
        (ch.fails = true → Q (.ok (.error .failed)) (w.tick ch, chs ++ [ch])) ∧
        (ch.fails = false →
          (∀ e, u.apply D ch.reading w.db = .error e →
            Q (.ok (.error e)) (w.tick ch, chs ++ [ch])) ∧
          ∀ n d, u.apply D ch.reading w.db = .ok (n, d) →
            Q (.ok (.ok n)) ((w.tick ch).put d, chs ++ [ch])) := by
  refine forall_congr' fun ch => imp_congr_right fun _ => ?_
  cases hf : ch.fails with
  | true => simp [service, Command.exec, hf]
  | false =>
    cases hu : u.apply D ch.reading w.db with
    | error e => simp [service, Command.exec, hf, hu]
    | ok x =>
      obtain ⟨n, d⟩ := x
      simp [service, Command.exec, hf, hu, World.put]

lemma alone_now {Q : Except Failure ℤ → World × List Choice → Prop} :
    now.run.Wp ((service D).alone i) Q (w, chs) ↔
      ∀ ch, Command.enabled i .now ch w = true → Q (.ok ch.reading) (w.tick ch, chs ++ [ch]) :=
  Iff.rfl

lemma alone_newUuid {Q : Except Failure Uuid → World × List Choice → Prop} :
    newUuid.run.Wp ((service D).alone i) Q (w, chs) ↔
      ∀ ch, Command.enabled i .newUuid ch w = true → Q (.ok ch.uuid)
        ({ w.tick ch with drawn := (i, ch.uuid) :: w.drawn }, chs ++ [ch]) :=
  Iff.rfl

lemma fresh_of_enabled {ch : Choice} (h : Command.enabled i .newUuid ch w = true) :
    ∀ x ∈ w.drawn, x.2 ≠ ch.uuid := by
  simp only [Command.enabled, Bool.and_eq_true, List.all_eq_true, decide_eq_true_eq] at h
  exact h.2

end alone

/-! ### The end of a login -/

/-- The last exchange is an update within a transaction. -/
def Updating (past : Past Command Command.Ans) : Prop :=
  ∃ v n rest, past = ⟨.executeIn v, .ok n⟩ :: rest

/-- A login that has committed has read the clock last, and answers with a session if it can be
encoded. -/
def Redeemed (D : Deployment) (accountId : Text) (past : Past Command Command.Ans)
    (r : Response) : Prop :=
  ⟨.commit, .ok ()⟩ ∈ past → ∃ t rest, past = ⟨.now, t⟩ :: rest ∧
    ∀ e token, DateTime.addSeconds t D.sessionTtlSeconds = some e →
      D.encode (sessionClaims D accountId t e) D.jwtSecret = some token →
        ∃ x, r = .ok (.session x)

lemma authenticate_ends (ctx : Context) (input : AuthenticateInput) :
    (Op.program D (.authenticate ctx input)).Keeps
      (fun past c => Updating past → c = .commit ∨ c = .rollback)
      (fun past r => ¬ Updating past ∧ Redeemed D input.accountId past r) [] := by
  simp only [Op.program, Op.resolver, authenticate, consumeChallenge, issueSession, wp_map,
    wp_bind, keeps_enforce, keeps_transaction, keeps_fetchIn (.challenge _ _), wp_orFail,
    wp_refuse, wp_lift, keeps_now, keeps_executeIn, wp_addSeconds, Except.map, wp_pure]
  simp [Updating, Redeemed]
  rintro - row - e - t₁ - - - t
  constructor
  · intro exp hexp htoken exp' token hexp' htoken'
    obtain rfl := Option.some.inj (hexp.symm.trans hexp')
    simp [htoken] at htoken'
  · intro hexp exp token hexp'
    simp [hexp] at hexp'

/-- A program without such updates never has one as its last exchange. -/
lemma keeps_of_no_update {p : Program Response} {past : Past Command Command.Ans}
    (hp : p.Keeps (fun _ c => ∀ v, c ≠ .executeIn v) (fun _ _ => True) past)
    (hpast : ¬ Updating past) : p.Keeps (fun past _ => ¬ Updating past)
      (fun past _ => ¬ Updating past) past := by
  induction p generalizing past with
  | ret r => exact hpast
  | call c k ih =>
    refine ⟨hpast, fun x => ih x (hp.2 x) ?_⟩
    rintro ⟨v, n, rest, heq⟩
    obtain ⟨hx, -⟩ := List.cons.inj heq
    exact hp.1 v (Sigma.mk.inj hx).1

/-- After an update within a transaction every operation ends the transaction. -/
theorem Op.ends (op : Op) : (op.program D).Keeps
    (fun past c => Updating past → c = .commit ∨ c = .rollback)
    (fun past r => ¬ Updating past ∧
      ∀ ctx input, op = .authenticate ctx input → Redeemed D input.accountId past r) [] := by
  by_cases hauth : ∃ ctx input, op = .authenticate ctx input
  · obtain ⟨ctx, input, rfl⟩ := hauth
    refine (authenticate_ends ctx input).mono (fun _ _ h => h) fun past r h => ⟨h.1, ?_⟩
    rintro _ _ ⟨⟩
    exact h.2
  · have hno : (op.program D).Keeps (fun _ c => ∀ v, c ≠ .executeIn v) (fun _ _ => True) [] := by
      refine (scripted D op).mono (fun past c hi v hv => ?_) fun _ _ _ => trivial
      subst hv
      obtain ⟨ctx, input, -, -, -, hop, -⟩ := hi
      exact hauth ⟨ctx, input, hop⟩
    refine (keeps_of_no_update hno (by simp [Updating])).mono (fun _ _ h hup => absurd hup h)
      fun past r h => ⟨h, fun ctx input hop => absurd ⟨ctx, input, hop⟩ hauth⟩

/-- An operation alone holds nothing but between an update within its transaction and the end of
that, and has read its own clock. -/
structure Lone (i : ℕ) (w : World) (past : Past Command Command.Ans) : Prop where
  held : ∀ x ∈ w.writer, x.1 = i ∧ Updating past
  clock : ∀ t rest, past = ⟨.now, t⟩ :: rest → t = w.clock

lemma Lone.step {w : World} {past : Past Command Command.Ans} {c : Command} {i : ℕ} {ch : Choice}
    (h : Lone i w past) (hclose : Updating past → c = .commit ∨ c = .rollback)
    (hen : c.enabled i ch w = true) :
    Lone i (c.exec D i ch w).2 (⟨c, (c.exec D i ch w).1⟩ :: past) := by
  have heff := Command.effect (D := D) c hen
  refine ⟨fun x hx => ?_, fun t rest hpast => ?_⟩
  · by_cases hc : c = .commit ∨ c = .rollback
    · have hw : (c.exec D i ch w).2.writer = w.writer.filter fun x => x.1 ≠ i := by
        rcases hc with rfl | rfl
        · rw [Command.exec]
          split_ifs <;> rfl
        · rfl
      rw [hw, Option.mem_filter_iff] at hx
      exact absurd (h.held x hx.1).1 (of_decide_eq_true hx.2)
    · have hnone : ∀ x, x ∉ w.writer := fun x hx => hc (hclose (h.held x hx).2)
      rcases heff.writer with hw | ⟨v, n, d, he, -, -, hw⟩ | ⟨-, hw⟩
      · exact absurd (hw ▸ hx) (hnone x)
      · obtain rfl := Option.some.inj (hw.symm.trans hx)
        exact ⟨rfl, v, n, past, by rw [he]⟩
      · rw [hw, Option.mem_filter_iff] at hx
        exact absurd hx.1 (hnone x)
  · obtain ⟨hx, -⟩ := List.cons.inj hpast
    have ht : Truthful D i ch w ⟨.now, t⟩ := hx ▸ heff.truthful (hx ▸ trivial)
    rw [heff.clock]
    exact ht

/-- Every operation alone leaves the write lock free. -/
theorem writer_of_plays {op : Op} {w w' : World} {i : ℕ} {chs : List Choice} {r : Response}
    (h : (service D).Plays i (op.program D) w chs r w') (hw : w.writer = none) :
    w'.writer = none := by
  obtain ⟨past, hlone, hup, -⟩ := h.invariant (Op.ends op) (Lone i) ⟨by simp [hw], by simp⟩
    fun w past c ch hJ hφ hen => hJ.step hφ hen
  exact Option.eq_none_iff_forall_not_mem.mpr fun x hx => hup (hlone.held x hx).2

/-! ### Sequential runs -/

lemma clock_of_plays {op : Op} {w w' : World} {i : ℕ} {chs : List Choice} {r : Response}
    (h : (service D).Plays i (op.program D) w chs r w') : w.clock ≤ w'.clock := by
  obtain ⟨past, hle, -⟩ := h.invariant (scripted D op) (fun w' _ => w.clock ≤ w'.clock) le_rfl
    fun w' past c ch hle _ hen => (hle.trans (Command.clock_of_enabled hen)).trans_eq
      (Command.effect (D := D) c hen).clock.symm
  exact hle

lemma drawn_of_plays {op : Op} {w w' : World} {i : ℕ} {chs : List Choice} {r : Response}
    (h : (service D).Plays i (op.program D) w chs r w') :
    w.drawn ⊆ w'.drawn := by
  obtain ⟨past, hsub, -⟩ := h.invariant (scripted D op) (fun w₁ _ => w.drawn ⊆ w₁.drawn)
    (List.Subset.refl _) fun w₁ past c ch hsub _ hen => by
      rcases (Command.effect (D := D) c hen).drawn with ⟨hd, -⟩ | ⟨-, hd, -⟩
      · exact hd ▸ hsub
      · exact hd ▸ List.Subset.trans hsub (List.subset_cons_self _ _)
  exact hsub

lemma nodup_of_plays {op : Op} {w w' : World} {i : ℕ} {chs : List Choice} {r : Response}
    (h : (service D).Plays i (op.program D) w chs r w') (hw : (w.drawn.map Prod.snd).Nodup) :
    (w'.drawn.map Prod.snd).Nodup := by
  obtain ⟨past, hnodup, -⟩ := h.invariant (scripted D op)
    (fun w₁ _ => (w₁.drawn.map Prod.snd).Nodup) hw fun w₁ past c ch hnodup _ hen => by
      rcases (Command.effect (D := D) c hen).drawn with ⟨hd, -⟩ | ⟨-, hd, hfresh⟩
      · exact hd ▸ hnodup
      · have hnew : ch.uuid ∉ w₁.drawn.map Prod.snd := fun hmem => by
          obtain ⟨x, hx, heq⟩ := List.mem_map.mp hmem
          exact hfresh x hx heq
        exact hd ▸ List.nodup_cons.mpr ⟨hnew, hnodup⟩
  exact hnodup

abbrev ServiceTurn := Turn Op Response Choice

/-- Between two operations of a sequential run nobody holds the write lock. -/
lemma idle_of_serial {d₀ : Db} {t₀ : ℤ} {ts : List ServiceTurn} {w : World}
    (h : (service D).Serial (World.init d₀ t₀) ts w) : w.writer = none ∧ t₀ ≤ w.clock := by
  induction h with
  | start => exact ⟨rfl, le_rfl⟩
  | @turn ts w w' t h hp ih =>
    refine ⟨writer_of_plays hp ?_, le_trans ?_ (clock_of_plays hp)⟩
    · split_ifs
      · rfl
      · exact ih.1
    · split_ifs
      · exact ih.2
      · exact ih.2

/-! ### A run in which nothing fails -/

/-- A sequence of choices at which nothing fails and no clock goes back. -/
structure Steady (f : ℕ → Choice) : Prop where
  fine : ∀ k, (f k).fails = false
  reading : Monotone fun k => (f k).reading
  instant : Monotone fun k => (f k).instant

/-- Before the `k`-th choice the database is `d`, the lock is `o`, and the choice can be made. -/
structure Before (f : ℕ → Choice) (k : ℕ) (d : Db) (o : Option (ℕ × Db)) (w : World) : Prop where
  db : w.db = d
  writer : w.writer = o
  clock : w.clock ≤ (f k).reading
  instant : w.instant ≤ (f k).instant

section along

variable {f : ℕ → Choice} {i k : ℕ} {d : Db} {o : Option (ℕ × Db)} {w : World}

lemma Before.next {d' : Db} {o' : Option (ℕ × Db)} {w' : World} (hf : Steady f) (hdb : w'.db = d')
    (hwriter : w'.writer = o') (hclock : w'.clock = (f k).reading)
    (hinstant : w'.instant = (f k).instant) : Before f (k + 1) d' o' w' :=
  ⟨hdb, hwriter, hclock ▸ hf.reading k.le_succ, hinstant ▸ hf.instant k.le_succ⟩

lemma Before.enabled (h : Before f k d none w) (i : ℕ) (c : Command) (hc : c ≠ .newUuid) :
    c.enabled i (f k) w = true := by
  cases c <;> simp_all [Command.enabled, h.clock, h.instant, h.writer]

lemma along_enforce (hf : Steady f) (h : Before f k d none w) {ctx : Context} {scope : Text}
    {limit : ℕ} {Q : Except Failure Unit → World × ℕ → Prop}
    (hadmitted :
      (w.limiter.check (f k).instant (ctx.clientKey ++ ':' :: scope) limit minute).1 = true)
    (hQ : ∀ w', Before f (k + 1) d none w' → Q (.ok ()) (w', k + 1)) :
    (enforce ctx scope limit).run.Wp ((service D).along f i) Q (w, k) := by
  refine ⟨h.enabled i (.check (ctx.clientKey ++ ':' :: scope) limit minute) (by simp), ?_⟩
  simp only [service, Command.exec, Prog.wp_ret, hadmitted, if_true]
  exact hQ _ (.next hf h.db h.writer rfl rfl)

lemma along_now (hf : Steady f) (h : Before f k d o w) (hen : Command.now.enabled i (f k) w = true)
    {Q : Except Failure ℤ → World × ℕ → Prop}
    (hQ : ∀ w', Before f (k + 1) d o w' → Q (.ok (f k).reading) (w', k + 1)) :
    now.run.Wp ((service D).along f i) Q (w, k) :=
  ⟨hen, hQ _ (.next hf h.db h.writer rfl rfl)⟩

lemma along_fetchIn (hf : Steady f) (h : Before f k d none w) {q : Select}
    {Q : Except Failure q.Ans → World × ℕ → Prop}
    (hQ : ∀ w', Before f (k + 1) d none w' → Q (.ok (q.eval D (f k).reading d)) (w', k + 1)) :
    (fetchIn q).run.Wp ((service D).along f i) Q (w, k) := by
  refine ⟨h.enabled i (.selectIn q) (by simp), ?_⟩
  simp only [service, Command.exec, Prog.wp_ret, hf.fine k, World.view_of_none h.writer, h.db]
  exact hQ _ (.next hf h.db h.writer rfl rfl)

lemma along_executeIn (hf : Steady f) (h : Before f k d none w) {u : Write} {n : ℕ} {d' : Db}
    (hu : u.apply D (f k).reading d = .ok (n, d'))
    {Q : Except Failure ℕ → World × ℕ → Prop}
    (hQ : ∀ w', Before f (k + 1) d (some (i, d')) w' → Q (.ok n) (w', k + 1)) :
    (executeIn u).run.Wp ((service D).along f i) Q (w, k) := by
  refine ⟨h.enabled i (.executeIn u) (by simp), ?_⟩
  simp only [service, Command.exec, Prog.wp_ret, hf.fine k, World.view_of_none h.writer, h.db, hu]
  exact hQ _ (.next hf h.db rfl rfl rfl)

lemma along_transaction (hf : Steady f) (h : Before f k d none w) {body : Resolver Unit}
    {Q : Except Failure Unit → World × ℕ → Prop}
    (hbody : ∀ w', Before f (k + 1) d none w' → body.run.Wp ((service D).along f i)
      (fun r s => ∃ d', r = .ok () ∧ Before f s.2 d (some (i, d')) s.1 ∧
        ∀ w', Before f (s.2 + 1) d' none w' → Q (.ok ()) (w', s.2 + 1)) (w', k + 1)) :
    (transaction body).run.Wp ((service D).along f i) Q (w, k) := by
  rw [wp_transaction]
  refine ⟨h.enabled i .begin (by simp), ?_⟩
  simp only [service, Command.exec, hf.fine k]
  refine (hbody (w.tick (f k)) (.next hf h.db h.writer rfl rfl)).mono ?_
    fun c s post post' hpost hc =>
    ⟨hc.1, hpost _ _ hc.2⟩
  rintro r ⟨w', k'⟩ ⟨d', rfl, hw', hQ⟩
  refine ⟨?_, ?_⟩
  · simp [Command.enabled, hw'.clock, hw'.instant]
  · simp only [Command.exec, hf.fine k']
    refine hQ _ (.next hf ?_ ?_ rfl rfl)
    · exact World.view_of_writer hw'.writer
    · have hwriter : w'.writer = some (i, d') := hw'.writer
      simp [World.settle, World.release, World.tick, hwriter]

end along

end TittyBackend
