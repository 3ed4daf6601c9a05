import TittyBackend.Data.TextOrder
import TittyBackend.Failures
import TittyBackend.Lib.Switch

/-!
# The block list

In a sequential run the block list of an account is what its blocks and unblocks so far have made
of it: the first block since the last unblock sets the time, and a later one leaves it.
-/

namespace TittyBackend

open Numerals Programs Programs.System Resolver Switches

variable {D : Deployment} {d₀ : Db} {t₀ : ℤ}

/-! ### The history of a pair -/

/-- What a turn does to the block of `s` by `r`. A block reads the clock as its second command. -/
def blockMove (r s : Text) (t : ServiceTurn) : Move ℤ :=
  match t.op, t.response, t.choices with
  | .blockIdentity ctx _, .ok (.blocked x), _ :: ch :: _ =>
    if ctx.account = some r ∧ x.accountId = s then .on ch.reading else .keep
  | .unblockIdentity ctx input, .ok _, _ =>
    if ctx.account = some r ∧ input.accountId = s then .off else .keep
  | _, _, _ => .keep

lemma blockMove_error {r s : Text} {t : ServiceTurn} {e : Failure} (h : t.response = .error e) :
    blockMove r s t = .keep := by
  obtain ⟨restarted, op, chs, response⟩ := t
  subst h
  cases op <;> rfl

/-- The operation concerns the block of `s` by `r`. -/
def Op.Concerns (d : Db) (r s : Text) : Op → Prop
  | .blockIdentity ctx input => ctx.account = some r ∧ ∃ name a,
      normaliseIdentitty input.identitty = .ok name ∧ d.accountByIdentitty name = some a ∧
        a.accountId = s
  | .unblockIdentity ctx input => ctx.account = some r ∧ input.accountId = s
  | _ => False

/-- A block that answers `INTERNAL_ERROR` after its INSERT has run. -/
def CutShort (t : ServiceTurn) : Prop :=
  (∃ ctx input, t.op = .blockIdentity ctx input) ∧ t.response = .error (.api .internal) ∧
    3 < t.choices.length

/-! ### What is promised -/

/-- The list `xs` of the accounts that `r` has blocked, after the turns `ts`. -/
structure Lists (ts : List ServiceTurn) (d : Db) (r : Text) (xs : List BlockedIdentity) :
    Prop where
  once : (xs.map BlockedIdentity.accountId).Nodup
  listed : ∀ s, (∃ x ∈ xs, x.accountId = s) ↔ LastOn (blockMove r s) ts
  name : ∀ x ∈ xs, ∃ a ∈ d.accounts.rows, a.accountId = x.accountId ∧ a.identitty = x.identitty
  blockedAt : ∀ x ∈ xs, OnSince (blockMove r x.accountId) ts x.blockedAt
  ordered : xs.Pairwise fun x y => x.blockedAt ≤ y.blockedAt
  notSelf : ∀ x ∈ xs, x.accountId ≠ r

/-- What the turn `t`, from `w` to `w'` and after the turns `ts`, does with the block list. -/
structure BlockSemantics (ts : List ServiceTurn) (w w' : World) (t : ServiceTurn) : Prop where
  lists : ∀ ctx r, t.op = .blockedIdentities ctx → ctx.account = some r →
    (∃ xs, t.response = .ok (.blockedList xs) ∧ Lists ts w.db r xs) ∨
      t.response = .error (.api .internal) ∧ ∃ ch ∈ t.choices, ch.fails = true
  again : ∀ ctx input r x τ, t.op = .blockIdentity ctx input → ctx.account = some r →
    t.response = .ok (.blocked x) → OnSince (blockMove r x.accountId) ts τ →
      x.blockedAt = τ ∧ w'.db.blocks.rows = w.db.blocks.rows
  idle : ∀ ctx r s, t.op = .unblockIdentity ctx ⟨s⟩ → ctx.account = some r →
    ¬ LastOn (blockMove r s) ts → w'.db = w.db
  apart : ∀ b, ¬ t.op.Concerns w.db b.blockerAccountId b.blockedAccountId →
    (b ∈ w'.db.blocks.rows ↔ b ∈ w.db.blocks.rows)

/-! ### What the operations do to the rows -/

/-- How a block alone ends, and what it leaves of the block rows. -/
inductive BlockStep (ctx : Context) (input : BlockIdentityInput) (d : Db) :
    Response → World × List Choice → Prop
  | refused {e : Failure} {w : World} {chs : List Choice} (hdb : w.db = d) :
      BlockStep ctx input d (.error e) (w, chs)
  | cut {blocker name : Text} {target : AccountRow} {c₀ c₁ c₂ c₃ : Choice} {rest : List Choice}
      {w : World} (h : BlockInserts d ctx input blocker name target c₀ c₂)
      (hrows : w.db.blocks.rows = Write.blockRows d.blocks.rows
        (.insertBlock ⟨blocker, target.accountId, toRfc3339 c₁.reading⟩)) :
      BlockStep ctx input d (.error (.api .internal)) (w, c₀ :: c₁ :: c₂ :: c₃ :: rest)
  | done {blocker name : Text} {target : AccountRow} {c₀ c₁ c₂ : Choice} {rest : List Choice}
      {w : World} {τ : ℤ} (h : BlockInserts d ctx input blocker name target c₀ c₂)
      (hrows : w.db.blocks.rows = Write.blockRows d.blocks.rows
        (.insertBlock ⟨blocker, target.accountId, toRfc3339 c₁.reading⟩))
      (hτ : parseFromRfc3339 (d.blockTime blocker target.accountId c₁.reading) = some τ) :
      BlockStep ctx input d (.ok (.blocked ⟨target.accountId, target.identitty, τ⟩))
        (w, c₀ :: c₁ :: c₂ :: rest)

lemma blockStep_of_plays {ctx : Context} {input : BlockIdentityInput} {w w' : World} {i : ℕ}
    {chs : List Choice} {r : Response}
    (h : (service D).Plays i (Op.program D (.blockIdentity ctx input)) w chs r w') :
    BlockStep ctx input w.db r (w', chs) := by
  refine h.of_wp (Q := BlockStep ctx input w.db) ?_
  simp only [Op.program, Op.resolver, blockIdentity, authenticated, wp_map, wp_bind, wp_orFail,
    wp_lift, wp_refuse, alone_now, alone_execute, alone_fetch (.blockTarget _),
    alone_fetch (.blockCreatedAt _ _), wp_pure, World.db_tick, World.db_put, Except.map,
    List.nil_append, List.cons_append]
  have refused {e w₁ chs} (hw : w₁.db = w.db) :
    BlockStep ctx input w.db (.error e) (w₁, chs) := .refused hw
  refine ⟨fun blocker hacc => ⟨fun name hname c₀ _ => ⟨fun _ => refused rfl, fun hf₀ => ?_⟩,
    fun _ _ => refused rfl⟩, fun _ => refused rfl⟩
  refine ⟨fun target htarget => ⟨fun _ => refused rfl, fun hne c₁ _ c₂ _ => ?_⟩,
    fun _ => refused rfl⟩
  refine ⟨fun _ => refused rfl, fun hf₂ => ⟨fun _ _ => refused rfl, ?_⟩⟩
  intro n d₁ hu c₃ _
  obtain ⟨row, hrow, rfl⟩ := Option.map_eq_some_iff.mp htarget
  have hins : BlockInserts w.db ctx input blocker name row c₀ c₂ :=
    ⟨hacc, hname, hrow, hne, known_of_insertBlock hu, hf₀, hf₂⟩
  have hrows := Write.blocks_apply hu
  refine ⟨fun _ => .cut hins hrows, fun hf₃ => ⟨fun e he => (by cases he), fun m d₂ hd c₄ _ => ?_⟩⟩
  have hrows₂ : d₂.blocks.rows = d₁.blocks.rows := Write.blocks_apply hd
  refine ⟨fun _ => .cut hins (hrows₂.trans hrows), fun hf₄ => ?_⟩
  have hstored : Select.eval D c₄.reading d₂ (.blockCreatedAt blocker row.accountId) =
      some (w.db.blockTime blocker row.accountId c₁.reading) := by
    rw [← blockTime_of_insertBlock hu c₄.reading]
    simp only [Select.eval, hrows₂]
  rw [hstored]
  refine ⟨?_, fun h => by cases h⟩
  rintro _ ⟨⟩
  refine ⟨fun τ hτ => .done hins (hrows₂.trans hrows) (parseDatetime_eq_ok.mp hτ), fun e he => ?_⟩
  rw [parseDatetime] at he
  split at he
  · cases he
  · cases he
    exact .cut hins (hrows₂.trans hrows)

/-- How an unblock alone ends. -/
lemma unblock_of_plays {ctx : Context} {input : UnblockIdentityInput} {w w' : World} {i : ℕ}
    {chs : List Choice} {r : Response}
    (h : (service D).Plays i (Op.program D (.unblockIdentity ctx input)) w chs r w') :
    (∃ e, r = .error e ∧ w'.db = w.db) ∨ ∃ blocker now n, ctx.account = some blocker ∧
      r = .ok (.flag true) ∧ (Write.deleteBlock blocker input.accountId).apply D now w.db =
        .ok (n, w'.db) := by
  refine h.of_wp (Q := fun r x => (∃ e, r = .error e ∧ x.1.db = w.db) ∨ ∃ blocker now n,
    ctx.account = some blocker ∧ r = .ok (.flag true) ∧
      (Write.deleteBlock blocker input.accountId).apply D now w.db = .ok (n, x.1.db)) ?_
  simp only [Op.program, Op.resolver, unblockIdentity, authenticated, wp_map, wp_bind, wp_orFail,
    alone_execute, wp_pure, World.db_tick, World.db_put, Except.map]
  refine ⟨fun blocker hacc ch _ => ⟨fun _ => .inl ⟨_, rfl, trivial⟩, fun _ => ⟨fun e he => ?_,
    fun n d hu => .inr ⟨blocker, ch.reading, n, hacc, trivial, hu⟩⟩⟩,
    fun _ => .inl ⟨_, rfl, trivial⟩⟩
  cases he

/-- Only blocks and unblocks touch the block rows. -/
lemma blocks_of_plays {op : Op} {w w' : World} {i : ℕ} {chs : List Choice} {r : Response}
    (h : (service D).Plays i (op.program D) w chs r w') (hw : w.writer = none)
    (hblock : ∀ ctx input, op ≠ .blockIdentity ctx input)
    (hunblock : ∀ ctx input, op ≠ .unblockIdentity ctx input) :
    w'.db.blocks.rows = w.db.blocks.rows := by
  refine (Exists.elim (h.invariant (scripted D op)
    (fun w₁ _ => w₁.db.blocks.rows = w.db.blocks.rows ∧
      ∀ x ∈ w₁.writer, x.2.blocks.rows = w.db.blocks.rows) ⟨rfl, by simp [hw]⟩ ?_)
    fun _ hJ => hJ.1.1)
  rintro w₁ past c ch ⟨hdb, hheld⟩ hi hen
  have heff : Effect D i ch w₁ ⟨c, ((service D).exec i c ch w₁).1⟩
    ((service D).exec i c ch w₁).2 := Command.effect c hen
  have hview : (w₁.view i).blocks.rows = w.db.blocks.rows := by
    rcases w₁.view_cases i with hview | ⟨d, hx, hview⟩
    · rw [hview, hdb]
    · rw [hview]
      exact hheld _ hx
  have hfilter : ∀ x ∈ w₁.writer.filter fun x => x.1 ≠ i, x.2.blocks.rows = w.db.blocks.rows :=
    fun x hx => hheld x (Option.mem_filter_iff.mp hx).1
  generalize hx : (⟨c, ((service D).exec i c ch w₁).1⟩ : Exchange Command Command.Ans) = x at heff
  generalize ((service D).exec i c ch w₁).2 = w₂ at heff ⊢
  cases heff with
  | quiet | draw => exact ⟨hdb, hheld⟩
  | @write u n d hu hnone =>
    obtain ⟨rfl, -⟩ := Sigma.mk.inj hx
    refine ⟨?_, by simp [World.tick, hnone]⟩
    rw [← hdb]
    refine (Write.blocks_apply hu).trans ?_
    cases u with
    | insertBlock b =>
      obtain ⟨ctx, input, -, -, -, hop, -⟩ := hi
      exact absurd hop (hblock ctx input)
    | deleteBlock blocker blocked =>
      obtain ⟨ctx, hop, -⟩ := hi
      exact absurd hop (hunblock ctx _)
    | _ => rfl
  | @hold u n d hu hnone =>
    obtain ⟨rfl, -⟩ := Sigma.mk.inj hx
    obtain ⟨ctx, input, row, t, t', -, -, rfl, -⟩ := hi
    refine ⟨hdb, fun x hx => ?_⟩
    obtain rfl := Option.some.inj hx
    exact (Write.blocks_apply hu).trans hview
  | settle => exact ⟨hview, hfilter⟩
  | release he => exact ⟨hdb, hfilter⟩

/-! ### The rows mirror the history -/

/-- The block rows are the pairs that are blocked, with the times since when they are. -/
structure Mirrors (ts : List ServiceTurn) (d : Db) : Prop where
  rows : ∀ b, b ∈ d.blocks.rows ↔ ∃ τ, b.createdAt = toRfc3339 τ ∧
    since (blockMove b.blockerAccountId b.blockedAccountId) ts = some τ
  sound : ∀ r s τ, since (blockMove r s) ts = some τ → InEra τ ∧ s ≠ r

/-- The time that a block reads back is the one of the first block since the last unblock, which
may be its own. -/
lemma Mirrors.blockTime {ts : List ServiceTurn} {d : Db} (h : Mirrors ts d) (r s : Text) (t : ℤ) :
    d.blockTime r s t = toRfc3339 ((since (blockMove r s) ts).getD t) := by
  rw [Db.blockTime]
  cases hs : since (blockMove r s) ts with
  | none =>
    rw [List.find?_eq_none.mpr]
    · rfl
    · intro b hb hp
      obtain ⟨rfl, rfl⟩ := of_decide_eq_true hp
      obtain ⟨τ, -, hτ⟩ := (h.rows b).mp hb
      rw [hs] at hτ
      cases hτ
  | some τ =>
    have hb : ⟨r, s, toRfc3339 τ⟩ ∈ d.blocks.rows := (h.rows _).mpr ⟨τ, rfl, hs⟩
    rw [d.blocks.find?_eq_some (p := fun b => b.blockerAccountId = r ∧ b.blockedAccountId = s) hb
      (by simp) fun b hp => of_decide_eq_true hp]
    rfl

lemma Mirrors.clash_iff {ts : List ServiceTurn} {d : Db} (h : Mirrors ts d) {b : BlockRecord} :
    (∀ b' ∈ d.blocks.rows, ¬ b'.Clash b) ↔
      since (blockMove b.blockerAccountId b.blockedAccountId) ts = none := by
  constructor
  · intro hfresh
    by_contra hs
    obtain ⟨τ, hτ⟩ := Option.ne_none_iff_exists'.mp hs
    exact hfresh ⟨b.blockerAccountId, b.blockedAccountId, toRfc3339 τ⟩
      ((h.rows _).mpr ⟨τ, rfl, hτ⟩) ⟨rfl, rfl⟩
  · rintro hs b' hb' ⟨hblocker, hblocked⟩
    obtain ⟨τ, -, hτ⟩ := (h.rows b').mp hb'
    rw [hblocker, hblocked, hs] at hτ
    cases hτ

/-- A turn that neither moves a switch nor touches a row. -/
lemma Mirrors.keep {ts : List ServiceTurn} {t : ServiceTurn} {d d' : Db} (h : Mirrors ts d)
    (hmove : ∀ r s, blockMove r s t = .keep) (hrows : d'.blocks.rows = d.blocks.rows) :
    Mirrors (t :: ts) d' where
  rows b := by rw [hrows, h.rows b, since_keep (hmove _ _)]
  sound r s τ hτ := h.sound r s τ (by rwa [since_keep (hmove r s)] at hτ)

/-- A block that succeeds. -/
lemma Mirrors.block {ts : List ServiceTurn} {t : ServiceTurn} {d d' : Db} (h : Mirrors ts d)
    {b : BlockRecord} {u τ : ℤ} (hb : b.createdAt = toRfc3339 u)
    (hmove : ∀ r s, blockMove r s t =
      if b.blockerAccountId = r ∧ b.blockedAccountId = s then .on u else .keep)
    (hne : b.blockedAccountId ≠ b.blockerAccountId)
    (hτ : parseFromRfc3339 (d.blockTime b.blockerAccountId b.blockedAccountId u) = some τ)
    (hrows : d'.blocks.rows = Write.blockRows d.blocks.rows (.insertBlock b)) :
    Mirrors (t :: ts) d' := by
  rw [h.blockTime] at hτ
  have hpair : ∀ r s, b.blockerAccountId = r ∧ b.blockedAccountId = s →
      since (blockMove r s) (t :: ts) = (since (blockMove r s) ts).or (some u) :=
    fun r s hp => since_on ((hmove r s).trans (if_pos hp))
  have hother : ∀ r s, ¬ (b.blockerAccountId = r ∧ b.blockedAccountId = s) →
      since (blockMove r s) (t :: ts) = since (blockMove r s) ts :=
    fun r s hp => since_keep ((hmove r s).trans (if_neg hp))
  simp only [Write.blockRows, h.clash_iff] at hrows
  constructor
  · intro b'
    by_cases hp : b.blockerAccountId = b'.blockerAccountId ∧
        b.blockedAccountId = b'.blockedAccountId
    · rw [hpair _ _ hp, ← hp.1, ← hp.2]
      cases hs : since (blockMove b.blockerAccountId b.blockedAccountId) ts with
      | none =>
        have hnot : b' ∉ d.blocks.rows := fun hb' => by
          obtain ⟨τ', -, hτ'⟩ := (h.rows b').mp hb'
          rw [← hp.1, ← hp.2, hs] at hτ'
          cases hτ'
        rw [hrows, if_pos hs, List.mem_append, List.mem_singleton, Option.none_or]
        constructor
        · rintro (hb' | rfl)
          · exact absurd hb' hnot
          · exact ⟨u, hb, rfl⟩
        · rintro ⟨τ', hτ', heq⟩
          obtain rfl := Option.some.inj heq
          refine .inr ?_
          cases b
          cases b'
          simp_all
      | some τ₀ =>
        rw [hrows, if_neg (by simp [hs]), h.rows, ← hp.1, ← hp.2, hs, Option.some_or]
    · rw [hother _ _ hp, ← h.rows, hrows]
      split_ifs
      · rw [List.mem_append, List.mem_singleton, or_iff_left]
        rintro rfl
        exact hp ⟨rfl, rfl⟩
      · rfl
  · intro r s τ' hτ'
    by_cases hp : b.blockerAccountId = r ∧ b.blockedAccountId = s
    · rw [hpair r s hp] at hτ'
      obtain ⟨rfl, rfl⟩ := hp
      refine ⟨?_, hne⟩
      by_contra hera
      rw [Option.or_eq_some_iff] at hτ'
      rcases hτ' with hs | ⟨hs, heq⟩
      · exact hera (h.sound _ _ _ hs).1
      · obtain rfl := Option.some.inj heq
        rw [hs, Option.getD_none, parse_toRfc3339_none hera] at hτ
        cases hτ
    · rw [hother r s hp] at hτ'
      exact h.sound r s τ' hτ'

/-- An unblock that succeeds. -/
lemma Mirrors.unblock {ts : List ServiceTurn} {t : ServiceTurn} {d d' : Db} (h : Mirrors ts d)
    {blocker blocked : Text} (hmove : ∀ r s, blockMove r s t =
      if blocker = r ∧ blocked = s then .off else .keep)
    (hrows : d'.blocks.rows = Write.blockRows d.blocks.rows (.deleteBlock blocker blocked)) :
    Mirrors (t :: ts) d' := by
  have hpair : ∀ r s, blocker = r ∧ blocked = s → since (blockMove r s) (t :: ts) = none :=
    fun r s hp => since_off ((hmove r s).trans (if_pos hp))
  have hother : ∀ r s, ¬ (blocker = r ∧ blocked = s) →
      since (blockMove r s) (t :: ts) = since (blockMove r s) ts :=
    fun r s hp => since_keep ((hmove r s).trans (if_neg hp))
  constructor
  · intro b
    rw [hrows, Write.blockRows, List.mem_filter, decide_eq_true_eq]
    by_cases hp : blocker = b.blockerAccountId ∧ blocked = b.blockedAccountId
    · rw [hpair _ _ hp]
      simp [hp.1, hp.2]
    · rw [hother _ _ hp, ← h.rows, and_iff_left]
      exact fun heq => hp ⟨heq.1.symm, heq.2.symm⟩
  · intro r s τ hτ
    by_cases hp : blocker = r ∧ blocked = s
    · rw [hpair r s hp] at hτ
      cases hτ
    · rw [hother r s hp] at hτ
      exact h.sound r s τ hτ

/-- One turn of a sequential run. -/
lemma Mirrors.turn {ts : List ServiceTurn} {t : ServiceTurn} {w w' : World} {i : ℕ}
    (h : Mirrors ts w.db) (hw : w.writer = none) (hcut : ¬ CutShort t)
    (hp : (service D).Plays i (t.op.program D) w t.choices t.response w') :
    Mirrors (t :: ts) w'.db := by
  obtain ⟨restarted, op, chs, response⟩ := t
  by_cases hblock : ∃ ctx input, op = .blockIdentity ctx input
  · obtain ⟨ctx, input, rfl⟩ := hblock
    cases blockStep_of_plays hp with
    | refused hdb => exact h.keep (fun r s => blockMove_error rfl) (by rw [hdb])
    | cut => exact absurd ⟨⟨ctx, input, rfl⟩, rfl, by simp⟩ hcut
    | @done blocker name target c₀ c₁ c₂ rest _ τ hins hrows hτ =>
      refine h.block (b := ⟨blocker, target.accountId, toRfc3339 c₁.reading⟩) rfl (fun r s => ?_)
        hins.distinct hτ hrows
      simp only [blockMove, hins.account, Option.some.injEq]
  by_cases hunblock : ∃ ctx input, op = .unblockIdentity ctx input
  · obtain ⟨ctx, input, rfl⟩ := hunblock
    rcases unblock_of_plays hp with ⟨e, rfl, hdb⟩ | ⟨blocker, now, n, hacc, rfl, hu⟩
    · exact h.keep (fun r s => blockMove_error rfl) (by rw [hdb])
    · refine h.unblock (fun r s => ?_) (Write.blocks_apply hu)
      simp only [blockMove, hacc, Option.some.injEq]
  have hkeep : ∀ r s, blockMove r s ⟨restarted, op, chs, response⟩ = .keep := by
    intro r s
    cases op with
    | blockIdentity ctx input => exact absurd ⟨ctx, input, rfl⟩ hblock
    | unblockIdentity ctx input => exact absurd ⟨ctx, input, rfl⟩ hunblock
    | _ => rfl
  exact h.keep hkeep (blocks_of_plays hp hw (fun ctx input hop => hblock ⟨ctx, input, hop⟩)
    fun ctx input hop => hunblock ⟨ctx, input, hop⟩)

theorem mirrors_of_serial {ts : List ServiceTurn} {w : World} (hd₀ : d₀.blocks.rows = [])
    (h : (service D).Serial (World.init d₀ t₀) ts w) (hcut : ∀ t ∈ ts, ¬ CutShort t) :
    Mirrors ts w.db := by
  induction h with
  | start => exact ⟨fun b => by simp [World.init, hd₀, since], fun r s τ hτ => by cases hτ⟩
  | @turn ts w w' t h hp ih =>
    have hm := ih fun t ht => hcut t (List.mem_cons_of_mem _ ht)
    refine Mirrors.turn ?_ ?_ (hcut t List.mem_cons_self) hp
    · split_ifs
      · exact hm
      · exact hm
    · split_ifs
      · rfl
      · exact (idle_of_serial h).1

/-! ### The list -/

lemma Select.mem_blockedIdentities {now : ℤ} {d : Db} {r : Text} {row : BlockedIdentityRow} :
    row ∈ Select.eval D now d (.blockedIdentities r) ↔
      ∃ b ∈ d.blocks.rows, b.blockerAccountId = r ∧ d.joinBlocked b = some row := by
  refine (List.perm_insertionSort _ _).mem_iff.trans (List.mem_filterMap.trans ?_)
  simp only [List.mem_filter, decide_eq_true_eq, and_assoc]

lemma Db.joinBlocked_eq_some {d : Db} {b : BlockRecord} {row : BlockedIdentityRow}
    (h : d.joinBlocked b = some row) : ∃ a ∈ d.accounts.rows, a.accountId = b.blockedAccountId ∧
      row = ⟨b.blockedAccountId, a.identitty, b.createdAt⟩ := by
  obtain ⟨a, ha, rfl⟩ := Option.map_eq_some_iff.mp h
  have hid := List.find?_some ha
  exact ⟨a, List.mem_of_find?_eq_some ha, of_decide_eq_true hid, rfl⟩

/-- Every block is joined, since its accounts are there. -/
lemma Db.joinBlocked_isSome {d : Db} {b : BlockRecord} (hb : b ∈ d.blocks.rows) :
    ∃ row, d.joinBlocked b = some row := by
  obtain ⟨a, ha, hid⟩ := (d.block_accounts b hb).2
  have hfind : d.accountById b.blockedAccountId = some a :=
    d.accounts.find?_eq_some ha (decide_eq_true hid) fun a' h =>
      .inl ((of_decide_eq_true h).trans hid.symm)
  exact ⟨_, Option.map_eq_some_iff.mpr ⟨a, hfind, rfl⟩⟩

/-- Each account is joined once. -/
lemma Select.nodup_blockedIdentities (now : ℤ) (d : Db) (r : Text) :
    ((Select.eval D now d (.blockedIdentities r)).map
      BlockedIdentityRow.blockedAccountId).Nodup := by
  refine ((List.perm_insertionSort _ _).map _).nodup_iff.mpr (List.pairwise_map.mpr ?_)
  refine List.pairwise_filterMap.mpr ((d.blocks.distinct.filter _).imp_of_mem ?_)
  intro b b' hb hb' hclash row hrow row' hrow'
  obtain ⟨-, -, -, rfl⟩ := Db.joinBlocked_eq_some hrow
  obtain ⟨-, -, -, rfl⟩ := Db.joinBlocked_eq_some hrow'
  have hr := of_decide_eq_true (List.mem_filter.mp hb).2
  have hr' := of_decide_eq_true (List.mem_filter.mp hb').2
  exact fun heq => hclash ⟨hr.trans hr'.symm, heq⟩

/-- The identity that a row with a stored time becomes. -/
def BlockedIdentityRow.model (row : BlockedIdentityRow) : BlockedIdentity :=
  ⟨row.blockedAccountId, row.identitty, (parseFromRfc3339 row.createdAt).getD 0⟩

lemma BlockedIdentityRow.intoModel_eq {row : BlockedIdentityRow} {τ : ℤ} (hτ : InEra τ)
    (h : row.createdAt = toRfc3339 τ) : row.intoModel = .ok row.model := by
  rw [intoModel, model, h, parseDatetime, parse_toRfc3339 hτ]
  rfl

theorem Mirrors.lists {ts : List ServiceTurn} {d : Db} (h : Mirrors ts d) (now : ℤ) (r : Text) :
    ∃ xs, (Select.eval D now d (.blockedIdentities r)).mapM BlockedIdentityRow.intoModel = .ok xs ∧
      Lists ts d r xs := by
  -- What stands behind a row.
  have hrow : ∀ row ∈ Select.eval D now d (.blockedIdentities r), ∃ τ, InEra τ ∧
      row.createdAt = toRfc3339 τ ∧ row.model.blockedAt = τ ∧
      since (blockMove r row.blockedAccountId) ts = some τ ∧
      ∃ a ∈ d.accounts.rows, a.accountId = row.blockedAccountId ∧ a.identitty = row.identitty := by
    intro row hrow
    obtain ⟨b, hb, rfl, hjoin⟩ := Select.mem_blockedIdentities.mp hrow
    obtain ⟨a, ha, hid, rfl⟩ := Db.joinBlocked_eq_some hjoin
    obtain ⟨τ, hτ, hsince⟩ := (h.rows b).mp hb
    have hera := (h.sound _ _ _ hsince).1
    refine ⟨τ, hera, hτ, ?_, hsince, a, ha, hid, rfl⟩
    simp only [BlockedIdentityRow.model, hτ, parse_toRfc3339 hera, Option.getD_some]
  refine ⟨_, mapM_eq_map (g := BlockedIdentityRow.model) fun row hmem => ?_, ?_⟩
  · obtain ⟨τ, hera, hτ, -⟩ := hrow row hmem
    exact BlockedIdentityRow.intoModel_eq hera hτ
  refine ⟨?_, fun s => ?_, fun x hx => ?_, fun x hx => ?_, ?_, fun x hx => ?_⟩
  · rw [List.map_map]
    exact Select.nodup_blockedIdentities now d r
  · rw [← since_isSome_iff]
    constructor
    · rintro ⟨x, hx, rfl⟩
      obtain ⟨row, hmem, rfl⟩ := List.mem_map.mp hx
      obtain ⟨τ, -, -, -, hsince, -⟩ := hrow row hmem
      exact ⟨τ, hsince⟩
    · rintro ⟨τ, hsince⟩
      have hb : ⟨r, s, toRfc3339 τ⟩ ∈ d.blocks.rows := (h.rows _).mpr ⟨τ, rfl, hsince⟩
      obtain ⟨row, hjoin⟩ := Db.joinBlocked_isSome hb
      obtain ⟨a, -, -, rfl⟩ := Db.joinBlocked_eq_some hjoin
      exact ⟨_, List.mem_map_of_mem (Select.mem_blockedIdentities.mpr ⟨_, hb, rfl, hjoin⟩), rfl⟩
  · obtain ⟨row, hmem, rfl⟩ := List.mem_map.mp hx
    obtain ⟨τ, -, -, -, -, hname⟩ := hrow row hmem
    exact hname
  · obtain ⟨row, hmem, rfl⟩ := List.mem_map.mp hx
    obtain ⟨τ, -, -, hat, hsince, -⟩ := hrow row hmem
    rw [hat]
    exact since_eq_some_iff.mp hsince
  · refine List.pairwise_map.mpr
      ((pairwise_insertionSort_text BlockedIdentityRow.createdAt _).imp_of_mem ?_)
    intro row row' hmem hmem' hle
    obtain ⟨τ, hera, hτ, hat, -⟩ := hrow row hmem
    obtain ⟨τ', hera', hτ', hat', -⟩ := hrow row' hmem'
    rw [hat, hat']
    rwa [hτ, hτ', toRfc3339_le_iff hera hera'] at hle
  · obtain ⟨row, hmem, rfl⟩ := List.mem_map.mp hx
    obtain ⟨τ, -, -, -, hsince, -⟩ := hrow row hmem
    exact (h.sound _ _ _ hsince).2

/-- How a call of `blockedIdentities` alone ends. -/
lemma blockedIdentities_of_plays {ctx : Context} {r : Text} {w w' : World} {i : ℕ}
    {chs : List Choice} {response : Response} (hacc : ctx.account = some r)
    (h : (service D).Plays i (Op.program D (.blockedIdentities ctx)) w chs response w') :
    (response = .error (.api .internal) ∧ ∃ ch ∈ chs, ch.fails = true) ∨
      ∃ now, ∀ xs, (Select.eval D now w.db (.blockedIdentities r)).mapM
        BlockedIdentityRow.intoModel = .ok xs → response = .ok (.blockedList xs) := by
  refine h.of_wp (Q := fun response x =>
    (response = .error (.api .internal) ∧ ∃ ch ∈ x.2, ch.fails = true) ∨
      ∃ now, ∀ xs, (Select.eval D now w.db (.blockedIdentities r)).mapM
        BlockedIdentityRow.intoModel = .ok xs → response = .ok (.blockedList xs)) ?_
  simp only [Op.program, Op.resolver, blockedIdentities, authenticated, hacc, orFail_some,
    wp_map, wp_bind, wp_pure, wp_lift, alone_fetch (.blockedIdentities _), Except.map,
    List.nil_append]
  intro ch _
  refine ⟨fun hf => .inl ⟨trivial, ch, List.mem_singleton_self ch, hf⟩, fun _ => ⟨?_, ?_⟩⟩
  · intro xs hxs
    refine .inr ⟨ch.reading, fun ys hys => ?_⟩
    rw [Except.ok.inj (hxs.symm.trans hys)]
  · intro e he
    refine .inr ⟨ch.reading, fun ys hys => ?_⟩
    cases he.symm.trans hys

/-- Deleting a block that is not there changes nothing. -/
lemma deleteBlock_of_absent {blocker blocked : Text} {now : ℤ} {d d' : Db} {n : ℕ}
    (h : ∀ b ∈ d.blocks.rows, ¬ (b.blockerAccountId = blocker ∧ b.blockedAccountId = blocked))
    (hu : (Write.deleteBlock blocker blocked).apply D now d = .ok (n, d')) : d' = d := by
  cases hu
  refine Db.ext rfl rfl (Relational.Table.ext ?_) rfl
  exact List.filter_eq_self.mpr fun b hb => by
    simpa only [Bool.not_eq_true', decide_eq_false_iff_not] using h b hb

/-- The INSERT of a block concerns its own pair. -/
lemma BlockInserts.apart {ctx : Context} {input : BlockIdentityInput} {blocker name : Text}
    {target : AccountRow} {c₀ c₁ c₂ : Choice} {d d' : Db} {b : BlockRecord}
    (h : BlockInserts d ctx input blocker name target c₀ c₂)
    (hrows : d'.blocks.rows = Write.blockRows d.blocks.rows
      (.insertBlock ⟨blocker, target.accountId, toRfc3339 c₁.reading⟩))
    (hb : ¬ Op.Concerns d b.blockerAccountId b.blockedAccountId (.blockIdentity ctx input)) :
    b ∈ d'.blocks.rows ↔ b ∈ d.blocks.rows := by
  rw [hrows, Write.blockRows]
  split_ifs
  · rw [List.mem_append, List.mem_singleton, or_iff_left]
    rintro rfl
    exact hb ⟨h.account, name, target, h.normalised, h.exists_target, rfl⟩
  · rfl

/-- In a sequential run in which no block was cut short, the block list is what the history of
blocks and unblocks says. -/
theorem block_list (hd₀ : d₀.blocks.rows = []) {ts : List ServiceTurn} {t : ServiceTurn}
    {w w' : World} (h : (service D).Serial (World.init d₀ t₀) ts w)
    (hcut : ∀ t ∈ ts, ¬ CutShort t) (hp : (service D).Plays ts.length (t.op.program D)
      (if t.restarted then w.reset else w) t.choices t.response w') :
    BlockSemantics ts w w' t := by
  have hm := mirrors_of_serial hd₀ h hcut
  obtain ⟨restarted, op, chs, response⟩ := t
  dsimp only at hp
  generalize hw₁ : (if restarted then w.reset else w) = w₁ at hp
  have hsame : w₁.db = w.db ∧ w₁.writer = none := by
    subst hw₁
    split_ifs
    · exact ⟨rfl, rfl⟩
    · exact ⟨rfl, (idle_of_serial h).1⟩
  obtain ⟨hdb, hidle⟩ := hsame
  constructor
  case lists =>
    rintro ctx r rfl hacc
    rcases blockedIdentities_of_plays hacc hp with herr | ⟨now, hok⟩
    · exact .inr herr
    · rw [hdb] at hok
      obtain ⟨xs, hxs, hlists⟩ := hm.lists (D := D) now r
      exact .inl ⟨xs, hok xs hxs, hlists⟩
  case again =>
    rintro ctx input r x τ rfl hacc rfl hsince
    have hstep := blockStep_of_plays hp
    rw [hdb] at hstep
    cases hstep with
    | @done blocker name target c₀ c₁ c₂ rest _ τ' hins hrows hτ =>
      obtain rfl := Option.some.inj (hins.account.symm.trans hacc)
      have hs := since_eq_some_iff.mpr hsince
      rw [hm.blockTime, hs, Option.getD_some] at hτ
      refine ⟨eq_of_parse hτ, ?_⟩
      simp only [Write.blockRows, hm.clash_iff] at hrows
      rw [hrows, if_neg (by simp [hs])]
  case idle =>
    rintro ctx r s rfl hacc hoff
    rcases unblock_of_plays hp with ⟨e, -, hdb'⟩ | ⟨blocker, now, n, hacc', -, hu⟩
    · exact hdb'.trans hdb
    · obtain rfl := Option.some.inj (hacc'.symm.trans hacc)
      rw [hdb] at hu
      refine deleteBlock_of_absent (fun b hb hpair => hoff (since_isSome_iff.mp ?_)) hu
      obtain ⟨τ, -, hτ⟩ := (hm.rows b).mp hb
      rw [hpair.1, hpair.2] at hτ
      exact ⟨τ, hτ⟩
  case apart =>
    intro b hb
    by_cases hblock : ∃ ctx input, op = .blockIdentity ctx input
    · obtain ⟨ctx, input, rfl⟩ := hblock
      have hstep := blockStep_of_plays hp
      rw [hdb] at hstep
      cases hstep with
      | refused hdb' => rw [hdb']
      | cut hins hrows => exact hins.apart hrows hb
      | done hins hrows => exact hins.apart hrows hb
    by_cases hunblock : ∃ ctx input, op = .unblockIdentity ctx input
    · obtain ⟨ctx, input, rfl⟩ := hunblock
      rcases unblock_of_plays hp with ⟨e, -, hdb'⟩ | ⟨blocker, now, n, hacc, -, hu⟩
      · rw [hdb', hdb]
      · rw [Write.blocks_apply hu, hdb, Write.blockRows, List.mem_filter, decide_eq_true_eq,
          and_iff_left]
        rintro ⟨rfl, heq⟩
        exact hb ⟨hacc, heq.symm⟩
    · rw [blocks_of_plays hp hidle (fun ctx input hop => hblock ⟨ctx, input, hop⟩)
        (fun ctx input hop => hunblock ⟨ctx, input, hop⟩), hdb]

/-- Each turn has one reading of the clock, and no two turns have the same. -/
def DistinctReadings (ts : List ServiceTurn) : Prop :=
  (∀ t ∈ ts, ∀ ch ∈ t.choices, ∀ ch' ∈ t.choices, ch.reading = ch'.reading) ∧
    ts.Pairwise fun t t' => ∀ ch ∈ t.choices, ∀ ch' ∈ t'.choices, ch.reading ≠ ch'.reading

instance (ts : List ServiceTurn) : Decidable (DistinctReadings ts) :=
  inferInstanceAs (Decidable (_ ∧ _))

namespace Known

/-- Ada lists her blocks at the instant `t`. -/
def listTurn (t : ℤ) (response : Response) : ServiceTurn :=
  ⟨false, .blockedIdentities (session ada), [fine t ⟨0⟩], response⟩

/-- Ada blocks Bob twice, unblocks him and blocks him again. -/
def blockTurns : List ServiceTurn :=
  [⟨false, block, List.replicate 5 (fine (newYear + 3) ⟨0⟩),
      .ok (.blocked ⟨bob, "bob".toList, newYear + 3⟩)⟩,
    ⟨false, .unblockIdentity (session ada) ⟨bob⟩, [fine (newYear + 2) ⟨0⟩], .ok (.flag true)⟩,
    ⟨false, block, List.replicate 5 (fine (newYear + 1) ⟨0⟩),
      .ok (.blocked ⟨bob, "bob".toList, newYear⟩)⟩,
    ⟨false, block, List.replicate 5 (fine newYear ⟨0⟩),
      .ok (.blocked ⟨bob, "bob".toList, newYear⟩)⟩]

/-- The DELETE of a block fails. -/
def cutTurns : List ServiceTurn :=
  [⟨false, block, List.replicate 3 (fine newYear ⟨0⟩) ++ [failing], .error (.api .internal)⟩]

/-- +10000-01-01T00:00:00Z -/
def lateYear : ℤ := 253402300800000000000

/-- A block does not read back the time that it stores. -/
def lateTurns : List ServiceTurn :=
  [⟨false, block, List.replicate 5 (fine lateYear ⟨0⟩), .error (.api .internal)⟩]

lemma blockTurns_replay : ((service deployment).replay (World.init couple newYear)
    (listTurn (newYear + 4) (.ok (.blockedList [⟨bob, "bob".toList, newYear + 3⟩])) ::
      blockTurns)).isSome = true := by
  decide +kernel

lemma cutTurns_replay : ((service deployment).replay (World.init couple newYear)
    (listTurn (newYear + 1) (.ok (.blockedList [⟨bob, "bob".toList, newYear⟩])) ::
      cutTurns)).isSome = true := by
  decide +kernel

lemma lateTurns_replay : ((service deployment).replay (World.init couple newYear)
    (listTurn (lateYear + 1) (.error (.api .internal)) :: lateTurns)).isSome = true := by
  decide +kernel

end Known

open Known in
theorem block_list_again : ∃ w w' : World,
    (service deployment).Serial (World.init couple newYear) blockTurns w ∧
      BlockSemantics blockTurns w w'
        (listTurn (newYear + 4) (.ok (.blockedList [⟨bob, "bob".toList, newYear + 3⟩]))) := by
  obtain ⟨w', hw'⟩ := Option.isSome_iff_exists.mp blockTurns_replay
  obtain _ | ⟨h, hp⟩ := serial_of_replay hw'
  have hresp : ∀ t ∈ blockTurns, t.response ≠ .error (.api .internal) := by decide
  exact ⟨_, w', h, block_list rfl h (fun t ht hcut => hresp t ht hcut.2.1) hp⟩

open Known in
/-- Also where no two turns read the same instant, a block that is cut between its statements shows
in the list without having succeeded, and a block at an instant that chrono does not read back takes
the list away. -/
theorem block_list_not :
    (¬ ∀ (ts : List ServiceTurn) (t : ServiceTurn) (w w' : World),
      (service deployment).Serial (World.init couple newYear) ts w →
      (service deployment).Plays ts.length (t.op.program deployment)
        (if t.restarted then w.reset else w) t.choices t.response w' →
      DistinctReadings (t :: ts) → (∀ t' ∈ t :: ts, ∀ ch ∈ t'.choices, InEra ch.reading) →
      BlockSemantics ts w w' t) ∧
    ¬ ∀ (ts : List ServiceTurn) (t : ServiceTurn) (w w' : World),
      (service deployment).Serial (World.init couple newYear) ts w →
      (service deployment).Plays ts.length (t.op.program deployment)
        (if t.restarted then w.reset else w) t.choices t.response w' →
      DistinctReadings (t :: ts) → (∀ t' ∈ t :: ts, ∀ ch ∈ t'.choices, ch.fails = false) →
      BlockSemantics ts w w' t := by
  constructor
  · intro hall
    obtain ⟨w', hw'⟩ := Option.isSome_iff_exists.mp cutTurns_replay
    obtain _ | ⟨h, hp⟩ := serial_of_replay hw'
    rcases (hall cutTurns (listTurn (newYear + 1) _) _ _ h hp (by decide) (by decide)).lists
      _ _ rfl rfl with ⟨xs, hxs, hlists⟩ | ⟨herr, -⟩
    · cases hxs
      obtain ⟨τ, hτ⟩ := since_isSome_iff.mpr ((hlists.listed bob).mp (by simp))
      cases hτ
    · cases herr
  · intro hall
    obtain ⟨w', hw'⟩ := Option.isSome_iff_exists.mp lateTurns_replay
    obtain _ | ⟨h, hp⟩ := serial_of_replay hw'
    rcases (hall lateTurns (listTurn (lateYear + 1) _) _ _ h hp (by decide) (by decide)).lists
      _ _ rfl rfl with ⟨xs, hxs, -⟩ | ⟨-, ch, hch, hf⟩
    · cases hxs
    · rw [List.mem_singleton.mp hch] at hf
      cases hf

end TittyBackend
