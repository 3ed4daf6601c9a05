import TittyBackend.Cleanup
import TittyBackend.Veil

/-!
# Two runs of a sender

A sender makes the same calls over two databases, the second of which has a block of her. A call
may name ids that earlier answers told her. Her answers are the same up to the UUIDs that the two
runs draw, as long as no call depends on a request that the second run has not stored.
-/

namespace TittyBackend

open Numerals Programs Programs.System Resolver Matchings

/-! ### Calls of a sender -/

/-- How a call names an id: by a UUID of the sender's, or as the `k`-th that she was told, the
latest answer first. -/
inductive Name where
  | own (u : Uuid)
  | told (k : ℕ)

def Name.resolve (known : List Uuid) : Name → Option Uuid
  | .own u => some u
  | .told k => known[k]?

/-- The UUIDs of the sender's in a name. -/
def Name.owned : Name → List Uuid
  | .own u => [u]
  | .told _ => []

inductive SenderCall where
  | send (recipientIdentitty : Text) (clientRequestId : Name) (encryptedPayload : Text)
  | renew (requestId leaseId : Name)
  | cancel (requestId leaseId : Name)

def SenderCall.op (ctx : Context) (known : List Uuid) : SenderCall → Option Op
  | .send recipientIdentitty clientRequestId encryptedPayload =>
    (clientRequestId.resolve known).map fun c =>
      .sendLiveChatRequest ctx ⟨recipientIdentitty, c, encryptedPayload⟩
  | .renew requestId leaseId => (requestId.resolve known).bind fun u =>
    (leaseId.resolve known).map fun v => .renewLiveChatRequest ctx ⟨u, v⟩
  | .cancel requestId leaseId => (requestId.resolve known).bind fun u =>
    (leaseId.resolve known).map fun v => .cancelLiveChatRequest ctx ⟨u, v⟩

def SenderCall.owned : SenderCall → List Uuid
  | .send _ clientRequestId _ => clientRequestId.owned
  | .renew requestId leaseId | .cancel requestId leaseId => requestId.owned ++ leaseId.owned

/-- The UUIDs that the answers of these turns told, the latest first. -/
def toldIn (ts : List ServiceTurn) : List Uuid := ts.flatMap fun t => told t.response

/-- The turns of two runs in which `s` makes the same calls, each at the same readings of the clock,
and no statement fails. -/
inductive Parallel (s : Text) : List SenderCall → List ServiceTurn → List ServiceTurn → Prop
  | nil : Parallel s [] [] []
  | call {cs : List SenderCall} {us vs : List ServiceTurn} {c : SenderCall} {ctx : Context}
      {t₁ t₂ : ServiceTurn} {ρ : ℕ → ℤ} (h : Parallel s cs us vs) (hacc : ctx.account = some s)
      (hop₁ : c.op ctx (toldIn us) = some t₁.op) (hop₂ : c.op ctx (toldIn vs) = some t₂.op)
      (hreads₁ : Reads ρ t₁.choices) (hreads₂ : Reads ρ t₂.choices) :
      Parallel s (c :: cs) (t₁ :: us) (t₂ :: vs)

/-- The databases are equal but for a block of `s` by `r`, and there is no request of `s` to `r`. -/
structure Twin (s r : Text) (d₁ d₂ : Db) : Prop where
  accounts : d₂.accounts.rows = d₁.accounts.rows
  blocks : ∀ a b, d₂.Blocks a b ↔ d₁.Blocks a b ∨ (a = r ∧ b = s)
  chats : d₂.chats.rows = d₁.chats.rows
  unrequested : ∀ row ∈ d₁.chats.rows, ¬ row.FromTo s r

/-- The UUIDs `F` are new: none is the sender's or stands in the database. -/
structure New (F : List Uuid) (d : Db) (cs : List SenderCall) : Prop where
  owned : ∀ c ∈ cs, ∀ u ∈ c.owned, u ∉ F
  stored : ∀ row ∈ d.chats.rows, ∀ x ∈ [row.requestId, row.leaseId, row.clientRequestId],
    ∀ u, Uuid.parse x = some u → u ∉ F

/-- The UUIDs that either world has drawn. -/
def draws (w₁ w₂ : World) : List Uuid := w₁.drawn.map Prod.snd ++ w₂.drawn.map Prod.snd

/-- The pairs rename UUIDs that the first run has drawn to UUIDs that the second has drawn. -/
structure Renaming (l : List (Uuid × Uuid)) (w₁ w₂ : World) : Prop where
  left : (l.map Prod.fst).Nodup
  right : (l.map Prod.snd).Nodup
  drawn : ∀ p ∈ l, p.1 ∈ w₁.drawn.map Prod.snd ∧ p.2 ∈ w₂.drawn.map Prod.snd

/-- The answers of the two runs are the same up to a renaming of the UUIDs drawn. -/
def Indistinguishable (us vs : List ServiceTurn) (w₁ w₂ : World) : Prop :=
  ∃ l, Renaming l w₁ w₂ ∧
    List.Forall₂ (fun t t' : ServiceTurn => Same (draws w₁ w₂) l t.response t'.response) us vs

/-! ### Two runs -/

variable {D : Deployment} {F : List Uuid} {l : List (Uuid × Uuid)} {s r : Text}

lemma Name.resolve_matched {xs ys : List Uuid} (hxs : List.Forall₂ (Matched F l) xs ys) {n : Name}
    (howned : ∀ u ∈ n.owned, u ∉ F) {u v : Uuid} (hu : n.resolve xs = some u)
    (hv : n.resolve ys = some v) : Matched F l u v := by
  cases n with
  | own w =>
    obtain rfl := Option.some.inj hu
    obtain rfl := Option.some.inj hv
    exact .refl (howned _ (List.mem_singleton_self _))
  | told k =>
    obtain ⟨hk, rfl⟩ := List.getElem?_eq_some_iff.mp hu
    obtain ⟨hk', rfl⟩ := List.getElem?_eq_some_iff.mp hv
    exact hxs.get hk hk'

/-- A call that names two ids is made with ids that are matched. -/
lemma ids_matched {xs ys : List Uuid} (hxs : List.Forall₂ (Matched F l) xs ys) {m n : Name}
    (howned : ∀ u ∈ m.owned ++ n.owned, u ∉ F) {f : Uuid → Uuid → Op} {op₁ op₂ : Op}
    (h₁ : ((m.resolve xs).bind fun u => (n.resolve xs).map fun v => f u v) = some op₁)
    (h₂ : ((m.resolve ys).bind fun u => (n.resolve ys).map fun v => f u v) = some op₂) :
    ∃ u₁ u₂ v₁ v₂, Matched F l u₁ u₂ ∧ Matched F l v₁ v₂ ∧ op₁ = f u₁ v₁ ∧ op₂ = f u₂ v₂ := by
  obtain ⟨u₁, hu₁, h₁⟩ := Option.bind_eq_some_iff.mp h₁
  obtain ⟨u₂, hu₂, h₂⟩ := Option.bind_eq_some_iff.mp h₂
  obtain ⟨v₁, hv₁, rfl⟩ := Option.map_eq_some_iff.mp h₁
  obtain ⟨v₂, hv₂, rfl⟩ := Option.map_eq_some_iff.mp h₂
  exact ⟨u₁, u₂, v₁, v₂,
    Name.resolve_matched hxs (fun u h => howned u (List.mem_append_left _ h)) hu₁ hu₂,
    Name.resolve_matched hxs (fun u h => howned u (List.mem_append_right _ h)) hv₁ hv₂, rfl, rfl⟩

lemma told_matched {us vs : List ServiceTurn}
    (h : List.Forall₂ (fun t t' : ServiceTurn => Same F l t.response t'.response) us vs) :
    List.Forall₂ (Matched F l) (toldIn us) (toldIn vs) :=
  List.rel_flatMap h fun _ _ hsame => hsame.told

/-- The turn of the call in two veiled worlds. -/
lemma Veiled.call {w₁ w₂ w₁' w₂' : World} {i j : ℕ} {c : SenderCall} {ctx : Context}
    {xs ys : List Uuid} {op₁ op₂ : Op} {chs₁ chs₂ : List Choice} {r₁ r₂ : Response} {ρ : ℕ → ℤ}
    (h : Veiled F l s r w₁ w₂) (hxs : List.Forall₂ (Matched F l) xs ys)
    (howned : ∀ u ∈ c.owned, u ∉ F) (hacc : ctx.account = some s)
    (hop₁ : c.op ctx xs = some op₁) (hop₂ : c.op ctx ys = some op₂)
    (hreads₁ : Reads ρ chs₁) (hreads₂ : Reads ρ chs₂)
    (hp₁ : (service D).Plays i (op₁.program D) w₁ chs₁ r₁ w₁')
    (hp₂ : (service D).Plays j (op₂.program D) w₂ chs₂ r₂ w₂')
    (hF₁ : w₁'.drawn.map Prod.snd ⊆ F) (hF₂ : w₂'.drawn.map Prod.snd ⊆ F)
    (hno : Independent D s r w₁.db ρ op₁) :
    ∃ l', l ⊆ l' ∧ Veiled F l' s r w₁' w₂' ∧ Same F l' r₁ r₂ := by
  have hn₁ := nodup_of_plays hp₁ (h.drawn₁ ▸ h.matching.left)
  have hn₂ := nodup_of_plays hp₂ (h.drawn₂ ▸ h.matching.right)
  cases c with
  | send name clientRequestId payload =>
    obtain ⟨c₁, hc₁, rfl⟩ := Option.map_eq_some_iff.mp hop₁
    obtain ⟨c₂, hc₂, rfl⟩ := Option.map_eq_some_iff.mp hop₂
    have hc := Name.resolve_matched hxs howned hc₁ hc₂
    obtain ⟨u₁, v₁, hperf₁⟩ := send_plays hacc hp₁ hreads₁ (Veiled.undrawn h.known₁ hF₁)
    obtain ⟨u₂, v₂, hperf₂⟩ := send_plays hacc hp₂ hreads₂ (Veiled.undrawn h.known₂ hF₂)
    exact ⟨_, List.subset_append_right _ _, h.step hperf₁ hperf₂ (h.send hc hno)
      sendOutcome_stems sendOutcome_stems hn₁ hn₂ hF₁ hF₂⟩
  | renew requestId leaseId =>
    obtain ⟨u₁, u₂, v₁, v₂, hu, hv, rfl, rfl⟩ := ids_matched
      (f := fun u v => .renewLiveChatRequest ctx ⟨u, v⟩) hxs howned hop₁ hop₂
    exact ⟨_, List.subset_append_right _ _, h.step (renew_plays hacc hp₁ hreads₁)
      (renew_plays hacc hp₂ hreads₂) (h.renew hu hv hno) renewOutcome_stems renewOutcome_stems
      hn₁ hn₂ hF₁ hF₂⟩
  | cancel requestId leaseId =>
    obtain ⟨u₁, u₂, v₁, v₂, hu, hv, rfl, rfl⟩ := ids_matched
      (f := fun u v => .cancelLiveChatRequest ctx ⟨u, v⟩) hxs howned hop₁ hop₂
    exact ⟨_, List.subset_append_right _ _, h.step (cancel_plays hacc hp₁ hreads₁)
      (cancel_plays hacc hp₂ hreads₂) (h.cancel hu hv) cancelOutcome_stems cancelOutcome_stems
      hn₁ hn₂ hF₁ hF₂⟩

lemma Veiled.reset {w₁ w₂ : World} (h : Veiled F l s r w₁ w₂) (b₁ b₂ : Bool) :
    Veiled F l s r (if b₁ then (service D).reset w₁ else w₁)
      (if b₂ then (service D).reset w₂ else w₂) := by
  have hw (b : Bool) (w : World) : (if b then (service D).reset w else w).db = w.db ∧
      (if b then (service D).reset w else w).drawn = w.drawn := by
    split_ifs <;> exact ⟨rfl, rfl⟩
  obtain ⟨hdb₁, hdrawn₁⟩ := hw b₁ w₁
  obtain ⟨hdb₂, hdrawn₂⟩ := hw b₂ w₂
  generalize (if b₁ then (service D).reset w₁ else w₁) = v₁ at hdb₁ hdrawn₁ ⊢
  generalize (if b₂ then (service D).reset w₂ else w₂) = v₂ at hdb₂ hdrawn₂ ⊢
  constructor
  case matching => exact h.matching
  all_goals simp only [Accounted, hdb₁, hdb₂, hdrawn₁, hdrawn₂]
  · exact h.drawn₁
  · exact h.drawn₂
  · exact h.accounts
  · exact h.blocks
  · exact h.chats
  · exact h.known₁
  · exact h.known₂

lemma veiled_init {d₁ d₂ : Db} {t₀ : ℤ} (htwin : Twin s r d₁ d₂)
    (hnew : ∀ row ∈ d₁.chats.rows, ∀ x ∈ [row.requestId, row.leaseId, row.clientRequestId],
      ∀ u, Uuid.parse x = some u → u ∉ F) :
    Veiled F [] s r (World.init d₁ t₀) (World.init d₂ t₀) where
  matching := .nil
  drawn₁ := rfl
  drawn₂ := rfl
  accounts := htwin.accounts
  blocks := htwin.blocks
  chats := by
    have hall : unhidden s r d₁.chats.rows = d₁.chats.rows :=
      List.filter_eq_self.mpr fun row hrow => decide_eq_true (htwin.unrequested row hrow)
    rw [World.init, World.init, hall, htwin.chats]
    refine List.forall₂_same.mpr fun row hrow => ?_
    have hrow := hnew row hrow
    simp only [List.forall_mem_cons] at hrow
    exact ⟨.inr ⟨rfl, hrow.1⟩, .inr ⟨rfl, hrow.2.1⟩, .inr ⟨rfl, hrow.2.2.1⟩, rfl⟩
  known₁ row hrow := by
    have hrow := hnew row hrow
    simp only [List.forall_mem_cons] at hrow
    exact ⟨.inr hrow.1, .inr hrow.2.1⟩
  known₂ row hrow := by
    have hrow := hnew row (htwin.chats ▸ hrow)
    simp only [List.forall_mem_cons] at hrow
    exact ⟨.inr hrow.1, .inr hrow.2.1⟩

lemma drawn_of_turn {op : Op} {w w' : World} {i : ℕ} {chs : List Choice} {x : Response} {b : Bool}
    (h : (service D).Plays i (op.program D) (if b then (service D).reset w else w) chs x w') :
    w.drawn.map Prod.snd ⊆ w'.drawn.map Prod.snd := by
  have hdrawn : (if b then (service D).reset w else w).drawn = w.drawn := by split_ifs <;> rfl
  exact List.map_subset _ (hdrawn ▸ drawn_of_plays h)

/-- The worlds stay veiled as long as no call depends on a hidden request. -/
theorem veiled_of_parallel {d₁ d₂ : Db} {t₀ : ℤ} {cs : List SenderCall} {us vs : List ServiceTurn}
    {w₁ w₂ : World} (htwin : Twin s r d₁ d₂) (hpar : Parallel s cs us vs)
    (h₁ : (service D).Serial (World.init d₁ t₀) us w₁)
    (h₂ : (service D).Serial (World.init d₂ t₀) vs w₂) (hF₁ : w₁.drawn.map Prod.snd ⊆ F)
    (hF₂ : w₂.drawn.map Prod.snd ⊆ F) (hnew : New F d₁ cs)
    (hno : ∀ post t pre w ρ, us = post ++ t :: pre →
      (service D).Serial (World.init d₁ t₀) pre w → Reads ρ t.choices →
        Independent D s r w.db ρ t.op) :
    ∃ l, Veiled F l s r w₁ w₂ ∧
      List.Forall₂ (fun t t' : ServiceTurn => Same F l t.response t'.response) us vs := by
  induction hpar generalizing w₁ w₂ with
  | nil =>
    cases h₁
    cases h₂
    exact ⟨[], veiled_init htwin hnew.stored, .nil⟩
  | @call cs us vs c ctx t₁ t₂ ρ hpar hacc hop₁ hop₂ hreads₁ hreads₂ ih =>
    obtain _ | ⟨h₁, hp₁⟩ := h₁
    obtain _ | ⟨h₂, hp₂⟩ := h₂
    rename_i w₁' w₂'
    have hsub₁ : w₁'.drawn.map Prod.snd ⊆ F := fun u hu => hF₁ (drawn_of_turn hp₁ hu)
    have hsub₂ : w₂'.drawn.map Prod.snd ⊆ F := fun u hu => hF₂ (drawn_of_turn hp₂ hu)
    obtain ⟨l, hveiled, hsame⟩ := ih h₁ h₂ hsub₁ hsub₂
      ⟨fun c hc => hnew.owned c (List.mem_cons_of_mem _ hc), hnew.stored⟩
      fun post t pre w ρ heq => hno (t₁ :: post) t pre w ρ (by rw [heq]; rfl)
    have hdb : (if t₁.restarted then (service D).reset w₁' else w₁').db = w₁'.db := by
      split_ifs <;> rfl
    obtain ⟨l', hl', hveiled', hsame'⟩ := (hveiled.reset t₁.restarted t₂.restarted).call
      (told_matched hsame) (hnew.owned c List.mem_cons_self) hacc hop₁ hop₂ hreads₁ hreads₂ hp₁ hp₂
      hF₁ hF₂ (hdb ▸ hno [] t₁ us w₁' ρ rfl h₁ hreads₁)
    exact ⟨l', hveiled', .cons hsame' (hsame.imp fun t t' hs => hs.mono hl')⟩

/-- Being blocked is not observable by the sender, as long as no call depends on a request that she
made to the blocker. -/
theorem block_unobservable {d₁ d₂ : Db} {t₀ : ℤ} {cs : List SenderCall} {us vs : List ServiceTurn}
    {w₁ w₂ : World} (htwin : Twin s r d₁ d₂) (hpar : Parallel s cs us vs)
    (h₁ : (service D).Serial (World.init d₁ t₀) us w₁)
    (h₂ : (service D).Serial (World.init d₂ t₀) vs w₂) (hnew : New (draws w₁ w₂) d₁ cs)
    (hno : ∀ post t pre w ρ, us = post ++ t :: pre →
      (service D).Serial (World.init d₁ t₀) pre w → Reads ρ t.choices →
        Independent D s r w.db ρ t.op) : Indistinguishable us vs w₁ w₂ := by
  obtain ⟨l, hveiled, hsame⟩ := veiled_of_parallel htwin hpar h₁ h₂
    (List.subset_append_left _ _) (List.subset_append_right _ _) hnew hno
  refine ⟨l, ⟨hveiled.matching.left, hveiled.matching.right, fun p hp => ?_⟩, hsame⟩
  rw [← hveiled.drawn₁, ← hveiled.drawn₂]
  exact ⟨List.mem_map_of_mem hp, List.mem_map_of_mem hp⟩

namespace Known

/-- Ada and Bob, who blocks her. -/
def blockedCouple : Db :=
  couple.addBlock ⟨bob, ada, toRfc3339 newYear⟩ (by decide +kernel) (by decide +kernel)
    (by decide +kernel)

lemma couple_blocks : couple.blocks.rows = [] := by decide +kernel

lemma couple_chats : couple.chats.rows = [] := by decide +kernel

lemma twin : Twin ada bob couple blockedCouple where
  accounts := by decide +kernel
  blocks a b := by
    have hrows : blockedCouple.blocks.rows = [⟨bob, ada, toRfc3339 newYear⟩] := by decide +kernel
    simp only [Db.Blocks, hrows, couple_blocks]
    simp [eq_comm]
  chats := by decide +kernel
  unrequested row hrow := by simp [couple_chats] at hrow

def sendCall : SenderCall := .send "bob".toList (.own ⟨7⟩) "AA==".toList

/-- The turn of a send that is hidden. -/
def hiddenTurn (t : ℤ) (n : ℕ) : ServiceTurn :=
  { sendTurn t n with choices := (sendTurn t n).choices.take 9 }

/-- The turn of a retry that finds the request of `sendTurn`. -/
def retryTurn : ServiceTurn :=
  { sendTurn newYear 1 with choices := (sendTurn newYear 1).choices.take 3 }

/-- Ada cancels the request with the ids `n` and `n + 1`, with `k` statements. -/
def cancelTurn (n k : ℕ) : ServiceTurn where
  restarted := false
  op := .cancelLiveChatRequest (session ada) ⟨⟨.ofNat 128 n⟩, ⟨.ofNat 128 (n + 1)⟩⟩
  choices := List.replicate k (fine newYear ⟨0⟩)
  response := .ok (.flag true)

lemma retried_replay : ((service deployment).replay (World.init couple newYear)
    [retryTurn, sendTurn newYear 1]).map (fun w => w.drawn.map Prod.snd) = some [⟨2⟩, ⟨1⟩] := by
  decide +kernel

lemma hidden_replay : ((service deployment).replay (World.init blockedCouple newYear)
    [hiddenTurn newYear 5, hiddenTurn newYear 3]).map (fun w => w.drawn.map Prod.snd) =
      some [⟨6⟩, ⟨5⟩, ⟨4⟩, ⟨3⟩] := by
  decide +kernel

lemma cancelled_replay : ((service deployment).replay (World.init couple newYear)
    [cancelTurn 1 2, sendTurn newYear 1]).map (fun w => w.drawn.map Prod.snd) =
      some [⟨2⟩, ⟨1⟩] := by
  decide +kernel

lemma hiddenCancelled_replay : ((service deployment).replay (World.init blockedCouple newYear)
    [cancelTurn 3 1, hiddenTurn newYear 3]).map (fun w => w.drawn.map Prod.snd) =
      some [⟨4⟩, ⟨3⟩] := by
  decide +kernel

/-- A clock that stands still. -/
lemma reads_of_fine {chs : List Choice}
    (h : ∀ ch ∈ chs, ch.fails = false ∧ ch.reading = newYear) : Reads (fun _ => newYear) chs :=
  fun _ ch hk => h ch (List.mem_of_getElem? hk)

lemma parallel_first : Parallel ada [sendCall] [sendTurn newYear 1] [hiddenTurn newYear 3] :=
  have hctx : (session ada).account = some ada := rfl
  .call .nil hctx rfl rfl (reads_of_fine (by decide)) (reads_of_fine (by decide))

lemma parallel_retry : Parallel ada [sendCall, sendCall] [retryTurn, sendTurn newYear 1]
    [hiddenTurn newYear 5, hiddenTurn newYear 3] :=
  have hctx : (session ada).account = some ada := rfl
  .call parallel_first hctx rfl rfl (reads_of_fine (by decide)) (reads_of_fine (by decide))

lemma parallel_cancel : Parallel ada [.cancel (.told 0) (.told 1), sendCall]
    [cancelTurn 1 2, sendTurn newYear 1] [cancelTurn 3 1, hiddenTurn newYear 3] :=
  have hctx : (session ada).account = some ada := rfl
  .call parallel_first hctx rfl rfl (reads_of_fine (by decide)) (reads_of_fine (by decide))

/-- The couple has no requests, and Ada's own id is not drawn. -/
lemma new_of_draws {w₁ w₂ : World} {cs : List SenderCall}
    (howned : ∀ c ∈ cs, ∀ u ∈ c.owned, u = ⟨7⟩) (hdraws : ⟨7⟩ ∉ draws w₁ w₂) :
    New (draws w₁ w₂) couple cs where
  owned c hc u hu := howned c hc u hu ▸ hdraws
  stored row hrow := by simp [couple_chats] at hrow

lemma independent_init (ρ : ℕ → ℤ) (ctx : Context) (input : SendLiveChatRequestInput) :
    Independent deployment ada bob couple ρ (.sendLiveChatRequest ctx input) := by
  have hrows (now : ℤ) : couple.unexpired deployment now = [] := by
    rw [Db.unexpired, couple_chats, List.filter_nil]
  simp [Independent, hrows]

end Known

open Known in
theorem block_unobservable_cancelled : ∃ w₁ w₂ : World,
    (service deployment).Serial (World.init couple newYear)
      [cancelTurn 1 2, sendTurn newYear 1] w₁ ∧
    (service deployment).Serial (World.init blockedCouple newYear)
      [cancelTurn 3 1, hiddenTurn newYear 3] w₂ ∧
    Indistinguishable [cancelTurn 1 2, sendTurn newYear 1] [cancelTurn 3 1, hiddenTurn newYear 3]
      w₁ w₂ := by
  obtain ⟨w₁, hw₁, hd₁⟩ := Option.map_eq_some_iff.mp cancelled_replay
  obtain ⟨w₂, hw₂, hd₂⟩ := Option.map_eq_some_iff.mp hiddenCancelled_replay
  have h₁ := serial_of_replay hw₁
  have h₂ := serial_of_replay hw₂
  refine ⟨w₁, w₂, h₁, h₂, block_unobservable twin parallel_cancel h₁ h₂ (new_of_draws ?_ ?_) ?_⟩
  · decide
  · rw [draws, hd₁, hd₂]
    decide
  · intro post t pre w ρ heq hpre _
    -- The second call is a cancellation, and before the first there is no request.
    obtain _ | ⟨t', _ | ⟨t'', post⟩⟩ := post
    · cases heq
      exact trivial
    · cases heq
      cases hpre
      exact independent_init ρ _ _
    · simp at heq

open Known in
/-- A retry that finds the request tells its ids again, and a hidden retry draws new ones. -/
theorem block_observable : Twin ada bob couple blockedCouple ∧
    ¬ ∀ (cs : List SenderCall) (us vs : List ServiceTurn) (w₁ w₂ : World), Parallel ada cs us vs →
      (service deployment).Serial (World.init couple newYear) us w₁ →
      (service deployment).Serial (World.init blockedCouple newYear) vs w₂ →
        New (draws w₁ w₂) couple cs → Indistinguishable us vs w₁ w₂ := by
  refine ⟨twin, fun hall => ?_⟩
  obtain ⟨w₁, hw₁, hd₁⟩ := Option.map_eq_some_iff.mp retried_replay
  obtain ⟨w₂, hw₂, hd₂⟩ := Option.map_eq_some_iff.mp hidden_replay
  have hnew : New (draws w₁ w₂) couple [sendCall, sendCall] := by
    refine new_of_draws (by decide) ?_
    rw [draws, hd₁, hd₂]
    decide
  obtain ⟨l, hl, hsame⟩ := hall _ _ _ _ _ parallel_retry (serial_of_replay hw₁)
    (serial_of_replay hw₂) hnew
  have hmatching : Matching (draws w₁ w₂) l := ⟨hl.left, hl.right, fun p hp =>
    ⟨List.mem_append_left _ (hl.drawn p hp).1, List.mem_append_right _ (hl.drawn p hp).2⟩⟩
  obtain _ | ⟨hretry, hsame⟩ := hsame
  obtain _ | ⟨hsend, -⟩ := hsame
  obtain _ | ⟨hretried, -⟩ := hretry.told
  obtain _ | ⟨hsent, -⟩ := hsend.told
  have h := (Matched.eq_iff hmatching hretried hsent).mp rfl
  exact absurd h (by decide)

end TittyBackend
