import TittyBackend.Lib.Matching
import TittyBackend.Outcome
import Mathlib.Data.List.Find

/-!
# What a block hides

Two runs of the same calls of a sender, the second over a database in which a recipient blocks her.
The second stores none of her requests to that recipient; all else it does in step with the first,
up to the UUIDs that the two draw.
-/

namespace TittyBackend

open Numerals Programs Programs.System Resolver Matchings

/-! ### Matched rows and answers -/

/-- A request of `s` to `r`. -/
def ChatRecord.FromTo (s r : Text) (row : ChatRecord) : Prop :=
  row.senderAccountId = s ∧ row.recipientAccountId = r

instance (s r : Text) (row : ChatRecord) : Decidable (row.FromTo s r) :=
  inferInstanceAs (Decidable (_ ∧ _))

/-- The requests that are not hidden. -/
def unhidden (s r : Text) (rows : List ChatRecord) : List ChatRecord :=
  rows.filter fun row => ¬ row.FromTo s r

/-- The UUIDs that an answer tells. -/
def told : Response → List Uuid
  | .ok (.submission x) => [x.requestId, x.leaseId]
  | .ok (.lease x) => [x.requestId, x.leaseId]
  | _ => []

abbrev IdMatched (F : List Uuid) (l : List (Uuid × Uuid)) : Text → Text → Prop :=
  TextMatched Uuid.toText Uuid.parse F l

variable {D : Deployment} {F : List Uuid} {l l' : List (Uuid × Uuid)} {s r : Text}

/-- The rows differ in their ids alone. -/
structure RowMatched (F : List Uuid) (l : List (Uuid × Uuid)) (a b : ChatRecord) : Prop where
  requestId : IdMatched F l a.requestId b.requestId
  leaseId : IdMatched F l a.leaseId b.leaseId
  clientRequestId : IdMatched F l a.clientRequestId b.clientRequestId
  rest : b = { a with
    requestId := b.requestId, leaseId := b.leaseId, clientRequestId := b.clientRequestId }

/-- The answers differ in their UUIDs alone. -/
inductive Same (F : List Uuid) (l : List (Uuid × Uuid)) : Response → Response → Prop
  | submission {x y : LiveChatRequestSubmission} (accepted : x.accepted = y.accepted)
      (lease : x.leaseExpiresAt = y.leaseExpiresAt)
      (requestId : Matched F l x.requestId y.requestId)
      (leaseId : Matched F l x.leaseId y.leaseId) :
      Same F l (.ok (.submission x)) (.ok (.submission y))
  | lease {x y : LiveChatRequestLease} (expires : x.expiresAt = y.expiresAt)
      (requestId : Matched F l x.requestId y.requestId)
      (leaseId : Matched F l x.leaseId y.leaseId) :
      Same F l (.ok (.lease x)) (.ok (.lease y))
  | plain {r : Response} (h : told r = []) : Same F l r r

lemma Same.told {r₁ r₂ : Response} (h : Same F l r₁ r₂) :
    List.Forall₂ (Matched F l) (told r₁) (told r₂) := by
  cases h with
  | submission _ _ hid hlease => exact .cons hid (.cons hlease .nil)
  | lease _ hid hlease => exact .cons hid (.cons hlease .nil)
  | plain h => rw [h]; exact .nil

lemma Same.mono {r₁ r₂ : Response} (h : Same F l r₁ r₂) (hl : l ⊆ l') : Same F l' r₁ r₂ := by
  cases h with
  | submission haccepted hlease hid hleaseId =>
    exact .submission haccepted hlease (hid.mono hl) (hleaseId.mono hl)
  | lease hexpires hid hleaseId => exact .lease hexpires (hid.mono hl) (hleaseId.mono hl)
  | plain h => exact .plain h

namespace RowMatched

variable {a b : ChatRecord}

lemma mono (h : RowMatched F l a b) (hl : l ⊆ l') : RowMatched F l' a b :=
  ⟨h.requestId.mono hl, h.leaseId.mono hl, h.clientRequestId.mono hl, h.rest⟩

lemma sender (h : RowMatched F l a b) : b.senderAccountId = a.senderAccountId := by
  rw [h.rest]

lemma leaseExpiresAt (h : RowMatched F l a b) : b.leaseExpiresAt = a.leaseExpiresAt := by
  rw [h.rest]

lemma hardExpiresAt (h : RowMatched F l a b) : b.hardExpiresAt = a.hardExpiresAt := by
  rw [h.rest]

lemma expired (h : RowMatched F l a b) (now : ℤ) : a.Expired D now = b.Expired D now := by
  rw [ChatRecord.Expired, ChatRecord.Expired, h.leaseExpiresAt, h.hardExpiresAt]

lemma active (h : RowMatched F l a b) (now : ℤ) : a.Active D now = b.Active D now := by
  rw [ChatRecord.Active, ChatRecord.Active, h.leaseExpiresAt, h.hardExpiresAt]

lemma requestId_iff (hl : Matching F l) (h : RowMatched F l a b) {u v : Uuid}
    (huv : Matched F l u v) : a.requestId = u.toText ↔ b.requestId = v.toText :=
  h.requestId.eq_iff Uuid.parse_toText hl (huv.text Uuid.parse_toText)

lemma leaseId_iff (hl : Matching F l) (h : RowMatched F l a b) {u v : Uuid}
    (huv : Matched F l u v) : a.leaseId = u.toText ↔ b.leaseId = v.toText :=
  h.leaseId.eq_iff Uuid.parse_toText hl (huv.text Uuid.parse_toText)

lemma clientRequestId_iff (hl : Matching F l) (h : RowMatched F l a b) {u v : Uuid}
    (huv : Matched F l u v) : a.clientRequestId = u.toText ↔ b.clientRequestId = v.toText :=
  h.clientRequestId.eq_iff Uuid.parse_toText hl (huv.text Uuid.parse_toText)

/-- An answer for an existing request. -/
lemma same (h : RowMatched F l a b) : Same F l
    (((ExistingRequestRow.intoSubmission ⟨a.requestId, a.leaseId, a.leaseExpiresAt⟩).mapError
      .api).map .submission)
    (((ExistingRequestRow.intoSubmission ⟨b.requestId, b.leaseId, b.leaseExpiresAt⟩).mapError
      .api).map .submission) := by
  have hid := h.requestId.parse Uuid.parse_toText
  have hlease := h.leaseId.parse Uuid.parse_toText
  simp only [ExistingRequestRow.intoSubmission, parseUuid, parseDatetime, h.leaseExpiresAt]
  generalize Uuid.parse a.requestId = x₁ at hid
  generalize Uuid.parse b.requestId = x₂ at hid
  generalize Uuid.parse a.leaseId = y₁ at hlease
  generalize Uuid.parse b.leaseId = y₂ at hlease
  cases hid with
  | none => exact .plain rfl
  | some hid =>
    cases hlease with
    | none => exact .plain rfl
    | some hlease =>
      cases parseFromRfc3339 a.leaseExpiresAt with
      | none => exact .plain rfl
      | some t => exact .submission rfl rfl hid hlease

end RowMatched

/-! ### The veil -/

/-- An id of a stored request was drawn on the way or is none that is ever drawn. -/
def Accounted (F : List Uuid) (w : World) (x : Text) : Prop :=
  (∃ u ∈ w.drawn.map Prod.snd, x = u.toText) ∨ ∀ u, Uuid.parse x = some u → u ∉ F

def Db.Blocks (d : Db) (r s : Text) : Prop :=
  ∃ b ∈ d.blocks.rows, b.blockerAccountId = r ∧ b.blockedAccountId = s

/-- The second world is the first with a block of `s` by `r`, and without the requests that this
hides. -/
structure Veiled (F : List Uuid) (l : List (Uuid × Uuid)) (s r : Text) (w₁ w₂ : World) : Prop where
  matching : Matching F l
  drawn₁ : l.map Prod.fst = w₁.drawn.map Prod.snd
  drawn₂ : l.map Prod.snd = w₂.drawn.map Prod.snd
  accounts : w₂.db.accounts.rows = w₁.db.accounts.rows
  blocks : ∀ a b, w₂.db.Blocks a b ↔ w₁.db.Blocks a b ∨ (a = r ∧ b = s)
  chats : List.Forall₂ (RowMatched F l) (unhidden s r w₁.db.chats.rows) w₂.db.chats.rows
  known₁ : ∀ row ∈ w₁.db.chats.rows, Accounted F w₁ row.requestId ∧ Accounted F w₁ row.leaseId
  known₂ : ∀ row ∈ w₂.db.chats.rows, Accounted F w₂ row.requestId ∧ Accounted F w₂ row.leaseId

/-- The outcomes of one call in two veiled worlds. -/
structure InStep (F : List Uuid) (l : List (Uuid × Uuid)) (s r : Text) (x₁ x₂ : CallOutcome) :
    Prop where
  drawn : x₁.drawn.length = x₂.drawn.length
  response : Same F (x₁.drawn.zip x₂.drawn ++ l) x₁.response x₂.response
  chats : List.Forall₂ (RowMatched F (x₁.drawn.zip x₂.drawn ++ l)) (unhidden s r x₁.chats) x₂.chats

/-- The requests of an outcome were there or have the UUIDs drawn. -/
def CallOutcome.Stems (x : CallOutcome) (d : Db) : Prop :=
  ∀ row ∈ x.chats, (∃ row₀ ∈ d.chats.rows, row.requestId = row₀.requestId ∧
    row.leaseId = row₀.leaseId) ∨
      ∃ u v, x.drawn = [v, u] ∧ row.requestId = u.toText ∧ row.leaseId = v.toText

namespace Veiled

variable {w₁ w₂ w₁' w₂' : World} {i : ℕ}

lemma undrawn {w w' : World} (hknown : ∀ row ∈ w.db.chats.rows,
    Accounted F w row.requestId ∧ Accounted F w row.leaseId) (hF : w'.drawn.map Prod.snd ⊆ F) :
    Undrawn w w' := by
  intro u hu hnew row hrow
  have apart {x : Text} (hx : Accounted F w x) : x ≠ u.toText := by
    intro heq
    rcases hx with ⟨v, hv, huv⟩ | hnever
    · exact hnew (Uuid.toText_inj.mp (heq.symm.trans huv) ▸ hv)
    · exact hnever u (heq ▸ Uuid.parse_toText u) (hF hu)
  exact ⟨apart (hknown row hrow).1, apart (hknown row hrow).2⟩

lemma accounted_of_stems {w w' : World} {x : CallOutcome} {r : Response} (hp : Performs w x r w')
    (hx : x.Stems w.db)
    (hknown : ∀ row ∈ w.db.chats.rows, Accounted F w row.requestId ∧ Accounted F w row.leaseId) :
    ∀ row ∈ w'.db.chats.rows, Accounted F w' row.requestId ∧ Accounted F w' row.leaseId := by
  intro row hrow
  rw [hp.chats] at hrow
  have mono {y : Text} (hy : Accounted F w y) : Accounted F w' y := by
    refine hy.imp_left fun ⟨u, hu, heq⟩ => ⟨u, ?_, heq⟩
    rw [hp.drawn]
    exact List.mem_append_right _ hu
  rcases hx row hrow with ⟨row₀, hrow₀, hid, hlease⟩ | ⟨u, v, hdrawn, hid, hlease⟩
  · rw [hid, hlease]
    exact ⟨mono (hknown row₀ hrow₀).1, mono (hknown row₀ hrow₀).2⟩
  · have hw' : w'.drawn.map Prod.snd = [v, u] ++ w.drawn.map Prod.snd := hdrawn ▸ hp.drawn
    exact ⟨.inl ⟨u, by simp [hw'], hid⟩, .inl ⟨v, by simp [hw'], hlease⟩⟩

/-- One call in two veiled worlds. -/
lemma step {x₁ x₂ : CallOutcome} {r₁ r₂ : Response} (h : Veiled F l s r w₁ w₂)
    (hp₁ : Performs w₁ x₁ r₁ w₁') (hp₂ : Performs w₂ x₂ r₂ w₂') (hx : InStep F l s r x₁ x₂)
    (hs₁ : x₁.Stems w₁.db) (hs₂ : x₂.Stems w₂.db) (hn₁ : (w₁'.drawn.map Prod.snd).Nodup)
    (hn₂ : (w₂'.drawn.map Prod.snd).Nodup) (hF₁ : w₁'.drawn.map Prod.snd ⊆ F)
    (hF₂ : w₂'.drawn.map Prod.snd ⊆ F) :
    Veiled F (x₁.drawn.zip x₂.drawn ++ l) s r w₁' w₂' ∧
      Same F (x₁.drawn.zip x₂.drawn ++ l) r₁ r₂ := by
  have hfst : (x₁.drawn.zip x₂.drawn ++ l).map Prod.fst = w₁'.drawn.map Prod.snd := by
    rw [List.map_append, List.map_fst_zip hx.drawn.le, h.drawn₁, hp₁.drawn]
  have hsnd : (x₁.drawn.zip x₂.drawn ++ l).map Prod.snd = w₂'.drawn.map Prod.snd := by
    rw [List.map_append, List.map_snd_zip hx.drawn.ge, h.drawn₂, hp₂.drawn]
  refine ⟨⟨⟨hfst ▸ hn₁, hsnd ▸ hn₂, fun p hp => ⟨hF₁ ?_, hF₂ ?_⟩⟩, hfst, hsnd, ?_,
    fun a b => ?_, ?_,
    accounted_of_stems hp₁ hs₁ h.known₁, accounted_of_stems hp₂ hs₂ h.known₂⟩, ?_⟩
  · exact hfst ▸ List.mem_map_of_mem hp
  · exact hsnd ▸ List.mem_map_of_mem hp
  · rw [hp₁.accounts, hp₂.accounts, h.accounts]
  · simp only [Db.Blocks, hp₁.blocks, hp₂.blocks]
    exact h.blocks a b
  · rw [hp₁.chats, hp₂.chats]
    exact hx.chats
  · rw [hp₁.response, hp₂.response]
    exact hx.response

end Veiled

/-! ### One call -/

section calls

variable {w₁ w₂ : World} {rows rows₂ : List ChatRecord} {p₁ p₂ : ChatRecord → Bool}

/-- A search that passes the hidden requests over. -/
lemma find?_unhidden (hno : ∀ row ∈ rows, row.FromTo s r → p₁ row = false) :
    (unhidden s r rows).find? p₁ = rows.find? p₁ := by
  rw [unhidden, List.find?_filter]
  refine List.find?_congr fun row hrow => ?_
  by_cases hfrom : row.FromTo s r
  · simp [hno row hrow hfrom]
  · simp [hfrom]

lemma unhidden_filter (k : ChatRecord → Bool) :
    unhidden s r (rows.filter k) = (unhidden s r rows).filter k := by
  rw [unhidden, unhidden, List.filter_filter, List.filter_filter]
  exact List.filter_congr fun row _ => Bool.and_comm _ _

lemma unhidden_append (rows rows' : List ChatRecord) :
    unhidden s r (rows ++ rows') = unhidden s r rows ++ unhidden s r rows' := List.filter_append ..

lemma unhidden_singleton (row : ChatRecord) :
    unhidden s r [row] = if row.FromTo s r then [] else [row] := by
  by_cases hfrom : row.FromTo s r <;> simp [unhidden, hfrom]

lemma inStep_of_rows {x : Response} (hx : told x = [])
    (hrows : List.Forall₂ (RowMatched F l) (unhidden s r rows) rows₂) :
    InStep F l s r ⟨x, rows, []⟩ ⟨x, rows₂, []⟩ := ⟨rfl, .plain hx, hrows⟩

lemma Veiled.unexpired (h : Veiled F l s r w₁ w₂) (now : ℤ) :
    List.Forall₂ (RowMatched F l) (unhidden s r (w₁.db.unexpired D now))
      (w₂.db.unexpired D now) := by
  rw [Db.unexpired, unhidden_filter]
  exact filter_rel (fun a b hab => congrArg _ (hab.expired now)) h.chats

lemma Veiled.openRecipient (h : Veiled F l s r w₁ w₂) (name : Text) :
    w₂.db.openRecipient s name = (w₁.db.openRecipient s name).filter (· ≠ r) := by
  rw [Db.openRecipient, Db.openRecipient, Db.accountByIdentitty, Db.accountByIdentitty, h.accounts,
    Option.filter_filter]
  have hany (d : Db) (a : Text) : (d.blocks.rows.any fun b =>
      b.blockerAccountId = a ∧ b.blockedAccountId = s) = false ↔ ¬ d.Blocks a s := by
    simp [Db.Blocks]
  refine congrArg (Option.filter · _) (funext fun a => Bool.eq_iff_iff.mpr ?_)
  simp only [decide_eq_true_eq, Bool.and_eq_true, hany, h.blocks, and_true]
  tauto

lemma Veiled.cancel {u₁ u₂ v₁ v₂ : Uuid} (h : Veiled F l s r w₁ w₂) (hu : Matched F l u₁ u₂)
    (hv : Matched F l v₁ v₂) :
    InStep F l s r (cancelOutcome w₁.db s ⟨u₁, v₁⟩) (cancelOutcome w₂.db s ⟨u₂, v₂⟩) := by
  have hids (a b : ChatRecord) (hab : RowMatched F l a b) :
      decide (a.requestId = u₁.toText ∧ a.leaseId = v₁.toText) =
        decide (b.requestId = u₂.toText ∧ b.leaseId = v₂.toText) :=
    decide_eq_decide.mpr
      (and_congr (hab.requestId_iff h.matching hu) (hab.leaseId_iff h.matching hv))
  have hfind := find?_rel hids h.chats
  have hkept := filter_rel (fun a b hab => congrArg not (hids a b hab)) h.chats
  rw [← unhidden_filter] at hkept
  by_cases hno : ∀ row ∈ w₁.db.chats.rows, row.FromTo s r →
      decide (row.requestId = u₁.toText ∧ row.leaseId = v₁.toText) = false
  · rw [find?_unhidden hno] at hfind
    simp only [cancelOutcome]
    generalize w₁.db.chats.rows.find? _ = x₁ at hfind ⊢
    generalize w₂.db.chats.rows.find? _ = x₂ at hfind ⊢
    cases hfind with
    | none => exact inStep_of_rows rfl h.chats
    | @some a b hab =>
      dsimp only
      rw [hab.sender]
      split_ifs
      · exact inStep_of_rows rfl h.chats
      · refine inStep_of_rows rfl ?_
        simpa only [decide_not] using hkept
  · push Not at hno
    obtain ⟨row, hrow, hfrom, hp⟩ := hno
    rw [ne_eq, Bool.not_eq_false, decide_eq_true_eq] at hp
    -- The ids are those of a hidden request alone.
    have hlone : ∀ row' ∈ unhidden s r w₁.db.chats.rows,
        ¬ (row'.requestId = u₁.toText ∧ row'.leaseId = v₁.toText) := by
      intro row' hrow' hp'
      obtain ⟨hmem, hshown⟩ := List.mem_filter.mp hrow'
      rw [w₁.db.chats.eq_of_clash hmem hrow (.inl (hp'.1.trans hp.1.symm))] at hshown
      exact of_decide_eq_true hshown hfrom
    have hnone : (unhidden s r w₁.db.chats.rows).find? (fun row =>
        row.requestId = u₁.toText ∧ row.leaseId = v₁.toText) = none :=
      List.find?_eq_none.mpr fun row' hrow' hp' => hlone row' hrow' (of_decide_eq_true hp')
    have hfound : w₁.db.chats.rows.find? (fun row =>
        row.requestId = u₁.toText ∧ row.leaseId = v₁.toText) = some row :=
      w₁.db.chats.find?_eq_some hrow (decide_eq_true hp) fun b hb =>
        .inl ((of_decide_eq_true hb).1.trans hp.1.symm)
    rw [hnone] at hfind
    simp only [cancelOutcome]
    generalize w₂.db.chats.rows.find? _ = x₂ at hfind ⊢
    cases hfind
    rw [hfound]
    dsimp only
    rw [if_neg (not_not.mpr hfrom.1)]
    refine inStep_of_rows rfl ?_
    rw [unhidden_filter, List.filter_eq_self.mpr fun row' hrow' =>
      decide_eq_true (hlone row' hrow')]
    exact h.chats

lemma RowMatched.lengthen {a b : ChatRecord} {u₁ u₂ : Uuid} (hl : Matching F l)
    (h : RowMatched F l a b) (hu : Matched F l u₁ u₂) (lease : Text) : RowMatched F l
      (if a.requestId = u₁.toText then { a with leaseExpiresAt := lease } else a)
      (if b.requestId = u₂.toText then { b with leaseExpiresAt := lease } else b) := by
  rw [if_congr (h.requestId_iff hl hu).symm rfl rfl]
  split_ifs
  · exact ⟨h.requestId, h.leaseId, h.clientRequestId, by rw [h.rest]⟩
  · exact h

lemma Veiled.renew {ρ : ℕ → ℤ} {u₁ u₂ v₁ v₂ : Uuid} (h : Veiled F l s r w₁ w₂)
    (hu : Matched F l u₁ u₂) (hv : Matched F l v₁ v₂)
    (hno : ∀ row ∈ w₁.db.unexpired D (ρ 0), row.FromTo s r →
      ¬ (row.requestId = u₁.toText ∧ row.leaseId = v₁.toText)) :
    InStep F l s r (renewOutcome D w₁.db ρ s ⟨u₁, v₁⟩) (renewOutcome D w₂.db ρ s ⟨u₂, v₂⟩) := by
  have hrows := h.unexpired (D := D) (ρ 0)
  have hids (a b : ChatRecord) (hab : RowMatched F l a b) :
      decide (a.requestId = u₁.toText ∧ a.leaseId = v₁.toText ∧ a.senderAccountId = s) =
        decide (b.requestId = u₂.toText ∧ b.leaseId = v₂.toText ∧ b.senderAccountId = s) := by
    rw [hab.sender]
    exact decide_eq_decide.mpr (and_congr (hab.requestId_iff h.matching hu)
      (and_congr (hab.leaseId_iff h.matching hv) Iff.rfl))
  have hfind := find?_rel hids hrows
  rw [find?_unhidden fun row hrow hfrom => decide_eq_false fun hp =>
    hno row hrow hfrom ⟨hp.1, hp.2.1⟩] at hfind
  simp only [renewOutcome]
  generalize (w₁.db.unexpired D (ρ 0)).find? _ = x₁ at hfind ⊢
  generalize (w₂.db.unexpired D (ρ 0)).find? _ = x₂ at hfind ⊢
  cases hfind with
  | none => exact inStep_of_rows rfl hrows
  | @some a b hab =>
    dsimp only
    rw [hab.hardExpiresAt]
    cases parseDatetime a.hardExpiresAt with
    | error e => exact inStep_of_rows rfl hrows
    | ok hard =>
      cases DateTime.addSeconds (ρ 2) 90 with
      | none => exact inStep_of_rows rfl hrows
      | some lease =>
        refine ⟨rfl, .lease rfl hu hv, ?_⟩
        have hmap : unhidden s r ((w₁.db.unexpired D (ρ 0)).map fun row =>
            if row.requestId = u₁.toText then
              { row with leaseExpiresAt := toRfc3339 (min lease hard) } else row) =
            (unhidden s r (w₁.db.unexpired D (ρ 0))).map fun row =>
              if row.requestId = u₁.toText then
                { row with leaseExpiresAt := toRfc3339 (min lease hard) } else row := by
          rw [unhidden, List.filter_map]
          refine congrArg (List.map _) (List.filter_congr fun row _ => ?_)
          simp only [Function.comp_apply, ChatRecord.FromTo]
          split_ifs <;> rfl
        dsimp only
        rw [hmap]
        exact List.rel_map (fun a b hab => hab.lengthen h.matching hu _) hrows

lemma Veiled.submit {ρ : ℕ → ℤ} {publicKey payload : List UInt8} {name : Text}
    {c₁ c₂ u₁ u₂ v₁ v₂ : Uuid} (h : Veiled F l s r w₁ w₂) (hc : Matched F l c₁ c₂)
    (hrows : List.Forall₂ (RowMatched F l) (unhidden s r rows) rows₂)
    (hcount : 25 ≤ rows.countP (activeOf D s (ρ 3)) →
      25 ≤ (unhidden s r rows).countP (activeOf D s (ρ 3))) :
    InStep F l s r (submitOutcome D w₁.db rows ρ s publicKey payload name c₁ u₁ v₁)
      (submitOutcome D w₂.db rows₂ ρ s publicKey payload name c₂ u₂ v₂) := by
  have hactive (a b : ChatRecord) (hab : RowMatched F l a b) :
      activeOf D s (ρ 3) a = activeOf D s (ρ 3) b := by
    rw [activeOf, activeOf, hab.sender, hab.active]
  have hsame : 25 ≤ rows.countP (activeOf D s (ρ 3)) ↔
      25 ≤ rows₂.countP (activeOf D s (ρ 3)) := by
    rw [← countP_rel hactive hrows]
    exact ⟨hcount, fun hle => hle.trans (List.filter_sublist.countP_le)⟩
  have hsub : l ⊆ [(v₁, v₂), (u₁, u₂)] ++ l := List.subset_append_right _ _
  have hmono := hrows.imp fun a b hab => RowMatched.mono hab hsub
  have hu : Matched F ([(v₁, v₂), (u₁, u₂)] ++ l) u₁ u₂ := .inl (by simp)
  have hv : Matched F ([(v₁, v₂), (u₁, u₂)] ++ l) v₁ v₂ := .inl (by simp)
  simp only [submitOutcome]
  rw [if_congr hsame rfl rfl]
  split_ifs
  · exact inStep_of_rows rfl hrows
  cases DateTime.addSeconds (ρ 4) 90 with
  | none => exact inStep_of_rows rfl hrows
  | some lease =>
    cases DateTime.addSeconds (ρ 4) (15 * 60) with
    | none => exact inStep_of_rows rfl hrows
    | some hard =>
      refine ⟨rfl, .submission rfl rfl hu hv, ?_⟩
      dsimp only
      rw [unhidden_append, h.openRecipient]
      refine List.rel_append hmono ?_
      cases w₁.db.openRecipient s name with
      | none => exact .nil
      | some a =>
        rw [Option.map_some, Option.toList_some, unhidden_singleton, Option.filter_some]
        by_cases har : a = r
        · have hfrom : (newRecord s publicKey payload c₁ u₁ v₁ (ρ 4) lease hard a).FromTo s r :=
            ⟨rfl, har⟩
          rw [if_pos hfrom, if_neg (by simpa using har)]
          exact .nil
        · have hshown : ¬ (newRecord s publicKey payload c₁ u₁ v₁ (ρ 4) lease hard a).FromTo s r :=
            fun hfrom => har hfrom.2
          rw [if_neg hshown, if_pos (decide_eq_true har)]
          exact .cons ⟨hu.text Uuid.parse_toText, hv.text Uuid.parse_toText,
            (hc.mono hsub).text Uuid.parse_toText, rfl⟩ .nil

/-- Nothing that the call does or finds depends on the requests of `s` to `r`. -/
def Independent (D : Deployment) (s r : Text) (d : Db) (ρ : ℕ → ℤ) : Op → Prop
  | .sendLiveChatRequest _ input => ∀ payload name,
    decodePayload input.encryptedPayload = .ok payload →
    normaliseIdentitty input.recipientIdentitty = .ok name →
      (∀ row ∈ d.unexpired D (ρ 0), row.FromTo s r →
        row.clientRequestId ≠ input.clientRequestId.toText) ∧
      ((∀ row ∈ d.unexpired D (ρ 0), ¬ (row.senderAccountId = s ∧
        row.clientRequestId = input.clientRequestId.toText)) →
        25 ≤ (d.unexpired D (ρ 0)).countP (activeOf D s (ρ 3)) →
          25 ≤ (unhidden s r (d.unexpired D (ρ 0))).countP (activeOf D s (ρ 3)))
  | .renewLiveChatRequest _ input => ∀ row ∈ d.unexpired D (ρ 0), row.FromTo s r →
    ¬ (row.requestId = input.requestId.toText ∧ row.leaseId = input.leaseId.toText)
  | _ => True

lemma Veiled.send {ρ : ℕ → ℤ} {ctx : Context} {name payload : Text} {c₁ c₂ u₁ u₂ v₁ v₂ : Uuid}
    (h : Veiled F l s r w₁ w₂) (hc : Matched F l c₁ c₂)
    (hno : Independent D s r w₁.db ρ (.sendLiveChatRequest ctx ⟨name, c₁, payload⟩)) :
    InStep F l s r (sendOutcome D w₁.db ρ s ⟨name, c₁, payload⟩ u₁ v₁)
      (sendOutcome D w₂.db ρ s ⟨name, c₂, payload⟩ u₂ v₂) := by
  have hrows := h.unexpired (D := D) (ρ 0)
  have hkeys : w₂.db.accountById s = w₁.db.accountById s := by
    rw [Db.accountById, Db.accountById, h.accounts]
  have hids (a b : ChatRecord) (hab : RowMatched F l a b) :
      decide (a.senderAccountId = s ∧ a.clientRequestId = c₁.toText) =
        decide (b.senderAccountId = s ∧ b.clientRequestId = c₂.toText) := by
    rw [hab.sender]
    exact decide_eq_decide.mpr (and_congr Iff.rfl (hab.clientRequestId_iff h.matching hc))
  have hfind := find?_rel hids hrows
  simp only [Independent] at hno
  simp only [sendOutcome]
  cases hpayload : decodePayload payload with
  | error e => exact inStep_of_rows rfl h.chats
  | ok bytes =>
    cases hname : normaliseIdentitty name with
    | error e => exact inStep_of_rows rfl h.chats
    | ok normal =>
      obtain ⟨hlookup, hcount⟩ := hno bytes normal hpayload hname
      rw [find?_unhidden fun row hrow hfrom => decide_eq_false fun hp =>
        hlookup row hrow hfrom hp.2] at hfind
      dsimp only
      rw [hkeys]
      cases w₁.db.accountById s with
      | none => exact inStep_of_rows rfl hrows
      | some a =>
        dsimp only
        cases hx₁ : (w₁.db.unexpired D (ρ 0)).find? fun row =>
          row.senderAccountId = s ∧ row.clientRequestId = c₁.toText with
        | none =>
          rw [hx₁] at hfind
          generalize (w₂.db.unexpired D (ρ 0)).find? _ = x₂ at hfind ⊢
          cases hfind
          refine h.submit hc hrows (hcount fun row hrow hp => ?_)
          exact List.find?_eq_none.mp hx₁ row hrow (decide_eq_true hp)
        | some row =>
          rw [hx₁] at hfind
          generalize (w₂.db.unexpired D (ρ 0)).find? _ = x₂ at hfind ⊢
          cases hfind with
          | some hab => exact ⟨rfl, hab.same, hrows⟩

/-! ### Where the requests of an outcome stem from -/

section stems

variable {d : Db} {ρ : ℕ → ℤ}

lemma stems_of_subset {x : Response} {us : List Uuid} (h : rows ⊆ d.chats.rows) :
    CallOutcome.Stems ⟨x, rows, us⟩ d := fun row hrow => .inl ⟨row, h hrow, rfl, rfl⟩

lemma unexpired_subset (d : Db) (now : ℤ) : d.unexpired D now ⊆ d.chats.rows :=
  List.filter_subset_self _

lemma cancelOutcome_stems {input : CancelLiveChatRequestInput} :
    (cancelOutcome d s input).Stems d := by
  unfold cancelOutcome
  split
  · exact stems_of_subset (List.Subset.refl _)
  · split_ifs
    · exact stems_of_subset (List.Subset.refl _)
    · exact stems_of_subset (List.filter_subset_self _)

lemma renewOutcome_stems {input : RenewLiveChatRequestInput} :
    (renewOutcome D d ρ s input).Stems d := by
  unfold renewOutcome
  split
  · exact stems_of_subset (unexpired_subset d _)
  · split
    · exact stems_of_subset (unexpired_subset d _)
    · exact stems_of_subset (unexpired_subset d _)
    · intro row hrow
      obtain ⟨row₀, hrow₀, rfl⟩ := List.mem_map.mp hrow
      refine .inl ⟨row₀, unexpired_subset d _ hrow₀, ?_⟩
      split_ifs <;> exact ⟨rfl, rfl⟩

lemma sendOutcome_stems {input : SendLiveChatRequestInput} {u v : Uuid} :
    (sendOutcome D d ρ s input u v).Stems d := by
  unfold sendOutcome
  split
  · exact stems_of_subset (List.Subset.refl _)
  · exact stems_of_subset (List.Subset.refl _)
  · split
    · exact stems_of_subset (unexpired_subset d _)
    · split
      · exact stems_of_subset (unexpired_subset d _)
      · unfold submitOutcome
        split_ifs
        · exact stems_of_subset (unexpired_subset d _)
        · split
          · intro row hrow
            rcases List.mem_append.mp hrow with hrow | hrow
            · exact .inl ⟨row, unexpired_subset d _ hrow, rfl, rfl⟩
            · obtain ⟨a, -, rfl⟩ := Option.map_eq_some_iff.mp (Option.mem_toList.mp hrow)
              exact .inr ⟨u, v, rfl, rfl, rfl⟩
          · exact stems_of_subset (unexpired_subset d _)

end stems

end calls

end TittyBackend
