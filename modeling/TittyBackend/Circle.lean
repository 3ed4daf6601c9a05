import TittyBackend.Database.Statements

/-!
# What a circle of accounts can see

Two databases look the same to a circle of accounts if they hold the same accounts and challenges,
and the same requests and blocks that somebody of the circle has a part in. The statements that
concern the circle are answered alike in both, and the writes of strangers go unseen.
-/

namespace TittyBackend

open Numerals

/-! ### Views -/

/-- Somebody of the circle sent the request or was sent it. -/
def ChatRecord.concerns (inside : Text → Bool) (r : ChatRecord) : Bool :=
  inside r.senderAccountId || inside r.recipientAccountId

/-- Somebody of the circle blocks or is blocked. -/
def BlockRecord.concerns (inside : Text → Bool) (b : BlockRecord) : Bool :=
  inside b.blockerAccountId || inside b.blockedAccountId

/-- `d'` is `d` as far as the circle has a part in it. -/
structure SameView (inside : Text → Bool) (d d' : Db) : Prop where
  accounts : d'.accounts = d.accounts
  challenges : d'.challenges = d.challenges
  blocks : d'.blocks.rows = d.blocks.rows.filter (BlockRecord.concerns inside)
  chats : d'.chats.rows = d.chats.rows.filter (ChatRecord.concerns inside)

variable {D : Deployment} {inside : Text → Bool} {now : ℤ} {d d' e e' : Db} {n n' : ℕ}

lemma SameView.empty (inside : Text → Bool) : SameView inside .empty .empty := ⟨rfl, rfl, rfl, rfl⟩

lemma SameView.hasAccount (h : SameView inside d d') (accountId : Text) :
    d'.HasAccount accountId ↔ d.HasAccount accountId := by
  rw [Db.HasAccount, Db.HasAccount, h.accounts]

/-! ### Queries -/

section filter

variable {α : Type} {p q : α → Bool} {l : List α} (h : ∀ x ∈ l, p x = true → q x = true)

include h

/-- What satisfies `q` in any case need not be tested for it. -/
lemma filter_filter_of_imp : (l.filter q).filter p = l.filter p := by
  rw [List.filter_filter]
  refine List.filter_congr fun x hx => ?_
  by_cases hp : p x = true
  · simp [hp, h x hx hp]
  · simp [hp]

lemma find?_filter_of_imp : (l.filter q).find? p = l.find? p := by
  rw [← List.head?_filter, ← List.head?_filter, filter_filter_of_imp h]

lemma countP_filter_of_imp : (l.filter q).countP p = l.countP p := by
  rw [List.countP_eq_length_filter, List.countP_eq_length_filter, filter_filter_of_imp h]

lemma any_filter_of_imp : (l.filter q).any p = l.any p := by
  rw [Bool.eq_iff_iff, List.any_eq_true, List.any_eq_true]
  constructor
  · rintro ⟨x, hx, hp⟩
    exact ⟨x, List.mem_of_mem_filter hx, hp⟩
  · rintro ⟨x, hx, hp⟩
    exact ⟨x, List.mem_filter.mpr ⟨hx, h x hx hp⟩, hp⟩

end filter

/-- The query asks for requests and blocks that somebody of the circle has a part in. -/
def Select.Within (inside : Text → Bool) : Select → Prop
  | .existingRequest a _ | .activeCount a | .blockExists _ a | .lease _ _ a | .blockCreatedAt a _
  | .blockedIdentities a | .liveChatRequests a => inside a = true
  | _ => True

/-- Such a query is answered alike; the query for the owner of a request is if the circle has a
part in that. -/
lemma SameView.eval (h : SameView inside d d') {q : Select} (hq : q.Within inside)
    (howner : ∀ requestId leaseId, q = .owner requestId leaseId → ∀ r ∈ d.chats.rows,
      r.requestId = requestId → r.concerns inside = true) :
    q.eval D now d' = q.eval D now d := by
  have hsender : d'.joinSender = d.joinSender := by
    funext r
    simp only [Db.joinSender, Db.accountById, h.accounts]
  have hblocked : d'.joinBlocked = d.joinBlocked := by
    funext b
    simp only [Db.joinBlocked, Db.accountById, h.accounts]
  cases q with
  | existingRequest sender clientRequestId =>
    simp only [Select.eval, h.chats]
    rw [find?_filter_of_imp fun r _ hr => ?_]
    simp only [decide_eq_true_eq] at hr
    simp [ChatRecord.concerns, hr.1, show inside sender = true from hq]
  | activeCount sender =>
    simp only [Select.eval, h.chats]
    rw [countP_filter_of_imp fun r _ hr => ?_]
    simp only [decide_eq_true_eq] at hr
    simp [ChatRecord.concerns, hr.1, show inside sender = true from hq]
  | blockExists blocker blocked =>
    simp only [Select.eval, h.blocks]
    rw [any_filter_of_imp fun b _ hb => ?_]
    simp only [decide_eq_true_eq] at hb
    simp [BlockRecord.concerns, hb.2, show inside blocked = true from hq]
  | lease requestId leaseId sender =>
    simp only [Select.eval, h.chats]
    rw [find?_filter_of_imp fun r _ hr => ?_]
    simp only [decide_eq_true_eq] at hr
    simp [ChatRecord.concerns, hr.2.2, show inside sender = true from hq]
  | owner requestId leaseId =>
    simp only [Select.eval, h.chats]
    rw [find?_filter_of_imp fun r hr hids => ?_]
    simp only [decide_eq_true_eq] at hids
    exact howner requestId leaseId rfl r hr hids.1
  | blockCreatedAt blocker blocked =>
    simp only [Select.eval, h.blocks]
    rw [find?_filter_of_imp fun b _ hb => ?_]
    simp only [decide_eq_true_eq] at hb
    simp [BlockRecord.concerns, hb.1, show inside blocker = true from hq]
  | blockedIdentities blocker =>
    simp only [Select.eval, h.blocks, hblocked]
    rw [filter_filter_of_imp fun b _ hb => ?_]
    simp only [decide_eq_true_eq] at hb
    simp [BlockRecord.concerns, hb, show inside blocker = true from hq]
  | liveChatRequests account =>
    simp only [Select.eval, h.chats, hsender]
    rw [filter_filter_of_imp fun r _ hr => ?_]
    simp only [decide_eq_true_eq] at hr
    simp [ChatRecord.concerns, hr.1, show inside account = true from hq]
  | _ => simp only [Select.eval, Db.accountById, Db.accountByIdentitty, h.accounts, h.challenges]

/-! ### Writes of the circle -/

/-- A write that stores requests and blocks of the circle only, and whose request shares no key with
one of strangers. -/
def Write.Within (inside : Text → Bool) (d : Db) : Write → Prop
  | .insertChat r => r.concerns inside = true ∧
      ∀ row ∈ d.chats.rows, row.Clash r → row.concerns inside = true
  | .insertBlock b => inside b.blockerAccountId = true
  | _ => True

variable {u : Write}

/-- Such a write succeeds on both or fails on both. -/
lemma SameView.outcome (h : SameView inside d d') (hu : u.Within inside d) :
    (u.apply D now d').map (fun _ => ()) = (u.apply D now d).map fun _ => () := by
  cases u with
  | insertAccount r =>
    simp only [Write.apply, h.accounts]
    by_cases hf : d.accounts.Fresh r
    · rw [dif_pos hf, dif_pos hf]
      rfl
    · rw [dif_neg hf, dif_neg hf]
  | insertChallenge challengeId accountId challenge expiresAt =>
    simp only [Write.apply, h.challenges, h.hasAccount]
    by_cases hf : d.challenges.Fresh ⟨challengeId, accountId, challenge, expiresAt, none⟩
    · rw [dif_pos hf, dif_pos hf]
      by_cases ha : d.HasAccount accountId
      · rw [dif_pos ha, dif_pos ha]
        rfl
      · rw [dif_neg ha, dif_neg ha]
    · rw [dif_neg hf, dif_neg hf]
  | insertChat r =>
    have hfresh : d'.chats.Fresh r ↔ d.chats.Fresh r := by
      simp only [Relational.Table.Fresh, h.chats, List.mem_filter, and_imp]
      exact forall₂_congr fun row hrow =>
        ⟨fun hno hclash => hno (hu.2 row hrow hclash) hclash, fun hno _ => hno⟩
    simp only [Write.apply, h.hasAccount, hfresh]
    by_cases hf : d.chats.Fresh r
    · rw [dif_pos hf, dif_pos hf]
      by_cases ha : d.HasAccount r.senderAccountId ∧ d.HasAccount r.recipientAccountId
      · rw [dif_pos ha, dif_pos ha]
        rfl
      · rw [dif_neg ha, dif_neg ha]
    · rw [dif_neg hf, dif_neg hf]
  | insertBlock b =>
    have hfresh : d'.blocks.Fresh b ↔ d.blocks.Fresh b := by
      simp only [Relational.Table.Fresh, h.blocks, List.mem_filter, and_imp]
      refine forall₂_congr fun row hrow => ⟨fun hno hclash => hno ?_ hclash, fun hno _ => hno⟩
      simp [BlockRecord.concerns, hclash.1, show inside b.blockerAccountId = true from hu]
    simp only [Write.apply, h.hasAccount, hfresh]
    by_cases hf : d.blocks.Fresh b
    · rw [dif_pos hf, dif_pos hf]
      by_cases ha : d.HasAccount b.blockerAccountId ∧ d.HasAccount b.blockedAccountId
      · rw [dif_pos ha, dif_pos ha]
        rfl
      · rw [dif_neg ha, dif_neg ha]
    · rw [dif_neg hf, dif_neg hf]
      rfl
  | _ => rfl

/-- Such a write leaves databases that look the same. -/
lemma SameView.apply (h : SameView inside d d') (hu : u.Within inside d)
    (he : u.apply D now d = .ok (n, e)) (he' : u.apply D now d' = .ok (n', e')) :
    SameView inside e e' := by
  refine ⟨?_, ?_, ?_, ?_⟩
  · ext1
    rw [Write.accounts_apply he', Write.accounts_apply he, h.accounts]
  · ext1
    rw [Write.challenges_apply he', Write.challenges_apply he, h.challenges]
  · rw [Write.blocks_apply he', Write.blocks_apply he, h.blocks]
    cases u with
    | insertBlock b =>
      have hb : b.concerns inside = true := by
        simp [BlockRecord.concerns, show inside b.blockerAccountId = true from hu]
      have hclash : (∀ a ∈ d.blocks.rows.filter (BlockRecord.concerns inside), ¬ a.Clash b) ↔
          ∀ a ∈ d.blocks.rows, ¬ a.Clash b := by
        simp only [List.mem_filter, and_imp]
        refine forall₂_congr fun a ha => ⟨fun hno hclash => hno ?_ hclash, fun hno _ => hno⟩
        simp [BlockRecord.concerns, hclash.1, show inside b.blockerAccountId = true from hu]
      simp only [Write.blockRows, hclash]
      split_ifs <;> simp [List.filter_append, hb]
    | deleteBlock blocker blocked => exact List.filter_comm _ _ _
    | _ => rfl
  · rw [Write.chats_apply he', Write.chats_apply he, h.chats]
    cases u with
    | insertChat r => simp [Write.chatRows, List.filter_append, hu.1]
    | updateLease leaseExpiresAt requestId =>
      simp only [Write.chatRows, List.filter_map]
      refine congrArg _ (List.filter_congr fun r _ => ?_)
      simp only [Function.comp_apply]
      split_ifs <;> rfl
    | deleteChat | removeExpiredChats | deleteChatsBetween => exact List.filter_comm _ _ _
    | _ => rfl

/-! ### Writes of strangers -/

/-- A write of requests and blocks that the circle has no part in. -/
def Write.Without (inside : Text → Bool) (d : Db) : Write → Prop
  | .insertChat r => r.concerns inside = false
  | .updateLease _ requestId => ∀ r ∈ d.chats.rows, r.requestId = requestId →
      r.concerns inside = false
  | .deleteChat requestId _ => ∀ r ∈ d.chats.rows, r.requestId = requestId →
      r.concerns inside = false
  | .deleteChatsBetween sender recipient => inside sender = false ∧ inside recipient = false
  | .insertBlock b => b.concerns inside = false
  | .deleteBlock blocker blocked => inside blocker = false ∧ inside blocked = false
  | _ => False

/-- Such a write goes unseen. -/
lemma SameView.without (h : SameView inside d d') (hu : u.Without inside d)
    (he : u.apply D now d = .ok (n, e)) : SameView inside e d' := by
  have keep {p : ChatRecord → Bool}
      (hp : ∀ r ∈ d.chats.rows, r.concerns inside = true → p r = true) :
      (d.chats.rows.filter p).filter (ChatRecord.concerns inside) =
        d.chats.rows.filter (ChatRecord.concerns inside) := filter_filter_of_imp hp
  refine ⟨?_, ?_, ?_, ?_⟩
  · ext1
    rw [Write.accounts_apply he, h.accounts]
    cases u <;> first | rfl | exact hu.elim
  · ext1
    rw [Write.challenges_apply he, h.challenges]
    cases u <;> first | rfl | exact hu.elim
  · rw [Write.blocks_apply he, h.blocks]
    cases u with
    | insertBlock b =>
      simp only [Write.blockRows]
      split_ifs
      · rw [List.filter_append, List.filter_cons_of_neg (by simp [show _ = false from hu])]
        simp
      · rfl
    | deleteBlock blocker blocked =>
      refine (filter_filter_of_imp fun b _ hb => ?_).symm
      obtain ⟨hblocker, hblocked⟩ := hu
      simp only [decide_eq_true_eq]
      rintro ⟨rfl, rfl⟩
      simp [BlockRecord.concerns, hblocker, hblocked] at hb
    | _ => rfl
  · rw [Write.chats_apply he, h.chats]
    cases u with
    | insertChat r =>
      rw [Write.chatRows, List.filter_append,
        List.filter_cons_of_neg (by simp [show _ = false from hu])]
      simp
    | updateLease leaseExpiresAt requestId =>
      have hsame : d.chats.rows.filter (ChatRecord.concerns inside ∘ fun r =>
          if r.requestId = requestId then { r with leaseExpiresAt } else r) =
            d.chats.rows.filter (ChatRecord.concerns inside) := by
        refine List.filter_congr fun r _ => ?_
        simp only [Function.comp_apply]
        split_ifs <;> rfl
      rw [Write.chatRows, List.filter_map, hsame]
      refine ((List.map_congr_left fun r hr => ?_).trans (List.map_id _)).symm
      obtain ⟨hmem, hc⟩ := List.mem_filter.mp hr
      refine if_neg fun hid => ?_
      rw [hu r hmem hid] at hc
      cases hc
    | deleteChat requestId leaseId =>
      refine (keep fun r hr hc => ?_).symm
      simp only [decide_eq_true_eq]
      rintro ⟨hid, -⟩
      rw [hu r hr hid] at hc
      cases hc
    | deleteChatsBetween sender recipient =>
      refine (keep fun r _ hc => ?_).symm
      obtain ⟨hs, hr⟩ := hu
      simp only [decide_eq_true_eq]
      rintro ⟨rfl, rfl⟩
      simp [ChatRecord.concerns, hs, hr] at hc
    | insertBlock | deleteBlock => rfl
    | _ => exact hu.elim

end TittyBackend
