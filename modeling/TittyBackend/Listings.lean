import TittyBackend.Data.TextOrder
import TittyBackend.Service

/-!
# Listings

The two listings are ordered by the text of an instant.
-/

namespace TittyBackend

open Numerals Relational

/-- The text is what chrono writes for an instant of a four-digit year. -/
def Stamped (text : Text) : Prop := ∃ t, InEra t ∧ text = toRfc3339 t

/-- The instants under this key do not go back. -/
def OldestFirst {ρ : Type} (key : ρ → Text) (rows : List ρ) : Prop :=
  rows.Pairwise fun a b =>
    ∃ t u, parseFromRfc3339 (key a) = some t ∧ parseFromRfc3339 (key b) = some u ∧ t ≤ u

lemma toRfc3339_lt_iff {a b : ℤ} (ha : InEra a) (hb : InEra b) :
    toRfc3339 a < toRfc3339 b ↔ a < b := by
  rw [← not_le, toRfc3339_le_iff hb ha, not_le]

lemma toRfc3339_eq_iff {a b : ℤ} (ha : InEra a) (hb : InEra b) :
    toRfc3339 a = toRfc3339 b ↔ a = b := by
  rw [le_antisymm_iff, toRfc3339_le_iff ha hb, toRfc3339_le_iff hb ha, ← le_antisymm_iff]

/-- `ORDER BY` such a text puts the oldest rows first. -/
lemma oldestFirst_insertionSort {ρ : Type} {key : ρ → Text} {rows : List ρ}
    (h : ∀ r ∈ rows, Stamped (key r)) :
    OldestFirst key (rows.insertionSort fun a b => ¬ key b < key a) := by
  refine (pairwise_insertionSort_text key rows).imp_of_mem fun {a b} ha hb hle => ?_
  obtain ⟨t, ht, hta⟩ := h a ((List.mem_insertionSort _).mp ha)
  obtain ⟨u, hu, hub⟩ := h b ((List.mem_insertionSort _).mp hb)
  refine ⟨t, u, by rw [hta, parse_toRfc3339 ht], by rw [hub, parse_toRfc3339 hu], ?_⟩
  rwa [hta, hub, toRfc3339_le_iff ht hu] at hle

/-- The selected rows, each once, with the oldest first. -/
def InOrderOf {ρ : Type} (key : ρ → Text) (selected listed : List ρ) : Prop :=
  listed.Perm selected ∧ OldestFirst key listed

/-- The texts of instants compare as the instants do, so both listings return the rows that they
select with the oldest first. -/
theorem listings_oldest_first :
    (∀ a b, InEra a → InEra b → (toRfc3339 a < toRfc3339 b ↔ a < b) ∧
      (toRfc3339 a = toRfc3339 b ↔ a = b)) ∧
    (∀ (D : Deployment) (now : ℤ) (d : Db) (account : Text),
      (∀ r ∈ d.chats.rows, Stamped r.createdAt) →
        InOrderOf (fun row : LiveChatRequestRow => row.createdAt)
          ((d.chats.rows.filter fun r => r.recipientAccountId = account ∧ r.Active D now).filterMap
            d.joinSender)
          (Select.eval D now d (.liveChatRequests account))) ∧
    ∀ (D : Deployment) (now : ℤ) (d : Db) (account : Text),
      (∀ b ∈ d.blocks.rows, Stamped b.createdAt) →
        InOrderOf (fun row : BlockedIdentityRow => row.createdAt)
          ((d.blocks.rows.filter fun b => b.blockerAccountId = account).filterMap d.joinBlocked)
          (Select.eval D now d (.blockedIdentities account)) := by
  refine ⟨fun a b ha hb => ⟨toRfc3339_lt_iff ha hb, toRfc3339_eq_iff ha hb⟩,
    fun D now d account h => ⟨List.perm_insertionSort _ _, oldestFirst_insertionSort ?_⟩,
    fun D now d account h => ⟨List.perm_insertionSort _ _, oldestFirst_insertionSort ?_⟩⟩
  · intro row hrow
    obtain ⟨r, hr, hjoin⟩ := List.mem_filterMap.mp hrow
    obtain ⟨a, -, rfl⟩ := Option.map_eq_some_iff.mp hjoin
    exact h r (List.mem_of_mem_filter hr)
  · intro row hrow
    obtain ⟨b, hb, hjoin⟩ := List.mem_filterMap.mp hrow
    obtain ⟨a, -, rfl⟩ := Option.map_eq_some_iff.mp hjoin
    exact h b (List.mem_of_mem_filter hb)

namespace Known

/-- A request from Ada to Bob, made at the instant `t`. -/
def request (t : ℤ) (id : Text) : ChatRecord :=
  ⟨id, id, id, ada, bob, adaKey, [0], toRfc3339 t, toRfc3339 (t + DateTime.seconds 90),
    toRfc3339 (t + DateTime.seconds 900)⟩

def carolRow : AccountRow := ⟨"acct_carol".toList, "carol".toList, [1], toRfc3339 newYear⟩

/-- Bob has two requests from Ada and blocks Ada and Carol, the younger row first each time. -/
def courted : Db :=
  let d := couple.addAccount carolRow (by decide +kernel)
  let d := (d.addChat (request (newYear + 500000000) ['b']) (Table.fresh_empty _)
    (by decide +kernel) (by decide +kernel)).addChat (request newYear ['a']) (by decide +kernel)
      (by decide +kernel) (by decide +kernel)
  (d.addBlock ⟨bob, ada, toRfc3339 (newYear + 500000000)⟩ (Table.fresh_empty _)
    (by decide +kernel) (by decide +kernel)).addBlock
      ⟨bob, "acct_carol".toList, toRfc3339 newYear⟩ (by decide +kernel) (by decide +kernel)
        (by decide +kernel)

end Known

open Known in
theorem listings_oldest_first_courted :
    toRfc3339 newYear < toRfc3339 (newYear + 500000000) ∧
    (∃ a b, OldestFirst (fun row : LiveChatRequestRow => row.createdAt) [a, b] ∧
      Select.eval deployment newYear courted (.liveChatRequests bob) = [a, b]) ∧
    ∃ a b, OldestFirst (fun row : BlockedIdentityRow => row.createdAt) [a, b] ∧
      Select.eval deployment newYear courted (.blockedIdentities bob) = [a, b] := by
  obtain ⟨horder, hchats, hblocks⟩ := listings_oldest_first
  obtain ⟨hperm, hfirst⟩ := hchats deployment newYear courted bob fun r hr => by
    have hr : r ∈ [request (newYear + 500000000) ['b'], request newYear ['a']] := hr
    rcases List.mem_pair.mp hr with rfl | rfl
    · exact ⟨newYear + 500000000, by decide, rfl⟩
    · exact ⟨newYear, by decide, rfl⟩
  obtain ⟨hperm', hfirst'⟩ := hblocks deployment newYear courted bob fun b hb => by
    have hb : b ∈ [⟨bob, ada, toRfc3339 (newYear + 500000000)⟩,
      ⟨bob, "acct_carol".toList, toRfc3339 newYear⟩] := hb
    rcases List.mem_pair.mp hb with rfl | rfl
    · exact ⟨newYear + 500000000, by decide, rfl⟩
    · exact ⟨newYear, by decide, rfl⟩
  refine ⟨(horder newYear (newYear + 500000000) (by decide) (by decide)).1.mpr (by decide), ?_, ?_⟩
  · obtain ⟨a, b, hab⟩ := List.length_eq_two.mp (hperm.length_eq.trans (by decide +kernel))
    exact ⟨a, b, hab ▸ hfirst, hab⟩
  · obtain ⟨a, b, hab⟩ := List.length_eq_two.mp (hperm'.length_eq.trans (by decide +kernel))
    exact ⟨a, b, hab ▸ hfirst', hab⟩

end TittyBackend
