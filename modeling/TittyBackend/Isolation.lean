import TittyBackend.Resolver
import Mathlib.Data.Finset.Card
import Mathlib.Data.List.Dedup

/-!
# Isolation of the rate limits

Every call of the rate limiter purges the buckets of all keys, and may be turned away because of
their number. Nothing else of one key shows in the answers to another: a purge by somebody else
takes away a bucket that the key's own next call would have purged as well.
-/

namespace TittyBackend

open Numerals Resolver

/-! ### Keys -/

/-- `format!("{client_key}:{scope}")` -/
def bucketKey (client scope : Text) : Text := client ++ ':' :: scope

/-- Without a colon in the scopes, the last colon of a key splits it. -/
lemma bucketKey_injective {p q s t : Text} (hs : ':' ∉ s) (ht : ':' ∉ t)
    (h : bucketKey p s = bucketKey q t) : p = q ∧ s = t := by
  rw [bucketKey, bucketKey, List.append_eq_append_iff] at h
  rcases h with ⟨a, hq, ha⟩ | ⟨a, hp, ha⟩
  · cases a with
    | nil => simp_all
    | cons x a =>
      obtain ⟨-, rfl⟩ := List.cons.inj ha
      exact absurd (by simp) hs
  · cases a with
    | nil => simp_all
    | cons x a =>
      obtain ⟨-, rfl⟩ := List.cons.inj ha
      exact absurd (by simp) ht

namespace RateLimiter

/-! ### The bucket of one key -/

/-- The answers to calls of one key, from its bucket alone. -/
def ownAnswers (own : Option Bucket) : List Call → List (Call × Bool)
  | [] => []
  | c :: cs =>
    let r := answer (own.filter fun b => c.now - b.started < hour) c.now c.limit.toNat c.window
    (c, r.1) :: ownAnswers (some r.2) cs

/-- Two states of a bucket that a call at `t` cannot tell apart. -/
def Agree (t : ℕ) (b b' : Option Bucket) : Prop :=
  (b.filter fun b => t - b.started < hour) = b'.filter fun b => t - b.started < hour

variable {buckets : RateLimiter} {k : Text} {c : Call}

/-- A purge before `t` is not seen at `t`. -/
lemma Agree.purged {t u : ℕ} {b b' : Option Bucket} (h : Agree t b b') (hut : u ≤ t) :
    Agree t (b.filter fun b => u - b.started < hour) b' := by
  rw [Agree, ← h]
  cases b with
  | none => rfl
  | some b =>
    by_cases hu : u - b.started < hour
    · rw [Option.filter_some_pos (by simpa using hu)]
    · have ht : ¬ t - b.started < hour := by omega
      rw [Option.filter_some_neg (by simpa using hu), Option.filter_none,
        Option.filter_some_neg (by simpa using ht)]

/-- A call that is not turned away for want of room works on the bucket of its key alone. -/
lemma Sound.call_self (h : buckets.Sound) (own : Option Bucket)
    (hroom : ¬ buckets.Full c.now c.key) (hown : Agree c.now (buckets.lookup c.key) own) :
    (buckets.call c).1 = (answer (own.filter fun b => c.now - b.started < hour) c.now
        c.limit.toNat c.window).1 ∧
      (buckets.call c).2.lookup c.key = some (answer (own.filter fun b =>
        c.now - b.started < hour) c.now c.limit.toNat c.window).2 := by
  rw [RateLimiter.call, check_of_room hroom, h.lookup_retained, hown]
  exact ⟨rfl, lookup_put_self _ _ _⟩

/-- A young bucket is all that the answer to its key depends on. -/
lemma Sound.call_young (h : buckets.Sound) {b : Bucket} (hb : buckets.lookup c.key = some b)
    (hyoung : c.now - b.started < hour) :
    (buckets.call c).1 = (answer (some b) c.now c.limit.toNat c.window).1 ∧
      (buckets.call c).2.lookup c.key = some (answer (some b) c.now c.limit.toNat c.window).2 := by
  have hkept : (some b).filter (fun b => c.now - b.started < hour) = some b :=
    Option.filter_some_pos (by simpa using hyoung)
  have hroom : ¬ buckets.Full c.now c.key := by
    rintro ⟨hnone, -⟩
    rw [h.lookup_retained, hb, hkept] at hnone
    cases hnone
  have hself := h.call_self (some b) hroom (by rw [hb]; rfl)
  rwa [hkept] at hself

lemma Sound.call_of_ne (h : buckets.Sound) (hk : k ≠ c.key) :
    (buckets.call c).2.lookup k = (buckets.lookup k).filter fun b => c.now - b.started < hour :=
  h.lookup_check_of_ne hk ..

/-! ### Room for every key -/

/-- Every bucket belongs to one of few keys. -/
def Within (buckets : RateLimiter) (keys : Finset Text) : Prop :=
  ∀ k ∈ buckets.map Prod.fst, k ∈ keys

lemma Within.retained {keys : Finset Text} (h : buckets.Within keys) (now : ℕ) :
    (buckets.retained now).Within keys :=
  fun k hk => h k (((List.filter_sublist).map Prod.fst).subset hk)

/-- A key among few is not turned away for want of room. -/
lemma Within.not_full {keys : Finset Text} (h : buckets.Within keys) (hs : buckets.Sound)
    (hkeys : keys.card ≤ 4096) (hk : k ∈ keys) (now : ℕ) : ¬ buckets.Full now k := by
  rintro ⟨hnone, hlong⟩
  have hnotMem : k ∉ (buckets.retained now).map Prod.fst :=
    Keyed.lookup_eq_none.1 (Option.isNone_iff_eq_none.1 hnone)
  have hsub : insert k ((buckets.retained now).map Prod.fst).toFinset ⊆ keys := by
    intro x hx
    rcases Finset.mem_insert.1 hx with rfl | hx
    · exact hk
    · exact h.retained now x (List.mem_toFinset.1 hx)
  have hcard := Finset.card_le_card hsub
  rw [Finset.card_insert_of_notMem (by simpa using hnotMem),
    List.toFinset_card_of_nodup (hs.retained now).unique, List.length_map] at hcard
  omega

lemma Within.call {keys : Finset Text} (h : buckets.Within keys) (hc : c.key ∈ keys) :
    (buckets.call c).2.Within keys := by
  by_cases hfull : buckets.Full c.now c.key
  · rw [RateLimiter.call, check_of_full hfull]
    exact h.retained c.now
  · rw [RateLimiter.call, check_of_room hfull]
    intro k hk
    rcases List.mem_cons.1 hk with rfl | hk
    · exact hc
    · exact h.retained c.now k (((List.filter_sublist).map Prod.fst).subset hk)

/-! ### Runs -/

/-- The answers to the calls of a key come from its bucket alone. -/
lemma answers_filter (own : Option Bucket) {keys : Finset Text} (hkeys : keys.card ≤ 4096)
    (hk : k ∈ keys) {cs : List Call} (hclock : cs.Pairwise fun c d => c.now ≤ d.now)
    (hs : buckets.Sound)
    (hwithin : buckets.Within keys) (hcs : ∀ c ∈ cs, c.key ∈ keys)
    (hown : ∀ c ∈ cs, Agree c.now (buckets.lookup k) own) :
    ((buckets.answers cs).filter fun a => a.1.key = k) =
      ownAnswers own (cs.filter fun c => c.key = k) := by
  induction cs generalizing buckets own with
  | nil => rfl
  | cons c cs ih =>
    obtain ⟨hc, hclock⟩ := List.pairwise_cons.1 hclock
    have hs' : (buckets.call c).2.Sound := hs.check ..
    have hwithin' := hwithin.call (hcs c List.mem_cons_self)
    have hcs' : ∀ d ∈ cs, d.key ∈ keys := fun d hd => hcs d (List.mem_cons_of_mem _ hd)
    have hnow := hown c List.mem_cons_self
    rw [answers]
    by_cases hkey : c.key = k
    · subst hkey
      have hroom := hwithin.not_full hs hkeys hk c.now
      obtain ⟨hanswer, hleft⟩ := hs.call_self own hroom hnow
      rw [List.filter_cons_of_pos (by simp), List.filter_cons_of_pos (by simp), ownAnswers,
        ← hanswer, ← ih _ hclock hs' hwithin' hcs' fun d _ => by rw [Agree, hleft]]
    · rw [List.filter_cons_of_neg (by simpa using hkey),
        List.filter_cons_of_neg (by simpa using hkey)]
      refine ih own hclock hs' hwithin' hcs' fun d hd => ?_
      rw [hs.call_of_ne (Ne.symm hkey)]
      exact (hown d (List.mem_cons_of_mem _ hd)).purged (hc d hd)

end RateLimiter

open RateLimiter

/-- Other keys never change the answers to the calls of a key as long as all keys have room; keys
of different clients or scopes differ; and without room for all, the table stays bounded and a
young bucket is all that the answer to its key depends on. -/
theorem rate_limit_isolation :
    (∀ cs : List Call, (cs.Pairwise fun c d => c.now ≤ d.now) →
      (cs.map Call.key).dedup.length ≤ 4096 → ∀ k,
        ((answers [] cs).filter fun a => a.1.key = k) =
          answers [] (cs.filter fun c => c.key = k)) ∧
    (∀ p q s t : Text, ':' ∉ s → ':' ∉ t → bucketKey p s = bucketKey q t → p = q ∧ s = t) ∧
    ∀ cs : List Call, (calls [] cs).length ≤ 4096 ∧
      ∀ (c : Call) (b : Bucket), (calls [] cs).lookup c.key = some b → c.now - b.started < hour →
        (call (calls [] cs) c).1 = (call [(c.key, b)] c).1 ∧
          (call (calls [] cs) c).2.lookup c.key = (call [(c.key, b)] c).2.lookup c.key := by
  refine ⟨fun cs hclock hkeys k => ?_, fun p q s t => bucketKey_injective, fun cs => ?_⟩
  · by_cases hk : k ∈ cs.map Call.key
    · have hcard : (cs.map Call.key).toFinset.card ≤ 4096 := hkeys
      have hmem : ∀ c ∈ cs, c.key ∈ (cs.map Call.key).toFinset :=
        fun c hc => List.mem_toFinset.2 (List.mem_map_of_mem hc)
      have hall := answers_filter none hcard (List.mem_toFinset.2 hk) hclock Sound.empty
        (fun _ h => by cases h) hmem fun _ _ => rfl
      have hown := answers_filter none hcard (List.mem_toFinset.2 hk)
        (hclock.filter fun c => c.key = k) Sound.empty (fun _ h => by cases h)
        (fun c hc => hmem c (List.mem_of_mem_filter hc)) fun _ _ => rfl
      rw [List.filter_filter] at hown
      simp only [Bool.and_self] at hown
      rw [hall, ← hown, List.filter_eq_self]
      intro a ha
      simpa using (List.mem_filter.1 (mem_of_answers ha)).2
    · have hnone : ∀ c ∈ cs, c.key ≠ k := by
        rintro c hc rfl
        exact hk (List.mem_map_of_mem hc)
      have hcalls : cs.filter (fun c => c.key = k) = [] := by
        rw [List.filter_eq_nil_iff]
        exact fun c hc => by simpa using hnone c hc
      rw [hcalls]
      refine List.filter_eq_nil_iff.2 fun a ha => ?_
      simpa using hnone a.1 (mem_of_answers ha)
  · have hs : (calls [] cs).Sound := Sound.empty.calls cs
    refine ⟨hs.room, fun c b hb hyoung => ?_⟩
    have hone : Sound [(c.key, b)] := ⟨List.nodup_singleton _, by simp⟩
    have hmany := hs.call_young hb hyoung
    have halone := hone.call_young (by simp) hyoung
    exact ⟨hmany.1.trans halone.1.symm, hmany.2.trans halone.2.symm⟩

theorem rate_limit_isolation_two :
    let ada : Call := ⟨0, "192.0.2.7:graphql".toList, 1, 60⟩
    let bob : Call := ⟨5, "2001:db8::1:graphql".toList, 1, 60⟩
    ((answers [] [ada, bob, { ada with now := 9 }]).filter fun a => a.1.key = ada.key) =
        answers [] [ada, { ada with now := 9 }] ∧
      (call (calls [] [ada, bob]) ada).1 = (call [(ada.key, ⟨0, 1⟩)] ada).1 := by
  refine ⟨?_, ?_⟩
  · exact rate_limit_isolation.1 _ (by decide) (by decide) _
  · exact ((rate_limit_isolation.2.2 _).2 _ _ (by decide) (by decide)).1

end TittyBackend
