import TittyBackend.Isolation
import TittyBackend.Lib.FixedWindow
import Mathlib.Algebra.Order.BigOperators.Group.List

/-!
# Exactness of the rate limits

A key that is always checked against one limit and one window of at most an hour is limited as by
a fixed window: the purge takes away its bucket only when its window is over. A key without a
bucket that finds the table full is turned away and begins no window.
-/

namespace TittyBackend

open Numerals FixedWindow

namespace RateLimiter

/-! ### Histories -/

/-- The key of a call has a bucket, or there is room for one next to those of other keys. -/
def Served (buckets : RateLimiter) (c : Call) : Prop :=
  (buckets.lookup c.key).isSome ∨
    ((buckets.retained c.now).filter fun e => e.1 ≠ c.key).length < 4096

instance (buckets : RateLimiter) (c : Call) : Decidable (buckets.Served c) :=
  inferInstanceAs (Decidable (_ ∨ _))

/-- One more call on the buckets and on the served calls of `k` so far. -/
def record (k : Text) (s : RateLimiter × List (ℕ × Bool)) (c : Call) :
    RateLimiter × List (ℕ × Bool) :=
  ((s.1.call c).2,
    if c.key = k ∧ s.1.Served c then (c.now, (s.1.call c).1) :: s.2 else s.2)

/-- The instants of the served calls of `k` and their answers, latest first. -/
def history (k : Text) (cs : List Call) : List (ℕ × Bool) :=
  (cs.foldl (record k) ([], [])).2

variable {buckets : RateLimiter} {k : Text} {c : Call} {limit window now : ℕ}
  {h : List (ℕ × Bool)}

lemma calls_of_record (k : Text) (s : RateLimiter × List (ℕ × Bool)) (cs : List Call) :
    (cs.foldl (record k) s).1 = s.1.calls cs := by
  induction cs generalizing s with
  | nil => rfl
  | cons c cs ih => exact ih _

@[simp] lemma history_nil (k : Text) : history k [] = [] := rfl

lemma history_concat (k : Text) (cs : List Call) (c : Call) :
    history k (cs ++ [c]) =
      if c.key = k ∧ (calls [] cs).Served c then
        (c.now, ((calls [] cs).call c).1) :: history k cs
      else history k cs := by
  rw [history, List.foldl_append, List.foldl_cons, List.foldl_nil, record, calls_of_record]
  rfl

lemma Sound.served_iff (hs : buckets.Sound) (c : Call) :
    buckets.Served c ↔ ¬ buckets.Full c.now c.key := by
  rw [Served, Full, Option.isNone_iff_eq_none, not_and, not_le]
  have hself (hnone : (buckets.retained c.now).lookup c.key = none) :
      ((buckets.retained c.now).filter fun e => e.1 ≠ c.key) = buckets.retained c.now := by
    rw [List.filter_eq_self]
    intro e he
    have hnotMem := Keyed.lookup_eq_none.1 hnone
    simpa using fun heq : e.1 = c.key => hnotMem (heq ▸ List.mem_map_of_mem he)
  constructor
  · rintro (hsome | hroom) hnone
    · -- the bucket of the key is purged, and leaves room
      have hlt := length_filter_lt hsome
      have hsub : ((buckets.retained c.now).filter fun e => e.1 ≠ c.key).length ≤
          (buckets.filter fun e => e.1 ≠ c.key).length :=
        ((List.filter_sublist).filter _).length_le
      rw [hself hnone] at hsub
      have := hs.room
      omega
    · rwa [hself hnone] at hroom
  · intro hfull
    rcases Option.eq_none_or_eq_some ((buckets.retained c.now).lookup c.key) with hnone | ⟨b, hb⟩
    · right
      rw [hself hnone]
      exact hfull hnone
    · left
      rw [hs.lookup_retained] at hb
      rw [(Option.filter_eq_some_iff.1 hb).1]
      rfl

lemma Sound.rejected (hs : buckets.Sound) (h : ¬ buckets.Served c) :
    (buckets.call c).1 = false := by
  rw [hs.served_iff, not_not] at h
  rw [call, check_of_full h]

/-! ### The bucket as a window -/

/-- The bucket of a key whose served calls are `h`: its window and the calls accepted in it. -/
def bucketOf (window : ℕ) : List (ℕ × Bool) → Option Bucket
  | [] => none
  | (t, b) :: h =>
    let s := opened window t (h.map Prod.fst)
    some ⟨s, acceptedSince s ((t, b) :: h)⟩

/-- A call counts in the window it falls in, whether its bucket has been purged or not. -/
lemma current_bucketOf (hpos : 0 < window) (hhour : window ≤ hour)
    (hclock : (now :: h.map Prod.fst).Pairwise (· ≥ ·)) :
    current ((bucketOf window h).filter fun b => now - b.started < hour) now window =
      ⟨opened window now (h.map Prod.fst),
        acceptedSince (opened window now (h.map Prod.fst)) h⟩ := by
  cases h with
  | nil => simp [bucketOf, current]
  | cons e h =>
    obtain ⟨t, b⟩ := e
    obtain ⟨-, hsorted⟩ := List.pairwise_cons.1 hclock
    have hpast := lt_of_mem hpos hsorted
    rw [List.map_cons]
    rcases le_or_gt (opened window t (h.map Prod.fst) + window) now with hnew | hold
    · rw [opened_cons_of_le hnew, acceptedSince_eq_zero fun e he =>
        (hpast e.1 (List.mem_map_of_mem he)).trans_le hnew]
      by_cases hyoung : now - opened window t (h.map Prod.fst) < hour
      · rw [bucketOf, Option.filter_some_pos (by simpa using hyoung)]
        exact if_pos (by simp only [Option.getD_some]; omega)
      · rw [bucketOf, Option.filter_some_neg (by simpa using hyoung)]
        simp [current]
    · rw [opened_cons_of_lt hold, bucketOf, Option.filter_some_pos (by simp; omega)]
      exact if_neg (by simp only [Option.getD_some]; omega)

/-- The answer to a served call, and the bucket it leaves. -/
lemma answer_bucketOf (hpos : 0 < window) (hhour : window ≤ hour) (hlimit : limit < 2 ^ 32)
    (hclock : (now :: h.map Prod.fst).Pairwise (· ≥ ·)) {r : Bool × Bucket}
    (hr : r =
      answer ((bucketOf window h).filter fun b => now - b.started < hour) now limit window) :
    (r.1 = true ↔ acceptedSince (opened window now (h.map Prod.fst)) h < limit) ∧
      some r.2 = bucketOf window ((now, r.1) :: h) := by
  have hcurrent := current_bucketOf hpos hhour hclock
  have hle : opened window now (h.map Prod.fst) ≤ now := opened_le hclock
  rcases le_or_gt limit (acceptedSince (opened window now (h.map Prod.fst)) h) with hc | hc
  · rw [answer_of_le (by rw [hcurrent]; exact hc), hcurrent] at hr
    subst hr
    simp [bucketOf, acceptedSince_cons, not_lt.2 hc]
  · rw [answer_of_lt (by rw [hcurrent]; exact hc), hcurrent] at hr
    subst hr
    have hmax : min (acceptedSince (opened window now (h.map Prod.fst)) h + 1) (2 ^ 32 - 1) =
        acceptedSince (opened window now (h.map Prod.fst)) h + 1 := min_eq_left (by omega)
    simp only [hc, true_and, bucketOf, acceptedSince_cons, hmax]
    simp [hle]

/-! ### Runs of one key -/

/-- The bucket of `k` after calls up to `t`, whose served calls of `k` are `h`. -/
structure Follows (k : Text) (limit window t : ℕ) (buckets : RateLimiter) (h : List (ℕ × Bool)) :
    Prop where
  exact : Exact limit window h
  clock : (h.map Prod.fst).Pairwise (· ≥ ·)
  past : ∀ e ∈ h, e.1 ≤ t
  bucket : ∀ u, t ≤ u → Agree u (buckets.lookup k) (bucketOf window h)

lemma Follows.purged {t u : ℕ} {after : RateLimiter} (hf : Follows k limit window t buckets h)
    (htu : t ≤ u)
    (hafter : after.lookup k = (buckets.lookup k).filter fun b => u - b.started < hour) :
    Follows k limit window u after h where
  exact := hf.exact
  clock := hf.clock
  past e he := (hf.past e he).trans htu
  bucket v huv := by
    rw [hafter]
    exact (hf.bucket v (htu.trans huv)).purged huv

/-- A served call of the key is answered as its window says. -/
lemma Follows.served {t : ℕ} (hf : Follows c.key c.limit.toNat c.window t buckets h)
    (hs : buckets.Sound) (hpos : 0 < c.window) (hhour : c.window ≤ hour) (ht : t ≤ c.now)
    (hserved : buckets.Served c) :
    ((buckets.call c).1 = true ↔
      acceptedSince (opened c.window c.now (h.map Prod.fst)) h < c.limit.toNat) ∧
    Follows c.key c.limit.toNat c.window c.now (buckets.call c).2
      ((c.now, (buckets.call c).1) :: h) := by
  have hclock : (c.now :: h.map Prod.fst).Pairwise (· ≥ ·) := by
    refine List.pairwise_cons.2 ⟨fun u hu => ?_, hf.clock⟩
    obtain ⟨e, he, rfl⟩ := List.mem_map.1 hu
    exact (hf.past e he).trans ht
  obtain ⟨hanswer, hleft⟩ := hs.call_self _ ((hs.served_iff c).1 hserved) (hf.bucket c.now ht)
  obtain ⟨hexact, hbucket⟩ := answer_bucketOf hpos hhour c.limit.toNat_lt hclock rfl
  rw [← hanswer] at hexact hbucket
  refine ⟨hexact, ⟨⟨hexact, hf.exact⟩, hclock, fun e he => ?_, fun u _ => ?_⟩⟩
  · rcases List.mem_cons.1 he with rfl | he
    · exact le_rfl
    · exact (hf.past e he).trans ht
  · rw [hleft, hbucket]
    rfl

/-- Every run follows the fixed window of each key that keeps its limit and its window. -/
lemma follows_of_calls {limit : UInt32} {window : ℕ} (hpos : 0 < window) (hhour : window ≤ hour)
    {cs : List Call} (hclock : cs.Pairwise fun c d => c.now ≤ d.now)
    (hk : ∀ c ∈ cs, c.key = k → c.limit = limit ∧ c.window = window) {t : ℕ}
    (ht : ∀ c ∈ cs, c.now ≤ t) :
    Follows k limit.toNat window t (calls [] cs) (history k cs) := by
  induction cs using List.reverseRecOn generalizing t with
  | nil => exact ⟨trivial, .nil, fun _ he => (List.not_mem_nil he).elim, fun _ _ => rfl⟩
  | append_singleton cs c ih =>
    obtain ⟨hclock, -, hlast⟩ := List.pairwise_append.1 hclock
    have hnow : c.now ≤ t := ht c (by simp)
    have hf := ih hclock (fun d hd => hk d (by simp [hd])) fun d hd => hlast d hd c (by simp)
    have hs : (calls [] cs).Sound := Sound.empty.calls cs
    have hgoal :
        Follows k limit.toNat window c.now (calls [] (cs ++ [c])) (history k (cs ++ [c])) := by
      rw [history_concat, calls_append]
      by_cases hkey : c.key = k
      · obtain ⟨hl, hw⟩ := hk c (by simp) hkey
        by_cases hserved : (calls [] cs).Served c
        · rw [if_pos ⟨hkey, hserved⟩]
          subst hkey hl hw
          exact (hf.served hs hpos hhour le_rfl hserved).2
        · rw [if_neg fun h => hserved h.2]
          refine hf.purged le_rfl ?_
          rw [hs.served_iff, not_not] at hserved
          rw [← hs.lookup_retained, calls_cons, call, check_of_full hserved]
          rfl
      · rw [if_neg fun h => hkey h.1]
        exact hf.purged le_rfl (hs.call_of_ne (Ne.symm hkey))
    exact ⟨hgoal.exact, hgoal.clock, fun e he => (hgoal.past e he).trans hnow,
      fun u hu => hgoal.bucket u (hnow.trans hu)⟩

/-- The accepted calls of a key are all served. -/
lemma countP_answers (k : Text) (p : ℕ → Prop) [DecidablePred p] (cs : List Call) :
    ((answers [] cs).countP fun a => a.1.key = k ∧ a.2 ∧ p a.1.now) =
      (history k cs).countP fun e => e.2 ∧ p e.1 := by
  induction cs using List.reverseRecOn with
  | nil => rfl
  | append_singleton cs c ih =>
    rw [answers_append, List.countP_append, ih, history_concat, answers, answers]
    by_cases hkey : c.key = k
    · by_cases hserved : (calls [] cs).Served c
      · rw [if_pos ⟨hkey, hserved⟩, List.countP_cons, List.countP_cons, List.countP_nil]
        simp [hkey]
      · have hno := (Sound.empty.calls cs).rejected hserved
        rw [if_neg fun h => hserved h.2]
        simp [hno]
    · rw [if_neg fun h => hkey h.1]
      simp [hkey]

/-! ### Rejected calls -/

/-- Two tables that no call from `t` on can tell apart. -/
def Alike (t : ℕ) (b b' : RateLimiter) : Prop := (b.retained t).Perm (b'.retained t)

lemma retained_retained {t u : ℕ} (htu : t ≤ u) (b : RateLimiter) :
    (b.retained t).retained u = b.retained u := by
  rw [retained, retained, List.filter_filter]
  refine List.filter_congr fun e _ => ?_
  rw [Bool.eq_iff_iff]
  simp only [Bool.and_eq_true, decide_eq_true_eq, and_iff_left_iff_imp]
  omega

lemma Alike.mono {t u : ℕ} {b b' : RateLimiter} (h : Alike t b b') (htu : t ≤ u) :
    Alike u b b' := by
  rw [Alike, ← retained_retained htu b, ← retained_retained htu b']
  exact List.Perm.filter _ h

lemma Alike.call {b b' : RateLimiter} (h : Alike c.now b b') (hs : b.Sound) :
    (b.call c).1 = (b'.call c).1 ∧ (b.call c).2.Perm (b'.call c).2 := by
  have hlookup := Keyed.lookup_perm (k := c.key) (hs.retained c.now).unique h
  have hfull : b.Full c.now c.key ↔ b'.Full c.now c.key := by
    rw [Full, Full, hlookup, h.length_eq]
  by_cases hb : b.Full c.now c.key
  · rw [RateLimiter.call, RateLimiter.call, check_of_full hb, check_of_full (hfull.1 hb)]
    exact ⟨rfl, h⟩
  · rw [RateLimiter.call, RateLimiter.call, check_of_room hb, check_of_room (hb ∘ hfull.2), hlookup]
    exact ⟨rfl, (h.filter _).cons _⟩

lemma Alike.answers {b b' : RateLimiter} {cs : List Call} (h : ∀ c ∈ cs, Alike c.now b b')
    (hs : b.Sound) (hs' : b'.Sound) : b.answers cs = b'.answers cs := by
  induction cs generalizing b b' with
  | nil => rfl
  | cons c cs ih =>
    obtain ⟨hanswer, hperm⟩ := (h c List.mem_cons_self).call hs
    rw [RateLimiter.answers, RateLimiter.answers, hanswer]
    rw [ih (fun d _ => hperm.filter _) (hs.check ..) (hs'.check ..)]

/-- A bucket put back as it was. -/
lemma put_perm (hb : (buckets.map Prod.fst).Nodup) {b : Bucket} (h : (k, b) ∈ buckets) :
    (put buckets k b).Perm buckets := by
  have hb' : ((put buckets k b).map Prod.fst).Nodup := nodup_put hb b
  refine (List.perm_ext_iff_of_nodup (List.Nodup.of_map _ hb') (List.Nodup.of_map _ hb)).2 ?_
  rintro ⟨k', b'⟩
  rw [← Keyed.lookup_eq_some hb', ← Keyed.lookup_eq_some hb]
  by_cases hk : k' = k
  · subst hk
    rw [lookup_put_self, Keyed.lookup_of_mem hb h]
  · rw [lookup_put_of_ne _ _ hk]

/-- A rejected call leaves the table as it was, but for the purge. -/
lemma Sound.alike_of_rejected (hs : buckets.Sound) (hpos : 0 < c.limit.toNat)
    (hno : (buckets.call c).1 = false) : Alike c.now (buckets.call c).2 buckets := by
  by_cases hfull : buckets.Full c.now c.key
  · rw [RateLimiter.call, check_of_full hfull, Alike, retained_retained le_rfl]
  · rw [RateLimiter.call, check_of_room hfull] at hno ⊢
    have hle : c.limit.toNat ≤
        (current ((buckets.retained c.now).lookup c.key) c.now c.window).count := by
      by_contra hlt
      rw [answer_of_lt (not_le.1 hlt)] at hno
      cases hno
    rw [answer_of_le hle]
    -- the window has not been reset, or its count would be zero
    have hkept : (buckets.retained c.now).lookup c.key =
        some (current ((buckets.retained c.now).lookup c.key) c.now c.window) := by
      rw [current] at hle ⊢
      split_ifs at hle ⊢
      · exact absurd hle (not_le.2 hpos)
      · cases hown : (buckets.retained c.now).lookup c.key with
        | none =>
          rw [hown] at hle
          exact absurd hle (not_le.2 hpos)
        | some b => rfl
    have hput := put_perm (hs.retained c.now).unique (Keyed.mem_of_lookup hkept)
    have hgoal := hput.filter fun e => c.now - e.2.started < hour
    exact hgoal.trans (.of_eq (retained_retained le_rfl buckets))

/-- No call within a limit of zero is accepted. -/
lemma rejected_of_zero (hzero : c.limit.toNat = 0) : (buckets.call c).1 = false := by
  by_cases hfull : buckets.Full c.now c.key
  · rw [call, check_of_full hfull]
  · rw [call, check_of_room hfull, hzero, answer_of_le (Nat.zero_le _)]

lemma answers_of_zero {cs : List Call} (hk : ∀ c ∈ cs, c.key = k → c.limit.toNat = 0) :
    ((buckets.answers cs).filter fun a => a.1.key = k) =
      (cs.filter fun c => c.key = k).map fun c => (c, false) := by
  induction cs generalizing buckets with
  | nil => rfl
  | cons c cs ih =>
    have hcs : ∀ d ∈ cs, d.key = k → d.limit.toNat = 0 := fun d hd => hk d (by simp [hd])
    rw [answers]
    by_cases hkey : c.key = k
    · rw [List.filter_cons_of_pos (by simpa using hkey),
        List.filter_cons_of_pos (by simpa using hkey), ih hcs, List.map_cons,
        rejected_of_zero (hk c (by simp) hkey)]
    · rw [List.filter_cons_of_neg (by simpa using hkey),
        List.filter_cons_of_neg (by simpa using hkey), ih hcs]

/-! ### The counter -/

lemma count_answer_le {own : Option Bucket} (hown : ∀ b ∈ own, b.count ≤ limit) :
    (answer own now limit window).2.count ≤ limit := by
  have hcurrent : (current own now window).count ≤ limit := by
    rw [current]
    split_ifs
    · exact Nat.zero_le _
    · cases own with
      | none => exact Nat.zero_le _
      | some b => exact hown b rfl
  rcases le_or_gt limit (current own now window).count with hc | hc
  · rwa [answer_of_le hc]
  · rw [answer_of_lt hc]
    exact (min_le_left _ _).trans hc

lemma count_le_limit {limit : UInt32} {cs : List Call}
    (hk : ∀ c ∈ cs, c.key = k → c.limit = limit) :
    ∀ b, (calls [] cs).lookup k = some b → b.count ≤ limit.toNat := by
  induction cs using List.reverseRecOn with
  | nil => exact fun b hb => by cases hb
  | append_singleton cs c ih =>
    have hs : (calls [] cs).Sound := Sound.empty.calls cs
    have ih := ih fun d hd => hk d (by simp [hd])
    have hkept : ∀ b, ((calls [] cs).retained c.now).lookup k = some b → b.count ≤ limit.toNat := by
      intro b hb
      rw [hs.lookup_retained] at hb
      exact ih b (Option.filter_eq_some_iff.1 hb).1
    intro b hb
    rw [calls_append, calls_cons, call] at hb
    by_cases hfull : (calls [] cs).Full c.now c.key
    · rw [check_of_full hfull] at hb
      exact hkept b hb
    · rw [check_of_room hfull] at hb
      by_cases hkey : c.key = k
      · subst hkey
        rw [← hk c (by simp) rfl] at hkept ⊢
        cases (lookup_put_self _ _ _).symm.trans hb
        exact count_answer_le hkept
      · exact hkept b ((lookup_put_of_ne _ _ (Ne.symm hkey)).symm.trans hb)

end RateLimiter

open RateLimiter

/-- A key always called with one limit and one window of at most an hour is limited as by a fixed
window. -/
theorem rate_limit_exact {cs : List Call} {k : Text} {limit : UInt32} {window : ℕ}
    (hclock : cs.Pairwise fun c d => c.now ≤ d.now) (hpos : 0 < window) (hhour : window ≤ hour)
    (hk : ∀ c ∈ cs, c.key = k → c.limit = limit ∧ c.window = window) :
    (∀ pre c post, cs = pre ++ c :: post → c.key = k → (calls [] pre).Served c →
      ((call (calls [] pre) c).1 = true ↔
        ((answers [] pre).countP fun a => a.1.key = k ∧ a.2 ∧
          opened window c.now ((history k pre).map Prod.fst) ≤ a.1.now) < limit.toNat)) ∧
    (∀ t, ((answers [] cs).countP fun a => a.1.key = k ∧ a.2 ∧ t ≤ a.1.now ∧ a.1.now < t + window)
      ≤ 2 * limit.toNat) ∧
    (∀ pre c post, cs = pre ++ c :: post → c.key = k → (call (calls [] pre) c).1 = false →
      ((answers (calls [] (pre ++ [c])) post).filter fun a => a.1.key = k) =
        (answers (calls [] pre) post).filter fun a => a.1.key = k) ∧
    ∀ pre post, cs = pre ++ post → ∀ b, (calls [] pre).lookup k = some b →
      b.count = 2 ^ 32 - 1 → limit.toNat = 2 ^ 32 - 1 := by
  refine ⟨?_, fun t => ?_, ?_, ?_⟩
  · rintro pre c post rfl rfl hserved
    obtain ⟨hclock, -, hlast⟩ := List.pairwise_append.1 hclock
    have hf := follows_of_calls hpos hhour hclock (fun d hd => hk d (by simp [hd]))
      fun d hd => hlast d hd c List.mem_cons_self
    obtain ⟨rfl, rfl⟩ := hk c (by simp) rfl
    rw [countP_answers c.key
      (fun t => opened c.window c.now ((history c.key pre).map Prod.fst) ≤ t)]
    exact (hf.served (Sound.empty.calls pre) hpos hhour le_rfl hserved).1
  · have hf := follows_of_calls hpos hhour hclock hk (t := (cs.map Call.now).sum)
      fun c hc => List.le_sum_of_mem (List.mem_map_of_mem hc)
    rw [countP_answers k fun u => t ≤ u ∧ u < t + window]
    exact hf.exact.sliding hpos hf.clock t
  · rintro pre c post rfl hkey hno
    have hs : (calls [] pre).Sound := Sound.empty.calls pre
    obtain ⟨-, hclock, -⟩ := List.pairwise_append.1 hclock
    obtain ⟨hc, -⟩ := List.pairwise_cons.1 hclock
    rcases Nat.eq_zero_or_pos limit.toNat with hzero | hlimit
    · have hpost : ∀ d ∈ post, d.key = k → d.limit.toNat = 0 := fun d hd hdk => by
        rw [(hk d (by simp [hd]) hdk).1, hzero]
      rw [answers_of_zero hpost, answers_of_zero hpost]
    · rw [← (hk c (by simp) hkey).1] at hlimit
      have halike := hs.alike_of_rejected hlimit hno
      rw [calls_append]
      exact congrArg _ (Alike.answers (fun d hd => halike.mono (hc d hd)) (hs.check ..) hs)
  · rintro pre post rfl b hb hcount
    have hle := count_le_limit (fun c hc hkey => (hk c (by simp [hc]) hkey).1) b hb
    have := limit.toNat_lt
    omega

theorem rate_limit_exact_minute :
    let c : Call := ⟨0, "192.0.2.7:register".toList, 1, 60⟩
    (call (calls [] [c, { c with now := 59 }]) { c with now := 60 }).1 = true ∧
      (answers [] [c, { c with now := 59 }, { c with now := 60 }]).countP (fun a =>
        a.1.key = c.key ∧ a.2 ∧ 1 ≤ a.1.now ∧ a.1.now < 1 + 60) ≤ 2 * 1 := by
  intro c
  have hrun := @rate_limit_exact [c, { c with now := 59 }, { c with now := 60 }] c.key 1 60
    (by decide) (by decide) (by decide) (by decide)
  refine ⟨?_, hrun.2.1 1⟩
  exact (hrun.1 [c, { c with now := 59 }] { c with now := 60 } [] rfl rfl (by decide)).2 (by decide)

end TittyBackend
