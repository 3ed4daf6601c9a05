import TittyBackend.Lib.Digits
import TittyBackend.Lib.Keyed

/-!
# Rate limiter

One bucket for each key. A `std::time::Instant` is the number of nanoseconds since some start.
-/

namespace TittyBackend

open Numerals

structure Bucket where
  started : ℕ
  count : ℕ
  deriving DecidableEq

abbrev RateLimiter := List (Text × Bucket)

namespace RateLimiter

def hour : ℕ := 3600000000000

/-- `HashMap::insert`. -/
def put (buckets : RateLimiter) (key : Text) (bucket : Bucket) : RateLimiter :=
  (key, bucket) :: buckets.filter fun entry => entry.1 ≠ key

/-- `RateLimiter::check` at the instant `now`. -/
def check (buckets : RateLimiter) (now : ℕ) (key : Text) (limit window : ℕ) :
    Bool × RateLimiter :=
  let buckets := buckets.filter fun entry => now - entry.2.started < hour
  if (buckets.lookup key).isNone ∧ 4096 ≤ buckets.length then (false, buckets)
  else
    let bucket := (buckets.lookup key).getD ⟨now, 0⟩
    let bucket := if window ≤ now - bucket.started then ⟨now, 0⟩ else bucket
    if limit ≤ bucket.count then (false, put buckets key bucket)
    else (true, put buckets key { bucket with count := min (bucket.count + 1) (2 ^ 32 - 1) })

/-! ### One check -/

/-- What `retain` leaves at `now`. -/
def retained (buckets : RateLimiter) (now : ℕ) : RateLimiter :=
  buckets.filter fun entry => now - entry.2.started < hour

/-- The key has no bucket and there is no room for one. -/
def Full (buckets : RateLimiter) (now : ℕ) (key : Text) : Prop :=
  ((buckets.retained now).lookup key).isNone ∧ 4096 ≤ (buckets.retained now).length

/-- The bucket that a call counts in, from the retained bucket of its key. -/
def current (own : Option Bucket) (now window : ℕ) : Bucket :=
  let bucket := own.getD ⟨now, 0⟩
  if window ≤ now - bucket.started then ⟨now, 0⟩ else bucket

/-- What a check makes of the retained bucket of its key. -/
def answer (own : Option Bucket) (now limit window : ℕ) : Bool × Bucket :=
  let bucket := current own now window
  if limit ≤ bucket.count then (false, bucket)
  else (true, { bucket with count := min (bucket.count + 1) (2 ^ 32 - 1) })

lemma answer_of_le {own : Option Bucket} {now limit window : ℕ}
    (h : limit ≤ (current own now window).count) :
    answer own now limit window = (false, current own now window) := if_pos h

lemma answer_of_lt {own : Option Bucket} {now limit window : ℕ}
    (h : (current own now window).count < limit) :
    answer own now limit window = (true, { current own now window with
      count := min ((current own now window).count + 1) (2 ^ 32 - 1) }) := if_neg (not_le.2 h)

variable {buckets : RateLimiter} {now limit window : ℕ} {key k : Text}

lemma check_of_full (h : buckets.Full now key) :
    buckets.check now key limit window = (false, buckets.retained now) := if_pos h

lemma check_of_room (h : ¬ buckets.Full now key) :
    buckets.check now key limit window =
      ((answer ((buckets.retained now).lookup key) now limit window).1,
        put (buckets.retained now) key
          (answer ((buckets.retained now).lookup key) now limit window).2) := by
  refine (if_neg h).trans ?_
  rcases le_or_gt limit (current ((buckets.retained now).lookup key) now window).count with hc | hc
  · rw [answer_of_le hc]
    exact if_pos hc
  · rw [answer_of_lt hc]
    exact if_neg (not_le.2 hc)

@[simp] lemma lookup_put_self (buckets : RateLimiter) (key : Text) (b : Bucket) :
    (put buckets key b).lookup key = some b := by
  simp [put]

lemma lookup_put_of_ne (buckets : RateLimiter) (b : Bucket) (h : k ≠ key) :
    (put buckets key b).lookup k = buckets.lookup k := by
  rw [put, List.lookup_cons, beq_false_of_ne h]
  exact Keyed.lookup_filter_key (fun x => decide (x ≠ key)) (decide_eq_true h)

/-! ### The table -/

/-- One bucket for each key, and room for no more than 4096. -/
structure Sound (buckets : RateLimiter) : Prop where
  unique : (buckets.map Prod.fst).Nodup
  room : buckets.length ≤ 4096

lemma Sound.empty : Sound [] := ⟨.nil, Nat.zero_le _⟩

lemma Sound.lookup_retained (h : buckets.Sound) (now : ℕ) (k : Text) :
    (buckets.retained now).lookup k =
      (buckets.lookup k).filter fun b => now - b.started < hour :=
  Keyed.lookup_filter h.unique _

lemma Sound.retained (h : buckets.Sound) (now : ℕ) : (buckets.retained now).Sound :=
  ⟨Keyed.nodup_filter h.unique _, (List.length_filter_le _ _).trans h.room⟩

lemma nodup_put (h : (buckets.map Prod.fst).Nodup) (b : Bucket) :
    ((put buckets key b).map Prod.fst).Nodup := by
  rw [put, List.map_cons, List.nodup_cons]
  refine ⟨fun hk => ?_, Keyed.nodup_filter h _⟩
  obtain ⟨e, he, heq⟩ := List.mem_map.1 hk
  simpa [heq] using List.of_mem_filter he

/-- A bucket of the key makes room for its successor. -/
lemma length_filter_lt (h : (buckets.lookup key).isSome) :
    (buckets.filter fun e => e.1 ≠ key).length < buckets.length := by
  obtain ⟨e, he, rfl⟩ := List.mem_map.1 (Keyed.lookup_isSome.1 h)
  exact List.length_filter_lt_length_iff_exists.2 ⟨e, he, by simp⟩

lemma Sound.check (h : buckets.Sound) (now : ℕ) (key : Text) (limit window : ℕ) :
    (buckets.check now key limit window).2.Sound := by
  by_cases hfull : buckets.Full now key
  · rw [check_of_full hfull]
    exact h.retained now
  · rw [check_of_room hfull]
    refine ⟨nodup_put (h.retained now).unique _, ?_⟩
    rw [put, List.length_cons]
    rcases Option.eq_none_or_eq_some ((buckets.retained now).lookup key) with hnone | ⟨b, hsome⟩
    · have hroom : (buckets.retained now).length < 4096 :=
        not_le.1 fun hlong => hfull ⟨by rw [hnone]; rfl, hlong⟩
      exact (Nat.succ_le_succ (List.length_filter_le _ _)).trans hroom
    · have hlt := @length_filter_lt (buckets.retained now) key (by rw [hsome]; rfl)
      exact Nat.le_trans hlt (h.retained now).room

/-- A check leaves the buckets of every other key, up to the hourly purge. -/
lemma Sound.lookup_check_of_ne (h : buckets.Sound) (hk : k ≠ key) (now limit window : ℕ) :
    (buckets.check now key limit window).2.lookup k =
      (buckets.lookup k).filter fun b => now - b.started < hour := by
  rw [← h.lookup_retained]
  by_cases hfull : buckets.Full now key
  · rw [check_of_full hfull]
  · rw [check_of_room hfull, lookup_put_of_ne _ _ hk]

end RateLimiter

/-! ### Calls -/

/-- A call of `check` with the reading of the clock that it takes. -/
structure Call where
  now : ℕ
  key : Text
  limit : UInt32
  window : ℕ
  deriving DecidableEq

namespace RateLimiter

/-- The answer to a call, and the buckets after it. -/
def call (buckets : RateLimiter) (c : Call) : Bool × RateLimiter :=
  buckets.check c.now c.key c.limit.toNat c.window

/-- The buckets after calls. -/
def calls (buckets : RateLimiter) (cs : List Call) : RateLimiter :=
  cs.foldl (fun b c => (b.call c).2) buckets

/-- Calls with their answers. -/
def answers (buckets : RateLimiter) : List Call → List (Call × Bool)
  | [] => []
  | c :: cs => (c, (buckets.call c).1) :: answers (buckets.call c).2 cs

variable {buckets : RateLimiter}

@[simp] lemma calls_cons (buckets : RateLimiter) (c : Call) (cs : List Call) :
    buckets.calls (c :: cs) = (buckets.call c).2.calls cs := rfl

@[simp] lemma calls_append (buckets : RateLimiter) (cs ds : List Call) :
    buckets.calls (cs ++ ds) = (buckets.calls cs).calls ds := List.foldl_append

lemma answers_append (buckets : RateLimiter) (cs ds : List Call) :
    buckets.answers (cs ++ ds) = buckets.answers cs ++ (buckets.calls cs).answers ds := by
  induction cs generalizing buckets with
  | nil => rfl
  | cons c cs ih => simp [answers, ih]

lemma mem_of_answers {a : Call × Bool} {cs : List Call} (h : a ∈ buckets.answers cs) :
    a.1 ∈ cs := by
  induction cs generalizing buckets with
  | nil => cases h
  | cons c cs ih =>
    rcases List.mem_cons.1 h with rfl | h
    · exact List.mem_cons_self
    · exact List.mem_cons_of_mem _ (ih h)

lemma Sound.calls (h : buckets.Sound) (cs : List Call) : (buckets.calls cs).Sound := by
  induction cs generalizing buckets with
  | nil => exact h
  | cons c cs ih => exact ih (h.check ..)

end RateLimiter

end TittyBackend
