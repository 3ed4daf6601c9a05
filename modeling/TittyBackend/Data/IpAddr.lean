import TittyBackend.Lib.Numeral
import Mathlib.Data.Vector.Basic

/-!
# IP addresses and their texts

`IpAddr` of the standard library, by which the service tells its clients apart: what its `FromStr`
reads and what its `Display` prints.
-/

namespace TittyBackend

open Numerals

structure Ipv4Addr where
  a : UInt8
  b : UInt8
  c : UInt8
  d : UInt8
  deriving DecidableEq

/-- The eight segments, the first one first. -/
abbrev Ipv6Addr := List.Vector UInt16 8

inductive IpAddr where
  | v4 (address : Ipv4Addr)
  | v6 (address : Ipv6Addr)
  deriving DecidableEq

namespace IpAddr

/-! ### Reading -/

/-- `read_given_char` -/
def readGiven (c : Char) : Text → Option Text
  | x :: s => if x = c then some s else none
  | [] => none

def readOctet (s : Text) : Option (UInt8 × Text) :=
  (decimal.scan 3 false s).bind fun x => if x.1 < 256 then some (.ofNat x.1, x.2) else none

/-- `read_ipv4_addr` -/
def readIpv4 (s : Text) : Option (Ipv4Addr × Text) := do
  let (a, s) ← readOctet s
  let s ← readGiven '.' s
  let (b, s) ← readOctet s
  let s ← readGiven '.' s
  let (c, s) ← readOctet s
  let s ← readGiven '.' s
  let (d, s) ← readOctet s
  return (⟨a, b, c, d⟩, s)

def readGroup (s : Text) : Option (UInt16 × Text) :=
  (hex.scan 4 true s).map fun x => (.ofNat x.1, x.2)

/-- `u16::from_be_bytes` of the two halves of an IPv4 address. -/
def groups (a : Ipv4Addr) : List UInt16 :=
  [.ofNat (a.a.toNat * 256 + a.b.toNat), .ofNat (a.c.toNat * 256 + a.d.toNat)]

/-- `read_groups` with `n` groups to go: the groups, whether an IPv4 address ends them, and the
rest of the text. All but the first are behind a colon. -/
def readGroups : (first : Bool) → ℕ → Text → List UInt16 × Bool × Text
  | _, 0, s => ([], false, s)
  | first, n + 1, s =>
    let behind := if first then some s else readGiven ':' s
    match if n = 0 then none else behind.bind readIpv4 with
    | some (a, s) => (groups a, true, s)
    | none =>
      match behind.bind readGroup with
      | some (g, s) =>
        let r := readGroups false n s
        (g :: r.1, r.2)
      | none => ([], false, s)

/-- `head` from the first segment on, `tail` up to the last, and zeros between them. -/
def arrange (head tail : List UInt16) : Ipv6Addr :=
  .ofFn fun i => if i < 8 - tail.length then head.getD i 0 else tail.getD (i - (8 - tail.length)) 0

/-- `read_ipv6_addr` -/
def readIpv6 (s : Text) : Option (Ipv6Addr × Text) :=
  let (head, headIpv4, s) := readGroups true 8 s
  if head.length = 8 then some (arrange head [], s)
  else if headIpv4 then none
  else do
    let s ← readGiven ':' s
    let s ← readGiven ':' s
    let (tail, _, s) := readGroups true (8 - (head.length + 1)) s
    return (arrange head tail, s)

/-- `read_ip_addr` -/
def readIpAddr (s : Text) : Option (IpAddr × Text) :=
  ((readIpv4 s).map fun x => (v4 x.1, x.2)).or ((readIpv6 s).map fun x => (v6 x.1, x.2))

/-- `IpAddr`'s `FromStr`, which reads the whole text. -/
def parse (s : Text) : Option IpAddr :=
  (readIpAddr s).bind fun x => if x.2 = [] then some x.1 else none

/-! ### Printing -/

def ipv4Text (a : Ipv4Addr) : Text :=
  decimal.numeral a.a.toNat ++ '.' :: (decimal.numeral a.b.toNat ++ '.' ::
    (decimal.numeral a.c.toNat ++ '.' :: decimal.numeral a.d.toNat))

/-- A run of zeros among the segments. -/
structure Span where
  start : ℕ
  len : ℕ

/-- The loop that looks for the first of the longest runs, from segment `i` on. -/
def longestFrom : ℕ → (longest current : Span) → List UInt16 → Span
  | _, longest, _, [] => longest
  | i, longest, current, g :: gs =>
    if g = 0 then
      let current := ⟨if current.len = 0 then i else current.start, current.len + 1⟩
      longestFrom (i + 1) (if longest.len < current.len then current else longest) current gs
    else longestFrom (i + 1) longest ⟨0, 0⟩ gs

/-- Groups, each behind a colon. -/
def tailText (gs : List UInt16) : Text := gs.flatMap fun g => ':' :: hex.numeral g.toNat

/-- `fmt_subslice` -/
def groupsText : List UInt16 → Text
  | [] => []
  | g :: gs => hex.numeral g.toNat ++ tailText gs

/-- `to_ipv4_mapped` -/
def toIpv4Mapped (a : Ipv6Addr) : Option Ipv4Addr :=
  if a.toList.take 6 = [0, 0, 0, 0, 0, 0xffff] then
    let g := (a.get 6).toNat
    let h := (a.get 7).toNat
    some ⟨.ofNat (g / 256), .ofNat (g % 256), .ofNat (h / 256), .ofNat (h % 256)⟩
  else none

def ipv6Text (a : Ipv6Addr) : Text :=
  match toIpv4Mapped a with
  | some b => "::ffff:".toList ++ ipv4Text b
  | none =>
    let zeroes := longestFrom 0 ⟨0, 0⟩ ⟨0, 0⟩ a.toList
    if 1 < zeroes.len then
      groupsText (a.toList.take zeroes.start) ++ "::".toList ++
        groupsText (a.toList.drop (zeroes.start + zeroes.len))
    else groupsText a.toList

/-- `IpAddr`'s `Display` -/
def toText : IpAddr → Text
  | v4 a => ipv4Text a
  | v6 a => ipv6Text a

/-! ### Reading what is printed -/

/-- A text that no number goes on in: it is at its end, or a colon or a dot follows. -/
def Stops (s : Text) : Prop := ∀ c, s.head? = some c → c = ':' ∨ c = '.'

lemma stops_nil : Stops [] := by
  rintro c ⟨⟩

lemma stops_colon (s : Text) : Stops (':' :: s) := fun _ h => .inl (Option.some.inj h).symm

lemma stops_dot (s : Text) : Stops ('.' :: s) := fun _ h => .inr (Option.some.inj h).symm

variable {s : Text}

lemma Stops.head {b : ℕ} {A : Alphabet b} (h : Stops s) (hcolon : A.isDigit ':' = false)
    (hdot : A.isDigit '.' = false) : s.head?.any A.isDigit = false := by
  cases s with
  | nil => rfl
  | cons c s =>
    show A.isDigit c = false
    rcases h c rfl with rfl | rfl
    · exact hcolon
    · exact hdot

lemma Stops.decimal (h : Stops s) : s.head?.any decimal.isDigit = false :=
  h.head (by decide) (by decide)

lemma Stops.hex (h : Stops s) : s.head?.any hex.isDigit = false := h.head (by decide) (by decide)

lemma readOctet_numeral (a : UInt8) (hs : Stops s) :
    readOctet (decimal.numeral a.toNat ++ s) = some (a, s) := by
  have ha : a.toNat < 256 := a.toNat_lt
  rw [readOctet, Alphabet.scan_numeral (by decide) (by decide) (ha.trans (by decide)) _ hs.decimal,
    Option.bind_some, if_pos ha, UInt8.ofNat_toNat]

lemma readIpv4_ipv4Text (a : Ipv4Addr) (hs : Stops s) :
    readIpv4 (ipv4Text a ++ s) = some (a, s) := by
  simp only [readIpv4, ipv4Text, List.append_assoc, List.cons_append,
    readOctet_numeral _ (stops_dot _), readOctet_numeral _ hs, bind, Option.bind_some, readGiven,
    if_true, pure]

lemma readGroup_numeral (g : UInt16) (hs : Stops s) :
    readGroup (hex.numeral g.toNat ++ s) = some (g, s) := by
  have hg : g.toNat < 16 ^ 4 := g.toNat_lt
  rw [readGroup, Alphabet.scan_numeral (by decide) (by decide) hg _ hs.hex, Option.map_some,
    UInt16.ofNat_toNat]

lemma readGroup_eq_none (hs : Stops s) : readGroup s = none := by
  rw [readGroup, Alphabet.scan_eq_none _ hs.hex]
  rfl

/-- An IPv4 address has a dot behind its first digits. -/
lemma readIpv4_eq_none (h : (s.dropWhile decimal.isDigit).head? ≠ some '.') :
    readIpv4 s = none := by
  rw [readIpv4, readOctet, Alphabet.scan]
  split_ifs
  · rfl
  · rfl
  · cases decimal.read (s.takeWhile decimal.isDigit) with
    | none => rfl
    | some n =>
      simp only [Option.map_some, Option.bind_some]
      split_ifs
      · have hgiven : readGiven '.' (s.dropWhile decimal.isDigit) = none := by
          cases hs : s.dropWhile decimal.isDigit with
          | nil => rfl
          | cons c s => exact if_neg fun hc => h (by rw [hs, hc]; rfl)
        simp only [bind, Option.bind_some, hgiven, Option.bind_none]
      · rfl

lemma readIpv4_colon (s : Text) : readIpv4 (':' :: s) = none :=
  readIpv4_eq_none (by rw [List.dropWhile_cons_of_neg (by decide)]; simp)

/-- A text in which a colon or the end follows its first hexadecimal digits. -/
lemma readIpv4_numeral (n : ℕ) (hs : s = [] ∨ ∃ t, s = ':' :: t) :
    readIpv4 (hex.numeral n ++ s) = none := by
  refine readIpv4_eq_none fun h => ?_
  have hstop : s.dropWhile decimal.isDigit = s := by
    rcases hs with rfl | ⟨t, rfl⟩
    · rfl
    · exact List.dropWhile_cons_of_neg (by decide)
  rw [List.dropWhile_append] at h
  split at h
  · rw [hstop] at h
    rcases hs with rfl | ⟨t, rfl⟩ <;> simp at h
  · cases hd : (hex.numeral n).dropWhile decimal.isDigit with
    | nil => simp_all
    | cons c cs =>
      rw [hd] at h
      have hc : c ∈ hex.numeral n :=
        (List.dropWhile_suffix _).subset (hd ▸ List.mem_cons_self)
      have hdigit := Alphabet.isDigit_write (by decide) hc
      rw [Option.some.inj h] at hdigit
      exact absurd hdigit (by decide)

/-! ### Groups -/

/-- A colon or the end of the text. -/
def Closes (s : Text) : Prop := s = [] ∨ ∃ t, s = ':' :: t

lemma Closes.stops (h : Closes s) : Stops s := by
  rcases h with rfl | ⟨t, rfl⟩
  · exact stops_nil
  · exact stops_colon t

lemma closes_tailText (gs : List UInt16) (h : Closes s) : Closes (tailText gs ++ s) := by
  cases gs with
  | nil => exact h
  | cons g gs => exact .inr ⟨_, rfl⟩

/-- Groups behind colons are read up to where the reading of the rest begins. -/
lemma readGroups_tailText (gs : List UInt16) (n : ℕ) (hs : Closes s) :
    readGroups false (gs.length + n) (tailText gs ++ s) =
      (gs ++ (readGroups false n s).1, (readGroups false n s).2) := by
  induction gs with
  | nil => rw [List.length_nil, Nat.zero_add]; rfl
  | cons g gs ih =>
    have hclose := closes_tailText gs hs
    have htext : tailText (g :: gs) ++ s = ':' :: (hex.numeral g.toNat ++ (tailText gs ++ s)) := by
      simp [tailText]
    rw [htext, List.length_cons, Nat.add_right_comm, readGroups]
    simp only [Bool.false_eq_true, if_false, readGiven, if_true, Option.bind_some,
      readIpv4_numeral _ hclose, readGroup_numeral _ hclose.stops, ite_self, ih, List.cons_append]

lemma readGroups_groupsText {gs : List UInt16} (hgs : gs ≠ []) (n : ℕ) (hs : Closes s) :
    readGroups true (gs.length + n) (groupsText gs ++ s) =
      (gs ++ (readGroups false n s).1, (readGroups false n s).2) := by
  cases gs with
  | nil => exact absurd rfl hgs
  | cons g gs =>
    have hclose := closes_tailText gs hs
    rw [groupsText, List.append_assoc, List.length_cons, Nat.add_right_comm, readGroups]
    simp only [if_true, Option.bind_some, readIpv4_numeral _ hclose,
      readGroup_numeral _ hclose.stops, ite_self, readGroups_tailText gs n hs, List.cons_append]

/-- The reading of groups stops at the end of the text. -/
lemma readGroups_nil (first : Bool) (n : ℕ) : readGroups first n [] = ([], false, []) := by
  cases n with
  | zero => rfl
  | succ n => cases first <;> cases n <;> rfl

/-- It stops at a double colon. -/
lemma readGroups_colons (first : Bool) (n : ℕ) (t : Text) :
    readGroups first n (':' :: ':' :: t) = ([], false, ':' :: ':' :: t) := by
  cases n with
  | zero => rfl
  | succ n =>
    have hgroup := readGroup_eq_none (stops_colon t)
    have hgroup' := readGroup_eq_none (stops_colon (':' :: t))
    rw [readGroups]
    cases first <;>
      simp only [Bool.false_eq_true, if_false, if_true, readGiven, Option.bind_some,
        readIpv4_colon, hgroup, hgroup', ite_self]

lemma readGroups_all (gs : List UInt16) (n : ℕ) :
    readGroups true (gs.length + n) (groupsText gs) = (gs, false, []) := by
  rcases eq_or_ne gs [] with rfl | hgs
  · exact readGroups_nil ..
  · have h := readGroups_groupsText hgs n (.inl rfl)
    rw [List.append_nil, readGroups_nil, List.append_nil] at h
    exact h

lemma readGroups_head (gs : List UInt16) (n : ℕ) (t : Text) :
    readGroups true (gs.length + n) (groupsText gs ++ ':' :: ':' :: t) =
      (gs, false, ':' :: ':' :: t) := by
  rcases eq_or_ne gs [] with rfl | hgs
  · exact readGroups_colons ..
  · rw [readGroups_groupsText hgs n (.inr ⟨_, rfl⟩), readGroups_colons, List.append_nil]

lemma arrange_eq {head tail : List UInt16} {a : Ipv6Addr} {k : ℕ}
    (h : a.toList = head ++ List.replicate k 0 ++ tail) : arrange head tail = a := by
  have hlen : head.length + (k + tail.length) = 8 := by
    simpa using (congrArg List.length h).symm.trans a.toList_length
  refine List.Vector.toList_injective ?_
  rw [h]
  refine List.ext_getElem (by simp [hlen]) fun i hi hi' => ?_
  simp only [arrange, List.Vector.toList_ofFn, List.getElem_ofFn]
  grind

/-! ### The longest run of zeros -/

/-- The segments of the span are zeros. -/
structure Span.Zeros (x : Span) (segments : List UInt16) : Prop where
  bound : x.start + x.len ≤ segments.length
  zero : ∀ i, x.start ≤ i → i < x.start + x.len → segments[i]? = some 0

lemma Span.zeros_empty (segments : List UInt16) : Zeros ⟨0, 0⟩ segments :=
  ⟨Nat.zero_le _, fun _ _ h => absurd h (Nat.not_lt_zero _)⟩

/-- The loop has looked at the first `i` segments; its current run ends there. -/
lemma zeros_longestFrom {segments rest : List UInt16} {i : ℕ} {longest current : Span}
    (hrest : segments.drop i = rest) (hl : longest.Zeros segments)
    (hc : current.Zeros segments) (hend : current.len ≠ 0 → current.start + current.len = i) :
    (longestFrom i longest current rest).Zeros segments := by
  induction rest generalizing i longest current with
  | nil => exact hl
  | cons g rest ih =>
    have hi : segments[i]? = some g := by
      rw [← List.head?_drop, hrest]
      rfl
    have hlt : i < segments.length := (List.getElem?_eq_some_iff.mp hi).1
    have hdrop : segments.drop (i + 1) = rest := by
      rw [← List.tail_drop, hrest]
      rfl
    rw [longestFrom]
    by_cases hg : g = 0
    · -- the run goes on, or begins here
      subst hg
      rw [if_pos rfl]
      have hnew : Span.Zeros ⟨if current.len = 0 then i else current.start, current.len + 1⟩
          segments := by
        constructor
        · dsimp only
          split_ifs <;> omega
        · intro j hj hj'
          dsimp only at hj hj'
          rcases eq_or_ne j i with rfl | hne
          · exact hi
          · split_ifs at hj hj'
            · omega
            · exact hc.zero j hj (by omega)
      refine ih hdrop ?_ hnew fun _ => ?_
      · by_cases hlonger : longest.len < current.len + 1
        · exact (if_pos hlonger).symm ▸ hnew
        · exact (if_neg hlonger).symm ▸ hl
      · dsimp only
        split_ifs <;> omega
    · rw [if_neg hg]
      exact ih hdrop hl (Span.zeros_empty _) fun h => absurd rfl h

/-- The segments around a run of zeros. -/
lemma Span.Zeros.split {x : Span} {segments : List UInt16} (h : x.Zeros segments) :
    segments = segments.take x.start ++ List.replicate x.len 0 ++
      segments.drop (x.start + x.len) := by
  refine List.ext_getElem? fun i => ?_
  have hlen : (segments.take x.start).length = x.start := by
    rw [List.length_take]
    have := h.bound
    omega
  rcases lt_or_ge i x.start with hi | hi
  · rw [List.append_assoc, List.getElem?_append_left (by omega), List.getElem?_take_of_lt hi]
  · rcases lt_or_ge i (x.start + x.len) with hi' | hi'
    · rw [h.zero i hi hi', List.append_assoc, List.getElem?_append_right (by omega), hlen,
        List.getElem?_append_left (by simp; omega), List.getElem?_replicate_of_lt (by omega)]
    · rw [List.getElem?_append_right (by simp; omega), List.getElem?_drop]
      congr 1
      simp [hlen]
      omega

/-! ### The round trip -/

lemma readIpv6_split {head tail : List UInt16} {a : Ipv6Addr} {k : ℕ} (hk : 0 < k)
    (h : a.toList = head ++ List.replicate k 0 ++ tail) :
    readIpv6 (groupsText head ++ "::".toList ++ groupsText tail) = some (a, []) := by
  have hlen : head.length + (k + tail.length) = 8 := by
    simpa using (congrArg List.length h).symm.trans a.toList_length
  have htext : groupsText head ++ "::".toList ++ groupsText tail =
      groupsText head ++ ':' :: ':' :: groupsText tail := by simp
  have hhead := readGroups_head head (8 - head.length) (groupsText tail)
  have htail := readGroups_all tail (8 - (head.length + 1) - tail.length)
  rw [Nat.add_sub_cancel' (by omega)] at hhead htail
  have hne : head.length ≠ 8 := by omega
  simp only [readIpv6, htext, hhead, hne, if_false, Bool.false_eq_true, readGiven, if_true, bind,
    Option.bind_some, htail, pure, arrange_eq h]

/-- An address that is an IPv4 address in the place of its last two segments. -/
lemma toList_of_mapped {a : Ipv6Addr} {b : Ipv4Addr} (h : toIpv4Mapped a = some b) :
    a.toList = List.replicate 5 0 ++ 0xffff :: groups b := by
  rw [toIpv4Mapped] at h
  split_ifs at h with htake
  obtain rfl := Option.some.inj h
  obtain ⟨l, hl⟩ := a
  match l, hl, htake with
  | [s₀, s₁, s₂, s₃, s₄, s₅, g, k], _, htake =>
    have hbytes (x : UInt16) : UInt16.ofNat ((UInt8.ofNat (x.toNat / 256)).toNat * 256 +
        (UInt8.ofNat (x.toNat % 256)).toNat) = x := by
      have hx : x.toNat < 65536 := x.toNat_lt
      have hhigh : (UInt8.ofNat (x.toNat / 256)).toNat = x.toNat / 256 :=
        UInt8.toNat_ofNat'.trans (Nat.mod_eq_of_lt (by omega))
      have hlow : (UInt8.ofNat (x.toNat % 256)).toNat = x.toNat % 256 :=
        UInt8.toNat_ofNat'.trans (Nat.mod_eq_of_lt (by omega))
      rw [hhigh, hlow, Nat.div_add_mod', UInt16.ofNat_toNat]
    show [s₀, s₁, s₂, s₃, s₄, s₅, g, k] = _
    have htake : [s₀, s₁, s₂, s₃, s₄, s₅] = [0, 0, 0, 0, 0, 0xffff] := htake
    simp only [List.cons.injEq, and_true] at htake
    obtain ⟨rfl, rfl, rfl, rfl, rfl, rfl⟩ := htake
    show _ = [0, 0, 0, 0, 0, 0xffff, _, _]
    simp only [List.cons.injEq, and_true, true_and]
    exact ⟨(hbytes g).symm, (hbytes k).symm⟩

/-- The groups of a mapped address, read up to its end. -/
lemma readGroups_mapped (b : Ipv4Addr) :
    readGroups true 7 ("ffff:".toList ++ ipv4Text b) = (0xffff :: groups b, true, []) := by
  have htext : "ffff:".toList ++ ipv4Text b =
      hex.numeral (0xffff : UInt16).toNat ++ ':' :: ipv4Text b := by
    rw [show hex.numeral (0xffff : UInt16).toNat = "ffff".toList by decide +kernel]
    rfl
  have hv4 : readIpv4 (ipv4Text b) = some (b, []) := by
    simpa using readIpv4_ipv4Text b stops_nil
  rw [htext, readGroups]
  simp only [if_true, Option.bind_some, readIpv4_numeral _ (.inr ⟨_, rfl⟩),
    readGroup_numeral _ (stops_colon _), ite_self]
  rw [readGroups]
  simp [readGiven, hv4]

lemma readIpv6_ipv6Text (a : Ipv6Addr) : readIpv6 (ipv6Text a) = some (a, []) := by
  rw [ipv6Text]
  cases hmapped : toIpv4Mapped a with
  | some b =>
    have harrange : arrange [] (0xffff :: groups b) = a :=
      arrange_eq (k := 5) (toList_of_mapped hmapped)
    have htext : "::ffff:".toList ++ ipv4Text b = ':' :: ':' :: ("ffff:".toList ++ ipv4Text b) :=
      rfl
    simp only [htext, readIpv6, readGroups_colons, List.length_nil, readGiven, if_true, bind,
      Option.bind_some, Nat.zero_add, Nat.reduceSub, readGroups_mapped, harrange, pure]
    rfl
  | none =>
    have hzero : (longestFrom 0 ⟨0, 0⟩ ⟨0, 0⟩ a.toList).Zeros a.toList :=
      zeros_longestFrom rfl (Span.zeros_empty _) (Span.zeros_empty _) fun h => absurd rfl h
    dsimp only
    split_ifs with hlong
    · exact readIpv6_split (by omega) hzero.split
    · have hall := readGroups_all a.toList 0
      rw [List.Vector.toList_length, Nat.add_zero] at hall
      have harrange : arrange a.toList [] = a := arrange_eq (k := 0) (by simp)
      simp only [readIpv6, hall, List.Vector.toList_length, if_true, harrange]

/-- No IPv4 address begins the text of an IPv6 address. -/
lemma readIpv4_groupsText (gs : List UInt16) (hs : Closes s) (h : gs = [] → s ≠ []) :
    readIpv4 (groupsText gs ++ s) = none := by
  cases gs with
  | nil =>
    rcases hs with rfl | ⟨t, rfl⟩
    · exact absurd rfl (h rfl)
    · exact readIpv4_colon t
  | cons g gs =>
    rw [groupsText, List.append_assoc]
    exact readIpv4_numeral _ (closes_tailText gs hs)

lemma readIpv4_ipv6Text (a : Ipv6Addr) : readIpv4 (ipv6Text a) = none := by
  rw [ipv6Text]
  cases toIpv4Mapped a with
  | some b => exact readIpv4_colon _
  | none =>
    dsimp only
    split_ifs
    · rw [List.append_assoc]
      exact readIpv4_groupsText _ (.inr ⟨_, rfl⟩) fun _ => List.cons_ne_nil _ _
    · rw [← List.append_nil (groupsText a.toList)]
      refine readIpv4_groupsText _ (.inl rfl) fun h => ?_
      have hlen := a.toList_length
      rw [h] at hlen
      cases hlen

/-- Every address is read back from its text. -/
theorem parse_toText (a : IpAddr) : parse a.toText = some a := by
  cases a with
  | v4 a =>
    have hread : readIpv4 (ipv4Text a) = some (a, []) := by
      simpa using readIpv4_ipv4Text a stops_nil
    rw [parse, readIpAddr, toText, hread]
    rfl
  | v6 a =>
    rw [parse, readIpAddr, toText, readIpv4_ipv6Text, readIpv6_ipv6Text]
    rfl

lemma toText_injective : Function.Injective toText := by
  intro a b h
  have hparse := congrArg parse h
  rw [parse_toText, parse_toText] at hparse
  exact Option.some.inj hparse

/-! ### The characters of a text -/

/-- A hexadecimal digit, a colon or a dot. -/
def isAddressChar (c : Char) : Bool := hex.isDigit c || c == ':' || c == '.'

lemma isAddressChar_hex {n : ℕ} {c : Char} (hc : c ∈ hex.numeral n) : isAddressChar c = true := by
  rw [isAddressChar, Alphabet.isDigit_write (by decide) hc]
  rfl

lemma isAddressChar_decimal {n : ℕ} {c : Char} (hc : c ∈ decimal.numeral n) :
    isAddressChar c = true := by
  have hdigit := Alphabet.isDigit_write (by decide) hc
  have hhex : hex.isDigit c = true := by
    simp only [Alphabet.isDigit, decimal, hex] at hdigit ⊢
    split_ifs at hdigit ⊢
    all_goals first | rfl | cases hdigit
  rw [isAddressChar, hhex]
  rfl

lemma isAddressChar_ipv4Text {a : Ipv4Addr} {c : Char} (hc : c ∈ ipv4Text a) :
    isAddressChar c = true := by
  simp only [ipv4Text, List.mem_append, List.mem_cons] at hc
  rcases hc with hc | rfl | hc | rfl | hc | rfl | hc
  all_goals first | exact isAddressChar_decimal hc | decide

lemma isAddressChar_groupsText {gs : List UInt16} {c : Char} (hc : c ∈ groupsText gs) :
    isAddressChar c = true := by
  cases gs with
  | nil => cases hc
  | cons g gs =>
    simp only [groupsText, tailText, List.mem_append, List.mem_flatMap, List.mem_cons] at hc
    rcases hc with hc | ⟨g', -, rfl | hc⟩
    · exact isAddressChar_hex hc
    · decide
    · exact isAddressChar_hex hc

lemma isAddressChar_toText {a : IpAddr} {c : Char} (hc : c ∈ a.toText) :
    isAddressChar c = true := by
  have hmarks : ∀ c ∈ "::ffff:".toList, isAddressChar c = true :=
    List.forall_iff_forall_mem.mp (by decide +kernel)
  have hcolons : ∀ c ∈ "::".toList, isAddressChar c = true :=
    List.forall_iff_forall_mem.mp (by decide +kernel)
  cases a with
  | v4 a => exact isAddressChar_ipv4Text hc
  | v6 a =>
    rw [toText, ipv6Text] at hc
    cases hmapped : toIpv4Mapped a with
    | some b =>
      rw [hmapped] at hc
      rcases List.mem_append.mp hc with hc | hc
      · exact hmarks c hc
      · exact isAddressChar_ipv4Text hc
    | none =>
      rw [hmapped] at hc
      dsimp only at hc
      split_ifs at hc
      · rcases List.mem_append.mp hc with hc | hc
        · rcases List.mem_append.mp hc with hc | hc
          · exact isAddressChar_groupsText hc
          · exact hcolons c hc
        · exact isAddressChar_groupsText hc
      · exact isAddressChar_groupsText hc

end IpAddr

end TittyBackend
