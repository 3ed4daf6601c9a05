import TittyBackend.Data.IpAddr
import TittyBackend.Gate

/-!
# Client keys

The service knows a client by the address that its proxy forwards, and by nothing else: however
the address is spelled, its requests are counted in one bucket of each limit and in one row of the
metrics, and no other address is counted there.
-/

namespace TittyBackend

open Numerals

/-- `normalize_ip` -/
def normaliseIp (value : Text) : Option Text := (IpAddr.parse (trim value)).map IpAddr.toText

/-- The address that the headers name, if they name one that can be read. -/
def forwarded (headers : HeaderMap) : Option IpAddr :=
  ((headers.get "x-forwarded-for".toList).bind HeaderValue.toStr
      |>.map fun value => value.takeWhile (· ≠ ','))
    |>.or ((headers.get "x-real-ip".toList).bind HeaderValue.toStr)
    |>.bind fun value => IpAddr.parse (trim value)

lemma requestSource_eq (headers : HeaderMap) : requestSource normaliseIp headers =
    ((forwarded headers).map IpAddr.toText).getD "unknown".toList := by
  rw [requestSource, forwarded]
  generalize (Option.or _ _ : Option Text) = value
  cases value <;> rfl

/-! ### Texts of addresses -/

lemma isAddressChar_iff (c : Char) : IpAddr.isAddressChar c = true ↔
    (48 ≤ c.toNat ∧ c.toNat ≤ 58) ∨ (97 ≤ c.toNat ∧ c.toNat ≤ 102) ∨
      (65 ≤ c.toNat ∧ c.toNat ≤ 70) ∨ c.toNat = 46 := by
  have hcolon : c = ':' ↔ c.toNat = 58 :=
    ⟨fun h => h ▸ rfl, fun h => Char.toNat_inj.mp (h.trans rfl)⟩
  have hdot : c = '.' ↔ c.toNat = 46 :=
    ⟨fun h => h ▸ rfl, fun h => Char.toNat_inj.mp (h.trans rfl)⟩
  simp only [IpAddr.isAddressChar, Alphabet.isDigit, hex, Bool.or_eq_true, beq_iff_eq, hcolon,
    hdot]
  split_ifs <;> simp <;> omega

/-- What an address is printed with passes through a header, a list and a trim. -/
lemma plain_of_isAddressChar {c : Char} (h : IpAddr.isAddressChar c = true) :
    c.toNat < 127 ∧ 32 ≤ c.toNat ∧ c ≠ ',' ∧ isWhitespace c = false := by
  rw [isAddressChar_iff] at h
  refine ⟨by omega, by omega, ?_, ?_⟩
  · rintro rfl
    exact absurd h (by decide)
  · simp only [isWhitespace, Bool.or_eq_false_iff, Bool.and_eq_false_iff, decide_eq_false_iff_not,
      beq_eq_false_iff_ne]
    omega

lemma trim_of_isWhitespace {s : Text} (h : ∀ c ∈ s, isWhitespace c = false) : trim s = s := by
  have hfirst : s.dropWhile isWhitespace = s := by
    cases s with
    | nil => rfl
    | cons c s => simp [h c (by simp)]
  rw [trim, hfirst, List.rdropWhile_eq_self_iff]
  intro hne
  rw [h _ (List.getLast_mem hne)]
  exact Bool.false_ne_true

/-- The bytes of a text of ASCII. -/
def headerValue (s : Text) : HeaderValue := s.map fun c => .ofNat c.toNat

lemma toStr_headerValue {s : Text} (h : ∀ c ∈ s, c.toNat < 127 ∧ 32 ≤ c.toNat) :
    HeaderValue.toStr (headerValue s) = some s := by
  have hbyte (c : Char) (hc : c ∈ s) : (UInt8.ofNat c.toNat).toNat = c.toNat := by
    have hlt := (h c hc).1
    rw [UInt8.toNat_ofNat', Nat.mod_eq_of_lt (by omega)]
  have hvisible : (headerValue s).all isVisible = true := by
    simp only [headerValue, List.all_map, List.all_eq_true, Function.comp_apply]
    intro c hc
    obtain ⟨hlt, hle⟩ := h c hc
    rw [isVisible, Bool.or_eq_true, Bool.and_eq_true, decide_eq_true_eq, decide_eq_true_eq,
      UInt8.le_iff_toNat_le, UInt8.lt_iff_toNat_lt, hbyte c hc]
    exact .inl ⟨hle, hlt⟩
  rw [HeaderValue.toStr, if_pos hvisible, headerValue, List.map_map, Option.some.injEq]
  refine (List.map_congr_left fun c hc => ?_).trans (List.map_id s)
  rw [Function.comp_apply, asciiChar, hbyte c hc]
  exact Char.ofNat_toNat c

/-! ### Keys -/

/-- The headers of a request that is passed on with what the service made of its source. -/
def relayed (headers : HeaderMap) : HeaderMap :=
  ("x-forwarded-for".toList, headerValue (requestSource normaliseIp headers)) :: headers

lemma toText_ne_unknown (a : IpAddr) : a.toText ≠ "unknown".toList := by
  intro h
  have hparse := IpAddr.parse_toText a
  rw [h] at hparse
  exact absurd hparse (by rw [show IpAddr.parse "unknown".toList = none by decide +kernel]; simp)

lemma requestSource_inj {headers headers' : HeaderMap} :
    requestSource normaliseIp headers = requestSource normaliseIp headers' ↔
      forwarded headers = forwarded headers' := by
  rw [requestSource_eq, requestSource_eq]
  cases forwarded headers with
  | none =>
    cases forwarded headers' with
    | none => simp
    | some b => simpa using (toText_ne_unknown b).symm
  | some a =>
    cases forwarded headers' with
    | none => simpa using toText_ne_unknown a
    | some b => simpa using IpAddr.toText_injective.eq_iff

lemma forwarded_relayed (headers : HeaderMap) :
    forwarded (relayed headers) = forwarded headers := by
  have hget : (relayed headers).get "x-forwarded-for".toList =
      some (headerValue (requestSource normaliseIp headers)) := List.lookup_cons_self
  have hplain : ∀ c ∈ requestSource normaliseIp headers,
      c.toNat < 127 ∧ 32 ≤ c.toNat ∧ c ≠ ',' ∧ isWhitespace c = false := by
    rw [requestSource_eq]
    cases forwarded headers with
    | none => exact List.forall_iff_forall_mem.mp (by decide +kernel)
    | some a => exact fun c hc => plain_of_isAddressChar (IpAddr.isAddressChar_toText hc)
  have hlist : (requestSource normaliseIp headers).takeWhile (· ≠ ',') =
      requestSource normaliseIp headers :=
    List.takeWhile_eq_self_iff.mpr fun c hc => decide_eq_true (hplain c hc).2.2.1
  rw [forwarded, hget, Option.bind_some,
    toStr_headerValue fun c hc => ⟨(hplain c hc).1, (hplain c hc).2.1⟩, Option.map_some, hlist]
  show IpAddr.parse (trim (requestSource normaliseIp headers)) = _
  rw [trim_of_isWhitespace fun c hc => (hplain c hc).2.2.2, requestSource_eq]
  cases forwarded headers with
  | none => decide +kernel
  | some a => exact IpAddr.parse_toText a

/-- Two requests share a bucket exactly when they come from one address, or both from none, and
fall under one limit; and a request keeps its source when it is passed on. -/
theorem client_key {s t : Text} (hs : ':' ∉ s) (ht : ':' ∉ t) (headers headers' : HeaderMap) :
    (bucketKey (requestSource normaliseIp headers) s =
        bucketKey (requestSource normaliseIp headers') t ↔
      forwarded headers = forwarded headers' ∧ s = t) ∧
    requestSource normaliseIp (relayed headers) = requestSource normaliseIp headers := by
  constructor
  · rw [← requestSource_inj]
    constructor
    · exact bucketKey_injective hs ht
    · rintro ⟨hsource, rfl⟩
      rw [hsource]
  · exact requestSource_inj.mpr (forwarded_relayed headers)

/-- Two spellings of one address. -/
theorem client_key_spelled :
    bucketKey (requestSource normaliseIp
        [("x-forwarded-for".toList, headerValue " 2001:0DB8:0:0::1, 10.0.0.1".toList)])
      "graphql".toList =
    bucketKey (requestSource normaliseIp
        [("x-real-ip".toList, headerValue "2001:db8::1".toList)])
      "graphql".toList :=
  (client_key (by decide) (by decide) _ _).1.mpr ⟨by decide +kernel, rfl⟩

end TittyBackend
