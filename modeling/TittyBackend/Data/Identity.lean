import TittyBackend.Lib.Digits
import Mathlib.Data.List.DropRight

/-!
# Names and account ids

`normalise_identitty` takes a name to the form it is stored under, and `from_public_key` derives
an account id from a key. The errors of the API are here because a name may be refused.
-/

namespace TittyBackend

open Numerals

inductive ApiError where
  | invalidIdentitty
  | identittyTaken
  | invalidRegistration
  | accountNotFound
  | invalidChallenge
  | authenticationFailed
  | unauthorized
  | rateLimited
  | invalidPayload
  | activeRequestLimit
  | invalidChatRequest
  | selfBlock
  | internal
  deriving DecidableEq, Repr

/-! ### Names -/

/-- The Unicode property `White_Space`, by which `str::trim` goes. -/
def isWhitespace (c : Char) : Bool :=
  let n := c.toNat
  (9 ≤ n && n ≤ 13) || n == 0x20 || n == 0x85 || n == 0xA0 || n == 0x1680 ||
    (0x2000 ≤ n && n ≤ 0x200A) || n == 0x2028 || n == 0x2029 || n == 0x202F || n == 0x205F ||
    n == 0x3000

def trim (s : Text) : Text := (s.dropWhile isWhitespace).rdropWhile isWhitespace

def toAsciiLowercase (s : Text) : Text := s.map Char.toLower

/-- The length in bytes, `str::len`. -/
def byteLength (s : Text) : ℕ := (s.map Char.utf8Size).sum

def isNameChar (c : Char) : Bool := c.isLower || c.isDigit || c == '_' || c == '-'

def normaliseIdentitty (value : Text) : Except ApiError Text :=
  let value := toAsciiLowercase (trim value)
  let length := byteLength value
  if ¬ (3 ≤ length ∧ length ≤ 32) then .error .invalidIdentitty
  else if ¬ value.head?.any Char.isLower then .error .invalidIdentitty
  else if ¬ value.all isNameChar then .error .invalidIdentitty
  else .ok value

lemma normaliseIdentitty_eq_ok {value name : Text} : normaliseIdentitty value = .ok name ↔
    toAsciiLowercase (trim value) = name ∧ (3 ≤ byteLength name ∧ byteLength name ≤ 32) ∧
      name.head?.any Char.isLower = true ∧ name.all isNameChar = true := by
  simp only [normaliseIdentitty]
  split_ifs with hlen hhead hall
  · simp only [Except.ok.injEq]
    refine ⟨fun h => ?_, fun h => h.1⟩
    subst h
    exact ⟨rfl, hlen, hhead, hall⟩
  all_goals simp only [false_iff]
  · rintro ⟨rfl, -, -, h⟩
    exact hall h
  · rintro ⟨rfl, -, h, -⟩
    exact hhead h
  · rintro ⟨rfl, h, -⟩
    exact hlen h

lemma normaliseIdentitty_error {value : Text} {e : ApiError}
    (h : normaliseIdentitty value = .error e) :
    e = .invalidIdentitty := by
  simp only [normaliseIdentitty] at h
  split_ifs at h
  all_goals exact (Except.error.inj h).symm

/-- A character of a name, by its code point. -/
lemma isNameChar_iff (c : Char) : isNameChar c = true ↔ (97 ≤ c.toNat ∧ c.toNat ≤ 122) ∨
    (48 ≤ c.toNat ∧ c.toNat ≤ 57) ∨ c.toNat = 95 ∨ c.toNat = 45 := by
  have hus : c = '_' ↔ c.toNat = 95 :=
    ⟨fun h => h ▸ rfl, fun h => Char.toNat_inj.mp (h.trans rfl)⟩
  have hhy : c = '-' ↔ c.toNat = 45 :=
    ⟨fun h => h ▸ rfl, fun h => Char.toNat_inj.mp (h.trans rfl)⟩
  have hlower : c.isLower = (decide (97 ≤ c.val) && decide (c.val ≤ 122)) := rfl
  simp only [isNameChar, Bool.or_eq_true, beq_iff_eq, hus, hhy, hlower, Char.isDigit,
    Bool.and_eq_true, decide_eq_true_eq, UInt32.le_iff_toNat_le, ge_iff_le, or_assoc]
  rfl

lemma isWhitespace_of_isNameChar {c : Char} (h : isNameChar c = true) : isWhitespace c = false := by
  rw [isNameChar_iff] at h
  simp only [isWhitespace, Bool.or_eq_false_iff, Bool.and_eq_false_iff, decide_eq_false_iff_not,
    beq_eq_false_iff_ne]
  omega

lemma toLower_of_isNameChar {c : Char} (h : isNameChar c = true) : c.toLower = c := by
  rw [isNameChar_iff] at h
  have hc : ¬ (65 ≤ c.toNat ∧ c.toNat ≤ 90) := by omega
  refine dif_neg ?_
  simpa [UInt32.le_iff_toNat_le] using hc

lemma trim_of_isNameChar {s : Text} (h : ∀ c ∈ s, isNameChar c = true) : trim s = s := by
  have hfirst : s.dropWhile isWhitespace = s := by
    cases s with
    | nil => rfl
    | cons c s => simp [isWhitespace_of_isNameChar (h c (by simp))]
  rw [trim, hfirst, List.rdropWhile_eq_self_iff]
  intro hs
  simp [isWhitespace_of_isNameChar (h _ (List.getLast_mem hs))]

lemma toAsciiLowercase_of_isNameChar {s : Text} (h : ∀ c ∈ s, isNameChar c = true) :
    toAsciiLowercase s = s := by
  rw [toAsciiLowercase, List.map_congr_left fun c hc => toLower_of_isNameChar (h c hc)]
  exact List.map_id' s

/-- A stored name is its own normal form. -/
theorem normaliseIdentitty_idem {value name : Text} (h : normaliseIdentitty value = .ok name) :
    normaliseIdentitty name = .ok name := by
  obtain ⟨-, hlen, hhead, hall⟩ := normaliseIdentitty_eq_ok.mp h
  have hname : ∀ c ∈ name, isNameChar c = true := List.all_eq_true.mp hall
  refine normaliseIdentitty_eq_ok.mpr ⟨?_, hlen, hhead, hall⟩
  rw [trim_of_isNameChar hname, toAsciiLowercase_of_isNameChar hname]

/-- SQLite's collation `NOCASE`: equal up to the case of ASCII letters. -/
def nocase (s t : Text) : Prop := toAsciiLowercase s = toAsciiLowercase t

instance (s t : Text) : Decidable (nocase s t) := inferInstanceAs (Decidable (_ = _))

/-! ### The grammar -/

lemma toNat_toLower (c : Char) : c.toLower.toNat =
    if 65 ≤ c.toNat ∧ c.toNat ≤ 90 then c.toNat + 32 else c.toNat := by
  have hupper : (c.val ≥ 'A'.val ∧ c.val ≤ 'Z'.val) ↔ 65 ≤ c.toNat ∧ c.toNat ≤ 90 := by
    simp only [ge_iff_le, UInt32.le_iff_toNat_le]
    rfl
  by_cases h : 65 ≤ c.toNat ∧ c.toNat ≤ 90
  · have hsum : (c.val + ('a'.val - 'A'.val)).toNat = (c.toNat + 32) % 2 ^ 32 :=
      UInt32.toNat_add _ _
    have hlower : c.toLower = _ := dif_pos (hupper.mpr h)
    rw [if_pos h, hlower]
    refine hsum.trans (Nat.mod_eq_of_lt ?_)
    omega
  · have hlower : c.toLower = c := dif_neg (mt hupper.mp h)
    rw [if_neg h, hlower]

lemma isUpper_iff (c : Char) : c.isUpper = true ↔ 65 ≤ c.toNat ∧ c.toNat ≤ 90 := by
  show decide (c.val ≥ 'A'.val ∧ c.val ≤ 'Z'.val) = true ↔ _
  rw [decide_eq_true_eq, ge_iff_le, UInt32.le_iff_toNat_le, UInt32.le_iff_toNat_le]
  rfl

lemma isLower_iff (c : Char) : c.isLower = true ↔ 97 ≤ c.toNat ∧ c.toNat ≤ 122 := by
  show (decide (c.val ≥ 'a'.val) && decide (c.val ≤ 'z'.val)) = true ↔ _
  rw [Bool.and_eq_true, decide_eq_true_eq, decide_eq_true_eq, ge_iff_le,
    UInt32.le_iff_toNat_le, UInt32.le_iff_toNat_le]
  rfl

lemma isAlpha_iff (c : Char) : c.isAlpha = true ↔
    (65 ≤ c.toNat ∧ c.toNat ≤ 90) ∨ 97 ≤ c.toNat ∧ c.toNat ≤ 122 := by
  show (c.isUpper || c.isLower) = true ↔ _
  rw [Bool.or_eq_true, isUpper_iff, isLower_iff]

/-- The grammar of a name as a client may write it: an ASCII letter, then 2 to 31 ASCII letters,
digits, underscores or hyphens. -/
def IsIdentitty (s : Text) : Prop :=
  ∃ c rest, s = c :: rest ∧ c.isAlpha = true ∧ (2 ≤ rest.length ∧ rest.length ≤ 31) ∧
    ∀ x ∈ rest, (x.isAlphanum || x == '_' || x == '-') = true

lemma isLower_toLower (c : Char) : c.toLower.isLower = true ↔ c.isAlpha = true := by
  rw [isLower_iff, isAlpha_iff, toNat_toLower]
  split_ifs <;> omega

lemma isNameChar_toLower (c : Char) :
    isNameChar c.toLower = true ↔ (c.isAlphanum || c == '_' || c == '-') = true := by
  have hus : c = '_' ↔ c.toNat = 95 :=
    ⟨fun h => h ▸ rfl, fun h => Char.toNat_inj.mp (h.trans rfl)⟩
  have hhy : c = '-' ↔ c.toNat = 45 :=
    ⟨fun h => h ▸ rfl, fun h => Char.toNat_inj.mp (h.trans rfl)⟩
  have hdigit : c.isDigit = true ↔ 48 ≤ c.toNat ∧ c.toNat ≤ 57 := by
    simp only [Char.isDigit, Bool.and_eq_true, decide_eq_true_eq, ge_iff_le,
      UInt32.le_iff_toNat_le]
    rfl
  rw [isNameChar_iff, toNat_toLower, Char.isAlphanum]
  simp only [Bool.or_eq_true, beq_iff_eq, hus, hhy, isAlpha_iff, hdigit]
  split_ifs <;> omega

lemma byteLength_of_isNameChar {s : Text} (h : ∀ c ∈ s, isNameChar c = true) :
    byteLength s = s.length := by
  have hone : ∀ c ∈ s, c.utf8Size = 1 := by
    intro c hc
    have hn := (isNameChar_iff c).mp (h c hc)
    have hle : c.val ≤ 0x7f := by
      rw [UInt32.le_iff_toNat_le]
      show c.toNat ≤ 127
      omega
    exact if_pos hle
  rw [byteLength, List.map_congr_left hone, List.map_const', List.sum_replicate_nat, Nat.mul_one]

/-- What is accepted is what the grammar describes, once it is trimmed. -/
lemma exists_normaliseIdentitty_iff {value : Text} :
    (∃ name, normaliseIdentitty value = .ok name) ↔ IsIdentitty (trim value) := by
  simp only [normaliseIdentitty_eq_ok, exists_eq_left']
  constructor
  · rintro ⟨hlen, hhead, hall⟩
    have hname : ∀ c ∈ toAsciiLowercase (trim value), isNameChar c = true :=
      List.all_eq_true.mp hall
    rw [byteLength_of_isNameChar hname, toAsciiLowercase, List.length_map] at hlen
    cases hs : trim value with
    | nil => simp [hs] at hlen
    | cons c rest =>
      rw [hs] at hlen hhead hname
      refine ⟨c, rest, rfl, (isLower_toLower c).mp hhead, ?_, fun x hx => ?_⟩
      · rw [List.length_cons] at hlen
        omega
      · refine (isNameChar_toLower x).mp (hname _ ?_)
        exact List.mem_map_of_mem (List.mem_cons_of_mem _ hx)
  · rintro ⟨c, rest, hs, hc, hlen, hrest⟩
    have hname : ∀ x ∈ toAsciiLowercase (trim value), isNameChar x = true := by
      intro x hx
      obtain ⟨y, hy, rfl⟩ := List.mem_map.mp hx
      rw [isNameChar_toLower]
      rw [hs] at hy
      rcases List.mem_cons.mp hy with rfl | hy
      · simp [Char.isAlphanum, hc]
      · exact hrest y hy
    refine ⟨?_, ?_, List.all_eq_true.mpr hname⟩
    · rw [byteLength_of_isNameChar hname, toAsciiLowercase, List.length_map, hs, List.length_cons]
      omega
    · rw [hs]
      exact (isLower_toLower c).mpr hc

/-- The names that `normalise_identitty` accepts, what it returns, and when two of them are the same
name. -/
theorem normaliseIdentitty_grammar (value : Text) :
    ((∃ name, normaliseIdentitty value = .ok name) ↔ IsIdentitty (trim value)) ∧
    (∀ name, normaliseIdentitty value = .ok name →
      name = toAsciiLowercase (trim value) ∧ normaliseIdentitty name = .ok name) ∧
    ∀ value' name name', normaliseIdentitty value = .ok name →
      normaliseIdentitty value' = .ok name' →
        (name = name' ↔ nocase (trim value) (trim value')) ∧
          (nocase name name' ↔ name = name') := by
  refine ⟨exists_normaliseIdentitty_iff, fun name h => ?_, fun value' name name' h h' => ?_⟩
  · exact ⟨(normaliseIdentitty_eq_ok.mp h).1.symm, normaliseIdentitty_idem h⟩
  · obtain ⟨hname, -, -, hall⟩ := normaliseIdentitty_eq_ok.mp h
    obtain ⟨hname', -, -, hall'⟩ := normaliseIdentitty_eq_ok.mp h'
    refine ⟨by rw [nocase, hname, hname'], ?_⟩
    rw [nocase, toAsciiLowercase_of_isNameChar (List.all_eq_true.mp hall),
      toAsciiLowercase_of_isNameChar (List.all_eq_true.mp hall')]

theorem normaliseIdentitty_grammar_ada : IsIdentitty (trim " Ada-1 ".toList) ∧
    normaliseIdentitty "ada-1".toList = .ok "ada-1".toList ∧
    ("ada-1".toList = "ada-1".toList ↔ nocase (trim " Ada-1 ".toList) (trim "aDA-1".toList)) := by
  have h := normaliseIdentitty_grammar " Ada-1 ".toList
  exact ⟨h.1.mp ⟨"ada-1".toList, by decide⟩, (h.2.1 "ada-1".toList (by decide)).2,
    (h.2.2 "aDA-1".toList "ada-1".toList "ada-1".toList (by decide) (by decide)).1⟩

example : normaliseIdentitty " Ada_Lovelace ".toList = .ok "ada_lovelace".toList := by decide
example : normaliseIdentitty "1ada".toList = .error .invalidIdentitty := by decide

/-! ### Account ids -/

/-- `hex::encode`. -/
def hexEncode (bytes : List UInt8) : Text := bytes.flatMap fun b => hex.write 2 b.toNat

/-- `account_id::from_public_key`, over the digest that SHA-256 gives the key. -/
def fromPublicKey (sha256 : List UInt8 → List UInt8) (publicKey : List UInt8) : Text :=
  "acct_".toList ++ hexEncode (sha256 publicKey)

end TittyBackend
