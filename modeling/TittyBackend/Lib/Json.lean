import TittyBackend.Lib.Digits
import Mathlib.Data.List.TakeWhile

/-!
# `json.loads`

The JSON reader of Python's standard library, on strings. It takes `NaN` and the infinities, keeps
the last value of a repeated key and leaves surrogates that do not pair in its strings. It raises
`JSONDecodeError` at a text that is not JSON, a plain `ValueError` at an integer with more digits
than the interpreter converts, and `RecursionError` at nesting that is deeper than a bound. The
bound here is as long as the text, so no text exceeds it.
-/

namespace Json

open Numerals

/-! ### Values -/

/-- The code points of a string, surrogates among them. -/
abbrev PyStr := List ℕ

def ofText (s : Text) : PyStr := s.map Char.toNat

inductive Value where
  | null
  | bool (b : Bool)
  | int (n : ℤ)
  /-- A number that is read as a float, by its literal. -/
  | float (literal : Text)
  | string (s : PyStr)
  | array (xs : List Value)
  | object (members : List (PyStr × Value))

/-- `d[key] = x`: a key that is there keeps its place. -/
def setItem {α : Type} : List (PyStr × α) → PyStr → α → List (PyStr × α)
  | [], key, x => [(key, x)]
  | (key', y) :: d, key, x => if key' = key then (key, x) :: d else (key', y) :: setItem d key x

inductive Error where
  /-- `JSONDecodeError` -/
  | decode
  /-- The `ValueError` of an integer that is too long to convert. -/
  | digits
  /-- `RecursionError` -/
  | depth
  deriving DecidableEq

/-- What is read off the front of a text, and the rest. -/
abbrev Scanner (α : Type) := Text → Except Error (α × Text)

/-! ### Strings -/

def quote : Char := Char.ofNat 34

def backslash : Char := Char.ofNat 92

def isSpace (c : Char) : Bool := c.toNat = 32 ∨ c.toNat = 9 ∨ c.toNat = 10 ∨ c.toNat = 13

def skip (s : Text) : Text := s.dropWhile isSpace

/-- The character after a backslash, other than `u`. -/
def escape (c : Char) : Option ℕ :=
  if c = quote ∨ c = backslash ∨ c = '/' then some c.toNat
  else if c = 'b' then some 8
  else if c = 'f' then some 12
  else if c = 'n' then some 10
  else if c = 'r' then some 13
  else if c = 't' then some 9
  else none

/-- The characters of a string up to its quote. -/
def scanChars : Scanner PyStr
  | [] => .error .decode
  | c :: s =>
    if c = quote then .ok ([], s)
    else if c = backslash then
      match s with
      | [] => .error .decode
      | e :: s =>
        if e = 'u' then
          match s with
          | a :: b :: c :: d :: s =>
            match hex.read [a, b, c, d] with
            | none => .error .decode
            | some n => (scanChars s).map fun x => (n :: x.1, x.2)
          | _ => .error .decode
        else
          match escape e with
          | none => .error .decode
          | some n => (scanChars s).map fun x => (n :: x.1, x.2)
    else if c.toNat < 32 then .error .decode
    else (scanChars s).map fun x => (c.toNat :: x.1, x.2)

/-- A high and a low surrogate next to each other are one character. -/
def joinSurrogates : PyStr → PyStr
  | high :: low :: s =>
    if 0xD800 ≤ high ∧ high ≤ 0xDBFF ∧ 0xDC00 ≤ low ∧ low ≤ 0xDFFF then
      (0x10000 + (high - 0xD800) * 1024 + (low - 0xDC00)) :: joinSurrogates s
    else high :: joinSurrogates (low :: s)
  | s => s

/-- A string after its first quote. -/
def scanString : Scanner PyStr := fun s => (scanChars s).map fun x => (joinSurrogates x.1, x.2)

/-! ### Numbers -/

def isDigit (c : Char) : Bool := (decimal.val c).isSome

/-- The integer part of a number without its sign: a zero, or digits that begin with another. -/
def integerPart : Text → Option (Text × Text)
  | [] => none
  | c :: s =>
    if c = '0' then some ([c], s)
    else if isDigit c then some (c :: s.takeWhile isDigit, s.dropWhile isDigit)
    else none

def fraction : Text → Text × Text
  | '.' :: d :: s =>
    if isDigit d then ('.' :: d :: s.takeWhile isDigit, s.dropWhile isDigit)
    else ([], '.' :: d :: s)
  | s => ([], s)

def exponentDigits (front s : Text) : Option (Text × Text) :=
  if s.takeWhile isDigit = [] then none
  else some (front ++ s.takeWhile isDigit, s.dropWhile isDigit)

/-- After the letter `e`. -/
def exponentTail (e : Char) : Text → Option (Text × Text)
  | [] => none
  | sign :: s =>
    if sign = '+' ∨ sign = '-' then exponentDigits [e, sign] s else exponentDigits [e] (sign :: s)

def exponent : Text → Text × Text
  | [] => ([], [])
  | e :: s =>
    if e = 'e' ∨ e = 'E' then (exponentTail e s).getD ([], e :: s) else ([], e :: s)

variable (limit : Option ℕ)

/-- More digits than `sys.set_int_max_str_digits` allows, where there is a limit. -/
def tooLong (digits : Text) : Bool := limit.any fun n => n < digits.length

/-- A number, after its sign. -/
def scanUnsigned (sign : Text) : Scanner Value := fun s =>
  match integerPart s with
  | none => .error .decode
  | some (digits, s) =>
    let (frac, s) := fraction s
    let (exp, s) := exponent s
    if frac = [] ∧ exp = [] then
      if tooLong limit digits then .error .digits
      else
        let n := (decimal.read digits).getD 0
        .ok (.int (if sign = [] then n else -n), s)
    else .ok (.float (sign ++ digits ++ frac ++ exp), s)

def scanNumber : Scanner Value
  | '-' :: s => scanUnsigned limit ['-'] s
  | s => scanUnsigned limit [] s

/-! ### Values -/

/-- The constants. -/
def constants : List (Text × Value) :=
  [("null".toList, .null), ("true".toList, .bool true), ("false".toList, .bool false),
    ("NaN".toList, .float "NaN".toList), ("Infinity".toList, .float "Infinity".toList),
    ("-Infinity".toList, .float "-Infinity".toList)]

/-- A value that is neither a string nor an array nor an object. -/
def scanAtom : Scanner Value := fun s =>
  match constants.find? fun x => x.1.isPrefixOf s with
  | some (name, x) => .ok (x, s.drop name.length)
  | none => scanNumber limit s

/-- The elements of an array after its bracket, if there are any. -/
def scanElements (value : Scanner Value) : ℕ → Scanner (List Value)
  | 0, _ => .error .depth
  | n + 1, s =>
    match value s with
    | .error e => .error e
    | .ok (x, s) =>
      match skip s with
      | ']' :: s => .ok ([x], s)
      | ',' :: s => (scanElements value n (skip s)).map fun y => (x :: y.1, y.2)
      | _ => .error .decode

/-- One member of an object. -/
def scanMember (value : Scanner Value) : Scanner (PyStr × Value)
  | [] => .error .decode
  | c :: s =>
    if c = quote then
      match scanString s with
      | .error e => .error e
      | .ok (key, s) =>
        match skip s with
        | ':' :: s => (value (skip s)).map fun x => ((key, x.1), x.2)
        | _ => .error .decode
    else .error .decode

/-- The members of an object after its brace, if there are any, added to those before them. -/
def scanMembers (value : Scanner Value) : ℕ → List (PyStr × Value) → Scanner (List (PyStr × Value))
  | 0, _, _ => .error .depth
  | n + 1, members, s =>
    match scanMember value s with
    | .error e => .error e
    | .ok ((key, x), s) =>
      match skip s with
      | '}' :: s => .ok (setItem members key x, s)
      | ',' :: s => scanMembers value n (setItem members key x) (skip s)
      | _ => .error .decode

/-- `scan_once`, with a bound on nesting. -/
def scanOnce : ℕ → Scanner Value
  | 0, _ => .error .depth
  | _ + 1, [] => .error .decode
  | n + 1, c :: s =>
    if c = quote then (scanString s).map fun x => (.string x.1, x.2)
    else if c = '[' then
      match skip s with
      | ']' :: s => .ok (.array [], s)
      | s => (scanElements (scanOnce n) n s).map fun x => (.array x.1, x.2)
    else if c = '{' then
      match skip s with
      | '}' :: s => .ok (.object [], s)
      | s => (scanMembers (scanOnce n) n [] s).map fun x => (.object x.1, x.2)
    else scanAtom limit (c :: s)

/-- A byte order mark is refused. -/
def byteOrderMark : Char := Char.ofNat 0xFEFF

/-- `json.loads` -/
def loads (s : Text) : Except Error Value :=
  if s.head? = some byteOrderMark then .error .decode
  else
    match scanOnce limit (s.length + 1) (skip s) with
    | .error e => .error e
    | .ok (x, rest) => if skip rest = [] then .ok x else .error .decode

/-! ### Nesting is never too deep -/

variable {limit : Option ℕ} {α β : Type}

/-- A scanner that was given `s` has read something, or has failed for another reason than its
bound. -/
def Consumes (s : Text) : Except Error (α × Text) → Prop
  | .ok (_, rest) => rest.length < s.length
  | .error e => e ≠ .depth

lemma consumes_decode (s : Text) : Consumes s (.error .decode : Except Error (α × Text)) :=
  fun h => (nomatch h)

lemma Consumes.mono {s t : Text} {r : Except Error (α × Text)} (h : Consumes s r)
    (hle : s.length ≤ t.length) : Consumes t r := by
  cases r with
  | error e => exact h
  | ok x => exact lt_of_lt_of_le h hle

lemma Consumes.map {s : Text} {r : Except Error (α × Text)} (h : Consumes s r) (f : α → β) :
    Consumes s (r.map fun x => (f x.1, x.2)) := by
  cases r with
  | error e => exact h
  | ok x => exact h

/-- Twice the same, behind a text that is longer. -/
lemma Consumes.cons {s : Text} {r : Except Error (α × Text)} (h : Consumes s r) (c : Char) :
    Consumes (c :: s) r := h.mono (Nat.le_succ _)

lemma length_skip_le (s : Text) : (skip s).length ≤ s.length :=
  (List.dropWhile_suffix _).length_le

lemma length_lt_of_skip {s t : Text} {c : Char} (h : skip s = c :: t) : t.length < s.length := by
  have hle := length_skip_le s
  rwa [h, List.length_cons] at hle

lemma consumes_scanChars (s : Text) : Consumes s (scanChars s) := by
  fun_induction scanChars s with
  | case2 s => exact Nat.lt_succ_self _
  | case5 a b c d s n hn hq ih => exact (ih.map _).mono (by simp only [List.length_cons]; omega)
  | case8 e s hu n hn hq ih => exact (ih.map _).mono (by simp only [List.length_cons]; omega)
  | case10 c s hq hb hc ih => exact (ih.map _).cons c
  | _ => exact consumes_decode _

lemma consumes_scanString (s : Text) : Consumes s (scanString s) :=
  (consumes_scanChars s).map joinSurrogates

lemma length_integerPart {s digits rest : Text} (h : integerPart s = some (digits, rest)) :
    rest.length < s.length := by
  cases s with
  | nil => cases h
  | cons c s =>
    rw [integerPart] at h
    split_ifs at h
    · cases h
      exact Nat.lt_succ_self _
    · cases h
      exact Nat.lt_succ_of_le (List.dropWhile_suffix _).length_le

lemma length_fraction_le (s : Text) : (fraction s).2.length ≤ s.length := by
  fun_cases fraction s with
  | case1 d s hd =>
    have := (List.dropWhile_suffix (l := s) isDigit).length_le
    simp only [List.length_cons]
    omega
  | _ => exact le_rfl

lemma length_exponentDigits_le {front s digits rest : Text}
    (h : exponentDigits front s = some (digits, rest)) : rest.length ≤ s.length := by
  rw [exponentDigits] at h
  split_ifs at h
  cases h
  exact (List.dropWhile_suffix _).length_le

lemma length_exponentTail_le {e : Char} {s digits rest : Text}
    (h : exponentTail e s = some (digits, rest)) : rest.length ≤ s.length := by
  cases s with
  | nil => cases h
  | cons sign s =>
    rw [exponentTail] at h
    split_ifs at h
    · exact (length_exponentDigits_le h).trans (Nat.le_succ _)
    · exact length_exponentDigits_le h

lemma length_exponent_le (s : Text) : (exponent s).2.length ≤ s.length := by
  cases s with
  | nil => exact le_rfl
  | cons e s =>
    rw [exponent]
    split_ifs
    · cases htail : exponentTail e s with
      | none => exact le_rfl
      | some x => exact (length_exponentTail_le htail).trans (Nat.le_succ _)
    · exact le_rfl

lemma consumes_scanUnsigned (sign s : Text) : Consumes s (scanUnsigned limit sign s) := by
  rw [scanUnsigned]
  cases hint : integerPart s with
  | none => exact consumes_decode _
  | some x =>
    obtain ⟨digits, rest⟩ := x
    have hrest : (exponent (fraction rest).2).2.length < s.length := by
      have hint := length_integerPart hint
      have hfraction := length_fraction_le rest
      have hexponent := length_exponent_le (fraction rest).2
      omega
    dsimp only
    split_ifs
    · exact fun h => (nomatch h)
    · exact hrest
    · exact hrest
    · exact hrest

lemma consumes_scanNumber (s : Text) : Consumes s (scanNumber limit s) := by
  fun_cases scanNumber limit s with
  | case1 s => exact (consumes_scanUnsigned ['-'] s).cons _
  | case2 s => exact consumes_scanUnsigned [] s

lemma length_constant_pos : ∀ x ∈ constants, 0 < x.1.length := by
  simp [constants]

lemma consumes_scanAtom (s : Text) : Consumes s (scanAtom limit s) := by
  rw [scanAtom]
  cases hfind : constants.find? fun x => x.1.isPrefixOf s with
  | none => exact consumes_scanNumber s
  | some x =>
    have hpre : x.1 <+: s := List.isPrefixOf_iff_prefix.mp (List.find?_some hfind :)
    have hpos := length_constant_pos x (List.mem_of_find?_eq_some hfind)
    show (s.drop x.1.length).length < s.length
    have := hpre.length_le
    rw [List.length_drop]
    omega

/-- A scanner of values that meets no bound in texts shorter than `n`. -/
def Deep (value : Scanner α) (n : ℕ) : Prop := ∀ s : Text, s.length < n → Consumes s (value s)

lemma consumes_scanElements {value : Scanner Value} {n : ℕ} (hvalue : Deep value n) {m : ℕ}
    {s : Text} (hm : s.length < m) (hn : s.length < n) : Consumes s (scanElements value m s) := by
  induction m generalizing s with
  | zero => exact absurd hm (Nat.not_lt_zero _)
  | succ m ih =>
    have hfirst := hvalue s hn
    rw [scanElements]
    cases hscan : value s with
    | error e =>
      rw [hscan] at hfirst
      exact hfirst
    | ok x =>
      obtain ⟨x, rest⟩ := x
      rw [hscan] at hfirst
      have hrest : rest.length < s.length := hfirst
      dsimp only
      split
      · rename_i t ht
        exact (length_lt_of_skip ht).trans hrest
      · rename_i t ht
        have hlt := length_lt_of_skip ht
        have ht' := length_skip_le t
        exact ((ih (by omega) (by omega)).map _).mono (by omega)
      · exact consumes_decode _

lemma consumes_scanMember {value : Scanner Value} {n : ℕ} (hvalue : Deep value n) {s : Text}
    (hn : s.length < n) : Consumes s (scanMember value s) := by
  cases s with
  | nil => exact consumes_decode _
  | cons c s =>
    rw [scanMember]
    split_ifs
    · have hkey := consumes_scanString s
      cases hscan : scanString s with
      | error e =>
        rw [hscan] at hkey
        exact hkey
      | ok x =>
        obtain ⟨key, rest⟩ := x
        rw [hscan] at hkey
        have hrest : rest.length < s.length := hkey
        dsimp only
        split
        · rename_i t ht
          have hlt := length_lt_of_skip ht
          have ht' := length_skip_le t
          rw [List.length_cons] at hn
          refine ((hvalue (skip t) (by omega)).map _).mono ?_
          rw [List.length_cons]
          omega
        · exact consumes_decode _
    · exact consumes_decode _

lemma consumes_scanMembers {value : Scanner Value} {n : ℕ} (hvalue : Deep value n) {m : ℕ}
    {s : Text} (hm : s.length < m) (hn : s.length < n) (members : List (PyStr × Value)) :
    Consumes s (scanMembers value m members s) := by
  induction m generalizing s members with
  | zero => exact absurd hm (Nat.not_lt_zero _)
  | succ m ih =>
    have hfirst := consumes_scanMember hvalue hn
    rw [scanMembers]
    cases hscan : scanMember value s with
    | error e =>
      rw [hscan] at hfirst
      exact hfirst
    | ok x =>
      obtain ⟨⟨key, x⟩, rest⟩ := x
      rw [hscan] at hfirst
      have hrest : rest.length < s.length := hfirst
      dsimp only
      split
      · rename_i t ht
        exact (length_lt_of_skip ht).trans hrest
      · rename_i t ht
        have hlt := length_lt_of_skip ht
        have ht' := length_skip_le t
        exact (ih (by omega) (by omega) _).mono (by omega)
      · exact consumes_decode _

lemma deep_scanOnce (n : ℕ) : Deep (scanOnce limit n) n := by
  induction n with
  | zero => exact fun s hs => absurd hs (Nat.not_lt_zero _)
  | succ n ih =>
    intro s hs
    cases s with
    | nil => exact consumes_decode _
    | cons c s =>
      have hn : s.length < n := Nat.lt_of_succ_lt_succ hs
      have hskip := length_skip_le s
      rw [scanOnce]
      split_ifs
      · exact ((consumes_scanString s).map _).cons c
      · split
        · rename_i t ht
          exact (length_lt_of_skip ht).trans (Nat.lt_succ_self _)
        · refine ((consumes_scanElements ih ?_ ?_).map _).mono ?_
          · omega
          · omega
          · rw [List.length_cons]
            omega
      · split
        · rename_i t ht
          exact (length_lt_of_skip ht).trans (Nat.lt_succ_self _)
        · refine ((consumes_scanMembers ih ?_ ?_ []).map _).mono ?_
          · omega
          · omega
          · rw [List.length_cons]
            omega
      · exact consumes_scanAtom (c :: s)

/-- The bound on nesting is never met. -/
theorem loads_ne_depth (s : Text) : loads limit s ≠ .error .depth := by
  have hscan : Consumes (skip s) (scanOnce limit (s.length + 1) (skip s)) :=
    deep_scanOnce _ _ (Nat.lt_succ_of_le (length_skip_le s))
  rw [loads]
  split_ifs
  · exact fun h => (nomatch h)
  · cases hresult : scanOnce limit (s.length + 1) (skip s) with
    | error e =>
      rw [hresult] at hscan
      exact fun h => hscan (Except.error.inj h)
    | ok x =>
      dsimp only
      split_ifs <;> exact fun h => (nomatch h)

/-! ### Integers that are too long -/

lemma isDigit_iff {c : Char} : isDigit c = true ↔ 48 ≤ c.toNat ∧ c.toNat ≤ 57 := by
  show ((if 48 ≤ c.toNat ∧ c.toNat ≤ 57 then some (c.toNat - 48) else none).isSome = true) ↔ _
  split_ifs with h
  · exact iff_of_true rfl h
  · exact iff_of_false Bool.false_ne_true h

lemma isDigit_ne {c d : Char} (hc : isDigit c = true) (hd : isDigit d = false) : c ≠ d := by
  rintro rfl
  exact Bool.noConfusion (hc.symm.trans hd)

lemma head_constant : ∀ x ∈ constants, x.1.head?.map isDigit = some false := by decide

/-- A text that begins with a digit is no constant. -/
lemma scanAtom_of_isDigit {c : Char} {s : Text} (hc : isDigit c = true) :
    scanAtom limit (c :: s) = scanUnsigned limit [] (c :: s) := by
  have hfind : (constants.find? fun x => x.1.isPrefixOf (c :: s)) = none := by
    refine List.find?_eq_none.mpr fun x hx hpre => ?_
    obtain ⟨d, hd, hdigit⟩ := Option.map_eq_some_iff.mp (head_constant x hx)
    obtain ⟨t, ht⟩ := List.head?_eq_some_iff.mp hd
    rw [ht, List.isPrefixOf_cons_cons, Bool.and_eq_true] at hpre
    exact isDigit_ne hc hdigit (eq_of_beq hpre.1).symm
  have hsign : c ≠ '-' := isDigit_ne hc (by decide)
  rw [scanAtom, hfind]
  exact scanNumber.eq_2 limit _ fun t ht => hsign (List.cons.inj ht).1

lemma integerPart_of_digits {c : Char} {s : Text} (hs : ∀ d ∈ c :: s, isDigit d = true)
    (hzero : c ≠ '0') : integerPart (c :: s) = some (c :: s, []) := by
  obtain ⟨hc, hs⟩ := List.forall_mem_cons.mp hs
  rw [integerPart, if_neg hzero, if_pos hc, List.takeWhile_eq_self_iff.mpr hs,
    List.dropWhile_eq_nil_iff.mpr hs]

/-- A text of digits that is an integer, but longer than the limit. -/
theorem loads_of_digits {m : ℕ} {s : Text} (hs : ∀ c ∈ s, isDigit c = true)
    (hzero : s.head? ≠ some '0') (hlen : m < s.length) :
    loads (some m) s = .error .digits := by
  cases s with
  | nil => exact absurd hlen (Nat.not_lt_zero _)
  | cons c s =>
    have hc : isDigit c = true := hs c List.mem_cons_self
    have hspace : isSpace c = false := by
      have := isDigit_iff.mp hc
      simp only [isSpace, decide_eq_false_iff_not]
      omega
    have hmark : c ≠ byteOrderMark := isDigit_ne hc (by decide)
    have hskip : skip (c :: s) = c :: s := by
      rw [skip, List.dropWhile_cons_of_neg (by simp [hspace])]
    have hscan : scanOnce (some m) ((c :: s).length + 1) (c :: s) = .error .digits := by
      rw [scanOnce, if_neg (isDigit_ne hc (by decide)), if_neg (isDigit_ne hc (by decide)),
        if_neg (isDigit_ne hc (by decide)), scanAtom_of_isDigit hc, scanUnsigned,
        integerPart_of_digits hs fun h => hzero (congrArg some h)]
      have hlong : tooLong (some m) (c :: s) = true := decide_eq_true hlen
      dsimp only
      rw [if_pos ⟨rfl, rfl⟩, if_pos hlong]
    rw [loads, if_neg (by simpa using hmark), hskip, hscan]

end Json
