import TittyBackend.Lib.Json
import Mathlib.Data.List.Infix

/-!
# Registrations in the report

The loop of `generate-api-metrics.sh` that picks the registrations out of the logged bodies of
GraphQL requests.
-/

namespace TittyBackend

open Numerals Json

/-! ### Python -/

/-- What the loop can raise. -/
inductive Raised where
  | attributeError
  | valueError
  | recursionError
  deriving DecidableEq

/-- `d.get(key)` -/
def getItem (d : List (PyStr × Value)) (key : Text) : Option Value := d.lookup (ofText key)

/-- A value that is a dict, as `isinstance` tells. -/
def asDict : Option Value → Option (List (PyStr × Value))
  | some (.object d) => some d
  | _ => none

/-! ### The loop -/

/-- A record of `graphql-request-bodies.jsonl`; a key may be missing. -/
structure BodyRecord where
  timestamp : Option Text
  body : Option Text
  sourceIp : Option Text
  status : Option ℕ
  requestId : Option Text

structure RegistrationRow where
  registeredAt : Text
  identitty : Value
  accountId : Value
  sourceIp : Text
  status : Value
  requestId : Text

def BodyRecord.rawBody (record : BodyRecord) : Text := record.body.getD []

/-- The row of a record, for the input of its registration. -/
def BodyRecord.row (record : BodyRecord) (input : List (PyStr × Value)) : RegistrationRow where
  registeredAt := record.timestamp.getD []
  identitty := (getItem input "identiTTY".toList).getD (.string [])
  accountId := (getItem input "accountID".toList).getD (.string [])
  sourceIp := record.sourceIp.getD "unknown".toList
  status := (record.status.map fun n => Value.int n).getD (.string [])
  requestId := record.requestId.getD "unknown".toList

/-- `payload.get(key)`, which only a dict has. -/
def getAttr (payload : Value) (key : Text) : Except Raised (Option Value) :=
  match payload with
  | .object d => .ok (getItem d key)
  | _ => .error .attributeError

variable (limit : Option ℕ)

/-- One turn of the loop, with the row that it appends. -/
def extract (record : BodyRecord) : Except Raised (Option RegistrationRow) :=
  match loads limit record.rawBody with
  | .error .decode => .ok none
  | .error .digits => .error .valueError
  | .error .depth => .error .recursionError
  | .ok payload => do
    let query ← getAttr payload "query".toList
    match query.getD (.string []) with
    | .string query =>
      if ofText "registerAccount".toList <:+: query then do
        let vars ← getAttr payload "variables".toList
        let registrationInput := (asDict vars).bind fun d => getItem d "input".toList
        return some (record.row ((asDict registrationInput).getD []))
      else return none
    | _ => return none

def extractAll : List BodyRecord → Except Raised (List RegistrationRow)
  | [] => .ok []
  | record :: records => do
    let row ← extract limit record
    let rows ← extractAll records
    return row.toList ++ rows

/-- The loop, and the sort after it. -/
def registrationRows (records : List BodyRecord) : Except Raised (List RegistrationRow) :=
  (extractAll limit records).map fun rows =>
    rows.mergeSort fun a b => a.registeredAt ≤ b.registeredAt

/-! ### What is claimed of the rows -/

/-- The members of a body that is a JSON object. -/
def BodyRecord.members (record : BodyRecord) : Option (List (PyStr × Value)) :=
  asDict (loads limit record.rawBody).toOption

/-- The body is an object whose query is a string with `registerAccount` in it. -/
def BodyRecord.Registers (record : BodyRecord) (d : List (PyStr × Value)) : Prop :=
  record.members limit = some d ∧
    ∃ query, getItem d "query".toList = some (.string query) ∧
      ofText "registerAccount".toList <:+: query

/-- The input of a registration: `variables.input`, if both are objects, or else nothing. -/
def registrationInput (d : List (PyStr × Value)) : List (PyStr × Value) :=
  ((asDict (getItem d "variables".toList)).bind fun vars =>
    asDict (getItem vars "input".toList)).getD []

open Classical in
/-- The row of a body that registers. -/
noncomputable def BodyRecord.registration (record : BodyRecord) : Option RegistrationRow :=
  (record.members limit).bind fun d =>
    if record.Registers limit d then some (record.row (registrationInput d)) else none

/-- There is exactly one row for each body that registers, in the order of their timestamps. -/
structure Extracted (records : List BodyRecord) (rows : List RegistrationRow) : Prop where
  exact : rows.Perm (records.filterMap fun record => record.registration limit)
  sorted : rows.Pairwise fun a b => a.registeredAt ≤ b.registeredAt

/-- The body is not JSON, or it is an object. -/
def BodyRecord.Harmless (record : BodyRecord) : Prop :=
  loads limit record.rawBody = .error .decode ∨
    ∃ d, loads limit record.rawBody = .ok (.object d)

variable {limit} {record : BodyRecord} {records : List BodyRecord} {rows : List RegistrationRow}

lemma registration_eq_some {row : RegistrationRow} : record.registration limit = some row ↔
    ∃ d, record.Registers limit d ∧ row = record.row (registrationInput d) := by
  rw [BodyRecord.registration, Option.bind_eq_some_iff]
  constructor
  · rintro ⟨d, -, h⟩
    split_ifs at h with hd
    exact ⟨d, hd, (Option.some.inj h).symm⟩
  · rintro ⟨d, hd, rfl⟩
    exact ⟨d, hd.1, if_pos hd⟩

lemma registration_of_not_registers {d : List (PyStr × Value)} (hd : record.members limit = some d)
    (h : ¬ record.Registers limit d) : record.registration limit = none := by
  rw [BodyRecord.registration, hd, Option.bind_some, if_neg h]

lemma members_of_object {d : List (PyStr × Value)}
    (h : loads limit record.rawBody = .ok (.object d)) : record.members limit = some d := by
  rw [BodyRecord.members, h]
  rfl

/-- A turn of the loop over an object. -/
lemma extract_of_object {d : List (PyStr × Value)}
    (h : loads limit record.rawBody = .ok (.object d)) : extract limit record =
      match (getItem d "query".toList).getD (.string []) with
      | .string query =>
        if ofText "registerAccount".toList <:+: query then
          .ok (some (record.row (registrationInput d)))
        else .ok none
      | _ => .ok none := by
  have hinput : registrationInput d = (asDict ((asDict (getItem d "variables".toList)).bind
      fun vars => getItem vars "input".toList)).getD [] := by
    rw [registrationInput]
    cases asDict (getItem d "variables".toList) <;> rfl
  rw [extract, h, hinput]
  show (match (getItem d "query".toList).getD (.string []) with
    | .string query => _
    | _ => _) = _
  split
  · split <;> rfl
  · rfl

/-- A turn of the loop over a body that is harmless. -/
lemma extract_of_harmless (h : record.Harmless limit) :
    extract limit record = .ok (record.registration limit) := by
  rcases h with h | ⟨d, h⟩
  · have hnone : record.registration limit = none := by
      rw [BodyRecord.registration, BodyRecord.members, h]
      rfl
    rw [extract, h, hnone]
  · have hmembers := members_of_object h
    rw [extract_of_object h]
    cases hquery : getItem d "query".toList with
    | none =>
      have hnot : ¬ ofText "registerAccount".toList <:+: [] := by decide
      have hnone : ¬ record.Registers limit d := by
        rintro ⟨-, query, hquery', -⟩
        cases hquery.symm.trans hquery'
      rw [registration_of_not_registers hmembers hnone]
      exact if_neg hnot
    | some value =>
      rw [Option.getD_some]
      split
      · rename_i query
        split_ifs with hin
        · rw [registration_eq_some.mpr ⟨d, ⟨hmembers, query, hquery, hin⟩, rfl⟩]
        · have hnot : ¬ record.Registers limit d := by
            rintro ⟨-, query', hquery', hin'⟩
            cases hquery.symm.trans hquery'
            exact hin hin'
          rw [registration_of_not_registers hmembers hnot]
      · rename_i hother
        have hnot : ¬ record.Registers limit d := by
          rintro ⟨-, query, hquery', -⟩
          exact hother query (Option.some.inj (hquery.symm.trans hquery'))
        rw [registration_of_not_registers hmembers hnot]

/-- On any other body it raises, though never because of its nesting. -/
lemma extract_of_not_harmless (h : ¬ record.Harmless limit) :
    ∃ e, extract limit record = .error e ∧ e ≠ .recursionError := by
  rw [extract]
  cases hloads : loads limit record.rawBody with
  | error e =>
    cases e with
    | decode => exact absurd (.inl hloads) h
    | digits => exact ⟨.valueError, rfl, by decide⟩
    | depth => exact absurd hloads (loads_ne_depth _)
  | ok payload =>
    cases payload with
    | object d => exact absurd (.inr ⟨d, hloads⟩) h
    | _ => exact ⟨.attributeError, rfl, by decide⟩

/-- The loop gets through a list if and only if each of its bodies is harmless. -/
lemma extractAll_eq_ok : extractAll limit records = .ok rows ↔
    (∀ record ∈ records, record.Harmless limit) ∧
      rows = records.filterMap fun record => record.registration limit := by
  induction records generalizing rows with
  | nil => simp [extractAll, eq_comm]
  | cons record records ih =>
    rw [extractAll, List.forall_mem_cons]
    by_cases h : record.Harmless limit
    · rw [extract_of_harmless h]
      cases hall : extractAll limit records with
      | error e =>
        refine iff_of_false (fun heq => nomatch heq) fun hrest => ?_
        cases hall.symm.trans (ih.mpr ⟨hrest.1.2, rfl⟩)
      | ok found =>
        obtain ⟨hrest, rfl⟩ := ih.mp hall
        show Except.ok ((record.registration limit).toList ++ _) = .ok rows ↔ _
        rw [Except.ok.injEq, List.filterMap_cons]
        constructor
        · rintro rfl
          refine ⟨⟨h, hrest⟩, ?_⟩
          cases record.registration limit <;> rfl
        · rintro ⟨-, rfl⟩
          cases record.registration limit <;> rfl
    · obtain ⟨e, he, -⟩ := extract_of_not_harmless h
      rw [he]
      exact iff_of_false (fun heq => nomatch heq) fun hall => h hall.1.1

lemma sorted_mergeSort (rows : List RegistrationRow) :
    (rows.mergeSort fun a b => a.registeredAt ≤ b.registeredAt).Pairwise
      fun a b => a.registeredAt ≤ b.registeredAt := by
  refine (List.pairwise_mergeSort ?_ ?_ rows).imp fun h => of_decide_eq_true h
  · intro a b c hab hbc
    exact decide_eq_true ((of_decide_eq_true hab).trans (of_decide_eq_true hbc))
  · intro a b
    simpa using le_total a.registeredAt b.registeredAt

/-- The loop finishes, and with the right rows, if and only if every body that is JSON is an object
and no integer in front of its first error is too long. -/
theorem registrationRows_iff (limit : Option ℕ) (records : List BodyRecord) :
    (∃ rows, registrationRows limit records = .ok rows ∧ Extracted limit records rows) ↔
      ∀ record ∈ records, record.Harmless limit := by
  constructor
  · rintro ⟨rows, hrows, -⟩
    rw [registrationRows] at hrows
    cases hall : extractAll limit records with
    | error e =>
      rw [hall] at hrows
      cases hrows
    | ok found => exact (extractAll_eq_ok.mp hall).1
  · intro h
    have hall := extractAll_eq_ok.mpr ⟨h, rfl⟩
    rw [registrationRows, hall]
    exact ⟨_, rfl, List.mergeSort_perm _ _, sorted_mergeSort _⟩

namespace Known

/-- What the log has of a request with such a body. -/
def bodyRecord (body : Text) : BodyRecord where
  timestamp := some "2026-01-01T00:00:00.000000Z".toList
  body := some body
  sourceIp := some "192.0.2.7".toList
  status := some 200
  requestId := some "unknown".toList

end Known

lemma rawBody_bodyRecord (body : Text) : (Known.bodyRecord body).rawBody = body := rfl

/-- An integer that is too long for the interpreter raises, as an array does. -/
lemma registrationRows_of_digits {m : ℕ} {s : Text} (hs : ∀ c ∈ s, Json.isDigit c = true)
    (hzero : s.head? ≠ some '0') (hlen : m < s.length) :
    registrationRows (some m) [Known.bodyRecord s] = .error .valueError := by
  rw [registrationRows, extractAll, extract, rawBody_bodyRecord, loads_of_digits hs hzero hlen]
  rfl

/-- One body that is an empty array, or an integer of 4301 digits, and there is no report. -/
theorem registrationRows_raises :
    registrationRows (some 4300) [Known.bodyRecord "[]".toList] = .error .attributeError ∧
      registrationRows (some 4300) [Known.bodyRecord (List.replicate 4301 '1')] =
        .error .valueError ∧
      ¬ ∃ rows, registrationRows (some 4300) [Known.bodyRecord "[]".toList] = .ok rows ∧
        Extracted (some 4300) [Known.bodyRecord "[]".toList] rows := by
  have hraise : registrationRows (some 4300) [Known.bodyRecord "[]".toList] =
    .error .attributeError := rfl
  have hdigits : ∀ c ∈ List.replicate 4301 '1', Json.isDigit c = true := by
    intro c hc
    rw [List.eq_of_mem_replicate hc]
    decide
  have hzero : (List.replicate 4301 '1').head? ≠ some '0' := by
    rw [List.head?_replicate]
    decide
  have hlen : 4300 < (List.replicate 4301 '1').length := by
    rw [List.length_replicate]
    decide
  refine ⟨hraise, registrationRows_of_digits hdigits hzero hlen, ?_⟩
  rintro ⟨rows, hrows, -⟩
  rw [hraise] at hrows
  cases hrows

end TittyBackend
