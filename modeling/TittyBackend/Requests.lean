import TittyBackend.Provenance

/-!
# The rows of chat requests

What every stored request satisfies, whatever runs at the same time. A renewal computes the end
of a lease from a row it read earlier and from a later reading of the clock, so the end stays
between 90 seconds and 15 minutes after the request was made.
-/

namespace TittyBackend

open DateTime Numerals Programs Programs.System

variable {D : Deployment} {P : Service D → Action Op Choice → Prop} {t₀ : ℤ} {s : Service D}

/-! ### Sound rows -/

/-- What a stored request satisfies when the clock is at `now`. -/
structure ChatRecord.Sound (d : Db) (now : ℤ) (r : ChatRecord) : Prop where
  distinct : r.senderAccountId ≠ r.recipientAccountId
  sender : ∃ a ∈ d.accounts.rows, a.accountId = r.senderAccountId ∧ a.publicKey = r.senderPublicKey
  recipient : d.HasAccount r.recipientAccountId
  payload : 1 ≤ r.encryptedPayload.length ∧ r.encryptedPayload.length ≤ 16384
  times : ∃ c e, parseFromRfc3339 r.createdAt = some c ∧
    parseFromRfc3339 r.leaseExpiresAt = some e ∧
    parseFromRfc3339 r.hardExpiresAt = some (c + seconds (15 * 60)) ∧
    c + seconds 90 ≤ e ∧ e ≤ c + seconds (15 * 60) ∧ e ≤ now + seconds 90
  ids : ∃ u v w, Uuid.parse r.requestId = some u ∧ Uuid.parse r.leaseId = some v ∧
    Uuid.parse r.clientRequestId = some w
  intoModel : ∀ identitty, ∃ x, LiveChatRequestRow.intoModel ⟨r.requestId, r.senderAccountId,
    identitty, r.senderPublicKey, r.encryptedPayload, r.createdAt, r.leaseExpiresAt⟩ = .ok x
  intoSubmission : ∃ x, ExistingRequestRow.intoSubmission
    ⟨r.requestId, r.leaseId, r.leaseExpiresAt⟩ = .ok x
  renewal : ∃ t, parseDatetime r.hardExpiresAt = .ok t

/-! ### The times of a row -/

/-- From the year 0 on, and up to 15 minutes before the end of the year 9999. -/
def Early (t : ℤ) : Prop := InEra t ∧ InEra (t + seconds (15 * 60))

instance (t : ℤ) : Decidable (Early t) := inferInstanceAs (Decidable (_ ∧ _))

/-- The row was stored at `c` and its lease ends at `e`. -/
structure Timed (now : ℤ) (r : ChatRecord) (c e : ℤ) : Prop where
  createdAt : r.createdAt = toRfc3339 c
  leaseExpiresAt : r.leaseExpiresAt = toRfc3339 e
  hardExpiresAt : r.hardExpiresAt = toRfc3339 (c + seconds (15 * 60))
  early : Early c
  least : c + seconds 90 ≤ e
  most : e ≤ c + seconds (15 * 60)
  recent : e ≤ now + seconds 90

lemma Timed.mono {now now' : ℤ} {r : ChatRecord} {c e : ℤ} (h : Timed now r c e)
    (hle : now ≤ now') : Timed now' r c e :=
  { h with recent := h.recent.trans (add_le_add_left hle _) }

/-- What was read for a renewal is a request that was there. -/
lemma request_of_lease (h : Reach P ((service D).start (World.init .empty t₀)) s) {i : ℕ}
    {requestId leaseId sender : Text} {row : LeaseRow}
    (hread : .exec i ⟨.select (.lease requestId leaseId sender), .ok (some row)⟩ ∈ s.log) :
    ∃ (s₂ : Service D) (r₂ : ChatRecord), Reach P ((service D).start (World.init .empty t₀)) s₂ ∧
      s₂.log ⊆ s.log ∧ r₂ ∈ s₂.world.db.chats.rows ∧ r₂.requestId = requestId ∧
        row.hardExpiresAt = r₂.hardExpiresAt := by
  obtain ⟨s₂, ch₂, w₂, h₂, heff₂, hl₂⟩ := effect_of_log h hread
  obtain ⟨r₂, hr₂, hrow⟩ := Option.map_eq_some_iff.mp (heff₂.truthful trivial).symm
  have hkey := List.find?_some hr₂
  simp only [decide_eq_true_eq] at hkey
  exact ⟨s₂, r₂, h₂, hl₂, List.mem_of_find?_eq_some hr₂, hkey.1, by rw [← hrow]⟩

/-- A renewal has read the hard end of the request with its id, whenever that was. -/
lemma hardExpiresAt_of_lease (h : Reach P ((service D).start (World.init .empty t₀)) s) {i : ℕ}
    {requestId leaseId sender : Text} {row : LeaseRow}
    (hread : .exec i ⟨.select (.lease requestId leaseId sender), .ok (some row)⟩ ∈ s.log)
    {r : ChatRecord} (hr : r ∈ s.world.db.chats.rows) (hid : r.requestId = requestId) :
    row.hardExpiresAt = r.hardExpiresAt := by
  obtain ⟨s₂, r₂, h₂, hl₂, hr₂, hid₂, hhard⟩ := request_of_lease h hread
  rw [hhard, same_request h h₂ hl₂ hr hr₂ (hid.trans hid₂.symm)]

/-- A renewal reads the clock after the request it renews was stored, and has read the hard end
of that request. -/
lemma renewal_after_send (h : Reach P ((service D).start (World.init .empty t₀)) s) {i : ℕ}
    {sender : Text} {input : RenewLiveChatRequestInput} {row : LeaseRow} {t : ℤ} {m : ℕ}
    (hpast : own i s.log = renewPast sender input row t m) {r : ChatRecord}
    (hr : r ∈ s.world.db.chats.rows) (hid : r.requestId = input.requestId.toText) :
    row.hardExpiresAt = r.hardExpiresAt ∧ ∃ c, r.createdAt = toRfc3339 c ∧ c ≤ t := by
  obtain ⟨post, pre, hlog, hpre⟩ := own_eq_cons hpast
  obtain ⟨s₁, _, ch, h₁, rfl, -, -, -, -, hclock, heff, hrest⟩ := exec_of_log h hlog
  have hl₁ := hrest.log_suffix.subset
  have hread : .exec i ⟨.select (.lease input.requestId.toText input.leaseId.toText sender),
      .ok (some row)⟩ ∈ s₁.log := mem_own.mp (by simp [hpre])
  obtain ⟨s₂, r₂, h₂, hl₂, hr₂, hid₂, -⟩ := request_of_lease h₁ hread
  have hsame := same_request h h₂ (List.Subset.trans hl₂ hl₁) hr hr₂ (hid.trans hid₂.symm)
  obtain ⟨r₀, j, u, v, c, hsent, hr₀⟩ := (provenance h₂).chats r₂ hr₂
  obtain ⟨_, _, _, -, hsending⟩ := hsent.script
  refine ⟨hardExpiresAt_of_lease h (hl₁ hread) hr hid, c, ?_, ?_⟩
  · rw [hsame, hr₀]
    exact hsending.createdAt
  · calc c ≤ s₁.world.clock := reading_le_clock h₁ (hl₂ hsent.read)
      _ ≤ ch.reading := hclock
      _ = t := (heff.truthful trivial).symm

lemma seconds_le : seconds 90 ≤ seconds (15 * 60) := by decide

/-- A renewal leaves the row within its times. -/
lemma Timed.renew {c e : ℤ} {r₀ r : ChatRecord} {i : ℕ} {op : Op}
    (ht : Timed s.world.clock r₀ c e)
    (h : Reach P ((service D).start (World.init .empty t₀)) s)
    (hr₀ : r₀ ∈ s.world.db.chats.rows) (hr : r = { r₀ with leaseExpiresAt := r.leaseExpiresAt })
    (hi : op.Issues D (own i s.log) (.execute (.updateLease r.leaseExpiresAt r.requestId))) :
    ∃ e', Timed s.world.clock r c e' := by
  obtain ⟨ctx, sender, input, row, hard, t, m, -, -, hid, hhard, hlease, hpast⟩ := hi
  have hid₀ : r₀.requestId = input.requestId.toText := by
    rw [hr] at hid
    exact hid
  obtain ⟨hrow, c', hc', hle⟩ := renewal_after_send h hpast hr₀ hid₀
  have hcc : c = c' := by
    refine eq_of_parse ?_
    rw [← hc', ht.createdAt]
    exact parse_toRfc3339 ht.early.1
  have hend : hard = c + seconds (15 * 60) := by
    refine eq_of_parse ?_
    rw [← ht.hardExpiresAt, ← hrow]
    exact hhard
  have hclock : t ≤ s.world.clock :=
    reading_le_clock h (mem_own.mp (by simp [hpast, renewPast] : ⟨.now, t⟩ ∈ own i s.log))
  have hsec := seconds_le
  refine ⟨min (t + seconds 90) hard, ?_, hlease, ?_, ht.early, ?_, ?_, ?_⟩
  · rw [hr]
    exact ht.createdAt
  · rw [hr]
    exact ht.hardExpiresAt
  · subst hcc hend
    exact le_min (by omega) (by omega)
  · exact hend ▸ min_le_right _ _
  · exact (min_le_left _ _).trans (by omega)

/-- A send stores a row within its times. -/
lemma timed_of_send (h : Reach (Readings Early) ((service D).start (World.init .empty t₀)) s)
    {i : ℕ}
    {op : Op} {r : ChatRecord} (hi : op.Issues D (own i s.log) (.execute (.insertChat r))) :
    ∃ c e, Timed s.world.clock r c e := by
  obtain ⟨ctx, input, u, v, t, identitty, m, m', -, hs, -, hpast⟩ := hi
  have hnow : .exec i ⟨.now, t⟩ ∈ s.log := mem_own.mp (by simp [hpast, sendPast])
  have hclock := reading_le_clock h hnow
  refine ⟨t, t + seconds 90, hs.createdAt, hs.leaseExpiresAt, hs.hardExpiresAt,
    reading_of_now h hnow, le_rfl, ?_, ?_⟩
  · exact Int.add_le_add_left seconds_le t
  · exact Int.add_le_add_right hclock _

theorem timed (h : Reach (Readings Early) ((service D).start (World.init .empty t₀)) s) :
    ∀ r ∈ s.world.db.chats.rows, ∃ c e, Timed s.world.clock r c e := by
  refine service_invariant h (fun w _ => ∀ r ∈ w.db.chats.rows, ∃ c e, Timed w.clock r c e)
    (by simp [World.init, Db.empty]) ?_ ?_ ?_ ?_
  · exact fun s i op _ _ ih => ih
  · intro s i op e ch w' hreach hcall ha hi hle hP heff ih r hr
    have hkept : ∀ r ∈ s.world.db.chats.rows, ∃ c e, Timed w'.clock r c e := fun r hr => by
      obtain ⟨c, e, ht⟩ := ih r hr
      exact ⟨c, e, ht.mono (heff.clock ▸ hle)⟩
    rcases (locking hreach).change ha hi heff with hdb | ⟨u, n, rfl, hu⟩ |
      ⟨_, _, _, _, _, _, -, -, -, hu⟩
    · exact hkept r (hdb ▸ hr)
    · rw [Write.chats_apply hu] at hr
      rcases Write.mem_chatRows hr with ⟨r₀, hr₀, heq, rfl | rfl⟩ | rfl
      · exact hkept r hr₀
      · obtain ⟨c, e, ht⟩ := ih r₀ hr₀
        obtain ⟨e', ht'⟩ := ht.renew hreach hr₀ heq hi
        exact ⟨c, e', ht'.mono (heff.clock ▸ hle)⟩
      · obtain ⟨c, e, ht⟩ := timed_of_send hreach hi
        exact ⟨c, e, ht.mono (heff.clock ▸ hle)⟩
    · rw [loginUpdate] at hu
      rw [Write.chats_apply hu] at hr
      exact hkept r hr
  · exact fun s i op r _ _ _ ih => ih
  · exact fun s _ ih => ih

/-! ### Every row is sound -/

/-- What a send has learnt about its payload. -/
lemma payload_bounds {value : Text} {payload : List UInt8} (h : decodePayload value = .ok payload) :
    1 ≤ payload.length ∧ payload.length ≤ 16384 := by
  rw [decodePayload] at h
  cases hb : Base64.decode value with
  | none => rw [hb] at h; cases h
  | some bytes =>
    rw [hb] at h
    simp only at h
    split_ifs at h with hbad
    cases h
    rw [not_or, ← ne_eq, ← List.length_pos_iff] at hbad
    omega

/-- The key that a send reads for its sender stays the sender's key. -/
lemma sender_of_read (h : Reach P ((service D).start (World.init .empty t₀)) s) {i : ℕ}
    {accountId : Text} {key : List UInt8}
    (hq : .exec i ⟨.select (.publicKey accountId), .ok (some key)⟩ ∈ s.log) :
    ∃ a ∈ s.world.db.accounts.rows, a.accountId = accountId ∧ a.publicKey = key := by
  obtain ⟨post, pre, hlog⟩ := List.append_of_mem hq
  obtain ⟨s₁, _, ch, h₁, -, -, -, -, -, -, heff, h₂⟩ := exec_of_log h hlog
  obtain ⟨a, ha, hkey⟩ := Option.map_eq_some_iff.mp (heff.truthful trivial).symm
  have hid := List.find?_some ha
  simp only [decide_eq_true_eq] at hid
  exact ⟨a, (accounts_grow h₁ h₂).subset (List.mem_of_find?_eq_some ha), hid, hkey⟩

lemma sound_of_timed (h : Reach P ((service D).start (World.init .empty t₀)) s) {r : ChatRecord}
    (hr : r ∈ s.world.db.chats.rows) {c e : ℤ} (ht : Timed s.world.clock r c e) :
    r.Sound s.world.db s.world.clock := by
  obtain ⟨r₀, j, u, v, t, hsent, heq⟩ := (provenance h).chats r hr
  obtain ⟨ctx, input, identitty, -, hs⟩ := hsent.script
  have hpos : (0 : ℤ) ≤ seconds 90 := by decide
  have hc : parseFromRfc3339 r.createdAt = some c := ht.createdAt ▸ parse_toRfc3339 ht.early.1
  have hhard := parse_toRfc3339 ht.early.2
  rw [← ht.hardExpiresAt] at hhard
  have he : parseFromRfc3339 r.leaseExpiresAt = some e := by
    rw [ht.leaseExpiresAt]
    have hle := ht.least
    exact parse_toRfc3339 (ht.early.1.between ht.early.2 (by omega) ht.most)
  have hu : Uuid.parse r.requestId = some u := by
    rw [heq, hs.requestId, Uuid.parse_toText]
  have hv : Uuid.parse r.leaseId = some v := by
    rw [heq, hs.leaseId, Uuid.parse_toText]
  have hw : Uuid.parse r.clientRequestId = some input.clientRequestId := by
    rw [heq, hs.clientRequestId, Uuid.parse_toText]
  refine ⟨?_, ?_, (s.world.db.chat_accounts r hr).2, ?_,
    ⟨c, e, hc, he, hhard, ht.least, ht.most, ht.recent⟩, ⟨u, v, _, hu, hv, hw⟩, fun identitty => ?_,
    ?_, ?_⟩
  · rw [heq]
    exact hs.distinct.symm
  · rw [heq]
    exact sender_of_read h hsent.key
  · rw [heq]
    exact payload_bounds hs.payload
  · simp only [LiveChatRequestRow.intoModel, parseUuid, hu, parseDatetime, hc, he]
    exact ⟨_, rfl⟩
  · simp only [ExistingRequestRow.intoSubmission, parseUuid, hu, hv, parseDatetime, he]
    exact ⟨_, rfl⟩
  · exact ⟨_, parseDatetime_eq_ok.mpr hhard⟩

/-- SQLite calls an instant past, at the latest, `δ` after it. -/
def Resolution (D : Deployment) (δ : ℤ) : Prop :=
  ∀ now e, InEra now → InEra e → After D now (toRfc3339 e) = true → now < e + δ

/-- Every row of every reachable state is sound, no two share an id or the id that their sender
gave, and no request is listed 15 minutes or more after it was made, as far as SQLite resolves
instants. -/
theorem chat_rows_sound (h : Reach (Readings Early) ((service D).start (World.init .empty t₀)) s) :
    (∀ r ∈ s.world.db.chats.rows, r.Sound s.world.db s.world.clock) ∧
    s.world.db.chats.rows.Pairwise (fun a b => a.requestId ≠ b.requestId ∧ a.leaseId ≠ b.leaseId ∧
      ¬ (a.senderAccountId = b.senderAccountId ∧ a.clientRequestId = b.clientRequestId)) ∧
    ∀ δ, Resolution D δ → ∀ account now, InEra now →
      ∀ row ∈ Select.eval D now s.world.db (.liveChatRequests account),
        ∃ c, parseFromRfc3339 row.createdAt = some c ∧ now < c + seconds (15 * 60) + δ := by
  have htimed := timed h
  refine ⟨fun r hr => ?_, ?_, fun δ hres account now hnow row hrow => ?_⟩
  · obtain ⟨c, e, ht⟩ := htimed r hr
    exact sound_of_timed h hr ht
  · refine s.world.db.chats.distinct.imp fun {a b} hab => ?_
    simpa only [ChatRecord.Clash, not_or] using hab
  · obtain ⟨r, hr, -, hactive, hjoin⟩ := Select.mem_liveChatRequests D hrow
    obtain ⟨c, e, ht⟩ := htimed r hr
    obtain ⟨a, -, rfl⟩ := Option.map_eq_some_iff.mp hjoin
    refine ⟨c, ht.createdAt ▸ parse_toRfc3339 ht.early.1, ?_⟩
    simp only [ChatRecord.Active, Bool.and_eq_true] at hactive
    exact hres now _ hnow ht.early.2 (ht.hardExpiresAt ▸ hactive.2)

namespace Known

/-- Ada sends Bob a request at the instant `t`. -/
def sendAt (t : ℤ) : List (Action Op Choice) :=
  whole (register "ada".toList ada adaKey) 0 3 t ⟨0⟩ ++
    whole (register "bob".toList bob bobKey) 1 3 t ⟨0⟩ ++
    .call (.sendLiveChatRequest (session ada) ⟨"bob".toList, ⟨7⟩, "AA==".toList⟩) ::
    ((List.range 10).map fun n => .step 2 (fine t ⟨.ofNat 128 n⟩)) ++ [.respond 2]

/-- 9999-12-31T23:50:00Z -/
def lastMinutes : ℤ := 253402300200000000000

lemma sendAt_lastMinutes :
    (((service deployment).start (World.init .empty lastMinutes)).take (sendAt lastMinutes)).map
      (fun s => s.world.db.chats.rows.map fun r => parseFromRfc3339 r.hardExpiresAt) =
      some [none] := by
  decide +kernel

lemma sendAt_newYear :
    (((service deployment).start (World.init .empty newYear)).take (sendAt newYear)).map
      (fun s => (s.world.db.chats.rows.map ChatRecord.requestId,
        (Select.eval deployment newYear s.world.db (.liveChatRequests bob)).map
          LiveChatRequestRow.requestId)) =
      some ([Uuid.toText ⟨5⟩], [Uuid.toText ⟨5⟩]) := by
  decide +kernel

end Known

lemma Known.resolution : Resolution Known.deployment 0 := by
  intro now e _ he h
  have hlt : now / 1000000 + 210866760000000 < e / 1000000 + 210866760000000 := by
    simpa [After, Known.deployment, parse_toRfc3339 he] using h
  omega

open Known in
theorem chat_rows_sound_send : ∃ s : Service deployment,
    s.world.db.chats.rows.map ChatRecord.requestId = [Uuid.toText ⟨5⟩] ∧
      (∀ r ∈ s.world.db.chats.rows, r.Sound s.world.db s.world.clock) ∧
      ∃ row ∈ Select.eval deployment newYear s.world.db (.liveChatRequests bob),
        ∃ c, parseFromRfc3339 row.createdAt = some c ∧ newYear < c + seconds (15 * 60) + 0 := by
  obtain ⟨s, hs, hans⟩ := Option.map_eq_some_iff.mp sendAt_newYear
  obtain ⟨hrows, hlist⟩ := Prod.mk.inj hans
  have hearly : ∀ a ∈ sendAt newYear, Reading Early a := by decide
  obtain ⟨hsound, -, hlisted⟩ := chat_rows_sound (Reach.refl.take (fun a ha _ => hearly a ha) hs)
  obtain ⟨row, hrow, -⟩ := List.mem_map.mp (hlist ▸ List.mem_singleton_self (Uuid.toText ⟨5⟩))
  exact ⟨s, hrows, hsound, row, hrow, hlisted 0 resolution bob newYear (by decide) row hrow⟩

open Known in
/-- A row made in the last minutes of the year 9999 has an end that is not read back. -/
theorem chat_rows_not_sound : ∃ s : Service deployment,
    Reach (Readings InEra) ((service deployment).start (World.init .empty lastMinutes)) s ∧
      ¬ ∀ r ∈ s.world.db.chats.rows, r.Sound s.world.db s.world.clock := by
  obtain ⟨s, hs, hans⟩ := Option.map_eq_some_iff.mp sendAt_lastMinutes
  have hinEra : ∀ a ∈ sendAt lastMinutes, Reading InEra a := by decide
  refine ⟨s, Reach.refl.take (fun a ha _ => hinEra a ha) hs, fun hsound => ?_⟩
  obtain ⟨r, hr, hhard⟩ := List.mem_map.mp (hans ▸ List.mem_singleton_self none)
  obtain ⟨c, e, -, -, hsome, -⟩ := (hsound r hr).times
  rw [hhard] at hsome
  cases hsome

end TittyBackend
