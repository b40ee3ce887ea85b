import Mathlib.Data.Fintype.EquivFin
import OsModa.Agentd.ApprovalApi
import OsModa.Agentd.Capability
import OsModa.Agentd.Lifecycle

/-!
Where agentd panics on what a client sends.

A command is shortened for the text of its rejection at byte 200, which may lie inside
a character (`rejects_iff`). A lifetime in seconds is added to the time of the request,
which may leave the range of a duration or of a date; a capability's is first cast to a
signed number, and an expiry after the year 9999 is written but not read back
(`ttl_safe_iff`).
-/

namespace OsModa.Agentd

open OsModa.Text

/-! ### The rejection of a command -/

section Rejection

variable (u : Unicode) (g : ApprovalGate) (command : String) (approvalId : Option String)

/-- The id names an approved row of this very command. -/
def Approves : Prop :=
  ∃ id row, approvalId = some id ∧ id ≠ "" ∧ g.rows.find? id = some row ∧
    row.status = .approved ∧ row.command = command

/-- The gate answers with an error, and the API with a rejection that carries its text. -/
def Rejects : Prop :=
  ∃ e, g.checkAndReject u command approvalId = .err e ∧
    (approvalCheckCommandHandler u (some g) ⟨command, approvalId⟩).1 =
      .json 200 (ApprovalCheckResponse.toJson ⟨false, true, some e⟩)

/-- What the rejection needs: without an id, that the command can be cut at byte 200, and
with one, that the lock can be taken. -/
def Rejectable : Prop :=
  match approvalId.filter (· ≠ "") with
  | none => byteLen command.toList ≤ 200 ∨ IsCharBoundary command.toList 200
  | some _ => g.poisoned = false

variable {u g command approvalId}

theorem truncate_isSome_iff {s : String} {max : Nat} :
    (truncate s max).isSome = true ↔ byteLen s.toList ≤ max ∨ IsCharBoundary s.toList max := by
  unfold truncate
  split
  · rename_i hshort
    exact iff_of_true rfl (Or.inl hshort)
  · rename_i hlong
    rw [Option.isSome_map, sliceTo_isSome_iff, or_iff_right hlong]

/-- A destructive command that is not let through is rejected or panics. -/
theorem rejects_iff_not_panic (hdestructive : isDestructive u g.extraPatterns command = true)
    (hunapproved : ¬Approves g command approvalId) :
    Rejects u g command approvalId ↔ g.checkAndReject u command approvalId ≠ .panic := by
  have hdenied : g.checkAndReject u command approvalId ≠ .ok () := fun hok =>
    hunapproved ((ApprovalGate.checkAndReject_ok_iff u hdestructive).mp hok).2
  unfold Rejects approvalCheckCommandHandler
  cases hresult : g.checkAndReject u command approvalId with
  | ok => exact absurd hresult hdenied
  | panic => simp
  | err e => simp [hdestructive, hresult]

theorem checkAndReject_ne_panic_iff
    (hdestructive : isDestructive u g.extraPatterns command = true) :
    g.checkAndReject u command approvalId ≠ .panic ↔ Rejectable g command approvalId := by
  unfold ApprovalGate.checkAndReject Rejectable
  rw [hdestructive]
  cases approvalId.filter (· ≠ "") with
  | none =>
    rw [← truncate_isSome_iff]
    cases truncate command 200 <;> simp
  | some id =>
    cases hpoisoned : g.poisoned with
    | true => simp [ApprovalGate.checkApproval, hpoisoned]
    | false =>
      simp only [ApprovalGate.checkApproval, hpoisoned]
      cases g.rows.find? id with
      | none => simp
      | some row =>
        simp only [Bool.false_eq_true, if_false]
        split_ifs <;> simp

/-- **When a destructive command is rejected.** Without an approval it always should be;
it is, unless its byte 200 lies inside a character or an id is looked up in a gate whose
lock is poisoned. -/
theorem rejects_iff (hdestructive : isDestructive u g.extraPatterns command = true)
    (hunapproved : ¬Approves g command approvalId) :
    Rejects u g command approvalId ↔ Rejectable g command approvalId :=
  (rejects_iff_not_panic hdestructive hunapproved).trans
    (checkAndReject_ne_panic_iff hdestructive)

end Rejection

/-- A removal of a name that is 192 letters long and one of two bytes. -/
def accentedRemoval : String :=
  String.ofList ("rm -rf ".toList ++ (List.replicate 192 'a' ++ ['é']))

theorem plainRemoval_rejects :
    Rejects Unicode.ascii (.new []) "rm -rf /srv" none := by
  have hunapproved : ¬Approves (.new []) "rm -rf /srv" none := by
    rintro ⟨_, _, hid, -⟩
    cases hid
  exact (rejects_iff (by decide) hunapproved).mpr (Or.inl (by decide))

theorem accentedRemoval_panics :
    isDestructive Unicode.ascii [] accentedRemoval = true ∧
      ¬Rejects Unicode.ascii (.new []) accentedRemoval none := by
  have hchars : accentedRemoval.toList = _ := String.toList_ofList
  have hdestructive : isDestructive Unicode.ascii [] accentedRemoval = true := by
    unfold isDestructive normalizeCommand
    rw [hchars]
    decide +kernel
  have hcut : truncate accentedRemoval 200 = none := by
    unfold truncate
    rw [hchars]
    decide +kernel
  refine ⟨hdestructive, ?_⟩
  rintro ⟨e, herr, -⟩
  have hgate : isDestructive Unicode.ascii (ApprovalGate.new []).extraPatterns accentedRemoval =
      true := hdestructive
  rw [checkAndReject_none, if_pos hgate, hcut] at herr
  cases herr

/-! ### The lifetime of an approval -/

section Lifetimes

/-- The texts of a request are not too long. -/
def WithinLimits (command actor reason : String) : Prop :=
  byteLen command.toList ≤ 4096 ∧ byteLen actor.toList ≤ 256 ∧ byteLen reason.toList ≤ 1024

/-- There is a date that many seconds later. -/
def ExpiryInRange (now : DateTime) (ttl : Int) : Prop :=
  minNanos ≤ now.nanos + ttl * 1000000000 ∧ now.nanos + ttl * 1000000000 ≤ maxNanos

/-- No two dates are further apart than a duration can be, so that the range of the dates is
the one that counts. -/
theorem exists_addSeconds_iff {now : DateTime} {ttl : Int} :
    (∃ expiry, now.addSeconds ttl = some expiry) ↔ ExpiryInRange now ttl := by
  simp only [DateTime.addSeconds_eq_some_iff]
  constructor
  · rintro ⟨expiry, -, hexpiry⟩
    have hrange := expiry.inRange
    rwa [hexpiry] at hrange
  · intro hrange
    refine ⟨⟨_, hrange⟩, ?_, rfl⟩
    have hnow := now.inRange
    unfold ExpiryInRange at hrange
    unfold minNanos maxNanos at hrange hnow
    omega

/-- Requests succeed that are within the limits, with a new identifier and an expiry in
range. -/
def Usable (g : ApprovalGate) : Prop :=
  ∀ (now : DateTime) (id command actor reason : String) (ttlSecs : Option Int64),
    WithinLimits command actor reason → ExpiryInRange now (ttlSecs.getD defaultTtlSecs).toInt →
      g.rows.find? id = none → (g.requestApproval now id command actor reason ttlSecs).1.IsOk

/-- The request leaves the gate usable, and fails or stores the instant that many seconds
later as its expiry. -/
def RequestSafe (g : ApprovalGate) (now : DateTime) (id command actor reason : String)
    (ttlSecs : Option Int64) : Prop :=
  Usable (g.requestApproval now id command actor reason ttlSecs).2 ∧
    ((∃ e, (g.requestApproval now id command actor reason ttlSecs).1 = .err e) ∨
      ∃ (row : PendingApproval) (expiry : DateTime),
        (g.requestApproval now id command actor reason ttlSecs).1 = .ok row ∧
        row.expiresAt = expiry.toRfc3339 ∧
        expiry.nanos = now.nanos + (ttlSecs.getD defaultTtlSecs).toInt * 1000000000)

variable {g : ApprovalGate} {now : DateTime} {id command actor reason : String}
  {ttlSecs : Option Int64}

theorem newRow_eq_none_iff :
    ApprovalGate.newRow now id command actor reason ttlSecs = none ↔
      ¬ExpiryInRange now (ttlSecs.getD defaultTtlSecs).toInt := by
  rw [← exists_addSeconds_iff, ApprovalGate.newRow, Option.map_eq_none_iff,
    ← Option.ne_none_iff_exists', Ne, not_not]

theorem requestApproval_within (hlimits : WithinLimits command actor reason) :
    g.requestApproval now id command actor reason ttlSecs =
      g.withConn (match ApprovalGate.newRow now id command actor reason ttlSecs with
        | none => (.panic, { g with poisoned := true })
        | some row =>
          match g.rows.insert? row with
          | none => (.err "failed to insert pending approval", g)
          | some rows => (.ok row, { g with rows := rows })) :=
  requestApproval_eq hlimits.1 hlimits.2.1 hlimits.2.2

theorem requestApproval_beyond (hlimits : ¬WithinLimits command actor reason) :
    ∃ e, g.requestApproval now id command actor reason ttlSecs = (.err e, g) := by
  unfold ApprovalGate.requestApproval
  split_ifs with hcommand hactor hreason
  · exact ⟨_, rfl⟩
  · exact ⟨_, rfl⟩
  · exact ⟨_, rfl⟩
  · exact absurd ⟨Nat.not_lt.mp hcommand, Nat.not_lt.mp hactor, Nat.not_lt.mp hreason⟩ hlimits

/-- A gate has finitely many identifiers. -/
theorem exists_unused (g : ApprovalGate) : ∃ id, g.rows.find? id = none := by
  have : Infinite String := Infinite.of_injective String.ofList fun _ _ => String.ofList_inj.mp
  obtain ⟨id, hid⟩ := Infinite.exists_notMem_finset (g.rows.rows.map PendingApproval.id).toFinset
  refine ⟨id, Table.find?_eq_none.mpr ?_⟩
  simpa using hid

theorem usable_iff : Usable g ↔ g.poisoned = false := by
  constructor
  · intro husable
    obtain ⟨id, hid⟩ := exists_unused g
    have hlimits : WithinLimits "" "" "" := by
      unfold WithinLimits
      decide
    have hrange : ExpiryInRange ⟨0, DateTime.zero_inRange⟩ defaultTtlSecs.toInt := by
      unfold ExpiryInRange
      decide
    have hok := husable _ id "" "" "" none hlimits hrange hid
    by_contra hpoisoned
    rw [requestApproval_within hlimits,
      ApprovalGate.withConn_of_poisoned (Bool.eq_true_of_not_eq_false hpoisoned)] at hok
    exact hok
  · intro hpoisoned now id command actor reason ttlSecs hlimits hrange hid
    cases hrow : ApprovalGate.newRow now id command actor reason ttlSecs with
    | none => exact absurd hrange (newRow_eq_none_iff.mp hrow)
    | some row =>
      rw [requestApproval_of_row hlimits.1 hlimits.2.1 hlimits.2.2 hpoisoned hrow]
      cases hinsert : g.rows.insert? row with
      | some rows => exact trivial
      | none =>
        refine absurd hid ?_
        obtain ⟨expiry, -, rfl⟩ := Option.map_eq_some_iff.mp hrow
        exact Table.insert?_eq_none.mp hinsert

/-- A request is safe on a gate whose lock is sound, unless it gets as far as an expiry that
is out of range. -/
theorem requestSafe_iff :
    RequestSafe g now id command actor reason ttlSecs ↔
      g.poisoned = false ∧ (WithinLimits command actor reason →
        ExpiryInRange now (ttlSecs.getD defaultTtlSecs).toInt) := by
  unfold RequestSafe
  rw [usable_iff]
  by_cases hlimits : WithinLimits command actor reason
  · rw [iff_true_intro hlimits, true_implies]
    cases hpoisoned : g.poisoned with
    | true => simp [requestApproval_within hlimits, hpoisoned]
    | false =>
      cases hrow : ApprovalGate.newRow now id command actor reason ttlSecs with
      | none =>
        rw [requestApproval_within hlimits, ApprovalGate.withConn_of_not_poisoned hpoisoned, hrow]
        simp [newRow_eq_none_iff.mp hrow]
      | some row =>
        have hrange : ExpiryInRange now (ttlSecs.getD defaultTtlSecs).toInt := by
          by_contra hrange
          rw [newRow_eq_none_iff.mpr hrange] at hrow
          cases hrow
        obtain ⟨expiry, hexpiry, hfields⟩ := Option.map_eq_some_iff.mp hrow
        have hnanos := (DateTime.addSeconds_eq_some_iff.mp hexpiry).2
        rw [requestApproval_of_row hlimits.1 hlimits.2.1 hlimits.2.2 hpoisoned hrow]
        refine iff_of_true ?_ ⟨rfl, hrange⟩
        cases hinsert : g.rows.insert? row with
        | none => exact ⟨hpoisoned, Or.inl ⟨_, rfl⟩⟩
        | some rows => exact ⟨hpoisoned, Or.inr ⟨row, expiry, rfl, hfields ▸ rfl, hnanos⟩⟩
  · obtain ⟨e, he⟩ := @requestApproval_beyond g now id _ _ _ ttlSecs hlimits
    rw [he]
    simp [hlimits]

/-- The lock is poisoned by the requests that get as far as an expiry out of range. -/
theorem poisons_eq_false_iff {call : ApprovalCall} :
    poisons call = false ↔ ∀ id command actor reason ttlSecs,
      call.op = .requestApproval id command actor reason ttlSecs →
        WithinLimits command actor reason →
          ExpiryInRange call.now (ttlSecs.getD defaultTtlSecs).toInt := by
  obtain ⟨now, op⟩ := call
  cases op with
  | requestApproval id command actor reason ttlSecs =>
    have hrow := @newRow_eq_none_iff now id command actor reason ttlSecs
    unfold poisons
    constructor
    · rintro hsound _ _ _ _ _ ⟨⟩ ⟨hcommand, hactor, hreason⟩
      by_contra hrange
      simp [hcommand, hactor, hreason, hrow.mpr hrange] at hsound
    · intro hsafe
      by_contra hpoisons
      simp only [Bool.not_eq_false, Bool.and_eq_true, decide_eq_true_eq,
        Option.isNone_iff_eq_none, hrow] at hpoisons
      obtain ⟨⟨⟨hcommand, hactor⟩, hreason⟩, hrange⟩ := hpoisons
      exact hrange (hsafe _ _ _ _ _ rfl ⟨hcommand, hactor, hreason⟩)
  | _ => exact iff_of_true rfl nofun

/-- After a run from a new gate requests succeed if and only if every request of the run was
safe. -/
theorem usable_final_iff (u : Unicode) (extraPatterns : List String) (calls : List ApprovalCall) :
    Usable (Machine.final (ApprovalGate.apply u) calls (.new extraPatterns)) ↔
      ∀ call ∈ calls, ∀ id command actor reason ttlSecs,
        call.op = .requestApproval id command actor reason ttlSecs →
          WithinLimits command actor reason →
            ExpiryInRange call.now (ttlSecs.getD defaultTtlSecs).toInt := by
  rw [usable_iff, final_poisoned]
  simp only [← poisons_eq_false_iff]
  simp [ApprovalGate.new]

end Lifetimes

/-! ### The lifetime of a capability -/

section Capabilities

variable (hmacSha256 : List UInt8 → List UInt8 → List UInt8)
  (parseRfc3339 : String → Option DateTime) (hmacKey : Encoding.Bytes32)

/-- What is written for an instant is read back as this instant if the year has four digits,
and not at all otherwise. -/
def ReadsBack (t : DateTime) : Prop :=
  parseRfc3339 t.toRfc3339 = if t.isReadable then some t else none

/-- The expiry of the token is the instant that many seconds later, and the token is accepted
until then and not after. -/
def MintSafe (call : MintCall) : Prop :=
  ∃ (token : CapabilityToken) (expiry : DateTime),
    mintCapability hmacSha256 hmacKey call = some token ∧
    token.expiresAt = expiry.toRfc3339 ∧
    expiry.nanos = call.now.nanos + call.ttlSecs.toNat * 1000000000 ∧
    ∀ now, verifyCapability hmacSha256 parseRfc3339 hmacKey now token = .ok (decide (now ≤ expiry))

/-- The instant that many seconds later is in one of the years 0 to 9999. -/
def ExpiryReadable (call : MintCall) : Prop :=
  -62167219200 * 1000000000 ≤ call.now.nanos + call.ttlSecs.toNat * 1000000000 ∧
    call.now.nanos + call.ttlSecs.toNat * 1000000000 < 253402300800 * 1000000000

variable {hmacSha256 parseRfc3339 hmacKey} {call : MintCall}

/-- A token of this engine is accepted until the expiry that is read from it. -/
theorem verify_minted {token : CapabilityToken} {expiry : DateTime}
    (hmint : mintCapability hmacSha256 hmacKey call = some token)
    (hread : parseRfc3339 token.expiresAt = some expiry) (now : DateTime) :
    verifyCapability hmacSha256 parseRfc3339 hmacKey now token = .ok (decide (now ≤ expiry)) := by
  have hsigned := (mintCapability_eq_some hmacSha256 hmacKey hmint).2.2
  unfold verifyCapability
  rw [hread, hsigned]
  simp only [beq_self_eq_true]
  split
  · rename_i hlate
    rw [decide_eq_false (DateTime.not_le.mpr hlate)]
  · rename_i hearly
    have hle : now ≤ expiry := by
      by_contra hlate
      exact hearly (DateTime.not_le.mp hlate)
    rw [decide_eq_true hle]

/-- Below 2^63 the cast to a signed number keeps the number of seconds. -/
theorem toInt_toInt64 {n : UInt64} (h : n.toNat < 2 ^ 63) : n.toInt64.toInt = n.toNat := by
  have hsmall : 2 * n.toBitVec.toNat < 2 ^ 64 := by
    rw [UInt64.toNat_toBitVec]
    omega
  exact BitVec.toInt_eq_toNat_of_lt hsmall

/-- A capability is safe when its expiry is in one of the years that are read back. This also
keeps the cast, the duration and the date in their ranges. -/
theorem mintSafe_iff
    (hread : ∀ t, call.now.addSeconds call.ttlSecs.toInt64.toInt = some t →
      ReadsBack parseRfc3339 t) :
    MintSafe hmacSha256 parseRfc3339 hmacKey call ↔ ExpiryReadable call := by
  constructor
  · rintro ⟨token, expiry, hmint, htext, hexact, haccepted⟩
    obtain ⟨stored, hstored, hfields⟩ := Option.map_eq_some_iff.mp hmint
    have hback := hread stored hstored
    have hexpires : token.expiresAt = stored.toRfc3339 := by rw [← hfields]
    unfold ReadsBack at hback
    rw [← hexpires] at hback
    cases hreadable : stored.isReadable with
    | false =>
      have hverify := haccepted expiry
      unfold verifyCapability at hverify
      simp [hback, hreadable] at hverify
    | true =>
      rw [hreadable, if_pos rfl] at hback
      -- Both instants are the last one at which the token is accepted.
      have hsame : ∀ now, decide (now ≤ stored) = decide (now ≤ expiry) := by
        intro now
        have hverify := haccepted now
        rw [verify_minted hmint hback] at hverify
        exact Except.ok.inj hverify
      have hle : stored.nanos ≤ expiry.nanos :=
        (decide_eq_decide.mp (hsame stored)).mp (Int.le_refl _)
      have hge : expiry.nanos ≤ stored.nanos :=
        (decide_eq_decide.mp (hsame expiry)).mpr (Int.le_refl _)
      unfold ExpiryReadable
      rw [← hexact, ← le_antisymm hle hge]
      exact DateTime.isReadable_iff.mp hreadable
  · intro hyears
    have hnow := call.now.inRange
    unfold ExpiryReadable at hyears
    have hcast : call.ttlSecs.toInt64.toInt = call.ttlSecs.toNat := by
      refine toInt_toInt64 ?_
      unfold minNanos at hnow
      omega
    have hrange : ExpiryInRange call.now call.ttlSecs.toInt64.toInt := by
      rw [hcast]
      unfold ExpiryInRange minNanos maxNanos
      omega
    obtain ⟨expiry, hexpiry⟩ := exists_addSeconds_iff.mpr hrange
    have hnanos := (DateTime.addSeconds_eq_some_iff.mp hexpiry).2
    have hback := hread expiry hexpiry
    rw [hcast] at hnanos
    unfold ReadsBack at hback
    rw [DateTime.isReadable_iff.mpr (hnanos ▸ hyears), if_pos rfl] at hback
    have hmint : mintCapability hmacSha256 hmacKey call = some _ :=
      Option.map_eq_some_iff.mpr ⟨expiry, hexpiry, rfl⟩
    exact ⟨_, expiry, hmint, rfl, hnanos, verify_minted hmint hback⟩

/-- **When a lifetime is safe.** A request never panics nor moves its expiry, and leaves the
gate usable, when the lock was sound and there is a date at its expiry; a capability is
accepted up to its expiry, and not after it, when that is in the years 0 to 9999. -/
theorem ttl_safe_iff
    (hread : ∀ t, call.now.addSeconds call.ttlSecs.toInt64.toInt = some t →
      ReadsBack parseRfc3339 t) :
    (∀ g now id command actor reason ttlSecs,
      RequestSafe g now id command actor reason ttlSecs ↔
        g.poisoned = false ∧ (WithinLimits command actor reason →
          ExpiryInRange now (ttlSecs.getD defaultTtlSecs).toInt)) ∧
    (MintSafe hmacSha256 parseRfc3339 hmacKey call ↔ ExpiryReadable call) :=
  ⟨fun _ _ _ _ _ _ _ => requestSafe_iff, mintSafe_iff hread⟩

end Capabilities

theorem mintNetwork_safe : MintSafe hmacOfMinted parseOneHour testKey (mintAtZero ["network"]) := by
  refine (ttl_safe_iff (fun t ht => ?_)).2.mpr (by unfold ExpiryReadable; decide)
  have hnanos := (DateTime.addSeconds_eq_some_iff.mp ht).2
  obtain rfl : t = ⟨3600 * 1000000000, DateTime.hour_inRange⟩ := by
    cases t
    cases hnanos
    rfl
  unfold ReadsBack
  decide +kernel

/-- A request for the longest lifetime panics and poisons the lock, so that the next request
panics as well. A capability for the longest lifetime has expired before it is minted. -/
theorem longest_unsafe :
    let t : DateTime := ⟨0, DateTime.zero_inRange⟩
    let request := (ApprovalGate.new []).requestApproval t "a" "reboot" "agent" "update"
    let longest := { mintAtZero ["network"] with ttlSecs := 18446744073709551615 }
    (request (some 9223372036854775807)).1 = .panic ∧
      ((request (some 9223372036854775807)).2.requestApproval t "b" "reboot" "agent" "update"
        none).1 = .panic ∧
      ¬RequestSafe (.new []) t "a" "reboot" "agent" "update" (some 9223372036854775807) ∧
      (mintCapability hmacOfMinted testKey longest).map (·.expiresAt) =
        some "1969-12-31T23:59:59+00:00" ∧
      ¬MintSafe hmacOfMinted parseOneHour testKey longest := by
  refine ⟨by decide +kernel, by decide +kernel, ?_, by decide +kernel, ?_⟩
  · rw [requestSafe_iff]
    unfold WithinLimits ExpiryInRange
    decide +kernel
  · rintro ⟨token, expiry, -, -, hexact, -⟩
    have hmax := expiry.inRange.2
    rw [hexact] at hmax
    revert hmax
    decide +kernel

end OsModa.Agentd
