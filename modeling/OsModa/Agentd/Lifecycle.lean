import OsModa.Base.Machine
import OsModa.Agentd.Approval

/-!
Runs of the approval gate: any sequence of its operations, each with the clock
reading it takes, from a new gate.

The abstract picture is one request at a time. A request is open until the first
call that decides it (`verdict`), and keeps that decision for ever; `standing` is
the status this gives after a list of calls. `find?_apply_of_some` shows that one
operation does to every stored row exactly what the picture says, and
`standing_of_run` that a whole run does.

Main results: an authorization always rests on an earlier approval of that very
command (`approvals_sound`), and approvals are limited in time exactly in the runs
whose calls happen to come early enough (`timeLimited_iff_punctual`).
-/

namespace OsModa.Agentd

open OsModa.Text

/-! ### The machine -/

/-- The operations of the gate. A request carries the id that it draws. -/
inductive ApprovalOp where
  | requestApproval (id command actor reason : String) (ttlSecs : Option Int64)
  | approve (id decidedBy : String)
  | deny (id decidedBy : String)
  | expireStale
  | checkApproval (id : String)
  | listPending
  | checkAndReject (command : String) (approvalId : Option String)
  deriving DecidableEq

/-- An operation and the time at which it reads the clock. -/
structure ApprovalCall where
  now : DateTime
  op : ApprovalOp
  deriving DecidableEq

inductive ApprovalReply where
  | requested (result : Outcome PendingApproval)
  | decided (result : Outcome PendingApproval)
  | expired (result : Outcome Nat)
  | checked (result : Outcome (Option PendingApproval))
  | listed (result : Outcome (List PendingApproval))
  | gated (result : Outcome Unit)
  deriving DecidableEq

/-- An operation's result as a reply. -/
def reply {α : Type} (wrap : α → ApprovalReply) (r : α × ApprovalGate) :
    ApprovalReply × ApprovalGate := (wrap r.1, r.2)

@[simp] theorem reply_fst {α : Type} (wrap : α → ApprovalReply) (r : α × ApprovalGate) :
    (reply wrap r).1 = wrap r.1 := rfl

@[simp] theorem reply_snd {α : Type} (wrap : α → ApprovalReply) (r : α × ApprovalGate) :
    (reply wrap r).2 = r.2 := rfl

namespace ApprovalGate

/-- Serve one call. -/
def apply (u : Unicode) (call : ApprovalCall) (g : ApprovalGate) : ApprovalReply × ApprovalGate :=
  match call.op with
  | .requestApproval id command actor reason ttlSecs =>
    reply .requested (g.requestApproval call.now id command actor reason ttlSecs)
  | .approve id decidedBy => reply .decided (g.approve call.now id decidedBy)
  | .deny id decidedBy => reply .decided (g.deny call.now id decidedBy)
  | .expireStale => reply .expired (g.expireStale call.now)
  | .checkApproval id => (.checked (g.checkApproval id), g)
  | .listPending => (.listed g.listPending, g)
  | .checkAndReject command approvalId => (.gated (g.checkAndReject u command approvalId), g)

end ApprovalGate

abbrev ApprovalStep := Machine.Step ApprovalGate ApprovalCall ApprovalReply

/-- The steps of a run from a new gate. -/
def approvalRun (u : Unicode) (extraPatterns : List String) (calls : List ApprovalCall) :
    List ApprovalStep :=
  Machine.trace (ApprovalGate.apply u) calls (ApprovalGate.new extraPatterns)

/-! ### One request at a time -/

/-- The decision that a call takes about a request that is still pending. -/
def verdict (row : PendingApproval) (call : ApprovalCall) : Option ApprovalStatus :=
  match call.op with
  | .approve id _ => if row.id = id then some .approved else none
  | .deny id _ => if row.id = id then some .denied else none
  | .expireStale => if row.expiresAt < call.now.toRfc3339 then some .expired else none
  | _ => none

/-- What a call leaves of a row that is still pending. -/
def settle (row : PendingApproval) (call : ApprovalCall) : PendingApproval :=
  match call.op with
  | .approve id decidedBy =>
    if row.id = id then ApprovalGate.decideRow call.now .approved decidedBy row else row
  | .deny id decidedBy =>
    if row.id = id then ApprovalGate.decideRow call.now .denied decidedBy row else row
  | .expireStale =>
    if row.expiresAt < call.now.toRfc3339 then ApprovalGate.expireRow row else row
  | _ => row

/-- A request whose expiry time is out of range panics with the connection locked. -/
def poisons (call : ApprovalCall) : Bool :=
  match call.op with
  | .requestApproval id command actor reason ttlSecs =>
    byteLen command.toList ≤ 4096 && byteLen actor.toList ≤ 256 && byteLen reason.toList ≤ 1024 &&
      (ApprovalGate.newRow call.now id command actor reason ttlSecs).isNone
  | _ => false

/-- The status of a request after the calls that follow it: its first verdict.
`none` when one of them has poisoned the gate. -/
def standing (row : PendingApproval) (calls : List ApprovalCall) : Option ApprovalStatus :=
  if calls.any poisons then none else some ((calls.findSome? (verdict row)).getD .pending)

section Rows

variable (u : Unicode) {g : ApprovalGate} {call : ApprovalCall} {k : String}
  {row : PendingApproval}

@[simp] theorem settle_command : (settle row call).command = row.command := by
  unfold settle
  split <;> try split_ifs
  all_goals rfl

@[simp] theorem settle_id : (settle row call).id = row.id := by
  unfold settle
  split <;> try split_ifs
  all_goals rfl

@[simp] theorem settle_expiresAt : (settle row call).expiresAt = row.expiresAt := by
  unfold settle
  split <;> try split_ifs
  all_goals rfl

theorem settle_status : (settle row call).status = (verdict row call).getD row.status := by
  unfold settle verdict
  split <;> try split_ifs
  all_goals rfl

/-- Only an `approve` call with its id makes a pending row approved. -/
theorem settle_approved_iff (hpend : row.status = .pending) :
    (settle row call).status = .approved ↔ ∃ decidedBy, call.op = .approve row.id decidedBy := by
  have hverdict : (verdict row call).getD .pending = .approved ↔
      verdict row call = some .approved := by
    cases verdict row call <;> simp
  rw [settle_status, hpend, hverdict]
  unfold verdict
  constructor
  · intro h
    cases hop : call.op with
    | approve id decidedBy =>
      simp only [hop, ite_eq_left_iff, reduceCtorEq, imp_false, not_not] at h
      exact ⟨decidedBy, by rw [h]⟩
    | deny id decidedBy =>
      simp only [hop] at h
      split at h <;> cases h
    | expireStale =>
      simp only [hop] at h
      split at h <;> cases h
    | _ => simp [hop] at h
  · rintro ⟨decidedBy, hop⟩
    simp only [hop, if_true]

/-- Verdicts read only the id and the expiry of the row. -/
theorem verdict_settle (other : ApprovalCall) :
    verdict (settle row call) other = verdict row other := by
  unfold verdict
  simp only [settle_id, settle_expiresAt]

@[simp] theorem apply_extraPatterns : (g.apply u call).2.extraPatterns = g.extraPatterns := by
  unfold ApprovalGate.apply
  cases call.op with
  | requestApproval id command actor reason ttlSecs => exact g.requestApproval_extraPatterns
  | approve id decidedBy => exact g.decideAs_extraPatterns
  | deny id decidedBy => exact g.decideAs_extraPatterns
  | expireStale => exact g.expireStale_extraPatterns
  | checkApproval id => rfl
  | listPending => rfl
  | checkAndReject command approvalId => rfl

theorem apply_poisoned : (g.apply u call).2.poisoned = (g.poisoned || poisons call) := by
  unfold ApprovalGate.apply poisons
  cases call.op with
  | requestApproval id command actor reason ttlSecs => exact g.requestApproval_poisoned
  | approve id decidedBy => simpa [ApprovalGate.approve] using g.decideAs_poisoned
  | deny id decidedBy => simpa [ApprovalGate.deny] using g.decideAs_poisoned
  | expireStale => simpa using g.expireStale_poisoned
  | checkApproval id => simp
  | listPending => simp
  | checkAndReject command approvalId => simp

/-- A poisoned gate keeps its rows. -/
theorem apply_rows_of_poisoned (hp : g.poisoned = true) : (g.apply u call).2.rows = g.rows := by
  unfold ApprovalGate.apply
  cases call.op with
  | requestApproval id command actor reason ttlSecs =>
    refine ApprovalGate.requestApproval_rows_of_not_ok ?_
    intro hok
    obtain ⟨row, hrow⟩ := Outcome.isOk_iff.mp hok
    have := (ApprovalGate.requestApproval_of_ok hrow).1
    simp [hp] at this
  | approve id decidedBy => simp [ApprovalGate.approve, ApprovalGate.decideAs, hp]
  | deny id decidedBy => simp [ApprovalGate.deny, ApprovalGate.decideAs, hp]
  | expireStale => simp [ApprovalGate.expireStale, hp]
  | checkApproval id => rfl
  | listPending => rfl
  | checkAndReject command approvalId => rfl

/-- **One operation, one row.** A stored row stays as it is once it is decided or
the gate is poisoned, and is settled by the call otherwise. -/
theorem find?_apply_of_some (hrow : g.rows.find? k = some row) :
    (g.apply u call).2.rows.find? k =
      some (if g.poisoned = false ∧ row.status = .pending then settle row call else row) := by
  cases hp : g.poisoned with
  | true => rw [apply_rows_of_poisoned u hp, hrow]; simp
  | false =>
    have hk : row.id = k := Table.key_of_find? hrow
    simp only [true_and]
    unfold ApprovalGate.apply settle
    cases call.op with
    | requestApproval id command actor reason ttlSecs =>
      simp only [reply_snd, ite_self]
      by_cases hok : (g.requestApproval call.now id command actor reason ttlSecs).1.IsOk
      · obtain ⟨new, hnew⟩ := Outcome.isOk_iff.mp hok
        obtain ⟨_, _, hfree, _, hfind⟩ := ApprovalGate.requestApproval_of_ok hnew
        have hne : new.id ≠ k := by
          rintro rfl
          rw [hfree] at hrow
          cases hrow
        rw [hfind, if_neg hne, hrow]
      · rw [ApprovalGate.requestApproval_rows_of_not_ok hok, hrow]
    | approve id decidedBy => exact hk ▸ ApprovalGate.find?_decideAs_of_some hp (hk ▸ hrow)
    | deny id decidedBy => exact hk ▸ ApprovalGate.find?_decideAs_of_some hp (hk ▸ hrow)
    | expireStale =>
      simp only [reply_snd]
      rw [ApprovalGate.find?_expireStale hp, hrow]
      by_cases hpend : row.status = .pending <;> simp [ApprovalGate.isStale, hpend]
    | checkApproval id => simpa using hrow
    | listPending => simpa using hrow
    | checkAndReject command approvalId => simpa using hrow

/-- A row that appears is the one that a successful request returns. -/
theorem find?_apply_of_none (hnone : g.rows.find? k = none)
    (hrow : (g.apply u call).2.rows.find? k = some row) :
    (g.apply u call).1 = .requested (.ok row) := by
  cases hp : g.poisoned with
  | true =>
    rw [apply_rows_of_poisoned u hp, hnone] at hrow
    cases hrow
  | false =>
    unfold ApprovalGate.apply at hrow ⊢
    cases hop : call.op with
    | requestApproval id command actor reason ttlSecs =>
      simp only [hop, reply_snd, reply_fst] at hrow ⊢
      by_cases hok : (g.requestApproval call.now id command actor reason ttlSecs).1.IsOk
      · obtain ⟨new, hnew⟩ := Outcome.isOk_iff.mp hok
        obtain ⟨_, _, _, _, hfind⟩ := ApprovalGate.requestApproval_of_ok hnew
        rw [hfind] at hrow
        split at hrow
        · rw [hnew, Option.some.inj hrow]
        · rw [hnone] at hrow
          cases hrow
      · rw [ApprovalGate.requestApproval_rows_of_not_ok hok, hnone] at hrow
        cases hrow
    | approve id decidedBy =>
      simp only [hop, reply_snd] at hrow
      rw [ApprovalGate.approve, ApprovalGate.find?_decideAs_of_none hp hnone] at hrow
      cases hrow
    | deny id decidedBy =>
      simp only [hop, reply_snd] at hrow
      rw [ApprovalGate.deny, ApprovalGate.find?_decideAs_of_none hp hnone] at hrow
      cases hrow
    | expireStale =>
      simp only [hop, reply_snd] at hrow
      rw [ApprovalGate.find?_expireStale hp, hnone] at hrow
      cases hrow
    | checkApproval id => simp [hop, hnone] at hrow
    | listPending => simp [hop, hnone] at hrow
    | checkAndReject command approvalId => simp [hop, hnone] at hrow

/-- What a request that succeeds has done: it was made with the data of the row
it returns, which is pending and now stored, in a gate that works. -/
theorem apply_requested (h : (g.apply u call).1 = .requested (.ok row)) :
    row.status = .pending ∧ g.poisoned = false ∧ poisons call = false ∧
      (g.apply u call).2.rows.find? row.id = some row := by
  have hpoisoned : (g.apply u call).2.poisoned = (g.poisoned || poisons call) := apply_poisoned u
  unfold ApprovalGate.apply at h hpoisoned ⊢
  cases hop : call.op with
  | requestApproval id command actor reason ttlSecs =>
    simp only [hop, reply_fst, reply_snd, ApprovalReply.requested.injEq] at h hpoisoned ⊢
    obtain ⟨hp, hnew, _, hp', hfind⟩ := ApprovalGate.requestApproval_of_ok h
    rw [hp', hp, Bool.false_or] at hpoisoned
    refine ⟨?_, hp, hpoisoned.symm, by rw [hfind, if_pos rfl]⟩
    obtain ⟨_, _, rfl⟩ := Option.map_eq_some_iff.mp hnew
    rfl
  | _ => simp [hop] at h

end Rows

/-! ### Runs -/

section Runs

variable (u : Unicode)

/-- A row after the calls that follow it, in a gate that keeps working. -/
def follow (row : PendingApproval) : List ApprovalCall → PendingApproval
  | [] => row
  | call :: calls => follow (if row.status = .pending then settle row call else row) calls

theorem follow_of_not_pending {row : PendingApproval} (h : row.status ≠ .pending)
    (calls : List ApprovalCall) : follow row calls = row := by
  induction calls with
  | nil => rfl
  | cons call calls ih => rw [follow, if_neg h, ih]

@[simp] theorem follow_command (row : PendingApproval) (calls : List ApprovalCall) :
    (follow row calls).command = row.command := by
  induction calls generalizing row with
  | nil => rfl
  | cons call calls ih =>
    rw [follow, ih]
    split
    · exact settle_command
    · rfl

/-- The first verdict settles a pending row for good. -/
theorem follow_status {row : PendingApproval} (h : row.status = .pending)
    (calls : List ApprovalCall) :
    (follow row calls).status = (calls.findSome? (verdict row)).getD .pending := by
  induction calls generalizing row with
  | nil => exact h
  | cons call calls ih =>
    rw [follow, if_pos h, List.findSome?_cons]
    cases hv : verdict row call with
    | none =>
      have hstill : (settle row call).status = .pending := by rw [settle_status, hv]; exact h
      have hsame : verdict (settle row call) = verdict row := funext verdict_settle
      rw [ih hstill, hsame]
    | some status =>
      have hdone : (settle row call).status = status := by rw [settle_status, hv]; rfl
      have hne : status ≠ .pending := by
        rintro rfl
        unfold verdict at hv
        split at hv <;> try split_ifs at hv
        all_goals cases hv
      rw [follow_of_not_pending (hdone ▸ hne), hdone, Option.getD_some]

theorem final_poisoned (calls : List ApprovalCall) (g : ApprovalGate) :
    (Machine.final (ApprovalGate.apply u) calls g).poisoned =
      (g.poisoned || calls.any poisons) := by
  induction calls generalizing g with
  | nil => simp
  | cons call calls ih => rw [Machine.final_cons, ih, apply_poisoned, List.any_cons, Bool.or_assoc]

/-- A run of a working gate does to each stored row what the calls say, whatever
they do to the other rows. -/
theorem find?_final {calls : List ApprovalCall} {g : ApprovalGate} {k : String}
    {row : PendingApproval} (hrow : g.rows.find? k = some row)
    (hp : (Machine.final (ApprovalGate.apply u) calls g).poisoned = false) :
    (Machine.final (ApprovalGate.apply u) calls g).rows.find? k = some (follow row calls) := by
  induction calls generalizing g row with
  | nil => exact hrow
  | cons call calls ih =>
    have hg : g.poisoned = false := by
      rw [final_poisoned] at hp
      exact (Bool.or_eq_false_iff.mp hp).1
    refine ih ?_ hp
    rw [find?_apply_of_some u hrow]
    simp only [hg, true_and]

/-- **The abstract picture holds.** After a successful request and any further
calls, either the gate is poisoned and the request has no standing, or its row is
stored with the status that its standing gives. -/
theorem standing_of_run {row : PendingApproval} {call : ApprovalCall} {g : ApprovalGate}
    (hreq : (g.apply u call).1 = .requested (.ok row)) (calls : List ApprovalCall) :
    let g' := Machine.final (ApprovalGate.apply u) calls (g.apply u call).2
    (g'.poisoned = true ∧ standing row calls = none) ∨
      (g'.poisoned = false ∧ ∃ r, g'.rows.find? row.id = some r ∧ r.command = row.command ∧
        standing row calls = some r.status) := by
  intro g'
  obtain ⟨hpend, hg, hcall, hrow⟩ := apply_requested u hreq
  have hpoisoned : g'.poisoned = calls.any poisons := by
    rw [final_poisoned, apply_poisoned, hg, hcall, Bool.false_or, Bool.false_or]
  unfold standing
  rw [← hpoisoned]
  cases hp : g'.poisoned with
  | true => exact Or.inl ⟨rfl, rfl⟩
  | false =>
    refine Or.inr ⟨rfl, _, find?_final u hrow hp, follow_command row calls, ?_⟩
    rw [follow_status hpend]
    rfl

/-! ### Authorizations rest on approvals -/

/-- An `approve` call that took the pending row and left it as `row`. -/
def MovedToApproved (t : ApprovalStep) (row : PendingApproval) : Prop :=
  (∃ decidedBy, t.input.op = .approve row.id decidedBy) ∧
    (∃ old, t.before.rows.find? row.id = some old ∧ old.status = .pending ∧
      old.command = row.command) ∧
    t.after.rows.find? row.id = some row ∧ row.status = .approved

/-- What the gate promises about its approvals over a run. -/
structure ApprovalsSound (run : List ApprovalStep) : Prop where
  /-- A destructive command passes only on a stored row with that very command,
  which an earlier call moved from pending to approved. -/
  authorized : ∀ past use future command approvalId, run = past ++ use :: future →
    use.input.op = .checkAndReject command approvalId → use.output = .gated (.ok ()) →
    isDestructive u use.before.extraPatterns command = true →
    ∃ row, approvalId = some row.id ∧ use.before.rows.find? row.id = some row ∧
      row.command = command ∧ ∃ t ∈ past, MovedToApproved t row
  /-- A decided row never changes again. -/
  settled : ∀ past t future row, run = past ++ t :: future →
    t.before.rows.find? row.id = some row → row.status ≠ .pending →
    ∀ t' ∈ t :: future, t'.before.rows.find? row.id = some row ∧
      t'.after.rows.find? row.id = some row
  /-- A denied or expired row authorizes no destructive command, then or later. -/
  refused : ∀ past t future row, run = past ++ t :: future →
    t.before.rows.find? row.id = some row → row.status = .denied ∨ row.status = .expired →
    ∀ t' ∈ t :: future, ∀ command, isDestructive u t'.before.extraPatterns command = true →
      t'.input.op = .checkAndReject command (some row.id) → t'.output ≠ .gated (.ok ())

theorem find?_apply_of_decided {g : ApprovalGate} {k : String} {row : PendingApproval}
    (call : ApprovalCall) (hrow : g.rows.find? k = some row) (hne : row.status ≠ .pending) :
    (g.apply u call).2.rows.find? k = some row := by
  rw [find?_apply_of_some u hrow, if_neg fun h => hne h.2]

/-- Every approved row of a run was moved there by an earlier approval. -/
theorem approved_of_history {call : ApprovalCall} {history : List ApprovalStep} {g : ApprovalGate}
    (ih : ∀ k row, g.rows.find? k = some row → row.status = .approved →
      ∃ t ∈ history, MovedToApproved t row) :
    ∀ k row, (g.apply u call).2.rows.find? k = some row → row.status = .approved →
      ∃ t ∈ history ++ [Machine.stepOf (ApprovalGate.apply u) call g], MovedToApproved t row := by
  intro k row hrow happroved
  cases hold : g.rows.find? k with
  | none =>
    have hpend := (apply_requested u (find?_apply_of_none u hold hrow)).1
    rw [happroved] at hpend
    cases hpend
  | some old =>
    have hstep := hrow
    rw [find?_apply_of_some u hold] at hstep
    split_ifs at hstep with hsettled
    · -- The call settled the row, so it was an approval of it.
      obtain rfl : settle old call = row := Option.some.inj hstep
      refine ⟨_, List.mem_append_right _ (List.mem_singleton_self _), ?_, ?_, ?_, happroved⟩
      · rw [settle_id]
        exact (settle_approved_iff hsettled.2).mp happroved
      · have hid : old.id = k := Table.key_of_find? hold
        exact ⟨old, by rw [settle_id, hid]; exact hold, hsettled.2, settle_command.symm⟩
      · have hid : (settle old call).id = k := Table.key_of_find? hrow
        rw [hid]
        exact hrow
    · obtain rfl := Option.some.inj hstep
      obtain ⟨t, ht, hmoved⟩ := ih k old hold happroved
      exact ⟨t, List.mem_append_left _ ht, hmoved⟩

/-- **Approvals are sound.** Over every run from a new gate, whatever the calls,
their ids and their times. -/
theorem approvals_sound (extraPatterns : List String) (calls : List ApprovalCall) :
    ApprovalsSound u (approvalRun u extraPatterns calls) := by
  have settled : ∀ past t future row, approvalRun u extraPatterns calls = past ++ t :: future →
      t.before.rows.find? row.id = some row → row.status ≠ .pending →
      ∀ t' ∈ t :: future, t'.before.rows.find? row.id = some row ∧
        t'.after.rows.find? row.id = some row := by
    intro past t future row hrun hrow hne t' ht'
    obtain ⟨-, htail⟩ := Machine.trace_eq_append hrun
    have hstart : t.before = Machine.final (ApprovalGate.apply u) (past.map Machine.Step.input)
        (ApprovalGate.new extraPatterns) := by
      rw [(Machine.trace_eq_cons htail.symm).1]
      rfl
    rw [htail] at ht'
    exact Machine.trace_invariant (I := fun g => g.rows.find? row.id = some row)
      (fun call g h => find?_apply_of_decided u call h hne) (hstart ▸ hrow) ht'
  refine ⟨?_, settled, ?_⟩
  · intro past use future command approvalId hrun hop hout hdestr
    have hhistory := Machine.history_at
      (R := fun history (g : ApprovalGate) => ∀ k row, g.rows.find? k = some row →
        row.status = .approved → ∃ t ∈ history, MovedToApproved t row)
      (fun call history g ih => approved_of_history u ih) (by simp [ApprovalGate.new]) hrun
    obtain ⟨-, htail⟩ := Machine.trace_eq_append hrun
    have huse := (Machine.trace_eq_cons htail.symm).1
    rw [huse] at hout hhistory hdestr ⊢
    simp only [Machine.stepOf_before, Machine.stepOf_output, ApprovalGate.apply, hop,
      ApprovalReply.gated.injEq] at hout hhistory hdestr ⊢
    obtain ⟨-, id, row, hid, -, hrow, hst, hcmd⟩ :=
      (ApprovalGate.checkAndReject_ok_iff u hdestr).mp hout
    obtain rfl : row.id = id := Table.key_of_find? hrow
    exact ⟨row, hid, hrow, hcmd, hhistory _ row hrow hst⟩
  · intro past t future row hrun hrow hbad t' ht' command hdestr hop hout
    have hne : row.status ≠ .pending := by rcases hbad with h | h <;> simp [h]
    have hrow' := (settled past t future row hrun hrow hne t' ht').1
    have hmem : t' ∈ approvalRun u extraPatterns calls :=
      hrun ▸ List.mem_append_right past ht'
    obtain ⟨_, _, _, hstep⟩ := Machine.mem_trace_split hmem
    rw [hstep] at hout hrow' hdestr
    simp only [Machine.stepOf_before, Machine.stepOf_output, ApprovalGate.apply, hop,
      ApprovalReply.gated.injEq] at hout hrow' hdestr
    obtain ⟨-, id, r, hid, -, hr, hst, -⟩ :=
      (ApprovalGate.checkAndReject_ok_iff u hdestr).mp hout
    obtain rfl := Option.some.inj hid
    obtain rfl := Option.some.inj (hrow'.symm.trans hr)
    rcases hbad with h | h <;> simp [h] at hst

/-! ### Approvals are limited in time -/

/-- The instant whose text a request stores as `expires_at`. -/
def expiry (call : ApprovalCall) : Option DateTime :=
  match call.op with
  | .requestApproval _ _ _ _ ttlSecs =>
    call.now.addSeconds (ttlSecs.getD defaultTtlSecs).toInt
  | _ => none

/-- The step moves the row under an id to approved, from any other status. -/
def MovesToApproved (t : ApprovalStep) (id : String) : Prop :=
  (∃ row, t.before.rows.find? id = some row ∧ row.status ≠ .approved) ∧
    ∃ row, t.after.rows.find? id = some row ∧ row.status = .approved

/-- The step lets a destructive command through on the row under an id. -/
def Authorizes (t : ApprovalStep) (id : String) : Prop :=
  ∃ command, t.input.op = .checkAndReject command (some id) ∧
    isDestructive u t.before.extraPatterns command = true ∧ t.output = .gated (.ok ())

/-- `use` comes after `opening`, a request that returned `row` and expires at
`deadline`; `mid` are the steps between the two. -/
def Uses (run : List ApprovalStep) (opening : ApprovalStep) (row : PendingApproval)
    (deadline : DateTime) (mid : List ApprovalStep) (use : ApprovalStep) : Prop :=
  (∃ past future, run = past ++ opening :: (mid ++ use :: future)) ∧
    opening.output = .requested (.ok row) ∧ expiry opening.input = some deadline

/-- No row is approved, and no approved row used, later than its expiry. -/
def TimeLimited (run : List ApprovalStep) : Prop :=
  ∀ opening row deadline mid use, Uses run opening row deadline mid use →
    (MovesToApproved use row.id → use.input.now ≤ deadline) ∧
      (Authorizes u use row.id → use.input.now ≤ deadline)

/-- The calls themselves keep the time limit: a request is approved after its
expiry only if an earlier call (a decision, or a sweep after the expiry) has taken
it out of pending, and its command is presented with its id after the expiry only
if it is not an approved one. -/
def Punctual (run : List ApprovalStep) : Prop :=
  ∀ opening row deadline mid use, Uses run opening row deadline mid use →
    deadline < use.input.now →
    (∀ decidedBy, use.input.op = .approve row.id decidedBy →
      standing row (mid.map Machine.Step.input) ≠ some .pending) ∧
    (use.input.op = .checkAndReject row.command (some row.id) → row.id ≠ "" →
      isDestructive u use.before.extraPatterns row.command = true →
      standing row (mid.map Machine.Step.input) ≠ some .approved)

/-- The state in which a later step meets a request. -/
theorem standing_at_use {extraPatterns : List String} {calls : List ApprovalCall}
    {opening use : ApprovalStep} {row : PendingApproval} {deadline : DateTime}
    {mid : List ApprovalStep}
    (h : Uses (approvalRun u extraPatterns calls) opening row deadline mid use) :
    use = Machine.stepOf (ApprovalGate.apply u) use.input use.before ∧
      ((use.before.poisoned = true ∧ standing row (mid.map Machine.Step.input) = none) ∨
        (use.before.poisoned = false ∧ ∃ r, use.before.rows.find? row.id = some r ∧
          r.command = row.command ∧
          standing row (mid.map Machine.Step.input) = some r.status)) := by
  obtain ⟨⟨past, future, hrun⟩, hopen, -⟩ := h
  obtain ⟨-, htail⟩ := Machine.trace_eq_append hrun
  obtain ⟨hopening, hrest⟩ := Machine.trace_eq_cons htail.symm
  obtain ⟨-, huse⟩ := Machine.trace_eq_append hrest.symm
  have hstep := (Machine.trace_eq_cons huse.symm).1
  have hbefore : use.before = Machine.final (ApprovalGate.apply u)
      (mid.map Machine.Step.input) opening.after := by
    rw [hstep]
    rfl
  refine ⟨by rw [hbefore]; exact hstep, ?_⟩
  rw [hopening] at hopen hbefore
  rw [hbefore]
  exact standing_of_run u hopen _

/-- A row is moved to approved exactly by an `approve` of its id while its request
is still pending. -/
theorem movesToApproved_iff {extraPatterns : List String} {calls : List ApprovalCall}
    {opening use : ApprovalStep} {row : PendingApproval} {deadline : DateTime}
    {mid : List ApprovalStep}
    (h : Uses (approvalRun u extraPatterns calls) opening row deadline mid use) :
    MovesToApproved use row.id ↔ (∃ decidedBy, use.input.op = .approve row.id decidedBy) ∧
      standing row (mid.map Machine.Step.input) = some .pending := by
  obtain ⟨hstep, hstate⟩ := standing_at_use u h
  have hafter : use.after = (use.before.apply u use.input).2 := by
    rw [hstep]
    rfl
  unfold MovesToApproved
  rw [hafter]
  rcases hstate with ⟨hp, hst⟩ | ⟨hp, r, hr, -, hst⟩
  · rw [apply_rows_of_poisoned u hp, hst]
    constructor
    · rintro ⟨⟨a, ha, hne⟩, b, hb, heq⟩
      obtain rfl : a = b := Option.some.inj (ha.symm.trans hb)
      exact absurd heq hne
    · rintro ⟨-, hnone⟩
      cases hnone
  · have hid : r.id = row.id := Table.key_of_find? hr
    rw [find?_apply_of_some u hr, hr, hst]
    simp only [hp, true_and, Option.some.injEq, exists_eq_left']
    by_cases hpend : r.status = .pending
    · rw [if_pos hpend, settle_approved_iff hpend, hid]
      simp [hpend]
    · simp [hpend]

/-- A destructive command passes on a row exactly when it is the row's command and
its request stands approved. -/
theorem authorizes_iff {extraPatterns : List String} {calls : List ApprovalCall}
    {opening use : ApprovalStep} {row : PendingApproval} {deadline : DateTime}
    {mid : List ApprovalStep}
    (h : Uses (approvalRun u extraPatterns calls) opening row deadline mid use) :
    Authorizes u use row.id ↔ use.input.op = .checkAndReject row.command (some row.id) ∧
      row.id ≠ "" ∧ isDestructive u use.before.extraPatterns row.command = true ∧
      standing row (mid.map Machine.Step.input) = some .approved := by
  obtain ⟨hstep, hstate⟩ := standing_at_use u h
  have hout : use.output = (use.before.apply u use.input).1 := by
    rw [hstep]
    rfl
  unfold Authorizes
  rw [hout]
  constructor
  · rintro ⟨command, hop, hdestr, hok⟩
    simp only [ApprovalGate.apply, hop, ApprovalReply.gated.injEq] at hok
    obtain ⟨hp, id, r, hid, hne, hr, hstatus, hcmd⟩ :=
      (ApprovalGate.checkAndReject_ok_iff u hdestr).mp hok
    obtain rfl := Option.some.inj hid
    rcases hstate with ⟨hp', -⟩ | ⟨-, r', hr', hcmd', hst⟩
    · rw [hp] at hp'
      cases hp'
    · obtain rfl : r = r' := Option.some.inj (hr.symm.trans hr')
      obtain rfl : row.command = command := hcmd'.symm.trans hcmd
      exact ⟨hop, hne, hdestr, by rw [hst, hstatus]⟩
  · rintro ⟨hop, hne, hdestr, hst⟩
    rcases hstate with ⟨-, hnone⟩ | ⟨hp, r, hr, hcmd, hst'⟩
    · rw [hst] at hnone
      cases hnone
    · rw [hst] at hst'
      refine ⟨row.command, hop, hdestr, ?_⟩
      simp only [ApprovalGate.apply, hop, ApprovalReply.gated.injEq]
      exact (ApprovalGate.checkAndReject_ok_iff u hdestr).mpr
        ⟨hp, row.id, r, rfl, hne, hr, (Option.some.inj hst').symm, hcmd⟩

/-- **Time limits rest on the callers.** A run keeps the time limit of its
approvals exactly when its calls do: neither `approve` nor `check_and_reject` reads
the expiry of the row. -/
theorem timeLimited_iff_punctual (extraPatterns : List String) (calls : List ApprovalCall) :
    TimeLimited u (approvalRun u extraPatterns calls) ↔
      Punctual u (approvalRun u extraPatterns calls) := by
  constructor
  · intro h opening row deadline mid use huses hlate
    obtain ⟨hmoves, hauth⟩ := h opening row deadline mid use huses
    rw [movesToApproved_iff u huses] at hmoves
    rw [authorizes_iff u huses] at hauth
    refine ⟨fun decidedBy hop hst => ?_, fun hop hne hdestr hst => ?_⟩
    · exact DateTime.not_le.mpr hlate (hmoves ⟨⟨decidedBy, hop⟩, hst⟩)
    · exact DateTime.not_le.mpr hlate (hauth ⟨hop, hne, hdestr, hst⟩)
  · intro h opening row deadline mid use huses
    rw [movesToApproved_iff u huses, authorizes_iff u huses]
    constructor
    · rintro ⟨⟨decidedBy, hop⟩, hst⟩
      by_contra hlate
      exact (h opening row deadline mid use huses (DateTime.not_le.mp hlate)).1 decidedBy hop hst
    · rintro ⟨hop, hne, hdestr, hst⟩
      by_contra hlate
      exact (h opening row deadline mid use huses (DateTime.not_le.mp hlate)).2 hop hne hdestr hst

end Runs

/-- An approval that expires at once, approved an hour later and used another hour
after that, with no sweep in between. -/
def lateApproval : List ApprovalCall :=
  [⟨⟨0, DateTime.zero_inRange⟩, .requestApproval "a" "reboot" "agent" "update" (some 0)⟩,
   ⟨⟨3600 * 1000000000, DateTime.hour_inRange⟩, .approve "a" "admin"⟩,
   ⟨⟨7200 * 1000000000, by decide⟩, .checkAndReject "reboot" (some "a")⟩]

/-- The row that `lateApproval` asks for. -/
def lateRow : PendingApproval where
  id := "a"
  command := "reboot"
  actor := "agent"
  reason := "update"
  createdAt := "1970-01-01T00:00:00+00:00"
  expiresAt := "1970-01-01T00:00:00+00:00"
  status := .pending
  decidedAt := none
  decidedBy := none

/-- The clock of `lateApproval` does not go back, and the row is approved an hour
after its expiry. -/
theorem lateApproval_not_timeLimited :
    (lateApproval.map (·.now)).Pairwise (· ≤ ·) ∧
      ¬ TimeLimited Unicode.ascii (approvalRun Unicode.ascii [] lateApproval) := by
  refine ⟨by decide, fun h => ?_⟩
  have hlimit := (h _ lateRow ⟨0, by decide⟩ [] _ ⟨⟨[], _, rfl⟩, by decide, by decide⟩).1
  have hmoves : (3600 * 1000000000 : Int) ≤ 0 := hlimit
    ⟨⟨lateRow, by decide, by decide⟩,
      ApprovalGate.decideRow ⟨3600 * 1000000000, DateTime.hour_inRange⟩ .approved "admin" lateRow,
      by decide, by decide⟩
  omega

end OsModa.Agentd
